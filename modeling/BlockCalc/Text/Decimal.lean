import BlockCalc.Text.Numeral

/-!
# BlockCalc.Text.Decimal

Decimal fractions with an exponent, and what is left of them in a double: whether they have room
in one, and the whole part of the nearest one.
-/

namespace BlockCalc

/-- The number `± digits * 10 ^ exponent`. -/
structure Decimal where
  negative : Bool
  digits : Nat
  exponent : Int
deriving DecidableEq, Repr, Inhabited

namespace Decimal

def isDigit (c : Char) : Bool := '0' ≤ c && c ≤ '9'

def number (ds : List Char) : Nat := ds.foldl (fun n c => n * 10 + (c.toNat - '0'.toNat)) 0

/-- A sign, if there is one, and what follows it. -/
def sign : List Char → Bool × List Char
  | '+' :: rest => (false, rest)
  | '-' :: rest => (true, rest)
  | cs => (false, cs)

/-- The exponent at the end of a number; without one it is zero. -/
def exponent? : List Char → Option Int
  | [] => some 0
  | e :: cs =>
    if e = 'e' ∨ e = 'E' then
      match sign cs with
      | (negative, ds) =>
        if ds.isEmpty ∨ !ds.all isDigit then none
        else some (if negative then -(number ds : Int) else number ds)
    else none

/-- Reads digits, with a point anywhere among them or none, and an exponent. -/
def parse (cs : List Char) : Option Decimal :=
  match sign cs with
  | (negative, body) =>
    let (whole, rest) := body.span isDigit
    let (fraction, tail) :=
      match rest with
      | '.' :: more => more.span isDigit
      | _ => ([], rest)
    if whole.isEmpty ∧ fraction.isEmpty then none
    else
      match exponent? tail with
      | some e => some ⟨negative, number (whole ++ fraction), e - fraction.length⟩
      | none => none

/-- The number of digits before the point. -/
def magnitude (d : Decimal) : Int := (Nat.toDigits 10 d.digits).length + d.exponent

/-- The size of the number as a fraction. -/
def ratio (d : Decimal) : Nat × Nat :=
  if 0 ≤ d.exponent then (d.digits * Nat.pow 10 d.exponent.toNat, 1)
  else (d.digits, Nat.pow 10 (-d.exponent).toNat)

/-- Whether the nearest double is finite. -/
def isFinite (d : Decimal) : Bool :=
  if d.digits = 0 ∨ d.magnitude < 309 then true
  else if 309 < d.magnitude then false
  else
    match d.ratio with
    | (p, q) => p < (Nat.pow 2 1024 - Nat.pow 2 970) * q

/-- The integer nearest to `p / q`, the even one of two. -/
def nearest (p q : Nat) : Nat :=
  let n := p / q
  let r := p % q
  if 2 * r < q ∨ (2 * r = q ∧ n % 2 = 0) then n else n + 1

/-- The whole part of the double nearest to `p / q`. -/
def wholePart (p q : Nat) : Nat :=
  let e := (p / q).log2
  let shift := if p < q then 53 else 52 - e
  if e ≤ 52 then nearest (p * Nat.pow 2 shift) q / Nat.pow 2 shift
  else nearest p (q * Nat.pow 2 (e - 52)) * Nat.pow 2 (e - 52)

/-- The whole part of the nearest double as a number of 64 bits. What lies below them is the least
of them, and what lies above them has no place. -/
def toInteger? (d : Decimal) : Option Int :=
  if d.digits = 0 ∨ d.magnitude < 0 then some 0
  else if 20 < d.magnitude then if d.negative then some (-0x8000000000000000) else none
  else
    match d.ratio with
    | (p, q) =>
      let n := wholePart p q
      if d.negative then some (max (-(n : Int)) (-0x8000000000000000))
      else if n < 0x8000000000000000 then some n
      else if n = 0x8000000000000000 then some (-0x8000000000000000)
      else none

end Decimal
end BlockCalc
