/-!
# BlockCalc.Text.Numeral

Written numbers and truth values as options and configuration files give them. An integer may
have a sign, the mark of a base (`0x`, `0o`, `0b`, or a leading zero for base 8) and underscores
between its digits, and has to fit in 64 bits.
-/

namespace BlockCalc

/-- Why a text is no number. -/
inductive NumeralError where
  | notANumber
  | outOfRange
deriving DecidableEq, Repr, Inhabited

namespace Numeral

/-- The digit a character stands for, in any base up to 36. -/
def digit? (c : Char) : Option Nat :=
  if '0' ≤ c ∧ c ≤ '9' then some (c.toNat - '0'.toNat)
  else if 'a' ≤ c ∧ c ≤ 'z' then some (c.toNat - 'a'.toNat + 10)
  else if 'A' ≤ c ∧ c ≤ 'Z' then some (c.toNat - 'A'.toNat + 10)
  else none

/-- The number of a list of digits, read from `acc` on; underscores are passed over. It is out of
range as soon as it has no room in 64 bits. -/
def digits (base : Nat) : Nat → List Char → Except NumeralError Nat
  | acc, [] => .ok acc
  | acc, c :: rest =>
    if c = '_' then digits base acc rest
    else
      match digit? c with
      | none => .error .notANumber
      | some d =>
        if base ≤ d then .error .notANumber
        else if 0x10000000000000000 ≤ acc * base + d then .error .outOfRange
        else digits base (acc * base + d) rest

def isBaseMark (c : Char) : Bool := c.toLower ∈ ['b', 'o', 'x']

/-- Underscores stand between digits only; `afterDigit` says whether a digit, or the mark of a
base, was the last thing seen. -/
def separated (isDigit : Char → Bool) : Bool → List Char → Bool
  | _, [] => true
  | afterDigit, c :: rest =>
    if c = '_' then
      afterDigit &&
        match rest with
        | [] => false
        | d :: _ => d != '_' && isDigit d && separated isDigit false rest
    else separated isDigit (isDigit c) rest

/-- Whether the underscores of an unsigned number are well placed. -/
def underscoresOk (cs : List Char) : Bool :=
  let isDecimal (c : Char) : Bool := '0' ≤ c && c ≤ '9'
  match cs with
  | '0' :: m :: rest =>
    if isBaseMark m then
      let isHex := m.toLower == 'x'
      separated (fun c => isDecimal c || (isHex && (digit? c).any (· < 16))) true rest
    else separated isDecimal false cs
  | _ => separated isDecimal false cs

/-- The base of an unsigned number and its digits after the mark. -/
def baseOf (cs : List Char) : Nat × List Char :=
  match cs with
  | '0' :: m :: d :: rest =>
    match m.toLower with
    | 'b' => (2, d :: rest)
    | 'o' => (8, d :: rest)
    | 'x' => (16, d :: rest)
    | _ => (8, m :: d :: rest)
  | '0' :: rest => (8, rest)
  | _ => (10, cs)

/-- An unsigned number of at most 64 bits. -/
def unsigned (cs : List Char) : Except NumeralError Nat :=
  if cs.isEmpty then .error .notANumber
  else
    match baseOf cs with
    | (base, ds) =>
      match digits base 0 ds with
      | .error e => .error e
      | .ok n => if '_' ∈ cs ∧ !underscoresOk cs then .error .notANumber else .ok n

/-- A number with a sign or none, between the least and the greatest of 64 bits. -/
def integer (s : String) : Except NumeralError Int :=
  let signed (negative : Bool) (cs : List Char) : Except NumeralError Int :=
    match unsigned cs with
    | .error e => .error e
    | .ok n =>
      if negative then if n ≤ 0x8000000000000000 then .ok (-n) else .error .outOfRange
      else if n < 0x8000000000000000 then .ok n else .error .outOfRange
  match s.toList with
  | '+' :: rest => signed false rest
  | '-' :: rest => signed true rest
  | cs => signed false cs

/-- A truth value. -/
def truth? (s : String) : Option Bool :=
  if s ∈ ["1", "t", "T", "TRUE", "true", "True"] then some true
  else if s ∈ ["0", "f", "F", "FALSE", "false", "False"] then some false
  else none

end Numeral
end BlockCalc
