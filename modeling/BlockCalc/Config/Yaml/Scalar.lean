import BlockCalc.Config.Yaml.Timestamp
import BlockCalc.Text.Base64
import BlockCalc.Text.Glyph

/-!
# BlockCalc.Config.Yaml.Scalar

What a scalar means. Its tag decides, or, where it has none and is not quoted, its text. A tag that
is not one of the common ones leaves the text as it is.
-/

namespace BlockCalc
namespace Yaml

/-- What a scalar means. A fraction is known by its whole part, if that has a place in 64 bits, and
a text may be another than the one written. -/
inductive Scalar where
  | null
  | truth
  | integer (n : Int)
  | fraction (whole : Option Int)
  | timestamp
  | text (t : Text)
deriving DecidableEq, Repr, Inhabited

namespace Scalar

/-- Digits of a base with a sign or none, between the least and the greatest of 64 bits. -/
def signedDigits (base : Nat) (cs : List Char) : Option Int :=
  match Decimal.sign cs with
  | (negative, ds) =>
    match ds, Numeral.digits base 0 ds with
    | _ :: _, .ok n =>
      if negative then if n ≤ 0x8000000000000000 then some (-n) else none
      else if n < 0x8000000000000000 then some n else none
    | _, _ => none

/-- An integer whose sign stands after the mark of its base. -/
def lateSign : List Char → Option Int
  | '0' :: 'b' :: ds => signedDigits 2 ds
  | '0' :: 'o' :: ds => signedDigits 8 ds
  | _ => none

def ofDecimal (d : Decimal) : Option Scalar :=
  if d.isFinite then some (.fraction d.toInteger?) else none

/-- A number: an integer in any base, or a decimal fraction. -/
def ofNumber (s : String) : Option Scalar :=
  let cs := s.toList.filter (· != '_')
  match Numeral.integer (String.ofList cs), Numeral.unsigned cs with
  | .ok n, _ => some (.integer n)
  | .error _, .ok n => some (.integer n)
  | .error _, .error _ =>
    match (Decimal.parse cs).bind ofDecimal with
    | some x => some x
    | none => (lateSign cs).map .integer

/-- A decimal fraction without digits before its point. Here underscores stand between digits
only. -/
def ofFraction (cs : List Char) : Option Scalar :=
  if Numeral.underscoresOk cs then (Decimal.parse (cs.filter (· != '_'))).bind ofDecimal else none

/-- What an unquoted scalar without a tag means. -/
def ofPlain (s : String) : Scalar :=
  let asWritten : Scalar := .text (Text.ofString s)
  if s ∈ ["", "~", "null", "Null", "NULL"] then .null
  else if s ∈ ["true", "True", "TRUE", "false", "False", "FALSE"] then .truth
  else if s ∈ ["-.inf", "-.Inf", "-.INF"] then .fraction (some (-0x8000000000000000))
  else if s ∈ [".nan", ".NaN", ".NAN", ".inf", ".Inf", ".INF", "+.inf", "+.Inf", "+.INF"] then
    .fraction none
  else
    match s.toList with
    | '.' :: _ => (ofFraction s.toList).getD asWritten
    | c :: _ =>
      if c = '+' ∨ c = '-' ∨ Decimal.isDigit c then (ofNumber s).getD asWritten else asWritten
    | [] => .null

/-- What a scalar means under its tag; nothing where the tag does not fit. -/
def ofTagged (tag : Option String) (s : String) (plain : Bool) : Option Scalar :=
  match tag with
  | none => some (if plain then ofPlain s else .text (Text.ofString s))
  | some "!!null" => if ofPlain s = .null then some .null else none
  | some "!!bool" => if ofPlain s = .truth then some .truth else none
  | some "!!int" =>
    match ofPlain s with
    | .integer n => some (.integer n)
    | _ => none
  | some "!!float" =>
    match ofPlain s with
    | .fraction w => some (.fraction w)
    | .integer n =>
      if n < 0x8000000000000000 then some (.fraction (Decimal.toInteger? ⟨n < 0, n.natAbs, 0⟩)) else none
    | _ => none
  | some "!!timestamp" => if isTimestamp s.toList then some .timestamp else none
  | some "!!binary" => (Base64.decode? s.toList).map fun bytes => .text (Text.ofBytes bytes)
  | some _ => some (.text (Text.ofString s))

end Scalar
end Yaml
end BlockCalc
