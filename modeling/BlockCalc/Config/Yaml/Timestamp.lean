import BlockCalc.Text.Calendar

/-!
# BlockCalc.Config.Yaml.Timestamp

The timestamps of YAML: a date alone, a date and a time of day after blanks, or a date, the letter
`T` and a time with its distance from universal time. Only the year has a fixed number of digits.
-/

namespace BlockCalc
namespace Yaml

namespace Timestamp

open Calendar (after shortNumber fixedDigits)

/-- A date; what follows it. -/
def date (cs : List Char) : Option (List Char) := do
  let (y, cs) ← fixedDigits 4 cs
  let cs ← after '-' cs
  let (m, cs) ← shortNumber cs
  let cs ← after '-' cs
  let (d, cs) ← shortNumber cs
  if Calendar.isDate y m d then some cs else none

/-- What follows the fraction of a second, if there is one. -/
def afterFraction : List Char → List Char
  | c :: d :: rest =>
    if (c = '.' ∨ c = ',') ∧ Decimal.isDigit d then rest.dropWhile Decimal.isDigit
    else c :: d :: rest
  | cs => cs

/-- A time of day; what follows it. -/
def time (cs : List Char) : Option (List Char) := do
  let (h, cs) ← shortNumber cs
  let cs ← after ':' cs
  let (m, cs) ← shortNumber cs
  let cs ← after ':' cs
  let (s, cs) ← shortNumber cs
  if Calendar.isTime h m s then some (afterFraction cs) else none

end Timestamp

def isTimestamp (cs : List Char) : Bool :=
  match Timestamp.date cs with
  | none => false
  | some [] => true
  | some (c :: rest) =>
    if c = ' ' then Timestamp.time (rest.dropWhile (· == ' ')) == some []
    else
      (c == 'T' || c == 't') &&
        (Timestamp.time rest).any fun zone => zone == ['Z'] || Calendar.isOffset zone

end Yaml
end BlockCalc
