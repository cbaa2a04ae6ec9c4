/-!
# BlockCalc.Value

Results of evaluation: a statement gives nothing, an expression an integer.
-/

namespace BlockCalc

inductive Value where
  | unit
  | int (v : Int64)
deriving DecidableEq, Repr, Inhabited

namespace Value

/-- The names of the kinds of value, numbered from 0. -/
def kindNames : List String := ["unit", "int"]

/-- The name of the kind with the given number. -/
def kindName (n : Int) : String :=
  if n < 0 then "unknown" else kindNames.getD n.toNat "unknown"

def kind : Value → Nat
  | .unit => 0
  | .int _ => 1

def isUnit : Value → Bool
  | .unit => true
  | .int _ => false

/-- The integer of a value; zero where there is none. -/
def toInt64 : Value → Int64
  | .unit => 0
  | .int v => v

def render : Value → String
  | .unit => "()"
  | .int v => s!"{v.toInt}"

end Value
end BlockCalc
