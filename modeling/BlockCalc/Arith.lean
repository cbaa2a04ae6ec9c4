/-!
# BlockCalc.Arith

Checked arithmetic on 64-bit integers. Each operation computes in machine words, which wrap, and
then looks at the operands and the result for the cases in which the exact answer has no room.
-/

namespace BlockCalc

/-- How a quotient that is no integer is rounded. -/
inductive Division where
  | truncate
  | floor
deriving DecidableEq, Repr, Inhabited

def Division.name : Division → String
  | .truncate => "truncate"
  | .floor => "floor"

/-- Every name but that of rounding down stands for rounding toward zero. -/
def Division.ofName (name : String) : Division :=
  if name = Division.floor.name then .floor else .truncate

inductive ArithError where
  | divisionByZero
  | overflow
deriving DecidableEq, Repr, Inhabited

def ArithError.message : ArithError → String
  | .divisionByZero => "division by zero"
  | .overflow => "integer overflow"

namespace Arith

/-- A sum of two numbers of one sign has that sign. -/
def add (a b : Int64) : Except ArithError Int64 :=
  let r := a + b
  if (0 < a ∧ 0 < b ∧ r < 0) ∨ (a < 0 ∧ b < 0 ∧ 0 ≤ r) then .error .overflow else .ok r

/-- A difference of two numbers of different signs has the sign of the first. -/
def sub (a b : Int64) : Except ArithError Int64 :=
  let r := a - b
  if (0 ≤ a ∧ b < 0 ∧ r < 0) ∨ (a < 0 ∧ 0 < b ∧ 0 ≤ r) then .error .overflow else .ok r

/-- A product divided by one factor gives the other. -/
def mul (a b : Int64) : Except ArithError Int64 :=
  if a = 0 ∨ b = 0 then .ok 0
  else if (a = -1 ∧ b = Int64.minValue) ∨ (b = -1 ∧ a = Int64.minValue) then .error .overflow
  else
    let r := a * b
    if r / b = a then .ok r else .error .overflow

/-- The quotient rounded toward zero, or toward negative infinity. -/
def div (mode : Division) (a b : Int64) : Except ArithError Int64 :=
  if b = 0 then .error .divisionByZero
  else if a = Int64.minValue ∧ b = -1 then .error .overflow
  else
    let q := a / b
    if mode = .floor ∧ a % b ≠ 0 ∧ (decide (a < 0)) ≠ (decide (b < 0)) then .ok (q - 1) else .ok q

def neg (a : Int64) : Except ArithError Int64 :=
  if a = Int64.minValue then .error .overflow else .ok (-a)

end Arith
end BlockCalc
