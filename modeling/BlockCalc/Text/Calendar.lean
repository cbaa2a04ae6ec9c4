import BlockCalc.Text.Decimal

/-!
# BlockCalc.Text.Calendar

What dates and times of day are written with, whatever stands between their numbers.
-/

namespace BlockCalc
namespace Calendar

open Decimal (isDigit)

def daysIn (year month : Nat) : Nat :=
  if month = 2 then
    if (year % 4 = 0 ∧ year % 100 ≠ 0) ∨ year % 400 = 0 then 29 else 28
  else if month = 4 ∨ month = 6 ∨ month = 9 ∨ month = 11 then 30
  else 31

def isDate (year month day : Nat) : Bool :=
  1 ≤ month && month ≤ 12 && 1 ≤ day && day ≤ daysIn year month

def isTime (hour minute second : Nat) : Bool := hour < 24 && minute < 60 && second < 60

/-- A number of exactly `width` digits, and what follows it. -/
def fixedDigits (width : Nat) (cs : List Char) : Option (Nat × List Char) :=
  let ds := cs.take width
  if ds.length = width ∧ ds.all isDigit then some (Decimal.number ds, cs.drop width) else none

/-- A number of one or two digits, and what follows it. -/
def shortNumber (cs : List Char) : Option (Nat × List Char) :=
  (fixedDigits 2 cs).or (fixedDigits 1 cs)

/-- What follows the character `c`. -/
def after (c : Char) : List Char → Option (List Char)
  | d :: rest => if d = c then some rest else none
  | [] => none

/-- The distance from universal time in hours and minutes, after which nothing follows. A day and
an hour are the most. -/
def isOffset : List Char → Bool
  | s :: rest =>
    (s == '+' || s == '-') &&
      match fixedDigits 2 rest with
      | some (h, ':' :: rest) =>
        match fixedDigits 2 rest with
        | some (m, []) => h ≤ 24 && m ≤ 60
        | _ => false
      | _ => false
  | [] => false

end Calendar
end BlockCalc
