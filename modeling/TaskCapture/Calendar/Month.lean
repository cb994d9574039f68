/-!
The Gregorian calendar, run back before its introduction: leap years, the lengths of months, and
the number of days before a year or a month.
-/

namespace TaskCapture.Calendar

def isLeap (y : Int) : Bool := decide (y % 4 = 0) && (decide (y % 100 ≠ 0) || decide (y % 400 = 0))

/-- No day belongs to a month outside 1 to 12. -/
def monthLength (y : Int) (m : Nat) : Nat :=
  if m = 2 then (if isLeap y then 29 else 28)
  else if m = 4 ∨ m = 6 ∨ m = 9 ∨ m = 11 then 30
  else if 1 ≤ m ∧ m ≤ 12 then 31
  else 0

theorem monthLength_le (y : Int) (m : Nat) : monthLength y m ≤ 31 := by
  unfold monthLength; repeat' split
  all_goals omega

theorem monthLength_pos_iff (y : Int) (m : Nat) : 0 < monthLength y m ↔ 1 ≤ m ∧ m ≤ 12 := by
  unfold monthLength; repeat' split
  all_goals omega

theorem le_monthLength {y : Int} {m : Nat} (h1 : 1 ≤ m) (h2 : m ≤ 12) : 28 ≤ monthLength y m := by
  unfold monthLength; repeat' split
  all_goals omega

/-- The days from 1 January of year 1 to 1 January of year `y`. -/
def daysBeforeYear (y : Int) : Int := 365 * (y - 1) + (y - 1) / 4 - (y - 1) / 100 + (y - 1) / 400

/-- The days from 1 January to the first of month `m`. -/
def daysBeforeMonth (y : Int) : Nat → Nat
  | 0 => 0
  | m + 1 => daysBeforeMonth y m + monthLength y m

def yearLength (y : Int) : Nat := if isLeap y then 366 else 365

theorem daysBeforeYear_succ (y : Int) :
    daysBeforeYear (y + 1) = daysBeforeYear y + yearLength y := by
  unfold daysBeforeYear yearLength isLeap
  by_cases h4 : y % 4 = 0 <;> by_cases h100 : y % 100 = 0 <;> by_cases h400 : y % 400 = 0 <;>
    simp [h4, h100, h400] <;> omega

theorem daysBeforeMonth_thirteen (y : Int) : daysBeforeMonth y 13 = yearLength y := by
  cases h : isLeap y <;> simp [daysBeforeMonth, monthLength, yearLength, h]

end TaskCapture.Calendar
