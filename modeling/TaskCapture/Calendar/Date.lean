import TaskCapture.Calendar.Month

/-!
Days of the calendar, which runs from the first day of year -262143 to the last of year 262142.
A day is also a number, counted so that 1 January of year 1 is day 1.
-/

namespace TaskCapture

open Calendar

def minYear : Int := -262143

def maxYear : Int := 262142

structure Date where
  year : Int
  month : Nat
  day : Nat
  minYear_le : minYear ≤ year
  year_le : year ≤ maxYear
  day_pos : 1 ≤ day
  day_le : day ≤ monthLength year month
  deriving DecidableEq

/-- Days are numbered from Sunday, 0, to Saturday, 6. -/
abbrev Weekday := Fin 7

namespace Date

def ofYmd? (y : Int) (m d : Nat) : Option Date :=
  if h : minYear ≤ y ∧ y ≤ maxYear ∧ 1 ≤ d ∧ d ≤ monthLength y m then
    some ⟨y, m, d, h.1, h.2.1, h.2.2.1, h.2.2.2⟩
  else none

theorem ofYmd?_self (d : Date) : ofYmd? d.year d.month d.day = some d := by
  simp [ofYmd?, d.minYear_le, d.year_le, d.day_pos, d.day_le]

theorem ofYmd?_eq_some_iff {y : Int} {m k : Nat} {d : Date} :
    ofYmd? y m k = some d ↔ d.year = y ∧ d.month = m ∧ d.day = k := by
  constructor
  · intro h
    unfold ofYmd? at h
    split at h
    · cases h; exact ⟨rfl, rfl, rfl⟩
    · cases h
  · rintro ⟨rfl, rfl, rfl⟩
    exact ofYmd?_self d

theorem month_mem (d : Date) : 1 ≤ d.month ∧ d.month ≤ 12 :=
  (monthLength_pos_iff d.year d.month).1 (Nat.lt_of_lt_of_le d.day_pos d.day_le)

/-- The number of the day. -/
def toDays (d : Date) : Int := daysBeforeYear d.year + daysBeforeMonth d.year d.month + d.day

/-- The month and day of the `n`-th day of a year, looked for from month `m` on, `left` months
long. -/
def monthDay (y : Int) (m : Nat) : Nat → Nat → Nat × Nat
  | 0, n => (m, n)
  | left + 1, n =>
    if n ≤ monthLength y m then (m, n) else monthDay y (m + 1) left (n - monthLength y m)

/-- The year of day `n`: 400 years are 146097 days, which puts the guess at most one year off. -/
def yearOfDay (n : Int) : Int :=
  let y := 400 * n / 146097 + 1
  if n ≤ daysBeforeYear y then y - 1
  else if daysBeforeYear (y + 1) < n then y + 1
  else y

/-- The day of number `n`, if the calendar reaches that far. -/
def ofDays? (n : Int) : Option Date :=
  let y := yearOfDay n
  let (m, d) := monthDay y 1 11 (n - daysBeforeYear y).toNat
  ofYmd? y m d

def addDays? (d : Date) (n : Int) : Option Date := ofDays? (d.toDays + n)

/-- The day after. -/
def succ? (d : Date) : Option Date := d.addDays? 1

def weekday (d : Date) : Weekday := ⟨(d.toDays % 7).toNat, by omega⟩

/-- Days are ordered as their numbers are. -/
instance : LE Date := ⟨fun a b => a.toDays ≤ b.toDays⟩

instance : LT Date := ⟨fun a b => a.toDays < b.toDays⟩

instance (a b : Date) : Decidable (a ≤ b) := inferInstanceAs (Decidable (a.toDays ≤ b.toDays))

instance (a b : Date) : Decidable (a < b) := inferInstanceAs (Decidable (a.toDays < b.toDays))

theorem le_def {a b : Date} : a ≤ b ↔ a.toDays ≤ b.toDays := Iff.rfl

theorem lt_def {a b : Date} : a < b ↔ a.toDays < b.toDays := Iff.rfl

/-- The length of a month, as the days from its first to the first of the month after it. The last
month of the calendar has none after it. -/
def monthLength? (y : Int) (m : Nat) : Option Nat := do
  let first ← ofYmd? y m 1
  let next ← if m = 12 then ofYmd? (y + 1) 1 1 else ofYmd? y (m + 1) 1
  return (next.toDays - first.toDays).toNat

/-- The same day `n` months later, or the last day of that month where the day is missing. -/
def addMonths? (d : Date) (n : Nat) : Option Date := do
  let total := d.month - 1 + n
  let y := d.year + (total / 12 : Nat)
  let m := total % 12 + 1
  let len ← monthLength? y m
  ofYmd? y m (min d.day len)

end Date

end TaskCapture
