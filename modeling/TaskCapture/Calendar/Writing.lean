import TaskCapture.Calendar.Clock
import TaskCapture.Text.Number

/-!
Dates and times in writing. A year outside 0 to 9999 carries its sign; every year has at least
four digits.
-/

namespace TaskCapture

open Text

def yearText (y : Int) : Text :=
  if 0 ≤ y ∧ y ≤ 9999 then padded 4 y.toNat
  else (if y < 0 then '-' else '+') :: paddedAtLeast 4 y.natAbs

/-- A day as year, month and day, `2025-03-04`. -/
def Date.text (d : Date) : Text :=
  yearText d.year ++ '-' :: padded 2 d.month ++ '-' :: padded 2 d.day

/-- The hour and minute, `14:05`. -/
def Clock.text (c : Clock) : Text := padded 2 c.hour ++ ':' :: padded 2 c.minute

def Instant.text (i : Instant) : Text := i.date.text ++ ' ' :: i.time.text

def weekdayNames : List String := ["Sun", "Mon", "Tue", "Wed", "Thu", "Fri", "Sat"]

def monthNames : List String :=
  ["Jan", "Feb", "Mar", "Apr", "May", "Jun", "Jul", "Aug", "Sep", "Oct", "Nov", "Dec"]

/-- Weekday, month and day, `Tue, Mar 4`. -/
def Date.brief (d : Date) : Text :=
  (weekdayNames.getD d.weekday "").toList ++ ", ".toList ++
    (monthNames.getD (d.month - 1) "").toList ++ ' ' :: decimal d.day

/-- The time on a twelve-hour clock, `2pm` or `9:30am`. -/
def Clock.brief (c : Clock) : Text :=
  decimal ((c.hour + 11) % 12 + 1) ++ (if c.minute = 0 then [] else ':' :: padded 2 c.minute) ++
    (if c.hour < 12 then "am" else "pm").toList

end TaskCapture
