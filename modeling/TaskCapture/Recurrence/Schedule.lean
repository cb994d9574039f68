import TaskCapture.Calendar.Clock
import TaskCapture.Recurrence.Rule

/-!
When a repeating task falls due: the date after a date, and the run of dates that begins there.
Each date is derived from the one before it.
-/

namespace TaskCapture.Rule

/-- How many days after a day of the given weekday the next of the days falls, if any is given. It
is the first one later in the week, or else the first one of the week after. -/
def daysAhead (weekday : Nat) (days : List Nat) : Nat :=
  match days with
  | [] => 7
  | first :: _ =>
    match days.find? (weekday < ·) with
    | some later => later - weekday
    | none => 7 - weekday + first

/-- The date after `d`, if the calendar reaches that far. -/
def nextDate? (r : Rule) (d : Date) : Option Date :=
  match r.frequency with
  | .daily => d.succ?
  | .weekly => d.addDays? (daysAhead d.weekday r.sortedDays : Nat)
  | .monthly => d.addMonths? 1
  | .yearly => d.addMonths? 12

/-- The same time of day on the date after. -/
def next? (r : Rule) (i : Instant) : Option Instant := (r.nextDate? i.date).map (⟨·, i.time⟩)

/-- The first `n` instants after `i`, or as many as there are. -/
def occurrences (r : Rule) : Nat → Instant → List Instant
  | 0, _ => []
  | n + 1, i =>
    match r.next? i with
    | none => []
    | some j => j :: occurrences r n j

@[simp] theorem occurrences_zero (r : Rule) (i : Instant) : r.occurrences 0 i = [] := rfl

theorem occurrences_succ_of_none {r : Rule} {i : Instant} (h : r.next? i = none) (n : Nat) :
    r.occurrences (n + 1) i = [] := by simp [occurrences, h]

theorem occurrences_succ_of_some {r : Rule} {i j : Instant} (h : r.next? i = some j) (n : Nat) :
    r.occurrences (n + 1) i = j :: r.occurrences n j := by simp [occurrences, h]

end TaskCapture.Rule
