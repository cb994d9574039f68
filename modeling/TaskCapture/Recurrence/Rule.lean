import TaskCapture.Calendar.Writing

/-!
Rules by which a task repeats. Days of the week are numbered from Sunday, 0; only a weekly rule
looks at them, and a number past Saturday is a day that has no name.
-/

namespace TaskCapture

inductive Frequency where
  | daily
  | weekly
  | monthly
  | yearly
  deriving DecidableEq, Repr

namespace Frequency

def all : List Frequency := [daily, weekly, monthly, yearly]

/-- The word that stands for the frequency in a stored rule. -/
def keyword : Frequency → String
  | daily => "daily"
  | weekly => "weekly"
  | monthly => "monthly"
  | yearly => "yearly"

def ofKeyword? (w : Text) : Option Frequency := all.find? fun f => f.keyword.toList == w

theorem ofKeyword?_keyword (f : Frequency) : ofKeyword? f.keyword.toList = some f := by
  cases f <;> decide

end Frequency

structure Rule where
  frequency : Frequency
  days : Option (List Nat) := none
  deriving DecidableEq, Repr

namespace Rule

def insertDay (d : Nat) : List Nat → List Nat
  | [] => [d]
  | e :: es => if d < e then d :: e :: es else if d = e then e :: es else e :: insertDay d es

/-- The selected days in ascending order, each once. -/
def sortedDays (r : Rule) : List Nat := (r.days.getD []).foldr insertDay []

theorem mem_insertDay {d e : Nat} {es : List Nat} : e ∈ insertDay d es ↔ e = d ∨ e ∈ es := by
  induction es with
  | nil => simp [insertDay]
  | cons f es ih => grind [insertDay]

theorem mem_sortedDays {r : Rule} {d : Nat} : d ∈ r.sortedDays ↔ d ∈ r.days.getD [] := by
  unfold sortedDays
  induction r.days.getD [] with
  | nil => simp
  | cons e es ih => simp [mem_insertDay, ih]

theorem pairwise_insertDay {d : Nat} {es : List Nat} (h : es.Pairwise (· < ·)) :
    (insertDay d es).Pairwise (· < ·) := by
  induction es with
  | nil => simp [insertDay]
  | cons e es ih =>
    have hes := List.pairwise_cons.1 h
    rw [insertDay]
    split
    · exact List.pairwise_cons.2 ⟨by grind, h⟩
    · split
      · exact h
      · exact List.pairwise_cons.2 ⟨by grind [mem_insertDay], ih hes.2⟩

theorem pairwise_sortedDays (r : Rule) : r.sortedDays.Pairwise (· < ·) := by
  unfold sortedDays
  induction r.days.getD [] with
  | nil => simp
  | cons e es ih => exact pairwise_insertDay ih

/-- The rule in words; days without a name are passed over. -/
def describe (r : Rule) : Text :=
  match r.frequency with
  | .daily => "every day".toList
  | .weekly =>
    if r.sortedDays.isEmpty then "every week".toList
    else "every week on ".toList ++
      List.intercalate ", ".toList (r.sortedDays.filterMap fun d => weekdayNames[d]?.map (·.toList))
  | .monthly => "every month".toList
  | .yearly => "every year".toList

end Rule

end TaskCapture
