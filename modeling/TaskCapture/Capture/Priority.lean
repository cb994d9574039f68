import TaskCapture.Text.Lowercase

/-!
How pressing a task is, with the words and digits that stand for it.
-/

namespace TaskCapture

inductive Priority where
  | low
  | medium
  | high
  | urgent
  deriving DecidableEq, Repr

namespace Priority

def all : List Priority := [low, medium, high, urgent]

/-- The word typed after an exclamation mark. -/
def keyword : Priority → String
  | low => "low"
  | medium => "medium"
  | high => "high"
  | urgent => "urgent"

/-- The name for display. -/
def label : Priority → String
  | low => "Low"
  | medium => "Medium"
  | high => "High"
  | urgent => "Urgent"

/-- The name in stored data. -/
def code : Priority → String
  | low => "LOW"
  | medium => "MEDIUM"
  | high => "HIGH"
  | urgent => "URGENT"

def ofKeyword? (w : Text) : Option Priority := all.find? fun p => p.keyword.toList == Text.lower w

def ofCode? (w : Text) : Option Priority := all.find? fun p => p.code.toList == w

/-- Level 1 is the most pressing of four. -/
def ofLevel? : Nat → Option Priority
  | 1 => some urgent
  | 2 => some high
  | 3 => some medium
  | 4 => some low
  | _ => none

theorem ofKeyword?_keyword (p : Priority) : ofKeyword? p.keyword.toList = some p := by
  cases p <;> decide

theorem ofCode?_code (p : Priority) : ofCode? p.code.toList = some p := by cases p <;> decide

end Priority

end TaskCapture
