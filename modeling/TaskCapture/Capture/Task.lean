import TaskCapture.Calendar.Writing
import TaskCapture.Capture.Priority
import TaskCapture.Capture.Tag

/-!
A task as one line of text describes it, and the line that describes a task.
-/

namespace TaskCapture

structure Task where
  title : Text
  dueDate : Option Date
  /-- The hour and minute in writing, where the line names a time. -/
  dueTime : Option Text
  priority : Option Priority
  categories : List Text
  contexts : List Text
  /-- The line as it was typed. -/
  rawInput : Text
  deriving DecidableEq

namespace Task

def hasDue (t : Task) : Bool := t.dueDate.isSome

def priorityText : Option Priority → Text
  | none => []
  | some p => " !".toList ++ p.keyword.toList

def tagsText (k : TagKind) (names : List Text) : Text := names.flatMap fun n => ' ' :: k.sigil :: n

/-- The due date, with its time; a time without a date is not written. -/
def dueText : Option Date → Option Text → Text
  | none, _ => []
  | some d, none => ' ' :: d.text
  | some d, some t => ' ' :: d.text ++ ' ' :: t

/-- The line that describes the task: the title, the markers and the due date. -/
def line (t : Task) : Text :=
  t.title ++ priorityText t.priority ++ tagsText .category t.categories ++
    tagsText .context t.contexts ++ dueText t.dueDate t.dueTime

end Task

end TaskCapture
