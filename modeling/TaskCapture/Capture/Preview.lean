import TaskCapture.Calendar.Reading
import TaskCapture.Capture.Task
import TaskCapture.Recurrence.Rule

/-!
The summary of a task on one line: when it is due, how pressing it is, its tags and its rule.
-/

namespace TaskCapture

open Text

def previewSeparator : Text := " · ".toList

/-- The day and, where it can be read, the time. -/
def Task.dueBrief (d : Date) (time : Option Text) : Text :=
  d.brief ++ match time.bind Clock.read? with
    | some c => " at ".toList ++ c.brief
    | none => []

def Task.previewParts (t : Task) : List Text :=
  (t.dueDate.map fun d => dueBrief d t.dueTime).toList ++
    (t.priority.map fun p => p.label.toList).toList ++
    t.categories.map (TagKind.category.sigil :: ·) ++ t.contexts.map (TagKind.context.sigil :: ·)

def Task.preview (t : Task) (rule : Option Rule) : Text :=
  List.intercalate previewSeparator
    (t.previewParts ++ (rule.map fun r => "↻ ".toList ++ r.describe).toList)

end TaskCapture
