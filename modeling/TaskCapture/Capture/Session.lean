import TaskCapture.Capture.Interpret
import TaskCapture.Capture.Preview
import TaskCapture.Recurrence.Schedule
import TaskCapture.Recurrence.Stored

/-!
A task over time: it is typed in, given a rule, and moved on to its next date when it is done.
-/

namespace TaskCapture

structure Session where
  now : Instant
  task : Task
  rule : Option Rule

namespace Session

inductive Step where
  | capture (text : Text)
  /-- The task's own line is typed in again. -/
  | recapture
  | setRule (stored : Text)
  | setNow (now : Instant)
  | complete

def start (now : Instant) : Session := ⟨now, interpret Resolver.english now [], none⟩

/-- When the task is due, at midnight if it names no time. -/
def due? (t : Task) : Option Instant :=
  t.dueDate.map fun d => ⟨d, (t.dueTime.bind Clock.read?).getD .midnight⟩

def step (s : Session) : Step → Session
  | .capture text => { s with task := interpret Resolver.english s.now text }
  | .recapture => { s with task := interpret Resolver.english s.now s.task.line }
  | .setRule stored => { s with rule := Rule.ofStored? stored }
  | .setNow now => { s with now }
  | .complete =>
    match s.rule, due? s.task with
    | some r, some i =>
      match r.next? i with
      | some j => { s with task := { s.task with dueDate := some j.date }, now := j }
      | none => s
    | _, _ => s

/-- The session after each of the steps. -/
def run (s : Session) : List Step → List Session
  | [] => []
  | step :: steps => s.step step :: (s.step step).run steps

end Session

end TaskCapture
