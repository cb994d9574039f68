import TaskCapture.Calendar.Reading
import TaskCapture.Capture.Task
import TaskCapture.Json.Reader
import TaskCapture.Json.Writer

/-!
Tasks as JSON. An object may leave out what a task can lack and may have members of other names; a
list holds all seven fields in order.
-/

namespace TaskCapture

namespace Json

def text? : Json → Option Text
  | .str s => some s
  | _ => none

def texts? : Json → Option (List Text)
  | .arr vs => vs.mapM text?
  | _ => none

/-- What `read` makes of a value that may be null. -/
def optional? {α : Type} (read : Json → Option α) : Json → Option (Option α)
  | .null => some none
  | v => (read v).map some

def ofTexts (ts : List Text) : Json := .arr (ts.map .str)

def ofOption {α : Type} (write : α → Json) : Option α → Json
  | none => .null
  | some a => write a

end Json

/-- The code of a priority, or an object with the code as the name of one null member. -/
def Priority.ofJson? : Json → Option Priority
  | .str s => ofCode? s
  | .obj [(k, .null)] => ofCode? k
  | _ => none

namespace Task

def toJson (t : Task) : Json :=
  .obj [("title".toList, .str t.title),
    ("dueDate".toList, .ofOption (fun d => .str d.text) t.dueDate),
    ("dueTime".toList, .ofOption .str t.dueTime),
    ("priority".toList, .ofOption (fun p => .str p.code.toList) t.priority),
    ("categories".toList, .ofTexts t.categories),
    ("contexts".toList, .ofTexts t.contexts),
    ("rawInput".toList, .str t.rawInput)]

/-- A task from the values of its fields. -/
def ofFields? (title dueDate dueTime priority categories contexts rawInput : Json) :
    Option Task := do
  let title ← title.text?
  let dueDate ← dueDate.optional? fun v => v.text?.bind Date.readLoose?
  let dueTime ← dueTime.optional? Json.text?
  let priority ← priority.optional? Priority.ofJson?
  let categories ← categories.texts?
  let contexts ← contexts.texts?
  let rawInput ← rawInput.text?
  return { title, dueDate, dueTime, priority, categories, contexts, rawInput }

def ofJson? : Json → Option Task
  | .obj ms => do
    let field (name : String) := Json.member? name.toList ms
    let optional (name : String) := (field name).getD .null
    let title ← field "title"
    let categories ← field "categories"
    let contexts ← field "contexts"
    let rawInput ← field "rawInput"
    ofFields? title (optional "dueDate") (optional "dueTime") (optional "priority") categories
      contexts rawInput
  | .arr [title, dueDate, dueTime, priority, categories, contexts, rawInput] =>
    ofFields? title dueDate dueTime priority categories contexts rawInput
  | _ => none

end Task

end TaskCapture
