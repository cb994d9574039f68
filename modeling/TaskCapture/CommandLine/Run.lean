import TaskCapture.Capture.Interpret
import TaskCapture.Capture.Presence
import TaskCapture.Capture.Preview
import TaskCapture.Capture.TaskJson
import TaskCapture.CommandLine.Args
import TaskCapture.CommandLine.Help
import TaskCapture.Recurrence.Schedule
import TaskCapture.Recurrence.Stored
import TaskCapture.Settings.Store

/-!
What the program prints, and how a whole run of it ends.
-/

namespace TaskCapture

/-- A labelled line of the report on a task. -/
def reportLine (label : String) (value : Text) : Text :=
  label.toList ++ List.replicate (12 - label.length) ' ' ++ value

/-- The report on a task, with a preview if the line it came from is worth one. -/
def Task.report (t : Task) (preview : Bool) : List Text :=
  [reportLine "title:" t.title] ++
    (t.dueDate.map fun d => reportLine "due:" d.text).toList ++
    (t.dueTime.map fun w => reportLine "time:" w).toList ++
    (t.priority.map fun p => reportLine "priority:" p.label.toList).toList ++
    (if t.categories.isEmpty then []
      else [reportLine "categories:" (List.intercalate ", ".toList t.categories)]) ++
    (if t.contexts.isEmpty then []
      else [reportLine "contexts:" (List.intercalate ", ".toList t.contexts)]) ++
    (if preview then [reportLine "preview:" (t.preview none)] else [])

namespace Command

/-- The task of a line, with the default priority where it has none. -/
def taskOf (now : Instant) (c : Config) (text : Text) : Task :=
  let t := interpret Resolver.english now text
  { t with priority := t.priority.or c.defaultPriority }

/-- The lines that a command prints; `now` is the instant at which it runs. -/
def output (now : Instant) (c : Config) : Command → List Text
  | .parse text given json =>
    let t := taskOf (given.getD now) c text
    if json || c.jsonOutput then [t.toJson.pretty 0] else t.report (c.preview && hasTokens text)
  | .next start dateOnly rule count =>
    match Rule.ofStored? rule with
    | none => ["not recurring".toList]
    | some r => (r.occurrences count start).map fun i => if dateOnly then i.date.text else i.text
  | .check text => [(if hasTokens text then "true" else "false").toList]
  | .help => [helpText Location.program]

def run (now : Instant) (c : Config) (cmd : Command) : Text :=
  List.intercalate ['\n'] (cmd.output now c)

end Command

/-- How a run of the program ends. -/
inductive Outcome where
  | success (stdout : Text)
  | failure (stderr : Text)
  deriving DecidableEq

namespace Program

/-- What an error shows: its text and, below, what caused it. -/
def errorText (t : Text) : Text := "Error: ".toList ++ t ++ ['\n']

/-- Where a request looks for the configuration; `home` is the user's own place, if there is one. -/
def location? (home : Option Location) (r : Request) : Option Location :=
  match r.root with
  | some root => some (.under root)
  | none => home

/-- A run with a request; help needs no configuration. -/
def runRequest (now : Instant) (home : Option Location) (r : Request) (disk : Node) :
    Outcome × Node :=
  if r.command = .help then (.success (r.command.run now {} ++ ['\n']), disk)
  else match location? home r with
    | none => (.failure (errorText "No home directory".toList), disk)
    | some l =>
      match Store.loadOrDefault (Store.context l) disk with
      | (.ok c, disk) => (.success (r.command.run now c ++ ['\n']), disk)
      | (.error e, disk) => (.failure (errorText e.text), disk)

/-- A run with the arguments after the program's name. -/
def run (now : Instant) (home : Option Location) (args : List Text) (disk : Node) :
    Outcome × Node :=
  match Request.ofArgs args with
  | .ok r => runRequest now home r disk
  | .error e => (.failure (errorText e.message), disk)

end Program

end TaskCapture
