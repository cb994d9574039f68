import TaskCapture.Capture.Marker
import TaskCapture.Capture.Task
import TaskCapture.Phrase.Resolver

/-!
Interpreting a line: the priority is taken out first, then the categories, the contexts and the
date, each from what the step before left. What remains is the title.
-/

namespace TaskCapture

open Text

/-- The text before and after a span, if both its ends are boundaries of the text. A span that runs
backwards leaves the bytes between its ends on both sides. -/
def around? (t : Text) (s : Span) : Option (Text × Text) := do
  let (before, _) ← splitAtByte s.start t
  let (_, after) ← splitAtByte s.stop t
  return (before, after)

/-- What taking the date out of a text gives. -/
structure DateTaken where
  date : Option Date := none
  time : Option Text := none
  rest : Text
  /-- A span that does not fit the text, for which the match was given up. -/
  ignored : Option Span := none
  deriving DecidableEq

/-- The date of a text and the text without it, collapsed. A text without a date stays as it is. -/
def takeDate (resolve : Resolver) (ref : Instant) (t : Text) : DateTaken :=
  match resolve t ref with
  | none => { rest := t }
  | some m =>
    match around? t m.span with
    | none => { rest := t, ignored := some m.span }
    | some (before, after) =>
      { date := some m.instant.date
        time := if m.hasTime then some m.instant.time.text else none
        rest := collapse (before ++ after) }

/-- The warning about a match that was given up. -/
def DateTaken.warning? (t : Text) (d : DateTaken) : Option Text :=
  d.ignored.map fun s =>
    "Date resolver returned span ".toList ++ decimal s.start ++ "..".toList ++ decimal s.stop ++
      " outside of '".toList ++ t ++ "', ignoring it".toList

/-- A line that holds nothing but markers is its own title. -/
def titleOf (input rest : Text) : Text := if collapse rest = [] then trim input else collapse rest

def interpret (resolve : Resolver) (ref : Instant) (input : Text) : Task :=
  let p := Priority.extract input
  let c := Tag.extract .category p.2
  let x := Tag.extract .context c.2
  let d := takeDate resolve ref x.2
  { title := titleOf input d.rest
    dueDate := d.date
    dueTime := d.time
    priority := p.1
    categories := c.1
    contexts := x.1
    rawInput := input }

end TaskCapture
