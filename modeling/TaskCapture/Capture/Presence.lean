import TaskCapture.Capture.Marker
import TaskCapture.Capture.Tag
import TaskCapture.Text.Digit

/-!
A quick look whether a line holds anything to interpret: a tag, a priority marker or a word that
often begins a date.
-/

namespace TaskCapture

open Text

/-- The small letter of an ASCII letter; the long s counts as an s. -/
def foldLetter (c : Char) : Char := if c = 'ſ' then 's' else c.toLower

/-- The text begins with the word `w`, whatever its letter case. -/
def beginsWithWord (w t : Text) : Bool :=
  (t.take w.length).map foldLetter == w && !startsWord (t.drop w.length)

def dateWords : List String :=
  ["today", "tonight", "tomorrow", "monday", "tuesday", "wednesday", "thursday", "friday",
   "saturday", "sunday", "next", "this"]

/-- The text begins with `in`, blanks and a number that no word character follows. -/
def beginsWithAmount (t : Text) : Bool :=
  let r := t.drop 2
  let ds := skipBlanks r
  (t.take 2).map foldLetter == "in".toList && r.head?.any isBlank && ds.head?.any isDecimal &&
    !startsWord (ds.dropWhile isDecimal)

/-- A word that often begins a date, standing by itself. -/
def dateWord : Pattern Unit := fun afterWord t =>
  if !afterWord && (dateWords.any (fun w => beginsWithWord w.toList t) || beginsWithAmount t) then
    some ((), 1)
  else none

def hasTokens (t : Text) : Bool :=
  Tag.occurs .category t || Tag.occurs .context t || (Priority.find? t).isSome ||
    (dateWord.find? false t).isSome

end TaskCapture
