import TaskCapture.Calendar.Clock
import TaskCapture.Text.Lowercase
import TaskCapture.Text.Words

/-!
The words of English date and time phrases. A word is compared in small letters and without the
punctuation at its end.
-/

namespace TaskCapture.Phrase

open Text

/-- The meaning of a word, if the table has it. -/
def meaning {α : Type} (table : List (String × α)) (w : Text) : Option α :=
  (table.find? fun e => e.1.toList == w).map (·.2)

def weekdayWords : List (String × Weekday) :=
  [("mon", 1), ("monday", 1), ("tue", 2), ("tues", 2), ("tuesday", 2), ("wed", 3), ("wednesday", 3),
   ("thu", 4), ("thur", 4), ("thurs", 4), ("thursday", 4), ("fri", 5), ("friday", 5), ("sat", 6),
   ("saturday", 6), ("sun", 0), ("sunday", 0)]

def monthWords : List (String × Nat) :=
  [("jan", 1), ("january", 1), ("feb", 2), ("february", 2), ("mar", 3), ("march", 3), ("apr", 4),
   ("april", 4), ("may", 5), ("jun", 6), ("june", 6), ("jul", 7), ("july", 7), ("aug", 8),
   ("august", 8), ("sep", 9), ("sept", 9), ("september", 9), ("oct", 10), ("october", 10),
   ("nov", 11), ("november", 11), ("dec", 12), ("december", 12)]

def numberWords : List (String × Nat) :=
  [("a", 1), ("an", 1), ("one", 1), ("two", 2), ("three", 3), ("four", 4), ("five", 5), ("six", 6),
   ("seven", 7), ("eight", 8), ("nine", 9), ("ten", 10), ("eleven", 11), ("twelve", 12)]

inductive TimeUnit where
  | minute
  | hour
  | day
  | week
  | month
  | year
  deriving DecidableEq, Repr

def unitWords : List (String × TimeUnit) :=
  [("min", .minute), ("mins", .minute), ("minute", .minute), ("minutes", .minute), ("h", .hour),
   ("hr", .hour), ("hrs", .hour), ("hour", .hour), ("hours", .hour), ("d", .day), ("day", .day),
   ("days", .day), ("w", .week), ("wk", .week), ("wks", .week), ("week", .week), ("weeks", .week),
   ("mo", .month), ("month", .month), ("months", .month), ("y", .year), ("yr", .year),
   ("yrs", .year), ("year", .year), ("years", .year)]

def clockWords : List (String × Clock) :=
  [("noon", .noon), ("midday", .noon), ("midnight", .midnight)]

/-- The punctuation that may close a word. -/
def isClosing (c : Char) : Bool := [',', '.', ';', ':', '?', '!'].contains c

/-- The form in which a word is compared. -/
def norm (w : Text) : Text := lower (w.reverse.dropWhile isClosing).reverse

end TaskCapture.Phrase
