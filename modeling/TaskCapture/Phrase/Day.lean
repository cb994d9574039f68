import TaskCapture.Calendar.Reading
import TaskCapture.Phrase.Time

/-!
Days in words, seen from a reference instant: `tomorrow`, `next friday`, `in 3 days`, `2025-01-16`,
`3/14`, `mar 5th 2026`. An amount of minutes or hours also fixes the time. A word that can only open
one kind of phrase is no date when that phrase is not completed.
-/

namespace TaskCapture.Phrase

open Text

/-- The day that a phrase names, the time if it says one, and how many words it takes. -/
structure DayHit where
  date : Date
  time : Option Clock := none
  used : Nat

/-- Days from one weekday to the next of another; `strict` rules out the day itself. -/
def daysUntil (today target : Weekday) (strict : Bool) : Nat :=
  let ahead := (target.val + 7 - today.val) % 7
  if ahead = 0 ∧ strict then 7 else ahead

def onWeekday? (today : Date) (w : Weekday) (strict : Bool) : Option Date :=
  today.addDays? (daysUntil today.weekday w strict : Nat)

/-- The first day from `today` on with this month and day. Eight years reach past a century
without its leap day. -/
def upcoming? (today : Date) (month day : Nat) : Option Date :=
  (List.range 9).findSome? fun k : Nat =>
    (Date.ofYmd? (today.year + k) month day).filter (today ≤ ·)

def number? (w : Text) : Option Nat := (meaning numberWords w).or (readNat maxWord w)

/-- An amount and its unit, as two words (`3 days`) or as one (`3d`), and how many words it
takes. -/
def amount? : List Text → Option (Nat × TimeUnit × Nat)
  | [] => none
  | w :: ws =>
    match number? w, ws.head?.bind (meaning unitWords) with
    | some n, some u => some (n, u, 2)
    | _, _ => do
      let n ← readNat maxWord (w.takeWhile isAsciiDigit)
      let u ← meaning unitWords (w.dropWhile isAsciiDigit)
      return (n, u, 1)

/-- The day, or the instant, that lies the amount ahead; `used` counts the words. -/
def ahead? (ref : Instant) (n : Nat) (u : TimeUnit) (used : Nat) : Option DayHit :=
  let moment (i : Instant) : DayHit := ⟨i.date, some i.time, used⟩
  let whole (d : Date) : DayHit := ⟨d, none, used⟩
  match u with
  | .minute => (ref.addSeconds? (60 * n)).map moment
  | .hour => (ref.addSeconds? (3600 * n)).map moment
  | .day => (ref.date.addDays? n).map whole
  | .week => (ref.date.addDays? (7 * n : Nat)).map whole
  | .month => (ref.date.addMonths? n).map whole
  | .year => if 12 * n ≤ maxWord then (ref.date.addMonths? (12 * n)).map whole else none

/-- What `next` announces. -/
def nextDay? (today : Date) (w : Text) : Option Date :=
  match meaning weekdayWords w with
  | some wd => onWeekday? today wd true
  | none =>
    if w = "week".toList then today.addDays? 7
    else if w = "month".toList then today.addMonths? 1
    else if w = "year".toList then today.addMonths? 12
    else none

/-- Month and day, with a year or without: `3/14`, `3/14/2026`. -/
def slashDay? (today : Date) (w : Text) : Option Date :=
  match splitAll '/' w with
  | [m, d] => do upcoming? today (← readNat maxWord m) (← readNat maxWord d)
  | [m, d, y] => do
    let m ← readNat maxWord m
    let d ← readNat maxWord d
    if y.length = 4 then Date.ofYmd? (← readInt maxSignedWord y) m d else none
  | _ => none

/-- A day of the month, with its ordinal ending or without. -/
def monthDay? (w : Text) : Option Nat :=
  let digits := (["st", "nd", "rd", "th"].findSome? fun e => dropEnding? e.toList w).getD w
  (readNat maxWord digits).filter fun d => 1 ≤ d ∧ d ≤ 31

/-- A year of four characters. -/
def year? (w : Text) : Option Int := if w.length = 4 then readInt maxSignedWord w else none

/-- What follows the name of a month: a day, and perhaps a year. -/
def afterMonth? (today : Date) (month : Nat) : List Text → Option DayHit
  | [] => none
  | w :: ws => do
    let d ← monthDay? w
    match ws.head?.bind year? with
    | some y => (Date.ofYmd? y month d).map (⟨·, none, 3⟩)
    | none => (upcoming? today month d).map (⟨·, none, 2⟩)

/-- A day that is named without an opening word. A short weekday name does not count here. -/
def plainDay? (today : Date) (w : Text) (ws : List Text) : Option DayHit :=
  let one (d : Date) : DayHit := ⟨d, none, 1⟩
  match (meaning weekdayWords w).filter fun _ => "day".toList.isSuffixOf w with
  | some wd => (onWeekday? today wd false).map one
  | none =>
    match (Date.read? w).or (slashDay? today w) with
    | some d => some (one d)
    | none => (meaning monthWords w).bind fun m => afterMonth? today m ws

/-- The day that the first words name. -/
def day? (ref : Instant) : List Text → Option DayHit
  | [] => none
  | w :: ws =>
    let today := ref.date
    if w = "today".toList ∨ w = "tonight".toList then some ⟨today, none, 1⟩
    else if w = "tomorrow".toList then today.succ?.map (⟨·, none, 1⟩)
    else if w = "next".toList then (ws.head?.bind (nextDay? today)).map (⟨·, none, 2⟩)
    else if w = "this".toList ∨ w = "on".toList then
      ((ws.head?.bind (meaning weekdayWords)).bind (onWeekday? today · false)).map (⟨·, none, 2⟩)
    else if w = "in".toList then (amount? ws).bind fun (n, u, used) => ahead? ref n u (used + 1)
    else plainDay? today w ws

end TaskCapture.Phrase
