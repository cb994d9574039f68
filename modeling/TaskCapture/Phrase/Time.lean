import TaskCapture.Phrase.Vocabulary
import TaskCapture.Text.Number
import TaskCapture.Text.Split

/-!
Times of day in words: `noon`, `2pm`, `9:30 am`, `17:05`, each with `at` before it or without.
-/

namespace TaskCapture.Phrase

open Text

/-- Hours and minutes with a colon between them, or hours alone. -/
def hourMinute? (w : Text) : Option (Nat × Nat) :=
  match splitOnce ':' w with
  | some (a, b) => do return (← readNat maxWord a, ← readNat maxWord b)
  | none => (readNat maxWord w).map (·, 0)

/-- An hour from 1 to 12, with minutes or without, on one half of the day. -/
def twelveHour? (pm : Bool) (w : Text) : Option Clock := do
  let (h, m) ← hourMinute? w
  if 1 ≤ h ∧ h ≤ 12 then Clock.ofHms? (h % 12 + if pm then 12 else 0) m 0 else none

/-- An hour of one or two characters and minutes of two. -/
def twentyFourHour? (w : Text) : Option Clock := do
  let (a, b) ← splitOnce ':' w
  if a.isEmpty ∨ 2 < a.length ∨ b.length ≠ 2 then none
  else Clock.ofHms? (← readNat maxWord a) (← readNat maxWord b) 0

/-- The time that one word names. -/
def clockWord? (w : Text) : Option Clock :=
  match meaning clockWords w with
  | some c => some c
  | none =>
    match dropEnding? "am".toList w with
    | some r => twelveHour? false r
    | none =>
      match dropEnding? "pm".toList w with
      | some r => twelveHour? true r
      | none => twentyFourHour? w

/-- The word may be the number of a time whose half of the day comes as the next word. -/
def isClockNumber (w : Text) : Bool := w.all fun c => isAsciiDigit c || c == ':'

/-- The time that the first one or two words name, and how many it takes. -/
def bareClock? : List Text → Option (Clock × Nat)
  | [] => none
  | w :: ws =>
    match clockWord? w with
    | some c => some (c, 1)
    | none =>
      match ws with
      | half :: _ =>
        if (half = "am".toList ∨ half = "pm".toList) ∧ isClockNumber w then
          (clockWord? (w ++ half)).map (·, 2)
        else none
      | [] => none

/-- A time with or without `at`, and how many words it takes. -/
def clock? : List Text → Option (Clock × Nat)
  | [] => none
  | w :: ws =>
    if w = "at".toList then (bareClock? ws).map fun (c, n) => (c, n + 1) else bareClock? (w :: ws)

end TaskCapture.Phrase
