import TaskCapture.Calendar.Writing
import TaskCapture.Text.Blank

/-!
Reading dates and times. Each number may have blanks before it and need not be padded; a year is
at most four digits, or any number of digits after a sign.
-/

namespace TaskCapture

open Text

namespace Calendar

/-- At most `width` digits, at least one. -/
def readField (width : Nat) (t : Text) : Option (Nat × Text) :=
  let t := skipBlanks t
  let ds := (t.take width).takeWhile isAsciiDigit
  if ds.isEmpty then none else some (digitsValue ds, t.drop ds.length)

def readYear (t : Text) : Option (Int × Text) :=
  let signed (sign : Int) (r : Text) : Option (Int × Text) :=
    let ds := r.takeWhile isAsciiDigit
    if ds.isEmpty then none else some (sign * digitsValue ds, r.drop ds.length)
  match skipBlanks t with
  | '-' :: r => signed (-1) r
  | '+' :: r => signed 1 r
  | r => (readField 4 r).map fun (n, r) => (n, r)

/-- The text after the character `c`, which must come first. -/
def skipChar (c : Char) : Text → Option Text
  | [] => none
  | d :: t => if d = c then some t else none

/-- A day; `gap` is what may be passed over before a hyphen. -/
def readYmd (gap : Text → Text) (t : Text) : Option (Date × Text) := do
  let (y, t) ← readYear t
  let t ← skipChar '-' (gap t)
  let (m, t) ← readField 2 t
  let t ← skipChar '-' (gap t)
  let (d, t) ← readField 2 t
  let date ← Date.ofYmd? y m d
  return (date, t)

def readHm (t : Text) : Option (Clock × Text) := do
  let (h, t) ← readField 2 t
  let t ← skipChar ':' t
  let (m, t) ← readField 2 t
  let time ← Clock.ofHms? h m 0
  return (time, t)

/-- The value, if the reader left nothing over. -/
def whole {α : Type} : Option (α × Text) → Option α
  | some (a, []) => some a
  | _ => none

end Calendar

open Calendar

/-- A day in the form `2025-03-04`. -/
def Date.read? (t : Text) : Option Date := whole (readYmd id t)

/-- The same form, with blanks allowed before the hyphens and at the end. -/
def Date.readLoose? (t : Text) : Option Date :=
  whole ((readYmd skipBlanks t).map fun (d, r) => (d, skipBlanks r))

/-- A time in the form `14:05`. -/
def Clock.read? (t : Text) : Option Clock := whole (readHm t)

/-- A day and a time in the forms `2025-03-04T14:05` and `2025-03-04 14:05`. -/
def Instant.read? (t : Text) : Option Instant :=
  match readYmd id t with
  | none => none
  | some (d, r) =>
    let timeAfter (r : Text) := (whole (readHm r)).map (Instant.mk d)
    ((skipChar 'T' r).bind timeAfter).or (timeAfter (skipBlanks r))

/-- A day with a time, or a day alone, which stands for its midnight; the flag tells of a day
alone. -/
def Instant.readOrDate? (t : Text) : Option (Instant × Bool) :=
  match Instant.read? t with
  | some i => some (i, false)
  | none => (Date.read? t).map fun d => (⟨d, .midnight⟩, true)

end TaskCapture
