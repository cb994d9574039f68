import TaskCapture.Phrase.Resolver
import TaskCapture.Proofs.Machine.Guard

/-!
English date phrases on a machine: words in a list that is read by places, numbers of 32 and 64
bits, durations with bounds. Whatever the machine could refuse is asked of it.
-/

namespace TaskCapture.Machine

open Text Phrase

/-! ### Words -/

/-- The bytes of a word, and the form in which it is compared. -/
structure Word where
  start : ℕ
  stop : ℕ
  norm : Text

def word (t : Text) (start stop : ℕ) : Guarded Word := do
  return ⟨start, stop, norm (← slice t start stop)⟩

/-- The words of `t` from byte `n` on, where a word that has begun before starts at `open?`. -/
def wordsFrom (t : Text) (n : ℕ) (open? : Option ℕ) : Text → Guarded (List Word)
  | [] =>
    match open? with
    | some start => do return [← word t start (byteSize t)]
    | none => return []
  | c :: r =>
    if isBlank c then
      match open? with
      | some start => do
        let w ← word t start n
        return w :: (← wordsFrom t (n + c.utf8Size) none r)
      | none => wordsFrom t (n + c.utf8Size) none r
    else wordsFrom t (n + c.utf8Size) (some (open?.getD n)) r

/-! ### Times -/

def twelveHour? (pm : Bool) (w : Text) : Guarded (Option Clock) :=
  match hourMinute? w with
  | none => return none
  | some (h, m) =>
    if 1 ≤ h ∧ h ≤ 12 ∧ m ≤ 59 then do
      let hour ←
        if h = 12 then pure (if pm then 12 else 0)
        else if pm then unsigned 32 (h + 12)
        else pure h
      return Clock.ofHms? hour m 0
    else return none

def clockWord? (w : Text) : Guarded (Option Clock) :=
  match meaning clockWords w with
  | some c => return some c
  | none =>
    match dropEnding? "am".toList w with
    | some r => twelveHour? false r
    | none =>
      match dropEnding? "pm".toList w with
      | some r => twelveHour? true r
      | none => return twentyFourHour? w

/-- The time at place `i`, whose phrase began at place `first`, and how many words it takes. -/
def bareClockAt (ws : List Word) (first i : ℕ) : Guarded (Option (Clock × ℕ)) :=
  match ws[i]? with
  | none => return none
  | some w => do
    match ← clockWord? w.norm with
    | some c => return some (c, (← unsigned 64 (i - first)) + 1)
    | none =>
      match ws[← place ws (i + 1 : ℕ)]? with
      | none => return none
      | some half =>
        if (half.norm = "am".toList ∨ half.norm = "pm".toList) ∧ isClockNumber w.norm then do
          match ← clockWord? (w.norm ++ half.norm) with
          | some c => return some (c, (← unsigned 64 (i - first)) + 2)
          | none => return none
        else return none

def clockAt (ws : List Word) (i : ℕ) : Guarded (Option (Clock × ℕ)) :=
  match ws[i]? with
  | none => return none
  | some w => do
    if w.norm = "at".toList then bareClockAt ws i (← place ws (i + 1 : ℕ)) else bareClockAt ws i i

/-! ### Days -/

def daysUntil (today target : Weekday) (strict : Bool) : Guarded ℤ := do
  let ahead := (← signed 63 ((target.val : ℤ) - today.val)) % 7
  return if ahead = 0 ∧ strict then 7 else ahead

def addDays? (d : Date) (n : ℤ) : Guarded (Option Date) := do
  let seconds ← duration n 86400
  return d.addDays? (seconds / 86400)

def onWeekday? (today : Date) (w : Weekday) (strict : Bool) : Guarded (Option Date) := do
  addDays? today (← daysUntil today.weekday w strict)

/-- The first day of the month after this one. -/
def firstAfter? (y : ℤ) (m : ℕ) : Guarded (Option Date) := do
  if m = 12 then return Date.ofYmd? (← signed 31 (y + 1)) 1 1
  else return Date.ofYmd? y (← unsigned 32 (m + 1)) 1

def monthLength? (y : ℤ) (m : ℕ) : Guarded (Option ℕ) :=
  match Date.ofYmd? y m 1 with
  | none => return none
  | some first => do
    match ← firstAfter? y m with
    | none => return none
    | some next => return some (← unsigned 32 (next.toDays - first.toDays))

/-- A year that 32 bits do not hold is no year of the calendar. -/
def addMonths? (d : Date) (n : ℕ) : Guarded (Option Date) := do
  let total ← signed 63 ((d.month : ℤ) - 1 + n)
  let y ← signed 63 (d.year + total / 12)
  if -2 ^ 31 ≤ y ∧ y < 2 ^ 31 then
    let m ← unsigned 32 (total % 12 + 1)
    match ← monthLength? y m with
    | none => return none
    | some len => return Date.ofYmd? y m (min d.day len)
  else return none

def upcoming? (today : Date) (month day : ℕ) : Guarded (Option Date) := do
  let last ← signed 31 (today.year + 8)
  return (List.range (last - today.year + 1).toNat).findSome? fun k : ℕ =>
    (Date.ofYmd? (today.year + k) month day).filter (today ≤ ·)

/-- The byte of the first character for which `p` holds. -/
def findByte? (p : Char → Bool) : Text → Option ℕ
  | [] => none
  | c :: t => if p c then some 0 else (findByte? p t).map (c.utf8Size + ·)

/-- An amount and its unit in one word. -/
def joined? (w : Text) : Guarded (Option (ℕ × TimeUnit)) :=
  match findByte? (fun c => !isAsciiDigit c) w with
  | none => return none
  | some n => do
    let (digits, unit) ← cut w n
    return do return (← readNat maxWord digits, ← meaning unitWords unit)

def amountAt (ws : List Word) (i : ℕ) : Guarded (Option (ℕ × TimeUnit × ℕ)) :=
  match ws[i]? with
  | none => return none
  | some w => do
    let next ← place ws (i + 1 : ℕ)
    match number? w.norm, ws[next]?.bind fun v => meaning unitWords v.norm with
    | some n, some u => return some (n, u, 2)
    | _, _ => return (← joined? w.norm).map fun (n, u) => (n, u, 1)

def ahead? (ref : Instant) (n : ℕ) (u : TimeUnit) (used : ℕ) : Guarded (Option DayHit) :=
  let moment (i : Instant) : DayHit := ⟨i.date, some i.time, used⟩
  let whole (d : Date) : DayHit := ⟨d, none, used⟩
  match u with
  | .minute => do return (ref.addSeconds? (← duration n 60).toNat).map moment
  | .hour => do return (ref.addSeconds? (← duration n 3600).toNat).map moment
  | .day => do return (← addDays? ref.date n).map whole
  | .week => do return (← addDays? ref.date (← signed 63 (n * 7))).map whole
  | .month => do return (← addMonths? ref.date (← unsigned 32 n)).map whole
  | .year => do
    let n ← unsigned 32 n
    if 12 * n ≤ maxWord then return (← addMonths? ref.date (12 * n)).map whole else return none

def nextDay? (today : Date) (w : Text) : Guarded (Option Date) :=
  match meaning weekdayWords w with
  | some wd => onWeekday? today wd true
  | none =>
    if w = "week".toList then addDays? today 7
    else if w = "month".toList then addMonths? today 1
    else if w = "year".toList then addMonths? today 12
    else return none

def slashDay? (today : Date) (w : Text) : Guarded (Option Date) :=
  match splitAll '/' w with
  | [m, d] =>
    match readNat maxWord m, readNat maxWord d with
    | some m, some d => upcoming? today m d
    | _, _ => return none
  | _ => return Phrase.slashDay? today w

/-- The day and perhaps the year after the name of a month at place `i`. -/
def afterMonthAt (today : Date) (month : ℕ) (ws : List Word) (i : ℕ) : Guarded (Option DayHit) := do
  match ws[← place ws (i + 1 : ℕ)]? with
  | none => return none
  | some w =>
    match monthDay? w.norm with
    | none => return none
    | some d =>
      match ws[← place ws (i + 2 : ℕ)]?.bind fun v => year? v.norm with
      | some y => return (Date.ofYmd? y month d).map (⟨·, none, 3⟩)
      | none => return (← upcoming? today month d).map (⟨·, none, 2⟩)

def plainDayAt (today : Date) (w : Text) (ws : List Word) (i : ℕ) : Guarded (Option DayHit) :=
  let one (d : Date) : DayHit := ⟨d, none, 1⟩
  match (meaning weekdayWords w).filter fun _ => "day".toList.isSuffixOf w with
  | some wd => do return (← onWeekday? today wd false).map one
  | none =>
    match Date.read? w with
    | some d => return some (one d)
    | none => do
      match ← slashDay? today w with
      | some d => return some (one d)
      | none =>
        match meaning monthWords w with
        | some m => afterMonthAt today m ws i
        | none => return none

def dayAt (ref : Instant) (ws : List Word) (i : ℕ) : Guarded (Option DayHit) :=
  match ws[i]? with
  | none => return none
  | some w => do
    let today := ref.date
    let w := w.norm
    let j ← place ws (i + 1 : ℕ)
    let next := ws[j]?.map (·.norm)
    if w = "today".toList ∨ w = "tonight".toList then return some ⟨today, none, 1⟩
    else if w = "tomorrow".toList then return today.succ?.map (⟨·, none, 1⟩)
    else if w = "next".toList then
      match next with
      | none => return none
      | some v => return (← nextDay? today v).map (⟨·, none, 2⟩)
    else if w = "this".toList ∨ w = "on".toList then
      match next.bind (meaning weekdayWords) with
      | none => return none
      | some wd => return (← onWeekday? today wd false).map (⟨·, none, 2⟩)
    else if w = "in".toList then
      match ← amountAt ws j with
      | none => return none
      | some (n, u, used) => ahead? ref n u (← unsigned 64 (used + 1))
    else plainDayAt today w ws i

/-! ### Phrases -/

/-- The match whose words run from place `i` to place `last`. -/
def matched (ws : List Word) (i last : ℕ) (instant : Instant) (hasTime : Bool) :
    Guarded (Option DateMatch) := do
  return some ⟨⟨(← element ws i).start, (← element ws last).stop⟩, instant, hasTime⟩

def matchAt (ref : Instant) (ws : List Word) (i : ℕ) : Guarded (Option DateMatch) := do
  match ← clockAt ws i with
  | some (c, n) =>
    let j ← place ws (i + n : ℕ)
    match ← dayAt ref ws j with
    | some hit =>
      let stop ← place ws (j + hit.used : ℕ)
      matched ws i (← place ws (stop - 1)) ⟨hit.date, c⟩ true
    | none =>
      match if c.toSeconds < ref.time.toSeconds then ref.date.succ? else some ref.date with
      | some d => matched ws i (← place ws (j - 1)) ⟨d, c⟩ true
      | none => return none
  | none =>
    match ← dayAt ref ws i with
    | none => return none
    | some hit =>
      let stop ← place ws (i + hit.used : ℕ)
      let last ← place ws (stop - 1)
      match hit.time with
      | some c => matched ws i last ⟨hit.date, c⟩ true
      | none =>
        match ← clockAt ws (← place ws (last + 1 : ℕ)) with
        | some (c, n) => matched ws i (← place ws (last + n : ℕ)) ⟨hit.date, c⟩ true
        | none => matched ws i last ⟨hit.date, .midnight⟩ false

/-- The first match from place `i` on, with `left` places to go. -/
def firstFrom (ref : Instant) (ws : List Word) (i : ℕ) : ℕ → Guarded (Option DateMatch)
  | 0 => return none
  | left + 1 => do
    match ← matchAt ref ws i with
    | some m => return some m
    | none => firstFrom ref ws (i + 1) left

def english (t : Text) (ref : Instant) : Guarded (Option DateMatch) := do
  let ws ← wordsFrom t 0 none t
  firstFrom ref ws 0 ws.length

end TaskCapture.Machine
