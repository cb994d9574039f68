import TaskCapture.Capture.Task
import TaskCapture.Phrase.Resolver
import TaskCapture.Proofs.Calendar.ReadBack
import TaskCapture.Proofs.Text.Split

/-!
The words that a task is written with, as words of a phrase: a day, a time of day and a marker. A
day or a time is read back wherever it stands; a marker begins no phrase.
-/

namespace TaskCapture

open Text

/-- The characters that dates and times are written with. -/
def isStampChar (c : Char) : Bool := isAsciiDigit c || "+-:".toList.contains c

lemma isStampChar_of_isAsciiDigit {c : Char} (h : isAsciiDigit c = true) :
    isStampChar c = true := by
  simp [isStampChar, h]

lemma Date.isStampChar_of_mem_text {d : Date} {c : Char} (h : c ∈ d.text) :
    isStampChar c = true := by
  simp only [text, List.append_assoc, List.cons_append, List.mem_append, List.mem_cons] at h
  rcases h with h | rfl | h | rfl | h
  · unfold yearText at h
    split_ifs at h
    · exact isStampChar_of_isAsciiDigit (isAsciiDigit_of_mem_padded h)
    all_goals
      rcases List.mem_cons.1 h with rfl | h
      · decide
      · exact isStampChar_of_isAsciiDigit (isAsciiDigit_of_mem_paddedAtLeast h)
  · decide
  · exact isStampChar_of_isAsciiDigit (isAsciiDigit_of_mem_padded h)
  · decide
  · exact isStampChar_of_isAsciiDigit (isAsciiDigit_of_mem_padded h)

lemma Clock.isStampChar_of_mem_text {c : Clock} {a : Char} (h : a ∈ c.text) :
    isStampChar a = true := by
  simp only [text, List.mem_append, List.mem_cons] at h
  rcases h with h | rfl | h
  · exact isStampChar_of_isAsciiDigit (isAsciiDigit_of_mem_padded h)
  · decide
  · exact isStampChar_of_isAsciiDigit (isAsciiDigit_of_mem_padded h)

/-- A date has hyphens and a time has none. -/
lemma Date.hyphen_mem_text (d : Date) : '-' ∈ d.text := by simp [text]

lemma Date.colon_not_mem_text (d : Date) : ':' ∉ d.text := by
  have hp : ∀ w n, ':' ∉ padded w n := fun w n h =>
    absurd (isAsciiDigit_of_mem_padded h) (by decide)
  have hq : ∀ w n, ':' ∉ paddedAtLeast w n := fun w n h =>
    absurd (isAsciiDigit_of_mem_paddedAtLeast h) (by decide)
  simp only [text, yearText, List.append_assoc, List.cons_append, List.mem_append, List.mem_cons,
    hp, or_false]
  split_ifs <;> simp [hp, hq]

lemma Clock.colon_mem_text (c : Clock) : ':' ∈ c.text := by simp [text]

/-- The time without its seconds, which are not written. -/
def Clock.toMinute (c : Clock) : Clock :=
  ⟨c.hour, c.minute, 0, c.hour_lt, c.minute_lt, Nat.succ_pos 59⟩

namespace Phrase

lemma isStampChar_cases {c : Char} (h : isStampChar c = true) :
    c.toNat < 128 ∧ c.toLower = c ∧ isBlank c = false := by
  simp only [isStampChar, Bool.or_eq_true] at h
  rcases h with h | h
  · have hb := isBlank_of_isAsciiDigit h
    simp only [isAsciiDigit, Bool.and_eq_true, decide_eq_true_eq] at h
    have h1 : 48 ≤ c.toNat := h.1
    have h2 : c.toNat ≤ 57 := h.2
    refine ⟨by omega, ?_, hb⟩
    rw [Char.toLower, dif_neg]
    simp only [not_and]
    intro hA
    exact absurd (show 65 ≤ c.toNat from hA) (by omega)
  · simp only [List.contains_iff_mem, String.reduceToList, List.mem_cons, List.not_mem_nil,
      or_false] at h
    rcases h with rfl | rfl | rfl <;> decide

/-- A word of small letters without closing punctuation is compared as it stands. -/
lemma norm_append_singleton {w : Text} {c : Char}
    (h : ∀ d ∈ w ++ [c], d.toNat < 128 ∧ d.toLower = d) (hc : isClosing c = false) :
    norm (w ++ [c]) = w ++ [c] := by
  have hrev : (w ++ [c]).reverse.dropWhile isClosing = (w ++ [c]).reverse := by simp [hc]
  unfold norm
  rw [hrev, List.reverse_reverse, lower_of_ascii fun d hd => (h d hd).1]
  exact (List.map_congr_left fun d hd => (h d hd).2).trans (List.map_id _)

lemma padded_two (n : ℕ) :
    padded 2 n = [Nat.digitChar (n / 10 % 10)] ++ [Nat.digitChar (n % 10)] := rfl

lemma isClosing_of_isAsciiDigit {c : Char} (h : isAsciiDigit c = true) : isClosing c = false := by
  by_contra hc
  have hmem : c ∈ [',', '.', ';', ':', '?', '!'] :=
    List.contains_iff_mem.1 (Bool.of_not_eq_false hc)
  have hall : ([',', '.', ';', ':', '?', '!'].all fun d => !isAsciiDigit d) = true := by decide
  have hno := List.all_eq_true.1 hall c hmem
  simp [h] at hno

lemma isClosing_digitChar (n : ℕ) : isClosing (Nat.digitChar (n % 10)) = false :=
  isClosing_of_isAsciiDigit (isAsciiDigit_digitChar (Nat.mod_lt n (by decide)))

lemma norm_dateText (d : Date) : norm d.text = d.text := by
  have he : d.text = (yearText d.year ++ '-' :: padded 2 d.month ++
      '-' :: [Nat.digitChar (d.day / 10 % 10)]) ++ [Nat.digitChar (d.day % 10)] := by
    simp [Date.text, padded_two]
  rw [he]
  refine norm_append_singleton (fun c hc => ?_) (isClosing_digitChar _)
  rw [← he] at hc
  obtain ⟨h1, h2, -⟩ := isStampChar_cases (Date.isStampChar_of_mem_text hc)
  exact ⟨h1, h2⟩

lemma norm_clockText (c : Clock) : norm c.text = c.text := by
  have he : c.text = (padded 2 c.hour ++ ':' :: [Nat.digitChar (c.minute / 10 % 10)]) ++
      [Nat.digitChar (c.minute % 10)] := by
    simp [Clock.text, padded_two]
  rw [he]
  refine norm_append_singleton (fun a ha => ?_) (isClosing_digitChar _)
  rw [← he] at ha
  obtain ⟨h1, h2, -⟩ := isStampChar_cases (Clock.isStampChar_of_mem_text ha)
  exact ⟨h1, h2⟩

lemma norm_marker (p : Priority) : norm ('!' :: p.keyword.toList) = '!' :: p.keyword.toList := by
  cases p <;> decide

/-! ### Words that no table has -/

lemma meaning_eq_none {α : Type} {table : List (String × α)} {w : Text} {c : Char} (hc : c ∈ w)
    (h : (table.all fun e => !e.1.toList.contains c) = true) : meaning table w = none := by
  unfold meaning
  rw [Option.map_eq_none_iff, List.find?_eq_none]
  intro e he hw
  have hn := List.all_eq_true.1 h e he
  rw [beq_iff_eq.1 hw] at hn
  simp [hc] at hn

lemma ne_of_mem_of_contains {c : Char} {w v : Text} (hc : c ∈ w) (h : v.contains c = false) :
    w ≠ v := by
  rintro rfl
  simp [hc] at h

/-- No ending has a character that the text has not. -/
lemma dropEnding?_of_not_mem {w t : Text} {c : Char} (hc : c ∈ w) (h : c ∉ t) :
    dropEnding? w t = none := by
  cases he : dropEnding? w t with
  | none => rfl
  | some a =>
    rw [eq_append_of_dropEnding? he] at h
    exact absurd (List.mem_append_right _ hc) h

/-- What dates and times are written with makes up no ending with a letter. -/
lemma dropEnding?_eq_none {w t : Text} (ht : ∀ c ∈ t, isStampChar c = true)
    (hw : (w.any fun c => !isStampChar c) = true) : dropEnding? w t = none := by
  obtain ⟨c, hc, hs⟩ := List.any_eq_true.1 hw
  refine dropEnding?_of_not_mem hc fun hmem => ?_
  rw [ht c hmem] at hs
  cases hs

/-! ### What the words mean -/

lemma clockWord?_dateText (d : Date) : clockWord? d.text = none := by
  have hstamp : ∀ c ∈ d.text, isStampChar c = true := fun _ h => Date.isStampChar_of_mem_text h
  unfold clockWord?
  rw [meaning_eq_none d.hyphen_mem_text (by decide),
    dropEnding?_eq_none (w := "am".toList) hstamp (by decide),
    dropEnding?_eq_none (w := "pm".toList) hstamp (by decide)]
  simp [twentyFourHour?, splitOnce_eq_none d.colon_not_mem_text]

lemma isClockNumber_dateText (d : Date) : isClockNumber d.text = false := by
  rw [isClockNumber, List.all_eq_false]
  exact ⟨'-', d.hyphen_mem_text, by decide⟩

/-- A time in writing means its hour and minute. -/
lemma clockWord?_clockText (c : Clock) :
    clockWord? c.text = some c.toMinute := by
  have hh := c.hour_lt
  have hmin := c.minute_lt
  have hstamp : ∀ a ∈ c.text, isStampChar a = true := fun _ h => Clock.isStampChar_of_mem_text h
  have hcolon : ':' ∉ padded 2 c.hour := fun h =>
    absurd (isAsciiDigit_of_mem_padded h) (by decide)
  have hsplit : splitOnce ':' c.text = some (padded 2 c.hour, padded 2 c.minute) :=
    splitOnce_append hcolon _
  have hne : (padded 2 c.hour).isEmpty = false := by simp [padded]
  unfold clockWord?
  rw [meaning_eq_none c.colon_mem_text (by decide),
    dropEnding?_eq_none (w := "am".toList) hstamp (by decide),
    dropEnding?_eq_none (w := "pm".toList) hstamp (by decide)]
  simp only [twentyFourHour?, hsplit, Option.bind_eq_bind, Option.bind_some, hne, length_padded,
    readNat_padded 2 c.hour maxWord (by decide) (by omega)
      (le_trans hh.le (by decide)),
    readNat_padded 2 c.minute maxWord (by decide) (by omega)
      (le_trans hmin.le (by decide))]
  rw [if_neg (by simp)]
  exact Clock.ofHms?_eq_some_iff.2 ⟨rfl, rfl, rfl⟩

lemma clockWord?_marker (p : Priority) : clockWord? ('!' :: p.keyword.toList) = none := by
  cases p <;> decide

lemma isClockNumber_marker (p : Priority) : isClockNumber ('!' :: p.keyword.toList) = false := by
  cases p <;> decide

/-- A word that is no time begins none, if it is not `at` and no number either. -/
lemma clock?_cons_eq_none {w : Text} (hat : w ≠ "at".toList) (hw : clockWord? w = none)
    (hn : isClockNumber w = false) (ws : List Text) : clock? (w :: ws) = none := by
  rw [clock?, if_neg hat, bareClock?.eq_def]
  simp only [hw]
  cases ws <;> simp [hn]

lemma clock?_dateText (d : Date) (ws : List Text) : clock? (d.text :: ws) = none :=
  clock?_cons_eq_none (ne_of_mem_of_contains d.hyphen_mem_text (by decide)) (clockWord?_dateText d)
    (isClockNumber_dateText d) ws

lemma clock?_marker (p : Priority) (ws : List Text) :
    clock? (('!' :: p.keyword.toList) :: ws) = none :=
  clock?_cons_eq_none (ne_of_mem_of_contains List.mem_cons_self (by decide)) (clockWord?_marker p)
    (isClockNumber_marker p) ws

lemma clock?_clockText (c : Clock) (ws : List Text) :
    clock? (c.text :: ws) = some (c.toMinute, 1) := by
  rw [clock?, if_neg (ne_of_mem_of_contains c.colon_mem_text (by decide)), bareClock?.eq_def]
  simp only [clockWord?_clockText]

/-- The words that open a phrase. -/
def openings : List String := ["today", "tonight", "tomorrow", "next", "this", "on", "in"]

/-- A word that opens nothing is looked up as a plain day. -/
lemma day?_eq_plainDay? {w : Text} (hne : ∀ v ∈ openings, w ≠ v.toList) (ref : Instant)
    (ws : List Text) : day? ref (w :: ws) = plainDay? ref.date w ws := by
  simp only [openings, List.mem_cons, List.not_mem_nil, or_false, forall_eq_or_imp, forall_eq]
    at hne
  obtain ⟨h1, h2, h3, h4, h5, h6, h7⟩ := hne
  rw [day?]
  simp only [h1, h2, h3, h4, h5, h6, h7, or_self, if_false]

lemma day?_cons {w : Text} {c : Char} (hc : c ∈ w)
    (h : (openings.all fun v => !v.toList.contains c) = true) (ref : Instant) (ws : List Text) :
    day? ref (w :: ws) = plainDay? ref.date w ws := by
  refine day?_eq_plainDay? (fun v hv => ne_of_mem_of_contains hc ?_) ref ws
  simpa using List.all_eq_true.1 h v hv

/-- A word that begins no day. -/
def beginsNoDay (w : Text) : Bool :=
  openings.all (fun v => w != v.toList) && (meaning weekdayWords w).isNone &&
    (Date.read? w).isNone && !w.contains '/' && (meaning monthWords w).isNone

lemma day?_of_beginsNoDay (h : beginsNoDay w = true) (ref : Instant) (ws : List Text) :
    day? ref (w :: ws) = none := by
  simp only [beginsNoDay, Bool.and_eq_true, List.all_eq_true, bne_iff_ne, Bool.not_eq_true',
    Option.isNone_iff_eq_none] at h
  obtain ⟨⟨⟨⟨hopen, hweekday⟩, hread⟩, hslash⟩, hmonth⟩ := h
  have hsplit : splitAll '/' w = [w] := splitAll_of_not_mem (by simpa using hslash)
  rw [day?_eq_plainDay? hopen, plainDay?, hweekday, hread, hmonth]
  simp [slashDay?, hsplit]

/-- **A date in writing is read as itself**, whatever follows. -/
theorem day?_dateText (ref : Instant) (d : Date) (ws : List Text) :
    day? ref (d.text :: ws) = some ⟨d, none, 1⟩ := by
  rw [day?_cons d.hyphen_mem_text (by decide), plainDay?,
    meaning_eq_none d.hyphen_mem_text (by decide), Date.read?_text]
  rfl

lemma day?_marker (ref : Instant) (p : Priority) (ws : List Text) :
    day? ref (('!' :: p.keyword.toList) :: ws) = none :=
  day?_of_beginsNoDay (by cases p <;> decide) ref ws

/-! ### Reading them -/

lemma reading?_marker (ref : Instant) (p : Priority) (ws : List Text) :
    reading? ref (('!' :: p.keyword.toList) :: ws) = none := by
  simp [reading?, clock?_marker, day?_marker]

/-- A day with no time after it. -/
lemma reading?_dateText (ref : Instant) (d : Date) {ws : List Text} (h : clock? ws = none) :
    reading? ref (d.text :: ws) = some ⟨⟨d, .midnight⟩, false, 1⟩ := by
  simp [reading?, clock?_dateText, day?_dateText, h]

lemma reading?_dateText_clockText (ref : Instant) (d : Date) (c : Clock) (ws : List Text) :
    reading? ref (d.text :: c.text :: ws) = some ⟨⟨d, c.toMinute⟩, true, 2⟩ := by
  simp [reading?, clock?_dateText, day?_dateText, clock?_clockText]

lemma reading?_clockText_dateText (ref : Instant) (d : Date) (c : Clock) (ws : List Text) :
    reading? ref (c.text :: d.text :: ws) = some ⟨⟨d, c.toMinute⟩, true, 2⟩ := by
  simp [reading?, clock?_clockText, day?_dateText]

end Phrase

end TaskCapture
