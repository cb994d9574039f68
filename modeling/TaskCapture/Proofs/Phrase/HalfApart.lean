import TaskCapture.Proofs.Phrase.EitherOrder

/-!
A half of the day apart from its time: `2:30 pm` beside `2:30pm`. A number of one or two digits is a
time by itself and is read first, so the half of the day is left over; the two spellings then agree
only where the time does not count or the half of the day says nothing new.
-/

namespace TaskCapture

open Text

namespace Phrase

/-! ### What a text says -/

/-- The instant of a reading, and whether a time was said. -/
def Reading.sense (r : Reading) : Instant × Bool := (r.instant, r.hasTime)

/-- What the first phrase says. -/
def sense? (ref : Instant) (ws : List Text) : Option (Instant × Bool) :=
  (first? ref ws).map fun (_, r) => r.sense

/-- A day without a time takes a time that comes next, with `at` before it or without. -/
def Reading.Awaits (r : Reading) (rest : List Text) : Prop :=
  r.hasTime = false ∧ (rest = [] ∨ rest = ["at".toList])

instance (r : Reading) (rest : List Text) : Decidable (r.Awaits rest) :=
  inferInstanceAs (Decidable (_ ∧ _))

/-- The day on which a time comes next. -/
def next? (ref : Instant) (c : Clock) : Option Date :=
  if c.toSeconds < ref.time.toSeconds then ref.date.succ? else some ref.date

variable {ref : Instant} {c : Clock} {us vs : List Text} {x : Text} {n : ℕ}

lemma sense?_cons (w : Text) (ws : List Text) :
    sense? ref (w :: ws) = ((reading? ref (w :: ws)).map Reading.sense).or (sense? ref ws) := by
  rw [sense?, first?]
  cases reading? ref (w :: ws) with
  | some r => rfl
  | none =>
    rw [Option.map_none, Option.none_or, sense?, Option.map_map]
    rfl

lemma next?_eq_some_iff {d : Date} :
    next? ref c = some d ↔ IsLeast {i : Instant | ref ≤ i ∧ i.time = c} ⟨d, c⟩ := by
  refine ⟨isLeast_next, fun h => ?_⟩
  cases hn : next? ref c with
  | some e =>
    have he := isLeast_next hn
    have hle := he.2 h.1
    have hge := h.2 he.1
    rw [Instant.le_def, Instant.toSeconds, Instant.toSeconds] at hle hge
    simp only at hle hge
    rw [Date.toDays_injective (show e.toDays = d.toDays by omega)]
  | none =>
    -- the time is past on the last day of all
    unfold next? at hn
    split_ifs at hn with hlt
    have hle := h.1.1
    rw [Instant.le_def, Instant.toSeconds, Instant.toSeconds] at hle
    simp only at hle
    have hc := c.toSeconds_lt
    have hr := ref.time.toSeconds_lt
    have hlast := d.le_last
    have hfirst := ref.date.first_le
    obtain ⟨e, he⟩ := Date.exists_toDays_eq (n := ref.date.toDays + 1) (by omega) (by omega)
    rw [Date.succ?, Date.addDays?_eq_some_iff.2 he] at hn
    cases hn

/-! ### A time with a colon -/

/-- The words begin with a time that has a colon: no day begins there. -/
structure ColonTime (x : Text) (vs : List Text) (c : Clock) (n : ℕ) : Prop where
  colon : ':' ∈ x
  slash : '/' ∉ x
  hyphen : '-' ∉ x
  clock : bareClock? (x :: vs) = some (c, n)

namespace ColonTime

lemma isForeign (h : ColonTime x vs c n) : IsForeign x := isForeign_of_colon h.colon

lemma endsDay (h : ColonTime x vs c n) : ∀ w ∈ (x :: vs).head?, EndsDay w := by
  rintro _ ⟨⟩
  exact h.isForeign.toEndsDay

lemma clock?_eq (h : ColonTime x vs c n) : clock? (x :: vs) = some (c, n) := by
  rw [clock?, if_neg (ne_of_mem_of_contains h.colon (by decide)), h.clock]

lemma clock?_at (h : ColonTime x vs c n) :
    clock? ("at".toList :: x :: vs) = some (c, n + 1) := by
  rw [clock?, if_pos rfl, h.clock]
  rfl

/-- Words that stand for no time by themselves take the time. -/
lemma exists_clock?_append (h : ColonTime x vs c n) (hus : us = [] ∨ us = ["at".toList]) :
    clock? us = none ∧ ∃ k, clock? (us ++ x :: vs) = some (c, k) := by
  rcases hus with rfl | rfl
  · exact ⟨rfl, n, h.clock?_eq⟩
  · exact ⟨rfl, n + 1, h.clock?_at⟩

lemma clock?_append (h : ColonTime x vs c n) (hus : ¬ (us = [] ∨ us = ["at".toList])) :
    clock? (us ++ x :: vs) = clock? us :=
  clock?_append_of_ne_at (not_or.1 hus).1 (not_or.1 hus).2 h.endsDay

lemma day?_eq_none (h : ColonTime x vs c n) (ref : Instant) : day? ref (x :: vs) = none := by
  rw [day?_cons h.colon (by decide), plainDay?, meaning_eq_none h.colon (by decide),
    Date.read?_eq_none_of_not_mem h.hyphen, meaning_eq_none h.colon (by decide)]
  simp [slashDay?, splitAll_of_not_mem h.slash]

/-- No day runs on into the time. -/
lemma day?_append (h : ColonTime x vs c n) (ref : Instant) (us : List Text) :
    day? ref (us ++ x :: vs) = day? ref us := by
  cases us with
  | nil => exact h.day?_eq_none ref
  | cons u us => exact day?_append_foreign (by simp) h.isForeign ref vs

/-- **A phrase before the time** says what it says without it, but for a day that takes the time. -/
lemma sense_reading? (h : ColonTime x vs c n) (hus : ¬ (us = [] ∨ us = ["at".toList])) :
    (reading? ref (us ++ x :: vs)).map Reading.sense =
      (reading? ref us).map fun r =>
        if r.Awaits (us.drop r.used) then (⟨r.instant.date, c⟩, true) else r.sense := by
  unfold reading?
  rw [h.clock?_append hus]
  cases hc : clock? us with
  | some cn =>
    obtain ⟨c', k⟩ := cn
    have hk := (used_of_clock? hc).2
    simp only [List.drop_append_of_le_length hk, h.day?_append]
    cases day? ref (us.drop k) with
    | some hit => simp [Reading.sense, Reading.Awaits]
    | none => simp [Option.map_map, Function.comp_def, Reading.sense, Reading.Awaits]
  | none =>
    simp only [h.day?_append, Option.map_map]
    cases hd : day? ref us with
    | none => rfl
    | some hit =>
      have hu := (used_of_day? hd).2
      simp only [Option.map_some, Function.comp_apply, Option.some.injEq,
        List.drop_append_of_le_length hu]
      cases hit.time with
      | some c' => simp [Reading.sense, Reading.Awaits]
      | none =>
        -- only the words that are left over decide whether the day takes the time
        by_cases hrest : us.drop hit.used = [] ∨ us.drop hit.used = ["at".toList]
        · obtain ⟨hnone, k, hk⟩ := h.exists_clock?_append hrest
          simp only [hnone, hk, Reading.Awaits, hrest, and_self, if_true]
          rfl
        · rw [h.clock?_append hrest]
          cases clock? (us.drop hit.used) with
          | some _ => simp [Reading.sense, Reading.Awaits]
          | none => simp only [Reading.Awaits, hrest, and_false, if_false]

lemma sense_reading?_at (h : ColonTime x vs c n) :
    (reading? ref ("at".toList :: x :: vs)).map Reading.sense =
      (reading? ref (x :: vs)).map Reading.sense := by
  unfold reading?
  simp only [h.clock?_at, h.clock?_eq, List.drop_succ_cons]
  cases day? ref ((x :: vs).drop n) with
  | some _ => rfl
  | none => simp [Option.map_map, Function.comp_def, Reading.sense]

/-- **The words before the time** have their say first. -/
theorem sense?_append (h : ColonTime x vs c n) (us : List Text) :
    sense? ref (us ++ x :: vs) =
      match first? ref us with
      | some (k, r) =>
        some (if r.Awaits (us.drop (k + r.used)) then (⟨r.instant.date, c⟩, true) else r.sense)
      | none => sense? ref (x :: vs) := by
  induction us with
  | nil => rfl
  | cons u us ih =>
    rw [List.cons_append, sense?_cons]
    by_cases hat : u :: us = ["at".toList]
    · obtain ⟨rfl, rfl⟩ := List.cons_eq_cons.1 hat
      rw [List.nil_append, h.sense_reading?_at, show first? ref ["at".toList] = none from rfl,
        sense?_cons, ← Option.or_assoc, Option.or_self]
    · rw [← List.cons_append, h.sense_reading? (not_or.2 ⟨by simp, hat⟩), ih, first?]
      cases reading? ref (u :: us) with
      | some r => simp
      | none =>
        cases first? ref us with
        | none => rfl
        | some kr =>
          obtain ⟨k, r⟩ := kr
          simp [show k + 1 + r.used = k + r.used + 1 by omega]

/-- The time itself takes a day after it, or comes on its next day. -/
theorem sense?_eq (h : ColonTime x vs c n) :
    sense? ref (x :: vs) =
      match day? ref ((x :: vs).drop n) with
      | some hit => some (⟨hit.date, c⟩, true)
      | none => ((next? ref c).map fun d => (⟨d, c⟩, true)).or (sense? ref vs) := by
  rw [sense?_cons, reading?, h.clock?_eq]
  simp only
  cases day? ref ((x :: vs).drop n) with
  | some _ => rfl
  | none => simp [Option.map_map, Function.comp_def, Reading.sense, next?]

end ColonTime

/-! ### The half of the day -/

lemma beginsNoDay_halfWord (pm : Bool) : beginsNoDay (halfWord pm) = true := by
  cases pm <;> decide +kernel

/-- A half of the day left over says nothing. -/
lemma sense?_halfWord (pm : Bool) (vs : List Text) :
    sense? ref (halfWord pm :: vs) = sense? ref vs := by
  have hclock : clock? (halfWord pm :: vs) = none := by
    cases pm <;> exact clock?_cons_eq_none (by decide) (by decide) (by decide) vs
  rw [sense?_cons, reading?, hclock]
  simp [day?_of_beginsNoDay (beginsNoDay_halfWord pm)]

lemma isCased_of_isStampChar {a : Char} (ha : isStampChar a = true) : isCased a = false := by
  rw [isCased, if_pos (isStampChar_cases ha).1]
  simp only [isStampChar, Bool.or_eq_true] at ha
  rcases ha with ha | ha
  · simp only [isAsciiDigit, Bool.and_eq_true, decide_eq_true_eq] at ha
    have h2 : a.toNat ≤ 57 := ha.2
    simp only [Char.isAlpha, Char.isUpper, Char.isLower, ge_iff_le, Bool.or_eq_false_iff,
      Bool.decide_and, Bool.and_eq_false_imp, decide_eq_true_eq, decide_eq_false_iff_not]
    exact ⟨fun h => absurd (show 65 ≤ a.toNat from h) (by omega),
      fun h => absurd (show 97 ≤ a.toNat from h) (by omega)⟩
  · simp only [List.contains_iff_mem, String.reduceToList, List.mem_cons, List.not_mem_nil,
      or_false] at ha
    rcases ha with rfl | rfl | rfl <;> decide

/-- What is not cased does not count for what follows it. -/
lemma lowerFrom_append_of_stamp {x : Text} (hx : ∀ a ∈ x, isStampChar a = true) (t : Text) :
    lowerFrom false (x ++ t) = x ++ lowerFrom false t := by
  induction x with
  | nil => rfl
  | cons a x ih =>
    have ha := hx a (by simp)
    obtain ⟨hlt, hlower, -⟩ := isStampChar_cases ha
    have hsigma : a.toNat ≠ 0x3A3 := by omega
    rw [List.cons_append, lowerFrom, if_neg hsigma, lowerChar_of_lt hlt, hlower,
      isCased_of_isStampChar ha, ite_self, ih fun b hb => hx b (by simp [hb])]
    rfl

/-- Digits and a colon before a word are compared as they stand. -/
lemma norm_append_of_stamp {x g : Text} (hx : ∀ a ∈ x, isStampChar a = true) (hg : norm g ≠ []) :
    norm (x ++ g) = x ++ norm g := by
  have hcore : g.reverse.dropWhile isClosing ≠ [] := by
    intro h
    apply hg
    rw [norm, h]
    rfl
  rw [norm, List.reverse_append, List.dropWhile_append, if_neg (by simpa using hcore),
    List.reverse_append, List.reverse_reverse]
  exact lowerFrom_append_of_stamp hx _

section Spellings

variable {h m : Text} {pm : Bool} (hh : Figures h n) (hc : c.Shows n pm) (hm : Figures m c.minute)
  (hlen : m.length = 2)

include hh hm in
lemma isStampChar_of_mem_number : ∀ a ∈ h ++ ':' :: m, isStampChar a = true := by
  simp only [List.mem_append, List.mem_cons]
  rintro a (ha | rfl | ha)
  · exact isStampChar_of_isAsciiDigit (hh.digits a ha)
  · decide
  · exact isStampChar_of_isAsciiDigit (hm.digits a ha)

include hh hm in
/-- The last character is a digit, not the punctuation that closes a word. -/
lemma norm_number : norm (h ++ ':' :: m) = h ++ ':' :: m := by
  obtain ⟨m', b, rfl⟩ := List.eq_nil_or_concat m |>.resolve_left hm.ne_nil
  have hb : isClosing b = false := isClosing_of_isAsciiDigit (hm.digits b (by simp))
  have hstamp := isStampChar_of_mem_number hh hm
  rw [List.concat_eq_append, ← List.cons_append, ← List.append_assoc] at hstamp ⊢
  refine norm_append_singleton (fun d hd => ?_) hb
  obtain ⟨h1, h2, -⟩ := isStampChar_cases (hstamp d hd)
  exact ⟨h1, h2⟩

include hh hm in
lemma not_mem_number {a : Char} (ha : isAsciiDigit a = false) (hne : a ≠ ':') :
    a ∉ h ++ ':' :: m := by
  simp [hh.not_mem ha, hm.not_mem ha, hne]

include hh hc hm hlen in
/-- Written together, they are a time of one word. -/
lemma colonTime_together (vs : List Text) : ColonTime (h ++ ':' :: m ++ halfWord pm) vs c 1 where
  colon := by simp
  slash := by
    rw [List.mem_append, not_or]
    exact ⟨not_mem_number hh hm (by decide) (by decide), by cases pm <;> decide⟩
  hyphen := by
    rw [List.mem_append, not_or]
    exact ⟨not_mem_number hh hm (by decide) (by decide), by cases pm <;> decide⟩
  clock := by
    rw [bareClock?.eq_def]
    simp only [(TimeWord.half (.minute hh hc hm hlen)).clockWord?]

include hh hc hm hlen in
/-- A number of one or two digits is a time by itself. -/
lemma colonTime_apart (hshort : h.length ≤ 2) (vs : List Text) :
    ∃ c', ColonTime (h ++ ':' :: m) vs c' 1 ∧ (c' = c ↔ c.hour = n) := by
  have hn := hc.hour_mem
  obtain ⟨-, hhour, hs⟩ := Clock.shows_iff.1 hc
  let c' : Clock := ⟨n, c.minute, 0, by omega, c.minute_lt, by decide⟩
  have hword : TimeWord (h ++ ':' :: m) c' := .full hh hshort hm hlen rfl
  refine ⟨c', ⟨by simp, not_mem_number hh hm (by decide) (by decide),
    not_mem_number hh hm (by decide) (by decide), ?_⟩, ?_⟩
  · rw [bareClock?.eq_def]
    simp only [hword.clockWord?]
  · rw [Clock.mk.injEq, hs, eq_comm]
    simp

include hh hc hm hlen in
/-- A longer number is none, and takes the half of the day. -/
lemma colonTime_apart_of_long (hlong : 2 < h.length) (vs : List Text) :
    ColonTime (h ++ ':' :: m) (halfWord pm :: vs) c 2 where
  colon := by simp
  slash := not_mem_number hh hm (by decide) (by decide)
  hyphen := not_mem_number hh hm (by decide) (by decide)
  clock := by
    have hword : clockWord? (h ++ ':' :: m) = none := by
      rw [clockWord?_of_colon (by simp) (not_mem_number hh hm (by decide) (by decide)),
        twentyFourHour?, splitOnce_append (hh.not_mem (by decide))]
      simp [hlong]
    have hnumber : isClockNumber (h ++ ':' :: m) = true := by
      refine List.all_eq_true.2 fun a ha => ?_
      simp only [List.mem_append, List.mem_cons] at ha
      rcases ha with ha | rfl | ha
      · simp [hh.digits a ha]
      · decide
      · simp [hm.digits a ha]
    rw [bareClock?_halfWord hword hnumber, (HalfDay.minute hh hc hm hlen).twelveHour?]
    rfl

end Spellings

/-- Between the words `us` and `vs`, a time and its half of the day may stand apart: the hour has
more than two digits; or a phrase before them is read instead, which takes the time only where the
half of the day does not change it; or it does not change it and no day follows but the one on which
the time comes next. -/
inductive HalfMayBeApart (ref : Instant) (us vs : List Text) (h : Text) (n : ℕ) (c : Clock) : Prop
  where
  | long (hlong : 2 < h.length)
  | before {k : ℕ} {r : Reading} (hr : first? ref us = some (k, r))
    (hc : r.Awaits (us.drop (k + r.used)) → c.hour = n)
  | alone (hr : first? ref us = none) (hc : c.hour = n)
    (hday : ∀ hit, day? ref vs = some hit →
      IsLeast {i : Instant | ref ≤ i ∧ i.time = c} ⟨hit.date, c⟩)

section Both

variable {h : Text} {x y : Text} {pm : Bool} {c' : Clock}

/-- Two times in one place, the one with a half of the day left over, say the same where the half of
the day may be apart. -/
lemma HalfMayBeApart.sense?_eq (happly : HalfMayBeApart ref us vs h n c) (hshort : h.length ≤ 2)
    (hx : ColonTime x (halfWord pm :: vs) c' 1) (hy : ColonTime y vs c 1)
    (hcc : c.hour = n → c' = c) :
    sense? ref (us ++ x :: halfWord pm :: vs) = sense? ref (us ++ y :: vs) := by
  rw [hx.sense?_append, hy.sense?_append]
  cases happly with
  | long hlong => omega
  | @before k r hr hc =>
    rw [hr]
    simp only
    split_ifs with haw
    · rw [hcc (hc haw)]
    · rfl
  | alone hr hc hday =>
    have hnoday : day? ref ((x :: halfWord pm :: vs).drop 1) = none :=
      day?_of_beginsNoDay (beginsNoDay_halfWord pm) ref vs
    rw [hr, hx.sense?_eq, hy.sense?_eq, hnoday, sense?_halfWord, hcc hc]
    simp only [List.drop_succ_cons, List.drop_zero]
    cases hd : day? ref vs with
    | none => rfl
    | some hit => simp [next?_eq_some_iff.2 (hday hit hd)]

/-- On every day but the last, a time comes next on some day. -/
lemma exists_next? {e : Date} (he : ref.date.succ? = some e) (c : Clock) :
    ∃ d, next? ref c = some d := by
  unfold next?
  split_ifs
  · exact ⟨e, he⟩
  · exact ⟨ref.date, rfl⟩

/-- Elsewhere they say different things, but perhaps on the last day of all. -/
lemma halfMayBeApart_of_sense?_eq {e : Date} (he : ref.date.succ? = some e)
    (hx : ColonTime x (halfWord pm :: vs) c' 1) (hy : ColonTime y vs c 1)
    (hcc : c' = c → c.hour = n)
    (heq : sense? ref (us ++ x :: halfWord pm :: vs) = sense? ref (us ++ y :: vs)) :
    HalfMayBeApart ref us vs h n c := by
  rw [hx.sense?_append, hy.sense?_append] at heq
  cases hr : first? ref us with
  | some kr =>
    obtain ⟨k, r⟩ := kr
    rw [hr, Option.some.injEq] at heq
    refine .before hr fun haw => hcc ?_
    rw [if_pos haw, if_pos haw] at heq
    simpa using heq
  | none =>
    have hnoday : day? ref ((x :: halfWord pm :: vs).drop 1) = none :=
      day?_of_beginsNoDay (beginsNoDay_halfWord pm) ref vs
    obtain ⟨d, hd⟩ := exists_next? he c'
    obtain ⟨d', hd'⟩ := exists_next? he c
    rw [hr, hx.sense?_eq, hy.sense?_eq, hnoday, hd, hd'] at heq
    simp only [List.drop_succ_cons, List.drop_zero] at heq
    cases hday : day? ref vs with
    | none =>
      rw [hday] at heq
      have hclock : d = d' ∧ c' = c := by simpa using heq
      exact .alone hr (hcc hclock.2) (by simp [hday])
    | some hit =>
      rw [hday] at heq
      obtain ⟨rfl, rfl⟩ : d = hit.date ∧ c' = c := by simpa using heq
      refine .alone hr (hcc rfl) fun hit' h' => ?_
      rw [hday] at h'
      cases h'
      exact next?_eq_some_iff.1 hd

end Both

end Phrase

/-! ### In a text -/

/-- The instant of a match, and whether a time was said. -/
def DateMatch.sense (m : DateMatch) : Instant × Bool := (m.instant, m.hasTime)

namespace Resolver

lemma map_sense_english (t : Text) (ref : Instant) :
    (english t ref).map DateMatch.sense = Phrase.sense? ref ((words t).map Phrase.norm) := by
  rw [Phrase.sense?]
  cases h : Phrase.inWords? ref (words t) with
  | none =>
    rw [english_of_none h, show Phrase.first? ref ((words t).map Phrase.norm) = none from h]
    rfl
  | some kr =>
    obtain ⟨k, r⟩ := kr
    obtain ⟨_, _, -, -, he⟩ := english_of_some h
    rw [he, show Phrase.first? ref ((words t).map Phrase.norm) = some (k, r) from h]
    rfl

/-- **When a half of the day may stand apart from its time.** Of two texts with the same words, but
that the one has `am` or `pm` apart from the time before it and the other has not, the first says
what the second says where the half of the day may be apart, and nowhere else, but perhaps on the
last day of the calendar. -/
theorem english_half_apart {ref : Instant} {s t : Text} {as bs : List Text} {h m g : Text} {n : ℕ}
    {pm : Bool} {c : Clock} (hh : Figures h n) (hc : c.Shows n pm) (hm : Figures m c.minute)
    (hlen : m.length = 2) (hg : Phrase.norm g = Phrase.halfWord pm)
    (hs : words s = as ++ (h ++ ':' :: m) :: g :: bs)
    (ht : words t = as ++ (h ++ ':' :: m ++ g) :: bs) :
    (Phrase.HalfMayBeApart ref (as.map Phrase.norm) (bs.map Phrase.norm) h n c →
      (english s ref).map DateMatch.sense = (english t ref).map DateMatch.sense) ∧
    ((english s ref).map DateMatch.sense = (english t ref).map DateMatch.sense →
      Phrase.HalfMayBeApart ref (as.map Phrase.norm) (bs.map Phrase.norm) h n c ∨
        ref.date.succ? = none) := by
  have hstamp := Phrase.isStampChar_of_mem_number hh hm
  have hword : Phrase.norm (h ++ ':' :: m ++ g) = h ++ ':' :: m ++ Phrase.halfWord pm := by
    rw [Phrase.norm_append_of_stamp hstamp (by rw [hg]; cases pm <;> decide), hg]
  rw [map_sense_english, map_sense_english, hs, ht]
  simp only [List.map_append, List.map_cons, Phrase.norm_number hh hm, hword, hg]
  have htog := Phrase.colonTime_together hh hc hm hlen (bs.map Phrase.norm)
  rcases lt_or_ge 2 h.length with hlong | hshort
  · have hap := Phrase.colonTime_apart_of_long hh hc hm hlen hlong (bs.map Phrase.norm)
    refine ⟨fun _ => ?_, fun _ => .inl (.long hlong)⟩
    rw [hap.sense?_append, htog.sense?_append, hap.sense?_eq, htog.sense?_eq,
      Phrase.sense?_halfWord]
    rfl
  · obtain ⟨c', hap, hcc⟩ :=
      Phrase.colonTime_apart hh hc hm hlen hshort (Phrase.halfWord pm :: bs.map Phrase.norm)
    refine ⟨fun happly => happly.sense?_eq hshort hap htog hcc.2, fun heq => ?_⟩
    cases hsucc : ref.date.succ? with
    | none => exact .inr rfl
    | some e => exact .inl (Phrase.halfMayBeApart_of_sense?_eq hsucc hap htog hcc.1 heq)

/-- Half past twelve in the afternoon is half past twelve in the 24 hours too. -/
theorem english_half_apart_of_lunch :
    let ref : Instant := ⟨⟨2025, 3, 5, by decide, by decide, by decide, by decide⟩, .noon⟩
    let c : Clock := ⟨12, 30, 0, by decide, by decide, by decide⟩
    let as := ["Lunch".toList, "tomorrow".toList, "at".toList]
    let bs := ["with".toList, "Ana".toList]
    let s := "Lunch tomorrow at 12:30 PM, with Ana".toList
    let t := "Lunch tomorrow at 12:30PM, with Ana".toList
    words s = as ++ ("12".toList ++ ':' :: "30".toList) :: "PM,".toList :: bs ∧
      words t = as ++ ("12".toList ++ ':' :: "30".toList ++ "PM,".toList) :: bs ∧
      Phrase.HalfMayBeApart ref (as.map Phrase.norm) (bs.map Phrase.norm) "12".toList 12 c ∧
        (english s ref).map DateMatch.sense = (english t ref).map DateMatch.sense := by
  intro ref c as bs s t
  have hh : Figures "12".toList 12 := ⟨by decide, List.all_eq_true.1 (by decide), rfl⟩
  have hm : Figures "30".toList c.minute := ⟨by decide, List.all_eq_true.1 (by decide), rfl⟩
  have hc : c.Shows 12 true := ⟨by decide, by decide, by decide, rfl⟩
  have hs : words s = as ++ ("12".toList ++ ':' :: "30".toList) :: "PM,".toList :: bs := by decide
  have ht : words t = as ++ ("12".toList ++ ':' :: "30".toList ++ "PM,".toList) :: bs := by decide
  have hg : Phrase.norm "PM,".toList = Phrase.halfWord true := by decide +kernel
  have hbefore : (Phrase.first? ref (as.map Phrase.norm)).isSome = true := by decide +kernel
  obtain ⟨⟨k, r⟩, hr⟩ := Option.isSome_iff_exists.1 hbefore
  have hap : Phrase.HalfMayBeApart ref (as.map Phrase.norm) (bs.map Phrase.norm) "12".toList 12 c :=
    .before hr fun _ => rfl
  exact ⟨hs, ht, hap, (english_half_apart hh hc hm rfl hg hs ht).1 hap⟩

/-- Half past two apart from its `pm` is at night. -/
theorem english_half_past_two :
    let day : Date := ⟨2025, 3, 5, by decide, by decide, by decide, by decide⟩
    let next : Date := ⟨2025, 3, 6, by decide, by decide, by decide, by decide⟩
    let ref : Instant := ⟨day, ⟨9, 0, 0, by decide, by decide, by decide⟩⟩
    let night : Clock := ⟨2, 30, 0, by decide, by decide, by decide⟩
    let afternoon : Clock := ⟨14, 30, 0, by decide, by decide, by decide⟩
    english "2:30 pm".toList ref = some ⟨⟨0, 4⟩, ⟨next, night⟩, true⟩ ∧
      english "2:30pm".toList ref = some ⟨⟨0, 6⟩, ⟨day, afternoon⟩, true⟩ := by
  decide +kernel

end Resolver

end TaskCapture
