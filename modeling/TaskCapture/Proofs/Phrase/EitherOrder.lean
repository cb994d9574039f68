import TaskCapture.Proofs.Phrase.Followed
import TaskCapture.Proofs.Phrase.TimeWord

/-!
A day and a time beside it. The time may come first or last, with `at` before it or without: no day
runs on into the words of a time, and no time into those of a day.
-/

namespace TaskCapture

open Text

namespace Phrase

lemma meaning_eq_none_of_figures {α : Type} {table : List (String × α)} {w : Text} {n : ℕ}
    (hw : Figures w n) (hp : (table.all fun e => e.1.toList.any (!isAsciiDigit ·)) = true) :
    meaning table w = none := by
  cases hm : meaning table w with
  | none => rfl
  | some _ =>
    have hany := of_meaning (p := fun w => w.any (!isAsciiDigit ·)) hm hp
    obtain ⟨d, hd, hno⟩ := List.any_eq_true.1 hany
    simp [hw.digits d hd] at hno

/-! ### Times as they are spelled -/

/-- The words of a time of day. The half of the day may be a word of its own after an hour of at
most two digits; of four digits the hour could be a year. -/
inductive Time : List Text → Clock → Prop where
  | word {w : Text} {c : Clock} (h : TimeWord w c) : Time [w] c
  | apart {h : Text} {n : ℕ} {pm : Bool} {c : Clock} (hh : Figures h n) (hlen : h.length ≤ 2)
    (hc : c.Shows n pm) (hm : c.minute = 0) : Time [h, halfWord pm] c

variable {us vs ts : List Text} {w : Text} {c : Clock} {ref : Instant} {hit : DayHit}

lemma TimeWord.ne_at (h : TimeWord w c) : w ≠ "at".toList := by
  rintro rfl
  have hat := h.clockWord?
  rw [show Phrase.clockWord? "at".toList = none by decide] at hat
  cases hat

/-- A number that is no time by itself takes the half of the day after it. -/
lemma bareClock?_halfWord (hword : clockWord? w = none) (hnumber : isClockNumber w = true)
    (pm : Bool) (vs : List Text) :
    bareClock? (w :: halfWord pm :: vs) = (twelveHour? pm w).map (·, 2) := by
  have hhalf : halfWord pm = "am".toList ∨ halfWord pm = "pm".toList := by
    cases pm <;> simp [halfWord]
  rw [bareClock?.eq_def]
  simp only [hword]
  rw [if_pos ⟨hhalf, hnumber⟩, clockWord?_append_halfWord]

lemma Time.bareClock? (h : Time ts c) : bareClock? ts = some (c, ts.length) := by
  cases h with
  | word h =>
    rw [Phrase.bareClock?.eq_def]
    simp only [h.clockWord?]
    rfl
  | @apart h n pm _ hh hlen hc hm =>
    have hword : clockWord? h = none := clockWord?_eq_none
      (meaning_eq_none_of_figures hh (by decide)) (hh.not_mem (by decide)) (hh.not_mem (by decide))
    have hnumber : isClockNumber h = true :=
      List.all_eq_true.2 fun d hd => by simp [hh.digits d hd]
    rw [bareClock?_halfWord hword hnumber, (HalfDay.hour hh hc hm).twelveHour?]
    rfl

lemma endsDay_at : EndsDay "at".toList := ⟨by decide, by decide, by decide, by decide⟩

lemma Time.endsDay (h : Time ts c) : ∀ w ∈ ts.head?, EndsDay w := by
  intro w hw
  cases h with
  | @word v _ h =>
    obtain rfl : v = w := by simpa using hw
    have hclock := h.clockWord?
    refine ⟨year?_of_clockWord? hclock, ?_, ?_, ?_⟩
    · cases hm : meaning unitWords v with
      | none => rfl
      | some _ =>
        have hno := of_meaning (p := fun w => (clockWord? w).isNone) hm (by decide +kernel)
        simp [hclock] at hno
    all_goals
      rintro rfl
      rw [show clockWord? _ = none by decide] at hclock
      cases hclock
  | @apart v n pm _ hh hlen hc hm =>
    obtain rfl : v = w := by simpa using hw
    refine ⟨?_, ?_, ?_, ?_⟩
    · rw [year?, if_neg (by omega)]
    · exact meaning_eq_none_of_figures hh (by decide)
    all_goals exact fun he => hh.not_mem (c := 'm') (by decide) (he ▸ by decide)

/-- With `at` before it or without, a time is read to its end. -/
lemma Time.clock? (h : Time ts c) : clock? ts = some (c, ts.length) := by
  have hbare := h.bareClock?
  obtain ⟨w, ws, rfl⟩ := List.exists_cons_of_ne_nil (show ts ≠ [] by cases h <;> simp)
  have hat : w ≠ "at".toList := by
    cases h with
    | word h => exact h.ne_at
    | apart hh => exact fun he => hh.not_mem (c := 't') (by decide) (he ▸ by decide)
  rw [Phrase.clock?, if_neg hat, hbare]

lemma Time.clock?_at (h : Time ts c) :
    Phrase.clock? ("at".toList :: ts) = some (c, ts.length + 1) := by
  rw [Phrase.clock?, if_pos rfl, h.bareClock?]
  rfl

/-! ### Days go no further -/

lemma amount?_append {x : ℕ × TimeUnit × ℕ} (h : amount? us = some x)
    (hv : ∀ w ∈ vs.head?, EndsDay w) : amount? (us ++ vs) = some x := by
  match us with
  | [] => cases h
  | [w] =>
    have hunit : vs.head?.bind (meaning unitWords) = none := by
      rw [Option.bind_eq_none_iff]
      exact fun v hm => (hv v hm).unit
    rw [amount?] at h
    rw [List.singleton_append, amount?, hunit]
    exact h
  | w :: v :: us => exact h

lemma afterMonth?_append {today : Date} {m : ℕ} (h : afterMonth? today m us = some hit)
    (hv : ∀ w ∈ vs.head?, EndsDay w) : afterMonth? today m (us ++ vs) = some hit := by
  match us with
  | [] => cases h
  | [w] =>
    have hyear : vs.head?.bind year? = none := by
      rw [Option.bind_eq_none_iff]
      exact fun v hm => (hv v hm).year
    rw [afterMonth?] at h
    rw [List.singleton_append, afterMonth?, hyear]
    exact h
  | w :: v :: us => exact h

lemma plainDay?_append {today : Date} (h : plainDay? today w us = some hit)
    (hv : ∀ w ∈ vs.head?, EndsDay w) : plainDay? today w (us ++ vs) = some hit := by
  unfold plainDay? at h ⊢
  simp only at h ⊢
  split at h
  · exact h
  · split at h
    · exact h
    · obtain ⟨m, hm, h⟩ := Option.bind_eq_some_iff.1 h
      exact Option.bind_eq_some_iff.2 ⟨m, hm, afterMonth?_append h hv⟩

/-- What the second word says is said also where more words follow. -/
lemma head?_bind_append {β : Type} {f : Text → Option β} {b : β} (h : us.head?.bind f = some b) :
    (us ++ vs).head?.bind f = some b := by
  cases us with
  | nil => cases h
  | cons w us => exact h

/-- **A day means the same** before a word that it cannot go on with. -/
theorem day?_append (h : day? ref us = some hit) (hv : ∀ w ∈ vs.head?, EndsDay w) :
    day? ref (us ++ vs) = some hit := by
  cases us with
  | nil => cases h
  | cons w us =>
    rw [day?] at h
    rw [List.cons_append, day?]
    simp only at h ⊢
    split_ifs at h ⊢ with htoday htomorrow hnext hthis hin
    · exact h
    · exact h
    · obtain ⟨d, hd, rfl⟩ := Option.map_eq_some_iff.1 h
      rw [head?_bind_append hd]
      rfl
    · obtain ⟨d, hd, rfl⟩ := Option.map_eq_some_iff.1 h
      obtain ⟨wd, hwd, hd⟩ := Option.bind_eq_some_iff.1 hd
      rw [head?_bind_append hwd, Option.bind_some, hd]
      rfl
    · obtain ⟨x, hx, hh⟩ := Option.bind_eq_some_iff.1 h
      rw [amount?_append hx hv]
      exact hh
    · exact plainDay?_append h hv

/-- No time begins the words of a day, whatever follows it. -/
lemma clock?_append_eq_none (hd : day? ref us = some hit) (h : clock? us = none)
    (hv : ∀ w ∈ vs.head?, EndsDay w) : clock? (us ++ vs) = none := by
  cases us with
  | nil => cases hd
  | cons w us =>
    rw [clock?] at h
    rw [List.cons_append, clock?]
    split_ifs at h ⊢ with hat
    · rw [hat, day?_of_beginsNoDay (by decide +kernel)] at hd
      cases hd
    · rw [← List.cons_append, bareClock?_append_of_endsDay (by simp) hv, h]

/-! ### Both -/

/-- The words of a day alone. -/
lemma exists_day_of_reading? {r : Reading} (h : reading? ref us = some r)
    (htime : r.hasTime = false) (hused : r.used = us.length) :
    clock? us = none ∧
      ∃ hit, day? ref us = some hit ∧ hit.time = none ∧ hit.used = us.length ∧
        hit.date = r.instant.date := by
  unfold reading? at h
  cases hc : clock? us with
  | some cn =>
    simp only [hc] at h
    split at h
    · cases h
      cases htime
    · obtain ⟨_, -, rfl⟩ := Option.map_eq_some_iff.1 h
      cases htime
  | none =>
    simp only [hc] at h
    obtain ⟨hit, hd, rfl⟩ := Option.map_eq_some_iff.1 h
    refine ⟨rfl, hit, hd, ?_⟩
    split at htime
    · cases htime
    · next hnone =>
      split at htime
      · cases htime
      · next hno =>
        simp only [hnone, hno] at hused ⊢
        exact ⟨trivial, hused, trivial⟩

/-- The words of a time, perhaps after `at`. -/
def IsTimeOf (c : Clock) (vs : List Text) : Prop :=
  ∃ ts, Time ts c ∧ (vs = ts ∨ vs = "at".toList :: ts)

lemma IsTimeOf.clock? (h : IsTimeOf c vs) : clock? vs = some (c, vs.length) := by
  obtain ⟨ts, h, rfl | rfl⟩ := h
  · exact h.clock?
  · exact h.clock?_at

lemma IsTimeOf.endsDay (h : IsTimeOf c vs) : ∀ w ∈ vs.head?, EndsDay w := by
  obtain ⟨ts, h, rfl | rfl⟩ := h
  · exact h.endsDay
  · intro w hw
    obtain rfl : "at".toList = w := by simpa using hw
    exact endsDay_at

/-- **A time may stand on either side of a day.** -/
theorem reading?_day_time {r : Reading} (hr : reading? ref us = some r) (htime : r.hasTime = false)
    (hused : r.used = us.length) (hv : IsTimeOf c vs) {ws : List Text}
    (hws : ws = us ++ vs ∨ ws = vs ++ us) :
    reading? ref ws = some ⟨⟨r.instant.date, c⟩, true, ws.length⟩ := by
  obtain ⟨hnone, hit, hd, hhit, hlen, hdate⟩ := exists_day_of_reading? hr htime hused
  rcases hws with rfl | rfl
  · simp [reading?, clock?_append_eq_none hd hnone hv.endsDay, day?_append hd hv.endsDay, hhit,
      hv.clock?, hlen, hdate]
  · simp [reading?, Phrase.clock?_append hv.clock? us, hd, hlen, hdate]

end Phrase

/-! ### In a text -/

namespace Text

lemma words_eq_nil_iff {t : Text} : words t = [] ↔ ∀ c ∈ t, isBlank c = true := by
  constructor
  · intro h c hc
    by_contra hb
    exact words_ne_nil_of_mem hc (by simpa using hb) h
  · intro h
    simpa using words_append_blanks h []

end Text

namespace Resolver

variable {ref : Instant} {s : Text}

/-- A phrase that takes up all words of a text without blanks around it matches the whole text. -/
lemma english_of_whole {r : Phrase.Reading} (hs : Trimmed s)
    (hr : Phrase.reading? ref ((words s).map Phrase.norm) = some r)
    (hused : r.used = (words s).length) :
    english s ref = some ⟨⟨0, byteSize s⟩, r.instant, r.hasTime⟩ := by
  have hpos := (Phrase.used_of_reading? hr).1
  have hw : Phrase.inWords? ref (words s) = some (0, r) := by
    rw [Phrase.inWords?_eq_some_iff]
    refine ⟨by omega, by simpa using hr, ?_⟩
    intro v hv hsuffix
    simp [hv] at hsuffix
  obtain ⟨head, last, hhead, hlast, he⟩ := english_of_some hw
  obtain ⟨a, b, hab, hstart, -, hwa, -⟩ := exists_around_placed hhead
  obtain ⟨a', b', hab', hstart', -, -, hwb'⟩ := exists_around_placed hlast
  have ha : a = [] := by
    by_contra hne
    obtain ⟨c, a, rfl⟩ := List.exists_cons_of_ne_nil hne
    have hblank := words_eq_nil_iff.1 (by simpa using hwa) c (by simp)
    rw [hs.head c (by simp [hab])] at hblank
    cases hblank
  have hb : b' = [] := by
    rcases List.eq_nil_or_concat b' with rfl | ⟨b'', c, rfl⟩
    · rfl
    · have hnil : words (b''.concat c) = [] := by
        rw [hwb', List.drop_eq_nil_iff]
        omega
      have hblank := words_eq_nil_iff.1 hnil c (by simp)
      rw [hs.last c (by simp [hab'])] at hblank
      cases hblank
  have hstop : last.stop = byteSize s := by
    rw [Placed.stop, hstart', Nat.zero_add, ← byteSize_append, hab', hb, List.append_nil]
  rw [he, hstart, ha, hstop]
  rfl

/-- A match that is the whole text is read from all its words. -/
lemma exists_reading?_of_whole {m : DateMatch} (h : english s ref = some m)
    (hspan : m.span = ⟨0, byteSize s⟩) :
    ∃ r, Phrase.reading? ref ((words s).map Phrase.norm) = some r ∧
      r.used = ((words s).map Phrase.norm).length ∧ m.instant = r.instant ∧
        m.hasTime = r.hasTime := by
  have hphrase : m.phrase s = (words s).map Phrase.norm := by
    have hcut : splitAtByte (byteSize s) s = some (s, []) := by
      simpa using splitAtByte_append s []
    have hzero : splitAtByte 0 s = some ([], s) := by cases s <;> rfl
    simp [DateMatch.phrase, hspan, hcut, hzero]
  rw [← hphrase]
  exact exists_reading?_of_english h

/-- **A day and a time come in either order**, with `at` before the time or without. Where a text is
a day and says no time, its words with those of a time before or after them mean that day at that
time, and the match is again the whole text. -/
theorem english_day_and_time {d : Text} {m : DateMatch} (hd : english d ref = some m)
    (hspan : m.span = ⟨0, byteSize d⟩) (htime : m.hasTime = false) {ts : List Text} {c : Clock}
    (hts : Phrase.Time (ts.map Phrase.norm) c) (hs : Trimmed s)
    (hws : words s = words d ++ ts ∨ words s = words d ++ "at".toList :: ts ∨
      words s = ts ++ words d ∨ words s = "at".toList :: ts ++ words d) :
    english s ref = some ⟨⟨0, byteSize s⟩, ⟨m.instant.date, c⟩, true⟩ := by
  obtain ⟨r, hr, hused, hinstant, hr'⟩ := exists_reading?_of_whole hd hspan
  have hat : ("at".toList :: ts).map Phrase.norm = "at".toList :: ts.map Phrase.norm := by
    rw [List.map_cons, show Phrase.norm "at".toList = "at".toList by decide]
  have hplain : Phrase.IsTimeOf c (ts.map Phrase.norm) := ⟨_, hts, .inl rfl⟩
  have hafter : Phrase.IsTimeOf c (("at".toList :: ts).map Phrase.norm) := ⟨_, hts, .inr hat⟩
  have hread : Phrase.reading? ref ((words s).map Phrase.norm) =
      some ⟨⟨r.instant.date, c⟩, true, ((words s).map Phrase.norm).length⟩ := by
    rcases hws with h | h | h | h <;> rw [h, List.map_append]
    · exact Phrase.reading?_day_time hr (hr' ▸ htime) hused hplain (.inl rfl)
    · exact Phrase.reading?_day_time hr (hr' ▸ htime) hused hafter (.inl rfl)
    · exact Phrase.reading?_day_time hr (hr' ▸ htime) hused hplain (.inr rfl)
    · exact Phrase.reading?_day_time hr (hr' ▸ htime) hused hafter (.inr rfl)
  rw [english_of_whole hs hread (by simp), hinstant]

/-- A day of a month, where a year could follow, and an hour apart from its half of the day, or a
time with a name. -/
theorem english_day_and_time_of_pie :
    let ref : Instant := ⟨⟨2025, 3, 14, by decide, by decide, by decide, by decide⟩, .noon⟩
    let day : Date := ⟨2026, 3, 4, by decide, by decide, by decide, by decide⟩
    let five : Clock := ⟨17, 0, 0, by decide, by decide, by decide⟩
    let twelve : Clock := ⟨12, 0, 0, by decide, by decide, by decide⟩
    let d := "mar  4th".toList
    let m : DateMatch := ⟨⟨0, 8⟩, ⟨day, .midnight⟩, false⟩
    let ts := ["5".toList, "PM".toList]
    english d ref = some m ∧ Phrase.Time (ts.map Phrase.norm) five ∧
      english "mar 4th  5 PM".toList ref = some ⟨⟨0, 13⟩, ⟨day, five⟩, true⟩ ∧
        english "at 5 PM mar 4th".toList ref = some ⟨⟨0, 15⟩, ⟨day, five⟩, true⟩ ∧
          english "mar 4th at Midday".toList ref = some ⟨⟨0, 17⟩, ⟨day, twelve⟩, true⟩ := by
  intro ref day five twelve d m ts
  have hd : english d ref = some m := by decide +kernel
  have hts : Phrase.Time (ts.map Phrase.norm) five := by
    rw [show ts.map Phrase.norm = ["5".toList, Phrase.halfWord true] by decide +kernel]
    exact .apart (n := 5) ⟨by decide, List.all_eq_true.1 (by decide), rfl⟩ (by decide)
      ⟨by decide, by decide, by decide, rfl⟩ rfl
  have hname : Phrase.Time (["Midday".toList].map Phrase.norm) twelve := by
    rw [show ["Midday".toList].map Phrase.norm = ["midday".toList] by decide +kernel]
    exact .word (.named (by decide))
  exact ⟨hd, hts,
    english_day_and_time hd rfl rfl hts ⟨by decide, by rintro _ ⟨⟩; rfl, by rintro _ ⟨⟩; rfl⟩
      (.inl (by decide)),
    english_day_and_time hd rfl rfl hts ⟨by decide, by rintro _ ⟨⟩; rfl, by rintro _ ⟨⟩; rfl⟩
      (.inr (.inr (.inr (by decide)))),
    english_day_and_time hd rfl rfl hname ⟨by decide, by rintro _ ⟨⟩; rfl, by rintro _ ⟨⟩; rfl⟩
      (.inr (.inl (by decide)))⟩

end Resolver

end TaskCapture
