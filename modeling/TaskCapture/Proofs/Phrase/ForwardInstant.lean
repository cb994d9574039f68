import TaskCapture.Proofs.Phrase.ForwardDate
import TaskCapture.Proofs.Phrase.Spelling

/-!
Days that a phrase leaves open: a weekday, or a day of a month without a year. The first such day
from the reference date on is meant. With a time it may lie before the reference instant, and does
so exactly when the reference date is such a day and its time is past.
-/

namespace TaskCapture

open Text

/-! ### The first day of a kind -/

namespace Phrase

lemma isLeast_of_onWeekday? {today d : Date} {w : Weekday}
    (h : onWeekday? today w false = some d) : IsLeast {e : Date | today ≤ e ∧ e.weekday = w} d := by
  have hd := Date.addDays?_eq_some_iff.1 h
  simp only [daysUntil, Bool.false_eq_true, and_false, if_false, Date.weekday] at hd
  have hw := w.isLt
  constructor
  · refine ⟨?_, Fin.ext ?_⟩
    · rw [Date.le_def]
      omega
    · simp only [Date.weekday]
      omega
  · rintro e ⟨hle, rfl⟩
    rw [Date.le_def] at hle ⊢
    simp only [Date.weekday] at hd
    omega

/-- The first number of a range that has a value. -/
lemma exists_of_findSome?_range {α : Type} {f : ℕ → Option α} {n : ℕ} {a : α}
    (h : (List.range n).findSome? f = some a) : ∃ k, f k = some a ∧ ∀ j < k, f j = none := by
  induction n with
  | zero => cases h
  | succ n ih =>
    rw [List.range_succ, List.findSome?_append] at h
    cases hn : (List.range n).findSome? f with
    | some b =>
      rw [hn] at h
      exact ih (hn.trans h)
    | none =>
      rw [hn, Option.none_or, List.findSome?_singleton] at h
      exact ⟨n, h, fun j hj => List.findSome?_eq_none_iff.1 hn j (List.mem_range.2 hj)⟩

lemma isLeast_of_upcoming? {today d : Date} {month day : ℕ}
    (h : upcoming? today month day = some d) :
    IsLeast {e : Date | today ≤ e ∧ e.month = month ∧ e.day = day} d := by
  obtain ⟨k, hk, hbefore⟩ := exists_of_findSome?_range h
  obtain ⟨hk, hle⟩ := Option.filter_eq_some_iff.1 hk
  obtain ⟨hy, hm, hd⟩ := Date.ofYmd?_eq_some_iff.1 hk
  refine ⟨⟨of_decide_eq_true hle, hm, hd⟩, ?_⟩
  rintro e ⟨he, hem, hed⟩
  refine Date.le_of_year_le (hm.trans hem.symm) (hd.trans hed.symm) ?_
  by_contra hlt
  -- an earlier year would have been found first
  obtain ⟨j, hj⟩ := Int.le.dest (Date.year_le_of_le he)
  have hnone := hbefore j (by omega)
  rw [Date.ofYmd?_eq_some_iff.2 ⟨hj.symm, hem, hed⟩, Option.filter_some, if_pos] at hnone
  · cases hnone
  · simpa using he

/-! ### Words that are looked up -/

/-- What is true of a whole table is true of a word that it has. -/
lemma of_meaning {α : Type} {table : List (String × α)} {w : Text} {a : α}
    (h : meaning table w = some a) {p : Text → Bool}
    (hp : (table.all fun e => p e.1.toList) = true) : p w = true := by
  obtain ⟨e, he, -⟩ := Option.map_eq_some_iff.1 h
  have hw : e.1.toList = w := by simpa using List.find?_some he
  rw [← hw]
  exact List.all_eq_true.1 hp e (List.mem_of_find?_eq_some he)

/-- A word that begins no time and opens nothing. -/
def isCalm (w : Text) : Bool :=
  w != "at".toList && (clockWord? w).isNone && !isClockNumber w &&
    openings.all fun v => w != v.toList

lemma clock?_of_isCalm {w : Text} (h : isCalm w = true) (ws : List Text) :
    clock? (w :: ws) = none := by
  simp only [isCalm, Bool.and_eq_true, bne_iff_ne, Option.isNone_iff_eq_none,
    Bool.not_eq_true'] at h
  exact clock?_cons_eq_none h.1.1.1 h.1.1.2 h.1.2 ws

lemma day?_of_isCalm {w : Text} (h : isCalm w = true) (ref : Instant) (ws : List Text) :
    day? ref (w :: ws) = plainDay? ref.date w ws := by
  simp only [isCalm, Bool.and_eq_true, List.all_eq_true, bne_iff_ne] at h
  exact day?_eq_plainDay? h.2 ref ws

lemma isCalm_of_weekday {s : String} {k : Weekday} (h : s ∈ weekdaySpellings k) :
    isCalm s.toList = true := of_meaning (weekdayWords_agrees.meaning h) (by decide +kernel)

lemma isCalm_of_month {s : String} {k : ℕ} (h : s ∈ monthSpellings k) : isCalm s.toList = true :=
  of_meaning (monthWords_agrees.meaning h) (by decide +kernel)

/-- A time in figures has a colon or ends in one of the halves of the day. -/
lemma clockWord?_eq_none {w : Text} (hw : meaning clockWords w = none) (hm : 'm' ∉ w)
    (hcolon : ':' ∉ w) : clockWord? w = none := by
  unfold clockWord?
  rw [hw, dropEnding?_of_not_mem (c := 'm') (by decide) hm,
    dropEnding?_of_not_mem (c := 'm') (by decide) hm]
  simp [twentyFourHour?, splitOnce_eq_none hcolon]

section

variable {w m d : Text} {month day : ℕ}

/-- A word with a hyphen or a slash begins no time, unless it has a colon or an `m`, and opens
nothing. -/
lemma isCalm_of_mem {c : Char} (hc : c ∈ w) (hsep : c = '-' ∨ c = '/') (hm : 'm' ∉ w)
    (hcolon : ':' ∉ w) : isCalm w = true := by
  have hclock : clockWord? w = none := by
    refine clockWord?_eq_none ?_ hm hcolon
    rcases hsep with rfl | rfl <;> exact meaning_eq_none hc (by decide)
  have hnumber : isClockNumber w = false := by
    rw [isClockNumber, List.all_eq_false]
    exact ⟨c, hc, by rcases hsep with rfl | rfl <;> decide⟩
  have hopen : ∀ v ∈ "at" :: openings, w ≠ v.toList := by
    intro v hv
    refine ne_of_mem_of_contains hc ?_
    have hall : (("at" :: openings).all fun v => !v.toList.contains c) = true := by
      rcases hsep with rfl | rfl <;> decide
    simpa using List.all_eq_true.1 hall v hv
  simp only [isCalm, hclock, hnumber, Option.isNone_none, Bool.not_false, Bool.and_true,
    Bool.and_eq_true, bne_iff_ne, List.all_eq_true]
  exact ⟨hopen _ (by simp), fun v hv => hopen v (by simp [hv])⟩

lemma mem_slash_cases (h : splitAll '/' w = [m, d]) (hm : readNat maxWord m = some month)
    (hd : readNat maxWord d = some day) : '/' ∈ w ∧
      ∀ c, (isAsciiDigit c || "+/".toList.contains c) = false → c ∉ w := by
  have hw : w = m ++ '/' :: d := by
    rw [← intercalate_splitAll '/' w, h]
    simp [List.intercalate]
  refine ⟨by simp [hw], fun c hno hmem => ?_⟩
  obtain ⟨hc, hplus, hslash⟩ : isAsciiDigit c = false ∧ c ≠ '+' ∧ c ≠ '/' := by simpa using hno
  simp only [hw, List.mem_append, List.mem_cons, hslash, false_or] at hmem
  rcases hmem with hmem | hmem
  · rw [readNat_eq_none hc hplus hmem] at hm
    cases hm
  · rw [readNat_eq_none hc hplus hmem] at hd
    cases hd

lemma isCalm_of_slash (h : splitAll '/' w = [m, d]) (hm : readNat maxWord m = some month)
    (hd : readNat maxWord d = some day) : isCalm w = true := by
  obtain ⟨hslash, hno⟩ := mem_slash_cases h hm hd
  exact isCalm_of_mem hslash (.inr rfl) (hno 'm' (by decide)) (hno ':' (by decide))

lemma plainDay?_slash (h : splitAll '/' w = [m, d]) (hm : readNat maxWord m = some month)
    (hd : readNat maxWord d = some day) (today : Date) (ws : List Text) :
    plainDay? today w ws = (upcoming? today month day).map (⟨·, none, 1⟩) := by
  obtain ⟨hslash, hno⟩ := mem_slash_cases h hm hd
  have hread : Date.read? w = none := Date.read?_eq_none_of_not_mem (hno '-' (by decide))
  have hday : slashDay? today w = upcoming? today month day := by
    simp [slashDay?, h, hm, hd]
  rw [plainDay?, meaning_eq_none hslash (by decide), meaning_eq_none hslash (by decide), hread,
    Option.none_or, hday]
  cases upcoming? today month day <;> rfl

end

lemma plainDay?_month {s : String} {month : ℕ} (h : s ∈ monthSpellings month) (today : Date)
    (ws : List Text) : plainDay? today s.toList ws = afterMonth? today month ws := by
  have hmonth := monthWords_agrees.meaning h
  have hother := of_meaning (p := fun w => (meaning weekdayWords w).isNone &&
    (Date.read? w).isNone && !w.contains '/') hmonth (by decide +kernel)
  simp only [Bool.and_eq_true, Option.isNone_iff_eq_none, Bool.not_eq_true'] at hother
  obtain ⟨⟨hday, hread⟩, hslash⟩ := hother
  have hsplit : splitAll '/' s.toList = [s.toList] := splitAll_of_not_mem (by simpa using hslash)
  simp [plainDay?, hday, hread, slashDay?, hsplit, hmonth]

/-- The full name of a weekday is a day by itself. -/
lemma day?_dayName (k : Weekday) (ref : Instant) (ws : List Text) :
    day? ref ((dayName k).toList :: ws) =
      (onWeekday? ref.date k false).map (⟨·, none, 1⟩) := by
  have hmem := dayName_mem k
  rw [day?_of_isCalm (isCalm_of_weekday hmem), plainDay?, weekdayWords_agrees.meaning hmem,
    Option.filter_some, if_pos (List.isSuffixOf_iff_suffix.2 ((suffix_day_iff hmem).2 rfl))]

lemma day?_announced {o : Text} (ho : o = "this".toList ∨ o = "on".toList) (ref : Instant)
    (ws : List Text) : day? ref (o :: ws) =
      ((ws.head?.bind (meaning weekdayWords)).bind (onWeekday? ref.date · false)).map
        (⟨·, none, 2⟩) := by
  rw [day?]
  simp only
  rcases ho with rfl | rfl
  · rw [if_neg (by decide), if_neg (by decide), if_neg (by decide), if_pos (by decide)]
  · rw [if_neg (by decide), if_neg (by decide), if_neg (by decide), if_pos (by decide)]

/-! ### Days left open -/

/-- The words leave a day open: what they say of it is a weekday, or a month and a day of it. -/
inductive OpenDay : List Text → (Date → Prop) → Prop where
  | weekday {k : Weekday} : OpenDay [(dayName k).toList] (·.weekday = k)
  | announced {o : Text} {s : String} {k : Weekday} (ho : o = "this".toList ∨ o = "on".toList)
    (h : s ∈ weekdaySpellings k) : OpenDay [o, s.toList] (·.weekday = k)
  | slash {w m d : Text} {month day : ℕ} (h : splitAll '/' w = [m, d])
    (hm : readNat maxWord m = some month) (hd : readNat maxWord d = some day) :
    OpenDay [w] fun e => e.month = month ∧ e.day = day
  | monthName {s : String} {v : Text} {month day : ℕ} (hm : s ∈ monthSpellings month)
    (hd : monthDay? v = some day) : OpenDay [s.toList, v] fun e => e.month = month ∧ e.day = day

namespace OpenDay

variable {ds ts : List Text} {p : Date → Prop} {ref : Instant} {hit : DayHit}

lemma ne_nil (h : OpenDay ds p) : ds ≠ [] := by cases h <;> simp

/-- No time begins where a day does. -/
lemma clock?_append (h : OpenDay ds p) (ts : List Text) : clock? (ds ++ ts) = none := by
  cases h with
  | weekday => exact clock?_of_isCalm (isCalm_of_weekday (dayName_mem _)) _
  | announced ho h =>
    rcases ho with rfl | rfl
    · exact clock?_cons_eq_none (by decide) (by decide) (by decide) _
    · exact clock?_cons_eq_none (by decide) (by decide) (by decide) _
  | slash h hm hd => exact clock?_of_isCalm (isCalm_of_slash h hm hd) _
  | monthName hm hd => exact clock?_of_isCalm (isCalm_of_month hm) _

/-- **The first such day is meant**, unless a year follows that of a month. -/
theorem of_day? (h : OpenDay ds p) (hd : day? ref (ds ++ ts) = some hit) :
    hit.time = none ∧
      (hit.used = ds.length ∧ IsLeast {e : Date | ref.date ≤ e ∧ p e} hit.date ∨
        hit.used = ds.length + 1 ∧ (ts.head?.bind year?).isSome = true) := by
  cases h with
  | @weekday k =>
    rw [List.singleton_append, day?_dayName] at hd
    obtain ⟨d, he, rfl⟩ := Option.map_eq_some_iff.1 hd
    exact ⟨rfl, .inl ⟨rfl, isLeast_of_onWeekday? he⟩⟩
  | announced ho h =>
    rw [List.cons_append, day?_announced ho, List.singleton_append, List.head?_cons,
      Option.bind_some, weekdayWords_agrees.meaning h, Option.bind_some] at hd
    obtain ⟨d, he, rfl⟩ := Option.map_eq_some_iff.1 hd
    exact ⟨rfl, .inl ⟨rfl, isLeast_of_onWeekday? he⟩⟩
  | slash h hm hd' =>
    rw [List.singleton_append, day?_of_isCalm (isCalm_of_slash h hm hd'),
      plainDay?_slash h hm hd'] at hd
    obtain ⟨d, he, rfl⟩ := Option.map_eq_some_iff.1 hd
    exact ⟨rfl, .inl ⟨rfl, isLeast_of_upcoming? he⟩⟩
  | monthName hm hd' =>
    rw [List.cons_append, day?_of_isCalm (isCalm_of_month hm), plainDay?_month hm,
      List.singleton_append, afterMonth?, hd', Option.bind_eq_bind, Option.bind_some] at hd
    split at hd
    · next y hy =>
      obtain ⟨d, -, rfl⟩ := Option.map_eq_some_iff.1 hd
      exact ⟨rfl, .inr ⟨rfl, by rw [hy]; rfl⟩⟩
    · obtain ⟨d, he, rfl⟩ := Option.map_eq_some_iff.1 hd
      exact ⟨rfl, .inl ⟨rfl, isLeast_of_upcoming? he⟩⟩

end OpenDay

/-! ### Times beside them -/

/-- A word that is a time is no year. -/
lemma year?_of_clockWord? {w : Text} {c : Clock} (h : clockWord? w = some c) : year? w = none := by
  by_contra hy
  have hno : ∀ a, (isAsciiDigit a || "+-".toList.contains a) = false → a ∉ w := by
    intro a ha hmem
    obtain ⟨hdigit, hplus, hminus⟩ : isAsciiDigit a = false ∧ a ≠ '+' ∧ a ≠ '-' := by simpa using ha
    apply hy
    rw [year?, readInt_eq_none hdigit hplus hminus hmem, ite_self]
  have hword : meaning clockWords w = none := by
    cases hm : meaning clockWords w with
    | none => rfl
    | some _ =>
      have hany := of_meaning (p := fun w => w.any fun a =>
        !(isAsciiDigit a || "+-".toList.contains a)) hm (by decide)
      obtain ⟨a, ha, hp⟩ := List.any_eq_true.1 hany
      exact absurd ha (hno a (by simpa using hp))
  rw [clockWord?_eq_none hword (hno 'm' (by decide)) (hno ':' (by decide))] at h
  cases h

/-- Only a time of two words may begin with a word that could be a year, and its second word is no
time. -/
lemma clock?_tail_of_year? {ts : List Text} {c : Clock} (hc : clock? ts = some (c, ts.length))
    (hy : (ts.head?.bind year?).isSome = true) : 2 ≤ ts.length ∧ clock? ts.tail = none := by
  cases ts with
  | nil => cases hc
  | cons w ws =>
    have hyw : year? w ≠ none := by simpa [Option.isSome_iff_ne_none] using hy
    rw [clock?] at hc
    split_ifs at hc with hat
    · rw [hat] at hyw
      exact absurd (by decide) hyw
    · rw [bareClock?.eq_def] at hc
      simp only at hc
      split at hc
      · next hw => exact absurd (year?_of_clockWord? hw) hyw
      · split at hc
        · next half rest =>
          split_ifs at hc with hhalf
          obtain ⟨_, -, he⟩ := Option.map_eq_some_iff.1 hc
          simp only [Prod.mk.injEq, List.length_cons] at he
          obtain rfl : rest = [] := List.length_eq_zero_iff.1 (by omega)
          rw [List.tail_cons]
          refine ⟨le_rfl, ?_⟩
          rcases hhalf.1 with rfl | rfl <;> decide
        · cases hc

namespace OpenDay

variable {ds ts : List Text} {p : Date → Prop} {ref : Instant} {c : Clock} {r : Reading}

/-- The time may stand on either side of the day. -/
theorem of_reading? (h : OpenDay ds p) (hc : clock? ts = some (c, ts.length)) {ws : List Text}
    (hws : ws = ds ++ ts ∨ ws = ts ++ ds) (hr : reading? ref ws = some r)
    (hu : r.used = ws.length) :
    r.hasTime = true ∧ r.instant.time = c ∧
      IsLeast {e : Date | ref.date ≤ e ∧ p e} r.instant.date := by
  rcases hws with rfl | rfl
  · simp only [reading?, h.clock?_append ts] at hr
    obtain ⟨hit, hd, rfl⟩ := Option.map_eq_some_iff.1 hr
    obtain ⟨htime, ⟨hused, hleast⟩ | ⟨hused, hyear⟩⟩ := h.of_day? hd
    · have hafter : clock? ((ds ++ ts).drop hit.used) = some (c, ts.length) := by
        rw [hused, List.drop_left, hc]
      simp only [htime, hafter]
      exact ⟨trivial, trivial, hleast⟩
    · -- a year would leave a word over
      obtain ⟨hlen, htail⟩ := clock?_tail_of_year? hc hyear
      have hafter : clock? ((ds ++ ts).drop hit.used) = none := by
        rw [hused, ← List.drop_drop, List.drop_left, List.drop_one, htail]
      simp only [htime, hafter, List.length_append] at hu
      omega
  · simp only [reading?, Phrase.clock?_append hc ds, List.drop_left] at hr
    cases hd : day? ref ds with
    | some hit =>
      rw [hd] at hr
      cases hr
      rw [← List.append_nil ds] at hd
      obtain ⟨-, ⟨-, hleast⟩ | ⟨-, hyear⟩⟩ := h.of_day? hd
      · exact ⟨rfl, rfl, hleast⟩
      · cases hyear
    | none =>
      -- the day is among the words that were read
      rw [hd] at hr
      obtain ⟨_, -, rfl⟩ := Option.map_eq_some_iff.1 hr
      have := List.length_pos_iff.2 h.ne_nil
      simp only [List.length_append] at hu
      omega

end OpenDay

/-- The first day of a kind, at a time, is past exactly if it is today and the time is past. -/
lemma le_iff_of_isLeast {p : Date → Prop} {ref i : Instant}
    (h : IsLeast {e : Date | ref.date ≤ e ∧ p e} i.date) :
    ref ≤ i ↔ ¬ (p ref.date ∧ i.time.toSeconds < ref.time.toSeconds) := by
  have hle : ref.date.toDays ≤ i.date.toDays := h.1.1
  have ht := ref.time.toSeconds_lt
  rw [Instant.le_def, Instant.toSeconds, Instant.toSeconds]
  by_cases hp : p ref.date
  · have hge : i.date.toDays ≤ ref.date.toDays := h.2 ⟨le_refl ref.date.toDays, hp⟩
    simp only [hp, true_and]
    omega
  · have hne : ref.date.toDays ≠ i.date.toDays := fun he =>
      hp (Date.toDays_injective he ▸ h.1.2)
    simp only [hp, false_and, not_false_iff, iff_true]
    omega

end Phrase

/-- **When an open day with a time is not past.** A match whose words are a weekday, or a day of a
month without a year, and a time beside it means the first such day from the reference date on at
that time. It lies before the reference instant exactly if the reference date is such a day and the
time is past. -/
theorem Resolver.english_open_day_le_iff {ref : Instant} {t : Text} {m : DateMatch}
    (h : english t ref = some m) {ds ts : List Text} {p : Date → Prop} {c : Clock}
    (hd : Phrase.OpenDay ds p) (hc : Phrase.clock? ts = some (c, ts.length))
    (hws : m.phrase t = ds ++ ts ∨ m.phrase t = ts ++ ds) :
    m.hasTime = true ∧ m.instant.time = c ∧
      IsLeast {e : Date | ref.date ≤ e ∧ p e} m.instant.date ∧
      (ref ≤ m.instant ↔ ¬ (p ref.date ∧ c.toSeconds < ref.time.toSeconds)) := by
  obtain ⟨r, hr, hused, hinstant, htime⟩ := exists_reading?_of_english h
  obtain ⟨h1, h2, h3⟩ := hd.of_reading? hc hws hr hused
  rw [hinstant, htime]
  refine ⟨h1, h2, h3, ?_⟩
  rw [Phrase.le_iff_of_isLeast h3, h2]

/-- A day of a month, with a time that is still to come on that day. -/
theorem Resolver.english_open_day_le_iff_of_pie :
    let day : Date := ⟨2025, 3, 14, by decide, by decide, by decide, by decide⟩
    let five : Clock := ⟨17, 0, 0, by decide, by decide, by decide⟩
    let isDay : Date → Prop := fun e => e.month = 3 ∧ e.day = 14
    let ds := ["mar".toList, "14th".toList]
    let ts := ["at".toList, "5pm".toList]
    let m : DateMatch := ⟨⟨9, 24⟩, ⟨day, five⟩, true⟩
    let t := "Bake pie mar 14th at 5pm".toList
    english t ⟨day, .noon⟩ = some m ∧ m.phrase t = ds ++ ts ∧ Phrase.OpenDay ds isDay ∧
      Phrase.clock? ts = some (five, ts.length) ∧ Instant.mk day .noon ≤ m.instant := by
  intro day five isDay ds ts m t
  have h : english t ⟨day, .noon⟩ = some m := by decide +kernel
  have hphrase : m.phrase t = ds ++ ts := by decide +kernel
  have hd : Phrase.OpenDay ds isDay := .monthName (by decide) (by decide +kernel)
  have hc : Phrase.clock? ts = some (five, ts.length) := by decide +kernel
  exact ⟨h, hphrase, hd, hc, (english_open_day_le_iff h hd hc (.inl hphrase)).2.2.2.2 (by decide)⟩

/-- On a Monday at nine, Monday at eight is the past hour. -/
theorem Resolver.english_monday_at_eight :
    let day : Date := ⟨2025, 3, 10, by decide, by decide, by decide, by decide⟩
    let ref : Instant := ⟨day, ⟨9, 0, 0, by decide, by decide, by decide⟩⟩
    let eight : Clock := ⟨8, 0, 0, by decide, by decide, by decide⟩
    let m : DateMatch := ⟨⟨0, 10⟩, ⟨day, eight⟩, true⟩
    let t := "monday 8am".toList
    english t ref = some m ∧ m.phrase t = ["monday".toList] ++ ["8am".toList] ∧
      Phrase.OpenDay ["monday".toList] (·.weekday = 1) ∧
        Phrase.clock? ["8am".toList] = some (eight, 1) ∧ ¬ ref ≤ m.instant :=
  ⟨by decide +kernel, by decide +kernel, .weekday (k := 1), by decide +kernel, by decide +kernel⟩

end TaskCapture
