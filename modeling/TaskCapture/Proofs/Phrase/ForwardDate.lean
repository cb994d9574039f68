import TaskCapture.Proofs.Calendar.Months
import TaskCapture.Proofs.Phrase.Alone
import TaskCapture.Proofs.Phrase.Written

/-!
Phrases look ahead. Without a year in it a phrase means no day before the reference date; a time
alone means the next instant with that time of day.
-/

namespace TaskCapture

open Text

/-! ### The words of a match -/

/-- The words that a match takes up, in the form in which they are compared. -/
def DateMatch.phrase (m : DateMatch) (t : Text) : List Text :=
  let upTo := (splitAtByte m.span.stop t).elim [] (·.1)
  let within := (splitAtByte m.span.start upTo).elim [] (·.2)
  (words within).map Phrase.norm

/-- A match is read from its own words. -/
lemma Resolver.exists_reading?_of_english {ref : Instant} {t : Text} {m : DateMatch}
    (h : english t ref = some m) :
    ∃ r, Phrase.reading? ref (m.phrase t) = some r ∧ r.used = (m.phrase t).length ∧
      m.instant = r.instant ∧ m.hasTime = r.hasTime := by
  obtain ⟨a, x, b, r, rfl, rfl, hr, hused⟩ := exists_cut_of_english h
  have hphrase : DateMatch.phrase ⟨⟨byteSize a, byteSize (a ++ x)⟩, r.instant, r.hasTime⟩
      (a ++ x ++ b) = (words x).map Phrase.norm := by
    simp only [DateMatch.phrase, splitAtByte_append, Option.elim_some]
  rw [hphrase]
  exact ⟨r, hr, by rw [hused, List.length_map], rfl, rfl⟩

/-! ### Days ahead -/

namespace Instant

/-- So many seconds later, as the seconds are counted. -/
lemma toSeconds_of_addSeconds? {i j : Instant} {n : ℕ} (h : i.addSeconds? n = some j) :
    j.toSeconds = i.toSeconds + n := by
  obtain ⟨d, hd, he⟩ := Option.bind_eq_some_iff.1 h
  cases he
  have := Date.addDays?_eq_some_iff.1 hd
  simp only [toSeconds, Clock.toSeconds, Clock.ofSeconds] at *
  omega

lemma date_le_of_addSeconds? {i j : Instant} {n : ℕ} (h : i.addSeconds? n = some j) :
    i.date ≤ j.date := by
  obtain ⟨d, hd, he⟩ := Option.bind_eq_some_iff.1 h
  cases he
  exact Date.le_of_addDays? hd

end Instant

namespace Phrase

lemma le_of_onWeekday? {today d : Date} {w : Weekday} {strict : Bool}
    (h : onWeekday? today w strict = some d) : today ≤ d := Date.le_of_addDays? h

lemma le_of_upcoming? {today d : Date} {month day : ℕ} (h : upcoming? today month day = some d) :
    today ≤ d := by
  obtain ⟨k, -, hk⟩ := List.exists_of_findSome?_eq_some h
  obtain ⟨-, hle⟩ := Option.filter_eq_some_iff.1 hk
  simpa using hle

lemma le_of_nextDay? {today d : Date} {w : Text} (h : nextDay? today w = some d) : today ≤ d := by
  unfold nextDay? at h
  split at h
  · exact le_of_onWeekday? h
  · split_ifs at h
    · exact Date.le_of_addDays? h
    · exact Date.le_of_addMonths? h
    · exact Date.le_of_addMonths? h

lemma le_of_ahead? {ref : Instant} {n m : ℕ} {u : TimeUnit} {hit : DayHit}
    (h : ahead? ref n u m = some hit) : ref.date ≤ hit.date := by
  unfold ahead? at h
  cases u with
  | minute =>
    obtain ⟨i, hi, rfl⟩ := Option.map_eq_some_iff.1 h
    exact Instant.date_le_of_addSeconds? hi
  | hour =>
    obtain ⟨i, hi, rfl⟩ := Option.map_eq_some_iff.1 h
    exact Instant.date_le_of_addSeconds? hi
  | day =>
    obtain ⟨d, hd, rfl⟩ := Option.map_eq_some_iff.1 h
    exact Date.le_of_addDays? hd
  | week =>
    obtain ⟨d, hd, rfl⟩ := Option.map_eq_some_iff.1 h
    exact Date.le_of_addDays? hd
  | month =>
    obtain ⟨d, hd, rfl⟩ := Option.map_eq_some_iff.1 h
    exact Date.le_of_addMonths? hd
  | year =>
    simp only at h
    split_ifs at h
    obtain ⟨d, hd, rfl⟩ := Option.map_eq_some_iff.1 h
    exact Date.le_of_addMonths? hd

/-! ### Days with a year -/

/-- Month, day and year with slashes between them. -/
def isSlashYear (w : Text) : Bool :=
  match splitAll '/' w with
  | [m, d, y] => (readNat maxWord m).isSome && (readNat maxWord d).isSome && (year? y).isSome
  | _ => false

/-- The words begin with a day that has its year: `2025-01-16`, `3/14/2026`, `mar 5th 2026`. -/
def beginsYear : List Text → Bool
  | [] => false
  | w :: ws => (Date.read? w).isSome || isSlashYear w || (meaning monthWords w).isSome &&
      (ws.head?.bind monthDay?).isSome && (ws.tail.head?.bind year?).isSome

/-- A day with its year is written somewhere in the words. -/
def namesYear (ws : List Text) : Bool := ws.tails.any beginsYear

lemma beginsYear_drop {ws : List Text} (h : namesYear ws = false) (n : ℕ) :
    beginsYear (ws.drop n) = false := by
  have hall : ∀ v ∈ ws.tails, ¬ beginsYear v = true := by simpa [namesYear] using h
  simpa using hall _ ((List.mem_tails _ _).2 (List.drop_suffix n ws))

lemma le_of_slashDay? {today d : Date} {w : Text} (h : slashDay? today w = some d)
    (hw : isSlashYear w = false) : today ≤ d := by
  unfold slashDay? at h
  unfold isSlashYear at hw
  split at h
  · simp only [Option.bind_eq_bind, Option.bind_eq_some_iff] at h
    obtain ⟨_, -, _, -, h⟩ := h
    exact le_of_upcoming? h
  · next m k y hsplit =>
    -- the three numbers are read, against what was said of the word
    simp only [Option.bind_eq_bind, Option.bind_eq_some_iff] at h
    obtain ⟨_, hm, _, hk, h⟩ := h
    split_ifs at h with hlen
    obtain ⟨_, hy, -⟩ := Option.bind_eq_some_iff.1 h
    simp [hsplit, hm, hk, year?, hlen, hy] at hw
  · cases h

lemma le_of_afterMonth? {today : Date} {m : ℕ} {ws : List Text} {hit : DayHit}
    (h : afterMonth? today m ws = some hit)
    (hws : ((ws.head?.bind monthDay?).isSome && (ws.tail.head?.bind year?).isSome) = false) :
    today ≤ hit.date := by
  unfold afterMonth? at h
  split at h
  · cases h
  · next w ws =>
    obtain ⟨d, hd, h⟩ := Option.bind_eq_some_iff.1 h
    split at h
    · next y hy => simp [hd, hy] at hws
    · obtain ⟨e, he, rfl⟩ := Option.map_eq_some_iff.1 h
      exact le_of_upcoming? he

lemma le_of_plainDay? {today : Date} {w : Text} {ws : List Text} {hit : DayHit}
    (h : plainDay? today w ws = some hit) (hw : beginsYear (w :: ws) = false) :
    today ≤ hit.date := by
  simp only [beginsYear, Bool.or_eq_false_iff, Option.isSome_eq_false_iff,
    Option.isNone_iff_eq_none] at hw
  obtain ⟨⟨hread, hslash⟩, hmonth⟩ := hw
  unfold plainDay? at h
  simp only at h
  split at h
  · obtain ⟨d, hd, rfl⟩ := Option.map_eq_some_iff.1 h
    exact le_of_onWeekday? hd
  · rw [hread, Option.none_or] at h
    split at h
    · next d hd =>
      cases h
      exact le_of_slashDay? hd hslash
    · obtain ⟨m, hm, h⟩ := Option.bind_eq_some_iff.1 h
      rw [hm, Option.isSome_some, Bool.true_and] at hmonth
      exact le_of_afterMonth? h hmonth

/-- **A day without a year in it does not lie in the past.** -/
theorem le_of_day? {ref : Instant} {ws : List Text} {hit : DayHit} (h : day? ref ws = some hit)
    (hws : beginsYear ws = false) : ref.date ≤ hit.date := by
  cases ws with
  | nil => cases h
  | cons w ws =>
    rw [day?] at h
    simp only at h
    split_ifs at h
    · cases h
      exact le_refl ref.date.toDays
    · obtain ⟨d, hd, rfl⟩ := Option.map_eq_some_iff.1 h
      exact Date.le_of_addDays? (n := 1) hd
    · obtain ⟨d, hd, rfl⟩ := Option.map_eq_some_iff.1 h
      obtain ⟨v, -, hd⟩ := Option.bind_eq_some_iff.1 hd
      exact le_of_nextDay? hd
    · obtain ⟨d, hd, rfl⟩ := Option.map_eq_some_iff.1 h
      obtain ⟨wd, -, hd⟩ := Option.bind_eq_some_iff.1 hd
      exact le_of_onWeekday? hd
    · obtain ⟨⟨n, u, m⟩, -, h⟩ := Option.bind_eq_some_iff.1 h
      exact le_of_ahead? h
    · exact le_of_plainDay? h hws

theorem le_of_reading? {ref : Instant} {ws : List Text} {r : Reading}
    (h : reading? ref ws = some r) (hws : namesYear ws = false) : ref.date ≤ r.instant.date := by
  unfold reading? at h
  split at h
  · next c n _ =>
    split at h
    · next hit hd =>
      cases h
      exact le_of_day? hd (beginsYear_drop hws n)
    · obtain ⟨d, hd, rfl⟩ := Option.map_eq_some_iff.1 h
      split_ifs at hd
      · exact Date.le_of_addDays? (n := 1) hd
      · cases hd
        exact le_refl ref.date.toDays
  · obtain ⟨hit, hd, rfl⟩ := Option.map_eq_some_iff.1 h
    have hle := le_of_day? hd (beginsYear_drop hws 0)
    split
    · exact hle
    · split
      · exact hle
      · exact hle

/-! ### Times alone and amounts of time -/

/-- A time that is already past today comes tomorrow. -/
lemma isLeast_next {ref : Instant} {c : Clock} {d : Date}
    (h : (if c.toSeconds < ref.time.toSeconds then ref.date.succ? else some ref.date) = some d) :
    IsLeast {i : Instant | ref ≤ i ∧ i.time = c} ⟨d, c⟩ := by
  have hc := c.toSeconds_lt
  have hr := ref.time.toSeconds_lt
  constructor
  · refine ⟨?_, rfl⟩
    rw [Instant.le_def, Instant.toSeconds, Instant.toSeconds]
    split_ifs at h with hlt
    · have := Date.addDays?_eq_some_iff.1 h
      simp only
      omega
    · cases h
      simp only
      omega
  · rintro i ⟨hle, rfl⟩
    rw [Instant.le_def, Instant.toSeconds, Instant.toSeconds] at hle ⊢
    split_ifs at h with hlt
    · have := Date.addDays?_eq_some_iff.1 h
      simp only
      omega
    · cases h
      simp only
      omega

lemma isLeast_of_reading?_clock {ref : Instant} {ws : List Text} {c : Clock} {r : Reading}
    (h : reading? ref ws = some r) (hc : clock? ws = some (c, ws.length)) :
    r.hasTime = true ∧ IsLeast {i : Instant | ref ≤ i ∧ i.time = c} r.instant := by
  simp only [reading?, hc, List.drop_length, day?] at h
  obtain ⟨d, hd, rfl⟩ := Option.map_eq_some_iff.1 h
  exact ⟨rfl, isLeast_next hd⟩

/-- The seconds of a unit that fixes a time of day. -/
def TimeUnit.seconds? : TimeUnit → Option ℕ
  | .minute => some 60
  | .hour => some 3600
  | _ => none

lemma toSeconds_of_ahead? {ref : Instant} {n m k : ℕ} {u : TimeUnit} {hit : DayHit}
    (h : ahead? ref n u m = some hit) (hk : u.seconds? = some k) :
    ∃ c, hit.time = some c ∧ (Instant.mk hit.date c).toSeconds = ref.toSeconds + (k * n : ℕ) := by
  cases u with
  | minute =>
    obtain ⟨i, hi, rfl⟩ := Option.map_eq_some_iff.1 h
    cases hk
    exact ⟨i.time, rfl, Instant.toSeconds_of_addSeconds? hi⟩
  | hour =>
    obtain ⟨i, hi, rfl⟩ := Option.map_eq_some_iff.1 h
    cases hk
    exact ⟨i.time, rfl, Instant.toSeconds_of_addSeconds? hi⟩
  | _ => cases hk

/-- The opening word of an amount is no time. -/
lemma clock?_in (vs : List Text) : clock? ("in".toList :: vs) = none :=
  clock?_cons_eq_none (by decide) (by decide) (by decide) vs

lemma day?_in (ref : Instant) (vs : List Text) :
    day? ref ("in".toList :: vs) =
      (amount? vs).bind fun (n, u, used) => ahead? ref n u (used + 1) := by
  rw [day?]
  simp only
  rw [if_neg (by decide), if_neg (by decide), if_neg (by decide), if_neg (by decide),
    if_pos trivial]

lemma toSeconds_of_reading?_in {ref : Instant} {vs : List Text} {r : Reading} {n m k : ℕ}
    {u : TimeUnit} (h : reading? ref ("in".toList :: vs) = some r)
    (ha : amount? vs = some (n, u, m)) (hk : u.seconds? = some k) :
    r.hasTime = true ∧ r.instant.toSeconds = ref.toSeconds + (k * n : ℕ) := by
  simp only [reading?, clock?_in] at h
  obtain ⟨hit, hd, rfl⟩ := Option.map_eq_some_iff.1 h
  rw [day?_in, ha, Option.bind_some] at hd
  obtain ⟨c, hc, hs⟩ := toSeconds_of_ahead? hd hk
  rw [hc]
  exact ⟨rfl, hs⟩

end Phrase

/-- **Dates are looked for ahead.** Where the words of a match have no year, its date is not before
the reference date. A time alone means the next instant with that time of day, and an amount of
minutes or hours just that much later. -/
theorem Resolver.english_looks_ahead {ref : Instant} {t : Text} {m : DateMatch}
    (h : english t ref = some m) :
    (Phrase.namesYear (m.phrase t) = false → ref.date ≤ m.instant.date) ∧
      (∀ c, Phrase.clock? (m.phrase t) = some (c, (m.phrase t).length) →
        m.hasTime = true ∧ IsLeast {i : Instant | ref ≤ i ∧ i.time = c} m.instant) ∧
      ∀ vs n u k, m.phrase t = "in".toList :: vs → Phrase.amount? vs = some (n, u, vs.length) →
        u.seconds? = some k →
          m.hasTime = true ∧ m.instant.toSeconds = ref.toSeconds + (k * n : ℕ) := by
  obtain ⟨r, hr, -, hinstant, htime⟩ := exists_reading?_of_english h
  rw [hinstant, htime]
  refine ⟨Phrase.le_of_reading? hr, fun c => Phrase.isLeast_of_reading?_clock hr, ?_⟩
  intro vs n u k hphrase ha hk
  rw [hphrase] at hr
  exact Phrase.toSeconds_of_reading?_in hr ha hk

/-- A day of a month that is past this year, a time that is past today, and minutes over
midnight. -/
theorem Resolver.english_looks_ahead_of_rent :
    let ref : Instant := ⟨⟨2025, 3, 5, by decide, by decide, by decide, by decide⟩,
      ⟨23, 30, 15, by decide, by decide, by decide⟩⟩
    let next : Date := ⟨2025, 3, 6, by decide, by decide, by decide, by decide⟩
    let march : Date := ⟨2026, 3, 1, by decide, by decide, by decide, by decide⟩
    let nine : Clock := ⟨9, 0, 0, by decide, by decide, by decide⟩
    let late : Clock := ⟨23, 30, 0, by decide, by decide, by decide⟩
    let early : Clock := ⟨1, 0, 15, by decide, by decide, by decide⟩
    (english "Pay rent 3/1, at 9am".toList ref = some ⟨⟨9, 20⟩, ⟨march, nine⟩, true⟩ ∧
        ref.date ≤ march) ∧
      (english "call at 11:30pm".toList ref = some ⟨⟨5, 15⟩, ⟨next, late⟩, true⟩ ∧
        IsLeast {i : Instant | ref ≤ i ∧ i.time = late} ⟨next, late⟩) ∧
      english "wait in 90 minutes".toList ref = some ⟨⟨5, 18⟩, ⟨next, early⟩, true⟩ ∧
        (Instant.mk next early).toSeconds = ref.toSeconds + (60 * 90 : ℕ) := by
  intro ref next march nine late early
  have hrent : english "Pay rent 3/1, at 9am".toList ref =
      some ⟨⟨9, 20⟩, ⟨march, nine⟩, true⟩ := by decide +kernel
  have hcall : english "call at 11:30pm".toList ref =
      some ⟨⟨5, 15⟩, ⟨next, late⟩, true⟩ := by decide +kernel
  have hwait : english "wait in 90 minutes".toList ref =
      some ⟨⟨5, 18⟩, ⟨next, early⟩, true⟩ := by decide +kernel
  refine ⟨⟨hrent, (english_looks_ahead hrent).1 (by decide +kernel)⟩,
    ⟨hcall, ((english_looks_ahead hcall).2.1 late (by decide +kernel)).2⟩, hwait, ?_⟩
  exact ((english_looks_ahead hwait).2.2 ["90".toList, "minutes".toList] 90 .minute 60
    (by decide +kernel) (by decide +kernel) rfl).2

end TaskCapture
