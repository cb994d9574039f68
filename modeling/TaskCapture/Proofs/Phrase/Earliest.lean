import TaskCapture.Proofs.Phrase.Meaning

/-!
The earliest day of a kind. A weekday means the first day with that name, a month and a day of it
the first such day that the calendar has; leap days lie at most eight years apart, so nine years
are enough to look through.
-/

namespace TaskCapture

open Text Calendar

/-! ### The next such day -/

namespace Date

lemma eq_of_isLeast {s : Set Date} {d e : Date} (hd : IsLeast s d) (he : IsLeast s e) : d = e :=
  toDays_injective (Int.le_antisymm (hd.2 he.1) (he.2 hd.1))

lemma weekday_eq_iff {d : Date} {w : Weekday} : d.weekday = w ↔ d.toDays % 7 = w.val := by
  rw [Fin.ext_iff, weekday]
  simp only
  omega

/-- Two multiples of four that follow each other are not both multiples of a hundred. -/
lemma exists_isLeap (y : ℤ) : ∃ j : ℕ, 1 ≤ j ∧ j ≤ 8 ∧ isLeap (y + j) = true := by
  obtain ⟨j, hj⟩ : ∃ j : ℕ, (j : ℤ) = 4 - y % 4 := ⟨(4 - y % 4).toNat, by omega⟩
  by_cases h : (y + j) % 100 = 0
  · refine ⟨j + 4, by omega, by omega, ?_⟩
    simp only [isLeap, Bool.and_eq_true, Bool.or_eq_true, decide_eq_true_eq]
    exact ⟨by push_cast; omega, .inl (by push_cast; omega)⟩
  · refine ⟨j, by omega, by omega, ?_⟩
    simp only [isLeap, Bool.and_eq_true, Bool.or_eq_true, decide_eq_true_eq]
    exact ⟨by omega, .inl h⟩

/-- What is a day of some year is one again within eight years. -/
lemma exists_le_monthLength (d : Date) (y : ℤ) :
    ∃ j : ℕ, 1 ≤ j ∧ j ≤ 8 ∧ d.day ≤ monthLength (y + j) d.month := by
  have hday := d.day_le
  by_cases hm : d.month = 2
  · obtain ⟨j, h1, h8, hleap⟩ := exists_isLeap y
    refine ⟨j, h1, h8, hday.trans ?_⟩
    simp only [hm, monthLength, hleap, if_true]
    split_ifs <;> omega
  · exact ⟨1, le_rfl, by omega, monthLength_of_ne_two hm d.year (y + 1) ▸ hday⟩

/-- A day to come has its month and its day again, or has them first, in one of nine years. -/
lemma exists_of_le {today e : Date} (h : today ≤ e) : ∃ (k : ℕ) (x : Date), k < 9 ∧
    x.year = today.year + k ∧ x.month = e.month ∧ x.day = e.day ∧ today ≤ x := by
  have hyear := year_le_of_le h
  by_cases hfar : e.year ≤ today.year + 8
  · exact ⟨(e.year - today.year).toNat, e, by omega, by omega, rfl, rfl, h⟩
  · obtain ⟨j, h1, h8, hlen⟩ := e.exists_le_monthLength today.year
    have hmin := today.minYear_le
    have hmax := e.year_le
    refine ⟨j, ⟨today.year + j, e.month, e.day, by omega, by omega, e.day_pos, hlen⟩, by omega,
      rfl, rfl, rfl, (toDays_lt_of_monthNumber_lt ?_).le⟩
    have := today.month_mem
    have := e.month_mem
    simp only [monthNumber]
    omega

end Date

namespace Phrase

variable {today d : Date} {w : Weekday} {strict : Bool} {month day : ℕ}

lemma findSome?_range_ne_none {α : Type} {f : ℕ → Option α} {n k : ℕ} {a : α} (hk : k < n)
    (h : f k = some a) : (List.range n).findSome? f ≠ none := by
  intro hn
  rw [List.findSome?_eq_none_iff.1 hn k (List.mem_range.2 hk)] at h
  cases h

/-- **Nine years reach every day of a year.** -/
theorem upcoming?_eq_none_iff : upcoming? today month day = none ↔
    ∀ e : Date, today ≤ e → ¬ (e.month = month ∧ e.day = day) := by
  refine ⟨?_, fun h => ?_⟩
  · rintro hnone e hle ⟨rfl, rfl⟩
    obtain ⟨k, x, hk, hx, hxm, hxd, hxle⟩ := Date.exists_of_le hle
    refine findSome?_range_ne_none (a := x) hk ?_ hnone
    rw [Date.ofYmd?_eq_some_iff.2 ⟨hx, hxm, hxd⟩, Option.filter_some, if_pos (by simpa using hxle)]
  · cases hu : upcoming? today month day with
    | none => rfl
    | some e =>
      obtain ⟨⟨hle, he⟩, -⟩ := isLeast_of_upcoming? hu
      exact absurd he (h e hle)

theorem upcoming?_eq_some_iff : upcoming? today month day = some d ↔
    IsLeast {e : Date | today ≤ e ∧ e.month = month ∧ e.day = day} d := by
  refine ⟨isLeast_of_upcoming?, fun h => ?_⟩
  cases hu : upcoming? today month day with
  | none => exact absurd h.1.2 (upcoming?_eq_none_iff.1 hu d h.1.1)
  | some e => rw [Date.eq_of_isLeast (isLeast_of_upcoming? hu) h]

/-- The days to go are the fewest that lead to the weekday, and at least one where the day itself is
ruled out. -/
lemma isLeast_daysUntil (today : Date) (w : Weekday) (strict : Bool) :
    IsLeast {n : ℕ | strict.toNat ≤ n ∧ (today.toDays + n) % 7 = w.val}
      (daysUntil today.weekday w strict) := by
  have hw := w.isLt
  have htoday : today.weekday.val = (today.toDays % 7).toNat := rfl
  simp only [daysUntil, htoday]
  cases strict with
  | false =>
    simp only [Bool.false_eq_true, and_false, if_false, Bool.toNat_false]
    refine ⟨⟨Nat.zero_le _, by omega⟩, ?_⟩
    rintro n ⟨-, hn⟩
    omega
  | true =>
    simp only [and_true, Bool.toNat_true]
    split_ifs with hzero
    · refine ⟨⟨by decide, by omega⟩, ?_⟩
      rintro n ⟨hpos, hn⟩
      omega
    · refine ⟨⟨Nat.one_le_iff_ne_zero.2 hzero, by omega⟩, ?_⟩
      rintro n ⟨-, hn⟩
      omega

/-- **A weekday is the first of its name**, counted from today or, if today is ruled out, from
tomorrow. -/
theorem onWeekday?_eq_some_iff : onWeekday? today w strict = some d ↔
    IsLeast {e : Date | today.toDays + strict.toNat ≤ e.toDays ∧ e.weekday = w} d := by
  obtain ⟨⟨hpos, hweek⟩, hmin⟩ := isLeast_daysUntil today w strict
  have hleast : ∀ e : Date, today.toDays + strict.toNat ≤ e.toDays → e.weekday = w →
      today.toDays + daysUntil today.weekday w strict ≤ e.toDays := by
    intro e hle he
    obtain ⟨n, hn⟩ := Int.le.dest (show today.toDays ≤ e.toDays by omega)
    have := hmin ⟨show strict.toNat ≤ n by omega, by rw [hn]; exact Date.weekday_eq_iff.1 he⟩
    omega
  have hadd : ∀ e : Date, e.toDays = today.toDays + daysUntil today.weekday w strict →
      IsLeast {e : Date | today.toDays + strict.toNat ≤ e.toDays ∧ e.weekday = w} e := by
    intro e he
    refine ⟨⟨by omega, Date.weekday_eq_iff.2 (by rw [he]; exact hweek)⟩, ?_⟩
    rintro x ⟨hle, hx⟩
    rw [Date.le_def, he]
    exact hleast x hle hx
  unfold onWeekday?
  rw [Date.addDays?_eq_some_iff]
  refine ⟨hadd d, fun h => ?_⟩
  -- the calendar reaches as far as `d`, so it has the day before that is meant, if there is one
  have hfirst := today.first_le
  have hlast := d.le_last
  have hle := hleast d h.1.1 h.1.2
  obtain ⟨e, he⟩ := Date.exists_toDays_eq (n := today.toDays + daysUntil today.weekday w strict)
    (by omega) (by omega)
  rw [Date.eq_of_isLeast h (hadd e he), he]

/-! ### Days left open -/

/-- The words of a month and a day of it, without a year. -/
inductive MonthAndDay : List Text → ℕ → ℕ → Prop where
  | slash {m d : Text} {month day : ℕ} (hm : Figures m month) (hd : Figures d day) :
    MonthAndDay [m ++ '/' :: d] month day
  | name {s : String} {v : Text} {month day : ℕ} (hs : s ∈ monthSpellings month)
    (hv : Ordinal v day) : MonthAndDay [s.toList, v] month day

/-- The days that the words leave open, seen from `today`. -/
inductive LeavesOpen (today : Date) : List Text → Set Date → Prop where
  | weekday {k : Weekday} :
    LeavesOpen today [(dayName k).toList] {e | today ≤ e ∧ e.weekday = k}
  | announced {o : Text} {s : String} {k : Weekday} (ho : o = "this".toList ∨ o = "on".toList)
    (hs : s ∈ weekdaySpellings k) :
    LeavesOpen today [o, s.toList] {e | today ≤ e ∧ e.weekday = k}
  | next {s : String} {k : Weekday} (hs : s ∈ weekdaySpellings k) :
    LeavesOpen today ["next".toList, s.toList] {e | today < e ∧ e.weekday = k}
  | monthAndDay {ds : List Text} {month day : ℕ} (h : MonthAndDay ds month day) :
    LeavesOpen today ds {e | today ≤ e ∧ e.month = month ∧ e.day = day}

variable {ds : List Text} {v m n : Text} {s : Set Date} {ref : Instant}

/-- A number too large to be read is no month and no day either. -/
lemma slashDay?_of_figures (hm : Figures m month) (hn : Figures n day) :
    slashDay? today (m ++ '/' :: n) = upcoming? today month day := by
  have hno : ∀ {t k}, Figures t k → splitAll '/' t = [t] :=
    fun h => splitAll_of_not_mem (h.not_mem (by decide))
  have hnone : ¬ (month ≤ maxWord ∧ day ≤ maxWord) → upcoming? today month day = none := by
    intro h
    refine upcoming?_eq_none_iff.2 fun e _ he => h ?_
    rw [← he.1, ← he.2]
    exact ⟨le_maxWord_of_month e, le_maxWord_of_day e⟩
  rw [slashDay?, splitAll_append_cons, hno hm, hno hn]
  simp only [List.cons_append, List.nil_append, hm.readNat_eq, hn.readNat_eq]
  by_cases h1 : month ≤ maxWord
  · by_cases h2 : day ≤ maxWord
    · rw [if_pos h1, if_pos h2]
      rfl
    · rw [if_neg h2, if_pos h1]
      exact (hnone fun h => h2 h.2).symm
  · rw [if_neg h1]
    exact (hnone fun h => h1 h.1).symm

lemma afterMonth?_of_ordinal (hv : Ordinal v day) :
    afterMonth? today month [v] = (upcoming? today month day).map (⟨·, none, 2⟩) := by
  rw [afterMonth?, hv.monthDay?]
  split_ifs with h
  · rfl
  · have hnone : upcoming? today month day = none :=
      upcoming?_eq_none_iff.2 fun e _ he => h (he.2 ▸ ⟨e.day_pos, day_le_thirtyOne e⟩)
    rw [hnone]
    rfl

namespace MonthAndDay

lemma isCalm_slash {a b : ℕ} (hm : Figures m a) (hn : Figures n b) :
    isCalm (m ++ '/' :: n) = true :=
  isCalm_of_mem (c := '/') (by simp) (.inr rfl)
    (by simp [hm.not_mem (c := 'm') (by decide), hn.not_mem (c := 'm') (by decide)])
    (by simp [hm.not_mem (c := ':') (by decide), hn.not_mem (c := ':') (by decide)])

lemma clock?_eq_none (h : MonthAndDay ds month day) : clock? ds = none := by
  cases h with
  | slash hm hd => exact clock?_of_isCalm (isCalm_slash hm hd) _
  | name hs hv => exact clock?_of_isCalm (isCalm_of_month hs) _

/-- **The first day of that month and day is read.** -/
theorem day? (h : MonthAndDay ds month day) (ref : Instant) :
    day? ref ds = (upcoming? ref.date month day).map (⟨·, none, ds.length⟩) := by
  cases h with
  | @slash m d _ _ hm hd =>
    have hhyphen : '-' ∉ m ++ '/' :: d := by
      simp [hm.not_mem (c := '-') (by decide), hd.not_mem (c := '-') (by decide)]
    rw [day?_of_isCalm (isCalm_slash hm hd), plainDay?,
      meaning_eq_none (c := '/') (by simp) (by decide), Date.read?_eq_none_of_not_mem hhyphen,
      slashDay?_of_figures hm hd, meaning_eq_none (c := '/') (by simp) (by decide)]
    cases upcoming? ref.date month day <;> rfl
  | name hs hv =>
    rw [day?_of_isCalm (isCalm_of_month hs), plainDay?_month hs, afterMonth?_of_ordinal hv]
    rfl

end MonthAndDay

lemma meaning_eq_none_of_digit {α : Type} {table : List (String × α)} {c : Char} (hc : c ∈ v)
    (hd : isAsciiDigit c = true)
    (hp : (table.all fun e => e.1.toList.all (!isAsciiDigit ·)) = true) :
    meaning table v = none := by
  cases hm : meaning table v with
  | none => rfl
  | some _ =>
    have hall := of_meaning (p := fun w => w.all (!isAsciiDigit ·)) hm hp
    simpa [hd] using List.all_eq_true.1 hall c hc

lemma Ordinal.not_mem {k : ℕ} (h : Ordinal v k) {c : Char} (hc : isAsciiDigit c = false)
    (hend : (["", "st", "nd", "rd", "th"].all fun e => !e.toList.contains c) = true) : c ∉ v := by
  obtain ⟨hv, he⟩ := h
  intro hmem
  rcases List.mem_append.1 hmem with hmem | hmem
  · exact hv.not_mem hc hmem
  · simpa [hmem] using List.all_eq_true.1 hend _ he

/-- A day of the month alone begins no phrase. -/
lemma reading?_ordinal {k : ℕ} (hv : Ordinal v k) (ref : Instant) : reading? ref [v] = none := by
  obtain ⟨c, hc, hd⟩ : ∃ c ∈ v, isAsciiDigit c = true := by
    obtain ⟨hf, -⟩ := hv
    obtain ⟨c, t, rfl⟩ := List.exists_cons_of_ne_nil hf.ne_nil
    exact ⟨c, by simp, hf.digits c (by simp)⟩
  have hword : ∀ o ∈ "at" :: openings, v ≠ o.toList := by
    rintro o ho rfl
    have hall : (("at" :: openings).all fun o => o.toList.all (!isAsciiDigit ·)) = true := by decide
    simpa [hd] using List.all_eq_true.1 (List.all_eq_true.1 hall o ho) c hc
  have hclock : clockWord? v = none :=
    clockWord?_eq_none (meaning_eq_none_of_digit hc hd (by decide))
      (hv.not_mem (by decide) (by decide)) (hv.not_mem (by decide) (by decide))
  have hsplit : splitAll '/' v = [v] := splitAll_of_not_mem (hv.not_mem (by decide) (by decide))
  have hnone : clock? [v] = none := by
    rw [clock?, if_neg (hword _ (by simp)), bareClock?.eq_def]
    simp only [hclock]
  have hweekday : meaning weekdayWords v = none := meaning_eq_none_of_digit hc hd (by decide)
  have hmonth : meaning monthWords v = none := meaning_eq_none_of_digit hc hd (by decide)
  have hday : day? ref [v] = none := by
    rw [day?_eq_plainDay? fun o ho => hword o (by simp [ho]), plainDay?, hweekday,
      Date.read?_eq_none_of_not_mem (hv.not_mem (by decide) (by decide)), slashDay?, hsplit, hmonth]
    rfl
  simp [reading?, hnone, hday]

/-- Nothing is found in the words exactly if there is no such day to come. -/
lemma MonthAndDay.first?_eq_none_iff (h : MonthAndDay ds month day) :
    first? ref ds = none ↔ upcoming? ref.date month day = none := by
  have hr : reading? ref ds = none ↔ upcoming? ref.date month day = none := by
    simp [reading?, h.clock?_eq_none, h.day?]
  rw [← hr]
  cases h with
  | @slash m d _ _ _ _ =>
    rw [first?]
    cases reading? ref [m ++ '/' :: d] <;> simp [first?]
  | @name s v _ _ _ hv =>
    rw [first?, first?, reading?_ordinal hv]
    cases reading? ref [s.toList, v] <;> simp [first?]

namespace LeavesOpen

lemma clock?_eq_none (h : LeavesOpen today ds s) : clock? ds = none := by
  cases h with
  | weekday => exact clock?_of_isCalm (isCalm_of_weekday (dayName_mem _)) _
  | announced ho hs =>
    rcases ho with rfl | rfl
    · exact clock?_cons_eq_none (by decide) (by decide) (by decide) _
    · exact clock?_cons_eq_none (by decide) (by decide) (by decide) _
  | next hs => exact clock?_cons_eq_none (by decide) (by decide) (by decide) _
  | monthAndDay h => exact h.clock?_eq_none

/-- **The earliest of these days is read.** -/
theorem day? (h : LeavesOpen ref.date ds s) (hd : IsLeast s d) :
    day? ref ds = some ⟨d, none, ds.length⟩ := by
  cases h with
  | weekday =>
    have hon : onWeekday? ref.date _ false = some d :=
      onWeekday?_eq_some_iff.2 (by simpa [Date.le_def] using hd)
    rw [day?_dayName, hon]
    rfl
  | announced ho hs =>
    have hon : onWeekday? ref.date _ false = some d :=
      onWeekday?_eq_some_iff.2 (by simpa [Date.le_def] using hd)
    rw [day?_announced ho, List.head?_cons, Option.bind_some, weekdayWords_agrees.meaning hs,
      Option.bind_some, hon]
    rfl
  | next hs =>
    have hon : onWeekday? ref.date _ true = some d :=
      onWeekday?_eq_some_iff.2 (by simpa [Date.lt_def, Int.add_one_le_iff] using hd)
    exact day?_next_of_nextDay? (by rw [nextDay?, weekdayWords_agrees.meaning hs]; exact hon)
  | monthAndDay h => rw [h.day?, upcoming?_eq_some_iff.2 hd, Option.map_some]

end LeavesOpen

end Phrase

/-- **The earliest possible day is meant.** A weekday, bare or after `this` or `on`, is the first of
its name from the reference date on, and after `next` the first one later; a month and a day of it
are the first such day. Of a month and a day nothing is found exactly if the calendar has no such
day any more. -/
theorem Resolver.english_earliest {ref : Instant} {a e : Text}
    (ha : ∀ c ∈ a.getLast?, isBlank c = true) (hq : ∀ w ∈ words a, Phrase.IsQuiet w)
    (he : Trimmed e) :
    (∀ ds vs s d c b, (words e).map Phrase.norm = ds ++ vs → Phrase.LeavesOpen ref.date ds s →
        Phrase.Beside vs c b → IsLeast s d →
          english (a ++ e) ref = some ⟨⟨byteSize a, byteSize (a ++ e)⟩, ⟨d, c⟩, b⟩) ∧
      ∀ month day, Phrase.MonthAndDay ((words e).map Phrase.norm) month day →
        (english (a ++ e) ref = none ↔
          ∀ x : Date, ref.date ≤ x → ¬ (x.month = month ∧ x.day = day)) := by
  refine ⟨fun ds vs s d c b hw h hv hd => english_append_of_whole ha hq he ?_, ?_⟩
  · have hlen : (words e).length = (ds ++ vs).length := by rw [← hw, List.length_map]
    rw [hw, hlen]
    exact Phrase.reading?_beside (h.day? hd) h.clock?_eq_none hv
  · intro month day h
    rw [english_append_of_isQuiet ha hq, Option.map_eq_none_iff, english_eq_none_iff,
      Phrase.inWords?, h.first?_eq_none_iff, Phrase.upcoming?_eq_none_iff]

/-- A leap day past a century without one, the same weekday a week on, and a leap day that the
calendar does not reach. -/
theorem Resolver.english_earliest_of_leap_day :
    let ref : Instant := ⟨⟨2096, 3, 1, by decide, by decide, by decide, by decide⟩, .noon⟩
    let late : Instant := ⟨⟨262142, 3, 1, by decide, by decide, by decide, by decide⟩, .noon⟩
    let leap : Date := ⟨2104, 2, 29, by decide, by decide, by decide, by decide⟩
    let week : Date := ⟨2096, 3, 8, by decide, by decide, by decide, by decide⟩
    let a := "Call mum ".toList
    english (a ++ "2/29 at noon".toList) ref = some ⟨⟨9, 21⟩, ⟨leap, .noon⟩, true⟩ ∧
      english (a ++ "next Thu.".toList) ref = some ⟨⟨9, 18⟩, ⟨week, .midnight⟩, false⟩ ∧
        english (a ++ "Feb 29th".toList) late = none := by
  intro ref late leap week a
  have ha : ∀ c ∈ a.getLast?, isBlank c = true := by
    rintro _ ⟨⟩
    decide
  have hq : ∀ w ∈ words a, Phrase.IsQuiet w := by decide +kernel
  have hslash : Phrase.LeavesOpen ref.date ["2".toList ++ '/' :: "29".toList]
      {e | ref.date ≤ e ∧ e.month = 2 ∧ e.day = 29} :=
    .monthAndDay (.slash (by decide) (by decide))
  have hnoon : Phrase.Beside ["at".toList, "noon".toList] .noon true :=
    .time ⟨_, .word (.named (by decide)), .inr rfl⟩
  have hleap : IsLeast {e : Date | ref.date ≤ e ∧ e.month = 2 ∧ e.day = 29} leap :=
    Phrase.upcoming?_eq_some_iff.1 (by decide +kernel)
  have hnext : Phrase.LeavesOpen ref.date ["next".toList, "thu".toList]
      {e | ref.date < e ∧ e.weekday = 4} := .next (k := 4) (by decide)
  have hweek : IsLeast {e : Date | ref.date < e ∧ e.weekday = 4} week := by
    have hon : Phrase.onWeekday? ref.date 4 true = some week := by decide +kernel
    simpa [Date.lt_def, Int.add_one_le_iff] using Phrase.onWeekday?_eq_some_iff.1 hon
  have hname : Phrase.MonthAndDay ((words "Feb 29th".toList).map Phrase.norm) 2 29 := by
    rw [show (words "Feb 29th".toList).map Phrase.norm =
      ["feb".toList, "29".toList ++ "th".toList] by decide +kernel]
    exact .name (by decide) (.mk (by decide) (by decide))
  have hnone : ∀ x : Date, late.date ≤ x → ¬ (x.month = 2 ∧ x.day = 29) :=
    Phrase.upcoming?_eq_none_iff.1 (by decide +kernel)
  refine ⟨(english_earliest ha hq ⟨by decide, ?_, ?_⟩).1 _ _ _ _ _ _ (by decide +kernel) hslash
      hnoon hleap,
    (english_earliest ha hq ⟨by decide, ?_, ?_⟩).1 _ [] _ _ _ _ (by decide +kernel) hnext
      (.nothing rfl rfl rfl) hweek,
    ((english_earliest ha hq ⟨by decide, ?_, ?_⟩).2 2 29 hname).2 hnone⟩
  all_goals
    rintro _ ⟨⟩
    decide

end TaskCapture
