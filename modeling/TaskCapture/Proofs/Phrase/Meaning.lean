import TaskCapture.Proofs.Phrase.Grammar
import TaskCapture.Proofs.Phrase.Quiet

/-!
What phrases mean. A day is named by how far it lies ahead, or in full; a time may stand after it,
and an amount of minutes or hours is an instant by itself. Such a phrase is found at the end of any
text that says nothing of a date before it.
-/

namespace TaskCapture

open Text

namespace Instant

lemma toSeconds_injective : Function.Injective toSeconds := by
  intro i j h
  have hi := i.time.toSeconds_lt
  have hj := j.time.toSeconds_lt
  unfold toSeconds at h
  have hdate : i.date = j.date := Date.toDays_injective (by omega)
  have htime : i.time = j.time := by
    rw [← Clock.ofSeconds_toSeconds i.time, ← Clock.ofSeconds_toSeconds j.time]
    congr 1
    omega
  obtain ⟨d, c⟩ := i
  cases hdate
  cases htime
  rfl

/-- An instant of the calendar that lies so many seconds ahead is reached. -/
lemma addSeconds?_eq_some_iff {i j : Instant} {n : ℕ} :
    i.addSeconds? n = some j ↔ j.toSeconds = i.toSeconds + n := by
  refine ⟨toSeconds_of_addSeconds?, fun h => ?_⟩
  have hdate : i.date.addDays? ((i.time.toSeconds + n) / 86400 : ℕ) = some j.date := by
    have := j.time.toSeconds_lt
    unfold toSeconds at h
    rw [Date.addDays?_eq_some_iff]
    omega
  have hadd : i.addSeconds? n = some ⟨j.date, .ofSeconds (i.time.toSeconds + n)⟩ := by
    simp only [addSeconds?, hdate]
    rfl
  rw [hadd, toSeconds_injective ((toSeconds_of_addSeconds? hadd).trans h.symm)]

end Instant

namespace Phrase

variable {us vs ws : List Text} {w v y m d : Text} {n k : ℕ} {u : TimeUnit} {ref : Instant}
  {today e : Date}

/-! ### Amounts -/

/-- So many of a unit: `3 days`, `two weeks`, `3d`. -/
inductive Amount : List Text → ℕ → TimeUnit → Prop where
  | figures {v : Text} {s : String} {n : ℕ} {u : TimeUnit} (hv : Figures v n) (hn : n < 2 ^ 32)
    (hs : s ∈ unitSpellings u) : Amount [v, s.toList] n u
  | word {v s : String} {n : ℕ} {u : TimeUnit} (hv : v ∈ numberSpellings n)
    (hs : s ∈ unitSpellings u) : Amount [v.toList, s.toList] n u
  | compact {v : Text} {s : String} {n : ℕ} {u : TimeUnit} (hv : Figures v n) (hn : n < 2 ^ 32)
    (hs : s ∈ unitSpellings u) : Amount [v ++ s.toList] n u

/-- A number that fits into 32 bits is read. -/
lemma readNat_word (hv : Figures v n) (hn : n < 2 ^ 32) : readNat maxWord v = some n :=
  hv.readNat (by unfold maxWord; omega)

lemma Amount.amount? (h : Amount ws n u) : amount? ws = some (n, u, ws.length) := by
  cases h with
  | figures hv hn hs =>
    have hunit := unitWords_agrees.meaning hs
    have hnumber : meaning numberWords _ = none := meaning_eq_none_of_figures hv (by decide)
    simp [Phrase.amount?, number?, hnumber, readNat_word hv hn, hunit]
  | word hv hs =>
    simp [Phrase.amount?, number?, numberWords_agrees.meaning hv, unitWords_agrees.meaning hs]
  | @compact v s n u hv hn hs =>
    -- the unit begins where the digits end
    have hunit := unitWords_agrees.meaning hs
    have hstop : s.toList.takeWhile isAsciiDigit = [] := by
      simpa using of_meaning (p := fun w => (w.takeWhile isAsciiDigit).isEmpty) hunit (by decide)
    have hdrop : s.toList.dropWhile isAsciiDigit = s.toList := by
      simpa [hstop] using List.takeWhile_append_dropWhile (p := isAsciiDigit) (l := s.toList)
    simp [Phrase.amount?, List.takeWhile_append_of_pos hv.digits, hstop,
      List.dropWhile_append_of_pos hv.digits, hdrop, readNat_word hv hn, hunit]

/-- The days of a unit that is made of whole days. -/
def TimeUnit.days? : TimeUnit → Option ℕ
  | .day => some 1
  | .week => some 7
  | _ => none

/-- The months of a unit that is made of whole months. -/
def TimeUnit.months? : TimeUnit → Option ℕ
  | .month => some 1
  | .year => some 12
  | _ => none

lemma ahead?_of_days (hu : u.days? = some k) (h : e.toDays = ref.date.toDays + (k * n : ℕ))
    (used : ℕ) : ahead? ref n u used = some ⟨e, none, used⟩ := by
  cases u with
  | day =>
    cases hu
    have hadd : ref.date.addDays? n = some e := Date.addDays?_eq_some_iff.2 (by omega)
    simp [ahead?, hadd]
  | week =>
    cases hu
    have hadd : ref.date.addDays? (7 * n : ℕ) = some e := Date.addDays?_eq_some_iff.2 h
    simp only [ahead?, hadd, Option.map_some]
  | _ => cases hu

/-- No day of the calendar lies so many months ahead that their number is too large to be read. -/
lemma le_maxWord_of_addMonths? (h : today.addMonths? n = some e) : n ≤ maxWord := by
  obtain ⟨hn, -, -⟩ := Date.addMonths?_eq_some_iff.1 h
  have h1 := today.minYear_le
  have h2 := e.year_le
  have h3 := e.month_mem
  unfold Date.monthNumber at hn
  simp only [minYear, maxYear, maxWord] at *
  omega

lemma ahead?_of_months (hu : u.months? = some k) (h : ref.date.addMonths? (k * n) = some e)
    (used : ℕ) : ahead? ref n u used = some ⟨e, none, used⟩ := by
  cases u with
  | month =>
    cases hu
    rw [Nat.one_mul] at h
    simp [ahead?, h]
  | year =>
    cases hu
    simp [ahead?, h, le_maxWord_of_addMonths? h]
  | _ => cases hu

lemma ahead?_of_seconds {i : Instant} (hu : u.seconds? = some k)
    (h : i.toSeconds = ref.toSeconds + (k * n : ℕ)) (used : ℕ) :
    ahead? ref n u used = some ⟨i.date, some i.time, used⟩ := by
  have hadd := Instant.addSeconds?_eq_some_iff.2 h
  cases u with
  | minute =>
    cases hu
    simp [ahead?, hadd]
  | hour =>
    cases hu
    simp [ahead?, hadd]
  | _ => cases hu

/-! ### Days in full -/

lemma FourDigits.readInt (hy : FourDigits y e.year) : readInt maxSignedWord y = some e.year := by
  obtain ⟨⟨n, hn, he⟩, -⟩ := hy
  have hle := e.year_le
  have hmax : n ≤ maxSignedWord := by
    rw [he] at hle
    simp only [maxYear, maxSignedWord] at *
    omega
  rw [he, hn.readInt hmax]

lemma read?_of_figures (hy : FourDigits y e.year) (hm : Figures m e.month) (hmlen : m.length = 2)
    (hd : Figures d e.day) (hdlen : d.length = 2) :
    Date.read? (y ++ '-' :: m ++ '-' :: d) = some e := by
  obtain ⟨⟨n, hn, he⟩, hlen⟩ := hy
  have hyear := Calendar.readYear_of_digits hlen hn.digits ('-' :: (m ++ '-' :: d))
  have hmonth := Calendar.readField_of_digits hm.ne_nil hm.digits ('-' :: d)
  have hday := Calendar.readField_of_digits hd.ne_nil hd.digits []
  rw [hn.value, ← he] at hyear
  rw [hmlen, hm.value] at hmonth
  rw [hdlen, hd.value, List.append_nil] at hday
  rw [List.append_assoc, List.cons_append]
  simp [Date.read?, Calendar.readYmd, hyear, Calendar.skipChar, hmonth, hday, Date.ofYmd?_self,
    Calendar.whole]

lemma le_maxWord_of_month (e : Date) : e.month ≤ maxWord :=
  le_trans e.month_mem.2 (by decide)

lemma day_le_thirtyOne (e : Date) : e.day ≤ 31 :=
  le_trans e.day_le (Calendar.monthLength_le e.year e.month)

lemma le_maxWord_of_day (e : Date) : e.day ≤ maxWord := le_trans (day_le_thirtyOne e) (by decide)

lemma slashDay?_year (hm : Figures m e.month) (hd : Figures d e.day) (hy : FourDigits y e.year) :
    slashDay? today (m ++ '/' :: d ++ '/' :: y) = some e := by
  have hno : ∀ {t k}, Figures t k → splitAll '/' t = [t] :=
    fun h => splitAll_of_not_mem (h.not_mem (by decide))
  obtain ⟨k, hk, -⟩ := hy.exists_figures
  have hsplit : splitAll '/' (m ++ '/' :: d ++ '/' :: y) = [m, d, y] := by
    rw [List.append_assoc, List.cons_append, splitAll_append_cons, splitAll_append_cons, hno hm,
      hno hd, hno hk]
    rfl
  rw [slashDay?, hsplit]
  simp [hm.readNat (le_maxWord_of_month e), hd.readNat (le_maxWord_of_day e), hy.length,
    hy.readInt, Date.ofYmd?_self]

/-- A day of the month may be any number from 1 to 31. -/
lemma Ordinal.monthDay? (h : Ordinal v k) :
    monthDay? v = if 1 ≤ k ∧ k ≤ 31 then some k else none := by
  obtain ⟨hv, he⟩ := h
  next f e =>
  have hdigits : (["st", "nd", "rd", "th"].findSome? fun e' =>
      dropEnding? e'.toList (f ++ e.toList)).getD (f ++ e.toList) = f := by
    have hends : ∀ {a b : Char}, isAsciiDigit b = false → dropEnding? [a, b] f = none :=
      fun hb => dropEnding?_of_not_mem (by simp) (hv.not_mem hb)
    simp only [List.mem_cons, List.not_mem_nil, or_false] at he
    rcases he with rfl | rfl | rfl | rfl | rfl
    · simp [List.findSome?, hends (b := 't') (by decide), hends (b := 'd') (by decide),
        hends (b := 'h') (by decide)]
    all_goals simp [List.findSome?, dropEnding?_append, dropEnding?_append_of_ne]
  rw [Phrase.monthDay?, hdigits, hv.readNat_eq]
  split_ifs with hk hmem hmem
  · simp [hmem]
  · simpa using hmem
  · exact absurd (le_trans hmem.2 (by decide)) hk
  · rfl

lemma afterMonth?_year (hv : Ordinal v e.day) (hy : FourDigits y e.year) :
    afterMonth? today e.month [v, y] = some ⟨e, none, 3⟩ := by
  have hyear : year? y = some e.year := by rw [year?, if_pos hy.length, hy.readInt]
  have hday : monthDay? v = some e.day := by
    rw [hv.monthDay?, if_pos ⟨e.day_pos, day_le_thirtyOne e⟩]
  simp [afterMonth?, hday, hyear, Date.ofYmd?_self]

/-! ### Days -/

/-- The day that the words mean, seen from `today`. -/
inductive DayMeans (today : Date) : List Text → Date → Prop where
  | today {w : Text} (h : w = "today".toList ∨ w = "tonight".toList) : DayMeans today [w] today
  | tomorrow {d : Date} (h : d.toDays = today.toDays + 1) : DayMeans today ["tomorrow".toList] d
  | nextWeek {d : Date} (h : d.toDays = today.toDays + 7) :
    DayMeans today ["next".toList, "week".toList] d
  | nextMonth {d : Date} (h : today.addMonths? 1 = some d) :
    DayMeans today ["next".toList, "month".toList] d
  | nextYear {d : Date} (h : today.addMonths? 12 = some d) :
    DayMeans today ["next".toList, "year".toList] d
  | inDays {ws : List Text} {n k : ℕ} {u : TimeUnit} {d : Date} (ha : Amount ws n u)
    (hu : u.days? = some k) (h : d.toDays = today.toDays + (k * n : ℕ)) :
    DayMeans today ("in".toList :: ws) d
  | inMonths {ws : List Text} {n k : ℕ} {u : TimeUnit} {d : Date} (ha : Amount ws n u)
    (hu : u.months? = some k) (h : today.addMonths? (k * n) = some d) :
    DayMeans today ("in".toList :: ws) d
  | iso {y m d : Text} {e : Date} (hy : FourDigits y e.year) (hm : Figures m e.month)
    (hmlen : m.length = 2) (hd : Figures d e.day) (hdlen : d.length = 2) :
    DayMeans today [y ++ '-' :: m ++ '-' :: d] e
  | slashYear {m d y : Text} {e : Date} (hm : Figures m e.month) (hd : Figures d e.day)
    (hy : FourDigits y e.year) : DayMeans today [m ++ '/' :: d ++ '/' :: y] e
  | monthNameYear {s : String} {v y : Text} {e : Date} (hs : s ∈ monthSpellings e.month)
    (hv : Ordinal v e.day) (hy : FourDigits y e.year) : DayMeans today [s.toList, v, y] e

lemma isCalm_of_figures {a b c : ℕ} (hy : Figures y a) (hm : Figures m b) (hd : Figures d c)
    {sep : Char} (hsep : sep = '-' ∨ sep = '/') : isCalm (y ++ sep :: m ++ sep :: d) = true := by
  have hno : ∀ a, isAsciiDigit a = false → a ≠ sep → a ∉ y ++ sep :: m ++ sep :: d :=
    fun a ha hne => by simp [hy.not_mem ha, hm.not_mem ha, hd.not_mem ha, hne]
  refine isCalm_of_mem (c := sep) (by simp) hsep (hno 'm' (by decide) ?_) (hno ':' (by decide) ?_)
  all_goals rcases hsep with rfl | rfl <;> decide

lemma DayMeans.clock?_eq_none (h : DayMeans today us e) : clock? us = none := by
  cases h with
  | today h =>
    rcases h with rfl | rfl
    · exact clock?_cons_eq_none (by decide) (by decide) (by decide) _
    · exact clock?_cons_eq_none (by decide) (by decide) (by decide) _
  | tomorrow h => exact clock?_cons_eq_none (by decide) (by decide) (by decide) _
  | nextWeek h => exact clock?_cons_eq_none (by decide) (by decide) (by decide) _
  | nextMonth h => exact clock?_cons_eq_none (by decide) (by decide) (by decide) _
  | nextYear h => exact clock?_cons_eq_none (by decide) (by decide) (by decide) _
  | inDays ha hu h => exact clock?_in _
  | inMonths ha hu h => exact clock?_in _
  | iso hy hm hmlen hd hdlen =>
    obtain ⟨n, hn, -⟩ := hy.exists_figures
    exact clock?_of_isCalm (isCalm_of_figures hn hm hd (.inl rfl)) _
  | slashYear hm hd hy =>
    obtain ⟨n, hn, -⟩ := hy.exists_figures
    exact clock?_of_isCalm (isCalm_of_figures hm hd hn (.inr rfl)) _
  | monthNameYear hs hv hy => exact clock?_of_isCalm (isCalm_of_month hs) _

lemma day?_next (ref : Instant) (ws : List Text) : day? ref ("next".toList :: ws) =
    (ws.head?.bind (nextDay? ref.date)).map (⟨·, none, 2⟩) := by
  rw [day?]
  simp only
  rw [if_neg (by decide), if_neg (by decide), if_pos trivial]

lemma day?_next_of_nextDay? (h : nextDay? ref.date w = some e) :
    day? ref ["next".toList, w] = some ⟨e, none, 2⟩ := by
  rw [day?_next, List.head?_cons, Option.bind_some, h]
  rfl

/-- **The words of a day are read as that day.** -/
theorem DayMeans.day? (h : DayMeans ref.date us e) :
    day? ref us = some ⟨e, none, us.length⟩ := by
  cases h with
  | today h => rcases h with rfl | rfl <;> simp [Phrase.day?]
  | tomorrow h =>
    have hadd : ref.date.succ? = some e := Date.addDays?_eq_some_iff.2 h
    simp [Phrase.day?, hadd]
  | nextWeek h =>
    refine day?_next_of_nextDay? ?_
    rw [nextDay?, show meaning weekdayWords "week".toList = none by decide]
    exact (if_pos rfl).trans (Date.addDays?_eq_some_iff.2 h)
  | nextMonth h =>
    refine day?_next_of_nextDay? ?_
    rw [nextDay?, show meaning weekdayWords "month".toList = none by decide]
    exact ((if_neg (by decide)).trans (if_pos rfl)).trans h
  | nextYear h =>
    refine day?_next_of_nextDay? ?_
    rw [nextDay?, show meaning weekdayWords "year".toList = none by decide]
    exact ((if_neg (by decide)).trans ((if_neg (by decide)).trans (if_pos rfl))).trans h
  | inDays ha hu h =>
    rw [day?_in, ha.amount?]
    exact ahead?_of_days hu h _
  | inMonths ha hu h =>
    rw [day?_in, ha.amount?]
    exact ahead?_of_months hu h _
  | @iso y m d _ hy hm hmlen hd hdlen =>
    obtain ⟨n, hn, -⟩ := hy.exists_figures
    rw [day?_of_isCalm (isCalm_of_figures hn hm hd (.inl rfl)), plainDay?,
      meaning_eq_none (c := '-') (by simp) (by decide), read?_of_figures hy hm hmlen hd hdlen]
    rfl
  | @slashYear m d y _ hm hd hy =>
    obtain ⟨n, hn, -⟩ := hy.exists_figures
    have hhyphen : '-' ∉ m ++ '/' :: d ++ '/' :: y := by
      simp [hm.not_mem (c := '-') (by decide), hd.not_mem (c := '-') (by decide),
        hn.not_mem (c := '-') (by decide)]
    rw [day?_of_isCalm (isCalm_of_figures hm hd hn (.inr rfl)), plainDay?,
      meaning_eq_none (c := '/') (by simp) (by decide),
      Date.read?_eq_none_of_not_mem hhyphen, slashDay?_year hm hd hy]
    rfl
  | monthNameYear hs hv hy =>
    rw [day?_of_isCalm (isCalm_of_month hs), plainDay?_month hs, afterMonth?_year hv hy]
    rfl

/-! ### Phrases -/

/-- What stands after a day says the time, or nothing stands there and the time is midnight; the
flag tells which. -/
inductive Beside : List Text → Clock → Bool → Prop where
  | nothing {c : Clock} (hh : c.hour = 0) (hm : c.minute = 0) (hs : c.second = 0) :
    Beside [] c false
  | time {vs : List Text} {c : Clock} (h : IsTimeOf c vs) : Beside vs c true

/-- A day is read with the time after it, if there is one. -/
lemma reading?_beside {c : Clock} {b : Bool} (hday : day? ref us = some ⟨e, none, us.length⟩)
    (hclock : clock? us = none) (hv : Beside vs c b) :
    reading? ref (us ++ vs) = some ⟨⟨e, c⟩, b, (us ++ vs).length⟩ := by
  have hr : reading? ref us = some ⟨⟨e, .midnight⟩, false, us.length⟩ := by
    simp [reading?, hclock, hday, show clock? [] = none from rfl]
  cases hv with
  | nothing hh hm hs =>
    obtain ⟨_, _, _, _, _, _⟩ := c
    cases hh
    cases hm
    cases hs
    rwa [List.append_nil]
  | time h => exact reading?_day_time hr rfl rfl h (.inl rfl)

/-- The instant that the words mean, seen from a reference instant, and whether they say a time. -/
inductive Means (ref : Instant) : List Text → Instant → Bool → Prop where
  | day {ds vs : List Text} {d : Date} {c : Clock} {b : Bool} (h : DayMeans ref.date ds d)
    (hc : Beside vs c b) : Means ref (ds ++ vs) ⟨d, c⟩ b
  | moment {ws : List Text} {n k : ℕ} {u : TimeUnit} {i : Instant} (ha : Amount ws n u)
    (hu : u.seconds? = some k) (h : i.toSeconds = ref.toSeconds + (k * n : ℕ)) :
    Means ref ("in".toList :: ws) i true

lemma Means.reading? {i : Instant} {b : Bool} (h : Means ref ws i b) :
    reading? ref ws = some ⟨i, b, ws.length⟩ := by
  cases h with
  | day h hc => exact reading?_beside h.day? h.clock?_eq_none hc
  | @moment vs n k u _ ha hu h =>
    have hday : Phrase.day? ref ("in".toList :: vs) =
        some ⟨i.date, some i.time, vs.length + 1⟩ := by
      rw [day?_in, ha.amount?]
      exact ahead?_of_seconds hu h _
    rw [Phrase.reading?, clock?_in]
    simp only [hday, Option.map_some, List.length_cons]

end Phrase

/-- **A phrase is found at the end of a text**, with what it means, and the match takes up just the
phrase. The words before it must be quiet. -/
theorem Resolver.english_finds {ref i : Instant} {a e : Text} {b : Bool}
    (ha : ∀ c ∈ a.getLast?, isBlank c = true) (hq : ∀ w ∈ words a, Phrase.IsQuiet w)
    (he : Trimmed e) (h : Phrase.Means ref ((words e).map Phrase.norm) i b) :
    english (a ++ e) ref = some ⟨⟨byteSize a, byteSize (a ++ e)⟩, i, b⟩ :=
  english_append_of_whole ha hq he (by simpa using h.reading?)

/-- Three weeks in one word before a time, hours over midnight, and a leap day in full. -/
theorem Resolver.english_finds_of_rent :
    let ref : Instant := ⟨⟨2025, 3, 10, by decide, by decide, by decide, by decide⟩,
      ⟨22, 30, 15, by decide, by decide, by decide⟩⟩
    let weeks : Date := ⟨2025, 3, 31, by decide, by decide, by decide, by decide⟩
    let night : Instant := ⟨⟨2025, 3, 11, by decide, by decide, by decide, by decide⟩,
      ⟨0, 30, 15, by decide, by decide, by decide⟩⟩
    let leap : Date := ⟨2028, 2, 29, by decide, by decide, by decide, by decide⟩
    let five : Clock := ⟨17, 30, 0, by decide, by decide, by decide⟩
    let a := "Pay Zoë's rent. ".toList
    english (a ++ "in 3w, at 5:30PM".toList) ref = some ⟨⟨17, 33⟩, ⟨weeks, five⟩, true⟩ ∧
      english (a ++ "In two hours!".toList) ref = some ⟨⟨17, 30⟩, night, true⟩ ∧
        english (a ++ "Feb 29th 2028".toList) ref = some ⟨⟨17, 30⟩, ⟨leap, .midnight⟩, false⟩ := by
  intro ref weeks night leap five a
  have ha : ∀ c ∈ a.getLast?, isBlank c = true := by
    rintro _ ⟨⟩
    decide
  have hq : ∀ w ∈ words a, Phrase.IsQuiet w := by decide +kernel
  have hweeks : Phrase.Means ref ((words "in 3w, at 5:30PM".toList).map Phrase.norm)
      ⟨weeks, five⟩ true := by
    rw [show (words "in 3w, at 5:30PM".toList).map Phrase.norm =
      ["in".toList, "3".toList ++ "w".toList] ++
        ["at".toList, "5".toList ++ ':' :: "30".toList ++ Phrase.halfWord true] by decide +kernel]
    have hfive : Phrase.HalfDay true ("5".toList ++ ':' :: "30".toList) five :=
      .minute (n := 5) (by decide) ⟨by decide, by decide, by decide, rfl⟩ (by decide) rfl
    exact .day (.inDays (n := 3) (u := .week) (.compact (by decide) (by decide) (by decide)) rfl
      (by decide)) (.time ⟨_, .word (.half hfive), .inr rfl⟩)
  have hhours : Phrase.Means ref ((words "In two hours!".toList).map Phrase.norm) night true := by
    rw [show (words "In two hours!".toList).map Phrase.norm =
      ["in".toList, "two".toList, "hours".toList] by decide +kernel]
    exact .moment (n := 2) (u := .hour) (.word (by decide) (by decide)) rfl (by decide)
  have hleap : Phrase.Means ref ((words "Feb 29th 2028".toList).map Phrase.norm)
      ⟨leap, .midnight⟩ false := by
    rw [show (words "Feb 29th 2028".toList).map Phrase.norm =
      ["feb".toList, "29".toList ++ "th".toList, "2028".toList] by decide +kernel]
    exact .day (.monthNameYear (by decide) (.mk (by decide) (by decide))
      ⟨⟨2028, by decide, rfl⟩, rfl⟩) (.nothing rfl rfl rfl)
  refine ⟨english_finds ha hq ⟨by decide, ?_, ?_⟩ hweeks,
    english_finds ha hq ⟨by decide, ?_, ?_⟩ hhours, english_finds ha hq ⟨by decide, ?_, ?_⟩ hleap⟩
  all_goals
    rintro _ ⟨⟩
    decide

end TaskCapture
