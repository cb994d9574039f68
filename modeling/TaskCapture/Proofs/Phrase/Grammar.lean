import TaskCapture.Proofs.Phrase.TimeWord

/-!
The grammar of date and time phrases, and how far a match keeps to it. The words of a match spell an
expression of the grammar exactly if its numbers are written plainly; where one is not, it has a
sign or digits too few or too many.
-/

namespace TaskCapture

open Text

namespace Phrase

/-- A day of the month, with an ordinal ending or without: `5`, `21st`. -/
inductive Ordinal : Text → ℕ → Prop where
  | mk {v : Text} {k : ℕ} {e : String} (hv : Figures v k)
    (he : e ∈ ["", "st", "nd", "rd", "th"]) : Ordinal (v ++ e.toList) k

/-- A year of four digits. -/
structure FourDigits (w : Text) (y : ℤ) : Prop where
  exists_figures : ∃ n : ℕ, Figures w n ∧ y = n
  length : w.length = 4

/-- The words of a day. What is said in figures are parts of a day of the calendar. -/
inductive DayWords : List Text → Prop where
  | relative {w : String} (h : w ∈ ["today", "tonight", "tomorrow"]) : DayWords [w.toList]
  | weekday {k : Weekday} : DayWords [(dayName k).toList]
  | announced {o s : String} {k : Weekday} (ho : o ∈ ["this", "on", "next"])
    (h : s ∈ weekdaySpellings k) : DayWords [o.toList, s.toList]
  | next {w : String} (h : w ∈ ["week", "month", "year"]) : DayWords ["next".toList, w.toList]
  | amount {v : Text} {s : String} {n : ℕ} {u : TimeUnit} (hv : Figures v n)
    (hs : s ∈ unitSpellings u) : DayWords ["in".toList, v, s.toList]
  | amountWord {v s : String} {n : ℕ} {u : TimeUnit} (hv : v ∈ numberSpellings n)
    (hs : s ∈ unitSpellings u) : DayWords ["in".toList, v.toList, s.toList]
  | compact {v : Text} {s : String} {n : ℕ} {u : TimeUnit} (hv : Figures v n)
    (hs : s ∈ unitSpellings u) : DayWords ["in".toList, v ++ s.toList]
  | iso {y m d : Text} {e : Date} (hy : FourDigits y e.year) (hm : Figures m e.month)
    (hmlen : m.length = 2) (hd : Figures d e.day) (hdlen : d.length = 2) :
    DayWords [y ++ '-' :: m ++ '-' :: d]
  | slash {m d : Text} {e : Date} (hm : Figures m e.month) (hd : Figures d e.day) :
    DayWords [m ++ '/' :: d]
  | slashYear {m d y : Text} {e : Date} (hm : Figures m e.month) (hd : Figures d e.day)
    (hy : FourDigits y e.year) : DayWords [m ++ '/' :: d ++ '/' :: y]
  | monthName {s : String} {v : Text} {e : Date} (hs : s ∈ monthSpellings e.month)
    (hv : Ordinal v e.day) : DayWords [s.toList, v]
  | monthNameYear {s : String} {v y : Text} {e : Date} (hs : s ∈ monthSpellings e.month)
    (hv : Ordinal v e.day) (hy : FourDigits y e.year) : DayWords [s.toList, v, y]

/-- The words of a time of day. The half of the day may be a word of its own. -/
inductive ClockWords : List Text → Prop where
  | word {w : Text} {c : Clock} (h : TimeWord w c) : ClockWords [w]
  | apart {r : Text} {pm : Bool} {c : Clock} (h : HalfDay pm r c) : ClockWords [r, halfWord pm]

/-- The same, perhaps after `at`. -/
def TimeWords (ws : List Text) : Prop :=
  ∃ ts, ClockWords ts ∧ (ws = ts ∨ ws = "at".toList :: ts)

/-- The words of a day, of a time, or of both in either order. -/
inductive Expression : List Text → Prop where
  | day {ds : List Text} (hd : DayWords ds) : Expression ds
  | time {ts : List Text} (ht : TimeWords ts) : Expression ts
  | dayTime {ds ts : List Text} (hd : DayWords ds) (ht : TimeWords ts) : Expression (ds ++ ts)
  | timeDay {ds ts : List Text} (ht : TimeWords ts) (hd : DayWords ds) : Expression (ts ++ ds)

/-! ### Words of the grammar are plain -/

/-- A character with which a number can be written otherwise than plainly. -/
def isMark (c : Char) : Bool := "+-:".toList.contains c

section

variable {w v a b s : Text} {n : ℕ} {c : Clock} {pm : Bool} {ws : List Text}

lemma isMark_of_isAsciiDigit {d : Char} (h : isAsciiDigit d = true) : isMark d = false := by
  by_contra hm
  simp only [isMark, Bool.not_eq_false, List.contains_iff_mem, String.reduceToList, List.mem_cons,
    List.not_mem_nil, or_false] at hm
  rcases hm with rfl | rfl | rfl <;> exact absurd h (by decide)

lemma isPlain_of_isMark (h : ∀ d ∈ w, isMark d = false) : IsPlain w := by
  have hno : ∀ d, isMark d = true → d ∉ w := fun d hd hm => by simp [h d hm] at hd
  refine ⟨hno _ (by decide), fun hm => absurd hm (hno _ (by decide)), ?_⟩
  rintro a b rfl -
  exact absurd (by simp) (hno ':' (by decide))

/-- No word of the vocabulary has a mark. -/
lemma isMark_of_agrees {α : Type} {table : List (String × α)} {spellings : α → List String}
    (h : Agrees table spellings) (ht : (table.all fun e => e.1.toList.all (!isMark ·)) = true)
    {s : String} {x : α} (hs : s ∈ spellings x) : ∀ d ∈ s.toList, isMark d = false := by
  simpa using List.all_eq_true.1 ht _ (h.mem x s hs)

lemma isMark_of_figures (h : Figures w n) : ∀ d ∈ w, isMark d = false :=
  fun d hd => isMark_of_isAsciiDigit (h.digits d hd)

lemma isMark_of_ordinal (h : Ordinal w n) : ∀ d ∈ w, isMark d = false := by
  obtain ⟨hv, he⟩ := h
  intro d hd
  rcases List.mem_append.1 hd with hd | hd
  · exact isMark_of_figures hv d hd
  · have hall : (["", "st", "nd", "rd", "th"].all fun e => e.toList.all (!isMark ·)) = true := by
      decide
    simpa using List.all_eq_true.1 (List.all_eq_true.1 hall _ he) d hd

/-- Two digits stand after the only colon. -/
lemma isPlain_of_minutes (ha : ∀ d ∈ a, isAsciiDigit d = true) (hb : ∀ d ∈ b, isAsciiDigit d = true)
    (hlen : b.length = 2) (hs : ∀ d ∈ s, isMark d = false)
    (hstop : s.takeWhile isAsciiDigit = []) : IsPlain (a ++ ':' :: (b ++ s)) := by
  have hno : ∀ d, isMark d = true → d ≠ ':' → d ∉ a ++ ':' :: (b ++ s) := by
    intro d hd hcolon hmem
    simp only [List.mem_append, List.mem_cons, hcolon, false_or] at hmem
    rcases hmem with hmem | hmem | hmem
    · simp [isMark_of_isAsciiDigit (ha d hmem)] at hd
    · simp [isMark_of_isAsciiDigit (hb d hmem)] at hd
    · simp [hs d hmem] at hd
  refine ⟨hno _ (by decide) (by decide), fun hm => absurd hm (hno _ (by decide) (by decide)), ?_⟩
  intro a' b' he ha'
  have hcolon : ':' ∉ a := fun hm => absurd (ha _ hm) (by decide)
  have hcut := splitOnce_append hcolon (b ++ s)
  rw [he, splitOnce_append ha'] at hcut
  cases hcut
  rw [List.takeWhile_append_of_pos hb, hstop, List.append_nil, hlen]

lemma isMark_halfWord (pm : Bool) : ∀ d ∈ halfWord pm, isMark d = false := by
  cases pm <;> simp [halfWord, isMark]

lemma HalfDay.isPlain (h : HalfDay pm w c) (hs : ∀ d ∈ s, isMark d = false)
    (hstop : s.takeWhile isAsciiDigit = []) : IsPlain (w ++ s) := by
  cases h with
  | hour hh hc hm =>
    refine isPlain_of_isMark fun d hd => ?_
    rcases List.mem_append.1 hd with hd | hd
    · exact isMark_of_figures hh d hd
    · exact hs d hd
  | minute hh hc hm hlen =>
    rw [List.append_assoc, List.cons_append]
    exact isPlain_of_minutes hh.digits hm.digits hlen hs hstop

lemma TimeWord.isPlain (h : TimeWord w c) : IsPlain w := by
  cases h with
  | named h => exact isPlain_of_isMark (isMark_of_agrees clockWords_agrees (by decide) h)
  | full hh hhlen hm hmlen hs =>
    simpa using isPlain_of_minutes (s := []) hh.digits hm.digits hmlen (by simp) rfl
  | @half pm r _ h => exact h.isPlain (isMark_halfWord pm) (by cases pm <;> decide)

lemma TimeWords.isPlain (h : TimeWords ws) : ∀ w ∈ ws, IsPlain w := by
  obtain ⟨ts, hts, hws⟩ := h
  have hplain : ∀ w ∈ ts, IsPlain w := by
    cases hts with
    | word h => simpa using h.isPlain
    | @apart r pm _ h =>
      have hr : IsPlain r := by simpa using h.isPlain (s := []) (by simp) rfl
      simpa using ⟨hr, isPlain_of_isMark (isMark_halfWord pm)⟩
  rcases hws with rfl | rfl
  · exact hplain
  · exact List.forall_mem_cons.2 ⟨isPlain_of_isMark (by simp [isMark]), hplain⟩

/-- A date in figures is plain for its shape. -/
lemma isPlain_iso {y m d : Text} (hy : ∀ c ∈ y, isAsciiDigit c = true) (hylen : y.length = 4)
    (hm : ∀ c ∈ m, isAsciiDigit c = true) (hmlen : m.length = 2)
    (hd : ∀ c ∈ d, isAsciiDigit c = true) (hdlen : d.length = 2) :
    IsPlain (y ++ '-' :: m ++ '-' :: d) := by
  have hshape : ∀ t : Text, (∀ c ∈ t, isAsciiDigit c = true) →
      (t.map fun c => if isAsciiDigit c then '0' else c) = List.replicate t.length '0' := by
    intro t ht
    rw [List.eq_replicate_iff]
    refine ⟨by simp, fun c hc => ?_⟩
    obtain ⟨e, he, rfl⟩ := List.mem_map.1 hc
    rw [if_pos (ht e he)]
  have hno : ∀ c, isAsciiDigit c = false → c ≠ '-' → c ∉ y ++ '-' :: m ++ '-' :: d := by
    intro c hc hne hmem
    simp only [List.append_assoc, List.cons_append, List.mem_append, List.mem_cons, hne, false_or]
      at hmem
    rcases hmem with hmem | hmem | hmem
    · simp [hy c hmem] at hc
    · simp [hm c hmem] at hc
    · simp [hd c hmem] at hc
  refine ⟨hno _ (by decide) (by decide), fun _ => ?_, ?_⟩
  · simp only [List.map_append, List.map_cons, hshape _ hy, hshape _ hm, hshape _ hd, hylen, hmlen,
      hdlen]
    decide
  · intro a b he _
    exact absurd (he ▸ by simp) (hno ':' (by decide) (by decide))

/-- A slash is no mark. -/
lemma isMark_append_slash (ha : ∀ d ∈ a, isMark d = false) (hb : ∀ d ∈ b, isMark d = false) :
    ∀ d ∈ a ++ '/' :: b, isMark d = false := by
  intro d hd
  simp only [List.mem_append, List.mem_cons] at hd
  rcases hd with hd | rfl | hd
  · exact ha d hd
  · decide
  · exact hb d hd

lemma isPlain_of_mem {vs : List String} (h : (vs.all fun v => v.toList.all (!isMark ·)) = true)
    {u : String} (hu : u ∈ vs) : IsPlain u.toList :=
  isPlain_of_isMark (by simpa using List.all_eq_true.1 h u hu)

lemma DayWords.isPlain (h : DayWords ws) : ∀ w ∈ ws, IsPlain w := by
  have hweekday : ∀ {k s}, s ∈ weekdaySpellings k → IsPlain s.toList :=
    fun hs => isPlain_of_isMark (isMark_of_agrees weekdayWords_agrees (by decide) hs)
  have hmonth : ∀ {k s}, s ∈ monthSpellings k → IsPlain s.toList :=
    fun hs => isPlain_of_isMark (isMark_of_agrees monthWords_agrees (by decide) hs)
  have hunit : ∀ {u s}, s ∈ unitSpellings u → ∀ d ∈ s.toList, isMark d = false :=
    fun hs => isMark_of_agrees unitWords_agrees (by decide) hs
  have hin : IsPlain "in".toList := isPlain_of_isMark (by simp [isMark])
  cases h with
  | relative h => simpa using isPlain_of_mem (by decide) h
  | weekday => simpa using hweekday (dayName_mem _)
  | announced ho h => simpa using ⟨isPlain_of_mem (by decide) ho, hweekday h⟩
  | next h => simpa using ⟨isPlain_of_isMark (by simp [isMark]), isPlain_of_mem (by decide) h⟩
  | amount hv hs =>
    simpa using ⟨hin, isPlain_of_isMark (isMark_of_figures hv), isPlain_of_isMark (hunit hs)⟩
  | amountWord hv hs =>
    have hplain := isPlain_of_isMark (isMark_of_agrees numberWords_agrees (by decide) hv)
    simpa using ⟨hin, hplain, isPlain_of_isMark (hunit hs)⟩
  | @compact v s n u hv hs =>
    have hplain : IsPlain (v ++ s.toList) := isPlain_of_isMark fun d hd =>
      (List.mem_append.1 hd).elim (isMark_of_figures hv d) (hunit hs d)
    simpa using ⟨hin, hplain⟩
  | iso hy hm hmlen hd hdlen =>
    obtain ⟨⟨n, hy, -⟩, hylen⟩ := hy
    simpa using isPlain_iso hy.digits hylen hm.digits hmlen hd.digits hdlen
  | slash hm hd =>
    have hslash := isMark_append_slash (isMark_of_figures hm) (isMark_of_figures hd)
    simpa using isPlain_of_isMark hslash
  | slashYear hm hd hy =>
    obtain ⟨⟨n, hy, -⟩, -⟩ := hy
    have hend := isMark_append_slash (isMark_of_figures hd) (isMark_of_figures hy)
    simpa using isPlain_of_isMark (isMark_append_slash (isMark_of_figures hm) hend)
  | monthName hs hv => simpa using ⟨hmonth hs, isPlain_of_isMark (isMark_of_ordinal hv)⟩
  | monthNameYear hs hv hy =>
    obtain ⟨⟨n, hy, -⟩, -⟩ := hy
    simpa using ⟨hmonth hs, isPlain_of_isMark (isMark_of_ordinal hv),
      isPlain_of_isMark (isMark_of_figures hy)⟩

theorem Expression.isPlain (h : Expression ws) : ∀ w ∈ ws, IsPlain w := by
  cases h with
  | day hd => exact hd.isPlain
  | time ht => exact ht.isPlain
  | dayTime hd ht => exact List.forall_mem_append.2 ⟨hd.isPlain, ht.isPlain⟩
  | timeDay ht hd => exact List.forall_mem_append.2 ⟨ht.isPlain, hd.isPlain⟩

end

/-! ### What is read is in the grammar -/

section

variable {w v : Text} {n : ℕ} {c : Clock} {ws : List Text} {today : Date} {ref : Instant}
  {hit : DayHit}

lemma clockWords_of_bareClock? (h : bareClock? ws = some (c, n))
    (hp : ∀ w ∈ ws.take n, IsPlain w) : ClockWords (ws.take n) := by
  rw [bareClock?.eq_def] at h
  cases ws with
  | nil => cases h
  | cons w ws =>
    simp only at h
    cases hw : clockWord? w with
    | some c' =>
      rw [hw] at h
      cases h
      exact .word (timeWord_of_clockWord? hw (hp w (by simp)))
    | none =>
      simp only [hw] at h
      cases ws with
      | nil => cases h
      | cons half ws =>
        simp only at h
        split_ifs at h with hhalf
        obtain ⟨c', hc, he⟩ := Option.map_eq_some_iff.1 h
        cases he
        obtain ⟨pm, rfl⟩ : ∃ pm, half = halfWord pm :=
          hhalf.1.elim (fun he => ⟨false, he⟩) fun he => ⟨true, he⟩
        rw [clockWord?_append_halfWord] at hc
        exact .apart (halfDay_of_twelveHour? (s := []) hc (by simpa using hp w (by simp)) rfl)

lemma timeWords_of_clock? (h : clock? ws = some (c, n)) (hp : ∀ w ∈ ws.take n, IsPlain w) :
    TimeWords (ws.take n) := by
  cases ws with
  | nil => cases h
  | cons w ws =>
    rw [clock?] at h
    split_ifs at h with hat
    · obtain ⟨⟨c', k⟩, hk, he⟩ := Option.map_eq_some_iff.1 h
      cases he
      refine ⟨ws.take k, clockWords_of_bareClock? hk fun v hv => hp v (by simp [hv]), .inr ?_⟩
      rw [hat, List.take_succ_cons]
    · exact ⟨_, clockWords_of_bareClock? h hp, .inl rfl⟩

lemma dayWords_of_amount? {u : TimeUnit} {k : ℕ} (h : amount? ws = some (k, u, n))
    (hp : ∀ w ∈ ws.take n, IsPlain w) : DayWords ("in".toList :: ws.take n) := by
  cases ws with
  | nil => cases h
  | cons w ws =>
    rw [amount?] at h
    split at h
    · next n' u' hn hu =>
      cases h
      cases ws with
      | nil => cases hu
      | cons v ws =>
        obtain ⟨s, hs, rfl⟩ := unitWords_agrees.meaning_eq_some_iff.1 hu
        rcases Option.or_eq_some_iff.1 hn with hn | ⟨-, hn⟩
        · obtain ⟨t, ht, rfl⟩ := numberWords_agrees.meaning_eq_some_iff.1 hn
          exact .amountWord ht hs
        · exact .amount (figures_of_readNat hn (hp w (by simp)).plus) hs
    · simp only [Option.bind_eq_bind, Option.pure_def, Option.bind_eq_some_iff] at h
      obtain ⟨k', hk, u', hu, he⟩ := h
      cases he
      have hplus : '+' ∉ w.takeWhile isAsciiDigit := fun hm =>
        absurd (List.mem_takeWhile_imp hm) (by decide)
      obtain ⟨s, hs, hunit⟩ := unitWords_agrees.meaning_eq_some_iff.1 hu
      have hcompact := DayWords.compact (figures_of_readNat hk hplus) hs
      rw [hunit, List.takeWhile_append_dropWhile] at hcompact
      exact hcompact

lemma not_mem_hyphen (hw : IsPlain w) {d : Char} (hd : d ∈ w) (hdigit : isAsciiDigit d = false)
    (hne : d ≠ '-') : '-' ∉ w := by
  intro hm
  have hmem := List.mem_map_of_mem (f := fun c => if isAsciiDigit c then '0' else c) hd
  rw [hw.hyphen hm, if_neg (by simp [hdigit])] at hmem
  have hcases : d = '0' ∨ d = '-' := by
    simp at hmem
    tauto
  rcases hcases with rfl | rfl
  · exact absurd hdigit (by decide)
  · exact hne rfl

lemma fourDigits_of_readInt {y : ℤ} {max : ℕ} (h : readInt max w = some y) (hlen : w.length = 4)
    (hplus : '+' ∉ w) (hminus : '-' ∉ w) : FourDigits w y := by
  unfold readInt at h
  split at h
  · simp at hminus
  · obtain ⟨n, hn, rfl⟩ := Option.map_eq_some_iff.1 h
    exact ⟨⟨n, figures_of_readNat hn hplus, rfl⟩, hlen⟩

lemma ordinal_of_monthDay? (h : monthDay? w = some n) (hw : '+' ∉ w) : Ordinal w n := by
  obtain ⟨h, -⟩ := Option.filter_eq_some_iff.1 h
  cases he : ["st", "nd", "rd", "th"].findSome? fun e => dropEnding? e.toList w with
  | none =>
    rw [he] at h
    have := Ordinal.mk (figures_of_readNat h hw) (e := "") (by simp)
    simpa using this
  | some ds =>
    rw [he] at h
    obtain ⟨e, hmem, hdrop⟩ := List.exists_of_findSome?_eq_some he
    obtain rfl := eq_append_of_dropEnding? hdrop
    exact .mk (figures_of_readNat h fun hm => hw (by simp [hm])) (List.mem_cons_of_mem _ hmem)

lemma dayWords_of_slashDay? {d : Date} (h : slashDay? today w = some d) (hw : IsPlain w) :
    DayWords [w] := by
  have hjoin := intercalate_splitAll '/' w
  unfold slashDay? at h
  split at h
  · next m k hsplit =>
    obtain rfl : m ++ '/' :: k = w := by simpa [hsplit, List.intercalate] using hjoin
    simp only [Option.bind_eq_bind, Option.bind_eq_some_iff] at h
    obtain ⟨m', hm, k', hk, h⟩ := h
    obtain ⟨-, rfl, rfl⟩ := (isLeast_of_upcoming? h).1
    exact .slash (figures_of_readNat hm fun hm => hw.plus (by simp [hm]))
      (figures_of_readNat hk fun hm => hw.plus (by simp [hm]))
  · next m k y hsplit =>
    obtain rfl : m ++ '/' :: k ++ '/' :: y = w := by simpa [hsplit, List.intercalate] using hjoin
    simp only [Option.bind_eq_bind, Option.bind_eq_some_iff] at h
    obtain ⟨m', hm, k', hk, h⟩ := h
    obtain ⟨hlen, h⟩ := Option.ite_none_right_eq_some.1 h
    obtain ⟨y', hy, h⟩ := Option.bind_eq_some_iff.1 h
    obtain ⟨rfl, rfl, rfl⟩ := Date.ofYmd?_eq_some_iff.1 h
    have hminus := not_mem_hyphen hw (d := '/') (by simp) (by decide) (by decide)
    exact .slashYear (figures_of_readNat hm fun hm => hw.plus (by simp [hm]))
      (figures_of_readNat hk fun hm => hw.plus (by simp [hm]))
      (fourDigits_of_readInt hy hlen (fun hm => hw.plus (by simp [hm]))
        fun hm => hminus (by simp [hm]))
  · cases h

/-- Digits and hyphens that stand as in a date. -/
lemma exists_fields_of_shape
    (h : (w.map fun c => if isAsciiDigit c then '0' else c) = "0000-00-00".toList) :
    ∃ y m d, w = y ++ '-' :: m ++ '-' :: d ∧ y.length = 4 ∧ m.length = 2 ∧ d.length = 2 ∧
      ∀ c, c ∈ y ∨ c ∈ m ∨ c ∈ d → isAsciiDigit c = true := by
  have hdigit : ∀ {c : Char}, (if isAsciiDigit c then '0' else c) = '0' →
      isAsciiDigit c = true := by
    intro c hc
    split_ifs at hc with hd
    · exact hd
    · rw [hc]
      decide
  have hhyphen : ∀ {c : Char}, (if isAsciiDigit c then '0' else c) = '-' → c = '-' := by
    intro c hc
    split_ifs at hc
    · exact absurd hc (by decide)
    · exact hc
  have hfield : ∀ {t : Text} {k : ℕ}, (t.map fun c => if isAsciiDigit c then '0' else c) =
      List.replicate k '0' → t.length = k ∧ ∀ c ∈ t, isAsciiDigit c = true := by
    intro t k ht
    refine ⟨by simpa using congrArg List.length ht, fun c hc => hdigit ?_⟩
    exact List.eq_of_mem_replicate (ht ▸ List.mem_map_of_mem hc)
  rw [show "0000-00-00".toList = List.replicate 4 '0' ++
    ('-' :: (List.replicate 2 '0' ++ '-' :: List.replicate 2 '0')) by decide] at h
  obtain ⟨y, r, rfl, hy, hr⟩ := List.map_eq_append_iff.1 h
  obtain ⟨c, r, rfl, hc, hr⟩ := List.map_eq_cons_iff.1 hr
  obtain ⟨m, r, rfl, hm, hr⟩ := List.map_eq_append_iff.1 hr
  obtain ⟨e, d, rfl, he, hd⟩ := List.map_eq_cons_iff.1 hr
  obtain ⟨hylen, hy⟩ := hfield hy
  obtain ⟨hmlen, hm⟩ := hfield hm
  obtain ⟨hdlen, hd⟩ := hfield hd
  refine ⟨y, m, d, by rw [hhyphen hc, hhyphen he]; simp, hylen, hmlen, hdlen, ?_⟩
  rintro c (hc | hc | hc)
  · exact hy c hc
  · exact hm c hc
  · exact hd c hc

lemma dayWords_of_read? {e : Date} (h : Date.read? w = some e) (hw : IsPlain w) : DayWords [w] := by
  obtain ⟨y, m, d, rfl, hylen, hmlen, hdlen, hall⟩ :=
    exists_fields_of_shape (hw.hyphen (Date.hyphen_mem_of_read? h))
  have hy : ∀ c ∈ y, isAsciiDigit c = true := fun c hc => hall c (.inl hc)
  have hm : ∀ c ∈ m, isAsciiDigit c = true := fun c hc => hall c (.inr (.inl hc))
  have hd : ∀ c ∈ d, isAsciiDigit c = true := fun c hc => hall c (.inr (.inr hc))
  have hne : ∀ {t : Text} {k : ℕ}, t.length = k + 1 → t ≠ [] := by
    rintro t k ht rfl
    cases ht
  have hmonth := Calendar.readField_of_digits (hne hmlen) hm ('-' :: d)
  have hday := Calendar.readField_of_digits (hne hdlen) hd []
  rw [hmlen] at hmonth
  rw [hdlen, List.append_nil] at hday
  have hdate : Date.ofYmd? (digitsValue y) (digitsValue m) (digitsValue d) = some e := by
    simp only [Date.read?, Calendar.readYmd, List.append_assoc, List.cons_append,
      Calendar.readYear_of_digits hylen hy, Calendar.skipChar, id, if_true, hmonth, hday,
      Option.bind_eq_bind, Option.bind_some, Option.pure_def] at h
    cases ho : Date.ofYmd? (digitsValue y) (digitsValue m) (digitsValue d) with
    | none =>
      rw [ho] at h
      cases h
    | some e' =>
      rw [ho] at h
      exact h
  obtain ⟨hyear, hmon, hdy⟩ := Date.ofYmd?_eq_some_iff.1 hdate
  exact .iso ⟨⟨_, ⟨hne hylen, hy, rfl⟩, hyear⟩, hylen⟩ ⟨hne hmlen, hm, hmon.symm⟩ hmlen
    ⟨hne hdlen, hd, hdy.symm⟩ hdlen

lemma dayWords_of_afterMonth? {s : String} (hs : s ∈ monthSpellings n)
    (h : afterMonth? today n ws = some hit)
    (hp : ∀ v ∈ (s.toList :: ws).take hit.used, IsPlain v) :
    DayWords ((s.toList :: ws).take hit.used) := by
  cases ws with
  | nil => cases h
  | cons v ws =>
    rw [afterMonth?] at h
    simp only [Option.bind_eq_bind, Option.bind_eq_some_iff] at h
    obtain ⟨d, hd, h⟩ := h
    cases hy : ws.head?.bind year? with
    | some y =>
      rw [hy] at h
      obtain ⟨e, he, rfl⟩ := Option.map_eq_some_iff.1 h
      obtain ⟨rfl, rfl, rfl⟩ := Date.ofYmd?_eq_some_iff.1 he
      cases ws with
      | nil => cases hy
      | cons x ws =>
        obtain ⟨hlen, hx⟩ := Option.ite_none_right_eq_some.1 (show year? x = _ from hy)
        have hxp := hp x (by simp)
        have hminus : '-' ∉ x := by
          intro hm
          have := congrArg List.length (hxp.hyphen hm)
          simp [hlen] at this
        exact .monthNameYear hs (ordinal_of_monthDay? hd (hp v (by simp)).plus)
          (fourDigits_of_readInt hx hlen hxp.plus hminus)
    | none =>
      rw [hy] at h
      obtain ⟨e, he, rfl⟩ := Option.map_eq_some_iff.1 h
      obtain ⟨-, rfl, rfl⟩ := (isLeast_of_upcoming? he).1
      exact .monthName hs (ordinal_of_monthDay? hd (hp v (by simp)).plus)

lemma dayWords_of_plainDay? (h : plainDay? today w ws = some hit)
    (hp : ∀ v ∈ (w :: ws).take hit.used, IsPlain v) : DayWords ((w :: ws).take hit.used) := by
  unfold plainDay? at h
  simp only at h
  split at h
  · next wd hwd =>
    obtain ⟨hm, hfull⟩ := Option.filter_eq_some_iff.1 hwd
    obtain ⟨_, -, rfl⟩ := Option.map_eq_some_iff.1 h
    obtain ⟨s, hs, rfl⟩ := weekdayWords_agrees.meaning_eq_some_iff.1 hm
    obtain rfl := (suffix_day_iff hs).1 (List.isSuffixOf_iff_suffix.1 hfull)
    exact .weekday
  · split at h
    · next d hd =>
      cases h
      rcases Option.or_eq_some_iff.1 hd with hd | ⟨-, hd⟩
      · exact dayWords_of_read? hd (hp w (by simp))
      · exact dayWords_of_slashDay? hd (hp w (by simp))
    · obtain ⟨m, hm, hday⟩ := Option.bind_eq_some_iff.1 h
      obtain ⟨s, hs, rfl⟩ := monthWords_agrees.meaning_eq_some_iff.1 hm
      exact dayWords_of_afterMonth? hs hday hp

lemma dayWords_of_nextDay? {d : Date} (h : nextDay? today w = some d) :
    DayWords ["next".toList, w] := by
  unfold nextDay? at h
  split at h
  · next wd hwd =>
    obtain ⟨s, hs, rfl⟩ := weekdayWords_agrees.meaning_eq_some_iff.1 hwd
    exact .announced (by simp) hs
  · split_ifs at h with hweek hmonth hyear
    · exact hweek ▸ .next (by simp)
    · exact hmonth ▸ .next (by simp)
    · exact hyear ▸ .next (by simp)

/-- **What is read as a day spells one**, if it is plain. -/
theorem dayWords_of_day? (h : day? ref ws = some hit) (hp : ∀ w ∈ ws.take hit.used, IsPlain w) :
    DayWords (ws.take hit.used) := by
  cases ws with
  | nil => cases h
  | cons w ws =>
    rw [day?] at h
    simp only at h
    split_ifs at h with htoday htomorrow hnext hthis hin
    · cases h
      rcases htoday with rfl | rfl
      · exact .relative (by simp)
      · exact .relative (by simp)
    · obtain ⟨_, -, rfl⟩ := Option.map_eq_some_iff.1 h
      rw [htomorrow]
      exact .relative (by simp)
    · obtain ⟨_, hd, rfl⟩ := Option.map_eq_some_iff.1 h
      obtain ⟨v, hv, hday⟩ := Option.bind_eq_some_iff.1 hd
      cases ws with
      | nil => cases hv
      | cons x ws =>
        cases hv
        rw [hnext]
        exact dayWords_of_nextDay? hday
    · obtain ⟨_, hd, rfl⟩ := Option.map_eq_some_iff.1 h
      obtain ⟨wd, hwd, -⟩ := Option.bind_eq_some_iff.1 hd
      cases ws with
      | nil => cases hwd
      | cons x ws =>
        obtain ⟨s, hs, rfl⟩ := weekdayWords_agrees.meaning_eq_some_iff.1 hwd
        rcases hthis with rfl | rfl
        · exact .announced (by simp) hs
        · exact .announced (by simp) hs
    · obtain ⟨⟨k, u, m⟩, ha, h⟩ := Option.bind_eq_some_iff.1 h
      have hused : hit.used = m + 1 := used_of_ahead? h
      rw [hused, List.take_succ_cons] at hp ⊢
      rw [hin]
      exact dayWords_of_amount? ha fun v hv => hp v (by simp [hv])
    · exact dayWords_of_plainDay? h hp

theorem expression_of_reading? {r : Reading} (h : reading? ref ws = some r)
    (hp : ∀ w ∈ ws.take r.used, IsPlain w) : Expression (ws.take r.used) := by
  have hleft {a b : ℕ} {P : Text → Prop} (hab : ∀ w ∈ ws.take (a + b), P w) :
      (∀ w ∈ ws.take a, P w) ∧ ∀ w ∈ (ws.drop a).take b, P w := by
    rw [List.take_add] at hab
    exact List.forall_mem_append.1 hab
  unfold reading? at h
  split at h
  · next c n hc =>
    split at h
    · next hit hd =>
      cases h
      obtain ⟨hp1, hp2⟩ := hleft hp
      rw [List.take_add]
      exact .timeDay (timeWords_of_clock? hc hp1) (dayWords_of_day? hd hp2)
    · obtain ⟨_, -, rfl⟩ := Option.map_eq_some_iff.1 h
      exact .time (timeWords_of_clock? hc hp)
  · obtain ⟨hit, hd, rfl⟩ := Option.map_eq_some_iff.1 h
    split at hp
    · exact .day (dayWords_of_day? hd hp)
    · split at hp
      · next c n hc =>
        obtain ⟨hp1, hp2⟩ := hleft hp
        simp only [List.take_add]
        exact .dayTime (dayWords_of_day? hd hp1) (timeWords_of_clock? hc hp2)
      · exact .day (dayWords_of_day? hd hp)

end

end Phrase

/-- **A match spells an expression of the grammar** exactly if its numbers are written plainly: its
words have no plus sign in them, no hyphens but those of a date of four, two and two digits, and two
digits after each colon. -/
theorem Resolver.english_expression_iff {ref : Instant} {t : Text} {m : DateMatch}
    (h : english t ref = some m) :
    Phrase.Expression (m.phrase t) ↔ ∀ w ∈ m.phrase t, Phrase.IsPlain w := by
  obtain ⟨r, hr, hused, -, -⟩ := exists_reading?_of_english h
  refine ⟨Phrase.Expression.isPlain, fun hp => ?_⟩
  have hexpr := Phrase.expression_of_reading? hr fun w hw => hp w (List.mem_of_mem_take hw)
  rwa [hused, List.take_length] at hexpr

/-- A time of three words before a day of three. -/
theorem Resolver.english_expression_iff_of_party :
    let ref : Instant := ⟨⟨2025, 3, 5, by decide, by decide, by decide, by decide⟩, .noon⟩
    let day : Date := ⟨2026, 3, 14, by decide, by decide, by decide, by decide⟩
    let five : Clock := ⟨17, 0, 0, by decide, by decide, by decide⟩
    let m : DateMatch := ⟨⟨6, 30⟩, ⟨day, five⟩, true⟩
    let t := "Party at 5 pm MARCH 14th 2026, for Al".toList
    english t ref = some m ∧ (∀ w ∈ m.phrase t, Phrase.IsPlain w) ∧
      Phrase.Expression (m.phrase t) := by
  intro ref day five m t
  have h : english t ref = some m := by decide +kernel
  have hp : ∀ w ∈ m.phrase t, Phrase.IsPlain w := by decide +kernel
  exact ⟨h, hp, (english_expression_iff h).2 hp⟩

/-- Signs and single digits are read where the grammar has two digits or four, or none. -/
theorem Resolver.english_signs_and_single_digits :
    let ref : Instant := ⟨⟨2025, 3, 5, by decide, by decide, by decide, by decide⟩, .noon⟩
    ∀ t ∈ ["+5:30", "2:5pm", "2025-1-5", "3/+5"], ∃ m, english t.toList ref = some m ∧
      ¬ Phrase.Expression (m.phrase t.toList) := by
  intro ref t ht
  have hall : ["+5:30", "2:5pm", "2025-1-5", "3/+5"].all (fun t => (english t.toList ref).any
      fun m => (m.phrase t.toList).any fun w => !decide (Phrase.IsPlain w)) = true := by
    decide +kernel
  obtain ⟨hsome, hno⟩ := (Option.any_eq_true_iff_get _ _).1 (List.all_eq_true.1 hall t ht)
  obtain ⟨w, hw, hwp⟩ := List.any_eq_true.1 hno
  refine ⟨_, (Option.some_get hsome).symm, fun hexpr => ?_⟩
  simp [hexpr.isPlain w hw] at hwp

end TaskCapture
