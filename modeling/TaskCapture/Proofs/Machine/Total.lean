import TaskCapture.Proofs.Calendar.Months
import TaskCapture.Proofs.Machine.English
import TaskCapture.Proofs.Phrase.Extent
import TaskCapture.Proofs.Text.Placed

/-!
No operation of the date resolver is refused: each function gives on the machine what it gives
without bounds.
-/

namespace TaskCapture.Machine

open Text Phrase

/-! ### Words -/

def Word.ofPlaced (p : Placed) : Word := ⟨p.start, p.stop, Phrase.norm p.text⟩

lemma word_append (a x b : Text) :
    word (a ++ x ++ b) (byteSize a) (byteSize (a ++ x)) =
      .ok (Word.ofPlaced ⟨byteSize a, x⟩) := by
  rw [word, slice_append]
  simp [Word.ofPlaced, Placed.stop]

/-- The scan finds the words of what remains of the text, whether one has begun or not. -/
lemma wordsFrom_eq (r : Text) :
    (∀ a, wordsFrom (a ++ r) (byteSize a) none r =
      .ok ((placed (byteSize a) r).map Word.ofPlaced)) ∧
    ∀ a x, Solid x → wordsFrom (a ++ x ++ r) (byteSize (a ++ x)) (some (byteSize a)) r =
      .ok ((placed (byteSize a) (x ++ r)).map Word.ofPlaced) := by
  induction r with
  | nil =>
    refine ⟨fun a => rfl, fun a x hx => ?_⟩
    have hw := word_append a x []
    rw [List.append_nil] at hw ⊢
    simp only [wordsFrom, hw, ok_bind, pure_eq, List.append_nil, placed_of_solid hx, List.map_cons,
      List.map_nil]
  | cons c r ih =>
    obtain ⟨hnone, hopen⟩ := ih
    cases hc : isBlank c with
    | true =>
      have hnext : ∀ a, wordsFrom (a ++ c :: r) (byteSize a + c.utf8Size) none r =
          .ok ((placed (byteSize a + c.utf8Size) r).map Word.ofPlaced) := by
        intro a
        have := hnone (a ++ [c])
        rwa [List.append_assoc, List.singleton_append, byteSize_append, byteSize_cons,
          byteSize_nil, Nat.add_zero] at this
      refine ⟨fun a => ?_, fun a x hx => ?_⟩
      · rw [wordsFrom, if_pos hc, placed, if_pos hc]
        exact hnext a
      · rw [wordsFrom, if_pos hc]
        simp only [word_append, ok_bind, hnext (a ++ x), pure_eq]
        rw [placed_append_blank hc, placed_of_solid hx, byteSize_append]
        rfl
    | false =>
      have hsolid : Solid [c] := ⟨by simp, by simpa using hc⟩
      have hsize : byteSize [c] = c.utf8Size := by simp
      refine ⟨fun a => ?_, fun a x hx => ?_⟩
      · have := hopen a [c] hsolid
        rw [List.append_assoc, List.singleton_append, byteSize_append, hsize] at this
        rw [wordsFrom, if_neg (by simp [hc])]
        exact this
      · have := hopen a (x ++ [c]) (hx.append hsolid)
        rw [← List.append_assoc, List.append_assoc (a ++ x), List.singleton_append,
          byteSize_append, hsize, List.append_assoc x, List.singleton_append] at this
        rw [wordsFrom, if_neg (by simp [hc])]
        exact this

/-! ### The words from a place on -/

/-- The words from place `i` on, as they are compared. -/
def normsFrom (ws : List Word) (i : ℕ) : List Text := (ws.drop i).map (·.norm)

section Places

variable {ws : List Word} {i : ℕ} {w : Word}

lemma normsFrom_of_none (h : ws[i]? = none) : normsFrom ws i = [] := by
  rw [normsFrom, List.drop_of_length_le (List.getElem?_eq_none_iff.1 h), List.map_nil]

lemma normsFrom_of_some (h : ws[i]? = some w) :
    normsFrom ws i = w.norm :: normsFrom ws (i + 1) := by
  obtain ⟨hi, rfl⟩ := List.getElem?_eq_some_iff.1 h
  rw [normsFrom, List.drop_eq_getElem_cons hi]
  rfl

lemma head?_normsFrom (ws : List Word) (i : ℕ) :
    (normsFrom ws i).head? = ws[i]?.map (·.norm) := by
  rw [normsFrom, List.head?_map, List.head?_drop]

lemma drop_normsFrom (ws : List Word) (i n : ℕ) :
    (normsFrom ws i).drop n = normsFrom ws (i + n) := by
  rw [normsFrom, ← List.map_drop, List.drop_drop]
  rfl

lemma length_normsFrom (ws : List Word) (i : ℕ) : (normsFrom ws i).length = ws.length - i := by
  rw [normsFrom, List.length_map, List.length_drop]

lemma place_succ (h : ws[i]? = some w) : place ws (i + 1 : ℕ) = .ok (i + 1) :=
  place_of (List.getElem?_eq_some_iff.1 h).1

lemma place_pred {n : ℕ} (h : n ≤ ws.length) (hn : 1 ≤ n) : place ws (n - 1) = .ok (n - 1) := by
  rw [show (n - 1 : ℤ) = (n - 1 : ℕ) by omega, place_of (by omega)]

end Places

/-! ### Times -/

@[simp] lemma twelveHour?_eq (pm : Bool) (w : Text) :
    twelveHour? pm w = .ok (Phrase.twelveHour? pm w) := by
  unfold twelveHour? Phrase.twelveHour?
  cases hourMinute? w with
  | none => rfl
  | some hm =>
    obtain ⟨h, m⟩ := hm
    simp only [Option.bind_eq_bind, Option.bind_some]
    by_cases hh : 1 ≤ h ∧ h ≤ 12
    · rw [if_pos hh]
      by_cases hm : m ≤ 59
      · rw [if_pos ⟨hh.1, hh.2, hm⟩]
        have hsum : unsigned 32 (h + 12) = .ok (h + 12) := unsigned_of (by omega) (by omega)
        by_cases h12 : h = 12
        · cases pm <;> simp [h12]
        · cases pm <;> simp [h12, hsum, Nat.mod_eq_of_lt (show h < 12 by omega)]
      · rw [if_neg (by omega), Clock.ofHms?, dif_neg (by omega)]
        rfl
    · rw [if_neg (by omega), if_neg hh]
      rfl

@[simp] lemma clockWord?_eq (w : Text) : clockWord? w = .ok (Phrase.clockWord? w) := by
  unfold clockWord? Phrase.clockWord?
  cases meaning clockWords w with
  | some c => rfl
  | none =>
    cases dropEnding? "am".toList w with
    | some r => exact twelveHour?_eq false r
    | none =>
      cases dropEnding? "pm".toList w with
      | some r => exact twelveHour?_eq true r
      | none => rfl

lemma bareClockAt_eq (ws : List Word) {first i : ℕ} (h : i = first ∨ i = first + 1) :
    bareClockAt ws first i =
      .ok ((bareClock? (normsFrom ws i)).map fun (c, n) => (c, n + (i - first))) := by
  have hsub : unsigned 64 (i - first) = .ok (i - first) := by
    rw [unsigned_of (by omega) (by omega)]
    congr
    omega
  unfold bareClockAt bareClock?
  cases hi : ws[i]? with
  | none =>
    rw [normsFrom_of_none hi]
    rfl
  | some w =>
    rw [normsFrom_of_some hi]
    simp only [clockWord?_eq, ok_bind, hsub, place_succ hi, pure_eq]
    cases hc : Phrase.clockWord? w.norm with
    | some c => simp [Nat.add_comm]
    | none =>
      simp only
      cases hn : ws[i + 1]? with
      | none => simp [normsFrom_of_none hn]
      | some half =>
        rw [normsFrom_of_some hn]
        simp only
        split_ifs
        · cases Phrase.clockWord? (w.norm ++ half.norm) with
          | some c => simp [Nat.add_comm]
          | none => rfl
        · rfl

lemma clockAt_eq (ws : List Word) (i : ℕ) : clockAt ws i = .ok (clock? (normsFrom ws i)) := by
  unfold clockAt clock?
  cases hi : ws[i]? with
  | none =>
    rw [normsFrom_of_none hi]
    rfl
  | some w =>
    rw [normsFrom_of_some hi]
    simp only [place_succ hi, ok_bind]
    split_ifs
    · rw [bareClockAt_eq ws (.inr rfl)]
      simp
    · rw [bareClockAt_eq ws (.inl rfl), normsFrom_of_some hi]
      simp

/-! ### Days -/

lemma daysUntil_le (today target : Weekday) (strict : Bool) :
    Phrase.daysUntil today target strict ≤ 7 := by
  unfold Phrase.daysUntil
  simp only
  split_ifs <;> omega

lemma daysUntil_eq (today target : Weekday) (strict : Bool) :
    daysUntil today target strict = .ok (Phrase.daysUntil today target strict : ℤ) := by
  have hsub : signed 63 ((target.val : ℤ) - today.val) = .ok ((target.val : ℤ) - today.val) :=
    signed_of (by omega) (by omega)
  have hmod : ((target.val : ℤ) - today.val) % 7 = ((target.val + 7 - today.val) % 7 : ℕ) := by
    omega
  unfold daysUntil Phrase.daysUntil
  simp only [hsub, ok_bind, hmod, pure_eq, Nat.cast_eq_zero]
  split_ifs <;> rfl

/-- Seven times the largest amount that is read are still a duration. -/
lemma addDays?_eq (d : Date) {n : ℕ} (h : n ≤ 7 * maxWord) : addDays? d n = .ok (d.addDays? n) := by
  have hmax : (n : ℤ) * 86400 ≤ maxDuration := by
    unfold maxWord at h
    unfold maxDuration
    omega
  rw [addDays?, duration_of (by omega) (by omega) hmax, ok_bind,
    Int.mul_ediv_cancel _ (by omega), pure_eq]

lemma onWeekday?_eq (today : Date) (w : Weekday) (strict : Bool) :
    onWeekday? today w strict = .ok (Phrase.onWeekday? today w strict) := by
  have hle := daysUntil_le today.weekday w strict
  have hmax : Phrase.daysUntil today.weekday w strict ≤ 7 * maxWord := by
    unfold maxWord
    omega
  rw [onWeekday?, daysUntil_eq, ok_bind, addDays?_eq today hmax]
  rfl

lemma monthLength?_eq (y : ℤ) (m : ℕ) : monthLength? y m = .ok (Date.monthLength? y m) := by
  rw [Date.monthLength?_eq_bind, monthLength?]
  cases hfirst : Date.ofYmd? y m 1 with
  | none => rfl
  | some a =>
    have hm := a.month_mem
    have hy := a.minYear_le
    have hy' := a.year_le
    have ha := Date.toDays_of_ofYmd? hfirst
    obtain ⟨rfl, rfl, -⟩ := Date.ofYmd?_eq_some_iff.1 hfirst
    unfold minYear at hy
    unfold maxYear at hy'
    have hnext : firstAfter? a.year a.month = .ok (Date.firstAfter? a.year a.month) := by
      unfold firstAfter? Date.firstAfter?
      split_ifs
      · rw [signed_of (by omega) (by omega)]
        rfl
      · rw [unsigned_of (by omega) (by omega)]
        rfl
    simp only [hnext, ok_bind, Option.bind_some]
    cases hb : Date.firstAfter? a.year a.month with
    | none => rfl
    | some b =>
      have hdb := Date.toDays_of_firstAfter? hb
      have hle := Calendar.monthLength_le a.year a.month
      simp only
      rw [unsigned_of (by omega) (by omega)]
      rfl

lemma addMonths?_eq (d : Date) {n : ℕ} (h : n ≤ maxWord) :
    addMonths? d n = .ok (d.addMonths? n) := by
  have hm := d.month_mem
  have hy := d.minYear_le
  have hy' := d.year_le
  unfold minYear at hy
  unfold maxYear at hy'
  unfold maxWord at h
  have htotal : (d.month : ℤ) - 1 + n = (d.month - 1 + n : ℕ) := by omega
  have hyear : d.year + ((d.month - 1 + n : ℕ) : ℤ) / 12 =
      d.year + ((d.month - 1 + n) / 12 : ℕ) := by omega
  have hmonth : ((d.month - 1 + n : ℕ) : ℤ) % 12 + 1 = ((d.month - 1 + n) % 12 + 1 : ℕ) := by omega
  unfold addMonths? Date.addMonths?
  rw [htotal, signed_of (by omega) (by omega), ok_bind, hyear, signed_of (by omega) (by omega),
    ok_bind, if_pos (by omega), hmonth, unsigned_of (by omega) (by omega), ok_bind]
  simp only [Int.toNat_natCast, monthLength?_eq, ok_bind]
  cases Date.monthLength? _ _ <;> rfl

lemma upcoming?_eq (today : Date) (month day : ℕ) :
    upcoming? today month day = .ok (Phrase.upcoming? today month day) := by
  have hy := today.minYear_le
  have hy' := today.year_le
  unfold minYear at hy
  unfold maxYear at hy'
  rw [upcoming?, signed_of (by omega) (by omega), ok_bind,
    show (today.year + 8 - today.year + 1).toNat = 9 by omega]
  rfl

/-! ### Amounts -/

/-- A byte is found where the longest run without such a character ends. -/
lemma findByte?_eq (p : Char → Bool) (t : Text) :
    findByte? p t = if t.dropWhile (fun c => !p c) = [] then none
      else some (byteSize (t.takeWhile fun c => !p c)) := by
  induction t with
  | nil => rfl
  | cons c t ih =>
    rw [findByte?, List.dropWhile_cons, List.takeWhile_cons]
    cases hc : p c with
    | true => simp
    | false =>
      simp only [Bool.not_false, Bool.false_eq_true, ↓reduceIte, ih]
      split_ifs <;> simp

lemma joined?_eq (w : Text) :
    joined? w = .ok (do
      let n ← readNat maxWord (w.takeWhile isAsciiDigit)
      let u ← meaning unitWords (w.dropWhile isAsciiDigit)
      return (n, u)) := by
  rw [joined?, findByte?_eq]
  simp only [Bool.not_not]
  by_cases hd : w.dropWhile isAsciiDigit = []
  · -- no unit is written without letters
    have hunit : meaning unitWords [] = none := by decide
    simp [hd, hunit]
  · have hcut := cut_append (w.takeWhile isAsciiDigit) (w.dropWhile isAsciiDigit)
    rw [List.takeWhile_append_dropWhile] at hcut
    simp only [if_neg hd, hcut, ok_bind]
    rfl

lemma amountAt_eq (ws : List Word) (i : ℕ) :
    amountAt ws i = .ok (amount? (normsFrom ws i)) := by
  unfold amountAt amount?
  cases hi : ws[i]? with
  | none =>
    rw [normsFrom_of_none hi]
    rfl
  | some w =>
    have hnext : (normsFrom ws (i + 1)).head?.bind (meaning unitWords) =
        ws[i + 1]?.bind fun v => meaning unitWords v.norm := by
      rw [head?_normsFrom, Option.bind_map]
      rfl
    rw [normsFrom_of_some hi]
    simp only [place_succ hi, ok_bind, joined?_eq, hnext, pure_eq]
    cases number? w.norm with
    | none => simp [Option.map_bind]
    | some n =>
      cases ws[i + 1]?.bind fun v => meaning unitWords v.norm with
      | none => simp [Option.map_bind]
      | some u => rfl

lemma le_of_readNat {max n : ℕ} {t : Text} (h : readNat max t = some n) : n ≤ max := by
  simpa using (Option.filter_eq_some_iff.1 h).2

/-- An amount fits into 32 bits and is written in one word or two. -/
lemma le_of_amount? {ws : List Text} {n m : ℕ} {u : TimeUnit} (h : amount? ws = some (n, u, m)) :
    n ≤ maxWord ∧ m ≤ 2 := by
  have hword : ∀ {w : Text} {k : ℕ}, number? w = some k → k ≤ maxWord := by
    intro w k hk
    rcases Option.or_eq_some_iff.1 hk with hk | ⟨-, hk⟩
    · obtain ⟨e, he, rfl⟩ := Option.map_eq_some_iff.1 hk
      have := List.mem_of_find?_eq_some he
      have hall : ∀ e ∈ numberWords, e.2 ≤ maxWord := by decide
      exact hall e this
    · exact le_of_readNat hk
  unfold amount? at h
  split at h
  · cases h
  · split at h
    · next n' u' hn _ =>
      cases h
      exact ⟨hword hn, le_rfl⟩
    · simp only [Option.bind_eq_bind, Option.pure_def, Option.bind_eq_some_iff] at h
      obtain ⟨k, hk, _, -, he⟩ := h
      cases he
      exact ⟨le_of_readNat hk, by omega⟩

/-- **No amount that can be read is too large for the clock or the calendar to try.** -/
lemma ahead?_eq (ref : Instant) {n : ℕ} (h : n ≤ maxWord) (u : TimeUnit) (used : ℕ) :
    ahead? ref n u used = .ok (Phrase.ahead? ref n u used) := by
  have hmonths := fun k (hk : k ≤ maxWord) => addMonths?_eq ref.date hk
  have hword : unsigned 32 n = .ok n := by
    unfold maxWord at h
    exact unsigned_of (by omega) (by omega)
  have hmax : (n : ℤ) * 3600 ≤ maxDuration := by
    unfold maxWord at h
    unfold maxDuration
    omega
  have hminute : duration n 60 = .ok (n * 60) :=
    duration_of (by omega) (by omega) (by omega)
  have hhour : duration n 3600 = .ok (n * 3600) := duration_of (by omega) (by omega) hmax
  unfold ahead? Phrase.ahead?
  cases u with
  | minute =>
    simp only [hminute, ok_bind]
    rw [show (n * 60 : ℤ).toNat = 60 * n by omega, pure_eq]
  | hour =>
    simp only [hhour, ok_bind]
    rw [show (n * 3600 : ℤ).toNat = 3600 * n by omega, pure_eq]
  | day =>
    simp only [addDays?_eq ref.date (show n ≤ 7 * maxWord by omega), ok_bind, pure_eq]
  | week =>
    have hweek : signed 63 (n * 7) = .ok ((7 * n : ℕ) : ℤ) := by
      unfold maxWord at h
      rw [show (n * 7 : ℤ) = (7 * n : ℕ) by omega, signed_of (by omega) (by omega)]
    simp only [hweek, addDays?_eq ref.date (Nat.mul_le_mul_left 7 h), ok_bind, pure_eq]
  | month =>
    simp only [hword, hmonths n h, ok_bind, pure_eq]
  | year =>
    simp only [hword, ok_bind]
    split_ifs with h12
    · simp only [hmonths (12 * n) h12, ok_bind, pure_eq]
    · rfl

/-! ### Days in words -/

lemma nextDay?_eq (today : Date) (w : Text) :
    nextDay? today w = .ok (Phrase.nextDay? today w) := by
  unfold nextDay? Phrase.nextDay?
  cases meaning weekdayWords w with
  | some wd => exact onWeekday?_eq today wd true
  | none =>
    simp only
    split_ifs
    · exact addDays?_eq today (show 7 ≤ 7 * maxWord by decide)
    · exact addMonths?_eq today (show 1 ≤ maxWord by decide)
    · exact addMonths?_eq today (show 12 ≤ maxWord by decide)
    · rfl

lemma slashDay?_eq (today : Date) (w : Text) :
    slashDay? today w = .ok (Phrase.slashDay? today w) := by
  unfold slashDay?
  split
  · next m d hs =>
    rw [Phrase.slashDay?, hs]
    simp only
    cases readNat maxWord m with
    | none => rfl
    | some month =>
      cases readNat maxWord d with
      | none => rfl
      | some day => exact upcoming?_eq today month day
  · rfl

lemma afterMonthAt_eq (today : Date) (month : ℕ) {ws : List Word} {i : ℕ} {w : Word}
    (h : ws[i]? = some w) :
    afterMonthAt today month ws i = .ok (afterMonth? today month (normsFrom ws (i + 1))) := by
  unfold afterMonthAt afterMonth?
  simp only [place_succ h, ok_bind]
  cases hi : ws[i + 1]? with
  | none =>
    rw [normsFrom_of_none hi]
    rfl
  | some v =>
    have hnext : (normsFrom ws (i + 1 + 1)).head?.bind year? =
        ws[i + 2]?.bind fun v => year? v.norm := by
      rw [head?_normsFrom, Option.bind_map]
      rfl
    have hplace : place ws (i + 2 : ℕ) = .ok (i + 2) := place_succ hi
    rw [normsFrom_of_some hi]
    simp only [hnext, hplace, ok_bind, upcoming?_eq]
    cases monthDay? v.norm with
    | none => rfl
    | some d =>
      simp only [Option.bind_eq_bind, Option.bind_some]
      cases ws[i + 2]?.bind fun v => year? v.norm <;> rfl

lemma plainDayAt_eq (today : Date) {ws : List Word} {i : ℕ} {w : Word} (h : ws[i]? = some w) :
    plainDayAt today w.norm ws i = .ok (plainDay? today w.norm (normsFrom ws (i + 1))) := by
  unfold plainDayAt plainDay?
  simp only [onWeekday?_eq, slashDay?_eq, afterMonthAt_eq today _ h, ok_bind]
  cases (meaning weekdayWords w.norm).filter fun _ => "day".toList.isSuffixOf w.norm with
  | some wd => rfl
  | none =>
    cases Date.read? w.norm with
    | some d => rfl
    | none =>
      simp only [Option.none_or]
      cases Phrase.slashDay? today w.norm with
      | some d => rfl
      | none => cases meaning monthWords w.norm <;> rfl

lemma dayAt_eq (ref : Instant) (ws : List Word) (i : ℕ) :
    dayAt ref ws i = .ok (day? ref (normsFrom ws i)) := by
  unfold dayAt day?
  cases hi : ws[i]? with
  | none =>
    rw [normsFrom_of_none hi]
    rfl
  | some w =>
    rw [normsFrom_of_some hi]
    simp only [place_succ hi, ok_bind, amountAt_eq, plainDayAt_eq ref.date hi, nextDay?_eq,
      onWeekday?_eq, ← head?_normsFrom]
    split_ifs
    · rfl
    · rfl
    · cases (normsFrom ws (i + 1)).head? <;> rfl
    · cases (normsFrom ws (i + 1)).head?.bind (meaning weekdayWords) <;> rfl
    · cases ha : amount? (normsFrom ws (i + 1)) with
      | none => rfl
      | some a =>
        obtain ⟨n, u, used⟩ := a
        obtain ⟨hn, hused⟩ := le_of_amount? ha
        have hcount : unsigned 64 (used + 1) = .ok (used + 1) := unsigned_of (by omega) (by omega)
        simp only [hcount, ok_bind, ahead?_eq ref hn, Option.bind_some]
    · rfl

/-! ### Phrases -/

/-- The match that a reading of the words from place `i` on gives. -/
def matchOf (ws : List Word) (i : ℕ) (r : Reading) : Option DateMatch := do
  let head ← ws[i]?
  let last ← ws[i + r.used - 1]?
  return ⟨⟨head.start, last.stop⟩, r.instant, r.hasTime⟩

lemma matched_eq {ws : List Word} {i : ℕ} {r : Reading} (hpos : 1 ≤ r.used)
    (hle : i + r.used ≤ ws.length) :
    matched ws i (i + r.used - 1) r.instant r.hasTime = .ok (matchOf ws i r) := by
  have hi : i < ws.length := by omega
  have hl : i + r.used - 1 < ws.length := by omega
  simp only [matched, matchOf, element_of (List.getElem?_eq_getElem hi),
    element_of (List.getElem?_eq_getElem hl), List.getElem?_eq_getElem hi,
    List.getElem?_eq_getElem hl]
  rfl

/-- **The place of each word that a match reaches is one of the list.** -/
lemma matchAt_eq (ref : Instant) {ws : List Word} {i : ℕ} (hi : i ≤ ws.length) :
    matchAt ref ws i = .ok ((reading? ref (normsFrom ws i)).bind (matchOf ws i)) := by
  unfold matchAt reading?
  rw [clockAt_eq, ok_bind]
  cases hc : clock? (normsFrom ws i) with
  | some cn =>
    obtain ⟨c, n⟩ := cn
    have hn := used_of_clock? hc
    rw [length_normsFrom] at hn
    have hj : i + n ≤ ws.length := by omega
    simp only [place_of hj, ok_bind, dayAt_eq, drop_normsFrom]
    cases hd : day? ref (normsFrom ws (i + n)) with
    | some hit =>
      have hu := used_of_day? hd
      rw [length_normsFrom] at hu
      have hstop : i + n + hit.used ≤ ws.length := by omega
      simp only [place_of hstop, ok_bind, place_pred hstop (by omega), Option.bind_some]
      rw [Nat.add_assoc i] at hstop ⊢
      exact matched_eq (r := ⟨⟨hit.date, c⟩, true, n + hit.used⟩) (Nat.le_add_right_of_le hn.1)
        hstop
    | none =>
      simp only [place_pred hj (by omega), ok_bind]
      cases if c.toSeconds < ref.time.toSeconds then ref.date.succ? else some ref.date with
      | some d => exact matched_eq (r := ⟨⟨d, c⟩, true, n⟩) hn.1 hj
      | none => rfl
  | none =>
    simp only [dayAt_eq, ok_bind]
    cases hd : day? ref (normsFrom ws i) with
    | none => rfl
    | some hit =>
      have hu := used_of_day? hd
      rw [length_normsFrom] at hu
      have hstop : i + hit.used ≤ ws.length := by omega
      have hlast : i + hit.used - 1 + 1 = i + hit.used := by omega
      have hnext : place ws ((i + hit.used - 1 + 1 : ℕ) : ℤ) = .ok (i + hit.used) := by
        rw [hlast, place_of hstop]
      simp only [place_of hstop, ok_bind, place_pred hstop (by omega), hnext, clockAt_eq,
        drop_normsFrom, Option.map_some, Option.bind_some]
      cases hit.time with
      | some c => exact matched_eq (r := ⟨⟨hit.date, c⟩, true, hit.used⟩) hu.1 hstop
      | none =>
        simp only
        cases hc' : clock? (normsFrom ws (i + hit.used)) with
        | some cn =>
          obtain ⟨c, n⟩ := cn
          have hn := used_of_clock? hc'
          rw [length_normsFrom] at hn
          have hend : i + hit.used - 1 + n ≤ ws.length := by omega
          have hall : i + (hit.used + n) ≤ ws.length := by omega
          simp only [place_of hend, ok_bind]
          rw [show i + hit.used - 1 + n = i + (hit.used + n) - 1 by omega]
          exact matched_eq (r := ⟨⟨hit.date, c⟩, true, hit.used + n⟩)
            (Nat.le_add_right_of_le hu.1) hall
        | none => exact matched_eq (r := ⟨⟨hit.date, .midnight⟩, false, hit.used⟩) hu.1 hstop

lemma firstFrom_eq (ref : Instant) {ws : List Word} {i left : ℕ} (h : i + left = ws.length) :
    firstFrom ref ws i left =
      .ok ((first? ref (normsFrom ws i)).bind fun kr => matchOf ws (i + kr.1) kr.2) := by
  induction left generalizing i with
  | zero =>
    rw [normsFrom, List.drop_of_length_le (by omega)]
    rfl
  | succ left ih =>
    have hi : i < ws.length := by omega
    have hsome := normsFrom_of_some (List.getElem?_eq_getElem hi)
    rw [firstFrom, matchAt_eq ref hi.le, ok_bind, hsome, first?]
    cases hr : reading? ref (ws[i].norm :: normsFrom ws (i + 1)) with
    | some r =>
      rw [← hsome] at hr
      have hu := used_of_reading? hr
      rw [length_normsFrom] at hu
      have hl : i + r.used - 1 < ws.length := by omega
      simp [matchOf, List.getElem?_eq_getElem hi, List.getElem?_eq_getElem hl]
    | none =>
      simp only [Option.bind_none, ih (show i + 1 + left = ws.length by omega), Option.bind_map]
      congr 2
      funext kr
      simp [Nat.add_assoc, Nat.add_comm 1 kr.1]

/-- **The resolver runs to its end on a machine**, with the match that it finds without bounds. -/
theorem english_eq (t : Text) (ref : Instant) : english t ref = .ok (Resolver.english t ref) := by
  have hwords := (wordsFrom_eq t).1 []
  rw [List.nil_append, byteSize_nil] at hwords
  have hnorms : normsFrom ((placed 0 t).map Word.ofPlaced) 0 =
      (placed 0 t).map fun p => Phrase.norm p.text := by
    rw [normsFrom, List.drop_zero, List.map_map]
    rfl
  have hword : ∀ k, ((placed 0 t).map Word.ofPlaced)[k]? = (placed 0 t)[k]?.map Word.ofPlaced :=
    fun k => List.getElem?_map
  rw [english, hwords, ok_bind, firstFrom_eq ref (by omega), hnorms, Resolver.english]
  congr 1
  refine Option.bind_congr fun ⟨k, r⟩ _ => ?_
  simp only [matchOf, hword, Nat.zero_add, Option.bind_eq_bind, Option.bind_map]
  rfl

end TaskCapture.Machine
