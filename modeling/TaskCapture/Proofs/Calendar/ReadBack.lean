import TaskCapture.Calendar.Reading
import TaskCapture.Proofs.Text.Digits

/-!
A day in writing is read back, whatever its year, and so is an instant on a full minute.
-/

namespace TaskCapture

open Text

namespace Calendar

lemma skipBlanks_of_digits {ds : Text} (hne : ds ≠ []) (h : ∀ c ∈ ds, isAsciiDigit c = true)
    (r : Text) : skipBlanks (ds ++ r) = ds ++ r := by
  obtain ⟨c, t, rfl⟩ := List.exists_cons_of_ne_nil hne
  rw [List.cons_append, skipBlanks, List.dropWhile_cons_of_neg]
  simp [isBlank_of_isAsciiDigit (h c (by simp))]

/-- A field as wide as the run of digits takes all of it, whatever follows. -/
lemma readField_of_digits {ds : Text} (hne : ds ≠ []) (h : ∀ c ∈ ds, isAsciiDigit c = true)
    (r : Text) : readField ds.length (ds ++ r) = some (digitsValue ds, r) := by
  have ht : ds.takeWhile isAsciiDigit = ds := List.takeWhile_eq_self_iff.2 h
  simp [readField, skipBlanks_of_digits hne h, ht, hne]

lemma readField_padded (width n : ℕ) (hw : 0 < width) (h : n < 10 ^ width) (r : Text) :
    readField width (padded width n ++ r) = some (n, r) := by
  have hne : padded width n ≠ [] := by
    rw [← List.length_pos_iff, length_padded]
    exact hw
  have := readField_of_digits hne (fun c hc => isAsciiDigit_of_mem_padded hc) r
  rwa [length_padded, digitsValue_padded h] at this

/-- A year of four digits stands without a sign. -/
lemma readYear_of_digits {ds : Text} (hlen : ds.length = 4) (hd : ∀ c ∈ ds, isAsciiDigit c = true)
    (r : Text) : readYear (ds ++ r) = some ((digitsValue ds : ℤ), r) := by
  have hne : ds ≠ [] := by
    rintro rfl
    cases hlen
  have hf := readField_of_digits hne hd r
  rw [hlen] at hf
  unfold readYear
  rw [skipBlanks_of_digits hne hd]
  obtain ⟨c, t, rfl⟩ := List.exists_cons_of_ne_nil hne
  have hdc := hd c (by simp)
  simp only [List.cons_append] at hf ⊢
  split
  · next he =>
    cases he
    exact absurd hdc (by decide)
  · next he =>
    cases he
    exact absurd hdc (by decide)
  · rw [hf]
    rfl

lemma readYear_padded {n : ℕ} (h : n < 10000) (r : Text) :
    readYear (padded 4 n ++ r) = some ((n : ℤ), r) := by
  rw [readYear_of_digits (length_padded 4 n) (fun c hc => isAsciiDigit_of_mem_padded hc),
    digitsValue_padded h]

/-- A year with a sign takes all its digits, up to the hyphen before the month. -/
lemma readYear_signed {sign : Char} {s : ℤ} (hs : sign = '+' ∧ s = 1 ∨ sign = '-' ∧ s = -1) (n : ℕ)
    (r : Text) :
    readYear (sign :: paddedAtLeast 4 n ++ '-' :: r) = some (s * n, '-' :: r) := by
  have hd : ∀ c ∈ paddedAtLeast 4 n, isAsciiDigit c = true :=
    fun c hc => isAsciiDigit_of_mem_paddedAtLeast hc
  have htake : (paddedAtLeast 4 n ++ '-' :: r).takeWhile isAsciiDigit = paddedAtLeast 4 n := by
    rw [List.takeWhile_append_of_pos hd]
    simp [show isAsciiDigit '-' = false by decide]
  have hne : paddedAtLeast 4 n ≠ [] := by
    have hlen := le_length_paddedAtLeast 4 n
    rw [← List.length_pos_iff]
    omega
  have hskip : ∀ c : Char, isBlank c = false → ∀ t : Text, skipBlanks (c :: t) = c :: t := by
    intro c hc t
    simp [skipBlanks, hc]
  unfold readYear
  rcases hs with ⟨rfl, rfl⟩ | ⟨rfl, rfl⟩
  all_goals
    rw [List.cons_append, hskip _ (by decide)]
    simp only [htake, digitsValue_paddedAtLeast]
    rw [if_neg (by simp [hne]), List.drop_left]

lemma readYear_yearText (y : ℤ) (r : Text) :
    readYear (yearText y ++ '-' :: r) = some (y, '-' :: r) := by
  unfold yearText
  split_ifs with h h0
  · have hlt : y.toNat < 10000 := by omega
    rw [readYear_padded hlt, Int.toNat_of_nonneg h.1]
  · rw [readYear_signed (.inr ⟨rfl, rfl⟩), show -1 * (y.natAbs : ℤ) = y by omega]
  · rw [readYear_signed (.inl ⟨rfl, rfl⟩), show 1 * (y.natAbs : ℤ) = y by omega]

/-- A day is read whatever follows it. -/
lemma readYmd_text (gap : Text → Text) (hgap : ∀ t, gap ('-' :: t) = '-' :: t) (d : Date)
    (r : Text) : readYmd gap (d.text ++ r) = some (d, r) := by
  have hm := d.month_mem
  have hd := d.day_le
  have hl := monthLength_le d.year d.month
  unfold readYmd Date.text
  simp only [List.append_assoc, List.cons_append, readYear_yearText, hgap, skipChar, ↓reduceIte,
    readField_padded 2 d.month (by decide) (by omega), readField_padded 2 d.day (by decide)
    (by omega), Date.ofYmd?_self, Option.bind_eq_bind, Option.bind_some, Option.pure_def]

/-- The seconds of a time are not written. -/
lemma readHm_text {c : Clock} (hc : c.second = 0) (r : Text) :
    readHm (c.text ++ r) = some (c, r) := by
  have hh := c.hour_lt
  have hm := c.minute_lt
  have htime : Clock.ofHms? c.hour c.minute 0 = some c :=
    Clock.ofHms?_eq_some_iff.2 ⟨rfl, rfl, hc⟩
  unfold readHm Clock.text
  simp only [List.append_assoc, List.cons_append, skipChar, ↓reduceIte,
    readField_padded 2 c.hour (by decide) (by omega), readField_padded 2 c.minute (by decide)
    (by omega), htime, Option.bind_eq_bind, Option.bind_some, Option.pure_def]

end Calendar

open Calendar

/-- **A day is read back from its text.** -/
theorem Date.read?_text (d : Date) : Date.read? d.text = some d := by
  have h := readYmd_text id (fun _ => rfl) d []
  rw [List.append_nil] at h
  rw [read?, h]
  rfl

/-- Where blanks may be passed over, none has to be. -/
theorem Date.readLoose?_text (d : Date) : Date.readLoose? d.text = some d := by
  have h := readYmd_text skipBlanks (fun t => List.dropWhile_cons_of_neg (by decide)) d []
  rw [List.append_nil] at h
  rw [readLoose?, h]
  rfl

/-- **An instant is read back from its text**, if its time is a full minute. -/
theorem Instant.read?_text {i : Instant} (h : i.time.second = 0) :
    Instant.read? i.text = some i := by
  have hdate := readYmd_text id (fun _ => rfl) i.date (' ' :: i.time.text)
  have htime := readHm_text h []
  rw [List.append_nil] at htime
  have hskip : skipBlanks (' ' :: i.time.text) = i.time.text := by
    rw [skipBlanks, List.dropWhile_cons_of_pos isBlank_space]
    exact skipBlanks_of_digits (by simp [padded]) (fun c hc => isAsciiDigit_of_mem_padded hc) _
  rw [Instant.read?, Instant.text, hdate]
  simp [skipChar, hskip, htime, whole]

/-- A day alone is not an instant. -/
lemma Instant.read?_dateText (d : Date) : Instant.read? d.text = none := by
  have h := readYmd_text id (fun _ => rfl) d []
  rw [List.append_nil] at h
  rw [Instant.read?, h]
  rfl

/-- What a year leaves is an end of the text. -/
lemma Calendar.suffix_of_readYear {t r : Text} {y : ℤ} (h : readYear t = some (y, r)) :
    r <:+ t := by
  have hskip : ∀ s : Text, skipBlanks s <:+ s := fun s => List.dropWhile_suffix _
  unfold readYear at h
  simp only at h
  split at h
  · next r' he =>
    split_ifs at h
    cases h
    exact (List.drop_suffix _ _).trans ((List.suffix_cons _ _).trans (he ▸ hskip t))
  · next r' he =>
    split_ifs at h
    cases h
    exact (List.drop_suffix _ _).trans ((List.suffix_cons _ _).trans (he ▸ hskip t))
  · obtain ⟨⟨n, r'⟩, hr, he⟩ := Option.map_eq_some_iff.1 h
    cases he
    unfold readField at hr
    simp only at hr
    split_ifs at hr
    cases hr
    exact (List.drop_suffix _ _).trans ((hskip _).trans (hskip t))

/-- A day in writing has a hyphen. -/
lemma Date.hyphen_mem_of_read? {t : Text} {d : Date} (h : read? t = some d) : '-' ∈ t := by
  cases hy : Calendar.readYmd id t with
  | none =>
    rw [read?, hy] at h
    cases h
  | some x =>
    obtain ⟨⟨y, r⟩, hyear, hrest⟩ := Option.bind_eq_some_iff.1 hy
    obtain ⟨r', hskip, -⟩ := Option.bind_eq_some_iff.1 hrest
    refine (Calendar.suffix_of_readYear hyear).subset ?_
    cases r with
    | nil => cases hskip
    | cons c r =>
      simp only [id, Calendar.skipChar] at hskip
      split_ifs at hskip with hc
      rw [hc]
      exact List.mem_cons_self

lemma Date.read?_eq_none_of_not_mem {t : Text} (h : '-' ∉ t) : Date.read? t = none := by
  cases hr : Date.read? t with
  | none => rfl
  | some _ => exact absurd (Date.hyphen_mem_of_read? hr) h

end TaskCapture
