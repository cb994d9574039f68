import Mathlib
import TaskCapture.Text.Lowercase
import TaskCapture.Text.WordChar

/-!
Small letters stay small. What a character becomes is a small letter already, it is a word
character if the first one was, and it is no `p` and no digit that was not there before.
-/

namespace TaskCapture.Text

/-! ### Ranges of code points -/

/-- All code points from `a` to `b` lie in one range of the table. -/
def covers : List (ℕ × ℕ) → ℕ → ℕ → Bool
  | [], _, _ => false
  | (x, y) :: rs, a, b => Nat.ble x a && (Nat.ble b y || covers rs a b)

lemma inRanges_of_covers {rs : List (ℕ × ℕ)} {a b n : ℕ} (h : covers rs a b = true) (ha : a ≤ n)
    (hb : n ≤ b) : inRanges n rs = true := by
  induction rs with
  | nil => simp [covers] at h
  | cons r rs ih =>
    obtain ⟨x, y⟩ := r
    simp only [covers, Bool.and_eq_true, Bool.or_eq_true, Nat.ble_eq] at h
    simp only [inRanges_cons, Bool.and_eq_true, Bool.or_eq_true, decide_eq_true_eq]
    rcases h with ⟨hx, hy | hr⟩
    · exact ⟨by omega, .inl (by omega)⟩
    · exact ⟨by omega, .inr (ih hr)⟩

namespace CaseRange

/-- The small letters of a range lie between these. -/
def low (r : CaseRange) : ℕ := (r.first + r.shift).toNat

def high (r : CaseRange) : ℕ := (r.last + r.shift).toNat

/-- No small letter of the one range is a capital of the other: either they lie apart, or every
other code point is meant and the two take turns. -/
def misses (r s : CaseRange) : Bool :=
  Nat.blt r.high s.first || Nat.blt s.last r.low ||
    (Nat.beq s.step 2 && (Nat.beq r.step 2 || Nat.beq r.first r.last) &&
      Nat.beq ((r.low + s.first) % 2) 1)

/-- All capitals of a range are word characters. -/
def hasWords (r : CaseRange) : Bool :=
  covers wordRanges r.first r.last ||
    (List.range' r.first (r.last + 1 - r.first)).all fun n => !r.holds n || covers wordRanges n n

/-- The small letters of a range are word characters above ASCII and below the surrogates or above
them; none of them has a small letter in turn. -/
def settles (r : CaseRange) : Bool :=
  Nat.ble 128 r.low && (Nat.blt r.high 0xD800 || Nat.blt 0xDFFF r.low && Nat.blt r.high 0x110000) &&
    covers wordRanges r.low r.high && (Nat.blt r.high 0x130 || Nat.blt 0x130 r.low) &&
    (Nat.blt r.high 0x3A3 || Nat.blt 0x3A3 r.low) && lowerRanges.all fun s => r.misses s

lemma holds_iff {r : CaseRange} {n : ℕ} :
    r.holds n = true ↔ r.first ≤ n ∧ n ≤ r.last ∧ (n - r.first) % r.step = 0 := by
  simp [holds, and_assoc]

lemma mem_bounds {r : CaseRange} {n : ℕ} (h : r.holds n = true) (hr : 128 ≤ r.low) :
    r.low ≤ (n + r.shift).toNat ∧ (n + r.shift).toNat ≤ r.high := by
  obtain ⟨h1, h2, -⟩ := holds_iff.1 h
  unfold low high at *
  omega

/-- The small letter of a range that settles is a character above ASCII. -/
lemma toNat_of_settles {r : CaseRange} {n : ℕ} (hs : r.settles = true) (hn : r.holds n = true) :
    (Char.ofNat (n + r.shift).toNat).toNat = (n + r.shift).toNat ∧ 128 ≤ (n + r.shift).toNat := by
  simp only [settles, Bool.and_eq_true, Bool.or_eq_true, Nat.ble_eq, Nat.blt_eq] at hs
  obtain ⟨⟨⟨⟨⟨hlow, hvalid⟩, -⟩, -⟩, -⟩, -⟩ := hs
  obtain ⟨hm1, hm2⟩ := mem_bounds hn hlow
  have hv : (n + r.shift).toNat.isValidChar := by
    simp only [Nat.isValidChar]
    omega
  rw [Char.ofNat, dif_pos hv]
  exact ⟨rfl, hlow.trans hm1⟩

lemma holds_eq_false_of_misses {r s : CaseRange} (h : r.misses s = true) (hr : 128 ≤ r.low) {n : ℕ}
    (hn : r.holds n = true) : s.holds (n + r.shift).toNat = false := by
  have hb := mem_bounds hn hr
  obtain ⟨h1, h2, hstep⟩ := holds_iff.1 hn
  by_contra hs
  obtain ⟨h3, h4, h5⟩ := holds_iff.1 (by simpa using hs)
  simp only [misses, Bool.or_eq_true, Bool.and_eq_true, Nat.blt_eq, Nat.beq_eq] at h
  rcases h with (h | h) | ⟨⟨hs2, hr2⟩, hodd⟩
  · omega
  · omega
  · rw [hs2] at h5
    have hlow : r.low = (r.first + r.shift).toNat := rfl
    rcases hr2 with hr2 | hr2
    · rw [hr2] at hstep
      omega
    · omega

lemma inRanges_of_hasWords {r : CaseRange} (h : r.hasWords = true) {n : ℕ}
    (hn : r.holds n = true) : inRanges n wordRanges = true := by
  obtain ⟨h1, h2, -⟩ := holds_iff.1 hn
  rcases Bool.or_eq_true_iff.1 h with h | h
  · exact inRanges_of_covers h h1 h2
  · have := List.all_eq_true.1 h n (List.mem_range'_1.2 ⟨h1, by omega⟩)
    rw [hn] at this
    exact inRanges_of_covers (by simpa using this) le_rfl le_rfl

end CaseRange

lemma hasWords_of_mem {r : CaseRange} (h : r ∈ lowerRanges) : r.hasWords = true :=
  List.all_eq_true.1 (show lowerRanges.all CaseRange.hasWords = true by decide +kernel) r h

/-- The Kelvin sign alone has its small letter in ASCII. -/
lemma settles_of_mem {r : CaseRange} (h : r ∈ lowerRanges) :
    r.settles = true ∨ r.first = 0x212A ∧ r.last = 0x212A ∧ r.shift = -8383 := by
  have hall : (lowerRanges.all fun r => r.settles ||
      (r.first == 0x212A && r.last == 0x212A && r.shift == -8383)) = true := by decide +kernel
  simpa [and_assoc] using List.all_eq_true.1 hall r h

/-! ### One character -/

/-- What holds of a character and of each character that its small letter is written with. -/
structure BecomesSmall (c d : Char) : Prop where
  isWord_eq : isWord d = isWord c
  lowerChar_eq : lowerChar d = [d]
  ne_sigma : d.toNat ≠ 0x3A3
  eq_or_eq : d = 'p' ∨ d = 'P' → d = 'p' ∧ (c = 'p' ∨ c = 'P')
  eq_of_digit : '1' ≤ d → d ≤ '4' → d = c
  hyphen : c = '-' → d = '-'

instance (c d : Char) : Decidable (BecomesSmall c d) :=
  decidable_of_iff (isWord d = isWord c ∧ lowerChar d = [d] ∧ d.toNat ≠ 0x3A3 ∧
      (d = 'p' ∨ d = 'P' → d = 'p' ∧ (c = 'p' ∨ c = 'P')) ∧ ('1' ≤ d → d ≤ '4' → d = c) ∧
      (c = '-' → d = '-'))
    ⟨fun ⟨h1, h2, h3, h4, h5, h6⟩ => ⟨h1, h2, h3, h4, h5, h6⟩,
      fun ⟨h1, h2, h3, h4, h5, h6⟩ => ⟨h1, h2, h3, h4, h5, h6⟩⟩

lemma becomesSmall_toLower {c : Char} (h : c.toNat < 128) : BecomesSmall c c.toLower := by
  have hall : ∀ n < 128, BecomesSmall (Char.ofNat n) (Char.ofNat n).toLower := by decide +kernel
  simpa using hall c.toNat h

/-- Above ASCII there are no `p`, no digits and no hyphens to be taken for one another. -/
lemma becomesSmall_of_le {c d : Char} (hc : 128 ≤ c.toNat) (hd : 128 ≤ d.toNat)
    (hw : isWord d = isWord c) (hl : lowerChar d = [d]) (hs : d.toNat ≠ 0x3A3) :
    BecomesSmall c d where
  isWord_eq := hw
  lowerChar_eq := hl
  ne_sigma := hs
  eq_or_eq := by
    rintro (rfl | rfl) <;> exact absurd hd (by decide)
  eq_of_digit := by
    intro _ h4
    have : d.toNat ≤ 52 := h4
    omega
  hyphen := by
    rintro rfl
    exact absurd hc (by decide)

lemma lowerChar_of_le {c : Char} (h : 128 ≤ c.toNat) (h' : c.toNat ≠ 0x130)
    (hr : ∀ r ∈ lowerRanges, r.holds c.toNat = false) : lowerChar c = [c] := by
  have hfind : lowerRanges.find? (·.holds c.toNat) = none := by
    rw [List.find?_eq_none]
    intro r hm
    simp [hr r hm]
  rw [lowerChar, if_neg (by omega), if_neg h', hfind]

lemma becomesSmall_of_settles {c : Char} {r : CaseRange} (hr : r ∈ lowerRanges)
    (hs : r.settles = true) (hc : 128 ≤ c.toNat) (hh : r.holds c.toNat = true) :
    BecomesSmall c (Char.ofNat (c.toNat + r.shift).toNat) := by
  obtain ⟨hto, -⟩ := CaseRange.toNat_of_settles hs hh
  simp only [CaseRange.settles, Bool.and_eq_true, Bool.or_eq_true, Nat.ble_eq, Nat.blt_eq,
    List.all_eq_true] at hs
  obtain ⟨⟨⟨⟨⟨hlow, -⟩, hcov⟩, h130⟩, h3A3⟩, hmiss⟩ := hs
  obtain ⟨hm1, hm2⟩ := CaseRange.mem_bounds hh hlow
  have hmiss' : ∀ s ∈ lowerRanges, s.holds (c.toNat + r.shift).toNat = false :=
    fun s hs => CaseRange.holds_eq_false_of_misses (hmiss s hs) hlow hh
  generalize (c.toNat + r.shift).toNat = m at hto hm1 hm2 hmiss' ⊢
  have hwc : isWord c = true := by
    rw [isWord, if_neg (by omega)]
    exact CaseRange.inRanges_of_hasWords (hasWords_of_mem hr) hh
  refine becomesSmall_of_le hc (by omega) ?_ ?_ (by omega)
  · rw [hwc, isWord, if_neg (by omega), hto]
    exact inRanges_of_covers hcov hm1 hm2
  · exact lowerChar_of_le (by omega) (by omega) (by rwa [hto])

/-- **Small letters are settled.** -/
theorem becomesSmall_of_mem_lowerChar {c d : Char} (hc : c.toNat ≠ 0x3A3) (h : d ∈ lowerChar c) :
    BecomesSmall c d := by
  rcases lt_or_ge c.toNat 128 with hlt | hge
  · rw [lowerChar_of_lt hlt, List.mem_singleton] at h
    exact h ▸ becomesSmall_toLower hlt
  by_cases h130 : c.toNat = 0x130
  · -- the capital i with a dot becomes two characters
    obtain rfl : c = Char.ofNat 0x130 := by rw [← h130]; simp
    have hall : ((lowerChar (Char.ofNat 0x130)).all
      fun d => decide (BecomesSmall (Char.ofNat 0x130) d)) = true := by decide +kernel
    exact of_decide_eq_true (List.all_eq_true.1 hall d h)
  rw [lowerChar, if_neg (by omega), if_neg h130] at h
  cases hf : lowerRanges.find? (·.holds c.toNat) with
  | none =>
    rw [hf, List.mem_singleton] at h
    rw [List.find?_eq_none] at hf
    rw [h]
    exact becomesSmall_of_le hge hge rfl
      (lowerChar_of_le hge h130 fun r hr => by simpa using hf r hr) hc
  | some r =>
    rw [hf, List.mem_singleton] at h
    have hr := List.mem_of_find?_eq_some hf
    have hh : r.holds c.toNat = true := by simpa using List.find?_some hf
    subst h
    rcases settles_of_mem hr with hs | ⟨h1, h2, h3⟩
    · exact becomesSmall_of_settles hr hs hge hh
    · obtain ⟨hb1, hb2, -⟩ := CaseRange.holds_iff.1 hh
      obtain rfl : c = Char.ofNat 0x212A := by
        rw [show 0x212A = c.toNat by omega]
        simp
      rw [h3]
      decide +kernel

/-! ### Texts -/

/-- A text is put in small letters character by character; each becomes at least one. -/
lemma lowerFrom_cons (b : Bool) (c : Char) (t : Text) :
    ∃ out b', lowerFrom b (c :: t) = out ++ lowerFrom b' t ∧ out ≠ [] ∧
      (∀ d ∈ out, BecomesSmall c d) ∧ (c.toNat < 128 → out = [c.toLower]) := by
  refine ⟨_, _, rfl, ?_⟩
  by_cases hs : c.toNat = 0x3A3
  · obtain rfl : c = 'Σ' := by
      rw [← Char.ofNat_toNat c, hs]
    have hsmall : BecomesSmall 'Σ' 'ς' ∧ BecomesSmall 'Σ' 'σ' := by decide +kernel
    rw [if_pos hs]
    split_ifs
    · exact ⟨by simp, by simpa using hsmall.1, by decide⟩
    · exact ⟨by simp, by simpa using hsmall.2, by decide⟩
  · rw [if_neg hs]
    refine ⟨?_, fun d hd => becomesSmall_of_mem_lowerChar hs hd, fun h => lowerChar_of_lt h⟩
    unfold lowerChar
    split_ifs
    · simp
    · simp
    · split <;> simp

lemma lowerFrom_ne_nil {b : Bool} {t : Text} (h : t ≠ []) : lowerFrom b t ≠ [] := by
  obtain ⟨c, t, rfl⟩ := List.exists_cons_of_ne_nil h
  obtain ⟨out, b', he, hne, -, -⟩ := lowerFrom_cons b c t
  rw [he]
  simp [hne]

lemma exists_of_mem_lowerFrom {b : Bool} {t : Text} {d : Char} (h : d ∈ lowerFrom b t) :
    ∃ c ∈ t, BecomesSmall c d := by
  induction t generalizing b with
  | nil => simp [lowerFrom] at h
  | cons c t ih =>
    obtain ⟨out, b', he, -, hout, -⟩ := lowerFrom_cons b c t
    rw [he] at h
    rcases List.mem_append.1 h with h | h
    · exact ⟨c, by simp, hout d h⟩
    · obtain ⟨c', hc', hd⟩ := ih h
      exact ⟨c', by simp [hc'], hd⟩

lemma lowerFrom_eq_self {b : Bool} {t : Text}
    (h : ∀ d ∈ t, lowerChar d = [d] ∧ d.toNat ≠ 0x3A3) : lowerFrom b t = t := by
  induction t generalizing b with
  | nil => rfl
  | cons c t ih =>
    obtain ⟨hl, hs⟩ := h c (by simp)
    rw [lowerFrom, if_neg hs, hl, ih fun d hd => h d (by simp [hd])]
    rfl

/-- **Small letters are small letters already.** -/
theorem lower_lower (t : Text) : lower (lower t) = lower t :=
  lowerFrom_eq_self fun _ hd => by
    obtain ⟨c, -, h⟩ := exists_of_mem_lowerFrom hd
    exact ⟨h.lowerChar_eq, h.ne_sigma⟩

lemma startsWord_lowerFrom (b : Bool) (t : Text) : startsWord (lowerFrom b t) = startsWord t := by
  cases t with
  | nil => rfl
  | cons c t =>
    obtain ⟨out, b', he, hne, hout, -⟩ := lowerFrom_cons b c t
    obtain ⟨d, r, rfl⟩ := List.exists_cons_of_ne_nil hne
    rw [he]
    exact (hout d (by simp)).isWord_eq

end TaskCapture.Text
