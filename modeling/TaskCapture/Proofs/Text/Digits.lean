import Mathlib
import TaskCapture.Text.Number
import TaskCapture.Text.Blank

/-!
Numbers in writing are read back. A run of digits that a number was written with, padded or not,
has that number as its value.
-/

namespace TaskCapture.Text

lemma isBlank_of_isAsciiDigit {c : Char} (h : isAsciiDigit c = true) : isBlank c = false := by
  simp only [isAsciiDigit, Bool.and_eq_true, decide_eq_true_eq] at h
  have h1 : 48 ≤ c.toNat := h.1
  have h2 : c.toNat ≤ 57 := h.2
  simp only [isBlank, blankRanges, inRanges_cons, inRanges_nil]
  simp
  omega

lemma isAsciiDigit_digitChar {k : ℕ} (h : k < 10) : isAsciiDigit (Nat.digitChar k) = true := by
  interval_cases k <;> decide

lemma digitValue_digitChar {k : ℕ} (h : k < 10) : digitValue (Nat.digitChar k) = k := by
  interval_cases k <;> decide

lemma digitsValue_append_digitChar (ds : Text) {k : ℕ} (h : k < 10) :
    digitsValue (ds ++ [Nat.digitChar k]) = 10 * digitsValue ds + k := by
  simp [digitsValue, digitValue_digitChar h]

lemma digitsValue_padded {width n : ℕ} (h : n < 10 ^ width) :
    digitsValue (padded width n) = n := by
  induction width generalizing n with
  | zero =>
    obtain rfl : n = 0 := by simpa using h
    rfl
  | succ w ih =>
    rw [padded, digitsValue_append_digitChar _ (Nat.mod_lt n (by decide)), ih (by omega)]
    omega

lemma isAsciiDigit_of_mem_padded {width n : ℕ} {c : Char} (h : c ∈ padded width n) :
    isAsciiDigit c = true := by
  induction width generalizing n with
  | zero => simp [padded] at h
  | succ w ih =>
    rcases List.mem_append.1 h with h | h
    · exact ih h
    · rw [List.mem_singleton] at h
      exact h ▸ isAsciiDigit_digitChar (Nat.mod_lt n (by decide))

lemma digitsValue_decimal (n : ℕ) : digitsValue (decimal n) = n := Nat.ofDigitChars_ten_toDigits

lemma isAsciiDigit_of_mem_decimal {n : ℕ} {c : Char} (h : c ∈ decimal n) :
    isAsciiDigit c = true := by
  have hd := Nat.isDigit_of_mem_toDigits (by decide) (by decide) h
  simpa [Char.isDigit, isAsciiDigit, Char.le_def] using hd

lemma digitsValue_paddedAtLeast (width n : ℕ) : digitsValue (paddedAtLeast width n) = n := by
  unfold paddedAtLeast
  split_ifs with h
  · have hw : 0 < width := by omega
    have hle : (decimal n).length ≤ width := by omega
    exact digitsValue_padded ((Nat.length_toDigits_le_iff (by decide) hw).1 hle)
  · exact digitsValue_decimal n

lemma isAsciiDigit_of_mem_paddedAtLeast {width n : ℕ} {c : Char}
    (h : c ∈ paddedAtLeast width n) : isAsciiDigit c = true := by
  unfold paddedAtLeast at h
  split_ifs at h
  · exact isAsciiDigit_of_mem_padded h
  · exact isAsciiDigit_of_mem_decimal h

lemma le_length_paddedAtLeast (width n : ℕ) : width ≤ (paddedAtLeast width n).length := by
  unfold paddedAtLeast
  split_ifs with h
  · simp
  · omega

/-! ### Figures -/

/-- The text writes a number in ASCII digits and nothing else. -/
structure Figures (w : Text) (n : ℕ) : Prop where
  ne_nil : w ≠ []
  digits : ∀ c ∈ w, isAsciiDigit c = true
  value : digitsValue w = n

lemma figures_iff {w : Text} {n : ℕ} :
    Figures w n ↔ (!w.isEmpty && w.all isAsciiDigit && digitsValue w == n) = true := by
  simp only [Bool.and_eq_true, Bool.not_eq_true', List.isEmpty_eq_false_iff, List.all_eq_true,
    beq_iff_eq]
  exact ⟨fun ⟨h1, h2, h3⟩ => ⟨⟨h1, h2⟩, h3⟩, fun ⟨⟨h1, h2⟩, h3⟩ => ⟨h1, h2, h3⟩⟩

instance (w : Text) (n : ℕ) : Decidable (Figures w n) := decidable_of_iff _ figures_iff.symm

section

variable {w : Text} {n max : ℕ}

lemma readDigits_eq_some_iff : readDigits w = some n ↔ Figures w n := by
  unfold readDigits
  constructor
  · intro h
    split_ifs at h with hw
    cases h
    have hw' : w ≠ [] ∧ ∀ c ∈ w, isAsciiDigit c = true := by simpa using hw
    exact ⟨hw'.1, hw'.2, rfl⟩
  · rintro ⟨hne, hd, rfl⟩
    rw [if_neg]
    simpa [hne] using hd

lemma readNat_of_not_mem (h : '+' ∉ w) : readNat max w = (readDigits w).filter (· ≤ max) := by
  unfold readNat
  split
  · simp at h
  · rfl

lemma Figures.not_mem (h : Figures w n) {c : Char} (hc : isAsciiDigit c = false) : c ∉ w := by
  intro hmem
  rw [h.digits c hmem] at hc
  cases hc

lemma Figures.readNat_eq (h : Figures w n) (max : ℕ) :
    Text.readNat max w = if n ≤ max then some n else none := by
  rw [readNat_of_not_mem (h.not_mem (by decide)), readDigits_eq_some_iff.2 h, Option.filter_some]
  simp

lemma Figures.readNat (h : Figures w n) (hn : n ≤ max) : readNat max w = some n := by
  rw [h.readNat_eq, if_pos hn]

lemma Figures.readInt (h : Figures w n) (hn : n ≤ max) : readInt max w = some (n : ℤ) := by
  unfold Text.readInt
  split
  · exact absurd (by simp) (h.not_mem (c := '-') (by decide))
  · rw [h.readNat hn]
    rfl

lemma figures_of_readNat (h : readNat max w = some n) (hw : '+' ∉ w) : Figures w n := by
  rw [readNat_of_not_mem hw] at h
  exact readDigits_eq_some_iff.1 (Option.filter_eq_some_iff.1 h).1

lemma figures_padded {width n : ℕ} (hw : 0 < width) (h : n < 10 ^ width) :
    Figures (padded width n) n := by
  refine ⟨?_, fun c hc => isAsciiDigit_of_mem_padded hc, digitsValue_padded h⟩
  rw [← List.length_pos_iff, length_padded]
  exact hw

lemma readNat_padded (width n max : ℕ) (hw : 0 < width) (h : n < 10 ^ width) (hn : n ≤ max) :
    readNat max (padded width n) = some n := (figures_padded hw h).readNat hn

end

lemma readDigits_eq_none {c : Char} {t : Text} (hc : isAsciiDigit c = false) (h : c ∈ t) :
    readDigits t = none := by
  rw [readDigits, if_pos]
  simp only [Bool.or_eq_true, Bool.not_eq_true', List.all_eq_false]
  exact .inr ⟨c, h, by simp [hc]⟩

/-- A text with a character that no number has is no number. -/
lemma readNat_eq_none {max : ℕ} {c : Char} {t : Text} (hc : isAsciiDigit c = false)
    (hplus : c ≠ '+') (h : c ∈ t) : readNat max t = none := by
  unfold readNat
  split
  · next r =>
    have hr : c ∈ r := by simpa [hplus] using h
    rw [readDigits_eq_none hc hr]
    rfl
  · rw [readDigits_eq_none hc h]
    rfl

lemma readInt_eq_none {max : ℕ} {c : Char} {t : Text} (hc : isAsciiDigit c = false)
    (hplus : c ≠ '+') (hminus : c ≠ '-') (h : c ∈ t) : readInt max t = none := by
  unfold readInt
  split
  · next r =>
    have hr : c ∈ r := by simpa [hminus] using h
    rw [readDigits_eq_none hc hr]
    rfl
  · rw [readNat_eq_none hc hplus h]
    rfl

end TaskCapture.Text
