import Mathlib
import TaskCapture.Text.Offset

/-!
Spans that cut a text in three. Such a span holds at least one character, and no character
straddles its ends.
-/

namespace TaskCapture

open Text

namespace Text

lemma byteSize_pos {t : Text} (h : t ≠ []) : 0 < byteSize t := by
  obtain ⟨c, r, rfl⟩ := List.exists_cons_of_ne_nil h
  have := c.utf8Size_pos
  simp
  omega

lemma isBoundary_iff {t : Text} {n : ℕ} :
    isBoundary t n = true ↔ ∃ a b, t = a ++ b ∧ n = byteSize a := by
  rw [isBoundary, Option.isSome_iff_exists]
  constructor
  · rintro ⟨⟨a, b⟩, h⟩
    obtain ⟨ht, hn⟩ := eq_append_of_splitAtByte h
    exact ⟨a, b, ht, hn.symm⟩
  · rintro ⟨a, b, rfl, rfl⟩
    exact ⟨_, splitAtByte_append a b⟩

lemma isBoundary_zero (t : Text) : isBoundary t 0 = true := isBoundary_iff.2 ⟨[], t, rfl, rfl⟩

lemma isBoundary_byteSize (t : Text) : isBoundary t (byteSize t) = true :=
  isBoundary_iff.2 ⟨t, [], by simp, rfl⟩

lemma le_byteSize_of_isBoundary {t : Text} {n : ℕ} (h : isBoundary t n = true) :
    n ≤ byteSize t := by
  obtain ⟨a, b, rfl, rfl⟩ := isBoundary_iff.1 h
  simp

/-- Two cuts of a text, the first one before the second. -/
lemma exists_of_append_eq_of_byteSize_lt {a b x y : Text} (h : a ++ b = x ++ y)
    (hlt : byteSize a < byteSize x) : ∃ m, m ≠ [] ∧ x = a ++ m ∧ b = m ++ y := by
  rcases List.append_eq_append_iff.1 h with ⟨m, rfl, rfl⟩ | ⟨m, rfl, rfl⟩
  · refine ⟨m, ?_, rfl, rfl⟩
    rintro rfl
    simp at hlt
  · rw [byteSize_append] at hlt
    omega

end Text

namespace Span

/-- The span holds characters of the text, all of them whole. -/
def Fits (s : Span) (t : Text) : Prop :=
  ∃ a x b, t = a ++ x ++ b ∧ x ≠ [] ∧ s = ⟨byteSize a, byteSize a + byteSize x⟩

lemma fits_iff {s : Span} {t : Text} :
    s.Fits t ↔ s.start < s.stop ∧ isBoundary t s.start = true ∧ isBoundary t s.stop = true := by
  constructor
  · rintro ⟨a, x, b, rfl, hx, rfl⟩
    have := byteSize_pos hx
    refine ⟨by simp only; omega, isBoundary_iff.2 ⟨a, x ++ b, by simp, rfl⟩,
      isBoundary_iff.2 ⟨a ++ x, b, rfl, by simp⟩⟩
  · rintro ⟨hlt, hstart, hstop⟩
    obtain ⟨a, b, rfl, ha⟩ := isBoundary_iff.1 hstart
    obtain ⟨c, d, hcd, hc⟩ := isBoundary_iff.1 hstop
    obtain ⟨x, hx, rfl, rfl⟩ := exists_of_append_eq_of_byteSize_lt hcd (by omega)
    rw [byteSize_append] at hc
    exact ⟨a, x, d, by simp, hx, by cases s; simp_all⟩

lemma Fits.lt {s : Span} {t : Text} (h : s.Fits t) : s.start < s.stop := (fits_iff.1 h).1

lemma overlaps_iff {a b : Span} :
    a.overlaps b = true ↔ a.start < b.stop ∧ b.start < a.stop := by
  rw [overlaps, Bool.and_eq_true, decide_eq_true_eq, decide_eq_true_eq]

lemma overlaps_eq_false_iff {a b : Span} :
    a.overlaps b = false ↔ b.stop ≤ a.start ∨ a.stop ≤ b.start := by
  simp only [overlaps, Bool.and_eq_false_iff, decide_eq_false_iff_not, not_lt]

lemma overlaps_comm (a b : Span) : a.overlaps b = b.overlaps a := Bool.and_comm _ _

end Span

end TaskCapture
