import Mathlib
import TaskCapture.Text.Blank
import TaskCapture.Text.WordChar

/-!
What blanks are not. There are few of them, so a property that no blank has is checked on each.
-/

namespace TaskCapture.Text

/-- The code points of the blanks. -/
def blankCodes : List ℕ := blankRanges.flatMap fun r => List.range' r.1 (r.2 + 1 - r.1)

lemma mem_blankCodes {c : Char} (h : isBlank c = true) : c.toNat ∈ blankCodes := by
  obtain ⟨r, hr, h1, h2⟩ := exists_of_inRanges h
  exact List.mem_flatMap.2 ⟨r, hr, List.mem_range'_1.2 ⟨h1, by omega⟩⟩

lemma eq_of_isBlank {f : Char → Bool} {b : Bool} (hf : ∀ n ∈ blankCodes, f (Char.ofNat n) = b)
    {c : Char} (h : isBlank c = true) : f c = b := by
  simpa using hf _ (mem_blankCodes h)

lemma isWord_of_isBlank {c : Char} (h : isBlank c = true) : isWord c = false :=
  eq_of_isBlank (by decide +kernel) h

lemma toLower_of_isBlank {c : Char} (h : isBlank c = true) : isBlank c.toLower = true :=
  eq_of_isBlank (f := fun c => isBlank c.toLower) (by decide +kernel) h

/-- A character that is no blank is none of the blanks. -/
lemma ne_of_isBlank {c d : Char} (h : isBlank c = true) (hd : isBlank d = false) : c ≠ d := by
  rintro rfl
  rw [h] at hd
  cases hd

end TaskCapture.Text
