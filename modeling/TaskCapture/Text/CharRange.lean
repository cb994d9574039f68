/-!
Character properties are tables of closed ranges of code points, in ascending order; a look-up
stops at the first range that starts above the code point.
-/

namespace TaskCapture

/-- A text is the list of its characters. -/
abbrev Text := List Char

namespace Text

def inRanges (n : Nat) : List (Nat × Nat) → Bool
  | [] => false
  | (a, b) :: rs => decide (a ≤ n) && (decide (n ≤ b) || inRanges n rs)

@[simp] theorem inRanges_nil (n : Nat) : inRanges n [] = false := rfl

theorem inRanges_cons (n a b : Nat) (rs : List (Nat × Nat)) :
    inRanges n ((a, b) :: rs) = (decide (a ≤ n) && (decide (n ≤ b) || inRanges n rs)) := rfl

/-- What a look-up finds lies in some range of the table. -/
theorem exists_of_inRanges {n : Nat} {rs : List (Nat × Nat)} (h : inRanges n rs = true) :
    ∃ r ∈ rs, r.1 ≤ n ∧ n ≤ r.2 := by
  induction rs with
  | nil => simp at h
  | cons r rs ih =>
    obtain ⟨a, b⟩ := r
    simp only [inRanges_cons, Bool.and_eq_true, Bool.or_eq_true, decide_eq_true_eq] at h
    rcases h.2 with hb | hr
    · exact ⟨(a, b), by simp, h.1, hb⟩
    · obtain ⟨r, hm, hr⟩ := ih hr
      exact ⟨r, by simp [hm], hr⟩

end Text

end TaskCapture
