import TaskCapture.Text.CharRange

/-!
Splitting a text at a character, and taking a known ending off it.
-/

namespace TaskCapture.Text

/-- The parts before and after the first `c`. -/
def splitOnce (c : Char) : Text → Option (Text × Text)
  | [] => none
  | d :: t => if d = c then some ([], t) else (splitOnce c t).map fun (a, b) => (d :: a, b)

/-- All parts that the occurrences of `c` leave. -/
def splitAll (c : Char) : Text → List Text
  | [] => [[]]
  | d :: t => if d = c then [] :: splitAll c t else (splitAll c t).modifyHead (d :: ·)

/-- What stands before the ending `w`. -/
def dropEnding? (w t : Text) : Option Text :=
  if w.isSuffixOf t then some (t.take (t.length - w.length)) else none

theorem eq_append_of_splitOnce {c : Char} {t a b : Text} (h : splitOnce c t = some (a, b)) :
    t = a ++ c :: b ∧ c ∉ a := by
  induction t generalizing a with
  | nil => simp [splitOnce] at h
  | cons d t ih =>
    rw [splitOnce] at h
    split at h
    · simp_all
    · obtain ⟨⟨a', b'⟩, hab, he⟩ := Option.map_eq_some_iff.1 h
      simp only [Prod.mk.injEq] at he
      obtain ⟨rfl, rfl⟩ := he
      obtain ⟨rfl, hc⟩ := ih hab
      exact ⟨rfl, by grind⟩

theorem eq_append_of_dropEnding? {w t a : Text} (h : dropEnding? w t = some a) : t = a ++ w := by
  unfold dropEnding? at h
  split at h
  · rename_i hs
    obtain ⟨b, rfl⟩ := List.isSuffixOf_iff_suffix.1 hs
    simp at h
    rw [h]
  · cases h

end TaskCapture.Text
