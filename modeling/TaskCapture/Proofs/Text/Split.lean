import Mathlib.Data.List.Basic
import TaskCapture.Text.Split

/-!
Splitting a text at a character, and putting parts together with a separator between them; taking an
ending off.
-/

namespace TaskCapture.Text

lemma splitAll_ne_nil (c : Char) (t : Text) : splitAll c t ≠ [] := by
  cases t with
  | nil => simp [splitAll]
  | cons d t =>
    rw [splitAll]
    split_ifs
    · simp
    · simpa using splitAll_ne_nil c t

lemma splitAll_of_not_mem {c : Char} {t : Text} (h : c ∉ t) : splitAll c t = [t] := by
  induction t with
  | nil => rfl
  | cons d t ih =>
    simp only [List.mem_cons, not_or] at h
    rw [splitAll, if_neg (Ne.symm h.1), ih h.2]
    rfl

/-- The parts with the separator between them make up the text. -/
lemma intercalate_splitAll (c : Char) (t : Text) : List.intercalate [c] (splitAll c t) = t := by
  induction t with
  | nil => rfl
  | cons d t ih =>
    obtain ⟨a, parts, ha⟩ := List.exists_cons_of_ne_nil (splitAll_ne_nil c t)
    rw [splitAll, ha]
    rw [ha] at ih
    split_ifs with hd
    · rw [List.intercalate_cons_cons, ih, hd]
      rfl
    · rw [List.modifyHead_cons]
      cases parts with
      | nil => simpa [List.intercalate] using ih
      | cons b parts =>
        rw [List.intercalate_cons_cons] at ih ⊢
        rw [← ih]
        rfl

lemma splitAll_append_cons (c : Char) (a b : Text) :
    splitAll c (a ++ c :: b) = splitAll c a ++ splitAll c b := by
  induction a with
  | nil => simp [splitAll]
  | cons d a ih =>
    obtain ⟨w, ws, hw⟩ := List.exists_cons_of_ne_nil (splitAll_ne_nil c a)
    by_cases hd : d = c <;> simp [splitAll, hd, ih, hw]

lemma splitOnce_eq_none {c : Char} {t : Text} (h : c ∉ t) : splitOnce c t = none := by
  cases he : splitOnce c t with
  | none => rfl
  | some ab =>
    obtain ⟨a, b⟩ := ab
    rw [(eq_append_of_splitOnce he).1] at h
    simp at h

lemma splitOnce_append {c : Char} {a : Text} (h : c ∉ a) (b : Text) :
    splitOnce c (a ++ c :: b) = some (a, b) := by
  induction a with
  | nil => simp [splitOnce]
  | cons d a ih =>
    simp only [List.mem_cons, not_or] at h
    rw [List.cons_append, splitOnce, if_neg (Ne.symm h.1), ih h.2]
    rfl

lemma dropEnding?_append (a w : Text) : dropEnding? w (a ++ w) = some a := by
  rw [dropEnding?, if_pos (List.isSuffixOf_iff_suffix.2 (List.suffix_append a w))]
  simp

/-- Of two endings of one length a text has one at most. -/
lemma dropEnding?_append_of_ne {v w : Text} (hlen : v.length = w.length) (hne : v ≠ w) (a : Text) :
    dropEnding? v (a ++ w) = none := by
  cases h : dropEnding? v (a ++ w) with
  | none => rfl
  | some b => exact absurd (List.append_inj' (eq_append_of_dropEnding? h) hlen.symm).2.symm hne

/-! ### Parts with a separator between them -/

section

variable {sep : Text} {n : ℕ} {ws vs : List Text}

lemma intercalate_cons (sep w : Text) (ws : List Text) :
    List.intercalate sep (w :: ws) = w ++ ws.flatMap (sep ++ ·) := by
  induction ws generalizing w with
  | nil => simp [List.intercalate]
  | cons v ws ih => rw [List.intercalate_cons_cons, ih]; simp

lemma eq_nil_of_flatMap_eq_nil (hn : 0 < n) (hws : ∀ w ∈ ws, w.length = n)
    (h : ws.flatMap (sep ++ ·) = []) : ws = [] := by
  refine List.eq_nil_iff_forall_not_mem.2 fun w hw => ?_
  have hnil : w = [] := (List.append_eq_nil_iff.1 (List.flatMap_eq_nil_iff.1 h w hw)).2
  have hlen := hws w hw
  rw [hnil, List.length_nil] at hlen
  omega

lemma eq_of_flatMap_eq (hn : 0 < n) (hws : ∀ w ∈ ws, w.length = n) (hvs : ∀ v ∈ vs, v.length = n)
    (h : ws.flatMap (sep ++ ·) = vs.flatMap (sep ++ ·)) : ws = vs := by
  induction ws generalizing vs with
  | nil => exact (eq_nil_of_flatMap_eq_nil hn hvs h.symm).symm
  | cons w ws ih =>
    cases vs with
    | nil => exact eq_nil_of_flatMap_eq_nil hn hws h
    | cons v vs =>
      simp only [List.flatMap_cons, List.append_assoc, List.append_cancel_left_eq] at h
      obtain ⟨rfl, htail⟩ := List.append_inj h ((hws w (by simp)).trans (hvs v (by simp)).symm)
      have hws' : ∀ u ∈ ws, u.length = n := fun u hu => hws u (by simp [hu])
      have hvs' : ∀ u ∈ vs, u.length = n := fun u hu => hvs u (by simp [hu])
      rw [ih hws' hvs' htail]

/-- Words of one length can be told apart in a list of them, whatever stands between them. -/
lemma eq_of_intercalate_eq (hn : 0 < n) (hws : ∀ w ∈ ws, w.length = n)
    (hvs : ∀ v ∈ vs, v.length = n) (h : List.intercalate sep ws = List.intercalate sep vs)
    (hne : ws ≠ []) (hne' : vs ≠ []) : ws = vs := by
  obtain ⟨w, ws, rfl⟩ := List.exists_cons_of_ne_nil hne
  obtain ⟨v, vs, rfl⟩ := List.exists_cons_of_ne_nil hne'
  rw [intercalate_cons, intercalate_cons] at h
  obtain ⟨rfl, htail⟩ := List.append_inj h ((hws w (by simp)).trans (hvs v (by simp)).symm)
  have hws' : ∀ u ∈ ws, u.length = n := fun u hu => hws u (by simp [hu])
  have hvs' : ∀ u ∈ vs, u.length = n := fun u hu => hvs u (by simp [hu])
  rw [eq_of_flatMap_eq hn hws' hvs' htail]

end

end TaskCapture.Text
