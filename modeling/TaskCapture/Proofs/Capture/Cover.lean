import TaskCapture.Capture.Highlight
import TaskCapture.Proofs.Text.Spans

/-!
Covering the marks of a text with spaces. Every byte keeps its place, so that the covered text is
cut where the text is; and covering one mark after the other never cuts a character.
-/

namespace TaskCapture.Highlight

open Text

/-- Some mark holds byte `n`. -/
def Covers (marks : List Token) (n : ℕ) : Prop := ∃ m ∈ marks, m.span.start ≤ n ∧ n < m.span.stop

instance (marks : List Token) (n : ℕ) : Decidable (Covers marks n) :=
  inferInstanceAs (Decidable (∃ m ∈ marks, _))

lemma cover_cons (marks : List Token) (n : ℕ) (c : Char) (t : Text) :
    cover marks n (c :: t) =
      (if Covers marks n then List.replicate c.utf8Size ' ' else [c]) ++
        cover marks (n + c.utf8Size) t := by
  rw [cover]
  congr 1
  exact if_congr (by simp [Covers]) rfl rfl

@[simp] lemma cover_nil (n : ℕ) (t : Text) : cover [] n t = t := by
  induction t generalizing n with
  | nil => rfl
  | cons c t ih => rw [cover_cons, if_neg (by simp [Covers]), ih]; rfl

lemma cover_append (marks : List Token) (n : ℕ) (s t : Text) :
    cover marks n (s ++ t) = cover marks n s ++ cover marks (n + byteSize s) t := by
  induction s generalizing n with
  | nil => rfl
  | cons c s ih =>
    rw [List.cons_append, cover_cons, cover_cons, ih, List.append_assoc, byteSize_cons,
      Nat.add_assoc]

@[simp] lemma byteSize_spaces (n : ℕ) : byteSize (List.replicate n ' ') = n := by
  induction n with
  | zero => rfl
  | succ n ih =>
    have : ' '.utf8Size = 1 := rfl
    rw [List.replicate_succ, byteSize_cons, ih]
    omega

@[simp] lemma byteSize_cover (marks : List Token) (n : ℕ) (t : Text) :
    byteSize (cover marks n t) = byteSize t := by
  induction t generalizing n with
  | nil => rfl
  | cons c t ih =>
    rw [cover_cons, byteSize_append, ih]
    split_ifs <;> simp

/-- Only which bytes the marks hold counts. -/
lemma cover_congr {marks marks' : List Token} {n : ℕ} {t : Text}
    (h : ∀ p, n ≤ p → p < n + byteSize t → (Covers marks p ↔ Covers marks' p)) :
    cover marks n t = cover marks' n t := by
  induction t generalizing n with
  | nil => rfl
  | cons c t ih =>
    have hc := c.utf8Size_pos
    rw [byteSize_cons] at h
    rw [cover_cons, cover_cons, if_congr (h n le_rfl (by omega)) rfl rfl,
      ih fun p hp hp' => h p (by omega) (by omega)]

lemma cover_of_not_covers {marks : List Token} {n : ℕ} {t : Text}
    (h : ∀ p, n ≤ p → p < n + byteSize t → ¬ Covers marks p) : cover marks n t = t := by
  have hnone : cover marks n t = cover [] n t :=
    cover_congr fun p hp hp' => iff_of_false (h p hp hp') (by simp [Covers])
  rw [hnone, cover_nil]

lemma cover_of_covers {marks : List Token} {n : ℕ} {t : Text}
    (h : ∀ p, n ≤ p → p < n + byteSize t → Covers marks p) :
    cover marks n t = List.replicate (byteSize t) ' ' := by
  induction t generalizing n with
  | nil => rfl
  | cons c t ih =>
    have hc := c.utf8Size_pos
    rw [byteSize_cons] at h
    rw [cover_cons, if_pos (h n le_rfl (by omega)), ih fun p hp hp' => h p (by omega) (by omega),
      byteSize_cons, List.replicate_add]

/-! ### One mark after the other -/

/-- The bytes of a span are written over with spaces; this fails where it would cut a character. -/
def blankOut? (s : Span) (t : Text) : Option Text := do
  let (before, rest) ← splitAtByte s.start t
  let (within, after) ← splitAtByte (s.stop - s.start) rest
  return before ++ List.replicate (byteSize within) ' ' ++ after

lemma blankOut?_append (a x b : Text) :
    blankOut? ⟨byteSize a, byteSize a + byteSize x⟩ (a ++ x ++ b) =
      some (a ++ List.replicate (byteSize x) ' ' ++ b) := by
  rw [blankOut?, List.append_assoc]
  simp only [splitAtByte_append, Nat.add_sub_cancel_left, Option.bind_eq_bind, Option.bind_some,
    Option.pure_def]

/-- A mark that fits the text can be covered after the others. -/
lemma blankOut?_cover {t : Text} {m : Token} (h : m.span.Fits t) (marks : List Token) :
    blankOut? m.span (cover marks 0 t) = some (cover (marks ++ [m]) 0 t) := by
  obtain ⟨a, x, b, rfl, -, hm⟩ := h
  have hcut : ∀ ms, cover ms 0 (a ++ x ++ b) =
      cover ms 0 a ++ cover ms (byteSize a) x ++ cover ms (byteSize a + byteSize x) b := by
    intro ms
    simp [cover_append]
  have hcovers : ∀ p, Covers (marks ++ [m]) p ↔
      Covers marks p ∨ byteSize a ≤ p ∧ p < byteSize a + byteSize x := by
    intro p
    simp [Covers, hm, or_and_right, exists_or]
  -- the parts beside the mark are covered as before, the part within it altogether
  have ha : cover (marks ++ [m]) 0 a = cover marks 0 a :=
    cover_congr fun p _ hp => (hcovers p).trans (or_iff_left (by omega))
  have hb : cover (marks ++ [m]) (byteSize a + byteSize x) b =
      cover marks (byteSize a + byteSize x) b :=
    cover_congr fun p hp _ => (hcovers p).trans (or_iff_left (by omega))
  have hx : cover (marks ++ [m]) (byteSize a) x = List.replicate (byteSize x) ' ' :=
    cover_of_covers fun p hp hp' => (hcovers p).2 (.inr ⟨hp, hp'⟩)
  rw [hcut, hcut, ha, hx, hb, hm]
  simpa using blankOut?_append (cover marks 0 a) (cover marks (byteSize a) x)
    (cover marks (byteSize a + byteSize x) b)

/-- **Covering never cuts a character**: the marks can be written over one after the other. -/
theorem foldlM_blankOut? {t : Text} {marks : List Token} (h : ∀ m ∈ marks, m.span.Fits t) :
    marks.foldlM (fun u m => blankOut? m.span u) t = some (cover marks 0 t) := by
  induction marks using List.reverseRecOn with
  | nil => simp
  | append_singleton marks m ih =>
    rw [List.foldlM_append, ih fun k hk => h k (by simp [hk])]
    simpa using blankOut?_cover (h m (by simp)) marks

end TaskCapture.Highlight
