import Mathlib

/-!
Lists that repeat. When a list stands at both ends of another, one end shifted against the other,
it goes round in what lies between.
-/

namespace TaskCapture.Text

variable {α : Type}

/-- The list `l`, `n` times over. -/
def repeats (n : ℕ) (l : List α) : List α := (List.replicate n l).flatten

@[simp] lemma repeats_zero (l : List α) : repeats 0 l = [] := rfl

lemma repeats_succ (n : ℕ) (l : List α) : repeats (n + 1) l = l ++ repeats n l := rfl

lemma repeats_append_self (n : ℕ) (l : List α) : repeats n l ++ l = l ++ repeats n l := by
  induction n with
  | zero => simp
  | succ n ih => rw [repeats_succ, List.append_assoc, ih]

lemma repeats_append_comm (n : ℕ) (k l : List α) :
    repeats n (k ++ l) ++ k = k ++ repeats n (l ++ k) := by
  induction n with
  | zero => simp
  | succ n ih => rw [repeats_succ, repeats_succ, List.append_assoc, ih]; simp

lemma mem_of_mem_repeats {n : ℕ} {l : List α} {a : α} (h : a ∈ repeats n l) : a ∈ l := by
  obtain ⟨m, hm, ha⟩ := List.mem_flatten.1 h
  rwa [List.eq_of_mem_replicate hm] at ha

/-- Two ways to cut a list, the second one later. -/
lemma exists_of_append_eq_append {a b c d : List α} (h : a ++ b = c ++ d)
    (hl : a.length ≤ c.length) : ∃ m, c = a ++ m ∧ b = m ++ d := by
  rcases List.append_eq_append_iff.1 h with ⟨m, hc, hb⟩ | ⟨m, ha, hd⟩
  · exact ⟨m, hc, hb⟩
  · obtain rfl : m = [] := by
      rw [ha] at hl
      simpa using hl
    exact ⟨[], by simpa using ha.symm, by simpa using hd.symm⟩

/-- **A list that can be shifted past `u`** is an end of `u` repeated. -/
theorem suffix_repeats_of_append_eq {z u v : List α} (hu : u ≠ []) (h : z ++ u = v ++ z) :
    ∃ n, z <:+ repeats n u := by
  obtain ⟨m, hm⟩ : ∃ m, z.length = m := ⟨_, rfl⟩
  induction m using Nat.strong_induction_on generalizing z with
  | _ m ih =>
    have hlen := congrArg List.length h
    simp only [List.length_append] at hlen
    have hpos := List.length_pos_iff.2 hu
    rcases le_or_gt z.length v.length with hz | hz
    · obtain ⟨x, -, hux⟩ := exists_of_append_eq_append h hz
      exact ⟨1, x, by simpa [repeats] using hux.symm⟩
    · obtain ⟨x, hzx, hx⟩ := exists_of_append_eq_append h.symm hz.le
      -- `x` is what is left of `z` after one shift
      have hxu : x ++ u = v ++ x := by rw [← hx, hzx]
      obtain ⟨n, hn⟩ := ih x.length (by rw [← hm, hzx]; simp; omega) hxu rfl
      obtain ⟨y, hy⟩ := hn
      refine ⟨n + 1, y, ?_⟩
      rw [repeats_succ, ← repeats_append_self, ← hy, hx, List.append_assoc]

/-- The other way round: the end of a repetition can be shifted past `u`, cut somewhere in two. -/
lemma exists_append_eq_of_suffix_repeats {n : ℕ} {z u : List α} (h : z <:+ repeats n u) :
    ∃ a b, u = a ++ b ∧ z ++ u = b ++ a ++ z := by
  induction n with
  | zero =>
    rw [repeats_zero, List.suffix_nil] at h
    exact ⟨u, [], by simp, by simp [h]⟩
  | succ n ih =>
    obtain ⟨y, hy⟩ := h
    rw [repeats_succ] at hy
    rcases le_or_gt y.length u.length with hl | hl
    · obtain ⟨b, hu, hz⟩ := exists_of_append_eq_append hy hl
      refine ⟨y, b, hu, ?_⟩
      have hz' : z ++ u = b ++ (u ++ repeats n u) := by
        rw [hz, List.append_assoc, repeats_append_self]
      rw [hz', ← hy]
      simp
    · obtain ⟨x, -, hx⟩ := exists_of_append_eq_append hy.symm hl.le
      exact ih ⟨x, hx.symm⟩

/-- **A letter that gives way to a block.** Where `b`, `m`, `y` and `k` with `l` after it make the
same list as a block, `b` and `g` with `y` after it, and `l` has no `g`, the letters are the same
and `y` goes round in `l` and `k`. -/
theorem exists_repeats_of_append_eq {b m y l block : List α} {g k : α}
    (h : b ++ m ++ y ++ k :: l = block ++ b ++ g :: y) (hg : g ∉ l) :
    g = k ∧ ∃ n, k :: y = repeats (n + 1) (k :: l) ∧ b ++ m ++ l = block ++ b := by
  obtain ⟨s, hs⟩ : ∃ s, y.length = s := ⟨_, rfl⟩
  induction s using Nat.strong_induction_on generalizing y with
  | _ s ih =>
    have hlen := congrArg List.length h
    simp only [List.length_append, List.length_cons] at hlen
    rcases lt_trichotomy y.length l.length with hl | hl | hl
    · -- `g` would lie within `l`
      obtain ⟨x, -, hx⟩ := exists_of_append_eq_append h (by simp; omega)
      cases x with
      | nil =>
        have := congrArg List.length hx
        simp at this
        omega
      | cons a x =>
        simp only [List.cons_append, List.cons.injEq] at hx
        exact absurd (show g ∈ l by rw [hx.2]; simp) hg
    · obtain ⟨hpre, hsuf⟩ := List.append_inj h (by simp; omega)
      simp only [List.cons.injEq] at hsuf
      obtain ⟨rfl, rfl⟩ := hsuf
      exact ⟨rfl, 0, by simp [repeats], hpre⟩
    · -- one round of `k` and `l` ends both sides
      obtain ⟨x, hx, hgx⟩ := exists_of_append_eq_append h.symm (by simp; omega)
      cases x with
      | nil =>
        have := congrArg List.length hgx
        simp at this
        omega
      | cons a y' =>
        simp only [List.cons_append, List.cons.injEq] at hgx
        obtain ⟨rfl, rfl⟩ := hgx
        have hrest : b ++ m ++ y' ++ k :: l = block ++ b ++ g :: y' := by simpa using hx
        obtain ⟨rfl, n, hn, hpre⟩ := ih y'.length (by rw [← hs]; simp) hrest rfl
        refine ⟨rfl, n + 1, ?_, hpre⟩
        rw [repeats_succ, ← repeats_append_self, ← hn]
        rfl

/-- A letter that can be passed through a list is its only letter. -/
lemma eq_of_append_eq_cons_append {x p q : List α} {g : α} (h : x ++ p = g :: (x ++ q)) :
    (∀ a ∈ x, a = g) ∧ p = g :: q := by
  induction x with
  | nil => exact ⟨by simp, h⟩
  | cons a x ih =>
    simp only [List.cons_append, List.cons.injEq] at h
    obtain ⟨rfl, h⟩ := h
    obtain ⟨hx, hp⟩ := ih h
    exact ⟨by simpa using hx, hp⟩

lemma repeats_singleton (n : ℕ) (a : α) : repeats n [a] = List.replicate n a := by
  induction n with
  | zero => rfl
  | succ n ih => rw [repeats_succ, ih]; rfl

end TaskCapture.Text
