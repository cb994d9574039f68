import TaskCapture.Proofs.Text.Spans
import TaskCapture.Proofs.Text.Words

/-!
Where the words of a text stand. At the start and at the end of each of them the text can be cut,
and the parts hold just the words before and after.
-/

namespace TaskCapture.Text

lemma placed_append_blank {b : Char} (hb : isBlank b = true) (n : ℕ) (s t : Text) :
    placed n (s ++ b :: t) = placed n s ++ placed (n + byteSize s + b.utf8Size) t := by
  induction s generalizing n with
  | nil => simp [placed, hb]
  | cons c s ih =>
    rw [List.cons_append, placed, placed, startsSolid_append_blank hb, ih, byteSize_cons,
      Nat.add_assoc n]
    split_ifs with hc hs
    · rfl
    · have hne : placed (n + c.utf8Size) s ≠ [] := by
        intro h
        have := map_text_placed (n + c.utf8Size) s
        rw [h] at this
        exact words_ne_nil hs this.symm
      obtain ⟨p, ps, hp⟩ := List.exists_cons_of_ne_nil hne
      simp [hp]
    · rfl

lemma placed_of_solid {w : Text} (h : Solid w) (n : ℕ) : placed n w = [⟨n, w⟩] := by
  obtain ⟨hne, hw⟩ := h
  induction w generalizing n with
  | nil => exact absurd rfl hne
  | cons c w ih =>
    have hc := hw c (by simp)
    rw [placed, hc]
    cases w with
    | nil => simp [startsSolid, placed]
    | cons d w =>
      have hd : isBlank d = false := hw d (by simp)
      have hs : startsSolid (d :: w) = true := by simp [startsSolid, hd]
      rw [if_neg (by simp), if_pos hs,
        ih (n + c.utf8Size) (by simp) fun a ha => hw a (by simp [ha])]
      simp

lemma bounds_of_mem_placed {n : ℕ} {t : Text} {p : Placed} (h : p ∈ placed n t) :
    n ≤ p.start ∧ p.stop ≤ n + byteSize t ∧ Solid p.text := by
  induction t using induction_words generalizing n with
  | nil => simp [placed] at h
  | blank c t hc ih =>
    rw [placed, if_pos hc] at h
    obtain ⟨h1, h2, hs⟩ := ih h
    rw [byteSize_cons]
    exact ⟨by omega, by omega, hs⟩
  | word w hw =>
    obtain rfl : p = ⟨n, w⟩ := by simpa [placed_of_solid hw] using h
    exact ⟨le_rfl, le_rfl, hw⟩
  | cons w c t hw hc ih =>
    rw [placed_append_blank hc, placed_of_solid hw, List.mem_append, List.mem_singleton] at h
    rw [byteSize_append, byteSize_cons]
    rcases h with rfl | h
    · exact ⟨le_rfl, Nat.add_le_add_left (Nat.le_add_right _ _) n, hw⟩
    · obtain ⟨h1, h2, hs⟩ := ih h
      exact ⟨by omega, by omega, hs⟩

lemma text_mem_words {n : ℕ} {t : Text} {p : Placed} (h : p ∈ placed n t) : p.text ∈ words t :=
  map_text_placed n t ▸ List.mem_map_of_mem h

/-- The words of a text stand one after the other. -/
lemma pairwise_placed (n : ℕ) (t : Text) : (placed n t).Pairwise fun p q => p.stop ≤ q.start := by
  induction t using induction_words generalizing n with
  | nil => exact .nil
  | blank c t hc ih =>
    rw [placed, if_pos hc]
    exact ih _
  | word w hw =>
    rw [placed_of_solid hw]
    exact List.pairwise_singleton _ _
  | cons w c t hw hc ih =>
    rw [placed_append_blank hc, placed_of_solid hw]
    refine .cons (fun q hq => ?_) (ih _)
    have := (bounds_of_mem_placed hq).1
    simp only [Placed.stop]
    omega

/-- The bytes of a word. -/
def Placed.span (p : Placed) : Span := ⟨p.start, p.stop⟩

@[simp] lemma Placed.span_start (p : Placed) : p.span.start = p.start := rfl

@[simp] lemma Placed.span_stop (p : Placed) : p.span.stop = p.start + byteSize p.text := rfl

/-- Of two words one stands before the other. -/
lemma stop_le_or_stop_le_of_mem_placed {n : ℕ} {t : Text} {p q : Placed} (hp : p ∈ placed n t)
    (hq : q ∈ placed n t) (hne : p ≠ q) : p.stop ≤ q.start ∨ q.stop ≤ p.start := by
  have : Std.Symm fun p q : Placed => p.stop ≤ q.start ∨ q.stop ≤ p.start := ⟨fun _ _ => Or.symm⟩
  have hpair : (placed n t).Pairwise fun p q => p.stop ≤ q.start ∨ q.stop ≤ p.start :=
    (pairwise_placed n t).imp Or.inl
  exact hpair.forall hp hq hne

/-! ### The word around a run without blanks -/

lemma exists_placed_cons {w : Text} (hw : Solid w) (n : ℕ) (b : Text) :
    ∃ b' ps, placed n (w ++ b) = ⟨n, w ++ b'⟩ :: ps ∧ words b = words b' ++ ps.map (·.text) := by
  induction b using induction_words with
  | nil => exact ⟨[], [], by simp [placed_of_solid hw], by simp⟩
  | blank c b hc _ =>
    refine ⟨[], placed (n + byteSize w + c.utf8Size) b, ?_, ?_⟩
    · simp [placed_append_blank hc, placed_of_solid hw]
    · rw [words_cons_blank hc, map_text_placed]
      rfl
  | word v hv => exact ⟨v, [], placed_of_solid (hw.append hv) n, by simp⟩
  | cons v c b hv hc _ =>
    refine ⟨v, placed (n + byteSize (w ++ v) + c.utf8Size) b, ?_, ?_⟩
    · rw [← List.append_assoc, placed_append_blank hc, placed_of_solid (hw.append hv)]
      rfl
    · rw [words_append_blank hc, map_text_placed]

/-- **A run without blanks lies within a word**, and the words on either side of the run are the
parts of that word with the words before and after it. -/
theorem exists_placed_append {m : Text} (hm : Solid m) (n : ℕ) (a b : Text) :
    ∃ ps q qs a' b', placed n (a ++ m ++ b) = ps ++ q :: qs ∧ q.text = a' ++ m ++ b' ∧
      q.start + byteSize a' = n + byteSize a ∧ words a = ps.map (·.text) ++ words a' ∧
        words b = words b' ++ qs.map (·.text) := by
  induction a using induction_words generalizing n with
  | nil =>
    obtain ⟨b', qs, hp, hb⟩ := exists_placed_cons hm n b
    exact ⟨[], _, qs, [], b', by simpa using hp, rfl, rfl, rfl, hb⟩
  | blank c a hc ih =>
    obtain ⟨ps, q, qs, a', b', hp, hq, hstart, ha, hb⟩ := ih (n + c.utf8Size)
    refine ⟨ps, q, qs, a', b', ?_, hq, ?_, ?_, hb⟩
    · rw [List.cons_append, List.cons_append, placed, if_pos hc, hp]
    · rw [hstart, byteSize_cons, Nat.add_assoc]
    · rw [words_cons_blank hc, ha]
  | word w hw =>
    obtain ⟨b', qs, hp, hb⟩ := exists_placed_cons (hw.append hm) n b
    exact ⟨[], _, qs, w, b', by simpa using hp, by simp, rfl, rfl, hb⟩
  | cons w c a hw hc ih =>
    obtain ⟨ps, q, qs, a', b', hp, hq, hstart, ha, hb⟩ := ih (n + byteSize w + c.utf8Size)
    refine ⟨⟨n, w⟩ :: ps, q, qs, a', b', ?_, hq, ?_, ?_, hb⟩
    · rw [List.append_assoc, List.append_assoc, List.cons_append, placed_append_blank hc,
        placed_of_solid hw, ← List.append_assoc, hp]
      rfl
    · rw [hstart, byteSize_append, byteSize_cons]
      omega
    · rw [words_append_blank hc, words_of_solid hw, ha]
      rfl

/-- The text leaves no word open: what follows it begins a word of its own. -/
def EndsApart (t : Text) : Prop := ∀ s, words (t ++ s) = words t ++ words s

lemma endsApart_nil : EndsApart [] := fun _ => rfl

lemma EndsApart.cons {c : Char} (hc : isBlank c = true) {a : Text} (h : EndsApart a) :
    EndsApart (c :: a) := fun s => by
  rw [List.cons_append, words_cons_blank hc, words_cons_blank hc, h]

lemma EndsApart.append {c : Char} (hc : isBlank c = true) (t : Text) {a : Text}
    (h : EndsApart a) : EndsApart (t ++ c :: a) := fun s => by
  rw [List.append_assoc, List.cons_append, words_append_blank hc, words_append_blank hc, h,
    List.append_assoc]

lemma endsApart_of_getLast? {a : Text} (h : ∀ c ∈ a.getLast?, isBlank c = true) : EndsApart a := by
  rcases List.eq_nil_or_concat' a with rfl | ⟨a, c, rfl⟩
  · exact endsApart_nil
  · exact .append (h c (by simp)) a endsApart_nil

/-- **The text around a word**: what stands before it ends in a blank, and on either side stand the
words that come before and after it. -/
theorem exists_around_placed {n k : ℕ} {t : Text} {p : Placed} (h : (placed n t)[k]? = some p) :
    ∃ a b, t = a ++ p.text ++ b ∧ p.start = n + byteSize a ∧ EndsApart a ∧
      words a = (words t).take k ∧ words b = (words t).drop (k + 1) := by
  induction t using induction_words generalizing n k with
  | nil => simp [placed] at h
  | blank c t hc ih =>
    rw [placed, if_pos hc] at h
    obtain ⟨a, b, ht, hp, ha, hwa, hwb⟩ := ih h
    refine ⟨c :: a, b, by simp [ht], by simp [hp, Nat.add_assoc], ha.cons hc, ?_, ?_⟩
    · rw [words_cons_blank hc, words_cons_blank hc, hwa]
    · rw [words_cons_blank hc, hwb]
  | word w hw =>
    rw [placed_of_solid hw] at h
    cases k with
    | zero =>
      obtain rfl : ⟨n, w⟩ = p := by simpa using h
      exact ⟨[], [], by simp, by simp, endsApart_nil, rfl, by simp [words_of_solid hw]⟩
    | succ k => simp at h
  | cons w c t hw hc ih =>
    rw [placed_append_blank hc, placed_of_solid hw] at h
    rw [words_append_blank hc, words_of_solid hw]
    cases k with
    | zero =>
      obtain rfl : ⟨n, w⟩ = p := by simpa using h
      exact ⟨[], c :: t, by simp, by simp, endsApart_nil, rfl, by simp [words_cons_blank hc]⟩
    | succ k =>
      obtain ⟨a, b, ht, hp, ha, hwa, hwb⟩ := ih (by simpa using h)
      refine ⟨w ++ c :: a, b, by simp [ht], by simp [hp]; omega, ha.append hc w, ?_, by simp [hwb]⟩
      rw [words_append_blank hc, words_of_solid hw, hwa]
      simp

/-- **The text from one word to another** holds these words and those between them. -/
theorem exists_between_placed {t : Text} {k l : ℕ} {p q : Placed} (hp : (placed 0 t)[k]? = some p)
    (hq : (placed 0 t)[l]? = some q) (hlt : p.start < q.stop) :
    ∃ a x b, t = a ++ x ++ b ∧ p.start = byteSize a ∧ q.stop = byteSize (a ++ x) ∧
      (words t).take k ++ words x = (words t).take (l + 1) := by
  obtain ⟨a, b, hab, hstart, ha, hwa, -⟩ := exists_around_placed hp
  obtain ⟨a', b', hab', hstart', ha', hwa', -⟩ := exists_around_placed hq
  rw [Nat.zero_add] at hstart hstart'
  have hstop : q.stop = byteSize (a' ++ q.text) := by rw [Placed.stop, hstart', byteSize_append]
  have hcut : a ++ (p.text ++ b) = a' ++ q.text ++ b' := by rw [← List.append_assoc, ← hab, hab']
  obtain ⟨x, -, hx, -⟩ := exists_of_append_eq_of_byteSize_lt hcut (by rwa [← hstart, ← hstop])
  have hword : (words t)[l]? = some q.text := by
    rw [← map_text_placed 0 t, List.getElem?_map, hq]
    rfl
  have hsolid := (bounds_of_mem_placed (List.mem_of_getElem? hq)).2.2
  refine ⟨a, x, b', by rw [← hx, hab'], hstart, by rw [← hx, hstop], ?_⟩
  calc (words t).take k ++ words x = words (a ++ x) := by rw [ha, hwa]
    _ = (words t).take l ++ [q.text] := by rw [← hx, ha', hwa', words_of_solid hsolid]
    _ = (words t).take (l + 1) := by
      rw [List.take_add_one, hword]
      rfl

end TaskCapture.Text
