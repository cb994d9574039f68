import TaskCapture.Proofs.Capture.MarkerWords

/-!
The scan for a marker, said without going through the text. Of all places where a text can be cut
so that a marker of the kind stands there, the scan takes the leftmost.
-/

namespace TaskCapture

open Text

/-- The text ends with a word character. Of an empty text, what stood before it tells. -/
def Text.endsWord (afterWord : Bool) (t : Text) : Bool := t.getLast?.elim afterWord isWord

lemma Text.endsWord_cons (b : Bool) (c : Char) (t : Text) :
    endsWord b (c :: t) = endsWord (isWord c) t := by
  cases t with
  | nil => rfl
  | cons d t =>
    rw [endsWord, endsWord, List.getLast?_cons_cons, List.getLast?_cons, Option.elim_some,
      Option.elim_some]

lemma Text.endsWord_eq_false_iff {t : Text} :
    endsWord false t = false ↔ ∀ c ∈ t.getLast?, isWord c = false := by
  rw [endsWord]
  cases t.getLast? <;> simp

variable {α : Type}

namespace Cut

/-- The text that was cut. -/
def text (c : Cut α) : Text := c.before ++ c.marker ++ c.after

lemma text_push (a : Char) (c : Cut α) : (c.push a).text = a :: c.text := rfl

/-- Among the cuts of the text `t` for which `P` holds, `c` is the one with the least before it. -/
structure Leftmost (P : Cut α → Prop) (t : Text) (c : Cut α) : Prop where
  text_eq : c.text = t
  holds : P c
  le : ∀ d, d.text = t → P d → c.before.length ≤ d.before.length

lemma exists_leftmost {P : Cut α → Prop} {c : Cut α} (h : P c) : ∃ d, Leftmost P c.text d := by
  obtain ⟨d, ⟨ht, hd⟩, hmin⟩ := (measure fun d : Cut α => d.before.length).wf.has_min
    {d | d.text = c.text ∧ P d} ⟨c, rfl, h⟩
  exact ⟨d, ht, hd, fun e he hP => not_lt.1 (hmin e ⟨he, hP⟩)⟩

/-- Two leftmost cuts of a text have the same before them. -/
lemma Leftmost.before_eq {P : Cut α → Prop} {t : Text} {c d : Cut α} (hc : Leftmost P t c)
    (hd : Leftmost P t d) : c.before = d.before ∧ c.marker ++ c.after = d.marker ++ d.after := by
  have hlen : c.before.length = d.before.length :=
    le_antisymm (hc.le d hd.text_eq hd.holds) (hd.le c hc.text_eq hc.holds)
  have htext : c.before ++ (c.marker ++ c.after) = d.before ++ (d.marker ++ d.after) := by
    calc c.before ++ (c.marker ++ c.after) = c.text := (List.append_assoc _ _ _).symm
      _ = d.text := hc.text_eq.trans hd.text_eq.symm
      _ = d.before ++ (d.marker ++ d.after) := List.append_assoc _ _ _
  exact List.append_inj htext hlen

/-- What gives the leftmost cut gives nothing exactly if there is no cut. -/
lemma eq_none_iff_of_leftmost {P : Cut α → Prop} {t : Text} {o : Option (Cut α)}
    (h : ∀ c, o = some c ↔ Leftmost P t c) : o = none ↔ ∀ c : Cut α, c.text = t → ¬ P c := by
  rw [Option.eq_none_iff_forall_ne_some]
  constructor
  · rintro hnone c rfl hc
    obtain ⟨d, hd⟩ := exists_leftmost hc
    exact hnone d ((h d).2 hd)
  · intro hnone c hc
    obtain ⟨htext, hholds, -⟩ := (h c).1 hc
    exact hnone c htext hholds

end Cut

namespace Pattern

variable {p : Pattern α} {b : Bool} {t : Text} {c d : Cut α}

/-- The text is cut at a marker of the kind. -/
def At (p : Pattern α) (b : Bool) (c : Cut α) : Prop :=
  p (endsWord b c.before) (c.marker ++ c.after) = some (c.value, c.marker.length)

lemma at_push_iff (a : Char) : p.At b (c.push a) ↔ p.At (isWord a) c := by
  rw [At, At, Cut.push, endsWord_cons]

/-- What a marker is follows from its place. -/
lemma At.eq (hc : p.At b c) (hd : p.At b d) (hbefore : c.before = d.before)
    (hrest : c.marker ++ c.after = d.marker ++ d.after) : c = d := by
  have hval : (c.value, c.marker.length) = (d.value, d.marker.length) := by
    rw [At, hbefore, hrest] at hc
    exact Option.some.inj (hc.symm.trans hd)
  obtain ⟨hvalue, hlen⟩ := Prod.ext_iff.1 hval
  obtain ⟨hmarker, hafter⟩ := List.append_inj hrest hlen
  cases c
  cases d
  cases hvalue
  cases hbefore
  cases hmarker
  cases hafter
  rfl

/-- A marker that begins a text is found there. -/
lemma leftmost_head (hp : p.Measured) {v : α} {n : ℕ} (h : p b t = some (v, n)) :
    Cut.Leftmost (p.At b) t ⟨v, [], t.take n, t.drop n⟩ where
  text_eq := by rw [Cut.text, List.nil_append, List.take_append_drop]
  holds := by
    have hn := hp.le_length h
    rw [At, List.take_append_drop, List.length_take, min_eq_left hn]
    exact h
  le := fun d _ _ => Nat.zero_le _

/-- Where no marker begins the text, its leftmost marker is that of the text after the first
character. -/
lemma leftmost_push_iff {a : Char} (h : p b (a :: t) = none) :
    Cut.Leftmost (p.At b) (a :: t) c ↔
      ∃ d, Cut.Leftmost (p.At (isWord a)) t d ∧ c = d.push a := by
  -- every cut at a marker has the first character before it
  have hpush : ∀ e : Cut α, e.text = a :: t → p.At b e →
      ∃ d : Cut α, d.text = t ∧ e = d.push a := by
    rintro ⟨v, before, marker, after⟩ htext hat
    cases before with
    | nil =>
      rw [At, show marker ++ after = a :: t from htext] at hat
      rw [show endsWord b [] = b from rfl, h] at hat
      cases hat
    | cons e before =>
      obtain ⟨rfl, ht⟩ := List.cons.inj htext
      exact ⟨⟨v, before, marker, after⟩, ht, rfl⟩
  constructor
  · rintro ⟨htext, hat, hle⟩
    obtain ⟨d, hd, rfl⟩ := hpush c htext hat
    refine ⟨d, ⟨hd, (at_push_iff a).1 hat, fun e he hP => ?_⟩, rfl⟩
    have hshift := hle (e.push a) (by rw [Cut.text_push, he]) ((at_push_iff a).2 hP)
    simpa [Cut.push] using hshift
  · rintro ⟨d, ⟨hd, hat, hle⟩, rfl⟩
    refine ⟨by rw [Cut.text_push, hd], (at_push_iff a).2 hat, fun e he hP => ?_⟩
    obtain ⟨f, hf, rfl⟩ := hpush e he hP
    have hshift := hle f hf ((at_push_iff a).1 hP)
    simpa [Cut.push] using hshift

/-- **The scan finds the leftmost marker.** -/
theorem find?_eq_some_iff (hp : p.Measured) :
    p.find? b t = some c ↔ Cut.Leftmost (p.At b) t c := by
  induction t generalizing b c with
  | nil =>
    refine iff_of_false (by simp [find?]) fun h => ?_
    obtain ⟨-, hmarker⟩ : c.before = [] ∧ c.marker = [] := by
      simpa [Cut.text, and_assoc] using (List.append_eq_nil_iff.1 h.text_eq).1
    exact hp.ne_zero h.holds (by rw [hmarker]; rfl)
  | cons a t ih =>
    rw [find?]
    cases h : p b (a :: t) with
    | some vn =>
      have hhead := leftmost_head hp h
      constructor
      · intro hc
        obtain rfl := Option.some.inj hc
        exact hhead
      · intro hc
        obtain ⟨hbefore, hrest⟩ := hhead.before_eq hc
        exact congrArg some (hhead.holds.eq hc.holds hbefore hrest)
    | none =>
      rw [leftmost_push_iff h, Option.map_eq_some_iff]
      exact exists_congr fun d => and_congr ih eq_comm

/-- A kind may be described by markers that stand at the leftmost places only: if each of the
described markers is one, and the leftmost marker is always described, then the two have the same
leftmost marker. -/
lemma leftmost_iff {P : Cut α → Prop} (hat : ∀ c, P c → p.At b c)
    (hP : ∀ c, Cut.Leftmost (p.At b) t c → P c) :
    Cut.Leftmost (p.At b) t c ↔ Cut.Leftmost P t c := by
  have hto : ∀ d, Cut.Leftmost (p.At b) t d → Cut.Leftmost P t d := fun d hd =>
    ⟨hd.text_eq, hP d hd, fun e he hPe => hd.le e he (hat e hPe)⟩
  refine ⟨hto c, fun hc => ?_⟩
  obtain ⟨d, hd⟩ := Cut.exists_leftmost (hat c hc.holds)
  rw [hc.text_eq] at hd
  obtain ⟨hbefore, hrest⟩ := (hto d hd).before_eq hc
  have heq := hd.holds.eq (hat c hc.holds) hbefore hrest
  rwa [← heq]

end Pattern

end TaskCapture
