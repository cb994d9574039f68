import TaskCapture.Proofs.Capture.MarkerWords
import TaskCapture.Proofs.Capture.TagWords
import TaskCapture.Proofs.Text.SmallLetters

/-!
Short priority markers, `p1` to `p4`, and tags. A text without one has none in the names of its
tags, none after its tags have been taken out, and none in small letters.
-/

namespace TaskCapture

open Text

namespace Priority

variable {b : Bool} {c d : Char} {t : Text}

lemma shorthand_eq_none_of_ne (h : ¬ (c = 'p' ∨ c = 'P')) (t : Text) :
    shorthand b (c :: t) = none := by
  cases t <;> simp [shorthand, h]

lemma shorthand_eq_none_of_digit (h : ¬ ('1' ≤ d ∧ d ≤ '4')) (c : Char) (t : Text) :
    shorthand b (c :: d :: t) = none := by
  simp only [shorthand]
  rw [if_neg (by tauto)]

lemma isWord_of_level (h : '1' ≤ d ∧ d ≤ '4') : isWord d = true := by
  have h1 : 49 ≤ d.toNat := h.1
  have h4 : d.toNat ≤ 52 := h.2
  have hall : ∀ n < 53, 49 ≤ n → isWord (Char.ofNat n) = true := by decide
  simpa using hall d.toNat (by omega) h1

/-- Only whether a word character follows counts of the text after a marker. -/
lemma shorthand_congr {t' : Text} (h : startsWord t' = startsWord t) (c d : Char) :
    shorthand b (c :: d :: t') = shorthand b (c :: d :: t) := by
  simp only [shorthand, h]

lemma find?_shorthand_cons_eq_none_iff :
    shorthand.find? b (c :: t) = none ↔
      shorthand b (c :: t) = none ∧ shorthand.find? (isWord c) t = none := by
  rw [Pattern.find?]
  cases shorthand b (c :: t) <;> simp

/-- What stands before a text that begins with no word character does not count. -/
lemma find?_shorthand_of_startsWord (h : startsWord t = false) (b' : Bool)
    (hn : shorthand.find? b t = none) : shorthand.find? b' t = none := by
  cases t with
  | nil => rfl
  | cons c t =>
    rw [find?_shorthand_cons_eq_none_iff] at hn ⊢
    rw [startsWord_cons] at h
    refine ⟨shorthand_eq_none_of_ne ?_ t, hn.2⟩
    rintro (rfl | rfl) <;> exact absurd h (by decide)

/-- A text without a marker has none in its first part, where that ends with a word. -/
lemma find?_shorthand_left {s : Text} (h : shorthand.find? b (s ++ t) = none)
    (ht : startsWord t = false) : shorthand.find? b s = none := by
  induction s generalizing b with
  | nil => rfl
  | cons c s ih =>
    rw [List.cons_append, find?_shorthand_cons_eq_none_iff] at h
    rw [find?_shorthand_cons_eq_none_iff]
    refine ⟨?_, ih h.2⟩
    match s with
    | [] => simp [shorthand]
    | [d] => rw [← h.1]; exact (shorthand_congr (by simpa using ht) c d).symm
    | d :: e :: s => rw [← h.1]; exact shorthand_congr rfl c d

lemma find?_shorthand_right {s : Text} (h : shorthand.find? b (s ++ t) = none) :
    ∃ b', shorthand.find? b' t = none := by
  induction s generalizing b with
  | nil => exact ⟨b, h⟩
  | cons c s ih =>
    rw [List.cons_append, find?_shorthand_cons_eq_none_iff] at h
    exact ih h.2

/-- The letter `p` with a level from 1 to 4 after it, in `n` as a word of its own. -/
def HoldsLevel (n : Text) : Prop :=
  ∃ s c d r, n = s ++ c :: d :: r ∧ (c = 'p' ∨ c = 'P') ∧ ('1' ≤ d ∧ d ≤ '4') ∧
    (∀ a ∈ s.getLast?, isWord a = false) ∧ startsWord r = false

lemma find?_shorthand_of_not_holdsLevel {n : Text} (h : ¬ HoldsLevel n) :
    shorthand.find? false n = none := by
  -- the word is looked through from the left; `s` is what has been passed
  have hall : ∀ s t, n = s ++ t → ∀ b, (b = false → ∀ a ∈ s.getLast?, isWord a = false) →
      shorthand.find? b t = none := by
    intro s t
    induction t generalizing s with
    | nil => exact fun _ _ _ => rfl
    | cons c t ih =>
      intro hn b hb
      rw [find?_shorthand_cons_eq_none_iff]
      refine ⟨?_, ih (s ++ [c]) (by simp [hn]) _ fun hc => by simp [hc]⟩
      cases t with
      | nil => simp [shorthand]
      | cons d r =>
        simp only [shorthand]
        rw [if_neg]
        rintro ⟨hp, h1, h4, hb', hr⟩
        exact h ⟨s, c, d, r, hn, hp, ⟨h1, h4⟩, hb hb', hr⟩
  exact hall [] n rfl false (by simp)

/-- Text that no marker begins in is passed over; of it only its last character counts. -/
lemma find?_shorthand_append {w : Bool} {vs : Text} (hne : vs ≠ [])
    (hvs : ∀ d ∈ vs, ¬ (d = 'p' ∨ d = 'P') ∧ isWord d = w) (h : shorthand.find? w t = none) :
    shorthand.find? b (vs ++ t) = none := by
  induction vs generalizing b with
  | nil => exact absurd rfl hne
  | cons d vs ih =>
    obtain ⟨hp, hw⟩ := hvs d (by simp)
    rw [List.cons_append, find?_shorthand_cons_eq_none_iff, hw]
    refine ⟨shorthand_eq_none_of_ne hp _, ?_⟩
    by_cases hnil : vs = []
    · rw [hnil]
      exact h
    · exact ih hnil fun e he => hvs e (by simp [he])

/-- Where no level follows the letter `p`, none follows it in small letters. -/
lemma shorthand_lowerFrom {cased : Bool} (hp : c = 'p' ∨ c = 'P')
    (h : shorthand b (c :: t) = none) : shorthand b ('p' :: lowerFrom cased t) = none := by
  cases t with
  | nil => rfl
  | cons e t =>
    obtain ⟨out, cased', he, hne, hout, hascii⟩ := lowerFrom_cons cased e t
    obtain ⟨d, r, rfl⟩ := List.exists_cons_of_ne_nil hne
    rw [he, List.cons_append]
    by_cases hd : '1' ≤ d ∧ d ≤ '4'
    · -- the digit was there before, and what follows it begins as before
      obtain rfl := (hout d (by simp)).eq_of_digit hd.1 hd.2
      have hlt : d.toNat < 128 := by
        have : d.toNat ≤ 52 := hd.2
        omega
      obtain ⟨-, rfl⟩ : _ ∧ r = [] := by simpa using hascii hlt
      rw [List.nil_append, shorthand_congr (startsWord_lowerFrom cased' t), ← h]
      simp only [shorthand, hp, true_or, true_and]
    · exact shorthand_eq_none_of_digit hd _ _

/-- **Small letters make no marker.** -/
theorem find?_shorthand_lowerFrom {cased : Bool} (h : shorthand.find? b t = none) :
    shorthand.find? b (lowerFrom cased t) = none := by
  induction t generalizing b cased with
  | nil => rfl
  | cons c t ih =>
    rw [find?_shorthand_cons_eq_none_iff] at h
    obtain ⟨out, cased', he, hne, hout, hascii⟩ := lowerFrom_cons cased c t
    have hrest : shorthand.find? (isWord c) (lowerFrom cased' t) = none := ih h.2
    rw [he]
    by_cases hp : c = 'p' ∨ c = 'P'
    · obtain rfl : out = ['p'] := by
        rcases hp with rfl | rfl <;> exact hascii (by decide)
      have hw : isWord 'p' = isWord c := (hout 'p' (by simp)).isWord_eq
      rw [List.singleton_append, find?_shorthand_cons_eq_none_iff, hw]
      exact ⟨shorthand_lowerFrom hp h.1, hrest⟩
    · -- nothing that comes of `c` can open a marker
      exact find?_shorthand_append hne
        (fun d hd => ⟨fun h => hp ((hout d hd).eq_or_eq h).2, (hout d hd).isWord_eq⟩) hrest

end Priority

namespace Tag

variable {k : TagKind} {b : Bool}

lemma isWord_sigil (k : TagKind) : isWord k.sigil = false := by cases k <;> decide

/-- A tag goes on as long as tag characters do. -/
lemma startsWord_dropWhile (t : Text) : startsWord (t.dropWhile isTagChar) = false := by
  cases h : t.dropWhile isTagChar with
  | nil => rfl
  | cons c r =>
    have hc := List.head_dropWhile_not isTagChar (by rw [h]; simp)
    simp only [h, List.head_cons, isTagChar, Bool.or_eq_false_iff] at hc
    exact hc.1

/-- The parts of a text before and after its first tag, or no tag at its head. -/
theorem induction_pieces (k : TagKind) {motive : Text → Prop} (nil : motive [])
    (tag : ∀ t, nameOf t ≠ [] → motive (t.dropWhile isTagChar) → motive (k.sigil :: t))
    (plain : ∀ c t, pieces k (c :: t) = .plain c :: pieces k t → motive t → motive (c :: t))
    (t : Text) : motive t := by
  match t with
  | [] => exact nil
  | c :: t =>
    have ih := induction_pieces k nil tag plain t
    by_cases hc : c = k.sigil
    · subst hc
      by_cases hn : nameOf t = []
      · exact plain _ t (pieces_sigil_of_nil hn) ih
      · have hlen : (t.dropWhile isTagChar).length ≤ t.length :=
          (List.dropWhile_sublist isTagChar).length_le
        exact tag t hn (induction_pieces k nil tag plain (t.dropWhile isTagChar))
    · exact plain c t (pieces_cons_of_ne hc t) ih
termination_by t.length

lemma isName_of_mem_names {n t : Text} (h : n ∈ names (pieces k t)) : IsName n := by
  induction t using induction_pieces k with
  | nil => simp [names] at h
  | tag t hn ih =>
    rw [pieces_sigil hn, names_tag, List.mem_cons] at h
    rcases h with rfl | h
    · exact ⟨hn, fun c hc => isTagChar_of_mem_nameOf hc⟩
    · exact ih h
  | plain c t hc ih =>
    rw [hc, names_plain] at h
    exact ih h

/-- Where a text begins with a word, so it does without its tags. -/
lemma startsWord_rest (k : TagKind) (t : Text) :
    startsWord (rest (pieces k t)) = startsWord t := by
  induction t using induction_pieces k with
  | nil => rfl
  | tag t hn ih =>
    rw [pieces_sigil hn, rest_tag, ih, startsWord_dropWhile, startsWord_cons, isWord_sigil]
  | plain c t hc ih => rw [hc, rest_plain, startsWord_cons, startsWord_cons]

/-- The name of a tag in a text without a short marker holds none. -/
lemma find?_shorthand_of_mem_names {t n : Text} (h : Priority.shorthand.find? b t = none)
    (hn : n ∈ names (pieces k t)) : Priority.shorthand.find? false n = none := by
  induction t using induction_pieces k generalizing b with
  | nil => simp [names] at hn
  | tag t hne ih =>
    rw [Priority.find?_shorthand_cons_eq_none_iff, isWord_sigil,
      ← nameOf_append_dropWhile t] at h
    rw [pieces_sigil hne, names_tag, List.mem_cons] at hn
    rcases hn with rfl | hn
    · exact Priority.find?_shorthand_left h.2 (startsWord_dropWhile t)
    · obtain ⟨b', hb'⟩ := Priority.find?_shorthand_right h.2
      exact ih hb' hn
  | plain c t hc ih =>
    rw [hc, names_plain] at hn
    exact ih (Priority.find?_shorthand_cons_eq_none_iff.1 h).2 hn

/-- A digit that begins the text without its tags began it with them. -/
lemma shorthand_rest {c : Char} {t : Text} (h : Priority.shorthand b (c :: t) = none) :
    Priority.shorthand b (c :: rest (pieces k t)) = none := by
  cases hr : rest (pieces k t) with
  | nil => simp [Priority.shorthand]
  | cons e r =>
    by_cases hd : '1' ≤ e ∧ e ≤ '4'
    · have hw : startsWord t = true := by
        rw [← startsWord_rest k, hr]
        exact Priority.isWord_of_level hd
      cases t with
      | nil => cases hw
      | cons x t =>
        have hx : x ≠ k.sigil := by
          rintro rfl
          rw [startsWord_cons, isWord_sigil] at hw
          cases hw
        rw [pieces_cons_of_ne hx, rest_plain] at hr
        obtain ⟨rfl, rfl⟩ := List.cons.inj hr
        rw [Priority.shorthand_congr (startsWord_rest k t)]
        exact h
    · exact Priority.shorthand_eq_none_of_digit hd _ _

/-- **Taking tags out makes no short marker.** After a tag no word goes on. -/
theorem find?_shorthand_rest {t : Text} (h : Priority.shorthand.find? b t = none) :
    Priority.shorthand.find? b (rest (pieces k t)) = none := by
  induction t using induction_pieces k generalizing b with
  | nil => rfl
  | tag t hne ih =>
    rw [Priority.find?_shorthand_cons_eq_none_iff, ← nameOf_append_dropWhile t] at h
    obtain ⟨b', hb'⟩ := Priority.find?_shorthand_right h.2
    rw [pieces_sigil hne, rest_tag]
    refine Priority.find?_shorthand_of_startsWord ?_ b (ih hb')
    rw [startsWord_rest, startsWord_dropWhile]
  | plain c t hc ih =>
    rw [Priority.find?_shorthand_cons_eq_none_iff] at h
    rw [hc, rest_plain, Priority.find?_shorthand_cons_eq_none_iff]
    exact ⟨shorthand_rest h.1, ih h.2⟩

end Tag

end TaskCapture
