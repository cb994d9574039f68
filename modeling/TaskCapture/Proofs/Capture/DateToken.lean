import TaskCapture.Proofs.Capture.CoveredWords
import TaskCapture.Proofs.Capture.LineWords
import TaskCapture.Proofs.Capture.Tokens

/-!
When a line has a date token. The highlighter looks for the date in the line with its markers
covered, the interpreter in what is left when they are taken out. Both find the same date, and it
makes a token unless a marker stands among its words.
-/

namespace TaskCapture

open Text

namespace Resolver

lemma map_date_english (ref : Instant) (t : Text) :
    (english t ref).map (·.instant.date) = (Phrase.outOf ref (words t)).1 := by
  unfold Phrase.outOf
  cases h : Phrase.inWords? ref (words t) with
  | none => rw [english_of_none h, Option.map_none]
  | some kr =>
    obtain ⟨_, _, -, -, he⟩ := english_of_some h
    rw [he, Option.map_some]

end Resolver

namespace Highlight

/-! ### Boundaries of the covered text -/

/-- A visible character of the covered text stands where it stands in the text. -/
lemma exists_of_cover_eq_append {marks : List Token} {n : ℕ} {t a b : Text} {c : Char}
    (h : cover marks n t = a ++ c :: b) (hc : c ≠ ' ') :
    ∃ a' b', t = a' ++ c :: b' ∧ byteSize a' = byteSize a := by
  induction t generalizing n a with
  | nil => simp [cover] at h
  | cons d t ih =>
    rw [cover_cons] at h
    split_ifs at h with hcov
    · rcases List.append_eq_append_iff.1 h with ⟨a', rfl, hrest⟩ | ⟨r, hrep, hrest⟩
      · obtain ⟨a'', b', rfl, hsize⟩ := ih hrest
        exact ⟨d :: a'', b', rfl, by simp [hsize]⟩
      · cases r with
        | nil =>
          obtain ⟨a'', b', rfl, hsize⟩ := ih (a := []) hrest.symm
          refine ⟨d :: a'', b', rfl, ?_⟩
          have := congrArg byteSize hrep
          simp at this hsize ⊢
          omega
        | cons e r =>
          -- the spaces that cover `d` would reach `c`
          rw [List.cons_append, List.cons.injEq] at hrest
          refine absurd ?_ hc
          rw [hrest.1]
          exact List.eq_of_mem_replicate (n := d.utf8Size) (by rw [hrep]; simp)
    · cases a with
      | nil =>
        rw [List.singleton_append, List.nil_append, List.cons.injEq] at h
        exact ⟨[], t, by rw [h.1]; rfl, rfl⟩
      | cons e a =>
        rw [List.singleton_append, List.cons_append, List.cons.injEq] at h
        obtain ⟨rfl, h⟩ := h
        obtain ⟨a', b', rfl, hsize⟩ := ih h
        exact ⟨d :: a', b', rfl, by simp [hsize]⟩

lemma isBoundary_of_mem_placed_cover {marks : List Token} {t : Text} {p : Placed}
    (hp : p ∈ placed 0 (cover marks 0 t)) :
    isBoundary t p.start = true ∧ isBoundary t p.stop = true := by
  obtain ⟨-, -, hne, hsolid⟩ := bounds_of_mem_placed hp
  obtain ⟨k, hk, rfl⟩ := List.getElem_of_mem hp
  obtain ⟨a, b, heq, hstart, -⟩ := exists_around_placed (List.getElem?_eq_getElem hk)
  set p := (placed 0 (cover marks 0 t))[k]
  have hspace : ∀ c ∈ p.text, c ≠ ' ' := fun c hc =>
    (ne_of_isBlank isBlank_space (hsolid c hc)).symm
  rw [Nat.zero_add] at hstart
  constructor
  · obtain ⟨c, w, hw⟩ := List.exists_cons_of_ne_nil hne
    obtain ⟨a', b', ht, hsize⟩ := exists_of_cover_eq_append (c := c) (a := a) (b := w ++ b)
      (by rw [heq, hw]; simp) (hspace c (by simp [hw]))
    exact isBoundary_iff.2 ⟨a', c :: b', ht, by rw [hstart, hsize]⟩
  · obtain ⟨w, c, hw⟩ := List.eq_nil_or_concat p.text |>.resolve_left hne
    obtain ⟨a', b', ht, hsize⟩ := exists_of_cover_eq_append (c := c) (a := a ++ w) (b := b)
      (by rw [heq, hw]; simp) (hspace c (by simp [hw]))
    refine isBoundary_iff.2 ⟨a' ++ [c], b', by simp [ht], ?_⟩
    simp [Placed.stop, hstart, hw, hsize, Nat.add_assoc]

/-! ### The date token -/

variable {ref : Instant} {t : Text}

/-- A marker stands among the words of the date: it shares bytes with the stretch of the line, from
the first of these words to the last, where a date is found once the markers are covered. -/
def Interrupted (ref : Instant) (t : Text) : Prop :=
  ∃ d ∈ Resolver.english (cover (markers t) 0 t) ref, ∃ m ∈ markers t,
    m.span.overlaps d.span = true

lemma exists_dueDate_iff {resolve : Resolver} :
    (∃ m ∈ highlight resolve ref t, m.kind = .dueDate) ↔
      (dateMark? resolve ref t (markers t)).isSome = true := by
  rw [Option.isSome_iff_exists]
  constructor
  · rintro ⟨m, hm, hkind⟩
    rcases (mem_highlight_iff (by simp [hkind])).1 hm with hm | hm
    · -- no marker is a date
      exact absurd hkind (kind_ne_of_mem_markers hm).2
    · exact ⟨m, hm⟩
  · rintro ⟨m, hm⟩
    obtain ⟨d, -, rfl, -⟩ := dateMark?_eq_some_iff.1 hm
    have hkind : TokenKind.dueDate ≠ .text := by decide
    exact ⟨⟨.dueDate, d.span⟩, (mem_highlight_iff hkind).2 (.inr hm), rfl⟩

lemma isSome_dateMark?_english_iff :
    (dateMark? Resolver.english ref t (markers t)).isSome = true ↔
      (Resolver.english (cover (markers t) 0 t) ref).isSome = true ∧ ¬ Interrupted ref t := by
  rw [Option.isSome_iff_exists, Option.isSome_iff_exists]
  constructor
  · rintro ⟨m, hm⟩
    obtain ⟨d, hd, rfl, -, -, hapart⟩ := dateMark?_eq_some_iff.1 hm
    refine ⟨⟨d, hd⟩, ?_⟩
    rintro ⟨d', hd', k, hk, hover⟩
    obtain rfl : d = d' := Option.some.inj (hd.symm.trans hd')
    have := hapart k hk
    rw [Apart, hover] at this
    cases this
  · rintro ⟨⟨d, hd⟩, hint⟩
    obtain ⟨head, hhead, last, hlast, -, hspan⟩ := Resolver.exists_placed_of_english hd
    refine ⟨⟨.dueDate, d.span⟩, dateMark?_eq_some_iff.2 ⟨d, hd, rfl, ?_, ?_, fun k hk => ?_⟩⟩
    · rw [hspan]
      exact (isBoundary_of_mem_placed_cover hhead).1
    · rw [hspan]
      exact (isBoundary_of_mem_placed_cover hlast).2
    · by_contra hover
      exact hint ⟨d, hd, k, hk, by simpa [Apart] using hover⟩

/-- **The interpreter's due date is the date found in the covered line.** -/
theorem dueDate_interpret_eq (htags : ∀ k, Tag.StandApart k t) (hname : MarkerOpensName t) :
    (interpret Resolver.english ref t).dueDate =
      (Resolver.english (cover (markers t) 0 t) ref).map (·.instant.date) := by
  rw [Resolver.map_date_english, words_cover_markers htags hname, interpret_eq_gistOf]
  rfl

/-- **The date token and the due date.** Where the tags stand apart, a line has a date token exactly
if the interpreter gives it a due date and no marker stands among the words of the date. -/
theorem exists_dueDate_highlight_iff (ref : Instant) {t : Text} (htags : ∀ k, Tag.StandApart k t)
    (hname : MarkerOpensName t) :
    (∃ m ∈ highlight Resolver.english ref t, m.kind = .dueDate) ↔
      (interpret Resolver.english ref t).dueDate.isSome = true ∧ ¬ Interrupted ref t := by
  rw [exists_dueDate_iff, isSome_dateMark?_english_iff, dueDate_interpret_eq htags hname,
    Option.isSome_map]

/-- Markers on both sides of a date. -/
theorem exists_dueDate_highlight_iff_of_call :
    let ref : Instant := ⟨⟨2025, 3, 5, by decide, by decide, by decide, by decide⟩, .noon⟩
    let t := "Call #Family p1 tomorrow at 2pm @home".toList
    (∀ k, Tag.StandApart k t) ∧ MarkerOpensName t ∧
      (∃ m ∈ highlight Resolver.english ref t, m.kind = .dueDate) ∧
        (interpret Resolver.english ref t).dueDate.isSome = true ∧ ¬ Interrupted ref t := by
  intro ref t
  have htags : ∀ k, Tag.StandApart k t := fun k => by cases k <;> decide +kernel
  have hname : MarkerOpensName t := by
    have h : ∀ c ∈ Priority.find? t, ∀ k ∈ [TagKind.category, .context],
        ∀ s ∈ Tag.spans k 0 (Tag.pieces k t), s.overlaps c.span = true →
          c.span.start = s.start + 1 := by decide +kernel
    exact fun c hc k => h c hc k (by cases k <;> simp)
  have htoken : ∃ m ∈ highlight Resolver.english ref t, m.kind = .dueDate := by decide +kernel
  exact ⟨htags, hname, htoken, (exists_dueDate_highlight_iff ref htags hname).1 htoken⟩

/-- A marker among the words of a date keeps the date from being a token. A marker in the name of a
tag leaves words beside it when it is covered, which are gone when the tag is taken out: the date is
found without them alone, or with them alone. -/
theorem dueDate_highlight_of_marker_in_date :
    let ref : Instant := ⟨⟨2025, 3, 5, by decide, by decide, by decide, by decide⟩, .noon⟩
    let t := "tomorrow #work at 2pm".toList
    let u := "in #a-p1 3 days".toList
    let v := "feb 29 #a-p1 2023".toList
    ((∀ k, Tag.StandApart k t) ∧ (interpret Resolver.english ref t).dueDate.isSome = true ∧
        ∀ m ∈ highlight Resolver.english ref t, m.kind ≠ .dueDate) ∧
      ((∀ k, Tag.StandApart k u) ∧ (interpret Resolver.english ref u).dueDate.isSome = true ∧
        ∀ m ∈ highlight Resolver.english ref u, m.kind ≠ .dueDate) ∧
      ((∀ k, Tag.StandApart k v) ∧ (interpret Resolver.english ref v).dueDate = none ∧
        ∃ m ∈ highlight Resolver.english ref v, m.kind = .dueDate) :=
  ⟨⟨fun k => by cases k <;> decide +kernel, by decide +kernel⟩,
    ⟨fun k => by cases k <;> decide +kernel, by decide +kernel⟩,
    ⟨fun k => by cases k <;> decide +kernel, by decide +kernel⟩⟩

end Highlight

end TaskCapture
