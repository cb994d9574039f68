import TaskCapture.Proofs.Capture.DateWords
import TaskCapture.Proofs.Capture.MarkerWords
import TaskCapture.Proofs.Capture.TagWords

/-!
What a line says depends on its words alone, except that a line with nothing left over is its own
title. The steps of an interpretation are followed here on lists of words.
-/

namespace TaskCapture

open Text

/-- The tags of one kind. -/
def Task.tags (t : Task) : TagKind → List Text
  | .category => t.categories
  | .context => t.contexts

/-- What a list of words says, and the words that are left over. -/
@[ext]
structure Gist where
  rest : List Text
  dueDate : Option Date
  dueTime : Option Text
  priority : Option Priority
  categories : List Text
  contexts : List Text

/-- The steps of an interpretation, taken on words. -/
def gistOf (ref : Instant) (ws : List Text) : Gist :=
  let p := Priority.outOf ws
  let c := Tag.without .category p.2
  let x := Tag.without .context c
  let d := Phrase.outOf ref x
  { rest := d.2.2
    dueDate := d.1
    dueTime := d.2.1
    priority := p.1
    categories := (Tag.namesIn .category p.2).map lower
    contexts := (Tag.namesIn .context c).map lower }

/-- **A line is taken apart as its words are.** -/
theorem gistOf_words (ref : Instant) (input : Text) :
    let p := Priority.extract input
    let c := Tag.extract .category p.2
    let x := Tag.extract .context c.2
    let d := takeDate Resolver.english ref x.2
    gistOf ref (words input) = ⟨words d.rest, d.date, d.time, p.1, c.1, x.1⟩ := by
  intro p c x d
  obtain ⟨hp, hpw⟩ := Prod.ext_iff.1 (Priority.extract_words input)
  obtain ⟨hc, hcw⟩ := Prod.ext_iff.1 (Tag.extract_words .category p.2)
  obtain ⟨hx, hxw⟩ := Prod.ext_iff.1 (Tag.extract_words .context c.2)
  have hd := takeDate_words ref x.2
  dsimp only at hp hpw hc hcw hx hxw
  rw [hpw] at hc hcw
  rw [hcw] at hx hxw
  rw [hxw] at hd
  obtain ⟨hd1, hd2⟩ := Prod.ext_iff.1 hd
  obtain ⟨hd2, hd3⟩ := Prod.ext_iff.1 hd2
  exact Gist.ext hd3.symm hd1.symm hd2.symm hp.symm hc.symm hx.symm

/-- What is left of a line when its markers and its date are out. -/
def leftOver (resolve : Resolver) (ref : Instant) (input : Text) : Text :=
  let p := Priority.extract input
  let c := Tag.extract .category p.2
  let x := Tag.extract .context c.2
  (takeDate resolve ref x.2).rest

/-- A line of which nothing is left gives its title itself. -/
def IsOwnTitle (ref : Instant) (input : Text) : Prop :=
  words (leftOver Resolver.english ref input) = []

instance (ref : Instant) (input : Text) : Decidable (IsOwnTitle ref input) :=
  inferInstanceAs (Decidable (_ = _))

lemma title_interpret (resolve : Resolver) (ref : Instant) (input : Text) :
    (interpret resolve ref input).title = titleOf input (leftOver resolve ref input) := rfl

lemma words_leftOver (ref : Instant) (input : Text) :
    words (leftOver Resolver.english ref input) = (gistOf ref (words input)).rest := by
  rw [gistOf_words]
  rfl

lemma solid_of_mem_rest_gistOf {ref : Instant} {input w : Text}
    (h : w ∈ (gistOf ref (words input)).rest) : Solid w := by
  rw [gistOf_words] at h
  exact solid_of_mem_words h

/-- What is left over is the title, and what the words say makes up the rest of the task. -/
theorem interpret_eq_gistOf (ref : Instant) (input : Text) :
    let g := gistOf ref (words input)
    interpret Resolver.english ref input =
      { title := if g.rest = [] then trim input else List.intercalate [' '] g.rest
        dueDate := g.dueDate
        dueTime := g.dueTime
        priority := g.priority
        categories := g.categories
        contexts := g.contexts
        rawInput := input } := by
  simp only [gistOf_words, interpret, titleOf, collapse_eq_nil_iff, Task.mk.injEq, and_true]
  congr

/-- Where a line says nothing, all of its words are left over. -/
lemma rest_gistOf {ref : Instant} {ws : List Text} (hs : ∀ w ∈ ws, Solid w)
    (hp : (gistOf ref ws).priority = none) (hc : (gistOf ref ws).categories = [])
    (hx : (gistOf ref ws).contexts = []) (hd : (gistOf ref ws).dueDate = none) :
    (gistOf ref ws).rest = ws := by
  have hp' : Priority.outOf ws = (none, ws) := by
    simp only [gistOf, Priority.outOf] at hp ⊢
    split at hp
    · cases hp
    · next h => rfl
  simp only [gistOf, hp', List.map_eq_nil_iff] at hc hx hd ⊢
  rw [Tag.without_of_namesIn_nil hs hc] at hx hd ⊢
  rw [Tag.without_of_namesIn_nil hs hx] at hd ⊢
  unfold Phrase.outOf at hd ⊢
  split at hd
  · rfl
  · cases hd

end TaskCapture
