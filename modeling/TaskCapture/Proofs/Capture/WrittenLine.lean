import TaskCapture.Proofs.Capture.LineWords
import TaskCapture.Proofs.Capture.WrittenWords

/-!
Reading back the line of a task. Whether all of the task comes back depends on its title: the
marker, the tags and the due words are found where the line has them, so long as nothing in the
title comes before them.
-/

namespace TaskCapture

open Text

namespace Priority

lemma outOf_of_levelWord {ws vs : List Text} {p : Priority}
    (h : levelWord.takeOut ws = some (p, vs)) : outOf ws = (some p, vs) := by
  simp [outOf, takeOut, patterns, h]

lemma outOf_of_unmarked {ws : List Text} (h : ∀ w ∈ ws, Unmarked none w) :
    outOf ws = (none, ws) := by
  rw [outOf, takeOut_eq_none_iff.2 h]

lemma fst_outOf_eq_none_iff {ws : List Text} :
    (outOf ws).1 = none ↔ ∀ w ∈ ws, Unmarked none w := by
  refine ⟨fun h => takeOut_eq_none_iff.1 ?_, fun h => by rw [outOf_of_unmarked h]⟩
  unfold outOf at h
  split at h
  · cases h
  · assumption

/-- The marker is taken out of words that hold none before it. -/
lemma outOf_append_markerWords {p : Option Priority} {us ws : List Text}
    (hu : ∀ w ∈ us, Unmarked p w) (hw : p = none → ∀ w ∈ ws, Unmarked none w) :
    outOf (us ++ markerWords p ++ ws) = (p, us ++ ws) := by
  cases p with
  | none =>
    rw [markerWords, List.append_nil]
    refine outOf_of_unmarked fun w h => ?_
    rcases List.mem_append.1 h with h | h
    · exact hu w h
    · exact hw rfl w h
  | some p =>
    refine outOf_of_levelWord ?_
    rw [List.append_assoc, Pattern.takeOut_append_of_clean hu, markerWords, List.singleton_append,
      Pattern.takeOut, find?_markerWord]
    simp

end Priority

namespace Task

variable {t : Task}

/-- The task, with its title as words. -/
def gist (t : Task) : Gist where
  rest := words t.title
  dueDate := t.dueDate
  dueTime := t.dueTime
  priority := t.priority
  categories := t.categories
  contexts := t.contexts

/-- A line that adds nothing to the title has nothing to say. -/
lemma eq_none_of_added_eq_nil (h : t.marker ++ t.tagsAndDue = []) :
    t.priority = none ∧ t.categories = [] ∧ t.contexts = [] ∧ t.dueDate = none := by
  simp only [tagsAndDue, List.append_eq_nil_iff, Tag.tagWords, List.map_eq_nil_iff] at h
  obtain ⟨hm, hc, hx, hd⟩ := h
  refine ⟨?_, hc, hx, ?_⟩
  · cases hp : t.priority with
    | none => rfl
    | some p => simp [marker, hp, markerWords] at hm
  · cases he : t.dueDate with
    | none => rfl
    | some d => simp [due, he, dueWords] at hd

namespace WellFormed

variable (ht : t.WellFormed)

include ht

lemma isTime : IsTime t.dueTime := fun s hs => (ht.time s hs).2

lemma isName_category {n : Text} (h : n ∈ t.categories) : Tag.IsName n :=
  ht.isName n (List.mem_append_left _ h)

lemma isName_context {n : Text} (h : n ∈ t.contexts) : Tag.IsName n :=
  ht.isName n (List.mem_append_right _ h)

lemma solid_of_mem_due {w : Text} (h : w ∈ t.due) : Solid w :=
  solid_of_mem_dueWords ht.isTime h

lemma sigil_not_mem_of_mem_due (k : TagKind) {w : Text} (h : w ∈ t.due) : k.sigil ∉ w :=
  sigil_not_mem_dueWords ht.isTime k h

lemma unmarked_of_mem_due (p : Option Priority) {w : Text} (h : w ∈ t.due) :
    Priority.Unmarked p w :=
  Priority.unmarked_of_mem_dueWords p ht.isTime h

lemma dueTime_of_dueDate (h : t.dueDate = none) : t.dueTime = none := by
  cases hs : t.dueTime with
  | none => rfl
  | some s =>
    have := (ht.time s hs).1
    simp [h] at this

/-- The tags and the due words are words, and no step takes one of them for a marker. -/
lemma mem_tagsAndDue {w : Text} (h : w ∈ t.tagsAndDue) :
    Solid w ∧ Priority.Unmarked t.priority w := by
  rcases List.mem_append.1 h with h | h
  · refine ⟨?_, Priority.unmarked_of_mem_tagWords (fun n hn => ht.isName_category hn)
      (fun hp n hn => ht.shorthand hp n (List.mem_append_left _ hn)) h⟩
    obtain ⟨n, hn, rfl⟩ := List.mem_map.1 h
    exact Tag.solid_tagWord (ht.isName_category hn)
  · rcases List.mem_append.1 h with h | h
    · refine ⟨?_, Priority.unmarked_of_mem_tagWords (fun n hn => ht.isName_context hn)
        (fun hp n hn => ht.shorthand hp n (List.mem_append_right _ hn)) h⟩
      obtain ⟨n, hn, rfl⟩ := List.mem_map.1 h
      exact Tag.solid_tagWord (ht.isName_context hn)
    · exact ⟨ht.solid_of_mem_due h, ht.unmarked_of_mem_due _ h⟩

/-- The words of the line. -/
lemma words_line : words t.line = words t.title ++ (t.marker ++ t.tagsAndDue) := by
  rw [line_eq, words_append_spaced]
  intro w hw
  rcases List.mem_append.1 hw with hw | hw
  · exact solid_of_mem_markerWords hw
  · exact (ht.mem_tagsAndDue hw).1

/-- Contexts and due words hold no category. -/
lemma mem_contextsAndDue {w : Text} (h : w ∈ Tag.tagWords .context t.contexts ++ t.due) :
    Solid w ∧ TagKind.category.sigil ∉ w := by
  rcases List.mem_append.1 h with h | h
  · obtain ⟨n, hn, rfl⟩ := List.mem_map.1 h
    exact ⟨Tag.solid_tagWord (ht.isName_context hn),
      Tag.sigil_not_mem_tagWord (by decide) (ht.isName_context hn)⟩
  · exact ⟨ht.solid_of_mem_due h, ht.sigil_not_mem_of_mem_due _ h⟩

/-- What words say that have the tags and the due words of the task after them. -/
lemma gistOf_of_outOf {ref : Instant} {ws vs : List Text} {q : Option Priority}
    (h : Priority.outOf ws = (q, vs ++ t.tagsAndDue)) :
    let us := Tag.without .context (Tag.without .category vs)
    gistOf ref ws =
      { rest := (Phrase.outOf ref (us ++ t.due)).2.2
        dueDate := (Phrase.outOf ref (us ++ t.due)).1
        dueTime := (Phrase.outOf ref (us ++ t.due)).2.1
        priority := q
        categories := (Tag.namesIn .category vs ++ t.categories).map lower
        contexts :=
          (Tag.namesIn .context (Tag.without .category vs) ++ t.contexts).map lower } := by
  have hcat : ∀ n ∈ t.categories, Tag.IsName n := fun n hn => ht.isName_category hn
  have hctx : ∀ n ∈ t.contexts, Tag.IsName n := fun n hn => ht.isName_context hn
  have hmem : ∀ w ∈ Tag.tagWords .context t.contexts ++ t.due,
      Solid w ∧ TagKind.category.sigil ∉ w := fun w hw => ht.mem_contextsAndDue hw
  simp only [gistOf, h, tagsAndDue,
    Tag.namesIn_append_tagWords hcat fun w hw => (hmem w hw).2,
    Tag.without_append_tagWords hcat (fun w hw => (hmem w hw).2) fun w hw => (hmem w hw).1,
    Tag.namesIn_append_tagWords hctx fun w hw => ht.sigil_not_mem_of_mem_due _ hw,
    Tag.without_append_tagWords hctx (fun w hw => ht.sigil_not_mem_of_mem_due _ hw)
      fun w hw => ht.solid_of_mem_due hw]

/-- **What is left once the marker is out decides.** The tags of the line come back if the words
before them hold none, and then the date is looked for in those words and the due words. -/
theorem gistOf_eq_gist_iff {ref : Instant} {ws vs : List Text} {q : Option Priority}
    (hv : ∀ w ∈ vs, Solid w) (h : Priority.outOf ws = (q, vs ++ t.tagsAndDue)) :
    gistOf ref ws = t.gist ↔ q = t.priority ∧ (∀ w ∈ vs, Tag.Untagged w) ∧
      Phrase.outOf ref (vs ++ t.due) = (t.dueDate, t.dueTime, words t.title) := by
  have hcat : ∀ us, (us ++ t.categories).map lower = t.categories ↔ us = [] := fun us =>
    Tag.map_lower_append_eq_iff fun n hn => ht.lower_eq n (List.mem_append_left _ hn)
  have hctx : ∀ us, (us ++ t.contexts).map lower = t.contexts ↔ us = [] := fun us =>
    Tag.map_lower_append_eq_iff fun n hn => ht.lower_eq n (List.mem_append_right _ hn)
  rw [ht.gistOf_of_outOf h]
  simp only [gist, Gist.mk.injEq, hcat, hctx]
  constructor
  · rintro ⟨hrest, hd, hs, hq, hc, hx⟩
    rw [Tag.without_of_namesIn_nil hv hc] at hrest hd hs hx
    rw [Tag.without_of_namesIn_nil hv hx] at hrest hd hs
    refine ⟨hq, fun w hw k => ?_, Prod.ext hd (Prod.ext hs hrest)⟩
    cases k with
    | category => exact Tag.namesIn_eq_nil_iff.1 hc w hw
    | context => exact Tag.namesIn_eq_nil_iff.1 hx w hw
  · rintro ⟨hq, hu, hp⟩
    have hnil : ∀ k, Tag.namesIn k vs = [] := fun k =>
      Tag.namesIn_eq_nil_iff.2 fun w hw => hu w hw k
    rw [Tag.without_of_namesIn_nil hv (hnil _), Tag.without_of_namesIn_nil hv (hnil _), hp]
    exact ⟨rfl, rfl, rfl, hq, hnil _, hnil _⟩

/-- The task comes back from its line if its title is collapsed and the words of the line say what
the task says. -/
theorem interpret_line_eq_iff (ref : Instant) :
    interpret Resolver.english ref t.line = { t with rawInput := t.line } ↔
      collapse t.title = t.title ∧ gistOf ref (words t.line) = t.gist := by
  have hwords := ht.words_line
  have hsolid : ∀ w ∈ words t.line, Solid w := fun _ => solid_of_mem_words
  rw [interpret_eq_gistOf]
  simp only [Task.mk.injEq, and_true]
  constructor
  · rintro ⟨htitle, hd, hs, hp, hc, hx⟩
    by_cases hr : (gistOf ref (words t.line)).rest = []
    · -- the line would be its own title, and nothing would have been found in it
      rw [if_pos hr] at htitle
      have hadded : t.marker ++ t.tagsAndDue = [] := by
        have := congrArg words htitle
        rw [words_trim, hwords] at this
        simpa using this
      obtain ⟨hp', hc', hx', hd'⟩ := eq_none_of_added_eq_nil hadded
      rw [rest_gistOf hsolid (hp.trans hp') (hc.trans hc') (hx.trans hx') (hd.trans hd'),
        hwords] at hr
      exact absurd (List.append_eq_nil_iff.1 hr).1 ht.title
    · rw [if_neg hr] at htitle
      have hrest : (gistOf ref (words t.line)).rest = words t.title := by
        rw [← htitle, words_intercalate fun w hw => solid_of_mem_rest_gistOf hw]
      refine ⟨?_, Gist.ext hrest hd hs hp hc hx⟩
      rw [collapse, ← hrest, htitle]
  · rintro ⟨htitle, hg⟩
    rw [hg]
    refine ⟨?_, rfl, rfl, rfl, rfl, rfl⟩
    rw [if_neg (show t.gist.rest ≠ [] from ht.title)]
    exact htitle

end WellFormed

end Task

end TaskCapture
