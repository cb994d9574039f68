import TaskCapture.Proofs.Capture.SecondReading

/-!
A tag put into a line. It is a word of its own, so no step takes it for anything else: the task
gains the one tag, at its place among the others, and keeps the rest.
-/

namespace TaskCapture

open Text

namespace Pattern

variable {α : Type} {p : Pattern α}

/-- A marker in the first words is taken out of them. -/
lemma takeOut_append_of_some {us vs : List Text} {v : α} (h : p.takeOut us = some (v, vs))
    (ws : List Text) : p.takeOut (us ++ ws) = some (v, vs ++ ws) := by
  obtain ⟨xs, w, k, ys, rfl, hclean, hw, rfl, rfl⟩ := takeOut_eq_some_iff.1 h
  apply takeOut_eq_some_iff.2
  exact ⟨xs, w, k, ys ++ ws, by simp, hclean, hw, rfl, by simp⟩

/-- A marker of the text that comes first is taken out of its words, whatever follows them. -/
lemma takeOut_words_append (hp : p.Local) {t : Text} {k : Cut α} (h : p.find? false t = some k)
    (ws : List Text) :
    p.takeOut (words t ++ ws) = some (k.value, words (k.before ++ ' ' :: k.after) ++ ws) := by
  apply takeOut_append_of_some
  rw [takeOut_words hp, h]
  rfl

/-- A marker of the text that comes last is taken out of its words, if there is none before. -/
lemma takeOut_append_words (hp : p.Local) {t : Text} {k : Cut α} (h : p.find? false t = some k)
    {ws : List Text} (hws : ∀ w ∈ ws, p.find? false w = none) :
    p.takeOut (ws ++ words t) = some (k.value, ws ++ words (k.before ++ ' ' :: k.after)) := by
  rw [takeOut_append_of_clean hws, takeOut_words hp, h]
  rfl

/-- The words of a text without a marker of the kind hold none. -/
lemma forall_words_of_find?_none (hp : p.Local) {t : Text} (h : p.find? false t = none) :
    ∀ w ∈ words t, p.find? false w = none := by
  rw [← takeOut_eq_none_iff, takeOut_words hp, h]
  rfl

end Pattern

namespace Priority

/-- What is left of `a` and of `b`, texts with a blank between them, when the deciding marker of
both together is taken out of the one that holds it. -/
inductive Parted (a b : Text) : Text → Text → Prop where
  | unmarked (h : find? (a ++ ' ' :: b) = none) : Parted a b a b
  | left {p : Priority} {x m y : Text} (h : find? (a ++ ' ' :: b) = some ⟨p, x, m, y ++ ' ' :: b⟩) :
    Parted a b (x ++ ' ' :: y) b
  | right {p : Priority} {x m y : Text}
    (h : find? (a ++ ' ' :: b) = some ⟨p, a ++ ' ' :: x, m, y⟩) : Parted a b a (x ++ ' ' :: y)

/-- The first kind that has a marker in some word decides. -/
lemma outOf_of_first {qs rs : List (Pattern Priority)} {q : Pattern Priority}
    (hps : patterns = qs ++ q :: rs) {ws vs : List Text} {p : Priority}
    (hqs : ∀ r ∈ qs, ∀ w ∈ ws, r.find? false w = none) (hq : q.takeOut ws = some (p, vs)) :
    outOf ws = (some p, vs) := by
  have htake : takeOut ws = some (p, vs) := by
    unfold takeOut
    rw [List.findSome?_eq_some_iff]
    exact ⟨qs, q, rs, hps, hq, fun r hr => Pattern.takeOut_eq_none_iff.2 (hqs r hr)⟩
  rw [outOf, htake]

/-- **Words without a marker come between**: they hide none that stands on either side of them. -/
theorem exists_parted (a b : Text) : ∃ a' b', Parted a b a' b' ∧
    ∀ xs : List Text, (∀ w ∈ xs, find? w = none) →
      outOf (words a ++ xs ++ words b) =
        ((find? (a ++ ' ' :: b)).map (·.value), words a' ++ xs ++ words b') := by
  have hwords : words (a ++ ' ' :: b) = words a ++ words b := words_append_blank isBlank_space a b
  -- a kind without a marker in the text has none in any of the words
  have hclean : ∀ {xs : List Text}, (∀ w ∈ xs, find? w = none) → ∀ q ∈ patterns,
      q.find? false (a ++ ' ' :: b) = none →
        ∀ w ∈ words a ++ xs ++ words b, q.find? false w = none := by
    intro xs hxs q hq hnone w hw
    have hall := Pattern.forall_words_of_find?_none (local_of_mem_patterns hq) hnone
    simp only [hwords, List.mem_append] at hall hw
    rcases hw with (hw | hw) | hw
    · exact hall w (.inl hw)
    · exact List.findSome?_eq_none_iff.1 (hxs w hw) q hq
    · exact hall w (.inr hw)
  cases hfind : find? (a ++ ' ' :: b) with
  | none =>
    refine ⟨a, b, .unmarked hfind, fun xs hxs => ?_⟩
    have hnone : takeOut (words a ++ xs ++ words b) = none := by
      apply List.findSome?_eq_none_iff.2
      intro q hq
      apply Pattern.takeOut_eq_none_iff.2
      exact hclean hxs q hq (List.findSome?_eq_none_iff.1 hfind q hq)
    rw [outOf, hnone]
    rfl
  | some c =>
    obtain ⟨qs, q, rs, hps, hq, hqs⟩ := List.findSome?_eq_some_iff.1 hfind
    have hmem : ∀ r ∈ qs ++ [q], r ∈ patterns := by
      intro r hr
      rw [hps]
      simp only [List.mem_append, List.mem_cons] at hr ⊢
      tauto
    have hlocal := local_of_mem_patterns (hmem q (by simp))
    have hbefore : ∀ {xs : List Text}, (∀ w ∈ xs, find? w = none) →
        ∀ r ∈ qs, ∀ w ∈ words a ++ xs ++ words b, r.find? false w = none := fun hxs r hr =>
      hclean hxs r (hmem r (by simp [hr])) (hqs r hr)
    cases ha : q.find? false a with
    | some k =>
      -- the marker lies in `a`
      obtain rfl : c = { k with after := k.after ++ ' ' :: b } := by
        rw [Pattern.find?_append_of_some hlocal isBlank_space ha] at hq
        exact (Option.some.inj hq).symm
      refine ⟨k.before ++ ' ' :: k.after, b, .left hfind, fun xs hxs => ?_⟩
      apply outOf_of_first hps (hbefore hxs)
      rw [List.append_assoc, List.append_assoc]
      exact Pattern.takeOut_words_append hlocal ha _
    | none =>
      obtain ⟨k, hb, rfl⟩ : ∃ k, q.find? false b = some k ∧
          { k with before := a ++ ' ' :: k.before } = c := by
        rw [Pattern.find?_append_of_none hlocal isBlank_space ha] at hq
        exact Option.map_eq_some_iff.1 hq
      refine ⟨a, k.before ++ ' ' :: k.after, .right hfind, fun xs hxs => ?_⟩
      apply outOf_of_first hps (hbefore hxs)
      have hleft : ∀ w ∈ words a ++ xs, q.find? false w = none := by
        intro w hw
        rcases List.mem_append.1 hw with hw | hw
        · exact Pattern.forall_words_of_find?_none hlocal ha w hw
        · exact List.findSome?_eq_none_iff.1 (hxs w hw) q (hmem q (by simp))
      exact Pattern.takeOut_append_words hlocal hb hleft

end Priority

namespace Task

/-- The tags of one kind that a text without a marker gives to a task. Contexts are looked for once
the categories are out. -/
def tagsIn (s : Text) : TagKind → List Text
  | .category => (Tag.extract .category s).1
  | .context => (Tag.extract .context (Tag.extract .category s).2).1

end Task

namespace Tag

variable {k j : TagKind} {n : Text}

/-- The word of a tag holds no marker but those of its name. -/
lemma find?_tagWord (hn : IsName n) (hp : Priority.find? n = none) :
    Priority.find? (k.sigil :: n) = none := by
  have hmem : k.sigil :: n ∈ tagWords k [n] := List.mem_singleton_self _
  apply Priority.unmarked_of_mem_tagWords (p := none) _ _ hmem
  · simpa using hn
  · simpa using Priority.find?_shorthand_of_unmarked hp

lemma namesIn_tagWord (hn : IsName n) : namesIn k [k.sigil :: n] = [n] := by
  simp [namesIn, names, pieces_sigil_name hn]

lemma without_tagWord (hn : IsName n) : without k [k.sigil :: n] = [] := by
  simp [without, rest, pieces_sigil_name hn]

/-- A tag of the other kind is looked over. -/
lemma namesIn_tagWord_of_ne (hj : j ≠ k) (hn : IsName n) : namesIn j [k.sigil :: n] = [] :=
  namesIn_of_not_mem (by simpa using sigil_not_mem_tagWord hj hn)

lemma without_tagWord_of_ne (hj : j ≠ k) (hn : IsName n) :
    without j [k.sigil :: n] = [k.sigil :: n] :=
  without_of_namesIn_nil (by simpa using solid_tagWord hn) (namesIn_tagWord_of_ne hj hn)

end Tag

namespace Gist

variable {k : TagKind} {n : Text}

/-- The tags of one kind in words without a marker. -/
def tagsOf (ws : List Text) : TagKind → List Text
  | .category => (Tag.namesIn .category ws).map lower
  | .context => (Tag.namesIn .context (Tag.without .category ws)).map lower

lemma tagsOf_append (us vs : List Text) (k : TagKind) :
    tagsOf (us ++ vs) k = tagsOf us k ++ tagsOf vs k := by
  cases k <;> simp [tagsOf, Tag.namesIn_append, Tag.without_append]

lemma tagsOf_words (s : Text) (k : TagKind) : tagsOf (words s) k = Task.tagsIn s k := by
  obtain ⟨hc, hcw⟩ := Prod.ext_iff.1 (Tag.extract_words .category s)
  cases k with
  | category => exact hc.symm
  | context =>
    obtain ⟨hx, -⟩ := Prod.ext_iff.1 (Tag.extract_words .context (Tag.extract .category s).2)
    dsimp only at hcw hx
    rw [hcw] at hx
    exact hx.symm

/-- The word of a tag holds that tag, and none of the other kind. -/
lemma tagsOf_tagWord (hn : Tag.IsName n) (j : TagKind) :
    tagsOf [k.sigil :: n] j = if j = k then [lower n] else [] := by
  cases j with
  | category =>
    cases k with
    | category => simp [tagsOf, Tag.namesIn_tagWord hn]
    | context => simp [tagsOf, Tag.namesIn_tagWord_of_ne (j := .category) (k := .context) nofun hn]
  | context =>
    cases k with
    | category => simp [tagsOf, Tag.without_tagWord hn, Tag.namesIn]
    | context =>
      rw [tagsOf, Tag.without_tagWord_of_ne (by decide) hn, Tag.namesIn_tagWord hn]
      rfl

/-- What is left once all tags are out. -/
def untagged (ws : List Text) : List Text := Tag.without .context (Tag.without .category ws)

lemma untagged_append (us vs : List Text) : untagged (us ++ vs) = untagged us ++ untagged vs := by
  simp [untagged, Tag.without_append]

/-- Nothing is left of the word of a tag. -/
lemma untagged_tagWord (hn : Tag.IsName n) : untagged [k.sigil :: n] = [] := by
  cases k with
  | category =>
    rw [untagged, Tag.without_tagWord hn]
    rfl
  | context => rw [untagged, Tag.without_tagWord_of_ne (by decide) hn, Tag.without_tagWord hn]

end Gist

/-- **What a line says once its marker is out**: the tags that are left, and then the date and the
title. -/
theorem interpret_of_outOf (ref : Instant) {input : Text} {v : Option Priority} {vs : List Text}
    (h : Priority.outOf (words input) = (v, vs)) :
    let t := interpret Resolver.english ref input
    let d := Phrase.outOf ref (Gist.untagged vs)
    t.priority = v ∧ (∀ k, t.tags k = Gist.tagsOf vs k) ∧ t.dueDate = d.1 ∧ t.dueTime = d.2.1 ∧
      (IsOwnTitle ref input ↔ d.2.2 = []) ∧
        (¬ IsOwnTitle ref input → t.title = List.intercalate [' '] d.2.2) := by
  intro t d
  have hgist : gistOf ref (words input) =
      ⟨d.2.2, d.1, d.2.1, v, Gist.tagsOf vs .category, Gist.tagsOf vs .context⟩ := by
    simp only [gistOf, h]
    rfl
  have ht : t = _ := interpret_eq_gistOf ref input
  rw [hgist] at ht
  have hown : IsOwnTitle ref input ↔ d.2.2 = [] := by rw [IsOwnTitle, words_leftOver, hgist]
  refine ⟨by rw [ht], fun k => ?_, by rw [ht], by rw [ht], hown, fun hne => ?_⟩
  · rw [ht]
    cases k <;> rfl
  · rw [hown] at hne
    simp only [ht, if_neg hne]

/-- **A tag put anywhere changes nothing else.** The task gains the one tag, after the tags of the
text before it and before those of the text after it. -/
theorem interpret_insert_tag (ref : Instant) (a b : Text) (k : TagKind) {n : Text}
    (hn : Tag.IsName n) (hp : Priority.find? n = none) :
    let t := interpret Resolver.english ref (a ++ ' ' :: k.sigil :: n ++ ' ' :: b)
    let t' := interpret Resolver.english ref (a ++ ' ' :: b)
    t.priority = t'.priority ∧ t.dueDate = t'.dueDate ∧ t.dueTime = t'.dueTime ∧
      (∀ j ≠ k, t.tags j = t'.tags j) ∧
      (∃ a' b', Priority.Parted a b a' b' ∧
        t.tags k = Task.tagsIn a' k ++ lower n :: Task.tagsIn b' k ∧
        t'.tags k = Task.tagsIn a' k ++ Task.tagsIn b' k) ∧
      (¬ IsOwnTitle ref (a ++ ' ' :: b) → t.title = t'.title) := by
  intro t t'
  have hwords : words (a ++ ' ' :: k.sigil :: n ++ ' ' :: b) =
      words a ++ [k.sigil :: n] ++ words b := by
    rw [words_append_blank isBlank_space, words_append_blank isBlank_space,
      words_of_solid (Tag.solid_tagWord hn)]
  have hwords' : words (a ++ ' ' :: b) = words a ++ [] ++ words b := by
    rw [words_append_blank isBlank_space, List.append_nil]
  obtain ⟨a', b', hparted, hout⟩ := Priority.exists_parted a b
  have h := hout [k.sigil :: n] (by simpa using Tag.find?_tagWord hn hp)
  have h' := hout [] (by simp)
  rw [← hwords] at h
  rw [← hwords'] at h'
  have hrest : Gist.untagged (words a' ++ [k.sigil :: n] ++ words b') =
      Gist.untagged (words a' ++ [] ++ words b') := by
    simp only [Gist.untagged_append, Gist.untagged_tagWord hn]
    rfl
  obtain ⟨hpriority, htags, hdate, htime, hown, htitle⟩ := interpret_of_outOf ref h
  obtain ⟨hpriority', htags', hdate', htime', hown', htitle'⟩ := interpret_of_outOf ref h'
  rw [hrest] at hdate htime hown htitle
  have hsplit : ∀ j, t.tags j =
      Task.tagsIn a' j ++ (if j = k then [lower n] else []) ++ Task.tagsIn b' j := by
    intro j
    rw [htags, Gist.tagsOf_append, Gist.tagsOf_append, Gist.tagsOf_tagWord hn, Gist.tagsOf_words,
      Gist.tagsOf_words]
  have hsplit' : ∀ j, t'.tags j = Task.tagsIn a' j ++ Task.tagsIn b' j := by
    intro j
    rw [htags', List.append_nil, Gist.tagsOf_append, Gist.tagsOf_words, Gist.tagsOf_words]
  refine ⟨hpriority.trans hpriority'.symm, hdate.trans hdate'.symm, htime.trans htime'.symm,
    fun j hj => ?_, ⟨a', b', hparted, ?_, hsplit' k⟩, fun hne => ?_⟩
  · rw [hsplit, hsplit', if_neg hj, List.append_nil]
  · rw [hsplit, if_pos rfl, List.append_assoc]
    rfl
  · have hne' : ¬ IsOwnTitle ref (a ++ ' ' :: k.sigil :: n ++ ' ' :: b) := by rwa [hown, ← hown']
    rw [htitle hne', htitle' hne]

/-- A tag between a date and its time, which are still read together. -/
theorem interpret_insert_tag_between_date_and_time :
    let ref : Instant := ⟨⟨2025, 3, 5, by decide, by decide, by decide, by decide⟩, .noon⟩
    let a := "Call Mom #home tomorrow".toList
    let b := "at 2pm !high #phone".toList
    let n := "Family".toList
    let t := interpret Resolver.english ref (a ++ ' ' :: TagKind.category.sigil :: n ++ ' ' :: b)
    let t' := interpret Resolver.english ref (a ++ ' ' :: b)
    Tag.IsName n ∧ Priority.find? n = none ∧ ¬ IsOwnTitle ref (a ++ ' ' :: b) ∧
      t.dueTime = t'.dueTime ∧ t'.dueTime = some "14:00".toList ∧ t.title = t'.title ∧
        t.categories = ["home".toList, "family".toList, "phone".toList] := by
  intro ref a b n t t'
  have hchars : n.all Tag.isTagChar = true := by decide
  have hn : Tag.IsName n := ⟨by decide, List.all_eq_true.1 hchars⟩
  have hp : Priority.find? n = none := by decide +kernel
  have hown : ¬ IsOwnTitle ref (a ++ ' ' :: b) := by decide +kernel
  obtain ⟨-, -, htime, -, -, htitle⟩ := interpret_insert_tag ref a b .category hn hp
  exact ⟨hn, hp, hown, htime, by decide +kernel, htitle hown, by decide +kernel⟩

end TaskCapture
