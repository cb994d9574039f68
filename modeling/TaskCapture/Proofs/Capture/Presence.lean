import TaskCapture.Capture.Presence
import TaskCapture.Proofs.Capture.Invariant
import TaskCapture.Proofs.Capture.TagPasses
import TaskCapture.Proofs.Capture.TagPlaces

/-!
The quick look at a line. It is taken at the line as it was typed, while tags are found in what the
steps before have left; but each of those tags stands in the line itself, so the look misses none.
-/

namespace TaskCapture

open Text

namespace Tag

/-- A sigil with a name after it makes a tag, wherever it stands: of it or of one around it. -/
lemma occurs_of_infix {k : TagKind} {n t : Text} (hn : IsName n) (h : k.sigil :: n <:+: t) :
    occurs k t = true := by
  obtain ⟨d, r, rfl⟩ := List.exists_cons_of_ne_nil hn.1
  obtain ⟨a, b, rfl⟩ := h
  by_contra hno
  have hnames : names (pieces k (a ++ k.sigil :: d :: r ++ b)) = [] := by
    simpa [occurs] using hno
  rw [names_pieces_eq_nil_iff] at hnames
  have hchain : (k.sigil :: d :: r).IsChain fun c d => ¬ (c = k.sigil ∧ isTagChar d = true) :=
    hnames.left_of_append.right_of_append
  exact (List.isChain_cons_cons.1 hchain).1 ⟨rfl, hn.2 d (by simp)⟩

lemma extract_of_not_occurs {k : TagKind} {t : Text} (h : occurs k t = false) :
    extract k t = ([], t) := extract_of_names_nil (by simpa [occurs] using h)

end Tag

/-- A tag that is found in a line without its marker stands in the line. -/
lemma occurs_of_tags_ne_nil {resolve : Resolver} {ref : Instant} {input : Text} {k : TagKind}
    (h : (interpret resolve ref input).tags k ≠ []) : Tag.occurs k input = true := by
  rw [tags_interpret] at h
  obtain ⟨n, hn⟩ := List.exists_mem_of_ne_nil _ (List.map_eq_nil_iff.not.1 h)
  obtain ⟨w, hw, hn⟩ := List.mem_flatMap.1 hn
  exact Tag.occurs_of_infix (Tag.isName_of_mem_names hn)
    ((Tag.infix_of_mem_names hn).trans (Priority.infix_of_mem_outOf hw))

lemma hasTokens_eq_false {t : Text} (h : hasTokens t = false) :
    Priority.find? t = none ∧ ∀ k, Tag.occurs k t = false := by
  simp only [hasTokens, Bool.or_eq_false_iff, Option.isSome_eq_false_iff, Option.isNone_iff_eq_none]
    at h
  obtain ⟨⟨⟨hcategory, hcontext⟩, hmarker⟩, -⟩ := h
  refine ⟨hmarker, fun k => ?_⟩
  cases k with
  | category => exact hcategory
  | context => exact hcontext

/-- **The quick look misses no marker.** A line that is read as a task with a priority or a tag is
seen to hold something, whatever finds the dates. Where nothing is seen, the steps that look for the
priority, the categories and the contexts all leave the line as it is, to the last blank. -/
theorem hasTokens_of_interpret (resolve : Resolver) (ref : Instant) (input : Text) :
    ((interpret resolve ref input).priority ≠ none ∨ (interpret resolve ref input).categories ≠ [] ∨
        (interpret resolve ref input).contexts ≠ [] → hasTokens input = true) ∧
      (hasTokens input = false →
        let p := Priority.extract input
        let c := Tag.extract .category p.2
        let x := Tag.extract .context c.2
        p = (none, input) ∧ c = ([], input) ∧ x = ([], input)) := by
  constructor
  · intro hfound
    by_contra hno
    obtain ⟨hmarker, htags⟩ := hasTokens_eq_false (by simpa using hno)
    have hnone : ∀ k, ¬ (interpret resolve ref input).tags k ≠ [] := fun k hk => by
      have hoccurs := occurs_of_tags_ne_nil hk
      rw [htags k] at hoccurs
      cases hoccurs
    rcases hfound with hp | hc | hx
    · exact hp (congrArg Prod.fst (Priority.extract_of_find?_none hmarker))
    · exact hnone .category hc
    · exact hnone .context hx
  · intro hno
    obtain ⟨hmarker, htags⟩ := hasTokens_eq_false hno
    have hp := Priority.extract_of_find?_none hmarker
    have hc := Tag.extract_of_not_occurs (htags .category)
    have hx := Tag.extract_of_not_occurs (htags .context)
    simp only [hp, hc, hx, and_self]

/-- A marker in the place of a tag's name, and a line of which only blanks could be lost. -/
theorem hasTokens_of_interpret_of_plan :
    let ref : Instant := ⟨⟨2025, 3, 5, by decide, by decide, by decide, by decide⟩, .noon⟩
    let input := "Plan#trip-p2x@p3".toList
    let plain := "  C#  and\tp5! ".toList
    (interpret Resolver.english ref input).priority = some .medium ∧
      (interpret Resolver.english ref input).categories = ["trip-p2x".toList] ∧
      (interpret Resolver.english ref input).contexts = [] ∧ hasTokens input = true ∧
      hasTokens plain = false ∧
        let p := Priority.extract plain
        let c := Tag.extract .category p.2
        p = (none, plain) ∧ c = ([], plain) ∧ Tag.extract .context c.2 = ([], plain) := by
  intro ref input plain
  have hcategories : (interpret Resolver.english ref input).categories = ["trip-p2x".toList] := by
    decide +kernel
  have hfound : (interpret Resolver.english ref input).categories ≠ [] := by simp [hcategories]
  have hplain : hasTokens plain = false := by decide +kernel
  exact ⟨by decide +kernel, hcategories, by decide +kernel,
    (hasTokens_of_interpret Resolver.english ref input).1 (.inr (.inl hfound)), hplain,
    (hasTokens_of_interpret Resolver.english ref plain).2 hplain⟩

end TaskCapture
