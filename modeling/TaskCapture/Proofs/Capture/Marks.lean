import TaskCapture.Proofs.Capture.Cover
import TaskCapture.Proofs.Capture.MarkerWords
import TaskCapture.Proofs.Capture.TagPlaces

/-!
The marks of a line before the date is looked for. Each holds whole characters, no two of them share
one, and at most one of them is the priority.
-/

namespace TaskCapture

open Text

namespace Priority

/-- The deciding marker holds whole characters. -/
lemma fits_of_find? {t : Text} {c : Cut Priority} (h : find? t = some c) : c.span.Fits t :=
  ⟨c.before, c.marker, c.after, eq_of_find? h, (solid_marker h).1, rfl⟩

end Priority

namespace Highlight

/-- The two share no byte. -/
def Apart (a b : Token) : Prop := a.span.overlaps b.span = false

instance (a b : Token) : Decidable (Apart a b) := inferInstanceAs (Decidable (_ = _))

lemma Apart.symm {a b : Token} (h : Apart a b) : Apart b a := by
  rwa [Apart, Span.overlaps_comm]

instance : Std.Symm Apart := ⟨fun _ _ => Apart.symm⟩

/-! ### Adding spans that lie across no mark -/

section

variable {kind : TokenKind} {marks : List Token} {spans : List Span}

lemma addFree_cons (kind : TokenKind) (marks : List Token) (s : Span) (spans : List Span) :
    addFree kind marks (s :: spans) = addFree kind
      (if ∀ m ∈ marks, Apart m ⟨kind, s⟩ then marks ++ [⟨kind, s⟩] else marks) spans := by
  rw [addFree, List.foldl_cons, ← addFree]
  congr 1
  by_cases h : ∃ m ∈ marks, m.span.overlaps s = true
  · rw [if_pos (by simpa using h), if_neg (by simpa [Apart] using h)]
  · rw [if_neg (by simpa using h), if_pos (by simpa [Apart] using h)]

/-- An argument along the spans: each is passed over, or added to marks that it lies apart from. -/
lemma addFree_induction {motive : List Token → Prop} (init : motive marks)
    (add : ∀ ms, ∀ s ∈ spans, motive ms → (∀ m ∈ ms, Apart m ⟨kind, s⟩) →
      motive (ms ++ [⟨kind, s⟩])) :
    motive (addFree kind marks spans) := by
  induction spans generalizing marks with
  | nil => exact init
  | cons s spans ih =>
    rw [addFree_cons]
    refine ih ?_ fun ms s' hs => add ms s' (List.mem_cons_of_mem s hs)
    split_ifs with h
    · exact add marks s List.mem_cons_self init h
    · exact init

lemma mem_addFree_of_mem {m : Token} (h : m ∈ marks) : m ∈ addFree kind marks spans :=
  addFree_induction (motive := (m ∈ ·)) h fun _ _ _ hm _ => List.mem_append_left _ hm

/-- A span that lies across neither a mark nor another span is added. -/
lemma mem_addFree_of_apart {s : Span} (hs : s ∈ spans) (hmarks : ∀ m ∈ marks, Apart m ⟨kind, s⟩)
    (hspans : ∀ r ∈ spans, r ≠ s → r.overlaps s = false) :
    ⟨kind, s⟩ ∈ addFree kind marks spans := by
  induction spans generalizing marks with
  | nil => cases hs
  | cons r spans ih =>
    rw [addFree_cons]
    by_cases hr : r = s
    · subst hr
      rw [if_pos hmarks]
      exact mem_addFree_of_mem (by simp)
    · refine ih ((List.mem_cons.1 hs).resolve_left (Ne.symm hr)) (fun m hm => ?_)
        fun x hx => hspans x (by simp [hx])
      split_ifs at hm with hfree
      · rcases List.mem_append.1 hm with hm | hm
        · exact hmarks m hm
        · obtain rfl := List.mem_singleton.1 hm
          exact hspans r (by simp) hr
      · exact hmarks m hm

lemma mem_or_of_mem_addFree {m : Token} (h : m ∈ addFree kind marks spans) :
    m ∈ marks ∨ m.kind = kind ∧ m.span ∈ spans := by
  revert h
  refine addFree_induction (motive := fun ms => m ∈ ms → _) Or.inl fun ms s hs ih _ hm => ?_
  rcases List.mem_append.1 hm with hm | hm
  · exact ih hm
  · obtain rfl := List.mem_singleton.1 hm
    exact .inr ⟨rfl, hs⟩

lemma pairwise_addFree (h : marks.Pairwise Apart) : (addFree kind marks spans).Pairwise Apart := by
  refine addFree_induction h fun ms s _ hms hs => ?_
  rw [List.pairwise_append]
  exact ⟨hms, List.pairwise_singleton _ _, by simpa using hs⟩

lemma countP_addFree {other : TokenKind} (h : kind ≠ other) :
    (addFree kind marks spans).countP (·.kind = other) = marks.countP (·.kind = other) := by
  refine addFree_induction (motive := fun ms => ms.countP (·.kind = other) = _) rfl
    fun ms s _ hms _ => ?_
  simp [List.countP_append, hms, h]

end

/-! ### The markers -/

/-- The kind of token that a tag makes. -/
def markOf : TagKind → TokenKind
  | .category => .category
  | .context => .context

variable {t : Text}

lemma mem_or_of_mem_markers {m : Token} (h : m ∈ markers t) :
    (∃ c, Priority.find? t = some c ∧ m = ⟨.priority, c.span⟩) ∨
      ∃ k, m.kind = markOf k ∧ m.span ∈ Tag.spans k 0 (Tag.pieces k t) := by
  rcases mem_or_of_mem_addFree h with h | ⟨hk, hs⟩
  · rcases mem_or_of_mem_addFree h with h | ⟨hk, hs⟩
    · obtain ⟨c, hc, rfl⟩ := List.mem_map.1 h
      exact .inl ⟨c, Option.mem_toList.1 hc, rfl⟩
    · exact .inr ⟨.category, hk, hs⟩
  · exact .inr ⟨.context, hk, hs⟩

lemma priority_mem_markers {c : Cut Priority} (h : Priority.find? t = some c) :
    ⟨.priority, c.span⟩ ∈ markers t :=
  mem_addFree_of_mem (mem_addFree_of_mem (by simp [h]))

/-- Every marker holds whole characters. -/
lemma fits_of_mem_markers {m : Token} (h : m ∈ markers t) : m.span.Fits t := by
  rcases mem_or_of_mem_markers h with ⟨c, hc, rfl⟩ | ⟨k, -, hs⟩
  · exact Priority.fits_of_find? hc
  · exact Tag.fits_of_mem_spans hs

/-- No two markers share a byte. -/
lemma pairwise_markers (t : Text) : (markers t).Pairwise Apart := by
  refine pairwise_addFree (pairwise_addFree ?_)
  cases Priority.find? t <;> simp

lemma kind_ne_of_mem_markers {m : Token} (h : m ∈ markers t) :
    m.kind ≠ .text ∧ m.kind ≠ .dueDate := by
  rcases mem_or_of_mem_markers h with ⟨c, -, rfl⟩ | ⟨k, hk, -⟩
  · exact ⟨nofun, nofun⟩
  · rw [hk]
    cases k <;> exact ⟨nofun, nofun⟩

lemma countP_priority_markers (t : Text) : (markers t).countP (·.kind = .priority) ≤ 1 := by
  rw [markers, countP_addFree (by decide), countP_addFree (by decide)]
  cases Priority.find? t <;> simp

end Highlight

end TaskCapture
