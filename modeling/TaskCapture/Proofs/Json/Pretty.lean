import TaskCapture.Proofs.Json.Compact

/-!
What is laid out over several lines is a JSON text of the value too: the line breaks and the blanks
after them stand where a gap may be.
-/

namespace TaskCapture.Json

lemma gap_newLine (level : ℕ) : Gap (newLine level) := by
  intro c hc
  rcases List.mem_cons.1 hc with rfl | hc
  · decide
  · rw [List.eq_of_mem_replicate hc]
    decide

section

variable {P : Text → Json → Prop}

/-- The last item stands before the line break of the closing mark. -/
lemma series_prettyList {level : ℕ} {vs : List Json} (hne : vs ≠ []) {g : Text} (hg : Gap g)
    (h : ∀ v ∈ vs, P (v.pretty level) v) : Series (Element P) (prettyList level vs ++ g) vs := by
  induction vs with
  | nil => exact absurd rfl hne
  | cons v vs ih =>
    have hv := h v (by simp)
    cases vs with
    | nil => exact .one (.mk (gap_newLine level) hv hg)
    | cons w vs =>
      have helement : Element P (newLine level ++ v.pretty level) v := by
        simpa using Element.mk (gap_newLine level) hv gap_nil
      have hrest := ih (by simp) fun u hu => h u (by simp [hu])
      have hlist : prettyList level (v :: w :: vs) =
          newLine level ++ v.pretty level ++ ',' :: prettyList level (w :: vs) := rfl
      rw [hlist, List.append_assoc, List.cons_append]
      exact .cons helement hrest

/-- A blank stands between a colon and the value. -/
lemma member_pretty {level : ℕ} {k g : Text} {v : Json} (hg : Gap g) (h : P (v.pretty level) v) :
    Member P (newLine level ++ quoted k ++ ": ".toList ++ v.pretty level ++ g) (k, v) := by
  have hblank : Gap [' '] := by simp [Gap, isGap]
  simpa using Member.mk (gap_newLine level) (stringFor_quoted k) gap_nil (.mk hblank h hg)

lemma series_prettyMembers {level : ℕ} {ms : List (Text × Json)} (hne : ms ≠ []) {g : Text}
    (hg : Gap g) (h : ∀ m ∈ ms, P (m.2.pretty level) m.2) :
    Series (Member P) (prettyMembers level ms ++ g) ms := by
  induction ms with
  | nil => exact absurd rfl hne
  | cons m ms ih =>
    obtain ⟨k, v⟩ := m
    have hv := h (k, v) (by simp)
    cases ms with
    | nil => exact .one (member_pretty hg hv)
    | cons m ms =>
      have hmember := member_pretty (k := k) gap_nil hv
      have hrest := ih (by simp) fun u hu => h u (by simp [hu])
      rw [List.append_nil] at hmember
      have hlist : prettyMembers level ((k, v) :: m :: ms) =
          newLine level ++ quoted k ++ ": ".toList ++ v.pretty level ++
            ',' :: prettyMembers level (m :: ms) := rfl
      rw [hlist, List.append_assoc, List.cons_append]
      exact .cons hmember hrest

end

/-- **What is laid out stands for the value that was written.** -/
theorem valueFor_pretty {depth : ℕ} {v : Json} (h : Writable depth v) (level : ℕ) :
    ValueFor depth (v.pretty level) v := by
  induction depth generalizing v level with
  | zero =>
    have hscalar := scalar_compact h
    cases v with
    | arr vs => exact h.elim
    | obj ms => exact h.elim
    | _ => exact hscalar
  | succ depth ih =>
    cases v with
    | null => exact .inl (scalar_compact (v := .null) trivial)
    | bool b => exact .inl (scalar_compact (v := .bool b) trivial)
    | int n => exact .inl (scalar_compact (v := .int n) h)
    | real t => exact .inl (scalar_compact (v := .real t) h)
    | str s => exact .inl (scalar_compact (v := .str s) trivial)
    | arr vs =>
      refine .inr ?_
      cases vs with
      | nil => exact .noElements gap_nil
      | cons v vs =>
        rw [pretty, List.cons_append]
        exact .elements (series_prettyList (by simp) (gap_newLine level)
          fun u hu => ih (h u hu) (level + 1))
    | obj ms =>
      refine .inr ?_
      cases ms with
      | nil => exact .noMembers gap_nil
      | cons m ms =>
        rw [pretty, List.cons_append]
        exact .members (series_prettyMembers (by simp) (gap_newLine level)
          fun u hu => ih (h u hu) (level + 1))

/-- **What is laid out is read back.** -/
theorem read?_pretty {v : Json} (h : Writable maxDepth v) : read? (v.pretty 0) = some v :=
  read?_of_document (element_of (valueFor_pretty h 0))

end TaskCapture.Json
