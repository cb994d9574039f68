import TaskCapture.Proofs.Settings.Missing

/-!
Contexts around a fault. A file that the disk did not find counts as missing under any contexts. By
its words a fault counts as such only while nothing is put around it, for a context hides the text
under it; so the first context can change the answer, and no later one does.
-/

namespace TaskCapture.Fault

/-- The fault in more contexts, the outermost first. -/
def withinAll (f : Fault) (cs : List Text) : Fault := cs.foldr (fun c f => f.within c) f

variable {f : Fault} {c : Text}

@[simp] lemma cause_within (f : Fault) (c : Text) : (f.within c).cause = f.cause := rfl

@[simp] lemma withinAll_cons (f : Fault) (c : Text) (cs : List Text) :
    f.withinAll (c :: cs) = (f.withinAll cs).within c := rfl

@[simp] lemma cause_withinAll (f : Fault) (cs : List Text) : (f.withinAll cs).cause = f.cause := by
  induction cs with
  | nil => rfl
  | cons c cs ih => rw [withinAll_cons, cause_within, ih]

lemma isMissing_iff : f.isMissing ↔ missingText <:+: f.text ∨ f.cause = .disk .notFound := by
  rw [isMissing, Bool.or_eq_true, occursIn_iff, beq_iff_eq]

/-- In a context without the words, only the disk can say that something is missing. -/
lemma isMissing_within (hc : ¬ missingText <:+: c) :
    (f.within c).isMissing ↔ f.cause = .disk .notFound := by
  rw [isMissing_iff, text_within, cause_within]
  exact or_iff_right hc

lemma isMissing_within_eq_iff_of_text (hc : ¬ missingText <:+: c) :
    (f.within c).isMissing = f.isMissing ↔
      (missingText <:+: f.text → f.cause = .disk .notFound) := by
  rw [Bool.eq_iff_iff, isMissing_within hc, isMissing_iff]
  tauto

/-- A fault whose own text decides nothing is judged alike in any number of contexts. -/
lemma isMissing_withinAll (h : missingText <:+: f.text → f.cause = .disk .notFound) {cs : List Text}
    (hcs : ∀ c ∈ cs, ¬ missingText <:+: c) : (f.withinAll cs).isMissing = f.isMissing := by
  cases cs with
  | nil => rfl
  | cons c cs =>
    -- the outermost context is the only one whose text is looked at
    have hc := hcs c (by simp)
    calc ((f.withinAll cs).within c).isMissing
        = (f.within c).isMissing := by
          rw [Bool.eq_iff_iff, isMissing_within hc, isMissing_within hc, cause_withinAll]
      _ = f.isMissing := (isMissing_within_eq_iff_of_text hc).2 h

/-- **What a context does to the answer.** Put into a context that does not have the words of the
missing file, a fault counts as that of a missing file just if the disk did not find something. So
it is judged as before, unless the words stand in its outermost text and the disk has no part in it.
More such contexts change nothing more. -/
theorem isMissing_within_eq_iff (f : Fault) {c : Text} (hc : ¬ missingText <:+: c) :
    ((f.within c).isMissing = f.isMissing ↔
      (missingText <:+: f.text → f.cause = .disk .notFound)) ∧
    ((f.within c).isMissing ↔ f.cause = .disk .notFound) ∧
    ∀ cs : List Text, (∀ c ∈ cs, ¬ missingText <:+: c) →
      ((f.within c).withinAll cs).isMissing = (f.within c).isMissing :=
  ⟨isMissing_within_eq_iff_of_text hc, isMissing_within hc,
    fun _ hcs => isMissing_withinAll (fun hw => absurd (text_within f c ▸ hw) hc) hcs⟩

/-- A directory that is not found is told in one more context. -/
theorem isMissing_within_eq_iff_of_directory :
    let f : Fault := { cause := .disk .notFound, contexts := ["Failed to create directory".toList] }
    let c : Text := "At the start".toList
    ¬ missingText <:+: c ∧ f.isMissing = true ∧ (f.within c).isMissing = true := by
  intro f c
  have hc : ¬ missingText <:+: c := by decide
  have hsame := (isMissing_within_eq_iff f hc).1.2 fun _ => rfl
  exact ⟨hc, by decide, hsame.trans (by decide)⟩

/-- In a context the fault that the file is missing is one no more. -/
theorem isMissing_within_of_missing :
    let c : Text := "outer".toList
    ¬ missingText <:+: c ∧ Store.missing.isMissing = true ∧
      (Store.missing.within c).isMissing = false := by
  decide

end TaskCapture.Fault
