import TaskCapture.Phrase.Vocabulary
import TaskCapture.Proofs.Text.Words
import TaskCapture.Text.WordChar

/-!
The letter case of ASCII letters. Blanks, word characters, words and small letters are the same in
both cases, and so is the form in which a word of a phrase is compared.
-/

namespace TaskCapture.Text

/-! ### One character -/

lemma toLower_of_le {c : Char} (h : 128 ≤ c.toNat) : c.toLower = c := by
  have hc : ¬ (c.val ≥ 'A'.val ∧ c.val ≤ 'Z'.val) := by
    rintro ⟨-, hle⟩
    have : c.toNat ≤ 90 := hle
    omega
  rw [Char.toLower, dif_neg hc]

/-- A property of characters that both cases of each ASCII letter share. -/
lemma apply_toLower {β : Type} {f : Char → β}
    (h : ∀ n < 128, f (Char.ofNat n).toLower = f (Char.ofNat n)) (c : Char) :
    f c.toLower = f c := by
  rcases lt_or_ge c.toNat 128 with hlt | hge
  · simpa using h c.toNat hlt
  · rw [toLower_of_le hge]

@[simp] lemma isBlank_toLower (c : Char) : isBlank c.toLower = isBlank c :=
  apply_toLower (by decide +kernel) c

@[simp] lemma isWord_toLower (c : Char) : isWord c.toLower = isWord c :=
  apply_toLower (by decide +kernel) c

lemma isCased_toLower (c : Char) : isCased c.toLower = isCased c :=
  apply_toLower (by decide +kernel) c

lemma isCaseIgnorable_toLower (c : Char) : isCaseIgnorable c.toLower = isCaseIgnorable c :=
  apply_toLower (by decide +kernel) c

lemma lowerChar_toLower (c : Char) : lowerChar c.toLower = lowerChar c :=
  apply_toLower (by decide +kernel) c

/-- A character that is no letter has one form only. -/
lemma toLower_eq_iff {d : Char}
    (h : ∀ n < 128, (Char.ofNat n).toLower = d ↔ Char.ofNat n = d) (c : Char) :
    c.toLower = d ↔ c = d := by
  have hf : ∀ n < 128, decide ((Char.ofNat n).toLower = d) = decide (Char.ofNat n = d) :=
    fun n hn => decide_eq_decide.2 (h n hn)
  exact decide_eq_decide.1 (apply_toLower (f := fun c => decide (c = d)) hf c)

/-! ### Texts -/

/-- The text with the capitals of ASCII made small. -/
def foldCase (t : Text) : Text := t.map Char.toLower

@[simp] lemma foldCase_nil : foldCase [] = [] := rfl

@[simp] lemma foldCase_cons (c : Char) (t : Text) : foldCase (c :: t) = c.toLower :: foldCase t :=
  rfl

@[simp] lemma foldCase_append (s t : Text) : foldCase (s ++ t) = foldCase s ++ foldCase t :=
  List.map_append

/-- Two texts differ in the case of ASCII letters only. -/
def SameLetters (s t : Text) : Prop := foldCase s = foldCase t

instance (s t : Text) : Decidable (SameLetters s t) := inferInstanceAs (Decidable (_ = _))

@[simp] lemma startsWord_foldCase (t : Text) : startsWord (foldCase t) = startsWord t := by
  cases t <;> simp

lemma startsSolid_foldCase (t : Text) : startsSolid (foldCase t) = startsSolid t := by
  cases t <;> simp [startsSolid]

/-- The words keep their places. -/
lemma words_foldCase (t : Text) : words (foldCase t) = (words t).map foldCase := by
  induction t with
  | nil => rfl
  | cons c t ih =>
    rw [foldCase_cons, words, words, isBlank_toLower, startsSolid_foldCase, ih]
    split_ifs
    · rfl
    · cases words t <;> simp
    · simp

lemma foldCase_intercalate (ws : List Text) :
    foldCase (List.intercalate [' '] ws) = List.intercalate [' '] (ws.map foldCase) := by
  have hspaced : ∀ ws, foldCase (spaced ws) = spaced (ws.map foldCase) := fun ws => by
    induction ws with
    | nil => rfl
    | cons w ws ih => simp [ih]
  cases ws with
  | nil => rfl
  | cons w ws =>
    rw [List.map_cons, intercalate_cons_eq, intercalate_cons_eq, foldCase_append, hspaced]

lemma casedNext_foldCase (t : Text) : casedNext (foldCase t) = casedNext t := by
  induction t with
  | nil => rfl
  | cons c t ih =>
    rw [foldCase_cons, casedNext, casedNext, isCaseIgnorable_toLower, isCased_toLower, ih]

/-- A capital sigma is no letter of ASCII, and whether it is final does not hang on the case of the
letters around it. -/
lemma lowerFrom_foldCase (b : Bool) (t : Text) : lowerFrom b (foldCase t) = lowerFrom b t := by
  induction t generalizing b with
  | nil => rfl
  | cons c t ih =>
    have hsigma : decide (c.toLower.toNat = 0x3A3) = decide (c.toNat = 0x3A3) :=
      apply_toLower (f := fun c => decide (c.toNat = 0x3A3)) (by decide +kernel) c
    rw [foldCase_cons, lowerFrom, lowerFrom, casedNext_foldCase, isCaseIgnorable_toLower,
      isCased_toLower, lowerChar_toLower, ih]
    simp only [decide_eq_decide.1 hsigma]

/-- **Small letters come of either case.** -/
theorem lower_foldCase (t : Text) : lower (foldCase t) = lower t := lowerFrom_foldCase false t

end TaskCapture.Text

namespace TaskCapture.Phrase

open Text

lemma norm_foldCase (w : Text) : norm (foldCase w) = norm w := by
  have hclosing : isClosing ∘ Char.toLower = isClosing :=
    funext fun c => apply_toLower (f := isClosing) (by decide +kernel) c
  rw [norm, norm, foldCase, ← List.map_reverse, List.dropWhile_map, hclosing, ← List.map_reverse]
  exact lower_foldCase _

end TaskCapture.Phrase
