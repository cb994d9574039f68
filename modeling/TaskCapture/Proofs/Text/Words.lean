import Mathlib
import TaskCapture.Proofs.Text.Split
import TaskCapture.Text.Words

/-!
Words and the text between them. A blank cuts the words of a text in two, whatever stands around
it; what a text says word by word depends on its words alone.
-/

namespace TaskCapture.Text

/-- What a word is: not empty, and without blanks. -/
def Solid (w : Text) : Prop := w ≠ [] ∧ ∀ c ∈ w, isBlank c = false

lemma startsSolid_append_blank {b : Char} (hb : isBlank b = true) (s t : Text) :
    startsSolid (s ++ b :: t) = startsSolid s := by
  cases s with
  | nil => simp [startsSolid, hb]
  | cons c s => rfl

/-- **A blank cuts the words.** -/
theorem words_append_blank {b : Char} (hb : isBlank b = true) (s t : Text) :
    words (s ++ b :: t) = words s ++ words t := by
  induction s with
  | nil => simp [words_cons_blank hb]
  | cons c s ih =>
    rw [List.cons_append, words, words, startsSolid_append_blank hb, ih]
    split_ifs with hc hs
    · rfl
    · obtain ⟨w, ws, hw⟩ := List.exists_cons_of_ne_nil (words_ne_nil hs)
      simp [hw]
    · rfl

/-- Blanks at the end do not count. -/
lemma words_append_blanks {t : Text} (ht : ∀ c ∈ t, isBlank c = true) (s : Text) :
    words (s ++ t) = words s := by
  induction t generalizing s with
  | nil => simp
  | cons c t ih =>
    have h := ih (fun d hd => ht d (by simp [hd])) []
    rw [words_append_blank (ht c (by simp)), ← List.nil_append t, h]
    simp

/-- Blanks at the start do not count. -/
lemma words_blanks_append {s : Text} (hs : ∀ c ∈ s, isBlank c = true) (t : Text) :
    words (s ++ t) = words t := by
  induction s with
  | nil => rfl
  | cons c s ih =>
    rw [List.cons_append, words_cons_blank (hs c (by simp)), ih fun d hd => hs d (by simp [hd])]

lemma isBlank_of_mem_spaces {n : ℕ} {c : Char} (h : c ∈ List.replicate n ' ') :
    isBlank c = true := by
  rw [List.eq_of_mem_replicate h, isBlank_space]

/-- A run of blanks cuts the words as one blank does. -/
lemma words_append_blanks_append {b : Text} (hne : b ≠ []) (hb : ∀ c ∈ b, isBlank c = true)
    (s t : Text) : words (s ++ b ++ t) = words s ++ words t := by
  obtain ⟨c, b, rfl⟩ := List.exists_cons_of_ne_nil hne
  rw [List.append_assoc, List.cons_append, words_append_blank (hb c (by simp)),
    words_blanks_append fun d hd => hb d (by simp [hd])]

lemma words_of_solid {w : Text} (h : Solid w) : words w = [w] := by
  obtain ⟨hne, hw⟩ := h
  induction w with
  | nil => exact absurd rfl hne
  | cons c w ih =>
    have hc := hw c (by simp)
    rw [words, hc]
    cases w with
    | nil => simp [startsSolid]
    | cons d w =>
      have hd : isBlank d = false := hw d (by simp)
      have hs : startsSolid (d :: w) = true := by simp [startsSolid, hd]
      rw [if_neg (by simp), if_pos hs, ih (by simp) fun a ha => hw a (by simp [ha])]
      simp

lemma words_ne_nil_of_mem {t : Text} {c : Char} (h : c ∈ t) (hc : isBlank c = false) :
    words t ≠ [] := by
  induction t with
  | nil => simp at h
  | cons d t ih =>
    cases hd : isBlank d with
    | false => exact words_ne_nil (by simp [startsSolid, hd])
    | true =>
      rw [words_cons_blank hd]
      rcases List.mem_cons.1 h with rfl | h
      · rw [hc] at hd
        cases hd
      · exact ih h

lemma Solid.append {v w : Text} (hv : Solid v) (hw : Solid w) : Solid (v ++ w) := by
  refine ⟨by simp [hv.1], fun c hc => ?_⟩
  rcases List.mem_append.1 hc with hc | hc
  · exact hv.2 c hc
  · exact hw.2 c hc

/-! ### Going through a text word by word -/

/-- A text is blank, or a word, or begins with a blank or with a word and a blank. -/
theorem induction_words {motive : Text → Prop} (nil : motive [])
    (blank : ∀ c t, isBlank c = true → motive t → motive (c :: t))
    (word : ∀ w, Solid w → motive w)
    (cons : ∀ w c t, Solid w → isBlank c = true → motive t → motive (w ++ c :: t))
    (t : Text) : motive t := by
  obtain ⟨n, hn⟩ : ∃ n, t.length = n := ⟨_, rfl⟩
  induction n using Nat.strong_induction_on generalizing t with
  | _ n ih =>
    cases t with
    | nil => exact nil
    | cons c t =>
      cases hc : isBlank c with
      | true => exact blank c t hc (ih t.length (by simp [← hn]) t rfl)
      | false =>
        have hw : ∀ d ∈ (c :: t).takeWhile (!isBlank ·), isBlank d = false := fun d hd => by
          simpa using List.mem_takeWhile_imp hd
        have hne : (c :: t).takeWhile (!isBlank ·) ≠ [] := by simp [hc]
        have hsplit := List.takeWhile_append_dropWhile (p := (!isBlank ·)) (l := c :: t)
        cases hd : (c :: t).dropWhile (!isBlank ·) with
        | nil =>
          rw [hd, List.append_nil] at hsplit
          rw [← hsplit]
          exact word _ ⟨hne, hw⟩
        | cons b r =>
          have hb : isBlank b = true := by
            have := List.head_dropWhile_not (p := (!isBlank ·)) (l := c :: t) (by simp [hd])
            simpa [hd] using this
          rw [hd] at hsplit
          have hlen := congrArg List.length hsplit
          have hpos := List.length_pos_iff.2 hne
          simp only [List.length_append, List.length_cons] at hlen hn
          rw [← hsplit]
          exact cons _ b r ⟨hne, hw⟩ hb (ih r.length (by omega) r rfl)

lemma solid_of_mem_words {t w : Text} (h : w ∈ words t) : Solid w := by
  induction t using induction_words with
  | nil => simp at h
  | blank c t hc ih => exact ih (by rwa [words_cons_blank hc] at h)
  | word v hv =>
    rw [words_of_solid hv, List.mem_singleton] at h
    exact h ▸ hv
  | cons v c t hv hc ih =>
    rw [words_append_blank hc, words_of_solid hv, List.mem_append, List.mem_singleton] at h
    rcases h with rfl | h
    · exact hv
    · exact ih h

lemma length_le_of_mem_words {t w : Text} (h : w ∈ words t) : w.length ≤ t.length := by
  induction t using induction_words with
  | nil => simp at h
  | blank c t hc ih =>
    have := ih (by rwa [words_cons_blank hc] at h)
    simp
    omega
  | word v hv =>
    rw [words_of_solid hv, List.mem_singleton] at h
    rw [h]
  | cons v c t hv hc ih =>
    rw [words_append_blank hc, words_of_solid hv, List.mem_append, List.mem_singleton] at h
    rcases h with rfl | h
    · simp
    · have := ih h
      simp
      omega

/-! ### Putting words together -/

/-- Words with a space before each. -/
def spaced (ws : List Text) : Text := ws.flatMap (' ' :: ·)

@[simp] lemma spaced_nil : spaced [] = [] := rfl

@[simp] lemma spaced_cons (w : Text) (ws : List Text) : spaced (w :: ws) = ' ' :: w ++ spaced ws :=
  rfl

lemma spaced_append (us ws : List Text) : spaced (us ++ ws) = spaced us ++ spaced ws := by
  simp [spaced]

lemma words_append_spaced {ws : List Text} (h : ∀ w ∈ ws, Solid w) (s : Text) :
    words (s ++ spaced ws) = words s ++ ws := by
  induction ws generalizing s with
  | nil => simp
  | cons w ws ih =>
    have hw := words_of_solid (h w (by simp))
    rw [spaced_cons, ← List.append_assoc, ih fun v hv => h v (by simp [hv]),
      words_append_blank isBlank_space]
    simp [hw]

lemma intercalate_cons_eq (w : Text) (ws : List Text) :
    List.intercalate [' '] (w :: ws) = w ++ spaced ws :=
  intercalate_cons [' '] w ws

lemma words_intercalate {ws : List Text} (h : ∀ w ∈ ws, Solid w) :
    words (List.intercalate [' '] ws) = ws := by
  cases ws with
  | nil => rfl
  | cons w ws =>
    rw [intercalate_cons_eq, words_append_spaced fun v hv => h v (by simp [hv]),
      words_of_solid (h w (by simp))]
    rfl

/-- Collapsing a text keeps its words. -/
@[simp] lemma words_collapse (t : Text) : words (collapse t) = words t :=
  words_intercalate fun _ => solid_of_mem_words

lemma intercalate_eq_nil_iff {ws : List Text} (h : ∀ w ∈ ws, Solid w) :
    List.intercalate [' '] ws = [] ↔ ws = [] := by
  constructor
  · intro hn
    rw [← words_intercalate h, hn]
    rfl
  · rintro rfl
    rfl

lemma collapse_eq_nil_iff {t : Text} : collapse t = [] ↔ words t = [] :=
  intercalate_eq_nil_iff fun _ => solid_of_mem_words

/-! ### The ends of a text -/

lemma words_skipBlanks (t : Text) : words (skipBlanks t) = words t := by
  unfold skipBlanks
  induction t with
  | nil => rfl
  | cons c t ih =>
    rw [List.dropWhile_cons]
    split_ifs with hc
    · rw [ih, words_cons_blank hc]
    · rfl

/-- Trimming a text keeps its words. -/
lemma words_trim (t : Text) : words (trim t) = words t := by
  have hb : ∀ c ∈ ((skipBlanks t).reverse.takeWhile isBlank).reverse, isBlank c = true := by
    intro c hc
    exact List.mem_takeWhile_imp (List.mem_reverse.1 hc)
  have hsplit : trim t ++ ((skipBlanks t).reverse.takeWhile isBlank).reverse = skipBlanks t := by
    rw [trim, skipBlanks, ← List.reverse_append, List.takeWhile_append_dropWhile,
      List.reverse_reverse]
  rw [← words_skipBlanks t, ← hsplit, words_append_blanks hb]

/-- A text that is not empty, without blanks at its two ends. -/
structure Trimmed (t : Text) : Prop where
  ne_nil : t ≠ []
  head : ∀ c ∈ t.head?, isBlank c = false
  last : ∀ c ∈ t.getLast?, isBlank c = false

lemma isBlank_of_mem_head?_skipBlanks {t : Text} {c : Char} (h : c ∈ (skipBlanks t).head?) :
    isBlank c = false := by
  have := List.head?_dropWhile_not isBlank t
  rw [skipBlanks, Option.mem_def] at h
  rwa [h] at this

/-- A text with a word in it can be trimmed. -/
lemma trimmed_trim {t : Text} (h : words t ≠ []) : Trimmed (trim t) := by
  have hne : trim t ≠ [] := by
    intro hnil
    rw [← words_trim, hnil] at h
    exact h rfl
  refine ⟨hne, fun c hc => ?_, fun c hc => ?_⟩
  · -- trimming the end of a text leaves its first character
    have hprefix : trim t <+: skipBlanks t := by
      rw [← List.reverse_suffix, trim, List.reverse_reverse]
      exact List.dropWhile_suffix isBlank
    obtain ⟨r, hr⟩ := hprefix
    refine isBlank_of_mem_head?_skipBlanks (t := t) ?_
    rw [← hr, List.head?_append_of_ne_nil _ hne]
    exact hc
  · rw [trim, List.getLast?_reverse] at hc
    exact isBlank_of_mem_head?_skipBlanks hc

lemma Solid.trimmed {w : Text} (h : Solid w) : Trimmed w :=
  ⟨h.1, fun c hc => h.2 c (List.mem_of_mem_head? hc), fun c hc => h.2 c (List.mem_of_getLast? hc)⟩

/-- Words on one line have no blanks around them. -/
lemma trimmed_intercalate {ws : List Text} (hne : ws ≠ []) (h : ∀ w ∈ ws, Solid w) :
    Trimmed (List.intercalate [' '] ws) := by
  induction ws with
  | nil => exact absurd rfl hne
  | cons w ws ih =>
    have hw := (h w (by simp)).trimmed
    cases ws with
    | nil => simpa [List.intercalate] using hw
    | cons v ws =>
      have hvs := ih (by simp) fun u hu => h u (by simp [hu])
      rw [List.intercalate_cons_cons]
      refine ⟨by simp [hw.ne_nil], fun c hc => ?_, fun c hc => ?_⟩
      · rw [List.head?_append_of_ne_nil _ (by simp), List.head?_append_of_ne_nil _ hw.ne_nil] at hc
        exact hw.head c hc
      · rw [List.getLast?_append_of_ne_nil _ hvs.ne_nil] at hc
        exact hvs.last c hc

/-! ### Characters that are not blank -/

/-- A text without its blanks. -/
def visible (t : Text) : Text := t.filter (!isBlank ·)

@[simp] lemma visible_append (s t : Text) : visible (s ++ t) = visible s ++ visible t :=
  List.filter_append s t

lemma visible_cons_blank {c : Char} (hc : isBlank c = true) (t : Text) :
    visible (c :: t) = visible t := by simp [visible, hc]

lemma visible_cons {c : Char} (hc : isBlank c = false) (t : Text) :
    visible (c :: t) = c :: visible t := by simp [visible, hc]

lemma visible_of_solid {w : Text} (h : Solid w) : visible w = w :=
  List.filter_eq_self.2 fun c hc => by simp [h.2 c hc]

lemma flatten_words (t : Text) : (words t).flatten = visible t := by
  induction t using induction_words with
  | nil => rfl
  | blank c t hc ih => rw [words_cons_blank hc, visible_cons_blank hc, ih]
  | word w hw => simp [words_of_solid hw, visible_of_solid hw]
  | cons w c t hw hc ih =>
    rw [words_append_blank hc, words_of_solid hw, visible_append, visible_cons_blank hc, ← ih,
      visible_of_solid hw]
    simp

/-- Collapsing a text changes its blanks only. -/
@[simp] lemma visible_collapse (t : Text) : visible (collapse t) = visible t := by
  rw [← flatten_words, ← flatten_words, words_collapse]

end TaskCapture.Text
