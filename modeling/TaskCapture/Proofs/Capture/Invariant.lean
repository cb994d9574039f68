import TaskCapture.Proofs.Capture.LineWords
import TaskCapture.Proofs.Capture.TagRest

/-!
What holds of every task that is read from a line, whatever finds the dates: its title is not empty
and neatly spaced, its time is an hour and a minute of a day that it names, and its tags stand in
the line. With English dates no tag is left in a title.
-/

namespace TaskCapture

open Text

/-! ### The words of the line -/

/-- A word is a part of its text. -/
lemma Text.infix_of_mem_words {t w : Text} (h : w ∈ words t) : w <:+: t := by
  induction t using induction_words with
  | nil => simp at h
  | blank c t hc ih =>
    rw [words_cons_blank hc] at h
    exact (ih h).trans (List.suffix_cons c t).isInfix
  | word v hv =>
    rw [words_of_solid hv, List.mem_singleton] at h
    exact h ▸ List.infix_rfl
  | cons v c t hv hc ih =>
    rw [words_append_blank hc, words_of_solid hv, List.mem_append, List.mem_singleton] at h
    rcases h with rfl | h
    · exact (List.prefix_append w _).isInfix
    · exact (ih h).trans ((List.suffix_cons c t).trans (List.suffix_append v _)).isInfix

/-- The words beside the marker are parts of the text as well. -/
lemma Priority.infix_of_mem_outOf {t w : Text} (h : w ∈ (outOf (words t)).2) : w <:+: t := by
  cases hf : find? t with
  | none =>
    rw [words_outOf_of_find?_none hf] at h
    exact infix_of_mem_words h
  | some c =>
    rw [words_outOf_of_find? hf, List.mem_append] at h
    rw [eq_of_find? hf]
    rcases h with h | h
    · rw [List.append_assoc]
      exact (infix_of_mem_words h).trans (List.prefix_append _ _).isInfix
    · exact (infix_of_mem_words h).trans (List.suffix_append _ _).isInfix

/-- **The tags of a task** are those of the line without its marker. Taking the categories out gives
and takes no context. -/
theorem tags_interpret (resolve : Resolver) (ref : Instant) (input : Text) (k : TagKind) :
    (interpret resolve ref input).tags k =
      (Tag.namesIn k (Priority.outOf (words input)).2).map lower := by
  obtain ⟨-, hpw⟩ := Prod.ext_iff.1 (Priority.extract_words input)
  obtain ⟨hc, hcw⟩ := Prod.ext_iff.1 (Tag.extract_words .category (Priority.extract input).2)
  obtain ⟨hx, -⟩ := Prod.ext_iff.1
    (Tag.extract_words .context (Tag.extract .category (Priority.extract input).2).2)
  dsimp only at hpw hc hcw hx
  rw [hpw] at hc hcw
  rw [hcw, Tag.namesIn_without, if_neg nofun] at hx
  cases k with
  | category => exact hc
  | context => exact hx

lemma Phrase.mem_of_mem_outOf {ref : Instant} {ws : List Text} {w : Text}
    (h : w ∈ (outOf ref ws).2.2) : w ∈ ws := by
  unfold outOf at h
  split at h
  · exact h
  · rcases List.mem_append.1 h with h | h
    · exact List.mem_of_mem_take h
    · exact List.mem_of_mem_drop h

/-- No tag stands in what the words of a line leave over. -/
lemma namesIn_rest_gistOf (ref : Instant) (ws : List Text) (k : TagKind) :
    Tag.namesIn k (gistOf ref ws).rest = [] := by
  have hnone : ∀ vs, Tag.namesIn k (Tag.without .context (Tag.without .category vs)) = [] := by
    intro vs
    cases k with
    | category => rw [Tag.namesIn_without, if_neg nofun, Tag.namesIn_without, if_pos rfl]
    | context => rw [Tag.namesIn_without, if_pos rfl]
  rw [Tag.namesIn_eq_nil_iff]
  exact fun w hw => Tag.namesIn_eq_nil_iff.1 (hnone _) w (Phrase.mem_of_mem_outOf hw)

/-! ### What a task is made of -/

/-- What a task keeps to that was read from the line `input`, of which `left` was left over. -/
structure Task.ReadFrom (input left : Text) (t : Task) : Prop where
  title_trimmed : Trimmed t.title
  /-- The title is the line itself where no word is left over, and else the words that are. -/
  title_eq : words left = [] ∧ t.title = trim input ∨
    words left ≠ [] ∧ t.title = List.intercalate [' '] (words left)
  due : ∀ s ∈ t.dueTime, t.dueDate.isSome = true ∧
    ∃ h m, h < 24 ∧ m < 60 ∧ s = padded 2 h ++ ':' :: padded 2 m
  /-- The line has the tag, in letters of either case. -/
  tags : ∀ k, ∀ n ∈ t.tags k, ∃ w, Tag.IsName w ∧ k.sigil :: w <:+: input ∧ n = lower w

/-- A time is taken out only with its date. -/
lemma time_takeDate (resolve : Resolver) (ref : Instant) (t : Text) :
    ∀ s ∈ (takeDate resolve ref t).time,
      (takeDate resolve ref t).date.isSome = true ∧ ∃ c : Clock, s = c.text := by
  intro s hs
  unfold takeDate at hs ⊢
  cases hm : resolve t ref with
  | none => simp [hm] at hs
  | some m =>
    cases hcut : around? t m.span with
    | none => simp [hm, hcut] at hs
    | some cut =>
      simp only [hm, hcut, Option.mem_def] at hs ⊢
      split_ifs at hs
      cases hs
      exact ⟨rfl, _, rfl⟩

/-- **What every task keeps to.** A line with a character that is not blank is read as a task of
this form, whatever finds the date. With English dates the title holds no tag unless it is the line
itself. -/
theorem interpret_readFrom (resolve : Resolver) (ref : Instant) {input : Text}
    (h : ∃ c ∈ input, isBlank c = false) :
    (interpret resolve ref input).ReadFrom input (leftOver resolve ref input) ∧
      (¬ IsOwnTitle ref input →
        ∀ k, Tag.occurs k (interpret Resolver.english ref input).title = false) := by
  have hwords : words input ≠ [] := by
    obtain ⟨c, hc, hb⟩ := h
    exact words_ne_nil_of_mem hc hb
  obtain ⟨left, hleft⟩ : ∃ left, left = leftOver resolve ref input := ⟨_, rfl⟩
  have htitle : words left = [] ∧ (interpret resolve ref input).title = trim input ∨
      words left ≠ [] ∧
        (interpret resolve ref input).title = List.intercalate [' '] (words left) := by
    rw [title_interpret, titleOf, ← hleft]
    by_cases hnil : words left = []
    · exact .inl ⟨hnil, if_pos (collapse_eq_nil_iff.2 hnil)⟩
    · exact .inr ⟨hnil, if_neg (collapse_eq_nil_iff.not.2 hnil)⟩
  refine ⟨⟨?_, hleft ▸ htitle, fun s hs => ?_, fun k n hn => ?_⟩, fun hown k => ?_⟩
  · rcases htitle with ⟨-, ht⟩ | ⟨hne, ht⟩
    · rw [ht]
      exact trimmed_trim hwords
    · rw [ht]
      exact trimmed_intercalate hne fun w => solid_of_mem_words
  · obtain ⟨hdate, c, rfl⟩ := time_takeDate _ _ _ s hs
    exact ⟨hdate, c.hour, c.minute, c.hour_lt, c.minute_lt, rfl⟩
  · rw [tags_interpret] at hn
    obtain ⟨w, hw, rfl⟩ := List.mem_map.1 hn
    obtain ⟨v, hv, hmem⟩ := List.mem_flatMap.1 hw
    exact ⟨w, Tag.isName_of_mem_names hmem,
      (Tag.infix_of_mem_names hmem).trans (Priority.infix_of_mem_outOf hv), rfl⟩
  · have hrest : (gistOf ref (words input)).rest ≠ [] := by rwa [← words_leftOver]
    rw [Tag.occurs_eq_false_iff, interpret_eq_gistOf]
    simp only [if_neg hrest]
    rw [words_intercalate fun w hw => solid_of_mem_rest_gistOf hw]
    exact namesIn_rest_gistOf ref _ k

/-- A sigil whose tag is taken out stays alone, and a marker in the name of a tag ends it. -/
theorem interpret_readFrom_of_call :
    let ref : Instant := ⟨⟨2025, 3, 5, by decide, by decide, by decide, by decide⟩, .noon⟩
    let input := "  Call #@home #Müll-p1\ttomorrow at 9:05am ".toList
    let t := interpret Resolver.english ref input
    (∃ c ∈ input, isBlank c = false) ∧
      t.ReadFrom input (leftOver Resolver.english ref input) ∧ ¬ IsOwnTitle ref input ∧
        (∀ k, Tag.occurs k t.title = false) ∧ t.title = "Call #".toList ∧
          t.tags .category = ["müll-".toList] ∧ t.dueTime = some "09:05".toList := by
  intro ref input t
  have h : ∃ c ∈ input, isBlank c = false := ⟨'C', by decide, by decide⟩
  have hown : ¬ IsOwnTitle ref input := by decide +kernel
  obtain ⟨hread, htags⟩ := interpret_readFrom Resolver.english ref h
  exact ⟨h, hread, hown, htags hown, by decide +kernel⟩

end TaskCapture
