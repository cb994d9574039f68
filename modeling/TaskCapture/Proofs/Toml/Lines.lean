import TaskCapture.Proofs.Toml.WrittenString
import TaskCapture.Toml.Document

/-!
Documents of lines with a key and a value each. What is read of such a document are the values under
their keys.
-/

namespace TaskCapture.Toml

open Text

/-! ### Lines -/

/-- A key, and a value in a word. -/
structure Line where
  key : Text
  quoting : Quoting
  word : Text
  value : Toml

namespace Line

def text (l : Line) : Text := l.key ++ " = ".toList ++ l.word ++ ['\n']

/-- The key is one without quotes, and the word is a lexeme that has the value. -/
structure IsGood (l : Line) : Prop where
  ne_nil : l.key ≠ []
  bare : ∀ c ∈ l.key, isBareKeyChar c = true
  lexeme : ∀ place t, lexemesFrom place 0 (l.word ++ '\n' :: t) =
    ⟨.word l.quoting, l.word, place⟩ :: lexemesFrom (place + l.word.length) 0 ('\n' :: t)
  value : ∀ place, (Draft.word ⟨l.quoting, l.word, place⟩).value = .ok l.value

-- The line begins at a place.
variable (place : ℕ)

def keyWord (l : Line) : Word := ⟨.bare, l.key, place⟩

def valueWord (l : Line) : Word := ⟨l.quoting, l.word, place + l.key.length + 3⟩

def entry (l : Line) : Entry := (⟨[], l.keyWord place⟩, .word (l.valueWord place))

def member (l : Line) : Member Toml := ⟨l.key, place, place + l.key.length + 3, l.value⟩

def lineBreak (l : Line) : Lexeme :=
  ⟨.newline, ['\n'], place + l.key.length + 3 + l.word.length⟩

def lexemes (l : Line) : List Lexeme :=
  [⟨.word .bare, l.key, place⟩, ⟨.blank, [' '], place + l.key.length⟩,
    ⟨.mark .equals, ['='], place + l.key.length + 1⟩, ⟨.blank, [' '], place + l.key.length + 2⟩,
    ⟨.word l.quoting, l.word, place + l.key.length + 3⟩, l.lineBreak place]

end Line

variable {l : Line} {ls : List Line} {place stop : ℕ} {c : Char} {w t : Text}

/-! ### Words without quotes -/

lemma isBare_of_isBareKeyChar (h : isBareKeyChar c = true) :
    isBare c = true ∧ c ≠ '\x27' ∧ c ≠ '"' := by
  have hne : ∀ d, isBareKeyChar d = false → c ≠ d := by
    rintro d hd rfl
    rw [h] at hd
    cases hd
  have hmark : Mark.ofChar? c = none := by
    have hall : (Mark.all.all fun m => !isBareKeyChar m.char) = true := by decide
    refine List.find?_eq_none.2 fun m hm => ?_
    have := hne m.char (by simpa using List.all_eq_true.1 hall m hm)
    simpa using this.symm
  have hspace : isSpace c = false := by
    simp [isSpace, hne ' ' (by decide), hne '\t' (by decide)]
  refine ⟨?_, hne _ (by decide), hne _ (by decide)⟩
  simp [isBare, hspace, hmark, hne '#' (by decide), hne '\r' (by decide), hne '\n' (by decide)]

/-- A word without quotes is one lexeme up to a character that it could not hold. -/
lemma lexemesFrom_bare (hne : w ≠ []) (hw : ∀ c ∈ w, isBareKeyChar c = true)
    (ht : ∀ c ∈ t.head?, isBare c = false) (place : ℕ) :
    lexemesFrom place 0 (w ++ t) =
      ⟨.word .bare, w, place⟩ :: lexemesFrom (place + w.length) 0 t := by
  obtain ⟨c, w, rfl⟩ := List.exists_cons_of_ne_nil hne
  have hbare : ∀ d ∈ w, isBare d = true := fun d hd =>
    (isBare_of_isBareKeyChar (hw d (by simp [hd]))).1
  obtain ⟨hc, hsingle, hdouble⟩ := isBare_of_isBareKeyChar (hw c (by simp))
  have htake : (w ++ t).takeWhile isBare = w := by
    rw [List.takeWhile_append_of_pos hbare]
    cases t with
    | nil => simp
    | cons d t => simp [ht d rfl]
  refine lexemesFrom_cons_append ?_ place
  simp only [isBare, Bool.and_eq_true, Bool.not_eq_true', bne_iff_ne, Option.isNone_iff_eq_none]
    at hc
  obtain ⟨⟨⟨⟨hspace, hhash⟩, hr⟩, hn⟩, hmark⟩ := hc
  unfold lexemeFrom
  simp [hspace, hhash, hr, hn, hmark, hsingle, hdouble, htake]

namespace Line

/-- What is read as a word does not begin with a blank. -/
lemma IsGood.takeWhile_isSpace (h : l.IsGood) (t : Text) :
    (l.word ++ '\n' :: t).takeWhile isSpace = [] := by
  have hlex := h.lexeme 0 t
  cases hw : l.word with
  | nil => rfl
  | cons c w =>
    cases hc : isSpace c with
    | false => simp [hc]
    | true =>
      rw [hw, List.cons_append, lexemesFrom] at hlex
      simp [lexemeFrom, hc] at hlex

lemma IsGood.lexemesFrom_append (h : l.IsGood) (place : ℕ) (t : Text) :
    lexemesFrom place 0 (l.text ++ t) =
      l.lexemes place ++ lexemesFrom (place + l.text.length) 0 t := by
  have hblank : lexemeFrom ' ' ([] ++ (l.word ++ '\n' :: t)) = (.blank, 0) := by
    simp [lexemeFrom, isSpace, h.takeWhile_isSpace t]
  have hbreak (place : ℕ) : lexemesFrom place 0 ('\n' :: t) =
      ⟨.newline, ['\n'], place⟩ :: lexemesFrom (place + 1) 0 t :=
    lexemesFrom_cons_append (u := []) rfl place
  have hequals (place : ℕ) : lexemesFrom place 0 (" = ".toList ++ (l.word ++ '\n' :: t)) =
      ⟨.blank, [' '], place⟩ :: ⟨.mark .equals, ['='], place + 1⟩ :: ⟨.blank, [' '], place + 2⟩ ::
        lexemesFrom (place + 3) 0 (l.word ++ '\n' :: t) := by
    have h1 := lexemesFrom_cons_append (u := []) (c := ' ')
      (t := '=' :: ' ' :: (l.word ++ '\n' :: t)) rfl place
    have h2 := lexemesFrom_cons_append (u := []) (c := '=')
      (t := ' ' :: (l.word ++ '\n' :: t)) rfl (place + 1)
    have h3 := lexemesFrom_cons_append hblank (place + 2)
    exact h1.trans (congrArg _ (h2.trans (congrArg _ h3)))
  have hlen : place + l.text.length = place + l.key.length + 3 + l.word.length + 1 := by
    simp [text]
    omega
  have htext : l.text ++ t = l.key ++ (" = ".toList ++ (l.word ++ '\n' :: t)) := by
    simp [text]
  rw [htext, lexemesFrom_bare h.ne_nil h.bare (by rintro _ ⟨⟩; decide), hequals, h.lexeme, hbreak,
    hlen]
  rfl

end Line

/-! ### Statements -/

namespace Outline

lemma skipGap_lexemes (l : Line) (place : ℕ) (r : Rest) :
    skipGap (l.lexemes place ++ r) = .ok (l.lexemes place ++ r) := rfl

lemma skipGap_lineBreak (l : Line) (place : ℕ) (r : Rest) :
    skipGap (l.lineBreak place :: r) = skipGap r := by
  rw [skipGap]
  simp [Line.lineBreak]

lemma readEntry_line (stop : ℕ) (l : Line) (place : ℕ) (r : Rest) :
    readEntry stop (l.lexemes place ++ r) = .ok (l.entry place, l.lineBreak place :: r) := by
  have hbare : readBare (l.lineBreak place :: r) = ([], l.lineBreak place :: r) := by
    cases r <;> rfl
  have hvalue : readValue stop maxDepth
      (⟨.word l.quoting, l.word, place + l.key.length + 3⟩ :: l.lineBreak place :: r) =
        .ok (.word (l.valueWord place), l.lineBreak place :: r) := by
    change readValueWith stop (some (readValue stop 79)) _ = _
    cases hq : l.quoting with
    | bare =>
      simp only [readValueWith, readBare, true_or, if_true, hbare, List.append_nil]
      rw [Line.valueWord, hq]
    | _ =>
      simp only [readValueWith]
      rw [Line.valueWord, hq]
  have hkey : readKey stop none (l.lexemes place ++ r) =
      ((⟨[], l.keyWord place⟩, true), (l.lexemes place).drop 2 ++ r) := rfl
  have hequals : expectEquals stop ((l.lexemes place).drop 2 ++ r) =
      .ok ((l.lexemes place).drop 3 ++ r) := rfl
  have hassigned : readAssigned stop ((l.lexemes place).drop 3 ++ r) =
      .ok (.word (l.valueWord place), l.lineBreak place :: r) := hvalue
  have hend : expectLineEnd (l.lineBreak place :: r) = .ok (l.lineBreak place :: r) := rfl
  simp only [readEntry, hkey, hequals, hassigned, hend, bind, Except.bind]
  rfl

/-- The entries of the lines from a place on. -/
def entriesFrom (place : ℕ) : List Line → List Entry
  | [] => []
  | l :: ls => l.entry place :: entriesFrom (place + l.text.length) ls

/-- **Statement by statement.** The lines may stand after the line break of one before them. -/
theorem readStatements_lines (hls : ∀ l ∈ ls, l.IsGood) {fuel : ℕ} (hfuel : ls.length < fuel)
    {r : Rest} (hr : skipGap r = skipGap (lexemesFrom place 0 (ls.flatMap Line.text))) :
    readStatements stop fuel r = .ok ⟨entriesFrom place ls, []⟩ := by
  induction ls generalizing place fuel r with
  | nil =>
    obtain ⟨fuel, rfl⟩ := Nat.exists_eq_add_one.2 (Nat.zero_lt_of_lt hfuel)
    rw [readStatements, hr]
    rfl
  | cons l ls ih =>
    obtain ⟨fuel, rfl⟩ := Nat.exists_eq_add_one.2 (Nat.zero_lt_of_lt hfuel)
    rw [List.flatMap_cons, (hls l (by simp)).lexemesFrom_append, skipGap_lexemes] at hr
    have hrest := ih (fun k hk => hls k (by simp [hk])) (by simpa using hfuel)
      (skipGap_lineBreak l place (lexemesFrom (place + l.text.length) 0 (ls.flatMap Line.text)))
    have hentry := readEntry_line stop l place
      (lexemesFrom (place + l.text.length) 0 (ls.flatMap Line.text))
    rw [readStatements, hr]
    simp only [Line.lexemes, List.cons_append, bind, Except.bind] at hentry ⊢
    rw [hentry]
    simp only
    rw [hrest]
    rfl

lemma length_le_length_lexemesFrom (hls : ∀ l ∈ ls, l.IsGood) (place : ℕ) :
    ls.length ≤ (lexemesFrom place 0 (ls.flatMap Line.text)).length := by
  induction ls generalizing place with
  | nil => simp
  | cons l ls ih =>
    have ih := ih (fun k hk => hls k (by simp [hk])) (place + l.text.length)
    rw [List.flatMap_cons, (hls l (by simp)).lexemesFrom_append, List.length_append,
      List.length_cons]
    have hsix : (l.lexemes place).length = 6 := rfl
    omega

/-- No line begins with a byte order mark. -/
lemma lexemes_lines (hls : ∀ l ∈ ls, l.IsGood) :
    lexemes (ls.flatMap Line.text) = lexemesFrom 0 0 (ls.flatMap Line.text) := by
  unfold lexemes
  split
  · next t ht =>
    cases ls with
    | nil => cases ht
    | cons l ls =>
      obtain ⟨c, k, hk⟩ := List.exists_cons_of_ne_nil (hls l (by simp)).ne_nil
      have hc := (hls l (by simp)).bare c (by simp [hk])
      rw [List.flatMap_cons, Line.text, hk] at ht
      obtain rfl : c = '\ufeff' := (List.cons.inj ht).1
      exact absurd hc (by decide)
  · rfl

theorem ofText_lines (hls : ∀ l ∈ ls, l.IsGood) :
    ofText (ls.flatMap Line.text) = .ok ⟨entriesFrom 0 ls, []⟩ := by
  have hlen := length_le_length_lexemesFrom hls 0
  rw [ofText, lexemes_lines hls]
  exact readStatements_lines hls (by omega) rfl

end Outline

/-! ### Members -/

/-- The members with those of the lines from a place on. -/
def Members.putLines (place : ℕ) : List Line → Members → Members
  | [], ms => ms
  | l :: ls, ms => putLines (place + l.text.length) ls (ms.put (l.member place))

lemma Line.IsGood.key_keyWord (h : l.IsGood) (place : ℕ) :
    (l.keyWord place).key = .ok ⟨l.key, place⟩ := by
  have hkey : (l.key.isEmpty || !l.key.all isBareKeyChar) = false := by
    simp [h.ne_nil, List.all_eq_true.2 h.bare]
  simp only [Word.key, Line.keyWord, hkey]
  rfl

theorem addEntries_lines (hls : ∀ l ∈ ls, l.IsGood) {ms : Members}
    (hms : ∀ l ∈ ls, ms.get? l.key = none) (hkeys : (ls.map Line.key).Nodup) :
    addEntries (Outline.entriesFrom place ls) ms = .ok (ms.putLines place ls) := by
  induction ls generalizing place ms with
  | nil => rfl
  | cons l ls ih =>
    have hl := hls l (by simp)
    rw [List.map_cons, List.nodup_cons] at hkeys
    have hput : ∀ k ∈ ls, (ms.put (l.member place)).get? k.key = none := by
      intro k hk
      have hne : l.key ≠ k.key := fun he => hkeys.1 (he ▸ List.mem_map_of_mem hk)
      rw [Members.get?_put_of_ne (m := l.member place) ms hne]
      exact hms k (by simp [hk])
    have hkey : DottedKey.keys ⟨[], l.keyWord place⟩ = .ok ⟨[], ⟨l.key, place⟩⟩ := by
      simp only [DottedKey.keys, List.mapM_nil, hl.key_keyWord, bind, Except.bind]
      rfl
    have hassign : assign ⟨[], ⟨l.key, place⟩⟩ (place + l.key.length + 3) l.value ms =
        .ok (ms.put (l.member place)) := by
      simp only [assign, underDots, hms l (by simp)]
      rfl
    have hvalue : (Draft.word (l.valueWord place)).value = .ok l.value := hl.value _
    simp only [Outline.entriesFrom, Line.entry, addEntries, hkey, hvalue, bind, Except.bind]
    rw [show (Draft.word (l.valueWord place)).place = place + l.key.length + 3 from rfl, hassign]
    exact ih (fun k hk => hls k (by simp [hk])) hput hkeys.2

theorem read_lines (hls : ∀ l ∈ ls, l.IsGood) (hkeys : (ls.map Line.key).Nodup) :
    read (ls.flatMap Line.text) = .ok (Members.putLines 0 ls []) := by
  have hadd : addEntries (Outline.entriesFrom 0 ls) [] = .ok (Members.putLines 0 ls []) :=
    addEntries_lines hls (fun _ _ => rfl) hkeys
  simp only [read, Outline.ofText_lines hls, Outline.members, hadd, List.foldlM_nil, bind,
    Except.bind]
  rfl

end TaskCapture.Toml
