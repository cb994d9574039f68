import TaskCapture.Proofs.Settings.Missing
import TaskCapture.Proofs.Toml.Lines

/-!
A configuration that is saved is loaded again: its text says all of it, and what is written to a
file on the disk is what is read there.
-/

namespace TaskCapture

open Text

/-! ### The text of a configuration -/

namespace Config

open Toml

/-- A line with a string. -/
lemma isGood_string {key s : Text} {q : Quoting} (hkey : key ≠ [] ∧ key.all isBareKeyChar = true)
    (h : Written s q (writeString s)) : Line.IsGood ⟨key, q, writeString s, .str s⟩ where
  ne_nil := hkey.1
  bare := List.all_eq_true.1 hkey.2
  lexeme place t := by
    have hmark : ('\n' :: t).head? ≠ some q.mark := by cases q <;> exact fun he => by cases he
    exact h.lexemesFrom_append hmark place
  value place := by
    rw [Draft.value, if_neg h.ne_bare, h.string]
    rfl

lemma isGood_bool {key : Text} (hkey : key ≠ [] ∧ key.all isBareKeyChar = true) (b : Bool) :
    Line.IsGood ⟨key, .bare, boolText b, .bool b⟩ where
  ne_nil := hkey.1
  bare := List.all_eq_true.1 hkey.2
  lexeme place t := by
    have hword : boolText b ≠ [] ∧ (boolText b).all isBareKeyChar = true := by cases b <;> decide
    exact lexemesFrom_bare hword.1 (List.all_eq_true.1 hword.2) (by rintro _ ⟨⟩; decide) place
  value place := by cases b <;> rfl

/-- The lines of a configuration, of which two have strings. -/
def lines (c : Config) (q q' : Quoting) : List Line :=
  [⟨"log_level".toList, q, writeString c.logLevel, .str c.logLevel⟩,
    ⟨"preview".toList, .bare, boolText c.preview, .bool c.preview⟩,
    ⟨"json_output".toList, .bare, boolText c.jsonOutput, .bool c.jsonOutput⟩] ++
    match c.defaultPriority with
    | none => []
    | some p => [⟨"default_priority".toList, q', writeString p.code.toList, .str p.code.toList⟩]

lemma toml_eq_lines (c : Config) (q q' : Quoting) : c.toml = (c.lines q q').flatMap Line.text := by
  rcases c with ⟨s, b, b', _ | p⟩ <;> simp [toml, lines, entry, Line.text]

lemma ofMembers_lines (c : Config) (q q' : Quoting) :
    ofMembers (Members.putLines 0 (c.lines q q') []) = .ok c := by
  rcases c with ⟨s, b, b', _ | p⟩
  · rfl
  · cases p <;> rfl

/-- **The text of a configuration says all of it.** -/
theorem ofToml_toml (c : Config) : ofToml c.toml = .ok c := by
  obtain ⟨q, hq⟩ := written_writeString c.logLevel
  obtain ⟨q', hq'⟩ := written_writeString ((c.defaultPriority.getD .low).code.toList)
  have hgood : ∀ l ∈ c.lines q q', l.IsGood := by
    have hlevel : Line.IsGood ⟨"log_level".toList, q, _, _⟩ := isGood_string (by decide) hq
    have hpreview : Line.IsGood ⟨"preview".toList, .bare, _, _⟩ := isGood_bool (by decide) c.preview
    have hjson : Line.IsGood ⟨"json_output".toList, .bare, _, _⟩ :=
      isGood_bool (by decide) c.jsonOutput
    have hpriority : Line.IsGood ⟨"default_priority".toList, q', _, _⟩ :=
      isGood_string (by decide) hq'
    rcases c with ⟨s, b, b', _ | p⟩ <;> simp_all [lines]
  have hkeys : ((c.lines q q').map Line.key).Nodup := by
    rcases c with ⟨s, b, b', _ | p⟩
    · exact (by decide : ["log_level".toList, "preview".toList, "json_output".toList].Nodup)
    · exact (by decide : ["log_level".toList, "preview".toList, "json_output".toList,
        "default_priority".toList].Nodup)
  simp only [ofToml, toml_eq_lines c q q', read_lines hgood hkeys, bind, Except.bind]
  exact ofMembers_lines c q q'

end Config

/-! ### Files on the disk -/

namespace Node

/-- There is room for a file with a name in a directory: what leads to the directory can be looked
into or is missing, and there is nothing of that name in it, or a file. -/
inductive HasRoom (name : Text) : List Text → Node → Prop where
  | file {es : List (Text × Node)} (h : ∀ n, child? name es = some n → ∃ b, n = .file b) :
    HasRoom name [] (.dir es)
  | under {k : Text} {ks : List Text} {es : List (Text × Node)}
    (h : HasRoom name ks ((child? k es).getD (.dir []))) : HasRoom name (k :: ks) (.dir es)

variable {name k : Text} {ks : List Text} {n n' : Node} {b : ByteArray}

lemma setChild_setChild (k : Text) (n : Node) (es : List (Text × Node)) :
    setChild k (some n) (setChild k (some n) es) = setChild k (some n) es := by
  simp [setChild, List.filter_filter]

lemma writeFile_cons (b : ByteArray) (hks : ks ≠ []) {es : List (Text × Node)}
    (hk : child? k es = some n) : writeFile b (k :: ks) (.dir es) =
      (writeFile b ks n).map fun n => dir (setChild k (some n) es) := by
  cases ks with
  | nil => exact absurd rfl hks
  | cons k' ks =>
    rw [writeFile, change, hk]
    · rfl
    · simp

/-- **What is written is there.** -/
theorem find_of_writeFile (h : writeFile b ks n = .ok n') : find ks n' = .ok (.file b) := by
  induction ks generalizing n n' with
  | nil => cases h
  | cons k ks ih =>
    cases n with
    | dir es =>
      cases ks with
      | nil =>
        rw [writeFile, change] at h
        split at h
        any_goals cases h
        rw [find, child?_setChild_self]
        rfl
      | cons k' ks =>
        cases hk : child? k es with
        | none =>
          rw [writeFile, change, hk] at h
          · cases h
          · simp
        | some m =>
          rw [writeFile_cons b (by simp) hk] at h
          cases hm : writeFile b (k' :: ks) m with
          | error e =>
            rw [hm] at h
            cases h
          | ok m' =>
            rw [hm] at h
            cases h
            rw [find, child?_setChild_self]
            exact ih hm
    | _ => cases ks <;> cases h

/-- A directory that has room can be made, and still has. -/
lemma HasRoom.exists_makeDirs (h : n.HasRoom name ks) :
    ∃ n', makeDirs ks n = .ok n' ∧ n'.HasRoom name ks ∧ exists? ks n' = true := by
  induction h with
  | @file es h => exact ⟨.dir es, rfl, .file h, rfl⟩
  | @under k ks es h ih =>
    obtain ⟨n', hmake, hroom, hthere⟩ := ih
    refine ⟨.dir (setChild k (some n') es), ?_, .under ?_, ?_⟩
    · rw [makeDirs, hmake]
      rfl
    · rwa [child?_setChild_self]
    · simp only [exists?, find, child?_setChild_self]
      exact hthere

/-- Where there is room in a directory that is there, a file can be written, and making the
directory once more changes nothing. -/
lemma HasRoom.exists_writeFile (h : n.HasRoom name ks) (hthere : exists? ks n = true)
    (b : ByteArray) : ∃ n', writeFile b (ks ++ [name]) n = .ok n' ∧ makeDirs ks n' = .ok n' ∧
      exists? ks n' = true := by
  induction h with
  | @file es h =>
    refine ⟨.dir (setChild name (some (.file b)) es), ?_, rfl, rfl⟩
    rw [List.nil_append, writeFile, change]
    cases hc : child? name es with
    | none => rfl
    | some m =>
      obtain ⟨b', rfl⟩ := h m hc
      rfl
  | @under k ks es h ih =>
    cases hc : child? k es with
    | none => simp [exists?, find, hc, Except.toOption] at hthere
    | some m =>
      rw [exists?, find, hc] at hthere
      rw [hc, Option.getD_some] at ih
      obtain ⟨m', hwrite, hmake, hthere'⟩ := ih hthere
      refine ⟨.dir (setChild k (some m') es), ?_, ?_, ?_⟩
      · rw [List.cons_append, writeFile_cons b (by simp) hc, hwrite]
        rfl
      · rw [makeDirs, child?_setChild_self, Option.getD_some, hmake]
        exact congrArg (fun es => Except.ok (dir es)) (setChild_setChild k m' es)
      · rwa [exists?, find, child?_setChild_self]

end Node

/-! ### Saving and loading -/

namespace Store

/-- The directory and the file of a context can be written: it tells the path of a file that takes
any content, and tells it again when the file is there, which it leaves as it is. That the file can
be read needs no mention, since no file on the disk can be written and not read. -/
def Writable (ctx : Context) (disk : Node) : Prop :=
  ∀ b, ∃ p d d' d'', ctx disk = (.ok p, d) ∧ d.writeFile b p.parts = .ok d' ∧
    ctx d' = (.ok p, d'') ∧ d''.find p.parts = d'.find p.parts

variable {disk d : Node} {p : Path} {l : Location}

lemma readText_of_find {t : Text}
    (h : d.find p.parts = .ok (.file (String.ofList t).toUTF8)) : readText p d = .ok t := by
  have hfile : d.readFile p.parts = .ok (String.ofList t).toUTF8 := by rw [Node.readFile, h]
  have hutf8 : String.fromUTF8? (String.ofList t).toUTF8 = some (String.ofList t) :=
    dif_pos (String.ofList t).isValidUTF8
  simp only [readText, hfile, hutf8, String.toList_ofList]

lemma loadFile_of_find {c : Config}
    (h : d.find p.parts = .ok (.file (String.ofList c.toml).toUTF8)) : loadFile p d = .ok c := by
  have hthere : d.exists? p.parts = true := by
    rw [Node.exists?, h]
    rfl
  simp only [loadFile, hthere, readText_of_find h, Config.ofToml_toml]
  rfl

lemma context_of_ensureDir (h : ensureDir l disk = (.ok l.dir, d)) :
    context l disk = (.ok l.file, d) := by
  simp only [context, h]

/-- Where there is room, the path of the file is told, and then the directory is there. -/
lemma exists_context (h : disk.HasRoom "config.toml".toList l.dir.parts) :
    ∃ d, context l disk = (.ok l.file, d) ∧ d.HasRoom "config.toml".toList l.dir.parts ∧
      d.exists? l.dir.parts = true := by
  obtain ⟨d, hmake, hroom, hthere⟩ := h.exists_makeDirs
  cases l with
  | trial root =>
    refine ⟨d, context_of_ensureDir ?_, hroom, hthere⟩
    simp only [ensureDir, hmake]
  | under _ | user _ =>
    cases hold : disk.exists? _ with
    | true =>
      refine ⟨disk, context_of_ensureDir ?_, h, hold⟩
      simp only [ensureDir, hold, if_true]
    | false =>
      refine ⟨d, context_of_ensureDir ?_, hroom, hthere⟩
      simp only [ensureDir, hold, hmake, Bool.false_eq_true, if_false]

/-- Where the directory is there, and making it changes nothing, nothing is changed. -/
lemma context_of_makeDirs (h : disk.makeDirs l.dir.parts = .ok disk)
    (hthere : disk.exists? l.dir.parts = true) : context l disk = (.ok l.file, disk) := by
  refine context_of_ensureDir ?_
  cases l with
  | trial root => simp only [ensureDir, h]
  | under _ | user _ => simp only [ensureDir, hthere, if_true]

/-- A location can be written where there is room for its file. -/
theorem writable_context (h : disk.HasRoom "config.toml".toList l.dir.parts) :
    Writable (context l) disk := by
  intro b
  obtain ⟨d, hctx, hroom, hthere⟩ := exists_context h
  obtain ⟨d', hwrite, hmake, hthere'⟩ := hroom.exists_writeFile hthere b
  have hparts : l.file.parts = l.dir.parts ++ ["config.toml".toList] :=
    Path.parts_join l.dir (by decide)
  exact ⟨l.file, d, d', d', hctx, hparts ▸ hwrite, context_of_makeDirs hmake hthere', rfl⟩

/-- **What is saved is loaded.** Where the directory and the file of a context can be written,
saving a configuration succeeds, and both ways of loading give it back, whatever the file held
before. The locations of the program can be written where there is room for their file. -/
theorem load_of_save (c : Config) :
    (∀ ctx disk, Writable ctx disk → ∃ d d', save ctx c disk = (.ok (), d) ∧
      load ctx d = (.ok c, d') ∧ loadOrDefault ctx d = (.ok c, d')) ∧
    ∀ l disk, disk.HasRoom "config.toml".toList l.dir.parts → Writable (context l) disk := by
  refine ⟨fun ctx disk h => ?_, fun l disk h => writable_context h⟩
  obtain ⟨p, d, d', d'', hctx, hwrite, hagain, hfile⟩ := h (String.ofList c.toml).toUTF8
  have hload : load ctx d' = (.ok c, d'') := by
    rw [load_of_context hagain, loadFile_of_find (hfile.trans (Node.find_of_writeFile hwrite))]
  refine ⟨d', d'', ?_, hload, loadOrDefault_of_load_ok hload⟩
  simp only [save, withFile, hctx, hwrite]

/-- Over a file that is no configuration, a string that needs escapes. -/
theorem load_of_save_over_unquoted_text :
    let c : Config := ⟨"'''\"\"\" C:\\tasks\n\x01".toList, false, true, some .urgent⟩
    let ctx := context samplePlace
    let disk := sampleDisk "preview = yes"
    disk.HasRoom "config.toml".toList samplePlace.dir.parts ∧
      ∃ d d', save ctx c disk = (.ok (), d) ∧ load ctx d = (.ok c, d') ∧
        loadOrDefault ctx d = (.ok c, d') := by
  intro c ctx disk
  have hfile : ∀ n, Node.child? "config.toml".toList
      [("config.toml".toList, .file "preview = yes".toUTF8)] = some n → ∃ b, n = .file b := by
    rintro n ⟨⟩
    exact ⟨_, rfl⟩
  have hroom : disk.HasRoom "config.toml".toList samplePlace.dir.parts :=
    .under (.under (.file hfile))
  exact ⟨hroom, (load_of_save c).1 ctx disk ((load_of_save c).2 samplePlace disk hroom)⟩

end Store

end TaskCapture
