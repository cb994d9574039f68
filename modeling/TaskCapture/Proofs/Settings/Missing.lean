import Mathlib.Data.List.Infix
import TaskCapture.Proofs.Text.Split
import TaskCapture.Settings.Store

/-!
When the defaults stand in for a configuration. A fault counts as that of a missing file by its
text, and a text also repeats the path of the file, words of the system, and parts of a file that is
no configuration. So a file that is there and gives no configuration is reported exactly if none of
these has the words of the missing file in it.
-/

namespace TaskCapture

/-! ### Words in a text -/

namespace Text

variable {w a b : Text} {c : Char}

lemma prefix_append_cons_iff (h : c ∉ w) : w <+: a ++ c :: b ↔ w <+: a := by
  induction a generalizing w with
  | nil => cases w <;> simp_all [List.cons_prefix_cons, Ne.symm]
  | cons d a ih =>
    cases w with
    | nil => simp
    | cons e w => simp [List.cons_prefix_cons, ih (List.not_mem_of_not_mem_cons h)]

/-- A character that the words lack parts a text in two, of which one has them. -/
lemma infix_append_cons_iff (h : c ∉ w) : w <:+: a ++ c :: b ↔ w <:+: a ∨ w <:+: b := by
  induction a with
  | nil =>
    have hp : w <+: c :: b ↔ w <+: [] := prefix_append_cons_iff (a := []) h
    rw [List.nil_append, List.infix_cons_iff, hp, List.prefix_nil, List.infix_nil]
  | cons d a ih =>
    rw [List.cons_append, List.infix_cons_iff, ih, ← List.cons_append, prefix_append_cons_iff h,
      List.infix_cons_iff, or_assoc]

end Text

lemma Fault.occursIn_iff {w t : Text} : occursIn w t = true ↔ w <:+: t := by
  induction t with
  | nil => simp [occursIn]
  | cons d t ih => simp [occursIn, List.infix_cons_iff, ih]

/-! ### What a fault repeats -/

open Fault

/-- The words of a system that the program does not know. -/
def DiskFault.quotes : DiskFault → List Text
  | other t => [t]
  | _ => []

namespace Toml

/-- What a reason repeats of the document. -/
def Reason.quotes : Reason → List Text
  | .wrongType found _ => [found]
  | .unknownVariant name => [name]
  | _ => []

/-- What a failure repeats of the document: the line that it concerns, and a value that is of the
wrong type or a name that is unknown. -/
def Failure.quotes (doc : Text) (f : Failure) : List Text :=
  (f.place.map (lineAt doc)).toList ++ f.reason.quotes

end Toml

namespace Fault

variable {before q t : Text} {c d : Char}

lemma not_missingText_infix_of_not_mem (h : 'C' ∉ t) : ¬ missingText <:+: t :=
  fun hw => h (hw.subset (by decide))

lemma missingText_infix_cons (h : c ≠ 'C') : missingText <:+: c :: t ↔ missingText <:+: t := by
  rw [List.infix_cons_iff]
  exact or_iff_right fun hp => h (List.cons_prefix_cons.1 hp).1.symm

/-- A text that is quoted between words of the program. -/
lemma missingText_infix_quoted (h : 'C' ∉ before) (hc : c ∉ missingText) (hd : d ∉ missingText) :
    missingText <:+: before ++ c :: (q ++ d :: t) ↔ missingText <:+: q ∨ missingText <:+: t := by
  rw [Text.infix_append_cons_iff hc, Text.infix_append_cons_iff hd,
    or_iff_right (not_missingText_infix_of_not_mem h)]

end Fault

lemma DiskFault.infix_text_iff (e : DiskFault) :
    missingText <:+: e.text ↔ ∃ q ∈ e.quotes, missingText <:+: q := by
  cases e with
  | other t => rw [show (other t).text = t from rfl]; simp [quotes]
  | _ => exact iff_of_false (not_missingText_infix_of_not_mem (by decide)) (by simp [quotes])

namespace Toml

lemma Reason.infix_text_iff (r : Reason) :
    missingText <:+: r.text ↔ ∃ q ∈ r.quotes, missingText <:+: q := by
  cases r with
  | complaint what =>
    exact iff_of_false (not_missingText_infix_of_not_mem (by cases what <;> decide))
      (by simp [quotes])
  | duplicateKey =>
    exact iff_of_false (not_missingText_infix_of_not_mem (by decide)) (by simp [quotes])
  | tooDeep => exact iff_of_false (not_missingText_infix_of_not_mem (by decide)) (by simp [quotes])
  | wrongType found wanted =>
    -- The words have blanks in them: the colon parts the text and not the blank after it.
    have htext : (wrongType found wanted).text = "invalid type".toList ++
        ':' :: (' ' :: found ++ ',' :: (" expected ".toList ++ wanted.text)) := by
      change "invalid type: ".toList ++ found ++ ", expected ".toList ++ wanted.text = _
      simp
    have hafter := not_missingText_infix_of_not_mem (t := " expected ".toList ++ wanted.text)
      (by cases wanted <;> decide)
    rw [htext, missingText_infix_quoted (by decide) (by decide) (by decide),
      missingText_infix_cons (by decide), or_iff_left hafter]
    simp [quotes]
  | unknownVariant name =>
    let after : Text :=
      ", expected one of \x60LOW\x60, \x60MEDIUM\x60, \x60HIGH\x60, \x60URGENT\x60".toList
    have htext : (unknownVariant name).text =
        "unknown variant ".toList ++ '\x60' :: (name ++ '\x60' :: after) := by
      change "unknown variant ".toList ++ '\x60' :: name ++ '\x60' :: after = _
      simp
    have hafter := not_missingText_infix_of_not_mem (t := after) (by decide)
    rw [htext, missingText_infix_quoted (by decide) (by decide) (by decide), or_iff_left hafter]
    simp [quotes]

lemma Failure.infix_text_iff (doc : Text) (f : Failure) :
    missingText <:+: f.text doc ↔ ∃ q ∈ f.quotes doc, missingText <:+: q := by
  rw [text.eq_def, quotes]
  cases f.place with
  | none => simp [Reason.infix_text_iff]
  | some place =>
    simp [Text.infix_append_cons_iff (show '\n' ∉ missingText by decide), Reason.infix_text_iff]

end Toml

namespace Store

variable {p : Path}

/-- A fault that quotes the path of the file, and says no more than `t` after it. -/
lemma isMissing_iff_of_text {f : Fault} {before t : Text} {qs : List Text}
    (htext : f.text = before ++ '\x27' :: (p ++ '\x27' :: ':' :: ' ' :: t)) (h : 'C' ∉ before)
    (ht : missingText <:+: t ↔ ∃ q ∈ qs, missingText <:+: q) (hcause : f.cause ≠ .disk .notFound) :
    f.isMissing ↔ ∃ q ∈ p :: qs, missingText <:+: q := by
  rw [isMissing, Bool.or_eq_true, occursIn_iff, htext,
    missingText_infix_quoted h (by decide) (by decide), missingText_infix_cons (by decide),
    missingText_infix_cons (by decide), ht]
  simp [hcause]

lemma isMissing_readFault_iff (e : DiskFault) :
    (readFault p e).isMissing ↔ ∃ q ∈ p :: e.quotes, missingText <:+: q := by
  have htext : (readFault p e).text = "Failed to read config file ".toList ++
      '\x27' :: (p ++ '\x27' :: ':' :: ' ' :: e.text) := by
    change "Failed to read config file '".toList ++ p ++ "': ".toList ++ e.text = _
    simp
  exact isMissing_iff_of_text htext (by decide) e.infix_text_iff (by simp [readFault])

lemma isMissing_parseFault_iff (doc : Text) (f : Toml.Failure) :
    (parseFault p doc f).isMissing ↔ ∃ q ∈ p :: f.quotes doc, missingText <:+: q := by
  have htext : (parseFault p doc f).text = "Failed to parse config file ".toList ++
      '\x27' :: (p ++ '\x27' :: ':' :: ' ' :: f.text doc) := by
    change "Failed to parse config file '".toList ++ p ++ ['\x27'] ++ ": ".toList ++ f.text doc = _
    simp
  exact isMissing_iff_of_text htext (by decide) (f.infix_text_iff doc) (by simp [parseFault])

end Store

/-! ### Where a directory cannot be made -/

lemma Path.parts_join (p : Path) {name : Text} (h : parts name = [name]) :
    (p.join name).parts = p.parts ++ [name] := by
  have happend (q t : Path) : parts (q ++ '/' :: t) = q.parts ++ parts t := by
    simp [parts, Text.splitAll_append_cons]
  rw [join]
  split
  · next hp =>
    rcases hp with rfl | hp
    · exact h
    · obtain ⟨q, rfl⟩ := List.getLast?_eq_some_iff.1 hp
      rw [List.append_assoc, List.singleton_append, happend, happend, h]
      exact congrArg (· ++ [name]) (List.append_nil _).symm
  · exact (happend p name).trans (by rw [h])

namespace Node

lemma exists?_append_of_makeDirs_error {ks : List Text} {n : Node} {e : DiskFault}
    (h : makeDirs ks n = .error e) (k : Text) : exists? (ks ++ [k]) n = false := by
  induction ks generalizing n with
  | nil => cases n <;> first | rfl | cases h
  | cons k' ks ih =>
    cases n with
    | dir es =>
      -- A directory that is missing can be made, so the obstacle lies under what is there.
      have hin : makeDirs ks ((child? k' es).getD (dir [])) = .error e := by
        cases hm : makeDirs ks ((child? k' es).getD (dir [])) with
        | ok n => rw [makeDirs, hm] at h; cases h
        | error e' => rw [makeDirs, hm] at h; cases h; rfl
      rw [exists?, List.cons_append, find]
      cases hc : child? k' es with
      | none => rfl
      | some n => exact ih (by rwa [hc] at hin)
    | _ => rfl

end Node

namespace Store

lemma exists_fault_of_ensureDir_error {l : Location} {disk d : Node} {e : Fault}
    (h : ensureDir l disk = (.error e, d)) :
    ∃ e', disk.makeDirs l.dir.parts = .error e' ∧ d = disk := by
  cases hmake : disk.makeDirs l.dir.parts with
  | error e' =>
    have hdisk : (ensureDir l disk).2 = disk := by
      cases l <;> simp only [ensureDir, hmake] <;> split <;> rfl
    exact ⟨e', rfl, by rw [← hdisk, h]⟩
  | ok disk' =>
    have hok : (ensureDir l disk).1 = .ok l.dir := by
      cases l <;> simp only [ensureDir, hmake] <;> split <;> rfl
    rw [h] at hok
    cases hok

/-- Where a location cannot tell the path of its file, nothing shows itself there. -/
lemma not_exists?_of_context_error {l : Location} {disk d : Node} {e : Fault}
    (h : context l disk = (.error e, d)) : d.exists? l.file.parts = false := by
  have hparts : l.file.parts = l.dir.parts ++ ["config.toml".toList] :=
    Path.parts_join l.dir (by decide)
  have hdir : ensureDir l disk = (.error e, d) := by
    rw [context] at h
    split at h
    · cases h
    · next heq => rw [heq, h]
  obtain ⟨e', hmake, rfl⟩ := exists_fault_of_ensureDir_error hdir
  rw [hparts]
  exact Node.exists?_append_of_makeDirs_error hmake _

variable {ctx : Context} {disk d : Node}

lemma load_of_context (h : ctx disk = (.ok p, d)) : load ctx disk = (loadFile p d, d) := by
  simp only [load, withFile, h]

lemma loadOrDefault_of_load_ok {c : Config} (h : load ctx disk = (.ok c, d)) :
    loadOrDefault ctx disk = (.ok c, d) := by
  simp only [loadOrDefault, h]

lemma loadOrDefault_of_load_error {e : Fault} (h : load ctx disk = (.error e, d)) :
    loadOrDefault ctx disk = (if e.isMissing then .ok {} else .error e, d) := by
  simp only [loadOrDefault, h]

lemma load_of_not_exists (h : ctx disk = (.ok p, d)) (hno : d.exists? p.parts = false) :
    load ctx disk = (.error missing, d) := by
  rw [load_of_context h, loadFile, hno]
  rfl

lemma load_of_unreadable {e : DiskFault} (h : ctx disk = (.ok p, d))
    (hthere : d.exists? p.parts = true) (hread : readText p d = .error e) :
    load ctx disk = (.error (readFault p e), d) := by
  rw [load_of_context h, loadFile, hthere, hread]
  rfl

lemma load_of_undecoded {doc : Text} {f : Toml.Failure} (h : ctx disk = (.ok p, d))
    (hthere : d.exists? p.parts = true) (hread : readText p d = .ok doc)
    (hdoc : Config.ofToml doc = .error f) :
    load ctx disk = (.error (parseFault p doc f), d) := by
  rw [load_of_context h, loadFile, hthere, hread]
  simp only [hdoc]
  rfl

/-- **When the defaults are given.** What is loaded is given as it is. Without a file the defaults
are given. A file that is there and cannot be read, is not UTF-8 or is no configuration is reported,
but not if the words of the missing file occur in its path, in words of the system that are its own,
or in what the failure repeats of the document. Where the path is not told, the fault decides; a
location of the program then has no file to be seen. -/
theorem loadOrDefault_cases (ctx : Context) (disk : Node) :
    (∀ c d, load ctx disk = (.ok c, d) → loadOrDefault ctx disk = (.ok c, d)) ∧
    (∀ p d, ctx disk = (.ok p, d) →
      (d.exists? p.parts = false → loadOrDefault ctx disk = (.ok {}, d)) ∧
      (d.exists? p.parts = true →
        (∀ e, readText p d = .error e → loadOrDefault ctx disk =
          (if ∃ q ∈ p :: e.quotes, missingText <:+: q then .ok {}
            else .error (readFault p e), d)) ∧
        ∀ doc f, readText p d = .ok doc → Config.ofToml doc = .error f → loadOrDefault ctx disk =
          (if ∃ q ∈ p :: f.quotes doc, missingText <:+: q then .ok {}
            else .error (parseFault p doc f), d))) ∧
    ∀ e d, ctx disk = (.error e, d) →
      loadOrDefault ctx disk = (if e.isMissing then .ok {} else .error e, d) ∧
      ∀ l, ctx = context l → d.exists? l.file.parts = false := by
  refine ⟨fun c d h => loadOrDefault_of_load_ok h, fun p d h => ⟨fun hno => ?_, fun hthere => ?_⟩,
    fun e d h => ⟨?_, ?_⟩⟩
  · rw [loadOrDefault_of_load_error (load_of_not_exists h hno), if_pos]
    exact Bool.or_eq_true_iff.2 (.inl (occursIn_iff.2 List.infix_rfl))
  · constructor
    · intro e hread
      rw [loadOrDefault_of_load_error (load_of_unreadable h hthere hread),
        if_congr (isMissing_readFault_iff e) rfl rfl]
    · intro doc f hread hdoc
      rw [loadOrDefault_of_load_error (load_of_undecoded h hthere hread hdoc),
        if_congr (isMissing_parseFault_iff doc f) rfl rfl]
  · exact loadOrDefault_of_load_error (by simp only [load, withFile, h])
  · rintro l rfl
    exact not_exists?_of_context_error h

/-! ### A file with the words in it -/

/-- A place for the configuration, and a disk on which the file of it holds a text. -/
def samplePlace : Location := .under "/r".toList

def sampleDisk (text : String) : Node :=
  .dir [("r".toList, .dir [("config".toList, .dir [("config.toml".toList, .file text.toUTF8)])])]

lemma context_sampleDisk (text : String) :
    context samplePlace (sampleDisk text) = (.ok samplePlace.file, sampleDisk text) := rfl

lemma readText_sampleDisk (text : String) :
    readText samplePlace.file (sampleDisk text) = .ok text.toList := by
  have hfile : (sampleDisk text).readFile samplePlace.file.parts = .ok text.toUTF8 := rfl
  have hutf8 : String.fromUTF8? text.toUTF8 = some text := dif_pos text.isValidUTF8
  simp only [readText, hfile, hutf8]

/-- A value without quotes is reported. -/
theorem loadOrDefault_cases_of_unquoted_text :
    let disk := sampleDisk "preview = yes"
    let doc := "preview = yes".toList
    let f : Toml.Failure := ⟨some 10, .complaint .unquotedString⟩
    disk.exists? samplePlace.file.parts = true ∧ readText samplePlace.file disk = .ok doc ∧
      Config.ofToml doc = .error f ∧
      loadOrDefault (context samplePlace) disk =
        (.error (parseFault samplePlace.file doc f), disk) := by
  intro disk doc f
  have hdoc : Config.ofToml doc = .error f := by decide +kernel
  have hread := readText_sampleDisk "preview = yes"
  have h := ((loadOrDefault_cases (context samplePlace) disk).2.1 _ _ (context_sampleDisk _)).2 rfl
  refine ⟨rfl, hread, hdoc, (h.2 doc f hread hdoc).trans ?_⟩
  rw [if_neg (by decide +kernel)]

/-- The words of the missing file as a value of the wrong type: the file is there and is not loaded,
and yet the defaults are given. -/
theorem loadOrDefault_of_quoted_words :
    let disk := sampleDisk "preview = \"Config file not found\""
    disk.exists? samplePlace.file.parts = true ∧
      (∃ e, (load (context samplePlace) disk).1 = .error e) ∧
      (loadOrDefault (context samplePlace) disk).1 = .ok {} := by
  intro disk
  have hload := load_of_undecoded
    (f := ⟨some 10, .wrongType "string \"Config file not found\"".toList .boolean⟩)
    (context_sampleDisk "preview = \"Config file not found\"") rfl (readText_sampleDisk _)
    (by decide +kernel)
  refine ⟨rfl, ⟨_, congrArg Prod.fst hload⟩, ?_⟩
  rw [loadOrDefault_of_load_error hload, if_pos]
  rw [isMissing_parseFault_iff]
  decide +kernel

end Store

end TaskCapture
