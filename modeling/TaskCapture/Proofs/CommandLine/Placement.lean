import Mathlib.Data.List.Basic
import TaskCapture.CommandLine.Args

/-!
Options may stand anywhere on the command line. Arguments of which no option lacks its value part in
one way into options, with their values, and other words; what they ask for, and the error that they
are refused with, depends on these two lists alone, so the options can just as well stand first. Of
several options of a kind the last one counts, and what is captured is made of the other words only.
-/

namespace TaskCapture

open Text

namespace Options

/-- An option with the value that it takes. -/
inductive Setting where
  | help
  | verbose
  | json
  | root (path : Text)
  | now (date : Text)
  | count (number : Text)
  deriving DecidableEq

namespace Setting

def flag : Setting → Flag
  | help => .help
  | verbose => .verbose
  | json => .json
  | root _ => .root
  | now _ => .now
  | count _ => .count

def value? : Setting → Option Text
  | root p => some p
  | now d => some d
  | count n => some n
  | _ => none

def path? : Setting → Option Text
  | root p => some p
  | _ => none

/-- The instant that is read from a date, if it is one. -/
def instant? : Setting → Option Instant
  | now d => (readInstant d).toOption.map (·.1)
  | _ => none

def number? : Setting → Option ℕ
  | count n => readNat maxCount n
  | _ => none

end Setting

/-- An option as it stands among the arguments: under one of its names, with its value after it. -/
structure Group where
  name : Text
  setting : Setting
  flag?_name : flag? name = some setting.flag

namespace Group

def args (g : Group) : List Text := g.name :: g.setting.value?.toList

/-- The options with this one set, unless its value is refused. -/
def set (g : Group) (o : Options) : Except ArgsError Options :=
  match g.setting with
  | .help => .ok o
  | .verbose => .ok { o with verbose := true }
  | .json => .ok { o with json := true }
  | .root p => .ok { o with root := some p }
  | .now d => (readInstant d).map fun i => { o with now := some i.1 }
  | .count n =>
    match readNat maxCount n with
    | some k => .ok { o with count := k }
    | none => .error (.badCount n)

end Group

/-- Arguments that part into options and other words, both in their order. -/
inductive Parted : List Text → List Group → List Text → Prop
  | nil : Parted [] [] []
  | option (g : Group) {args : List Text} {gs : List Group} {ws : List Text}
      (h : Parted args gs ws) : Parted (g.args ++ args) (g :: gs) ws
  | word {w : Text} {args : List Text} {gs : List Group} {ws : List Text}
      (hw : flag? w = none) (h : Parted args gs ws) : Parted (w :: args) gs (w :: ws)

def Flag.takesValue : Flag → Bool
  | .root | .now | .count => true
  | .help | .verbose | .json => false

/-- At the end stands an option that takes a value, without one. -/
def LacksValue (args : List Text) : Prop :=
  ∃ before gs ws name f, Parted before gs ws ∧ args = before ++ [name] ∧ flag? name = some f ∧
    f.takesValue

variable {args args' : List Text} {gs gs' : List Group} {ws ws' : List Text} {w v : Text} {f : Flag}

/-! ### The parts of a list of arguments -/

lemma exists_group (h : flag? w = some f) (hf : f.takesValue = false) :
    ∃ g : Group, g.args = [w] := by
  cases f with
  | help => exact ⟨⟨w, .help, h⟩, rfl⟩
  | verbose => exact ⟨⟨w, .verbose, h⟩, rfl⟩
  | json => exact ⟨⟨w, .json, h⟩, rfl⟩
  | _ => cases hf

lemma exists_group_of_takesValue (h : flag? w = some f) (hf : f.takesValue = true) (v : Text) :
    ∃ g : Group, g.args = [w, v] := by
  cases f with
  | root => exact ⟨⟨w, .root v, h⟩, rfl⟩
  | now => exact ⟨⟨w, .now v, h⟩, rfl⟩
  | count => exact ⟨⟨w, .count v, h⟩, rfl⟩
  | _ => cases hf

lemma Group.takesValue_eq (g : Group) : g.setting.flag.takesValue = g.setting.value?.isSome := by
  cases g.setting <;> rfl

/-- Where an option begins, its name tells how far it goes. -/
lemma Group.append_inj {g g' : Group} (h : g.args ++ args = g'.args ++ args') :
    g = g' ∧ args = args' := by
  obtain ⟨n, s, hn⟩ := g
  obtain ⟨n', s', hn'⟩ := g'
  simp only [Group.args, List.cons_append, List.cons.injEq] at h
  obtain ⟨rfl, h⟩ := h
  have hflag : s.flag = s'.flag := Option.some.inj (hn.symm.trans hn')
  cases s <;> cases s' <;> simp_all [Setting.flag, Setting.value?]

namespace Parted

lemma append (h : Parted args gs ws) (h' : Parted args' gs' ws') :
    Parted (args ++ args') (gs ++ gs') (ws ++ ws') := by
  induction h with
  | nil => exact h'
  | option g _ ih => rw [List.append_assoc]; exact .option g ih
  | word hw _ ih => exact .word hw ih

lemma of_groups (gs : List Group) : Parted (gs.flatMap Group.args) gs [] := by
  induction gs with
  | nil => exact .nil
  | cons g gs ih => exact .option g ih

lemma of_words (h : Parted args gs ws) : Parted ws [] ws := by
  induction h with
  | nil => exact .nil
  | option _ _ ih => exact ih
  | word hw _ ih => exact .word hw ih

/-- The options moved to the front. -/
lemma options_first (h : Parted args gs ws) : Parted (gs.flatMap Group.args ++ ws) gs ws := by
  simpa using (of_groups gs).append h.of_words

/-- How the arguments begin. -/
lemma cases_first (h : Parted args gs ws) :
    (args = [] ∧ gs = [] ∧ ws = []) ∨
      (∃ g rest gs', args = g.args ++ rest ∧ gs = g :: gs' ∧ Parted rest gs' ws) ∨
      ∃ w rest ws', args = w :: rest ∧ ws = w :: ws' ∧ flag? w = none ∧ Parted rest gs ws' := by
  cases h with
  | nil => exact .inl ⟨rfl, rfl, rfl⟩
  | option g h => exact .inr (.inl ⟨g, _, _, rfl, rfl, h⟩)
  | word hw h => exact .inr (.inr ⟨_, _, _, rfl, rfl, hw, h⟩)

lemma exists_of_option {g : Group} (h : Parted (g.args ++ args) gs ws) :
    ∃ gs', gs = g :: gs' ∧ Parted args gs' ws := by
  rcases h.cases_first with ⟨hnil, -, -⟩ | ⟨g', rest, gs', hargs, rfl, h⟩ |
    ⟨w, rest, ws', hargs, -, hw, -⟩
  · cases hnil
  · obtain ⟨rfl, rfl⟩ := Group.append_inj hargs
    exact ⟨gs', rfl, h⟩
  · obtain ⟨rfl, -⟩ := List.cons.inj hargs
    rw [g.flag?_name] at hw
    cases hw

lemma exists_of_word (hw : flag? w = none) (h : Parted (w :: args) gs ws) :
    ∃ ws', ws = w :: ws' ∧ Parted args gs ws' := by
  rcases h.cases_first with ⟨hnil, -, -⟩ | ⟨g', rest, gs', hargs, -, -⟩ |
    ⟨w, rest, ws', hargs, rfl, -, h⟩
  · cases hnil
  · obtain ⟨rfl, -⟩ := List.cons.inj hargs
    rw [g'.flag?_name] at hw
    cases hw
  · obtain ⟨rfl, rfl⟩ := List.cons.inj hargs
    exact ⟨ws', rfl, h⟩

/-- Behind arguments that part, the rest parts by itself. -/
lemma exists_of_append (h : Parted args gs ws) (h' : Parted (args ++ args') gs' ws') :
    ∃ gs'' ws'', gs' = gs ++ gs'' ∧ ws' = ws ++ ws'' ∧ Parted args' gs'' ws'' := by
  induction h generalizing gs' ws' with
  | nil => exact ⟨gs', ws', rfl, rfl, h'⟩
  | option g _ ih =>
    rw [List.append_assoc] at h'
    obtain ⟨gs', rfl, hrest⟩ := h'.exists_of_option
    obtain ⟨gs'', ws'', rfl, rfl, hlast⟩ := ih hrest
    exact ⟨gs'', ws'', rfl, rfl, hlast⟩
  | word hw _ ih =>
    obtain ⟨ws', rfl, hrest⟩ := exists_of_word hw h'
    obtain ⟨gs'', ws'', rfl, rfl, hlast⟩ := ih hrest
    exact ⟨gs'', ws'', rfl, rfl, hlast⟩

lemma of_nil (h : Parted [] gs ws) : gs = [] ∧ ws = [] := by
  rcases h.cases_first with ⟨-, rfl, rfl⟩ | ⟨g, rest, -, hargs, -⟩ | ⟨w, rest, -, hargs, -⟩
  · exact ⟨rfl, rfl⟩
  · cases hargs
  · cases hargs

/-- Arguments part in one way only. -/
lemma unique (h : Parted args gs ws) (h' : Parted args gs' ws') : gs' = gs ∧ ws' = ws := by
  rw [← List.append_nil args] at h'
  obtain ⟨gs'', ws'', rfl, rfl, hnil⟩ := h.exists_of_append h'
  obtain ⟨rfl, rfl⟩ := hnil.of_nil
  exact ⟨List.append_nil gs, List.append_nil ws⟩

lemma not_lacksValue (h : Parted args gs ws) : ¬ LacksValue args := by
  rintro ⟨before, gs', ws', name, f, hbefore, rfl, hf, hvalue⟩
  obtain ⟨gs'', ws'', -, -, hlast⟩ := hbefore.exists_of_append h
  rcases hlast.cases_first with
    ⟨hnil, -, -⟩ | ⟨g, rest, -, hargs, -⟩ | ⟨w, rest, -, hargs, -, hw, -⟩
  · cases hnil
  · obtain ⟨rfl, hrest⟩ := List.cons.inj hargs
    obtain rfl : g.setting.flag = f := Option.some.inj (g.flag?_name.symm.trans hf)
    rw [g.takesValue_eq] at hvalue
    obtain ⟨v, hv⟩ := Option.isSome_iff_exists.1 hvalue
    simp [hv] at hrest
  · obtain ⟨rfl, -⟩ := List.cons.inj hargs
    rw [hw] at hf
    cases hf

end Parted

lemma LacksValue.append_left (h : Parted args gs ws) (h' : LacksValue args') :
    LacksValue (args ++ args') := by
  obtain ⟨before, gs', ws', name, f, hbefore, rfl, hf⟩ := h'
  exact ⟨_, _, _, name, f, h.append hbefore, (List.append_assoc _ _ _).symm, hf⟩

/-- Where no option lacks its value, the arguments part. -/
lemma exists_parted (h : ¬ LacksValue args) : ∃ gs ws, Parted args gs ws := by
  -- by the length, since an option takes its value along
  induction hn : args.length using Nat.strongRecOn generalizing args with
  | ind n ih =>
    have hgroup (g : Group) (rest : List Text) (hargs : args = g.args ++ rest) :
        ∃ gs ws, Parted args gs ws := by
      subst hargs
      have hone : Parted g.args [g] [] := by simpa using Parted.option g .nil
      have hlen : rest.length < n := by
        rw [← hn, List.length_append, Group.args, List.length_cons]
        omega
      obtain ⟨gs, ws, hrest⟩ := ih rest.length hlen (fun hl => h (hl.append_left hone)) rfl
      exact ⟨_, _, .option g hrest⟩
    cases args with
    | nil => exact ⟨[], [], .nil⟩
    | cons w rest =>
      cases hw : flag? w with
      | none =>
        obtain ⟨gs, ws, hrest⟩ := ih rest.length (by simp [← hn])
          (fun hl => h (hl.append_left (.word hw .nil))) rfl
        exact ⟨_, _, .word hw hrest⟩
      | some f =>
        cases hf : f.takesValue with
        | false =>
          obtain ⟨g, hg⟩ := exists_group hw hf
          exact hgroup g rest (by rw [hg]; rfl)
        | true =>
          cases rest with
          | nil => exact absurd ⟨[], [], [], w, f, .nil, rfl, hw, hf⟩ h
          | cons v rest =>
            obtain ⟨g, hg⟩ := exists_group_of_takesValue hw hf v
            exact hgroup g rest (by rw [hg]; rfl)

/-! ### What the options come to -/

lemma scan_group (g : Group) (o : Options) (rest : List Text) :
    scan o (g.args ++ rest) = if g.setting = .help then .ok (.help o)
      else (g.set o).bind fun o => scan o rest := by
  obtain ⟨n, s, hn⟩ := g
  cases s with
  | now d =>
    simp only [Group.args, Setting.value?, Option.toList_some, List.cons_append, List.nil_append,
      scan, hn, Setting.flag, Group.set]
    cases readInstant d <;> rfl
  | count m =>
    simp only [Group.args, Setting.value?, Option.toList_some, List.cons_append, List.nil_append,
      scan, hn, Setting.flag, Group.set]
    cases readNat maxCount m <;> rfl
  | _ => simp [Group.args, Setting.value?, scan, hn, Setting.flag, Group.set, Except.bind]

lemma scan_word (hw : flag? w = none) (o : Options) (rest : List Text) :
    scan o (w :: rest) = (scan o rest).map (·.push w) := by
  simp only [scan, hw]

lemma foldr_push_help (o : Options) (ws : List Text) :
    ws.foldr Scanned.push (.help o) = .help o := by
  induction ws with
  | nil => rfl
  | cons w ws ih => rw [List.foldr_cons, ih]; rfl

lemma foldr_push_words (o : Options) (ws us : List Text) :
    ws.foldr Scanned.push (.words o us) = .words o (ws ++ us) := by
  induction ws with
  | nil => rfl
  | cons w ws ih => rw [List.foldr_cons, ih]; rfl

/-- The options are read as they are without the other words, and these are then put to them. -/
lemma Parted.scan_eq (h : Parted args gs ws) (o : Options) :
    scan o args = (scan o (gs.flatMap Group.args)).map (ws.foldr Scanned.push ·) := by
  induction h generalizing o with
  | nil => rfl
  | @option g args gs ws _ ih =>
    rw [List.flatMap_cons, scan_group, scan_group]
    split_ifs
    · -- help ends the scan, and no words are put to it
      rw [Except.map, foldr_push_help]
    · cases g.set o with
      | ok o => exact ih o
      | error e => rfl
  | @word w args gs ws hw _ ih =>
    rw [scan_word hw, ih]
    cases scan o (gs.flatMap Group.args) <;> rfl

/-- The options that groups set, where those already set stand behind them: the last group of a kind
holds. -/
def setBy (o : Options) (gs : List Group) : Options where
  root := (gs.filterMap (·.setting.path?)).getLast?.or o.root
  verbose := gs.any (·.setting = .verbose) || o.verbose
  json := gs.any (·.setting = .json) || o.json
  now := (gs.filterMap (·.setting.instant?)).getLast?.or o.now
  count := (gs.filterMap (·.setting.number?)).getLast?.getD o.count

lemma getLast?_filterMap_cons {α β : Type} (f : α → Option β) (a : α) (as : List α) :
    ((a :: as).filterMap f).getLast? = (as.filterMap f).getLast?.or (f a) := by
  cases hf : f a with
  | none => simp [hf]
  | some b => cases hl : (as.filterMap f).getLast? <;> simp [hf, List.getLast?_cons, hl]

lemma setBy_nil (o : Options) : o.setBy [] = o := by
  cases o
  rfl

/-- What a group sets gives way to the groups after it. -/
lemma setBy_of_set {g : Group} {o o' : Options} (h : g.set o = .ok o') (gs : List Group) :
    o'.setBy gs = o.setBy (g :: gs) := by
  obtain ⟨n, s, hn⟩ := g
  simp only [setBy, getLast?_filterMap_cons, List.any_cons, Option.or_assoc]
  cases s with
  | now d =>
    obtain ⟨i, hi, rfl⟩ : ∃ i, readInstant d = .ok i ∧ { o with now := some i.1 } = o' := by
      cases hd : readInstant d with
      | ok i => exact ⟨i, rfl, by simpa [Group.set, hd, Except.map] using h⟩
      | error e => simp [Group.set, hd, Except.map] at h
    simp [Setting.path?, Setting.instant?, Setting.number?, hi, Except.toOption]
  | count m =>
    obtain ⟨k, hk, rfl⟩ : ∃ k, readNat maxCount m = some k ∧ { o with count := k } = o' := by
      cases hm : readNat maxCount m with
      | some k => exact ⟨k, rfl, by simpa [Group.set, hm] using h⟩
      | none => simp [Group.set, hm] at h
    simp [Setting.path?, Setting.instant?, Setting.number?, hk]
  | _ =>
    cases h
    simp [Setting.path?, Setting.instant?, Setting.number?]

/-- The options that groups come to: those after a question for help are not looked at. -/
def ofGroups (o : Options) (gs : List Group) : Options :=
  o.setBy (gs.takeWhile (·.setting ≠ .help))

lemma ofGroups_cons {g : Group} {o o' : Options} (hg : g.setting ≠ .help) (h : g.set o = .ok o')
    (gs : List Group) : o'.ofGroups gs = o.ofGroups (g :: gs) := by
  rw [ofGroups, ofGroups, setBy_of_set h, List.takeWhile_cons_of_pos (by simpa using hg)]

lemma eq_of_scan_groups {o : Options} {s : Scanned}
    (h : scan o (gs.flatMap Group.args) = .ok s) :
    s = if ∃ g ∈ gs, g.setting = .help then .help (o.ofGroups gs)
      else .words (o.ofGroups gs) [] := by
  induction gs generalizing o with
  | nil =>
    cases h
    simp [ofGroups, setBy_nil]
  | cons g gs ih =>
    rw [List.flatMap_cons, scan_group] at h
    split_ifs at h with hg
    · cases h
      simp [ofGroups, hg, setBy_nil]
    · cases ho : g.set o with
      | error e =>
        rw [ho] at h
        cases h
      | ok o' =>
        rw [ho] at h
        rw [ih h, ofGroups_cons hg ho]
        simp [hg]

end Options

open Options

namespace Command

/-- The text that a command captures or looks at. -/
def text? : Command → Option Text
  | parse t _ _ => some t
  | check t => some t
  | _ => none

lemma eq_of_text?_ofWords {o : Options} {ws : List Text} {c : Command} {t : Text}
    (h : ofWords o ws = .ok c) (ht : c.text? = some t) : t = joinWords ws.tail := by
  unfold ofWords at h
  split at h
  · cases h
    cases ht
  · next w ws =>
    split_ifs at h
    · cases h
      cases ht
    · cases h
      exact (Option.some.inj ht).symm
    · cases h
      exact (Option.some.inj ht).symm
    · split at h
      · cases h
      · cases h
      · next date _ _ =>
        cases hd : readInstant date with
        | error e =>
          rw [hd] at h
          cases h
        | ok i =>
          rw [hd] at h
          cases h
          cases ht

end Command

namespace Request

/-- What a line asks for, from what its options and words come to. -/
def ofScanned : Scanned → Except ArgsError Request
  | .help o => .ok ⟨o.root, o.verbose, .help⟩
  | .words o ws => (Command.ofWords o ws).map (⟨o.root, o.verbose, ·⟩)

lemma ofArgs_eq (args : List Text) : ofArgs args = (scan {} args).bind ofScanned := by
  unfold ofArgs
  cases scan {} args with
  | error e => rfl
  | ok s =>
    cases s with
    | help o => rfl
    | words o ws =>
      let request (c : Command) : Request := ⟨o.root, o.verbose, c⟩
      change (Command.ofWords o ws).bind (fun c => .ok (request c)) =
        (Command.ofWords o ws).map request
      cases Command.ofWords o ws <;> rfl

lemma ofScanned_words_eq_ok_iff {o : Options} {ws : List Text} {q : Request} :
    ofScanned (.words o ws) = .ok q ↔
      q.root = o.root ∧ q.verbose = o.verbose ∧ Command.ofWords o ws = .ok q.command := by
  obtain ⟨root, verbose, command⟩ := q
  rw [ofScanned]
  cases Command.ofWords o ws with
  | error e => simp [Except.map]
  | ok c => simp [Except.map, eq_comm]

/-- What a line asks for that is accepted, by its groups and words. -/
lemma ofScanned_of_ofArgs {args : List Text} {gs : List Group} {ws : List Text} {q : Request}
    (h : Parted args gs ws) (hq : ofArgs args = .ok q) :
    ofScanned (if ∃ g ∈ gs, g.setting = .help then .help (({} : Options).ofGroups gs)
      else .words (({} : Options).ofGroups gs) ws) = .ok q := by
  rw [ofArgs_eq, h.scan_eq] at hq
  cases hs : scan {} (gs.flatMap Group.args) with
  | error e =>
    rw [hs] at hq
    cases hq
  | ok s =>
    rw [hs, eq_of_scan_groups hs] at hq
    rw [← hq]
    split_ifs
    · rw [Except.map, foldr_push_help]
      rfl
    · rw [Except.map, foldr_push_words, List.append_nil]
      rfl

end Request

end TaskCapture
