import TaskCapture.Calendar.Reading

/-!
The command line. Options may stand anywhere; what is left over is the command and its words. Asking
for help ends the reading at once.
-/

namespace TaskCapture

open Text

inductive Command where
  | parse (text : Text) (now : Option Instant) (json : Bool)
  /-- The flag tells of a day given without a time. -/
  | next (start : Instant) (dateOnly : Bool) (rule : Text) (count : Nat)
  | check (text : Text)
  | help
  deriving DecidableEq

/-- What a command line asks for. -/
structure Request where
  root : Option Text
  verbose : Bool
  command : Command
  deriving DecidableEq

inductive ArgsError where
  | rootWithoutPath
  | nowWithoutDate
  | countWithoutNumber
  | badDate (w : Text)
  | badCount (w : Text)
  | noText
  | nextWithoutDate
  | nextWithoutRule
  | unknownCommand (w : Text)
  deriving DecidableEq, Repr

def ArgsError.message : ArgsError → Text
  | rootWithoutPath => "--root requires a path".toList
  | nowWithoutDate => "--at requires a date".toList
  | countWithoutNumber => "--count requires a number".toList
  | badDate w => "Invalid date '".toList ++ w ++ "', expected YYYY-MM-DD[THH:MM]".toList
  | badCount w => "Invalid count '".toList ++ w ++ ['\x27']
  | noText => "parse requires capture text".toList
  | nextWithoutDate => "next requires a date".toList
  | nextWithoutRule => "next requires a rule".toList
  | unknownCommand w => "Unknown command '".toList ++ w ++ "'. Try --help.".toList

/-- An instant, or a day that stands for its midnight. -/
def readInstant (w : Text) : Except ArgsError (Instant × Bool) :=
  match Instant.readOrDate? w with
  | some r => .ok r
  | none => .error (.badDate w)

structure Options where
  root : Option Text := none
  verbose : Bool := false
  json : Bool := false
  now : Option Instant := none
  count : Nat := 1
  deriving DecidableEq

namespace Options

inductive Flag where
  | help
  | root
  | verbose
  | json
  | now
  | count
  deriving DecidableEq, Repr

def flags : List (String × Flag) :=
  [("-h", .help), ("--help", .help), ("-r", .root), ("--root", .root), ("-v", .verbose),
   ("--verbose", .verbose), ("--json", .json), ("--at", .now), ("--count", .count), ("-n", .count)]

def flag? (w : Text) : Option Flag := (flags.find? fun e => e.1.toList == w).map (·.2)

/-- The largest count, of 64 bits. -/
def maxCount : Nat := 0xFFFFFFFFFFFFFFFF

/-- What the options and words of a command line come to. -/
inductive Scanned where
  /-- Help was asked for after these options. -/
  | help (o : Options)
  | words (o : Options) (ws : List Text)
  deriving DecidableEq

def Scanned.push (w : Text) : Scanned → Scanned
  | help o => help o
  | words o ws => words o (w :: ws)

/-- Reads the options one after the other; the last of several of a kind holds. -/
def scan (o : Options) : List Text → Except ArgsError Scanned
  | [] => .ok (.words o [])
  | w :: rest =>
    match flag? w, rest with
    | some .help, _ => .ok (.help o)
    | some .verbose, rest => scan { o with verbose := true } rest
    | some .json, rest => scan { o with json := true } rest
    | some .root, [] => .error .rootWithoutPath
    | some .root, v :: rest => scan { o with root := some v } rest
    | some .now, [] => .error .nowWithoutDate
    | some .now, v :: rest =>
      match readInstant v with
      | .ok (i, _) => scan { o with now := some i } rest
      | .error e => .error e
    | some .count, [] => .error .countWithoutNumber
    | some .count, v :: rest =>
      match readNat maxCount v with
      | some n => scan { o with count := n } rest
      | none => .error (.badCount v)
    | none, rest => (scan o rest).map (·.push w)

end Options

namespace Command

def joinWords (ws : List Text) : Text := List.intercalate [' '] ws

/-- The command that words name under the options. -/
def ofWords (o : Options) : List Text → Except ArgsError Command
  | [] => .ok .help
  | w :: ws =>
    if w = "help".toList then .ok .help
    else if w = "parse".toList then
      if trim (joinWords ws) = [] then .error .noText else .ok (.parse (joinWords ws) o.now o.json)
    else if w = "check".toList then .ok (.check (joinWords ws))
    else if w = "next".toList then
      match ws with
      | [] => .error .nextWithoutDate
      | [_] => .error .nextWithoutRule
      | date :: rule :: _ =>
        (readInstant date).map fun (i, dateOnly) => .next i dateOnly rule o.count
    else .error (.unknownCommand w)

end Command

def Request.ofArgs (args : List Text) : Except ArgsError Request := do
  match ← Options.scan {} args with
  | .help o => return ⟨o.root, o.verbose, .help⟩
  | .words o ws => return ⟨o.root, o.verbose, ← Command.ofWords o ws⟩

end TaskCapture
