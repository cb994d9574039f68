import TaskCapture.Settings.Config
import TaskCapture.Settings.Disk

/-!
Where the configuration is kept, and how it is loaded and saved. A fault of a missing file means the
defaults, and another is reported; which one it is, its text decides.
-/

namespace TaskCapture

/-- Whose configuration it is. -/
inductive Location where
  /-- A directory for trials; the configuration lies in `config` under it. -/
  | trial (root : Path)
  /-- A directory given by the user; the configuration lies in `config` under it. -/
  | under (root : Path)
  /-- The user's own directory for the program. -/
  | user (dir : Path)

namespace Location

def program : Text := "quickcap".toList

/-- The user's directory: under the one named for configurations, if it is named by an absolute
path, or else under the home directory. -/
def ofEnvironment? (home configHome : Option Path) : Option Location :=
  match configHome.filter Path.isAbsolute with
  | some p => some (user (p.join program))
  | none => home.map fun h => user ((h.join ".config".toList).join program)

def dir : Location → Path
  | trial root => root.join "config".toList
  | under root => root.join "config".toList
  | user d => d

def file (l : Location) : Path := l.dir.join "config.toml".toList

end Location

/-- The characters of a path that are escaped with a single character, before that character. -/
def pathEscapes : List (Char × Char) :=
  [('"', '"'), ('\x27', '\x27'), ('\\', '\\'), ('\x00', '0'), ('\t', 't'), ('\n', 'n'), ('\r', 'r')]

/-- A character as it stands in a quoted path; other control characters are written in hex. -/
def escapedInPath (c : Char) : Text :=
  match pathEscapes.lookup c with
  | some e => ['\\', e]
  | none =>
    if c.toNat < 0x20 ∨ (0x7F ≤ c.toNat ∧ c.toNat < 0xA0) then
      ['\\', 'u', '\x7b'] ++ Nat.toDigits 16 c.toNat ++ ['\x7d']
    else [c]

/-- A path in double quotes. -/
def quotedPath (p : Path) : Text := '"' :: p.flatMap escapedInPath ++ ['"']

namespace Store

/-- An action on the disk; what it changed stays also after a fault. -/
abbrev Action (α : Type) := Node → Except Fault α × Node

def diskFault (e : DiskFault) : Fault := { cause := .disk e }

/-- Makes sure of the directory of a location. One for trials is made each time, another only where
nothing stands at its path. -/
def ensureDir (l : Location) : Action Path := fun disk =>
  match l with
  | .trial _ =>
    match disk.makeDirs l.dir.parts with
    | .ok disk => (.ok l.dir, disk)
    | .error e => (.error (diskFault e), disk)
  | _ =>
    if disk.exists? l.dir.parts then (.ok l.dir, disk)
    else match disk.makeDirs l.dir.parts with
      | .ok disk => (.ok l.dir, disk)
      | .error e =>
        (.error ((diskFault e).within ("Failed to create directory: ".toList ++ quotedPath l.dir)),
          disk)

/-- What tells the path of the file, and may make directories before it does. -/
abbrev Context := Action Path

/-- Makes sure of the directory of a location and tells the path of the file in it. -/
def context (l : Location) : Context := fun disk =>
  match ensureDir l disk with
  | (.ok _, disk) => (.ok l.file, disk)
  | (.error e, disk) => (.error e, disk)

/-- Goes on with the path of the file, where it is told. -/
def withFile {α : Type} (ctx : Context) (act : Path → Action α) : Action α := fun disk =>
  match ctx disk with
  | (.ok p, disk) => act p disk
  | (.error e, disk) => (.error e, disk)

def readFault (p : Path) (e : DiskFault) : Fault :=
  { cause := .message ("Failed to read config file '".toList ++ p ++ "': ".toList ++ e.text) }

/-- The opening of the fault that a file is no configuration. -/
def parseFaultHead (p : Path) : Text := "Failed to parse config file '".toList ++ p ++ ['\x27']

def parseFault (p : Path) (doc : Text) (f : Toml.Failure) : Fault :=
  { cause := .message (parseFaultHead p ++ ": ".toList ++ f.text doc) }

def writeFault (p : Path) (e : DiskFault) : Fault :=
  { cause := .message ("Failed to write config file '".toList ++ p ++ "': ".toList ++ e.text) }

def missing : Fault := { cause := .message Fault.missingText }

/-- The text of a file. -/
def readText (p : Path) (disk : Node) : Except DiskFault Text :=
  match disk.readFile p.parts with
  | .ok b =>
    match String.fromUTF8? b with
    | some s => .ok s.toList
    | none => .error .notUtf8
  | .error e => .error e

/-- The configuration in a file. -/
def loadFile (p : Path) (disk : Node) : Except Fault Config :=
  if !disk.exists? p.parts then .error missing
  else match readText p disk with
    | .error e => .error (readFault p e)
    | .ok doc =>
      match Config.ofToml doc with
      | .ok c => .ok c
      | .error f => .error (parseFault p doc f)

def load (ctx : Context) : Action Config :=
  withFile ctx fun p disk => (loadFile p disk, disk)

/-- The configuration, or the defaults where the fault is that it is missing. -/
def loadOrDefault (ctx : Context) : Action Config := fun disk =>
  match load ctx disk with
  | (.error e, disk) => (if e.isMissing then .ok {} else .error e, disk)
  | r => r

def save (ctx : Context) (c : Config) : Action Unit :=
  withFile ctx fun p disk =>
    match disk.writeFile (String.ofList c.toml).toUTF8 p.parts with
    | .ok disk => (.ok (), disk)
    | .error e => (.error (writeFault p e), disk)

end Store

end TaskCapture
