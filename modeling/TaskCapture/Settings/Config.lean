import TaskCapture.Capture.Priority
import TaskCapture.Toml.Document

/-!
The configuration and its TOML text. Keys that are missing have their defaults and keys of other
names are passed over.
-/

namespace TaskCapture

inductive LogFilter where
  | off
  | error
  | warn
  | info
  | debug
  | trace
  deriving DecidableEq, Repr

def LogFilter.names : List (String × LogFilter) :=
  [("off", off), ("error", error), ("warn", warn), ("info", info), ("debug", debug),
   ("trace", trace)]

structure Config where
  logLevel : Text := "warn".toList
  /-- Show a one-line preview after interpreting a line. -/
  preview : Bool := true
  jsonOutput : Bool := false
  /-- The priority of a line without a marker. -/
  defaultPriority : Option Priority := none
  deriving DecidableEq

namespace Config

/-- The filter that the log level names, whatever its letter case; `warn` if it names none. -/
def logFilter (c : Config) : LogFilter :=
  ((LogFilter.names.find? fun e => e.1.toList == c.logLevel.map Char.toLower).map (·.2)).getD .warn

/-! ### Writing -/

def boolText (b : Bool) : Text := (if b then "true" else "false").toList

/-- A key with its value on a line. -/
def entry (key : String) (value : Text) : Text := key.toList ++ " = ".toList ++ value ++ ['\n']

/-- The text of a configuration; a default priority is written only if there is one. -/
def toml (c : Config) : Text :=
  entry "log_level" (Toml.writeString c.logLevel) ++ entry "preview" (boolText c.preview) ++
    entry "json_output" (boolText c.jsonOutput) ++
    match c.defaultPriority with
    | none => []
    | some p => entry "default_priority" (Toml.writeString p.code.toList)

/-! ### Reading -/

open Toml

/-- The kind of a value, for the message that it is the wrong one. -/
def kindText : Toml → Text
  | .str s => "string \"".toList ++ s ++ ['"']
  | .bool b => "boolean \x60".toList ++ boolText b ++ ['\x60']
  | .int n => "integer \x60".toList ++ (toString n).toList ++ ['\x60']
  | .float w => "floating point \x60".toList ++ w ++ ['\x60']
  | .overflow _ _ => "number".toList
  | .moment _ => "map".toList
  | .arr _ _ => "sequence".toList
  | .table _ _ => "map".toList

mutual

/-- Every number in a value can be held. -/
def checkNumbers : Toml → Except Failure Unit
  | .overflow place what => fail place what
  | .arr _ vs => checkItems vs
  | .table _ ms => checkMembers ms
  | _ => .ok ()

def checkItems : List Toml → Except Failure Unit
  | [] => .ok ()
  | v :: vs => do
    checkNumbers v
    checkItems vs

def checkMembers : List (Member Toml) → Except Failure Unit
  | [] => .ok ()
  | ⟨_, _, _, v⟩ :: ms => do
    checkNumbers v
    checkMembers ms

end

def wrongType {α : Type} (m : Member Toml) (wanted : Wanted) : Except Failure α :=
  match m.value with
  | .overflow place what => fail place what
  | v => .error ⟨some m.place, .wrongType (kindText v) wanted⟩

def textOf (m : Member Toml) : Except Failure Text :=
  match m.value with
  | .str s => .ok s
  | _ => wrongType m .string

def boolOf (m : Member Toml) : Except Failure Bool :=
  match m.value with
  | .bool b => .ok b
  | _ => wrongType m .boolean

def codeOf (place : Nat) (w : Text) : Except Failure Priority :=
  match Priority.ofCode? w with
  | some p => .ok p
  | none => .error ⟨some place, .unknownVariant w⟩

/-- The code of a priority, or a table with the code as the key of one empty list or table. -/
def priorityOf (m : Member Toml) : Except Failure Priority :=
  match m.value with
  | .str s => codeOf m.place s
  | .table _ [inner] => do
    let p ← codeOf inner.keyPlace inner.key
    match inner.value with
    | .arr _ [] => return p
    | .table _ [] => return p
    | _ => fail inner.place .expectedEmptyTable
  | .table _ _ => fail m.place .expectedOneMember
  | _ => fail m.place .expectedStringOrTable

/-- The configuration with what a member of the document says. Of a member with another name only
the numbers are looked at. -/
def withMember (c : Config) (m : Member Toml) : Except Failure Config := do
  if m.key = "log_level".toList then return { c with logLevel := ← textOf m }
  else if m.key = "preview".toList then return { c with preview := ← boolOf m }
  else if m.key = "json_output".toList then return { c with jsonOutput := ← boolOf m }
  else if m.key = "default_priority".toList then
    return { c with defaultPriority := some (← priorityOf m) }
  else
    checkNumbers m.value
    return c

/-- The configuration that the members of a document give, which are read in their order. -/
def ofMembers (ms : Members) : Except Failure Config := ms.foldlM withMember {}

/-- The configuration that a text writes. -/
def ofToml (t : Text) : Except Failure Config := do ofMembers (← Toml.read t)

end Config

end TaskCapture
