import TaskCapture.Toml.Scalar
import TaskCapture.Toml.Strings

/-!
Reading TOML: from the outline of a document to the members of its tables. A key is defined once; a
header may add to a table that other headers only imply, and a dotted key only to tables that no
header names. The first failure in the order of the document is reported.
-/

namespace TaskCapture.Toml

/-! ### Keys -/

structure Key where
  name : Text
  place : Nat
  deriving DecidableEq, Repr

/-- The parts of a dotted key before the last, and the last. -/
structure KeyPath where
  path : List Key
  last : Key
  deriving DecidableEq, Repr

def isBareKeyChar (c : Char) : Bool := c.isAlphanum || c == '_' || c == '-'

/-- The key that a word writes. -/
def Word.key (w : Word) : Except Failure Key := do
  match w.quoting with
  | .bare =>
    if w.text.isEmpty || !w.text.all isBareKeyChar then fail w.place .invalidKey
    else return ⟨w.text, w.place⟩
  | .literal | .basic => return ⟨← w.string, w.place⟩
  | .literalLines | .basicLines => fail w.place .keyOnLines

/-- A dotted key has at most `maxDepth` parts. -/
def DottedKey.keys (k : DottedKey) : Except Failure KeyPath := do
  let path ← k.path.mapM Word.key
  let last ← k.last.key
  if path.length < Outline.maxDepth then return ⟨path, last⟩ else .error ⟨none, .tooDeep⟩

/-! ### Tables -/

def duplicate {α : Type} (k : Key) : Except Failure α := .error ⟨some k.place, .duplicateKey⟩

/-- A table that is there because a key passes through it. -/
def Key.table (k : Key) (origin : Origin) (ms : Members) : Member Toml :=
  ⟨k.name, k.place, k.place, .table origin ms⟩

/-- Changes the members of the table to which headers lead, making the tables that are missing. -/
def underHeader (f : Members → Except Failure Members) : List Key → Members → Except Failure Members
  | [], ms => f ms
  | k :: ks, ms =>
    match ms.get? k.name with
    | none => do return ms.put (k.table .implied (← underHeader f ks []))
    | some m =>
      match m.value with
      | .table .braces _ => duplicate k
      | .table o inner => do return ms.put { m with value := .table o (← underHeader f ks inner) }
      | .arr true vs =>
        match vs.getLast? with
        | some (.table o inner) => do
          let inner ← underHeader f ks inner
          return ms.put { m with value := .arr true (vs.dropLast ++ [.table o inner]) }
        | _ => duplicate k
      | _ => duplicate k

/-- Changes the members of the table to which a dotted key leads, making the tables that are
missing. The last part of the key is `last`; it may not stand directly in a table of a list. -/
def underDots (last : Key) (f : Members → Except Failure Members) :
    List Key → Members → Except Failure Members
  | [], ms => f ms
  | k :: ks, ms =>
    match ms.get? k.name with
    | none => do return ms.put (k.table .dotted (← underDots last f ks []))
    | some m =>
      match m.value with
      | .table .braces _ => duplicate k
      | .table .header _ => duplicate k
      | .table _ inner => do
        return ms.put { m with value := .table .dotted (← underDots last f ks inner) }
      | .arr true vs =>
        match vs.getLast? with
        | some (.table o inner) =>
          if ks.isEmpty then duplicate last
          else do
            let inner ← underDots last f ks inner
            return ms.put { m with value := .arr true (vs.dropLast ++ [.table o inner]) }
        | _ => duplicate k
      | _ => duplicate k

/-- The members with a value under a key that is not taken. -/
def assign (k : KeyPath) (place : Nat) (v : Toml) : Members → Except Failure Members :=
  underDots k.last
    (fun ms =>
      match ms.get? k.last.name with
      | none => .ok (ms.put ⟨k.last.name, k.last.place, place, v⟩)
      | some _ => duplicate k.last)
    k.path

/-! ### Values -/

mutual

/-- The value that a draft describes. -/
def Draft.value : Draft → Except Failure Toml
  | .word w => if w.quoting = .bare then scalar w.place w.text else w.string.map .str
  | .list _ items => (draftValues items).map (.arr false)
  | .table _ entries => (addEntries entries []).map (.table .braces)

def draftValues : List Draft → Except Failure (List Toml)
  | [] => .ok []
  | d :: ds => do
    let v ← d.value
    return v :: (← draftValues ds)

/-- The members with more of them, as entries give them. -/
def addEntries : List Entry → Members → Except Failure Members
  | [], ms => .ok ms
  | (k, d) :: es, ms => do
    let k ← k.keys
    let v ← d.value
    addEntries es (← assign k d.place v ms)

end

/-! ### Sections -/

/-- Adds the table of a header with its entries. It takes up the members that a table has which
headers only imply. -/
def addTable (k : Key) (place : Nat) (es : List Entry) (ms : Members) : Except Failure Members := do
  let before ← match (ms.get? k.name).map Member.value with
    | none => pure []
    | some (.table .implied inner) => pure inner
    | some _ => duplicate k
  return ms.put ⟨k.name, k.place, place, .table .header (← addEntries es before)⟩

/-- Adds a table to a list of tables. -/
def addItem (k : Key) (place : Nat) (item : Members) (ms : Members) : Except Failure Members :=
  match ms.get? k.name with
  | none => .ok (ms.put ⟨k.name, k.place, place, .arr true [.table .header item]⟩)
  | some m =>
    match m.value with
    | .arr true vs => .ok (ms.put { m with value := .arr true (vs ++ [.table .header item]) })
    | _ => duplicate k

/-- Adds a section. A table is looked up before its entries are read, the list that an item belongs
to after them. -/
def addSection (ms : Members) (s : Section) : Except Failure Members := do
  let k ← s.header.key.keys
  if s.header.isItem then
    let item ← addEntries s.entries []
    underHeader (addItem k.last s.header.place item) k.path ms
  else underHeader (addTable k.last s.header.place s.entries) k.path ms

/-- The members of the table that an outline describes. -/
def Outline.members (o : Outline) : Except Failure Members := do
  o.sections.foldlM addSection (← addEntries o.entries [])

/-- The members of a document. -/
def read (doc : Text) : Except Failure Members := do (← Outline.ofText doc).members

end TaskCapture.Toml
