import TaskCapture.Settings.Fault
import TaskCapture.Text.Split

/-!
A disk: a tree of directories and files, of which some may be out of reach. Every operation answers
as the system does, with the fault that the first obstacle on the path gives.
-/

namespace TaskCapture

/-- What stands somewhere on the disk. A file is open or closed: what can be written can be read as
well. -/
inductive Node where
  | file (content : ByteArray)
  | dir (entries : List (Text × Node))
  /-- A file that can be neither read nor written, with what the system says then. -/
  | closedFile (fault : DiskFault)
  /-- A directory that cannot be looked into, with what the system says then. -/
  | closedDir (fault : DiskFault)

/-- Paths are written with `/` between their parts. -/
abbrev Path := Text

namespace Path

/-- The names on a path from the root of the disk. -/
def parts (p : Path) : List Text := (Text.splitAll '/' p).filter fun w => w ≠ [] ∧ w ≠ ['.']

def isAbsolute (p : Path) : Bool := p.head? == some '/'

def join (p : Path) (name : Text) : Path :=
  if p = [] ∨ p.getLast? = some '/' then p ++ name else p ++ '/' :: name

end Path

namespace Node

def child? (k : Text) : List (Text × Node) → Option Node
  | [] => none
  | (k', n) :: es => if k' = k then some n else child? k es

/-- The same entries with `k` set, or removed. -/
def setChild (k : Text) (n : Option Node) (es : List (Text × Node)) : List (Text × Node) :=
  n.toList.map (k, ·) ++ es.filter (·.1 ≠ k)

theorem child?_setChild_self (k : Text) (n : Option Node) (es : List (Text × Node)) :
    child? k (setChild k n es) = n := by
  cases n with
  | some n => simp [setChild, child?]
  | none =>
    simp only [setChild, Option.toList_none, List.map_nil, List.nil_append]
    induction es with
    | nil => rfl
    | cons e es ih => by_cases h : e.1 = k <;> simpa [h, child?] using ih

/-- What stands at a path. -/
def find : List Text → Node → Except DiskFault Node
  | [], n => .ok n
  | _ :: _, file _ => .error .notADirectory
  | _ :: _, closedFile _ => .error .notADirectory
  | _ :: _, closedDir e => .error e
  | k :: ks, dir es =>
    match child? k es with
    | none => .error .notFound
    | some n => find ks n

/-- Puts in the place of what stands at a path, or of nothing, what `f` makes of it. -/
def change (f : Option Node → Except DiskFault (Option Node)) :
    List Text → Node → Except DiskFault Node
  | [], _ => .error .isADirectory
  | _ :: _, file _ => .error .notADirectory
  | _ :: _, closedFile _ => .error .notADirectory
  | _ :: _, closedDir e => .error e
  | [k], dir es => (f (child? k es)).map fun n => dir (setChild k n es)
  | k :: ks, dir es =>
    match child? k es with
    | none => .error .notFound
    | some n => (change f ks n).map fun n => dir (setChild k (some n) es)

def exists? (ks : List Text) (n : Node) : Bool := (find ks n).toOption.isSome

def makeDir (ks : List Text) : Node → Except DiskFault Node :=
  change (fun | none => .ok (some (dir [])) | some _ => .error .alreadyExists) ks

/-- Makes a directory with all that leads to it; one that is there already is left alone. -/
def makeDirs : List Text → Node → Except DiskFault Node
  | [], dir es => .ok (dir es)
  | [], closedDir e => .ok (closedDir e)
  | [], file _ => .error .alreadyExists
  | [], closedFile _ => .error .alreadyExists
  | _ :: _, file _ => .error .notADirectory
  | _ :: _, closedFile _ => .error .notADirectory
  | _ :: _, closedDir e => .error e
  | k :: ks, dir es =>
    (makeDirs ks ((child? k es).getD (dir []))).map fun n => dir (setChild k (some n) es)

def readFile (ks : List Text) (n : Node) : Except DiskFault ByteArray :=
  match find ks n with
  | .ok (file b) => .ok b
  | .ok (dir _) => .error .isADirectory
  | .ok (closedFile e) => .error e
  | .ok (closedDir _) => .error .isADirectory
  | .error e => .error e

def writeFile (b : ByteArray) (ks : List Text) : Node → Except DiskFault Node :=
  change (fun
    | some (dir _) => .error .isADirectory
    | some (closedDir _) => .error .isADirectory
    | some (closedFile e) => .error e
    | _ => .ok (some (file b))) ks

def removeFile (ks : List Text) : Node → Except DiskFault Node :=
  change (fun
    | none => .error .notFound
    | some (dir _) => .error .isADirectory
    | some (closedDir _) => .error .isADirectory
    | some (file _) => .ok none
    | some (closedFile _) => .ok none) ks

def removeTree (ks : List Text) : Node → Except DiskFault Node :=
  change (fun
    | none => .error .notFound
    | some (file _) => .error .notADirectory
    | some (closedFile _) => .error .notADirectory
    | some (closedDir e) => .error e
    | some (dir _) => .ok none) ks

end Node

end TaskCapture
