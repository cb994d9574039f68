import TaskCapture.Settings.Store

/-!
Scripts that exercise a location: its configuration is loaded and saved while its directory and its
file are changed by hand.
-/

namespace TaskCapture

namespace Store

inductive Step where
  | dir
  | path
  | write (content : ByteArray)
  | read
  | remove
  /-- A directory takes the place of the file. -/
  | makeDir
  | removeRoot
  /-- A file takes the place of the directory under the root. -/
  | blockDir
  /-- A file takes the place of the root. -/
  | blockRoot
  | load
  | loadOrDefault
  | save (c : Config)

inductive Answer where
  | done
  | text (t : Text)
  | config (c : Config)

/-- An operation of the disk as an action. -/
def changing (op : Node → Except DiskFault Node) : Action Answer := fun disk =>
  match op disk with
  | .ok disk => (.ok .done, disk)
  | .error e => (.error (diskFault e), disk)

/-- An action whose answer is a configuration. -/
def answering {α : Type} (f : α → Answer) (act : Action α) : Action Answer := fun disk =>
  ((act disk).1.map f, (act disk).2)

/-- One step at a location with the given root. -/
def step (root : Path) (l : Location) : Step → Action Answer
  | .dir => answering .text (ensureDir l)
  | .path => answering .text (context l)
  | .write b => withFile (context l) fun p => changing (Node.writeFile b p.parts)
  | .read => withFile (context l) fun p disk =>
    ((readText p disk).mapError diskFault |>.map .text, disk)
  | .remove => withFile (context l) fun p => changing (Node.removeFile p.parts)
  | .makeDir => withFile (context l) fun p => changing (Node.makeDir p.parts)
  | .removeRoot => changing (Node.removeTree root.parts)
  | .blockDir => changing (Node.writeFile .empty (root.join "config".toList).parts)
  | .blockRoot => changing (Node.change (fun _ => .ok (some (.file .empty))) root.parts)
  | .load => answering .config (load (context l))
  | .loadOrDefault => answering .config (loadOrDefault (context l))
  | .save c => answering (fun _ => .done) (save (context l) c)

/-- The answers to the steps of a script. -/
def run (root : Path) (l : Location) : List Step → Node → List (Except Fault Answer)
  | [], _ => []
  | s :: ss, disk => (step root l s disk).1 :: run root l ss (step root l s disk).2

end Store

end TaskCapture
