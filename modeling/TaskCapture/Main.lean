import Std.Time.Zoned
import TaskCapture.CommandLine.Run

/-!
The program. What stands on the way to the configuration is read from the disk, `Program.run`
decides all else, and a directory that it made is made on the disk too.
-/

namespace TaskCapture.Program

/-- The local time. The part of the second is cut off, so that a time on the full minute is not past
in its first second, where a finer clock would have it past. -/
def clock : IO (Option Instant) := do
  let t ← Std.Time.PlainDateTime.now
  return do
    let date ← Date.ofYmd? t.year t.month.val.toNat t.day.val.toNat
    let time ← Clock.ofHms? t.hour.val.toNat t.minute.val.toNat t.second.val.toNat
    return ⟨date, time⟩

def userLocation? : IO (Option Location) := do
  let home := (← IO.getEnv "HOME").filter (· ≠ "")
  let configHome ← IO.getEnv "XDG_CONFIG_HOME"
  return Location.ofEnvironment? (home.map (·.toList)) (configHome.map (·.toList))

def faultOf : IO.Error → DiskFault
  | .permissionDenied .. => .permissionDenied
  | e => .other e.toString.toList

/-- What stands at a path; of a directory only `entries` are looked at. -/
def nodeAt? (path : String) (entries : List (Text × Node)) : IO (Option Node) := do
  let p := (← IO.currentDir) / path
  if ← p.isDir then return some (.dir entries)
  else if ← p.pathExists then
    try return some (.file (← IO.FS.readBinFile p))
    catch e => return some (.closedFile (faultOf e))
  else return none

/-- What stands on the way from `path` along the names. -/
def look (path : String) : List Text → IO (Option Node)
  | [] => nodeAt? path []
  | k :: ks => do
    let below ← look (path ++ "/" ++ String.ofList k) ks
    nodeAt? path (below.map (k, ·)).toList

/-- The disk as far as a location needs it. -/
def diskFor (l : Location) : IO Node := do
  return (← look (if l.file.isAbsolute then "/" else ".") l.file.parts).getD (.dir [])

end TaskCapture.Program

open TaskCapture in
def main (args : List String) : IO UInt32 := do
  let args := args.map (·.toList)
  let some now ← Program.clock | IO.eprintln "Error: No date"; return 1
  let home ← Program.userLocation?
  let place := (Request.ofArgs args).toOption.bind (Program.location? home)
  let disk ← (place.mapM Program.diskFor : IO (Option Node))
  let disk := disk.getD (.dir [])
  let (outcome, after) := Program.run now home args disk
  if let some l := place then
    if !disk.exists? l.dir.parts && after.exists? l.dir.parts then
      IO.FS.createDirAll (String.ofList l.dir)
  match outcome with
  | .success t => IO.print (String.ofList t); return 0
  | .failure t => IO.eprint (String.ofList t); return 1
