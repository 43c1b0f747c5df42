import IndexFeed.Program
import Std.Time.DateTime

/-!
# Entry point

Gives a run of the program what it depends on and carries out what it comes to.  The decisions are
all made by `Program.run`; here they meet the real clock, environment and files.
-/

set_option autoImplicit false

namespace IndexFeed.Main

/-- The time in UTC. -/
def now : IO Log.Moment := do
  let secs := (← Std.Time.Timestamp.now).toSecondsSinceUnixEpoch.val
  let date := Std.Time.PlainDate.ofEpochDay ⟨secs / 86400⟩
  return ⟨date.year.toInt.toNat, date.month.val.toNat, date.day.val.toNat,
    (secs % 86400 / 3600).toNat⟩

/-- The variables that a run looks at. -/
def environment : IO Environment :=
  Program.environmentNames.filterMapM fun name => do
    return (← IO.getEnv name).map fun value => (name, value)

/-- What lies at an absolute path. -/
def nodeAt (path : String) : IO (Option Node) := do
  let path := (← IO.currentDir) / path
  if ← path.isDir then
    return some .directory
  if ← path.pathExists then
    match (← path.metadata).type with
    | .file => return some (.file (← IO.FS.readBinFile path).toList)
    | _ => return some .device
  return none

/-- The tree with what lies on the way along some components. -/
def observe (t : FileTree) (here : Place) : List String → IO FileTree
  | [] => return t
  | c :: rest => do
    if c = "" ∨ c = "." then
      observe t here rest
    else if c = ".." then
      observe t here.dropLast rest
    else
      match ← nodeAt (FileTree.absolutePath (here ++ [c])) with
      | some n => observe (t.put (here ++ [c]) n) (here ++ [c]) rest
      | none => return t

/-- The part of the file system that some paths lead through. -/
def fileTree (paths : List String) : IO FileTree := do
  let here := (FileTree.components (← IO.currentDir).toString).filter (· != "")
  let t := FileTree.putDirectories ⟨[], here⟩ here
  paths.foldlM (fun t path => observe t (t.startOf path) (FileTree.components path)) t

/-- Creates the directories and the files that a run has added, outermost first. -/
def create (added : List (Place × Node)) : IO Unit :=
  added.reverse.forM fun (p, n) =>
    match n with
    | .directory => IO.FS.createDirAll (FileTree.absolutePath p)
    | .file content => IO.FS.writeBinFile (FileTree.absolutePath p) ⟨content.toArray⟩
    | .sealedDirectory | .device => pure ()

/-- The exit code that stands for a run that was aborted. -/
def abortedCode : UInt32 := 134

/-- Runs the program once. -/
def run (words : List String) : IO UInt32 := do
  let env ← environment
  let moment ← now
  let files ← fileTree (Program.paths words env moment)
  let outcome := Program.run words env moment { files }
  create (files.added outcome.world.files)
  IO.print outcome.output
  outcome.diagnostics.forM fun line => IO.eprintln line
  return (outcome.code.map (·.toUInt32)).getD abortedCode

end IndexFeed.Main

/-- Runs the program with the arguments that it was started with. -/
def main (words : List String) : IO UInt32 := IndexFeed.Main.run words
