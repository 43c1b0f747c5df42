import IndexFeed.Log.Settings
import IndexFeed.System.FileTree

/-!
# Log files

Where the lines of a log go beside the error output: a file in a directory, with the time of its
first line in its name unless it is never rotated.  Directories that are missing are created.
-/

set_option autoImplicit false

namespace IndexFeed.Log

/-- A time of day in UTC, to the hour. -/
structure Moment where
  year : Nat
  month : Nat
  day : Nat
  hour : Nat
  deriving DecidableEq, Repr, Inhabited

/-- The date of a moment. -/
def Moment.date (m : Moment) : String :=
  String.ofList (Decimal.padded 4 m.year ++ '-' :: Decimal.padded 2 m.month ++
    '-' :: Decimal.padded 2 m.day)

/-- What follows the name of a log file that is begun at a moment. -/
def Rotation.ending (r : Rotation) (m : Moment) : String :=
  match r with
  | .hourly => "." ++ m.date ++ "-" ++ String.ofList (Decimal.padded 2 m.hour)
  | .daily => "." ++ m.date
  | .never => ""

/-- A log file without the ending of its name. -/
structure Target where
  /-- the directory is seen from the root, not from the working directory -/
  fromRoot : Bool
  directory : List String
  /-- the path of the directory as it was written -/
  written : String
  name : String
  deriving DecidableEq, Repr, Inhabited

namespace Target

/-- The name of a log file whose path does not end in a name. -/
def defaultName : String := "compdb-ipc.log"

/-- A component that leads nowhere: what is between two slashes in a row, or a single dot. -/
def isIdle (component : String) : Bool := component == "" || component == "."

/-- The path of the directory of a file, as it stands in the path of the file. -/
def writtenDirectory (path : String) : String :=
  let outwards := (FileTree.components path).reverse.dropWhile isIdle
  match (outwards.drop 1).dropWhile isIdle with
  | [] => if path.toList.head? = some '/' && !outwards.isEmpty then "/" else "."
  | directory => "/".intercalate directory.reverse

/-- The file that a path means.  Idle components do not count. -/
def ofPath (path : String) : Target :=
  let parts := (FileTree.components path).filter fun c => !isIdle c
  let fromRoot := path.toList.head? = some '/' && !parts.isEmpty
  let written := writtenDirectory path
  match parts.getLast? with
  | some name => ⟨fromRoot, parts.dropLast, written, if name = ".." then defaultName else name⟩
  | none => ⟨fromRoot, [], written, defaultName⟩

/-- A file in the working directory, a file whose directory is named by an absolute path, and a
path that ends in no name. -/
example :
    ofPath "./y.log" = ⟨false, [], ".", "y.log"⟩ ∧
      ofPath "/var//log/w/" = ⟨true, ["var", "log"], "/var//log", "w"⟩ ∧
      ofPath "a/./.." = ⟨false, ["a"], "a", "compdb-ipc.log"⟩ := by
  decide +kernel

/-- Where the directory of the file starts. -/
def start (g : Target) (t : FileTree) : Place := if g.fromRoot then [] else t.workingDirectory

/-- The file's path with the ending of its name. -/
def path (g : Target) (ending : String) : String :=
  (if g.written = "/" then "/" else g.written ++ "/") ++ g.name ++ ending

/-- Opens the file for writing, and creates it if there is none. -/
def openIn (g : Target) (t : FileTree) (ending : String) : Except Errno FileTree := do
  let place ← t.walk (g.start t) g.directory
  t.createFile place (g.name ++ ending)

/-- Opens the file for writing.  Where that fails, it is tried once more with all its directories
created. -/
def create (g : Target) (t : FileTree) (ending : String) : Except Errno FileTree :=
  if FileTree.longestPath < (Utf8.encode (g.path ending)).length then .error .nameTooLong
  else
    match g.openIn t ending with
    | .ok t => .ok t
    | .error _ => do
      let (t, place) ← t.makeDirectories (g.start t) g.directory
      t.createFile place (g.name ++ ending)

end Target

end IndexFeed.Log
