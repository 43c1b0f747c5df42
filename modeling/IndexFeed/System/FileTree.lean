import IndexFeed.Octet
import IndexFeed.System.Errno
import IndexFeed.Text.Utf8

/-!
# File trees

The files that a program can see: a tree of named nodes, and the directory that relative paths
start from.  A path is resolved component by component, as the system does, so that the first
component that is missing, too long or no directory decides the failure.
-/

set_option autoImplicit false

namespace IndexFeed

/-- What a path can lead to. -/
inductive Node where
  | file (content : Bytes)
  | directory
  /-- a directory in which nothing can be created -/
  | sealedDirectory
  /-- anything else, such as the null device -/
  | device
  deriving DecidableEq, Repr, Inhabited

/-- Paths may lead on through a node. -/
def Node.isDirectory : Node → Bool
  | .directory | .sealedDirectory => true
  | .file _ | .device => false

/-- The components of an absolute path. -/
abbrev Place : Type := List String

/-- All nodes by their places, and the working directory. -/
structure FileTree where
  nodes : List (Place × Node)
  workingDirectory : Place
  deriving DecidableEq, Repr, Inhabited

namespace FileTree

/-- The longest component and the longest path, in octets. -/
def longestComponent : Nat := 255
def longestPath : Nat := 4095

/-- The node at a place. -/
def node? (t : FileTree) (p : Place) : Option Node := t.nodes.lookup p

/-- The tree with a node at a place. -/
def put (t : FileTree) (p : Place) (n : Node) : FileTree :=
  { t with nodes := (p, n) :: t.nodes.filter fun entry => entry.1 != p }

/-- The tree with a directory at a place and at all places around it. -/
def putDirectories (t : FileTree) (p : Place) : FileTree :=
  (List.range (p.length + 1)).foldl
    (fun t n => if (t.node? (p.take n)).isSome then t else t.put (p.take n) .directory) t

/-- The components of a path; a slash at the end leaves an empty one. -/
def components (path : String) : List String :=
  (path.toList.splitOn '/').map String.ofList

/-- Walks on from a directory. -/
def walk (t : FileTree) (here : Place) : List String → Except Errno Place
  | [] => .ok here
  | c :: rest =>
    match t.node? here with
    | some n =>
      if !n.isDirectory then .error .notDirectory
      else if c = "" ∨ c = "." then walk t here rest
      else if c = ".." then walk t here.dropLast rest
      else if longestComponent < (Utf8.encode c).length then .error .nameTooLong
      else if (t.node? (here ++ [c])).isSome then walk t (here ++ [c]) rest
      else .error .noEntry
    | none => .error .noEntry

/-- Where a path starts. -/
def startOf (t : FileTree) (path : String) : Place :=
  if path.toList.head? = some '/' then [] else t.workingDirectory

/-- What the system says about a path as such. -/
def checkPath (path : String) : Except FileFailure Unit :=
  if path.toList.contains (Char.ofNat 0) then
    .error (.other "file name contained an unexpected NUL byte")
  else if path.isEmpty then .error (.system .noEntry)
  else if longestPath < (Utf8.encode path).length then .error (.system .nameTooLong)
  else .ok ()

/-- The place that a path leads to. -/
def resolve (t : FileTree) (path : String) : Except FileFailure Place := do
  checkPath path
  match t.walk (t.startOf path) (components path) with
  | .ok p => .ok p
  | .error e => .error (.system e)

/-- The node that a path leads to. -/
def find (t : FileTree) (path : String) : Except FileFailure Node := do
  let p ← t.resolve path
  match t.node? p with
  | some n => .ok n
  | none => .error (.system .noEntry)

/-- Creates a file in a directory, unless there is one already. -/
def createFile (t : FileTree) (directory : Place) (name : String) : Except Errno FileTree :=
  match t.node? directory with
  | some .directory =>
    if longestComponent < (Utf8.encode name).length then .error .nameTooLong
    else
      match t.node? (directory ++ [name]) with
      | some n => if n.isDirectory then .error .isDirectory else .ok t
      | none => .ok (t.put (directory ++ [name]) (.file []))
  | some .sealedDirectory => .error .accessDenied
  | some _ => .error .notDirectory
  | none => .error .noEntry

/-- Creates the directories of a path, and all directories around them. -/
def makeDirectories (t : FileTree) (here : Place) : List String → Except Errno (FileTree × Place)
  | [] => .ok (t, here)
  | c :: rest =>
    if c = "" ∨ c = "." then makeDirectories t here rest
    else if c = ".." then makeDirectories t here.dropLast rest
    else if longestComponent < (Utf8.encode c).length then .error .nameTooLong
    else
      match t.node? (here ++ [c]) with
      | some n =>
        if n.isDirectory then makeDirectories t (here ++ [c]) rest
        else .error (if rest.isEmpty then .alreadyThere else .notDirectory)
      | none =>
        if t.node? here = some .sealedDirectory then .error .accessDenied
        else makeDirectories (t.put (here ++ [c]) .directory) (here ++ [c]) rest

/-- The directories that every system has. -/
def systemDirectories : List String :=
  ["bin", "dev", "etc", "home", "lib", "root", "run", "tmp", "usr", "var"]

/-- The directories that show the system itself. -/
def sealedDirectories : List String := ["proc", "sys"]

/-- The devices that every system has. -/
def systemDevices : List String := ["full", "null", "random", "urandom", "zero"]

/-- The tree without any file. -/
def ofSystem (workingDirectory : Place) : FileTree :=
  ⟨([], .directory) ::
      (systemDirectories.map fun d => ([d], .directory)) ++
      (sealedDirectories.map fun d => ([d], .sealedDirectory)) ++
      (systemDevices.map fun d => (["dev", d], .device)), workingDirectory⟩

/-- The tree in which a program works on some files of its own, all in the working directory. -/
def ofFiles (files : List (String × Bytes)) : FileTree :=
  let workingDirectory : Place := ["tmp", "work"]
  files.foldl
    (fun t (name, content) =>
      let place := workingDirectory ++ (components name).filter fun c => c != "" && c != "."
      (t.putDirectories place.dropLast).put place (.file content))
    ((ofSystem workingDirectory).putDirectories workingDirectory)

/-- The paths of all files in the working directory, seen from there. -/
def ownFiles (t : FileTree) : List String :=
  t.nodes.filterMap fun (p, n) =>
    match n with
    | .file _ =>
      if t.workingDirectory.isPrefixOf p then
        some ("/".intercalate (p.drop t.workingDirectory.length))
      else none
    | _ => none

/-- What a tree has and an earlier one has not. -/
def added (before after : FileTree) : List (Place × Node) :=
  after.nodes.filter fun (p, _) => (before.node? p).isNone

/-- The path that leads to a place from anywhere. -/
def absolutePath (p : Place) : String := "/" ++ "/".intercalate p

end FileTree

end IndexFeed
