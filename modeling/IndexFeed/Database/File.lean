import IndexFeed.Database.Reader
import IndexFeed.Event
import IndexFeed.System.FileTree

/-!
# Database files

A compilation database on disk: its content, the place in it where reading goes on, and how many
jobs it has.  The number is an estimate from the size until the objects have been counted.  Counting
reads through the whole content, wherever the place was, and goes back to the start.
-/

set_option autoImplicit false

namespace IndexFeed.Database

/-- An opened database. -/
structure File where
  path : String
  /-- the octets in front of the place where reading goes on -/
  passed : Bytes := []
  /-- the octets from that place on -/
  content : Bytes
  /-- the number of jobs, estimated or counted -/
  jobs : Nat
  deriving DecidableEq, Repr, Inhabited

namespace File

/-- The rough size of one command object. -/
def octetsPerJob : Nat := 256

/-- The size of the buffer that objects are counted with. -/
def countingBuffer : Nat := 8192

/-- The number of jobs to expect in so many octets: at least one, unless there are none. -/
def estimate (size : Nat) : Nat :=
  if size = 0 then 0 else max (size / octetsPerJob) 1

/-- The size in octets. -/
def size (f : File) : Nat := f.passed.length + f.content.length

/-- Goes back to the first octet. -/
def rewind (f : File) : File := { f with passed := [], content := f.passed ++ f.content }

/-- Goes on by so many octets. -/
def advance (f : File) (n : Nat) : File :=
  { f with passed := f.passed ++ f.content.take n, content := f.content.drop n }

@[simp] theorem rewind_advance (f : File) (n : Nat) : (f.advance n).rewind = f.rewind := by
  simp [rewind, advance, List.append_assoc]

/-- Opens a database, which must be a regular file. -/
def openAt (t : FileTree) (path : String) : Except Error File × List Event :=
  match t.find path with
  | .error reason => (.error (.cannotOpen path reason), [])
  | .ok (.file content) =>
    let jobs := estimate content.length
    (.ok { path, content, jobs }, [.openedDatabase path content.length jobs])
  | .ok _ => (.error (.notAFile path), [])

/-- Counts the objects in one pass over the whole content, and goes back to the start whether or not
there was an error.  Only a pass without an error changes the number of jobs. -/
def count (f : File) : Except Error Nat × File :=
  let f := f.rewind
  let (result, reader, jobs) :=
    Reader.run Handler.count { source := .ofBytes f.content countingBuffer } 0
  let f := (f.advance reader.source.fetched).rewind
  match result with
  | .ok _ => (.ok jobs, { f with jobs })
  | .error e => (.error e, f)

end File

end IndexFeed.Database
