import FlatQuery.FileSystem.Path
import FlatQuery.Text.Quoted
import FlatQuery.Text.Utf8

/-!
# File systems

The shell sees the world as a tree of files and directories. The tree is kept flat:
every node but the root stands under the sequence of names that leads to it, and a
working directory says where paths that do not start at the root are counted from.
That is all the library ever needs of an operating system, and being a plain value
it lets a statement about files be a statement about all trees at once.

A path is followed name by name. Each step needs a directory to step from that may be
searched, `..` returns to the directory above, and a name that no directory can hold
is refused when its turn comes, so of several things wrong with one path the first on
the way is reported.

Of permissions there is that one: who gets to a file may read and write it, and who gets
to a directory may put files there. There are no links, and every write that is begun is
completed. From a working directory that is not there any more no path leads anywhere, not
even the one to itself.
-/

set_option autoImplicit false

namespace FlatQuery

/-! ## 1. Why a path cannot be used -/

/-- Why a file or directory cannot be reached or used. -/
inductive AccessError where
  /-- Something on the way, or at its end, does not exist. -/
  | notFound
  /-- Something on the way is not a directory. -/
  | notDirectory
  /-- A directory stands where a file is wanted. -/
  | isDirectory
  /-- A name is longer than a directory can hold, or the whole path too long. -/
  | nameTooLong
  /-- A directory on the way may not be searched. -/
  | denied
deriving DecidableEq

/-- The system's number of an access error. -/
def AccessError.number : AccessError → Nat
  | .notFound => 2
  | .notDirectory => 20
  | .isDirectory => 21
  | .nameTooLong => 36
  | .denied => 13

/-- The system's wording of an access error. -/
def AccessError.reason : AccessError → String
  | .notFound => "No such file or directory"
  | .notDirectory => "Not a directory"
  | .isDirectory => "Is a directory"
  | .nameTooLong => "File name too long"
  | .denied => "Permission denied"

/-- An access error as it is shown for a path. -/
def AccessError.message (e : AccessError) (p : Path) : String :=
  s!"[Errno {e.number}] {e.reason}: {Text.Quoted.quoted p.toString}"

/-! ## 2. Trees -/

/-- What stands at a place. -/
inductive Node where
  /-- A file with its content. -/
  | file (content : Bytes)
  /-- A directory. -/
  | directory
deriving DecidableEq

/-- A tree of files and directories, and where in it relative paths begin. -/
structure FileSystem where
  /-- What stands under each sequence of names from the root. -/
  nodes : List (List String × Node)
  /-- The names from the root to the working directory. -/
  workingDirectory : List String
  /-- The places of the directories that may not be searched. -/
  closed : List (List String) := []
deriving DecidableEq

namespace FileSystem

/-- The tree of the root alone. -/
def empty : FileSystem := { nodes := [], workingDirectory := [] }

/-- The greatest number of bytes in a name. -/
def maxName : Nat := 255

/-- The greatest number of bytes in a path. -/
def maxPath : Nat := 4095

/-- What stands at a place; the root is always a directory. -/
def node? (fs : FileSystem) (place : List String) : Option Node :=
  if place = [] then some .directory
  else (fs.nodes.find? fun e => e.1 = place).map Prod.snd

/-- Whether a directory may not be searched. -/
def isClosed (fs : FileSystem) (place : List String) : Bool := fs.closed.contains place

/-- Follows names from a place. The place reached need not exist, but it stands in a
directory that does. -/
def follow (fs : FileSystem) : List String → List String → Except AccessError (List String)
  | place, [] => .ok place
  | place, name :: names =>
    match fs.node? place with
    | none => .error .notFound
    | some (.file _) => .error .notDirectory
    | some .directory =>
      if fs.isClosed place then .error .denied
      -- The root is its own parent.
      else if name = ".." then fs.follow place.dropLast names
      else if maxName < name.utf8ByteSize then .error .nameTooLong
      else fs.follow (place ++ [name]) names

/-- The place that a path leads to. A path that no system call can take leads nowhere. -/
def locate (fs : FileSystem) (p : Path) : Except AccessError (List String) :=
  if p.holdsNull then .error .notFound
  else if maxPath < p.toString.utf8ByteSize then .error .nameTooLong
  -- The path without names is written `.`, which is looked up in the working directory.
  else if p = ⟨"", []⟩ ∧ fs.isClosed fs.workingDirectory then .error .denied
  else fs.follow (if p.isAbsolute then [] else fs.workingDirectory) p.names

/-- What stands at the end of a path, and where that is. Where the way to it breaks off
nothing stands, but of a name that is too long, or behind a directory that may not be
searched, the question cannot even be asked. -/
def probe (fs : FileSystem) (p : Path) : Except AccessError (Option (List String × Node)) :=
  match fs.locate p with
  | .ok place => .ok ((fs.node? place).map fun n => (place, n))
  | .error .notFound => .ok none
  | .error .notDirectory => .ok none
  | .error e => .error e

/-- The working directory, if it is still there. -/
def workingDirectory? (fs : FileSystem) : Option Directory :=
  if fs.node? fs.workingDirectory = some .directory then
    Directory.of? ⟨"/", fs.workingDirectory⟩
  else none

/-! ## 3. Reading and writing -/

/-- The content of a file. -/
def readFile (fs : FileSystem) (p : Path) : Except AccessError Bytes :=
  match fs.locate p with
  | .error e => .error e
  | .ok place =>
    match fs.node? place with
    | none => .error .notFound
    | some .directory => .error .isDirectory
    | some (.file content) => .ok content

/-- The tree with something put at a place: what stood there is replaced where it is,
and a new place comes last. -/
def put (fs : FileSystem) (place : List String) (n : Node) : FileSystem :=
  if fs.nodes.any fun e => e.1 = place then
    { fs with nodes := fs.nodes.map fun e => if e.1 = place then (place, n) else e }
  else { fs with nodes := fs.nodes ++ [(place, n)] }

/-- The tree after a file is written, whether or not it existed: a place that a path
leads to stands in a directory, so only a directory at the place itself is in the
way. A failed write changes nothing. -/
def writeFile (fs : FileSystem) (p : Path) (content : Bytes) : Except AccessError FileSystem :=
  match fs.locate p with
  | .error e => .error e
  | .ok place =>
    match fs.node? place with
    | some .directory => .error .isDirectory
    | _ => .ok (fs.put place (.file content))

/-! ## 4. Listing -/

/-- Everything below a place, with its path from there, in the order of the paths. -/
def below (fs : FileSystem) (place : List String) : List (String × Node) :=
  let found := fs.nodes.filterMap fun (p, n) =>
    if place.isPrefixOf p && p.length != place.length then
      some (Text.joined '/' (p.drop place.length), n)
    else none
  found.mergeSort fun a b => a.1 ≤ b.1

end FileSystem

end FlatQuery
