import FlatQuery.Text.Delimited

/-!
# Paths

A path is a sequence of names, counted from the root or from the working directory.
Empty names and `.` say nothing and are dropped when a path is read, so that
`./data//` and `data` are one path with one text; `..` is kept, because what it
means depends on what is there. The path with no names is the directory it is
counted from, written `.` when that is the working directory.
-/

set_option autoImplicit false

namespace FlatQuery

/-- A path in a file system. -/
structure Path where
  /-- The slashes in front: none if the path is counted from the working directory. -/
  root : String
  /-- The names to follow; `..` goes up. -/
  names : List String
deriving DecidableEq

namespace Path

/-- The slashes in front of a path that mean something: a path that is counted from the
root begins with one, and exactly two are kept as they are. -/
def rootOf (cs : List Char) : String :=
  match (cs.takeWhile (· == '/')).length with
  | 0 => ""
  -- What two slashes mean is left to the system, so they are not made one.
  | 2 => "//"
  | _ => "/"

/-- The path that a text writes. -/
def ofString (s : String) : Path where
  root := rootOf s.toList
  names := (Text.fields '/' s).filter fun n => n ≠ "" ∧ n ≠ "."

/-- Whether a path is counted from the root. -/
def isAbsolute (p : Path) : Bool := p.root != ""

/-- Whether a name of a path holds the null character, which would end its text for the
system. -/
def holdsNull (p : Path) : Bool := p.names.any fun n => n.toList.contains '\x00'

/-- The text of a path. -/
protected def toString (p : Path) : String :=
  if p.root = "" ∧ p.names = [] then "." else p.root ++ Text.joined '/' p.names

/-- The path that a text writes, counted from a directory; a text that starts at the
root forgets the directory. -/
def join (directory : Path) (s : String) : Path :=
  let p := ofString s
  if p.isAbsolute then p else { directory with names := directory.names ++ p.names }

end Path

/-- The path of a directory of files. A null character would end the path for the system, so
no directory has one in its path. -/
structure Directory where
  /-- The path. -/
  path : Path
  /-- The system takes the path as a whole. -/
  holdsNull_path : path.holdsNull = false
deriving DecidableEq

namespace Directory

/-- The directory that everything stands in. -/
def root : Directory := ⟨⟨"/", []⟩, rfl⟩

/-- The directory of a path, if it can be one. -/
def of? (p : Path) : Option Directory := if h : p.holdsNull = false then some ⟨p, h⟩ else none

end Directory

end FlatQuery
