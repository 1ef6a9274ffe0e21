import FlatQuery.Database.Catalog
import FlatQuery.Table.File
import FlatQuery.Text.Line

/-!
# Databases

A database is a catalog of tables together with the directory that keeps their files.
The table `t` is kept in the file `t.db`. Loading reads a file into the catalog and
storing writes a table into its file; either of them happens completely or not at all,
which is why both give a new database or an error and never a bit of each.

Texts are sequences of Unicode scalar values. Half of a surrogate pair is none, so every
text can be encoded, and the only bytes that have to be refused are those of a file.
-/

set_option autoImplicit false

namespace FlatQuery

/-- A catalog, and a directory of table files in a file system. -/
structure Database where
  /-- The tables of the session. -/
  catalog : Catalog
  /-- The directory of the table files. -/
  directory : Directory
  /-- The file system that holds the directory. -/
  files : FileSystem
deriving DecidableEq

namespace Database

/-- A database without tables over a directory. -/
def fresh (directory : Directory) (files : FileSystem) : Database := ⟨.empty, directory, files⟩

/-- The file that keeps the table of a name. -/
def pathOf (db : Database) (name : String) : Path := db.directory.path.join (name ++ ".db")

/-- The text of a file: its bytes decoded, every kind of line end being one line feed. -/
def textOf (content : Bytes) : Except Text.Utf8.Fault String :=
  match Text.Utf8.decode content with
  | .ok cs => .ok (String.ofList (Text.unifyLineEnds cs))
  | .error f => .error f

/-- The table in the file of a name. The catalog plays no part. -/
def readTable (db : Database) (name : String) : Except Error Table :=
  if (db.pathOf name).holdsNull then .error .nullInPath
  else
    match db.files.readFile (db.pathOf name) with
    | .error .notFound => .error (.fileNotFound name)
    | .error e => .error (.readFailed name (.access e (db.pathOf name)))
    | .ok content =>
      match textOf content with
      | .error f => .error (.readFailed name (.encoding f))
      | .ok text => Table.decode name text

/-- The database after a table is written into the file of a name. The catalog plays no
part. What is written is a text, and encoding it cannot fail. -/
def writeTable (db : Database) (t : Table) (name : String) : Except Error Database :=
  if (db.pathOf name).holdsNull then .error .nullInPath
  else
    match db.files.writeFile (db.pathOf name) (Text.Utf8.encode t.encode.toList) with
    | .error e => .error (.writeFailed name e (db.pathOf name))
    | .ok files => .ok { db with files }

/-- Reads the file of a name and registers its table under the name. -/
def load (db : Database) (name : String) : Except Error Database :=
  match db.readTable name with
  | .error e => .error e
  | .ok t => .ok { db with catalog := db.catalog.put name t }

/-- Writes the table registered under a name into the name's file. -/
def store (db : Database) (name : String) : Except Error Database :=
  match db.catalog.lookup name with
  | .error e => .error e
  | .ok entry => db.writeTable entry.table name

end Database

end FlatQuery
