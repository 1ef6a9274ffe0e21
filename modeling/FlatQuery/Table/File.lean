import FlatQuery.Table.Basic
import FlatQuery.Text.Delimited

/-!
# Table files

A table is kept in a file as plain lines: the titles first, then a line for every
row, the values of a line being separated by commas. Nothing is escaped. So a value
that holds a comma is written as two, and reading the file back finds a line that is
too wide; what can be read back is exactly what no comma and no line end spoils.

Reading takes the titles from the first line and refuses a line whose width differs
from theirs. Rows that repeat an earlier one are dropped, as they always are.
-/

set_option autoImplicit false

namespace FlatQuery

namespace Table

/-- The character between the values of a line. -/
def delimiter : Char := ','

/-! ## 1. Writing -/

/-- A line of a table file, with its end. -/
def encodeLine (values : List String) : List Char :=
  (Text.joined delimiter values).toList ++ ['\n']

/-- The content of a table's file. -/
def encode (t : Table) : String :=
  String.ofList (encodeLine t.titles ++ t.rows.flatMap encodeLine)

/-! ## 2. Reading -/

/-- The lines of a file; the line end that closes the last line opens no further one. -/
def fileLines (content : String) : List (List Char) :=
  let lines := Text.split '\n' content.toList
  -- The empty file is one empty piece, and has no line at all.
  if lines.getLast? = some [] then lines.dropLast else lines

/-- The values of a line. -/
def decodeLine (line : List Char) : List String :=
  (Text.split delimiter line).map String.ofList

/-- Adds the rows of some lines, of which the first has the given number. -/
def addLines (t : Table) (file : String) (number : Nat) : List (List Char) → Except Error Table
  | [] => .ok t
  | line :: lines =>
    let row := decodeLine line
    if hw : row.length = t.titles.length then
      (t.insert row hw).addLines file (number + 1) lines
    else .error (.lineWidth number file row.length t.titles.length)

/-- The table in the content of a file. -/
def decode (name : String) (content : String) : Except Error Table :=
  match fileLines content with
  | [] => .error (.missingHeader name)
  | header :: lines => do
    let t ← withTitles name (decodeLine header)
    t.addLines name 2 lines

end Table

end FlatQuery
