import FlatQuery.FileSystem.Basic
import FlatQuery.Query.Reference
import FlatQuery.Text.LowerCase
import FlatQuery.Token.Scanner

/-!
# Errors

Everything that can go wrong, by its cause. The wording of each cause is in one
place, `Error.message`, so a statement about when an error arises need not mention
words and a statement about words need not mention when.

Most errors belong to one statement: the shell reports them and goes on with the
next statement. Some do not. Numbers can be out of range and a table's name can hold a
null character, which only a direct use of rows, tables and databases can meet. A path
on the argument line may be one that cannot be looked at, or there may be no directory
to work in, before there is any statement. And the bytes of a script, or those on
standard input, may not be text, which is met while asking for a line and leaves no
text to go on with.
-/

set_option autoImplicit false

namespace FlatQuery

/-- Why a table file could not be read. -/
inductive ReadFailure where
  /-- The file cannot be reached or is no file. -/
  | access (e : AccessError) (p : Path)
  /-- Its bytes are not text. -/
  | encoding (f : Text.Utf8.Fault)
deriving DecidableEq

/-- The wording of a failed read. -/
def ReadFailure.message : ReadFailure → String
  | .access e p => e.message p
  | .encoding f => f.message

/-- What can go wrong. -/
inductive Error where
  /-- The text has a lexical fault. -/
  | lexical (f : LexicalFault)
  /-- A keyword or mark was expected and another text found. -/
  | expectedText (wanted found : String)
  /-- A kind of token was expected and another text found. -/
  | expectedKind (kind found : String)
  /-- A statement starts with no known keyword. -/
  | unrecognizedCommand (found : String)
  /-- No table is registered under the name. -/
  | unknownTable (name : String)
  /-- Two columns of a table have one title. -/
  | duplicateColumn (title : String)
  /-- A row is wider or narrower than its table. -/
  | rowWidth (given : Nat) (table : String) (columns : Nat)
  /-- A statement inserts too many or too few values. -/
  | insertCount (table : String) (given columns : Nat)
  /-- A value was asked of a cursor that is behind the last row. -/
  | pastLastRow (table : String)
  /-- A condition relates its sides by no known relation. -/
  | unknownRelation (symbol : String)
  /-- A reference is qualified by a table that the query does not select from. -/
  | unknownTableInReference (ref : ColumnRef)
  /-- No source of the query has the column. -/
  | unknownColumn (ref : ColumnRef)
  /-- Several sources of the query have the column. -/
  | ambiguousColumn (ref : ColumnRef)
  /-- A query selects from more tables than it may. -/
  | tooManySources (limit : Nat)
  /-- A table file is empty. -/
  | missingHeader (name : String)
  /-- A line of a table file has too many or too few values. -/
  | lineWidth (line : Nat) (name : String) (given columns : Nat)
  /-- A table file does not exist. -/
  | fileNotFound (name : String)
  /-- A table file could not be read. -/
  | readFailed (name : String) (why : ReadFailure)
  /-- A table file could not be written. -/
  | writeFailed (name : String) (e : AccessError) (p : Path)
  /-- The path of a table file holds a null character. -/
  | nullInPath
  /-- A row number or a number of a cursor is out of range. -/
  | rowIndex
  /-- A number of a field or title is out of range. -/
  | fieldIndex
  /-- A number is too large to count the elements of anything. -/
  | indexTooLarge
  /-- It cannot be found out what stands at the end of a path. -/
  | unreachable (e : AccessError) (p : Path)
  /-- The working directory is not there any more. -/
  | noWorkingDirectory
  /-- The next line of the input is not text. -/
  | inputEncoding (f : Text.Utf8.Fault)
deriving DecidableEq

namespace Error

/-- The wording of an error. -/
def message : Error → String
  | .lexical f => f.message
  | .expectedText wanted found => s!"syntax error: expected '{wanted}' but found '{found}'"
  | .expectedKind kind found => s!"syntax error: expected {Text.lowercase kind} but found '{found}'"
  | .unrecognizedCommand found => s!"unrecognizable command: {found}"
  | .unknownTable name => s!"unknown table: {name}"
  | .duplicateColumn title => s!"duplicate column name: {title}"
  | .rowWidth given table columns =>
    s!"row has {given} values but table {table} has {columns} columns"
  | .insertCount table given columns =>
    s!"insert into {table}: {given} values given for {columns} columns"
  | .pastLastRow table => s!"cursor over {table} is past the last row"
  | .unknownRelation symbol => s!"unknown relation: {symbol}"
  | .unknownTableInReference ref => s!"unknown table in column reference: {ref.toString}"
  | .unknownColumn ref => s!"unknown column: {ref.toString}"
  | .ambiguousColumn ref => s!"ambiguous column: {ref.toString}"
  | .tooManySources limit => s!"cannot select from more than {limit} tables"
  | .missingHeader name => s!"missing header in {name}.db"
  | .lineWidth line name given columns =>
    s!"line {line} of {name}.db has {given} values, expected {columns}"
  | .fileNotFound name => s!"could not find {name}.db"
  | .readFailed name why => s!"problem reading from {name}.db: {why.message}"
  | .writeFailed name e p => s!"trouble writing to {name}.db: {e.message p}"
  | .nullInPath => "embedded null byte"
  | .rowIndex => "list index out of range"
  | .fieldIndex => "tuple index out of range"
  | .indexTooLarge => "cannot fit 'int' into an index-sized integer"
  | .unreachable e p => e.message p
  | .noWorkingDirectory =>
    s!"[Errno {AccessError.notFound.number}] {AccessError.notFound.reason}"
  | .inputEncoding f => f.message

/-- Whether an error concerns one statement only, so that the shell reports it and goes
on. -/
def isStatementError : Error → Bool
  | .nullInPath | .rowIndex | .fieldIndex | .indexTooLarge => false
  | .unreachable _ _ | .noWorkingDirectory | .inputEncoding _ => false
  | _ => true

end Error

end FlatQuery
