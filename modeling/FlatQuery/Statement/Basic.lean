import FlatQuery.Database.Basic
import FlatQuery.Query.Basic

/-!
# Statements

A statement is held here as it is once it has been read to its end: the names that have
to mean something have been looked up, and what is left is to carry it out. Reading
changes nothing but the stream, so all that a statement does to the tables and files
it does here, in one step that succeeds or fails as a whole.
-/

set_option autoImplicit false

namespace FlatQuery

/-- What a new table is to be. -/
inductive Definition where
  /-- A table without rows. -/
  | columns (t : Table)
  /-- The answer to a query. -/
  | query (q : Query)

/-- The table that a definition gives. -/
def Definition.table : Definition → Except Error Table
  | .columns t => .ok t
  | .query q => q.answer

/-- What the shell can be told to do. -/
inductive Statement where
  /-- Register a new table. -/
  | create (name : String) (d : Definition)
  /-- Add a row to a registered table. -/
  | insert (target : Catalog.Entry) (values : Row)
  /-- Register the table in a file. -/
  | load (name : String)
  /-- Write a registered table into its file. -/
  | store (name : String)
  /-- Show the rows of a registered table. -/
  | print (name : String)
  /-- Show the answer to a query. -/
  | select (q : Query)
  /-- Leave. -/
  | exit

namespace Statement

/-- Whether the shell goes on after a statement. -/
def continues : Statement → Bool
  | .exit => false
  | _ => true

/-- Carries out a statement: the database afterwards and the lines to show. -/
def execute (db : Database) : Statement → Except Error (Database × List String)
  | .create name d => do
    let t ← d.table
    return ({ db with catalog := db.catalog.put name t }, [])
  | .insert target values => do
    -- The count is compared here, so that the error names the statement and not the row.
    if values.length ≠ target.table.width then
      throw (.insertCount target.table.name values.length target.table.width)
    let (t, _) ← target.table.add values
    return ({ db with catalog := db.catalog.update target.identity t }, [])
  | .load name => do
    let db ← db.load name
    return (db, [s!"Loaded {name}.db"])
  | .store name => do
    let db ← db.store name
    return (db, [s!"Stored {name}.db"])
  | .print name => do
    let entry ← db.catalog.lookup name
    return (db, entry.table.display)
  | .select q => do
    let t ← q.answer
    return (db, "Search results:" :: t.display)
  | .exit => return (db, [])

end Statement

end FlatQuery
