/-!
# Column references

A query names a column by its title, alone or with the name of the table before it.
The name of the table may be any text, the empty one included: what makes a
reference qualified is that the name is there, not what it is.
-/

set_option autoImplicit false

namespace FlatQuery

/-- A column as a query writes it. -/
structure ColumnRef where
  /-- The title of the column. -/
  name : String
  /-- The name of its table, if the query gives one. -/
  table? : Option String := none
deriving DecidableEq

/-- A column reference as it is written. -/
protected def ColumnRef.toString (r : ColumnRef) : String :=
  match r.table? with
  | none => r.name
  | some t => t ++ "." ++ r.name

end FlatQuery
