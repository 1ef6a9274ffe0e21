import FlatQuery.Query.Sweep

/-!
# Queries

A query is what a select clause says once its names have been looked up: the sources,
the columns to show, the conditions, and the table, still without rows, that the
answer is to fill. Its columns and conditions speak of cursors by number, one cursor
for each source in the order in which they are listed.

Answering works on copies of the sources, which a fresh workspace holds beside the
table to fill. So the sources cannot change, and a query's answer is a function of
the query alone.
-/

set_option autoImplicit false

namespace FlatQuery

/-- A select clause with its names looked up. -/
structure Query where
  /-- The table to fill: its name and titles. -/
  result : Table
  /-- The tables to select from. -/
  sources : List Table
  /-- The columns to show. -/
  columns : List (BoundColumn sources.length)
  /-- What the rows have to satisfy. -/
  conditions : List (Condition sources.length)

namespace Query

/-- The cursors of some sources, one for each, in order. -/
def cursorsOf (sources : List Table) : List (Fin sources.length) := List.finRange sources.length

/-- The sources with a cursor on each, and the table to fill behind them. -/
def workspace (q : Query) : Workspace (q.sources.length + 1) q.sources.length :=
  (Workspace.ofTables q.sources).addTable q.result

/-- The answer: the table to fill, filled. -/
def answer (q : Query) : Except Error Table :=
  match q.workspace.select (Fin.last _) q.columns (cursorsOf q.sources) q.conditions with
  | (w, none) => .ok (w.table (Fin.last _))
  | (_, some e) => .error e

end Query

end FlatQuery
