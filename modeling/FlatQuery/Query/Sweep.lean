import FlatQuery.Query.Condition

/-!
# Sweeps

A selection visits the combinations of rows of its one or two cursors. With two, the
second is swept through for each row of the first. At each combination that
satisfies the conditions, the values of the selected columns are added to the target
table as a row. The sweep starts where the cursors stand, and whatever stops it, the
listed cursors are on their first rows afterwards.

A sweep is run here as a machine that takes one turn after the other, because the
target may itself be one of the tables swept: a row added in one turn can be visited
in a later one. The machine halts all the same. Every value that it adds was in some
table before, so the rows that the target can ever hold are bounded by the number of
ways to fill its columns with such values, and `turnBound` turns this into a number of
turns that no sweep exceeds.
-/

set_option autoImplicit false

namespace FlatQuery

/-- What a selection is to do: the table that gains rows, the columns that make a row,
the conditions, and the cursors to sweep, the second one being the faster. -/
structure Selection (n m : Nat) where
  /-- The table that gains rows. -/
  target : Fin n
  /-- The columns that make a row. -/
  columns : List (BoundColumn m)
  /-- What a combination has to satisfy. -/
  conditions : List (Condition m)
  /-- The cursor that moves once a sweep of the other is over. -/
  outer : Fin m
  /-- The cursor that is swept through for each row of the other, if there are two. A query
  lists different ones. -/
  inner? : Option (Fin m)

/-- What one turn of a sweep comes to. The workspace goes from turn to turn and is never
kept besides. -/
inductive Turn (n m : Nat) where
  /-- There is nothing left to visit. -/
  | finished (w : Workspace n m)
  /-- The sweep goes on from here. -/
  | moved (w : Workspace n m)
  /-- Something cannot be evaluated or added. -/
  | failed (w : Workspace n m) (e : Error)

namespace Selection

variable {n m : Nat}

/-- The selected values of the rows that the cursors stand on. -/
def project (s : Selection n m) (w : Workspace n m) : Except Error Row :=
  s.columns.mapM (·.value w)

/-- The row to add for the rows that the cursors stand on, if they satisfy the
conditions. -/
def candidate (s : Selection n m) (w : Workspace n m) : Except Error (Option Row) := do
  if ← Condition.satisfied w s.conditions then return some (← s.project w) else return none

/-- Adds the candidate, if there is one; with an error nothing has changed. -/
def visit (s : Selection n m) (w : Workspace n m) : Workspace n m × Option Error :=
  match s.candidate w with
  | .error e => (w, some e)
  | .ok none => (w, none)
  | .ok (some row) =>
    match w.addRow s.target row with
    | (w, .error e) => (w, some e)
    | (w, .ok _) => (w, none)

/-- A visit, and a step of a cursor if it succeeds. -/
def visitAndAdvance (s : Selection n m) (w : Workspace n m) (c : Fin m) : Turn n m :=
  match s.visit w with
  | (w, none) => .moved (w.advance c)
  | (w, some e) => .failed w e

/-- One turn: a visit and a step of the fastest cursor, or, behind a full sweep of the
second cursor, a step of the first. -/
def turn (s : Selection n m) (w : Workspace n m) : Turn n m :=
  if w.hasRow s.outer then
    match s.inner? with
    | none => s.visitAndAdvance w s.outer
    | some inner =>
      -- The outer cursor still has its row while the second is swept through, if the two are
      -- different cursors, as those of a query are. One cursor listed twice would be reset and
      -- advanced without end over two rows or more; here its turns end with the first sweep.
      if w.hasRow inner then s.visitAndAdvance w inner
      else .moved ((w.reset inner).advance s.outer)
  else .finished w

/-- Takes turns until one does not go on, or until so many are taken. -/
def run (s : Selection n m) : Nat → Workspace n m → Workspace n m × Option Error
  | 0, w => (w, none)
  | k + 1, w =>
    match s.turn w with
    | .finished w => (w, none)
    | .moved w => s.run k w
    | .failed w e => (w, some e)

/-- The sum of some numbers. -/
def total (ks : List Nat) : Nat := ks.foldr (· + ·) 0

/-- The number of values in all tables. -/
def valueCount (w : Workspace n m) : Nat :=
  total (w.tables.toList.map fun t => t.rows.flatten.length)

/-- A number of rows that no table exceeds during a sweep: those there are, and those
that can be made of values there are. -/
def rowBound (s : Selection n m) (w : Workspace n m) : Nat :=
  total (w.tables.toList.map Table.size) + total (w.cursors.toList.map Cursor.position) +
    Nat.pow (valueCount w) s.columns.length

/-- A number of turns that no sweep exceeds: with positions up to the row bound, every
turn takes the pair of positions to a later one. -/
def turnBound (s : Selection n m) (w : Workspace n m) : Nat :=
  (s.rowBound w + 2) * (s.rowBound w + 2)

/-- Sweeps to the end. -/
def sweep (s : Selection n m) (w : Workspace n m) : Workspace n m × Option Error :=
  s.run (s.turnBound w) w

end Selection

namespace Workspace

variable {n m : Nat}

/-- The greatest number of sources of a selection. -/
def maxSources : Nat := 2

/-- Puts some cursors back to their first rows. -/
def resetAll (w : Workspace n m) (cursors : List (Fin m)) : Workspace n m :=
  cursors.foldl reset w

/-- Adds to a table the selected columns of every combination of the listed cursors'
rows, from where they stand on, that satisfies the conditions. Gives the workspace
afterwards and the error that stopped the sweep, if one did. With more cursors than
can be swept, or none, nothing happens at all. -/
def select (w : Workspace n m) (target : Fin n) (columns : List (BoundColumn m))
    (cursors : List (Fin m)) (conditions : List (Condition m)) :
    Workspace n m × Option Error :=
  match cursors with
  -- There is no first cursor to take.
  | [] => (w, some .rowIndex)
  | [c] =>
    let (w', e) := Selection.sweep ⟨target, columns, conditions, c, none⟩ w
    (w'.resetAll cursors, e)
  | [c, d] =>
    let (w', e) := Selection.sweep ⟨target, columns, conditions, c, some d⟩ w
    (w'.resetAll cursors, e)
  | _ => (w, some (.tooManySources maxSources))

end Workspace

end FlatQuery
