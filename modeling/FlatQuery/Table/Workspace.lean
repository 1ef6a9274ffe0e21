import FlatQuery.Table.Basic

/-!
# Cursors

A cursor stands on a row of a table. It can be asked whether there is a row, moved to
the next one and put back to the first, and a join does all three. Several cursors
may stand on one table, and the table may grow under them: a cursor holds no copy of
its rows but a position, so a row that arrives later is found in its turn, also by a
cursor that was behind the last row before.

A workspace holds some tables and some cursors over them. Which cursor and which
table is meant is said by number, and the numbers are bounded by the type: a cursor
cannot be over a table that is not there, and no operation can be asked of a cursor
that does not exist.
-/

set_option autoImplicit false

namespace FlatQuery

/-- A place in one of `n` tables. -/
structure Cursor (n : Nat) where
  /-- Which table. -/
  table : Fin n
  /-- How many of its rows are behind. -/
  position : Nat
deriving DecidableEq

/-- Some tables, and some cursors over them. -/
structure Workspace (n m : Nat) where
  /-- The tables. -/
  tables : Vector Table n
  /-- The cursors. -/
  cursors : Vector (Cursor n) m

namespace Workspace

variable {n m : Nat}

/-! ## 1. Building -/

/-- Nothing to work on. -/
def empty : Workspace 0 0 := ⟨#v[], #v[]⟩

/-- The workspace with one more table. -/
def addTable (w : Workspace n m) (t : Table) : Workspace (n + 1) m where
  tables := w.tables.push t
  cursors := w.cursors.map fun c => { c with table := c.table.castSucc }

/-- The workspace with one more cursor, on the first row of a table. -/
def addCursor (w : Workspace n m) (t : Fin n) : Workspace n (m + 1) where
  tables := w.tables
  cursors := w.cursors.push ⟨t, 0⟩

/-- Some tables, each with a cursor on its first row. -/
def ofTables (ts : List Table) : Workspace ts.length ts.length where
  tables := Vector.ofFn fun i => ts[i]
  cursors := Vector.ofFn fun i => ⟨i, 0⟩

/-! ## 2. Looking -/

/-- The table at a number. -/
def table (w : Workspace n m) (t : Fin n) : Table := w.tables[t]

/-- The cursor at a number. -/
def cursor (w : Workspace n m) (c : Fin m) : Cursor n := w.cursors[c]

/-- The table that a cursor is over. -/
def tableUnder (w : Workspace n m) (c : Fin m) : Table := w.table (w.cursor c).table

/-- Whether a cursor stands on a row, and is not behind the last one. -/
def hasRow (w : Workspace n m) (c : Fin m) : Bool := (w.cursor c).position < (w.tableUnder c).size

/-- The row that a cursor stands on. -/
def row? (w : Workspace n m) (c : Fin m) : Option Row :=
  (w.tableUnder c).row? (w.cursor c).position

/-- The value at a number in the row that a cursor stands on. -/
def value (w : Workspace n m) (c : Fin m) (k : Int) : Except Error String :=
  match w.row? c with
  | none => .error (.pastLastRow (w.tableUnder c).name)
  | some r => r.field k

/-- There is a row to stand on exactly when the position is before the end. -/
theorem row?_isSome (w : Workspace n m) (c : Fin m) : (w.row? c).isSome = w.hasRow c := by
  rw [row?, hasRow, ← Table.getElem?_rows, ← Table.length_rows]
  exact Bool.eq_iff_iff.2 ((Iff.of_eq (isSome_getElem? _ _)).trans decide_eq_true_iff.symm)

/-- A cursor as it is described: its table's name in quotes, and its position. -/
def describe (w : Workspace n m) (c : Fin m) : String :=
  let name := Text.Quoted.quoted (w.tableUnder c).name
  s!"TableCursor({name}, index={(w.cursor c).position})"

/-! ## 3. Changing -/

/-- The workspace with a cursor moved to a position. -/
def moveTo (w : Workspace n m) (c : Fin m) (position : Nat) : Workspace n m :=
  { w with cursors := w.cursors.set c.val { w.cursor c with position } c.isLt }

/-- The workspace with a table replaced. -/
def setTable (w : Workspace n m) (t : Fin n) (u : Table) : Workspace n m :=
  { w with tables := w.tables.set t.val u t.isLt }

/-- Moves a cursor to the next row; behind the last row it stays where it is. -/
def advance (w : Workspace n m) (c : Fin m) : Workspace n m :=
  if w.hasRow c then w.moveTo c ((w.cursor c).position + 1) else w

/-- Puts a cursor back to the first row. -/
def reset (w : Workspace n m) (c : Fin m) : Workspace n m := w.moveTo c 0

/-- Puts a row of the right width into a table. -/
def insertRow (w : Workspace n m) (t : Fin n) (r : Row)
    (hw : r.length = (w.table t).titles.length) : Workspace n m :=
  -- The table leaves the workspace for the change: what nothing else refers to need not be
  -- copied to be changed.
  let u := w.table t
  (w.setTable t .blank).setTable t (u.insert r hw)

/-- Only the table that gains a row is replaced. -/
theorem insertRow_eq (w : Workspace n m) (t : Fin n) (r : Row)
    (hw : r.length = (w.table t).titles.length) :
    w.insertRow t r hw = w.setTable t ((w.table t).insert r hw) := by
  simp [insertRow, setTable]

/-- Adds a row to a table, and says whether it was new or why it is refused. -/
def addRow (w : Workspace n m) (t : Fin n) (r : Row) : Workspace n m × Except Error Bool :=
  if hw : r.length = (w.table t).titles.length then
    let isNew := !(w.table t).holds r
    (w.insertRow t r hw, .ok isNew)
  else (w, .error ((w.table t).widthError r))

/-- A row is added to a table of a workspace as it is to the table alone. -/
theorem addRow_eq (w : Workspace n m) (t : Fin n) (r : Row) :
    w.addRow t r = match (w.table t).add r with
      | .error e => (w, .error e)
      | .ok (u, isNew) => (w.setTable t u, .ok isNew) := by
  rw [addRow, Table.add]
  split
  · simp only [insertRow_eq]
  · rfl

end Workspace

end FlatQuery
