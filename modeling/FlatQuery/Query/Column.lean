import FlatQuery.Table.Workspace

/-!
# Columns bound to cursors

A column reference means something only where there are cursors to select from. It
means the column of that title under the one cursor that has it; under none of them,
or under more than one, it means nothing and is refused. The position of the cursor
in the list plays no part.

A bound column is tied to a cursor, not to a row: its value follows the cursor.
-/

set_option autoImplicit false

namespace FlatQuery

/-- A column of the table under a cursor. -/
structure BoundColumn (m : Nat) where
  /-- The cursor. -/
  cursor : Fin m
  /-- The number of the column in the cursor's table; a negative one counts from the end. -/
  index : Int
  /-- The title it was asked for by. -/
  name : String
deriving DecidableEq

/-- One side of a condition: the value of a column, or a fixed one. -/
inductive Operand (m : Nat) where
  | column (c : BoundColumn m)
  | literal (text : String)
deriving DecidableEq

/-- A bound column in a workspace with one more cursor. -/
def BoundColumn.widen {m : Nat} (c : BoundColumn m) : BoundColumn (m + 1) :=
  { c with cursor := c.cursor.castSucc }

/-- One side of a condition in a workspace with one more cursor. -/
def Operand.widen {m : Nat} : Operand m → Operand (m + 1)
  | .column c => .column c.widen
  | .literal text => .literal text

/-- The value of a column in the row that its cursor stands on. -/
def BoundColumn.value {n m : Nat} (c : BoundColumn m) (w : Workspace n m) : Except Error String :=
  w.value c.cursor c.index

/-- The value of one side of a condition. -/
def Operand.value {n m : Nat} (o : Operand m) (w : Workspace n m) : Except Error String :=
  match o with
  | .column c => c.value w
  | .literal text => .ok text

/-- The row of the values of some operands, looked up from left to right. -/
def Row.ofOperands {n m : Nat} (w : Workspace n m) (os : List (Operand m)) : Except Error Row :=
  os.mapM (·.value w)

namespace ColumnRef

variable {n m : Nat}

/-- Whether a reference may mean a column of a table: it is not qualified, or qualified
by the table's name. -/
def admits (r : ColumnRef) (t : Table) : Bool :=
  match r.table? with
  | none => true
  | some q => t.name == q

/-- The column that a reference means under one cursor. -/
def bind? (r : ColumnRef) (w : Workspace n m) (c : Fin m) : Option (BoundColumn m) :=
  if r.admits (w.tableUnder c) then
    ((w.tableUnder c).column? r.name).map fun (k : Nat) => ⟨c, k, r.name⟩
  else none

/-- Whether a reference is qualified by a name that no cursor's table has. -/
def isForeign (r : ColumnRef) (w : Workspace n m) (cursors : List (Fin m)) : Bool :=
  r.table?.isSome && !cursors.any fun c => r.admits (w.tableUnder c)

/-- The column that a reference means among some cursors. -/
def resolve (r : ColumnRef) (w : Workspace n m) (cursors : List (Fin m)) :
    Except Error (BoundColumn m) :=
  -- A cursor that is listed twice counts twice.
  match cursors.filterMap (r.bind? w) with
  | [b] => .ok b
  | [] =>
    if r.isForeign w cursors then .error (.unknownTableInReference r)
    else .error (.unknownColumn r)
  | _ :: _ :: _ => .error (.ambiguousColumn r)

/-- The columns that some references mean, or the error of the first that means none. -/
def resolveAll (w : Workspace n m) (cursors : List (Fin m)) (rs : List ColumnRef) :
    Except Error (List (BoundColumn m)) :=
  rs.mapM (·.resolve w cursors)

end ColumnRef

end FlatQuery
