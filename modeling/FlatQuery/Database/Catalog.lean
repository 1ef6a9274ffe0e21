import FlatQuery.Table.Basic

/-!
# The catalog

The catalog lists the tables of a session by name, in the order in which the names
came. A name that is given a new table keeps its place.

One table may stand under several names, and a row added under one of them shows under
all. Each entry therefore carries an identity besides its name and its table: entries
of one identity stand for one table and hold the same contents, and to change a table
is to change it in every entry of its identity. A table that is registered anew gets
an identity that no entry has.
-/

set_option autoImplicit false

namespace FlatQuery

namespace Catalog

/-- A name and the table it stands for. -/
structure Entry where
  /-- The name. -/
  name : String
  /-- What the entries of one table have in common. -/
  identity : Nat
  /-- The table. -/
  table : Table
deriving DecidableEq

end Catalog

/-- The tables of a session, by name. -/
structure Catalog where
  /-- The names in the order in which they came. -/
  entries : List Catalog.Entry
deriving DecidableEq

namespace Catalog

/-- No tables. -/
def empty : Catalog := ⟨[]⟩

/-! ## 1. Looking up -/

/-- The entry of a name. -/
def find? (c : Catalog) (name : String) : Option Entry := c.entries.find? fun e => e.name = name

/-- The entry of a name that has to be there. -/
def lookup (c : Catalog) (name : String) : Except Error Entry :=
  match c.find? name with
  | some e => .ok e
  | none => .error (.unknownTable name)

/-- The names, in order. -/
def names (c : Catalog) : List String := c.entries.map Entry.name

/-- Names and tables, in order: all that a session can see of a catalog. -/
def toList (c : Catalog) : List (String × Table) := c.entries.map fun e => (e.name, e.table)

/-! ## 2. Registering -/

/-- An identity that no entry has. -/
def freshIdentity (c : Catalog) : Nat := (c.entries.map fun e => e.identity + 1).foldr max 0

theorem identity_lt_freshIdentity {c : Catalog} {e : Entry} (h : e ∈ c.entries) :
    e.identity < c.freshIdentity := by
  unfold freshIdentity
  revert h
  induction c.entries with
  | nil => simp
  | cons d es ih =>
    intro h
    rw [List.map_cons, List.foldr_cons]
    rcases List.mem_cons.1 h with rfl | h
    · omega
    · have := ih h
      omega

/-- The catalog with an entry in the place of the one of its name, or at the end if the
name is new. -/
def set (c : Catalog) (e : Entry) : Catalog :=
  if c.entries.any fun d => d.name = e.name then
    ⟨c.entries.map fun d => if d.name = e.name then e else d⟩
  else ⟨c.entries ++ [e]⟩

/-- Registers a table under a name. -/
def put (c : Catalog) (name : String) (t : Table) : Catalog :=
  c.set ⟨name, c.freshIdentity, t⟩

/-- Registers the table of an entry under one more name. -/
def share (c : Catalog) (name : String) (e : Entry) : Catalog :=
  c.set { e with name }

/-- Puts new contents into the table of an identity, under all of its names. -/
def update (c : Catalog) (identity : Nat) (t : Table) : Catalog :=
  ⟨c.entries.map fun e => if e.identity = identity then { e with table := t } else e⟩

/-- Changing a table's contents changes no name. -/
@[simp] theorem names_update (c : Catalog) (identity : Nat) (t : Table) :
    (c.update identity t).names = c.names := by
  simp only [names, update, List.map_map]
  refine List.map_congr_left fun e _ => ?_
  simp only [Function.comp_apply]
  split <;> rfl

end Catalog

end FlatQuery
