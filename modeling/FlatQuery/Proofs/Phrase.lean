import FlatQuery.Proofs.Lexical
import FlatQuery.Proofs.Resolution
import FlatQuery.Statement.Grammar
import Mathlib.Data.List.Forall2

/-!
# Phrases

A phrase is a statement as it is written: a tree with one kind of node for each rule of the
grammar, in which names stand for themselves and mean nothing yet. Spelling a phrase gives
its tokens. Any text can be a name, those of the keywords included, so that `create` may
well be spelled in the place of a name.

Whether a phrase means something depends on the catalog. `Phrase.Command.Reads` relates a
phrase to the statement that it is read as: the sources of a clause must be registered, the
columns of a clause must be columns of its sources, and no title may come twice. It is a
relation between trees. How it is decided in the course of reading, and in which order, is
not its matter.
-/

set_option autoImplicit false

namespace FlatQuery

/-! ## 1. Spelling -/

/-- The token of a text. -/
def Token.ofText (text : String) : Token := ⟨kindOf text, text⟩

/-- The token of a name, be it that of a keyword. -/
def Token.ofName (name : String) : Token := ⟨.identifier, name⟩

/-- A list that is not empty. -/
structure OneOrMore (α : Type) where
  first : α
  others : List α

namespace OneOrMore

variable {α : Type}

def toList (xs : OneOrMore α) : List α := xs.first :: xs.others

/-- Items with a separator between them. -/
def spell (separator : String) (item : α → List Token) (xs : OneOrMore α) : List Token :=
  item xs.first ++ xs.others.flatMap fun x => .ofText separator :: item x

theorem mem_spell {separator : String} {item : α → List Token} {xs : OneOrMore α} {x : α}
    (hx : x ∈ xs.toList) {k : Token} (hk : k ∈ item x) : k ∈ xs.spell separator item := by
  rcases List.mem_cons.1 hx with rfl | hx
  · exact List.mem_append_left _ hk
  · exact List.mem_append_right _ (List.mem_flatMap.2 ⟨x, hx, List.mem_cons_of_mem _ hk⟩)

end OneOrMore

/-- A column with the name of its table in front, or alone. -/
def ColumnRef.spell (r : ColumnRef) : List Token :=
  match r.table? with
  | none => [.ofName r.name]
  | some q => [.ofName q, .ofText ".", .ofName r.name]

namespace Phrase

/-- The right side of a comparison. A literal is given by its text, quotes included. -/
inductive Side where
  | literal (text : String)
  | column (r : ColumnRef)

def Side.spell : Side → List Token
  | .literal text => [⟨.literal, text⟩]
  | .column r => r.spell

structure Comparison where
  left : ColumnRef
  relation : Relation
  right : Side

def Comparison.spell (c : Comparison) : List Token :=
  c.left.spell ++ ⟨.relation, c.relation.symbol⟩ :: c.right.spell

/-- A query, from its columns on. -/
structure Clause where
  columns : OneOrMore ColumnRef
  sources : OneOrMore String
  comparisons? : Option (OneOrMore Comparison)

def spellWhere : Option (OneOrMore Comparison) → List Token
  | none => []
  | some cs => .ofText "where" :: cs.spell "and" Comparison.spell

def Clause.spell (p : Clause) : List Token :=
  p.columns.spell "," ColumnRef.spell ++ .ofText "from" ::
    (p.sources.spell "," (fun n => [.ofName n]) ++ spellWhere p.comparisons?)

/-- The comparisons of a clause, if it has any. -/
def comparisons : Option (OneOrMore Comparison) → List Comparison
  | none => []
  | some cs => cs.toList

/-- What a new table is to be. -/
inductive Body where
  | titles (ts : OneOrMore String)
  | query (p : Clause)

def Body.spell : Body → List Token
  | .titles ts => .ofText "(" :: (ts.spell "," (fun n => [.ofName n]) ++ [.ofText ")"])
  | .query p => .ofText "as" :: .ofText "select" :: p.spell

/-- A statement, without the semicolon that ends it. The values of an insertion are given by
the texts of their literals, and stand in parentheses or not. -/
inductive Command where
  | create (name : String) (body : Body)
  | insert (target : String) (values : OneOrMore String) (parenthesized : Bool)
  | load (name : String)
  | store (name : String)
  | print (name : String)
  | select (p : Clause)
  | exit
  | quit

/-- The values of an insertion, in both parentheses or in none. -/
def spellValues (values : OneOrMore String) (parenthesized : Bool) : List Token :=
  if parenthesized then
    .ofText "(" :: (values.spell "," (fun v => [⟨.literal, v⟩]) ++ [.ofText ")"])
  else values.spell "," fun v => [⟨.literal, v⟩]

def Command.spell : Command → List Token
  | .create name body => .ofText "create" :: .ofText "table" :: .ofName name :: body.spell
  | .insert target values parenthesized =>
    .ofText "insert" :: .ofText "into" :: .ofName target :: .ofText "values" ::
      spellValues values parenthesized
  | .load name => [.ofText "load", .ofName name]
  | .store name => [.ofText "store", .ofName name]
  | .print name => [.ofText "print", .ofName name]
  | .select p => .ofText "select" :: p.spell
  | .exit => [.ofText "exit"]
  | .quit => [.ofText "quit"]

/-! ## 2. Meaning -/

/-- What the right side of a comparison means. -/
inductive Side.Reads (sources : List Table) : Side → Operand sources.length → Prop where
  | literal (text : String) : Reads sources (.literal text) (.literal (Statement.literalValue text))
  | column {r : ColumnRef} {b : BoundColumn sources.length}
      (h : ColumnRef.columnOf sources r = .ok b) :
    Reads sources (.column r) (.column b)

structure Comparison.Reads (sources : List Table) (p : Comparison)
    (c : Condition sources.length) : Prop where
  left : ColumnRef.columnOf sources p.left = .ok c.left
  relation : c.relation = p.relation
  right : p.right.Reads sources c.right

/-- The query that a clause means, which is to fill a table of a given name. -/
structure Clause.Reads (catalog : Catalog) (resultName : String) (p : Clause) (q : Query) :
    Prop where
  result : Table.withTitles resultName (p.columns.toList.map ColumnRef.name) = .ok q.result
  sources : ∃ entries : List Catalog.Entry,
    List.Forall₂ (fun n e => catalog.lookup n = .ok e) p.sources.toList entries ∧
      entries.map Catalog.Entry.table = q.sources
  sources_le : q.sources.length ≤ Workspace.maxSources
  columns :
    List.Forall₂ (fun r b => ColumnRef.columnOf q.sources r = .ok b) p.columns.toList q.columns
  conditions : List.Forall₂ (Comparison.Reads q.sources) (comparisons p.comparisons?)
    q.conditions

inductive Body.Reads (catalog : Catalog) (name : String) : Body → Definition → Prop where
  | titles {ts : OneOrMore String} {t : Table} (h : Table.withTitles name ts.toList = .ok t) :
    Reads catalog name (.titles ts) (.columns t)
  | query {p : Clause} {q : Query} (h : p.Reads catalog name q) :
    Reads catalog name (.query p) (.query q)

/-- The statement that a command means. -/
inductive Command.Reads (catalog : Catalog) : Command → Statement → Prop where
  | create {name : String} {body : Body} {d : Definition} (h : body.Reads catalog name d) :
    Reads catalog (.create name body) (.create name d)
  | insert {target : String} {values : OneOrMore String} {parenthesized : Bool}
    {e : Catalog.Entry} (h : catalog.lookup target = .ok e) :
    Reads catalog (.insert target values parenthesized)
      (.insert e (values.toList.map Statement.literalValue))
  | load (name : String) : Reads catalog (.load name) (.load name)
  | store (name : String) : Reads catalog (.store name) (.store name)
  | print (name : String) : Reads catalog (.print name) (.print name)
  | select {p : Clause} {q : Query} (h : p.Reads catalog Statement.selectionName q) :
    Reads catalog (.select p) (.select q)
  | exit : Reads catalog .exit .exit
  | quit : Reads catalog .quit .exit

end Phrase

end FlatQuery
