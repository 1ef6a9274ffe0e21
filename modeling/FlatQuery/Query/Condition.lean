import FlatQuery.Query.Column

/-!
# Conditions

A condition relates the value of a column to that of another column or to a fixed
value. Values are text and are compared as text, character by character in the order
of their code points, so `10` comes before `9`. Each of the six relations is a set of
the three ways in which such a comparison can turn out.
-/

set_option autoImplicit false

namespace FlatQuery

/-! ## 1. Relations -/

/-- How two texts compare, by the code points of their first difference; a text comes
after its beginnings. -/
def compareText (s t : String) : Ordering :=
  if s < t then .lt else if t < s then .gt else .eq

/-- The relations of conditions. -/
inductive Relation where
  | less
  | greater
  | atMost
  | atLeast
  | equal
  | different
deriving DecidableEq

namespace Relation

/-- The relation that a sign stands for. -/
def ofSymbol? : String → Option Relation
  | "<" => some .less
  | ">" => some .greater
  | "<=" => some .atMost
  | ">=" => some .atLeast
  | "=" => some .equal
  | "!=" => some .different
  | _ => none

/-- The sign of a relation. -/
def symbol : Relation → String
  | .less => "<"
  | .greater => ">"
  | .atMost => "<="
  | .atLeast => ">="
  | .equal => "="
  | .different => "!="

theorem ofSymbol?_symbol (r : Relation) : ofSymbol? r.symbol = some r := by
  cases r <;> rfl

/-- Whether a comparison turned out as a relation wants. -/
def holds : Relation → Ordering → Bool
  | .less, o => o == .lt
  | .greater, o => o == .gt
  | .atMost, o => o != .gt
  | .atLeast, o => o != .lt
  | .equal, o => o == .eq
  | .different, o => o != .eq

end Relation

/-! ## 2. Conditions -/

/-- A column, a relation and what the column's value is compared with. -/
structure Condition (m : Nat) where
  /-- The left side. -/
  left : BoundColumn m
  /-- The relation. -/
  relation : Relation
  /-- The right side. -/
  right : Operand m
deriving DecidableEq

namespace Condition

variable {n m : Nat}

/-- The condition with a relation given by its sign. -/
def ofSymbol (left : BoundColumn m) (symbol : String) (right : Operand m) :
    Except Error (Condition m) :=
  match Relation.ofSymbol? symbol with
  | some r => .ok ⟨left, r, right⟩
  | none => .error (.unknownRelation symbol)

/-- A condition in a workspace with one more cursor. -/
def widen (c : Condition m) : Condition (m + 1) := ⟨c.left.widen, c.relation, c.right.widen⟩

/-- Whether a condition holds for the rows that the cursors stand on. The left value is
looked up first. -/
def test (c : Condition m) (w : Workspace n m) : Except Error Bool := do
  let x ← c.left.value w
  let y ← c.right.value w
  return c.relation.holds (compareText x y)

/-- Whether all conditions hold; none is looked at behind the first that does not. -/
def satisfied (w : Workspace n m) (cs : List (Condition m)) : Except Error Bool :=
  cs.allM (·.test w)

end Condition

end FlatQuery
