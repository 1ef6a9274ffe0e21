import Std.Data.TreeSet

/-!
# Sets in order of arrival

A set whose elements stand in the order in which they first came. It is held twice: as
an array, which gives the order and finds an element by its number at once, and as a
sorted index, which tells quickly whether an element is there. The index is the one that
the array gives when it is filed element by element, so that the array alone says what
the set is: two sets are equal when their elements are, in the same order.

Main statements: the index knows exactly the elements of the array (`contains_iff`), an
element that is there is inserted without a change (`insert_of_mem`), and a new one goes
behind the others (`toList_insert_of_not_mem`).
-/

set_option autoImplicit false

namespace FlatQuery

/-- A set in order of arrival. -/
structure ArrivalSet (α : Type) [Ord α] where
  /-- The elements, the one that came first at number zero. -/
  elements : Array α
  /-- The elements in sorted order. -/
  index : Std.TreeSet α
  index_eq : index = elements.toList.foldl Std.TreeSet.insert ∅
  nodup : elements.toList.Nodup

namespace ArrivalSet

variable {α : Type} [Ord α]

/-- The elements, in order of arrival. -/
def toList (s : ArrivalSet α) : List α := s.elements.toList

/-- The number of elements. -/
def size (s : ArrivalSet α) : Nat := s.elements.size

/-- The element at a number. -/
def get? (s : ArrivalSet α) (i : Nat) : Option α := s.elements[i]?

/-- Whether an element is there. -/
def contains (s : ArrivalSet α) (a : α) : Bool := s.index.contains a

@[simp] theorem length_toList (s : ArrivalSet α) : s.toList.length = s.size := rfl

@[simp] theorem getElem?_toList (s : ArrivalSet α) (i : Nat) : s.toList[i]? = s.get? i := by
  simp [toList, get?]

/-- Sets with the same elements in the same order are equal. -/
theorem ext {s t : ArrivalSet α} (h : s.toList = t.toList) : s = t := by
  obtain ⟨xs, i, hi, hx⟩ := s
  obtain ⟨ys, j, hj, hy⟩ := t
  obtain rfl : xs = ys := Array.toList_inj.1 h
  obtain rfl : i = j := hi.trans hj.symm
  rfl

instance [DecidableEq α] : DecidableEq (ArrivalSet α) := fun s t =>
  decidable_of_iff (s.elements = t.elements)
    ⟨fun h => ext (congrArg Array.toList h), fun h => h ▸ rfl⟩

/-- No elements. -/
def empty : ArrivalSet α := ⟨#[], ∅, rfl, List.nodup_nil⟩

@[simp] theorem toList_empty : (empty : ArrivalSet α).toList = [] := rfl

variable [Std.TransOrd α] [Std.LawfulEqOrd α]

/-- Filing elements makes them known, and forgets nothing. -/
theorem mem_foldl_insert {a : α} {as : List α} {index : Std.TreeSet α} :
    a ∈ as.foldl Std.TreeSet.insert index ↔ a ∈ as ∨ a ∈ index := by
  induction as generalizing index with
  | nil => simp
  | cons b bs ih =>
    rw [List.foldl_cons, ih, Std.TreeSet.mem_insert, Std.compare_eq_iff_eq, List.mem_cons,
      or_left_comm, or_assoc, eq_comm]

/-- The index knows the elements and nothing else. -/
theorem contains_iff {s : ArrivalSet α} {a : α} : s.contains a = true ↔ a ∈ s.toList := by
  rw [contains, ← Std.TreeSet.mem_iff_contains, s.index_eq, mem_foldl_insert]
  simp [toList]

/-- Puts in an element: one that is there stays where it is, and a new one comes last. -/
def insert (s : ArrivalSet α) (a : α) : ArrivalSet α :=
  if h : s.contains a then s
  else {
    elements := s.elements.push a
    index := s.index.insert a
    index_eq := by simp [s.index_eq]
    nodup := by
      -- The elements were distinct, and the new one is none of them.
      have new : a ∉ s.toList := fun m => h (contains_iff.2 m)
      rw [Array.toList_push, List.nodup_append]
      refine ⟨s.nodup, by simp, fun x hx y hy => ?_⟩
      rintro rfl
      exact new (List.mem_singleton.1 hy ▸ hx) }

/-- Inserting an element that is there changes nothing. -/
theorem insert_of_mem {s : ArrivalSet α} {a : α} (h : a ∈ s.toList) : s.insert a = s := by
  rw [insert, dif_pos (contains_iff.2 h)]

/-- Inserting a new element puts it last. -/
theorem toList_insert_of_not_mem {s : ArrivalSet α} {a : α} (h : a ∉ s.toList) :
    (s.insert a).toList = s.toList ++ [a] := by
  rw [insert, dif_neg fun c => h (contains_iff.1 c)]
  simp [toList]

theorem mem_toList_insert {s : ArrivalSet α} {a b : α} :
    b ∈ (s.insert a).toList ↔ b ∈ s.toList ∨ b = a := by
  by_cases h : a ∈ s.toList
  · rw [insert_of_mem h]
    exact ⟨.inl, fun o => o.elim id fun e => e ▸ h⟩
  · simp [toList_insert_of_not_mem h]

end ArrivalSet

end FlatQuery
