import FlatQuery.Error
import FlatQuery.Table.ArrivalSet

/-!
# Rows and tables

A table is a set of rows in the order in which they came, under distinct titles.
All values are text. Adding a row that is there already changes nothing, so the
only order a table has is that of first arrival.

The three things that make a table one - no title twice, every row as wide as the
titles, no row twice - are part of the type. A table is made from titles and grows by
rows, and either step checks what the type demands: titles are refused when one
repeats, a row when its width is wrong.
-/

set_option autoImplicit false

namespace FlatQuery

/-- A row: its values from left to right. -/
abbrev Row := List String

/-! ## 1. Counting from either end -/

/-- The element at a number: from the front for zero and up, from the end for minus one
and down. -/
def signedGet? {α : Type} (xs : List α) : Int → Option α
  | .ofNat k => xs[k]?
  | .negSucc k => if k < xs.length then xs[xs.length - 1 - k]? else none

/-- A number has an element when it is neither beyond the end nor before the front. -/
theorem signedGet?_isSome {α : Type} (xs : List α) (k : Int) :
    (signedGet? xs k).isSome = true ↔ -(xs.length : Int) ≤ k ∧ k < xs.length := by
  have inside (n : Nat) : (xs[n]?).isSome = true ↔ n < xs.length := by
    cases h : xs[n]? with
    | none => simpa using List.getElem?_eq_none_iff.1 h
    | some v => simpa using (List.getElem?_eq_some_iff.1 h).1
  cases k with
  | ofNat k =>
    rw [signedGet?, inside]
    simp only [Int.ofNat_eq_natCast]
    omega
  | negSucc k =>
    rw [signedGet?]
    split
    · rw [inside]
      omega
    · simp only [Option.isSome_none, Bool.false_eq_true, false_iff]
      omega

/-- The error of a number that has no element, given the one for numbers that could have
one: those of a machine word with a sign. -/
def outOfRange (k : Int) (e : Error) : Error :=
  if -0x8000000000000000 ≤ k ∧ k < 0x8000000000000000 then e else .indexTooLarge

namespace Row

/-- The value at a number. -/
def field (r : Row) (k : Int) : Except Error String :=
  match signedGet? r k with
  | some v => .ok v
  | none => .error (outOfRange k .fieldIndex)

/-- A row as it is displayed: indented, with a space between values. -/
def display (r : Row) : String := "  " ++ " ".intercalate r

/-- A row as it is described, each value in quotes. -/
def describe (r : Row) : String := "Row(" ++ Text.Quoted.quotedList r ++ ")"

end Row

/-! ## 2. Titles -/

/-- The first title of a list that some titles before the list, or an earlier one of the
list, equal. -/
def firstRepeat? (seen : List String) : List String → Option String
  | [] => none
  | t :: ts => if t ∈ seen then some t else firstRepeat? (t :: seen) ts

/-- No title repeats exactly when the titles are distinct and new. -/
theorem firstRepeat?_eq_none {seen ts : List String} :
    firstRepeat? seen ts = none ↔ ts.Nodup ∧ ∀ t ∈ ts, t ∉ seen := by
  induction ts generalizing seen with
  | nil => simp [firstRepeat?]
  | cons t ts ih =>
    by_cases h : t ∈ seen
    · simp [firstRepeat?, h]
    · simp only [firstRepeat?, h, if_false, ih, List.nodup_cons, List.mem_cons, not_or,
        forall_eq_or_imp, not_false_eq_true, true_and]
      constructor
      · rintro ⟨hn, hs⟩
        exact ⟨⟨fun ht => (hs t ht).1 rfl, hn⟩, fun x hx => (hs x hx).2⟩
      · rintro ⟨⟨ht, hn⟩, hs⟩
        exact ⟨hn, fun x hx => ⟨fun e => ht (e ▸ hx), hs x hx⟩⟩

/-! ## 3. Tables -/

/-- A named table of distinct rows under distinct titles. -/
structure Table where
  /-- The name it was made with. -/
  name : String
  /-- The titles of its columns. -/
  titles : List String
  /-- Its rows. -/
  rowSet : ArrivalSet Row
  titles_nodup : titles.Nodup
  width_eq : ∀ r ∈ rowSet.toList, r.length = titles.length
deriving DecidableEq

namespace Table

/-- The rows of a table, in order of arrival. -/
def rows (t : Table) : List Row := t.rowSet.toList

/-- Every row is as wide as the titles. -/
theorem rows_width (t : Table) : ∀ r ∈ t.rows, r.length = t.titles.length := t.width_eq

/-- No row is there twice. -/
theorem rows_nodup (t : Table) : t.rows.Nodup := t.rowSet.nodup

/-- A table is its name, its titles and its rows. -/
theorem ext {t u : Table} (hn : t.name = u.name) (ht : t.titles = u.titles)
    (hr : t.rows = u.rows) : t = u := by
  obtain ⟨_, _, _, _, _⟩ := t
  obtain ⟨_, _, _, _, _⟩ := u
  obtain rfl := hn
  obtain rfl := ht
  obtain rfl := ArrivalSet.ext hr
  rfl

/-- The table without rows under some titles; the first title that equals an earlier one
is refused. -/
def withTitles (name : String) (titles : List String) : Except Error Table :=
  match h : firstRepeat? [] titles with
  | some t => .error (.duplicateColumn t)
  | none =>
    .ok {
      name, titles
      rowSet := .empty
      titles_nodup := (firstRepeat?_eq_none.1 h).1
      width_eq := by simp }

/-- A table without a name, titles and rows. -/
def blank : Table := ⟨"", [], .empty, List.nodup_nil, by simp⟩

/-- The number of columns. -/
def width (t : Table) : Nat := t.titles.length

/-- The number of rows. -/
def size (t : Table) : Nat := t.rowSet.size

@[simp] theorem length_rows (t : Table) : t.rows.length = t.size := rfl

/-- The row at a number counted from zero. -/
def row? (t : Table) (i : Nat) : Option Row := t.rowSet.get? i

@[simp] theorem getElem?_rows (t : Table) (i : Nat) : t.rows[i]? = t.row? i :=
  t.rowSet.getElem?_toList i

/-- Whether a row is there. -/
def holds (t : Table) (r : Row) : Bool := t.rowSet.contains r

/-- A row is found when it is one of the rows. -/
theorem holds_iff {t : Table} {r : Row} : t.holds r = true ↔ r ∈ t.rows :=
  ArrivalSet.contains_iff

/-- Puts a row of the right width into a table: a row that is there stays where it is,
and a new one comes last. -/
def insert (t : Table) (r : Row) (hw : r.length = t.titles.length) : Table where
  name := t.name
  titles := t.titles
  rowSet := t.rowSet.insert r
  titles_nodup := t.titles_nodup
  width_eq x hx := (ArrivalSet.mem_toList_insert.1 hx).elim (t.width_eq x) fun e => e ▸ hw

@[simp] theorem insert_name (t : Table) (r : Row) (hw : r.length = t.titles.length) :
    (t.insert r hw).name = t.name := rfl

@[simp] theorem insert_titles (t : Table) (r : Row) (hw : r.length = t.titles.length) :
    (t.insert r hw).titles = t.titles := rfl

theorem insert_rows (t : Table) (r : Row) (hw : r.length = t.titles.length) :
    (t.insert r hw).rows = if r ∈ t.rows then t.rows else t.rows ++ [r] := by
  split
  · next h => exact congrArg ArrivalSet.toList (ArrivalSet.insert_of_mem h)
  · next h => exact ArrivalSet.toList_insert_of_not_mem h

/-- Putting in a row that is there changes nothing. -/
theorem insert_of_mem {t : Table} {r : Row} {hw : r.length = t.titles.length} (h : r ∈ t.rows) :
    t.insert r hw = t :=
  ext rfl rfl (by rw [insert_rows, if_pos h])

/-- The error of a row whose width is not that of the titles. -/
def widthError (t : Table) (r : Row) : Error := .rowWidth r.length t.name t.titles.length

/-- Adds a row and says whether it was new. A row of the wrong width is refused. -/
def add (t : Table) (r : Row) : Except Error (Table × Bool) :=
  if hw : r.length = t.titles.length then
    -- This is asked first, so that the table is changed when nothing else needs it as it was.
    let isNew := !t.holds r
    .ok (t.insert r hw, isNew)
  else .error (t.widthError r)

/-- Adds rows one after the other, up to the first that is refused. -/
def addAll (t : Table) : List Row → Except Error Table
  | [] => .ok t
  | r :: rs =>
    match t.add r with
    | .error e => .error e
    | .ok (u, _) => u.addAll rs

/-- Adding never touches the name. -/
theorem add_name {t u : Table} {r : Row} {b : Bool} (h : t.add r = .ok (u, b)) :
    u.name = t.name := by
  simp only [add] at h
  split at h
  · simp only [Except.ok.injEq, Prod.mk.injEq] at h
    rw [← h.1, insert_name]
  · simp at h

/-- Adding never touches the titles. -/
theorem add_titles {t u : Table} {r : Row} {b : Bool} (h : t.add r = .ok (u, b)) :
    u.titles = t.titles := by
  simp only [add] at h
  split at h
  · simp only [Except.ok.injEq, Prod.mk.injEq] at h
    rw [← h.1, insert_titles]
  · simp at h

/-- Adding says that a row is new when it was not there. -/
theorem add_isNew {t u : Table} {r : Row} {b : Bool} (h : t.add r = .ok (u, b)) :
    b = true ↔ r ∉ t.rows := by
  simp only [add] at h
  split at h
  · simp only [Except.ok.injEq, Prod.mk.injEq] at h
    rw [← h.2, ← holds_iff, Bool.not_eq_true', Bool.not_eq_true]
  · simp at h

/-- Adding a row leaves the rows alone when it is there and puts it last when it is not. -/
theorem add_rows {t u : Table} {r : Row} {b : Bool} (h : t.add r = .ok (u, b)) :
    u.rows = if r ∈ t.rows then t.rows else t.rows ++ [r] := by
  simp only [add] at h
  split at h
  · simp only [Except.ok.injEq, Prod.mk.injEq] at h
    rw [← h.1, insert_rows]
  · simp at h

/-! ## 4. Looking at a table -/

/-- The title at a number. -/
def title (t : Table) (k : Int) : Except Error String :=
  match signedGet? t.titles k with
  | some s => .ok s
  | none => .error (outOfRange k .fieldIndex)

/-- The row at a number. -/
def row (t : Table) (k : Int) : Except Error Row :=
  match signedGet? t.rows k with
  | some r => .ok r
  | none => .error (outOfRange k .rowIndex)

/-- The number of the column under a title. -/
def column? (t : Table) (title : String) : Option Nat := t.titles.findIdx? (· = title)

/-- The rows as they are displayed, a line each. -/
def display (t : Table) : List String := t.rows.map Row.display

/-- A table as it is described: its name and titles in quotes, and its size. -/
def describe (t : Table) : String :=
  let name := Text.Quoted.quoted t.name
  let columns := Text.Quoted.quotedList t.titles
  s!"Table({name}, columns={columns}, rows={t.size})"

end Table

end FlatQuery
