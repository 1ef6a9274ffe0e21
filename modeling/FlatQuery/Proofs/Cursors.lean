import FlatQuery.Proofs.Adding
import FlatQuery.Proofs.Selecting
import Mathlib.Data.List.Destutter
import Mathlib.Data.List.Infix

/-!
# Cursors over tables that grow

A cursor is a number of rows that are behind it, and the table it counts in may gain rows between
any two of its steps. What keeps this sound is that rows only ever come last. A position up to
the end stays one, a row that a cursor stands on stays the same row, and a cursor that has run out
of rows stands exactly where the next new row will be.

What an operation does to one cursor is said once (`Workspace.position_perform`): it stays, it
moves by one off a row that it stands on, or it is put back. Everything about sequences of
operations is an induction over this. As long as a cursor is not put back it only goes onward
(`Workspace.Onward`), and the rows it stands on meanwhile are a stretch of the table's rows
(`Workspace.stops_eq`).
-/

set_option autoImplicit false

namespace FlatQuery

/-- What can be done to the tables and cursors of a workspace. -/
inductive Operation (n m : Nat) where
  /-- A row is added to a table, or refused. -/
  | add (t : Fin n) (row : Row)
  /-- A cursor is moved to the next row. -/
  | advance (c : Fin m)
  /-- A cursor is put back to the first row. -/
  | reset (c : Fin m)
  /-- A value is looked up in the row that a cursor stands on. -/
  | value (c : Fin m) (k : Int)
deriving DecidableEq

/-- The cursor that an operation is one of. -/
def Operation.cursor? {n m : Nat} : Operation n m → Option (Fin m)
  | .add _ _ => none
  | .advance c => some c
  | .reset c => some c
  | .value c _ => some c

namespace Workspace

variable {n m : Nat}

/-! ## 1. One operation -/

/-- The workspace after an operation. -/
def perform (w : Workspace n m) : Operation n m → Workspace n m
  | .add t row => (w.addRow t row).1
  | .advance c => w.advance c
  | .reset c => w.reset c
  | .value _ _ => w

/-- Adding a row moves no cursor. -/
theorem cursor_addRow (w : Workspace n m) (t : Fin n) (row : Row) (c : Fin m) :
    (w.addRow t row).1.cursor c = w.cursor c := by
  rcases addRow_cases w t row with ⟨-, h⟩ | ⟨width, h⟩
  · rw [h]
  · rw [h]
    rfl

/-- Advancing a cursor changes no table. -/
theorem table_advance (w : Workspace n m) (c : Fin m) (t : Fin n) :
    (w.advance c).table t = w.table t := by
  unfold advance
  split
  · rfl
  · rfl

/-- Rows come last and are never lost. -/
theorem rows_perform (w : Workspace n m) (op : Operation n m) (t : Fin n) :
    (w.table t).rows <+: ((w.perform op).table t).rows := by
  rcases op with ⟨u, row⟩ | c | c | ⟨c, k⟩
  · rcases addRow_cases w u row with ⟨-, h⟩ | ⟨width, h⟩
    · rw [perform, h]
    · rw [perform, h]
      by_cases htu : t = u
      · rw [htu, table_setTable_self, Table.insert_rows]
        split
        · exact List.prefix_refl _
        · exact List.prefix_append _ _
      · rw [table_setTable_of_ne w htu]
  · rw [perform, table_advance]
  · exact List.prefix_refl _
  · exact List.prefix_refl _

/-- Advancing a cursor moves no other. -/
theorem cursor_advance_of_ne (w : Workspace n m) {c d : Fin m} (h : d ≠ c) :
    (w.advance c).cursor d = w.cursor d := by
  unfold advance
  split
  · exact cursor_moveTo_of_ne w h _
  · rfl

/-- A cursor that is advanced stays over its table. -/
theorem cursor_table_advance (w : Workspace n m) (c d : Fin m) :
    ((w.advance c).cursor d).table = (w.cursor d).table := by
  unfold advance
  split
  · exact cursor_table_moveTo w c d _
  · rfl

/-- No operation puts a cursor over another table. -/
theorem cursor_table_perform (w : Workspace n m) (op : Operation n m) (c : Fin m) :
    ((w.perform op).cursor c).table = (w.cursor c).table := by
  rcases op with ⟨t, row⟩ | d | d | ⟨d, k⟩
  · rw [perform, cursor_addRow]
  · exact cursor_table_advance w d c
  · exact cursor_table_moveTo w d c 0
  · rfl

/-- **What an operation does to a cursor**: it stays, it moves by one off the row it stands on,
or it is put back. -/
theorem position_perform (w : Workspace n m) (op : Operation n m) (c : Fin m) :
    ((w.perform op).cursor c).position = (w.cursor c).position ∨
    (op = .advance c ∧ w.hasRow c = true ∧
      ((w.perform op).cursor c).position = (w.cursor c).position + 1) ∨
    (op = .reset c ∧ ((w.perform op).cursor c).position = 0) := by
  -- Only an advance or a reset of the cursor itself moves it.
  rcases op with ⟨t, row⟩ | d | d | ⟨d, k⟩
  · rw [perform, cursor_addRow]
    exact .inl rfl
  · rw [perform]
    by_cases hc : c = d
    · subst hc
      by_cases hrow : w.hasRow c = true
      · rw [advance, if_pos hrow, cursor_moveTo_self]
        exact .inr (.inl ⟨rfl, hrow, rfl⟩)
      · rw [advance, if_neg hrow]
        exact .inl rfl
    · rw [cursor_advance_of_ne w hc]
      exact .inl rfl
  · rw [perform, reset]
    by_cases hc : c = d
    · subst hc
      rw [cursor_moveTo_self]
      exact .inr (.inr ⟨rfl, rfl⟩)
    · rw [cursor_moveTo_of_ne w hc]
      exact .inl rfl
  · exact .inl rfl

/-- A cursor operation is felt by no table and by no other cursor. -/
theorem perform_frame (w : Workspace n m) {op : Operation n m} {c : Fin m}
    (h : op.cursor? = some c) :
    (∀ t, (w.perform op).table t = w.table t) ∧
      ∀ d, d ≠ c → (w.perform op).cursor d = w.cursor d := by
  rcases op with ⟨t, row⟩ | c' | c' | ⟨c', k⟩
  · cases h
  · obtain rfl : c' = c := Option.some.inj h
    exact ⟨table_advance w c', fun d hd => cursor_advance_of_ne w hd⟩
  · obtain rfl : c' = c := Option.some.inj h
    exact ⟨fun t => rfl, fun d hd => cursor_moveTo_of_ne w hd 0⟩
  · exact ⟨fun t => rfl, fun d hd => rfl⟩

/-- A value is asked for in vain, because the rows are over, where there is no row. -/
theorem value_eq_pastLastRow_iff {w : Workspace n m} {c : Fin m} {k : Int} :
    w.value c k = .error (.pastLastRow (w.tableUnder c).name) ↔ w.hasRow c = false := by
  rw [← row?_isSome, value]
  rcases w.row? c with _ | row
  · exact iff_of_true rfl rfl
  · refine iff_of_false (fun h => ?_) Bool.noConfusion
    dsimp only at h
    unfold Row.field outOfRange at h
    split at h
    · cases h
    · split at h
      · cases h
      · cases h

/-! ## 2. Several operations -/

/-- The workspace after some operations. -/
def performAll (w : Workspace n m) (ops : List (Operation n m)) : Workspace n m :=
  ops.foldl perform w

/-- Whether no cursor is further than behind the last row of its table. -/
def InBounds (w : Workspace n m) : Prop :=
  ∀ c, (w.cursor c).position ≤ (w.tableUnder c).size

/-- The table under a cursor only gains rows, at its end. -/
theorem tableUnder_perform (w : Workspace n m) (op : Operation n m) (c : Fin m) :
    (w.tableUnder c).rows <+: ((w.perform op).tableUnder c).rows := by
  rw [tableUnder, tableUnder, cursor_table_perform]
  exact rows_perform w op _

/-- A cursor in bounds stays so: it is only advanced from a row, and tables do not become shorter.
-/
theorem InBounds.perform {w : Workspace n m} (h : w.InBounds) (op : Operation n m) :
    (w.perform op).InBounds := by
  intro c
  have hsize := (tableUnder_perform w op c).length_le
  rw [Table.length_rows, Table.length_rows] at hsize
  have hc := h c
  rcases position_perform w op c with hstay | ⟨-, hrow, hmove⟩ | ⟨-, hback⟩
  · omega
  · rw [hasRow_iff] at hrow
    omega
  · omega

/-- Cursors in bounds stay so over any number of operations. -/
theorem InBounds.performAll {w : Workspace n m} (h : w.InBounds) (ops : List (Operation n m)) :
    (w.performAll ops).InBounds := by
  induction ops generalizing w with
  | nil => exact h
  | cons op ops ih => exact ih (h.perform op)

/-- Cursors that have just been placed are in bounds, and so are those that were there. -/
theorem InBounds.addCursor {w : Workspace n m} (h : w.InBounds) (t : Fin n) :
    (w.addCursor t).InBounds := by
  intro c
  refine Fin.lastCases ?_ (fun d => ?_) c
  · have hnew : ((w.addCursor t).cursor (Fin.last m)).position = 0 := by
      simp [Workspace.addCursor, cursor]
    omega
  · have hold : (w.addCursor t).cursor d.castSucc = w.cursor d := by
      simp only [Workspace.addCursor, cursor, Fin.getElem_fin, Fin.val_castSucc]
      rw [Vector.getElem_push_lt d.isLt]
    rw [tableUnder, hold]
    exact h d

/-- A cursor that has just been made stands at the front. -/
theorem inBounds_ofTables (ts : List Table) : (ofTables ts).InBounds := by
  intro c
  have hfirst : ((ofTables ts).cursor c).position = 0 := by
    simp [ofTables, cursor]
  omega

/-- What may have come of a workspace for one of its cursors while it was not put back. -/
structure Onward (c : Fin m) (w v : Workspace n m) : Prop where
  cursor_table : (v.cursor c).table = (w.cursor c).table
  position_le : (w.cursor c).position ≤ (v.cursor c).position
  rows_kept : (w.tableUnder c).rows <+: (v.tableUnder c).rows

theorem Onward.refl (c : Fin m) (w : Workspace n m) : Onward c w w :=
  ⟨rfl, Nat.le_refl _, List.prefix_refl _⟩

/-- Whoever goes onward twice goes onward. -/
theorem Onward.trans {c : Fin m} {u v w : Workspace n m} (h : Onward c u v) (h' : Onward c v w) :
    Onward c u w :=
  ⟨h'.cursor_table.trans h.cursor_table, h.position_le.trans h'.position_le,
    h.rows_kept.trans h'.rows_kept⟩

/-- Only a reset of the cursor takes it back. -/
theorem onward_perform (w : Workspace n m) {op : Operation n m} {c : Fin m} (h : op ≠ .reset c) :
    Onward c w (w.perform op) := by
  refine ⟨cursor_table_perform w op c, ?_, tableUnder_perform w op c⟩
  rcases position_perform w op c with hstay | ⟨-, -, hmove⟩ | ⟨hreset, -⟩
  · omega
  · omega
  · exact absurd hreset h

/-- Without a reset of the cursor nothing does. -/
theorem onward_performAll (w : Workspace n m) {ops : List (Operation n m)} {c : Fin m}
    (h : ∀ op ∈ ops, op ≠ .reset c) : Onward c w (w.performAll ops) := by
  induction ops generalizing w with
  | nil => exact Onward.refl c w
  | cons op ops ih =>
    obtain ⟨hop, hops⟩ := List.forall_mem_cons.1 h
    exact (onward_perform w hop).trans (ih (w.perform op) hops)

/-- A cursor that is neither advanced nor reset stays where it is. -/
theorem position_performAll (w : Workspace n m) {ops : List (Operation n m)} {c : Fin m}
    (h : ∀ op ∈ ops, op ≠ .advance c ∧ op ≠ .reset c) :
    ((w.performAll ops).cursor c).position = (w.cursor c).position := by
  induction ops generalizing w with
  | nil => rfl
  | cons op ops ih =>
    obtain ⟨⟨hadvance, hreset⟩, hops⟩ := List.forall_mem_cons.1 h
    have hstep : ((w.perform op).cursor c).position = (w.cursor c).position := by
      rcases position_perform w op c with hstay | ⟨hmove, -⟩ | ⟨hback, -⟩
      · exact hstay
      · exact absurd hmove hadvance
      · exact absurd hback hreset
    exact (ih (w.perform op) hops).trans hstep

/-- A cursor that has run out of rows stands where the first new row will be. -/
theorem row?_of_exhausted {w : Workspace n m} (hw : w.InBounds) {c : Fin m}
    (hrow : w.hasRow c = false) {ops : List (Operation n m)}
    (h : ∀ op ∈ ops, op ≠ .advance c ∧ op ≠ .reset c) :
    ∃ added, ((w.performAll ops).tableUnder c).rows = (w.tableUnder c).rows ++ added ∧
      (w.performAll ops).row? c = added.head? := by
  obtain ⟨added, hadded⟩ := (onward_performAll w fun op hop => (h op hop).2).rows_kept
  have hend : (w.cursor c).position = (w.tableUnder c).rows.length := by
    have hle := hw c
    have hnot : ¬ (w.cursor c).position < (w.tableUnder c).size := by
      rw [← hasRow_iff, hrow]
      exact Bool.false_ne_true
    rw [Table.length_rows]
    omega
  refine ⟨added, hadded.symm, ?_⟩
  rw [row?, ← Table.getElem?_rows, ← hadded, position_performAll w h, hend,
    List.getElem?_append_right (Nat.le_refl _), Nat.sub_self, List.head?_eq_getElem?]

/-! ## 3. The rows that a cursor stands on -/

/-- The rows that a cursor is found on before, between and behind some operations. -/
def sightings (w : Workspace n m) (c : Fin m) : List (Operation n m) → List Row
  | [] => (w.row? c).toList
  | op :: ops => (w.row? c).toList ++ (w.perform op).sightings c ops

/-- The rows that a cursor stands on in the course of some operations, each of them told once for
as long as the cursor stays on it. -/
def stops (w : Workspace n m) (c : Fin m) (ops : List (Operation n m)) : List Row :=
  (w.sightings c ops).destutter (· ≠ ·)

/-- The first row that is seen is the one that the cursor stands on. -/
theorem exists_sightings (w : Workspace n m) {c : Fin m} {row : Row} (h : w.row? c = some row)
    (ops : List (Operation n m)) : ∃ rows, w.sightings c ops = row :: rows := by
  rcases ops with _ | ⟨op, ops⟩
  · rw [sightings, h]
    exact ⟨_, rfl⟩
  · rw [sightings, h]
    exact ⟨_, rfl⟩

/-- A row that a cursor has stood on is found at its place later on. -/
theorem Onward.row?_eq {c : Fin m} {w v : Workspace n m} (h : Onward c w v) {row : Row}
    (hrow : w.row? c = some row) : (v.tableUnder c).rows[(w.cursor c).position]? = some row := by
  rw [row?, ← Table.getElem?_rows] at hrow
  obtain ⟨added, hadded⟩ := h.rows_kept
  obtain ⟨hlt, -⟩ := List.getElem?_eq_some_iff.1 hrow
  rw [← hadded, List.getElem?_append_left hlt]
  exact hrow

/-- What stands in front of a stretch of different rows is told in front of it. -/
theorem destutter_cons_of_drop {rows told : List Row} {row : Row} {p : Nat} (hrows : rows.Nodup)
    (hrow : rows[p]? = some row) (htold : told.destutter (· ≠ ·) = rows.drop (p + 1)) :
    (row :: told).destutter (· ≠ ·) = rows.drop p := by
  obtain ⟨hlt, rfl⟩ := List.getElem?_eq_some_iff.1 hrow
  have hdrop := List.drop_eq_getElem_cons hlt
  rw [hdrop, ← htold]
  rcases told with _ | ⟨x, told⟩
  · rfl
  · -- The next row that is told is one of those behind, so it is not this one.
    have hnodup : (rows[p] :: rows.drop (p + 1)).Nodup := by
      rw [← hdrop]
      exact hrows.sublist (List.drop_sublist _ _)
    have hx : x ∈ rows.drop (p + 1) := by
      rw [← htold]
      exact List.mem_destutter' _ _ _
    have hne : rows[p] ≠ x := by
      intro he
      rw [he] at hnodup
      exact (List.nodup_cons.1 hnodup).1 hx
    rw [List.destutter_cons_cons, if_pos hne]
    rfl

/-- **A cursor goes through the rows one after the other**, from the one it stands on up to the
one it comes to, however the table grows meanwhile. The induction is on the operations: where the
cursor stays, the row that was told is told again, and where it moves, the next row of the table
is told, which is another one because no row of a table comes twice. -/
theorem stops_eq (w : Workspace n m) {c : Fin m} {ops : List (Operation n m)}
    (h : ∀ op ∈ ops, op ≠ .reset c) :
    w.stops c ops = (((w.performAll ops).tableUnder c).rows.take
      (((w.performAll ops).cursor c).position + 1)).drop (w.cursor c).position := by
  unfold stops
  induction ops generalizing w with
  | nil =>
    change (w.row? c).toList.destutter (· ≠ ·) =
      ((w.tableUnder c).rows.take ((w.cursor c).position + 1)).drop (w.cursor c).position
    have hone : (w.tableUnder c).rows[(w.cursor c).position]? = w.row? c := Table.getElem?_rows _ _
    -- One row is told, or none behind the last.
    rw [List.drop_take, Nat.add_sub_cancel_left, List.take_one, List.head?_drop, hone]
    rcases w.row? c with _ | row
    · rfl
    · rfl
  | cons op ops ih =>
    obtain ⟨hop, hops⟩ := List.forall_mem_cons.1 h
    have hstep := onward_perform w hop
    have hrest := onward_performAll (w.perform op) hops
    have hih := ih (w.perform op) hops
    change (w.sightings c (op :: ops)).destutter (· ≠ ·) =
      ((((w.perform op).performAll ops).tableUnder c).rows.take
        ((((w.perform op).performAll ops).cursor c).position + 1)).drop _
    rw [sightings]
    rcases hrow : w.row? c with _ | row
    · -- The cursor is behind the last row and stays there.
      have hstay : ((w.perform op).cursor c).position = (w.cursor c).position := by
        rcases position_perform w op c with hstay | ⟨-, hmove, -⟩ | ⟨hback, -⟩
        · exact hstay
        · rw [← row?_isSome, hrow] at hmove
          cases hmove
        · exact absurd hback hop
      rw [Option.toList_none, List.nil_append, hih, hstay]
    · rw [Option.toList_some, List.singleton_append]
      have hat := (hstep.trans hrest).row?_eq hrow
      rcases position_perform w op c with hstay | ⟨-, -, hmove⟩ | ⟨hback, -⟩
      · -- What is told next is the same row again.
        have hsame : (w.perform op).row? c = some row := by
          rw [row?, ← Table.getElem?_rows, hstay]
          exact hstep.row?_eq hrow
        obtain ⟨rows, hrows⟩ := exists_sightings _ hsame ops
        rw [hstay] at hih
        rw [hrows] at hih ⊢
        rw [List.destutter_cons_cons, if_neg fun hne => hne rfl]
        exact hih
      -- The cursor has moved on, and rows are told apart because a table holds each once.
      · have hle := hrest.position_le
        rw [hmove] at hle hih
        refine destutter_cons_of_drop ((Table.rows_nodup _).sublist (List.take_sublist _ _)) ?_ hih
        rw [List.getElem?_take_of_lt (by omega)]
        exact hat
      · exact absurd hback hop

/-! ## 4. Cursors -/

/-- **A cursor stays valid while its table grows.** Whatever is done to the tables and cursors of
a workspace, in whatever order, each cursor is at a position up to the end of its table. It has a
row where the position is before the end, and asking it for a value fails for want of a row just
where it has none. What one cursor does is felt by no table and by no other cursor, and adding a
row moves no cursor. A cursor that has run out of rows is not moved on, so that of the rows that
come later it stands on the first. And as long as a cursor is not put back, the rows it stands on
are those of its table from the one at its position on, one after the other. -/
theorem cursors_stay_valid {w : Workspace n m} (hw : w.InBounds) (ops : List (Operation n m)) :
    let v := w.performAll ops
    (∀ c, (v.cursor c).position ≤ (v.tableUnder c).size ∧
      (v.hasRow c = true ↔ (v.cursor c).position < (v.tableUnder c).size) ∧
      ∀ k, v.value c k = .error (.pastLastRow (v.tableUnder c).name) ↔ v.hasRow c = false) ∧
    (∀ op c, op.cursor? = some c → (∀ t, (v.perform op).table t = v.table t) ∧
      ∀ d, d ≠ c → (v.perform op).cursor d = v.cursor d) ∧
    (∀ t row c, (v.perform (.add t row)).cursor c = v.cursor c) ∧
    (∀ c, v.hasRow c = false → v.perform (.advance c) = v ∧
      ∀ later, (∀ op ∈ later, op ≠ .advance c ∧ op ≠ .reset c) →
        ∃ added, ((v.performAll later).tableUnder c).rows = (v.tableUnder c).rows ++ added ∧
          (v.performAll later).row? c = added.head?) ∧
    ∀ c later, (∀ op ∈ later, op ≠ .reset c) →
      v.stops c later = (((v.performAll later).tableUnder c).rows.take
        (((v.performAll later).cursor c).position + 1)).drop (v.cursor c).position := by
  intro v
  have hv : v.InBounds := hw.performAll ops
  refine ⟨fun c => ⟨hv c, hasRow_iff, fun k => value_eq_pastLastRow_iff⟩,
    fun op c hop => perform_frame v hop, fun t row c => cursor_addRow v t row c,
    fun c hrow => ⟨?_, fun later hlater => row?_of_exhausted hv hrow hlater⟩,
    fun c later hlater => stops_eq v hlater⟩
  rw [perform, advance, hrow]
  rfl

/-- Two cursors over one table of two rows. The first one runs out of rows and is moved on in
vain; then a row is added, and it stands on that one, while the second one goes through all
three. -/
theorem cursors_stay_valid_two :
    let w := (ofTables [Session.pairTable]).addCursor 0
    let v := w.performAll [.advance 0, .advance 0, .advance 0]
    let later : List (Operation 1 2) := [.advance 1, .add 0 ["z"], .value 1 0, .advance 1]
    w.InBounds ∧ v.hasRow 0 = false ∧ (v.performAll later).row? 0 = some ["z"] ∧
      v.stops 1 later = [["x"], ["y"], ["z"]] := by
  intro w v later
  have hw : w.InBounds := (inBounds_ofTables _).addCursor 0
  have hrow : v.hasRow 0 = false := by decide +kernel
  obtain ⟨-, -, -, hexhausted, hstops⟩ :=
    cursors_stay_valid hw [.advance 0, .advance 0, .advance 0]
  obtain ⟨added, hadded, hfirst⟩ := (hexhausted 0 hrow).2 later (by decide)
  have hrows : ((v.performAll later).tableUnder 0).rows = (v.tableUnder 0).rows ++ [["z"]] := by
    decide +kernel
  obtain rfl : added = [["z"]] := List.append_cancel_left (hadded.symm.trans hrows)
  refine ⟨hw, hrow, hfirst, (hstops 1 later (by decide)).trans ?_⟩
  decide +kernel

end Workspace

end FlatQuery
