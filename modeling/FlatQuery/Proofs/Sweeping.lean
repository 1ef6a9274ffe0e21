import FlatQuery.Query.Sweep
import Mathlib.Algebra.Order.BigOperators.Group.List
import Mathlib.Tactic.Ring

/-!
# A sweep is a nested loop

A sweep is run as a machine that takes one turn after the other and is given a number of
turns that is large enough. Where the cursors it moves are over other tables than the one
that gains rows, none of this shows: the machine visits the combinations of rows one after
the other, those of the second cursor for each row of the first, and a visit that fails
ends it. `visitAll` is that loop, over a list of combinations that is known beforehand
(`visits`), and `select_eq` says that a selection is this loop and puts its cursors back to
their first rows; where they are there to begin with, these are all combinations
(`select_one`, `select_two`).

Why the list is known beforehand is the invariant `Grows`: during a sweep nothing changes
but the target's contents and the places of the cursors that are swept. The tables under
these therefore keep their sizes, and the number of turns comes out as one for each
combination and one for each row of the first cursor, which `turnBound` exceeds.
-/

set_option autoImplicit false

namespace FlatQuery

/-! ## 1. Places and tables of a workspace -/

namespace Workspace

variable {n m : Nat}

/-- The cursor that is moved is at its new position, over the table that it was over. -/
theorem cursor_moveTo_self (w : Workspace n m) (c : Fin m) (p : Nat) :
    (w.moveTo c p).cursor c = { w.cursor c with position := p } := by
  simp [moveTo, cursor]

/-- The other cursors stay where they are. -/
theorem cursor_moveTo_of_ne (w : Workspace n m) {c d : Fin m} (h : d ≠ c) (p : Nat) :
    (w.moveTo c p).cursor d = w.cursor d := by
  simp only [moveTo, cursor, Fin.getElem_fin]
  rw [Vector.getElem_set_ne]
  exact fun he => h (Fin.ext he.symm)

theorem cursor_table_moveTo (w : Workspace n m) (c d : Fin m) (p : Nat) :
    ((w.moveTo c p).cursor d).table = (w.cursor d).table := by
  by_cases h : d = c
  · rw [h, cursor_moveTo_self]
  · rw [cursor_moveTo_of_ne w h]

/-- Moving a cursor leaves all tables as they are. -/
theorem tableUnder_moveTo (w : Workspace n m) (c d : Fin m) (p : Nat) :
    (w.moveTo c p).tableUnder d = w.tableUnder d := by
  rw [tableUnder, cursor_table_moveTo]
  rfl

/-- Moving a cursor to where it stands changes nothing. -/
theorem moveTo_of_eq {w : Workspace n m} {c : Fin m} {p : Nat}
    (h : (w.cursor c).position = p) : w.moveTo c p = w := by
  subst h
  have hself : ({ w.cursor c with position := (w.cursor c).position } : Cursor n) =
      w.cursors[c] := rfl
  rw [moveTo, hself]
  simp

/-- Only the last of two moves counts. -/
theorem moveTo_moveTo (w : Workspace n m) (c : Fin m) (p q : Nat) :
    (w.moveTo c p).moveTo c q = w.moveTo c q := by
  rw [moveTo, cursor_moveTo_self]
  simp [moveTo]

/-- Moves of different cursors do not depend on their order. -/
theorem moveTo_comm (w : Workspace n m) {c d : Fin m} (h : c ≠ d) (p q : Nat) :
    (w.moveTo c p).moveTo d q = (w.moveTo d q).moveTo c p := by
  have hd := cursor_moveTo_of_ne w h.symm p
  have hc := cursor_moveTo_of_ne w h q
  have hne : c.val ≠ d.val := fun he => h (Fin.ext he)
  simp only [moveTo, Workspace.mk.injEq, true_and] at hd hc ⊢
  rw [hd, hc]
  exact Vector.set_comm _ _ hne

theorem table_setTable_self (w : Workspace n m) (t : Fin n) (u : Table) :
    (w.setTable t u).table t = u := by
  simp [setTable, table]

theorem table_setTable_of_ne (w : Workspace n m) {t t' : Fin n} (h : t' ≠ t) (u : Table) :
    (w.setTable t u).table t' = w.table t' := by
  simp only [setTable, table, Fin.getElem_fin]
  rw [Vector.getElem_set_ne]
  exact fun he => h (Fin.ext he.symm)

/-- A cursor stands on a row exactly if its position is one of its table's. -/
theorem hasRow_iff {w : Workspace n m} {c : Fin m} :
    w.hasRow c = true ↔ (w.cursor c).position < (w.tableUnder c).size := by
  rw [hasRow, decide_eq_true_eq]

end Workspace

/-! ## 2. Visits -/

namespace Selection

variable {n m : Nat}

/-- What a visit comes to: nothing where there is no candidate, and otherwise what adding
the candidate to the target comes to. -/
theorem visit_eq (s : Selection n m) (w : Workspace n m) :
    s.visit w =
      match s.candidate w with
      | .error e => (w, some e)
      | .ok none => (w, none)
      | .ok (some row) =>
        match (w.table s.target).add row with
        | .error e => (w, some e)
        | .ok (u, _) => (w.setTable s.target u, none) := by
  unfold visit
  rcases s.candidate w with e | _ | row
  · rfl
  · rfl
  · dsimp only
    rw [Workspace.addRow_eq]
    rcases (w.table s.target).add row with e | ⟨u, b⟩
    · rfl
    · rfl

/-- Whether a workspace may come of another one during a sweep: only the target and the
places of cursors differ. -/
structure Grows (s : Selection n m) (w w' : Workspace n m) : Prop where
  table_eq : ∀ t, t ≠ s.target → w'.table t = w.table t
  cursor_table : ∀ c, (w'.cursor c).table = (w.cursor c).table

theorem Grows.refl (s : Selection n m) (w : Workspace n m) : s.Grows w w :=
  ⟨fun _ _ => rfl, fun _ => rfl⟩

/-- What grows and grows again has grown. -/
theorem Grows.trans {s : Selection n m} {w w' w'' : Workspace n m} (h : s.Grows w w')
    (h' : s.Grows w' w'') : s.Grows w w'' :=
  ⟨fun t ht => (h'.table_eq t ht).trans (h.table_eq t ht),
    fun c => (h'.cursor_table c).trans (h.cursor_table c)⟩

/-- The table under a cursor is as it was, unless it is the target. -/
theorem Grows.tableUnder {s : Selection n m} {w w' : Workspace n m} (h : s.Grows w w')
    {c : Fin m} (hc : (w.cursor c).table ≠ s.target) : w'.tableUnder c = w.tableUnder c := by
  rw [Workspace.tableUnder, h.cursor_table, h.table_eq _ hc]
  rfl

/-- A visit moves no cursor. -/
theorem cursor_visit (s : Selection n m) (w : Workspace n m) (c : Fin m) :
    (s.visit w).1.cursor c = w.cursor c := by
  rw [visit_eq]
  split
  · rfl
  · rfl
  · split
    · rfl
    · rfl

/-- A visit makes the target grow, or leaves it. -/
theorem grows_visit (s : Selection n m) (w : Workspace n m) : s.Grows w (s.visit w).1 := by
  refine ⟨fun t ht => ?_, fun c => by rw [cursor_visit]⟩
  rw [visit_eq]
  split
  · rfl
  · rfl
  · split
    · rfl
    · exact Workspace.table_setTable_of_ne w ht _

/-! ## 3. The loop -/

/-- The workspace with the cursors that are swept at a combination of rows. -/
def standAt (s : Selection n m) (w : Workspace n m) (p : Nat × Nat) : Workspace n m :=
  match s.inner? with
  | none => w.moveTo s.outer p.1
  | some inner => (w.moveTo s.outer p.1).moveTo inner p.2

/-- Visits combinations one after the other, up to the first visit that fails. -/
def visitAll (s : Selection n m) (w : Workspace n m) :
    List (Nat × Nat) → Workspace n m × Option Error
  | [] => (w, none)
  | p :: ps =>
    match s.visit (s.standAt w p) with
    | (w', none) => s.visitAll w' ps
    | (w', some e) => (w', some e)

/-- Visits are made one part after the other, and an error in the first part is the end. -/
theorem visitAll_append (s : Selection n m) (w : Workspace n m) (ps qs : List (Nat × Nat)) :
    s.visitAll w (ps ++ qs) =
      match s.visitAll w ps with
      | (w', none) => s.visitAll w' qs
      | (w', some e) => (w', some e) := by
  induction ps generalizing w with
  | nil => rfl
  | cons p ps ih =>
    rw [List.cons_append, visitAll, visitAll]
    rcases s.visit (s.standAt w p) with ⟨w', _ | e⟩
    · exact ih w'
    · rfl

/-- Moving the cursors changes no table. -/
theorem grows_standAt (s : Selection n m) (w : Workspace n m) (p : Nat × Nat) :
    s.Grows w (s.standAt w p) := by
  unfold standAt
  split
  · exact ⟨fun _ _ => rfl, fun c => Workspace.cursor_table_moveTo w _ c _⟩
  · exact ⟨fun _ _ => rfl, fun c => (Workspace.cursor_table_moveTo _ _ c _).trans
      (Workspace.cursor_table_moveTo w _ c _)⟩

/-- Many visits do what each of them does. -/
theorem grows_visitAll (s : Selection n m) (w : Workspace n m) (ps : List (Nat × Nat)) :
    s.Grows w (s.visitAll w ps).1 := by
  induction ps generalizing w with
  | nil => exact Grows.refl s w
  | cons p ps ih =>
    have hv := (grows_standAt s w p).trans (grows_visit s (s.standAt w p))
    unfold visitAll
    rcases hr : s.visit (s.standAt w p) with ⟨w', _ | e⟩ <;> rw [hr] at hv
    · exact hv.trans (ih w')
    · exact hv

/-- What is left of a sweep's end once its cursors are back on their first rows. -/
def homed (s : Selection n m) (r : Workspace n m × Option Error) :
    Workspace n m × Option Error :=
  (s.standAt r.1 (0, 0), r.2)

/-! ## 4. The machine -/

/-- Whether the cursors that are swept are two, if there is a second one, and neither is
over the target. -/
structure Apart (s : Selection n m) (w : Workspace n m) : Prop where
  outer_table : (w.cursor s.outer).table ≠ s.target
  inner_table : ∀ d, s.inner? = some d → (w.cursor d).table ≠ s.target
  distinct : ∀ d, s.inner? = some d → s.outer ≠ d

/-- Cursors that are apart from the target stay so. -/
theorem Apart.of_grows {s : Selection n m} {w w' : Workspace n m} (h : s.Apart w)
    (hg : s.Grows w w') : s.Apart w' := by
  refine ⟨?_, fun d hd => ?_, h.distinct⟩
  · rw [hg.cursor_table]
    exact h.outer_table
  · rw [hg.cursor_table]
    exact h.inner_table d hd

/-- Where the cursors are put does not depend on where they stood. -/
theorem standAt_standAt {s : Selection n m} {w : Workspace n m} (h : s.Apart w)
    (p q : Nat × Nat) : s.standAt (s.standAt w p) q = s.standAt w q := by
  rcases hi : s.inner? with _ | d
  · simp only [standAt, hi, Workspace.moveTo_moveTo]
  · simp only [standAt, hi]
    rw [Workspace.moveTo_comm _ (h.distinct d hi).symm, Workspace.moveTo_moveTo,
      Workspace.moveTo_moveTo]

/-- A step of a cursor behind a visit, where the cursor stands on a row. -/
theorem visitAndAdvance_eq (s : Selection n m) {w : Workspace n m} {c : Fin m}
    (hc : (w.cursor c).table ≠ s.target) (hrow : w.hasRow c = true) :
    s.visitAndAdvance w c =
      match s.visit w with
      | (w', none) => .moved (w'.moveTo c ((w.cursor c).position + 1))
      | (w', some e) => .failed w' e := by
  have hcursor := cursor_visit s w c
  have hunder := (grows_visit s w).tableUnder hc
  unfold visitAndAdvance
  rcases hv : s.visit w with ⟨w', _ | e⟩ <;> rw [hv] at hcursor hunder
  · have hrow' : w'.hasRow c = true := by
      rw [Workspace.hasRow_iff] at hrow ⊢
      rw [hcursor, hunder]
      exact hrow
    dsimp only
    rw [Workspace.advance, if_pos hrow', hcursor]

/-- A turn with one cursor. -/
theorem turn_one {s : Selection n m} {w : Workspace n m} (h : s.Apart w)
    (hi : s.inner? = none) (i : Nat) :
    s.turn (s.standAt w (i, 0)) =
      if i < (w.tableUnder s.outer).size then
        match s.visit (s.standAt w (i, 0)) with
        | (w', none) => .moved (s.standAt w' (i + 1, 0))
        | (w', some e) => .failed w' e
      else .finished (s.standAt w (i, 0)) := by
  have hstand : ∀ v p, s.standAt v p = v.moveTo s.outer p.1 := by
    intro v p
    simp only [standAt, hi]
  have hpos : ((s.standAt w (i, 0)).cursor s.outer).position = i := by
    rw [hstand, Workspace.cursor_moveTo_self]
  have hunder := (grows_standAt s w (i, 0)).tableUnder h.outer_table
  have hapart := h.of_grows (grows_standAt s w (i, 0))
  have hrow : (s.standAt w (i, 0)).hasRow s.outer = true ↔ i < (w.tableUnder s.outer).size := by
    rw [Workspace.hasRow_iff, hpos, hunder]
  rw [turn, hi]
  by_cases hlt : i < (w.tableUnder s.outer).size
  · rw [if_pos hlt, if_pos (hrow.2 hlt)]
    dsimp only
    rw [visitAndAdvance_eq s hapart.outer_table (hrow.2 hlt), hpos]
    rcases s.visit (s.standAt w (i, 0)) with ⟨w', _ | e⟩
    · dsimp only
      rw [hstand]
    · rfl
  · rw [if_neg hlt, if_neg fun hr => hlt (hrow.1 hr)]

/-- A turn with two cursors. Behind a full sweep of the second the first one moves on. -/
theorem turn_two {s : Selection n m} {w : Workspace n m} (h : s.Apart w) {d : Fin m}
    (hi : s.inner? = some d) (i j : Nat) :
    s.turn (s.standAt w (i, j)) =
      if i < (w.tableUnder s.outer).size then
        if j < (w.tableUnder d).size then
          match s.visit (s.standAt w (i, j)) with
          | (w', none) => .moved (s.standAt w' (i, j + 1))
          | (w', some e) => .failed w' e
        else .moved (s.standAt w (i + 1, 0))
      else .finished (s.standAt w (i, j)) := by
  have hne : s.outer ≠ d := h.distinct d hi
  have hstand : ∀ v p, s.standAt v p = (v.moveTo s.outer p.1).moveTo d p.2 := by
    intro v p
    simp only [standAt, hi]
  have hposd : ((s.standAt w (i, j)).cursor d).position = j := by
    rw [hstand, Workspace.cursor_moveTo_self]
  have hposc : ((s.standAt w (i, j)).cursor s.outer).position = i := by
    rw [hstand, Workspace.cursor_moveTo_of_ne _ hne, Workspace.cursor_moveTo_self]
  have hunderc := (grows_standAt s w (i, j)).tableUnder h.outer_table
  have hunderd := (grows_standAt s w (i, j)).tableUnder (h.inner_table d hi)
  have hapart := h.of_grows (grows_standAt s w (i, j))
  have hrowc : (s.standAt w (i, j)).hasRow s.outer = true ↔
      i < (w.tableUnder s.outer).size := by
    rw [Workspace.hasRow_iff, hposc, hunderc]
  have hrowd : (s.standAt w (i, j)).hasRow d = true ↔ j < (w.tableUnder d).size := by
    rw [Workspace.hasRow_iff, hposd, hunderd]
  rw [turn, hi]
  by_cases hltc : i < (w.tableUnder s.outer).size
  · rw [if_pos hltc, if_pos (hrowc.2 hltc)]
    dsimp only
    by_cases hltd : j < (w.tableUnder d).size
    · rw [if_pos hltd, if_pos (hrowd.2 hltd),
        visitAndAdvance_eq s (hapart.inner_table d hi) (hrowd.2 hltd), hposd]
      have hcursor := cursor_visit s (s.standAt w (i, j)) s.outer
      rcases hv : s.visit (s.standAt w (i, j)) with ⟨w', _ | e⟩ <;> rw [hv] at hcursor
      · have hstay : w'.moveTo s.outer i = w' := by
          rw [Workspace.moveTo_of_eq]
          rw [hcursor, hposc]
        dsimp only
        rw [hstand, hstay]
    -- The second cursor is put back before the first one moves.
    · rw [if_neg hltd, if_neg fun hr => hltd (hrowd.1 hr)]
      have hreset : (s.standAt w (i, j)).reset d = s.standAt w (i, 0) := by
        rw [Workspace.reset, hstand, Workspace.moveTo_moveTo, hstand]
      have hposc' : ((s.standAt w (i, 0)).cursor s.outer).position = i := by
        rw [hstand, Workspace.cursor_moveTo_of_ne _ hne, Workspace.cursor_moveTo_self]
      have hrow : (s.standAt w (i, 0)).hasRow s.outer = true := by
        rw [Workspace.hasRow_iff, hposc',
          (grows_standAt s w (i, 0)).tableUnder h.outer_table]
        exact hltc
      rw [hreset, Workspace.advance, if_pos hrow, hposc', hstand, hstand,
        Workspace.moveTo_comm _ hne.symm, Workspace.moveTo_moveTo]
  · rw [if_neg hltc, if_neg fun hr => hltc (hrowc.1 hr)]

/-! ## 5. Enough turns -/

/-- Where the first cursor is past its last row a sweep is over. -/
theorem run_past {s : Selection n m} {w : Workspace n m} (h : s.Apart w) {i j : Nat}
    (hi : (w.tableUnder s.outer).size ≤ i) (k : Nat) :
    s.homed (s.run (k + 1) (s.standAt w (i, j))) = s.homed (w, none) := by
  have hturn : s.turn (s.standAt w (i, j)) = .finished (s.standAt w (i, j)) := by
    rcases hinner : s.inner? with _ | d
    · have hsame : s.standAt w (i, j) = s.standAt w (i, 0) := by
        simp only [standAt, hinner]
      rw [hsame, turn_one h hinner, if_neg (Nat.not_lt.2 hi)]
    · rw [turn_two h hinner, if_neg (Nat.not_lt.2 hi)]
  rw [run, hturn]
  exact Prod.ext (standAt_standAt h _ _) rfl

/-- A row of the loop: the combinations from a place on, one turn for each. What a turn
does at a place of the row is given. -/
theorem run_row {s : Selection n m} {w₀ : Workspace n m} {f : Nat → Nat × Nat} (k : Nat)
    {w : Workspace n m} (hw : s.Grows w₀ w) {p r : Nat}
    (hturn : ∀ w, s.Grows w₀ w → ∀ q, p ≤ q → q < p + r → s.turn (s.standAt w (f q)) =
      match s.visit (s.standAt w (f q)) with
      | (w', none) => .moved (s.standAt w' (f (q + 1)))
      | (w', some e) => .failed w' e) :
    s.run (r + k) (s.standAt w (f p)) =
      match s.visitAll w ((List.range' p r).map f) with
      | (w', none) => s.run k (s.standAt w' (f (p + r)))
      | (w', some e) => (w', some e) := by
  induction r generalizing w p with
  | zero => rw [Nat.zero_add, Nat.add_zero, List.range'_zero, List.map_nil, visitAll]
  | succ r ih =>
    have hgrows := hw.trans ((grows_standAt s w (f p)).trans (grows_visit s _))
    rw [show r + 1 + k = r + k + 1 by omega, run, hturn w hw p (Nat.le_refl p) (by omega),
      List.range'_succ, List.map_cons, visitAll]
    rcases hv : s.visit (s.standAt w (f p)) with ⟨w', _ | e⟩ <;> rw [hv] at hgrows
    · have hbehind : ∀ v, s.Grows w₀ v → ∀ q, p + 1 ≤ q → q < p + 1 + r →
          s.turn (s.standAt v (f q)) =
            match s.visit (s.standAt v (f q)) with
            | (w', none) => .moved (s.standAt w' (f (q + 1)))
            | (w', some e) => .failed w' e :=
        fun v hv q hq hlt => hturn v hv q (by omega) (by omega)
      have hrest := ih hgrows hbehind
      rw [show p + 1 + r = p + (r + 1) by omega] at hrest
      exact hrest

/-- The places of the combinations of two cursors in so many rows of the first one. -/
def grid (first count width : Nat) : List (Nat × Nat) :=
  (List.range' first count).flatMap fun i => (List.range' 0 width).map fun j => (i, j)

/-- The combinations of a grid are those of a row number and a column number within it. -/
theorem mem_grid {count width : Nat} {p : Nat × Nat} (h : p ∈ grid 0 count width) :
    ∃ i j, i < count ∧ j < width ∧ p = (i, j) := by
  obtain ⟨i, hi, hp⟩ := List.mem_flatMap.1 h
  obtain ⟨j, hj, rfl⟩ := List.mem_map.1 hp
  rw [List.mem_range'_1, Nat.zero_add] at hi hj
  exact ⟨i, j, hi.2, hj.2, rfl⟩

/-- With one cursor the turns visit its rows from where it stands, and then find it behind its last
row. -/
theorem run_one {s : Selection n m} {w : Workspace n m} (h : s.Apart w)
    (hinner : s.inner? = none) (i k : Nat) :
    s.homed (s.run ((w.tableUnder s.outer).size - i + (k + 1)) (s.standAt w (i, 0))) =
      s.homed (s.visitAll w
        ((List.range' i ((w.tableUnder s.outer).size - i)).map fun i => (i, 0))) := by
  have hturn : ∀ v, s.Grows w v → ∀ q, i ≤ q → q < i + ((w.tableUnder s.outer).size - i) →
      s.turn (s.standAt v (q, 0)) =
        match s.visit (s.standAt v (q, 0)) with
        | (w', none) => .moved (s.standAt w' (q + 1, 0))
        | (w', some e) => .failed w' e := by
    intro v hv q hle hlt
    rw [turn_one (h.of_grows hv) hinner, hv.tableUnder h.outer_table, if_pos (by omega)]
  rw [run_row (f := fun i => (i, 0)) (k + 1) (Grows.refl s w) hturn]
  have hgrows := grows_visitAll s w
    ((List.range' i ((w.tableUnder s.outer).size - i)).map fun i => (i, 0))
  rcases hv : s.visitAll w _ with ⟨w', _ | e⟩ <;> rw [hv] at hgrows
  · refine run_past (h.of_grows hgrows) ?_ k
    rw [hgrows.tableUnder h.outer_table]
    omega

section Two

variable {s : Selection n m} {w₀ : Workspace n m} (h : s.Apart w₀) {d : Fin m}
  (hinner : s.inner? = some d)
include h hinner

/-- With two cursors, what is left of a row of the first one, and the turn to the next row. -/
theorem run_rest (k : Nat) {w : Workspace n m} (hw : s.Grows w₀ w) {i : Nat}
    (hi : i < (w₀.tableUnder s.outer).size) (j : Nat) :
    s.run ((w₀.tableUnder d).size - j + (k + 1)) (s.standAt w (i, j)) =
      match s.visitAll w ((List.range' j ((w₀.tableUnder d).size - j)).map fun j => (i, j)) with
      | (w', none) => s.run k (s.standAt w' (i + 1, 0))
      | (w', some e) => (w', some e) := by
  have hsize : ∀ v, s.Grows w₀ v → v.tableUnder s.outer = w₀.tableUnder s.outer ∧
      v.tableUnder d = w₀.tableUnder d := fun v hv =>
    ⟨hv.tableUnder h.outer_table, hv.tableUnder (h.inner_table d hinner)⟩
  have hturn : ∀ v, s.Grows w₀ v → ∀ q, j ≤ q → q < j + ((w₀.tableUnder d).size - j) →
      s.turn (s.standAt v (i, q)) =
        match s.visit (s.standAt v (i, q)) with
        | (w', none) => .moved (s.standAt w' (i, q + 1))
        | (w', some e) => .failed w' e := by
    intro v hv q hle hlt
    rw [turn_two (h.of_grows hv) hinner, (hsize v hv).1, (hsize v hv).2, if_pos hi,
      if_pos (by omega)]
  rw [run_row (f := fun j => (i, j)) (k + 1) hw hturn]
  have hgrows := hw.trans (grows_visitAll s w
    ((List.range' j ((w₀.tableUnder d).size - j)).map fun j => (i, j)))
  rcases hv : s.visitAll w ((List.range' j ((w₀.tableUnder d).size - j)).map fun j => (i, j)) with
    ⟨w', _ | e⟩ <;> rw [hv] at hgrows
  · dsimp only
    rw [run, turn_two (h.of_grows hgrows) hinner, (hsize w' hgrows).1, (hsize w' hgrows).2,
      if_pos hi, if_neg (by omega)]

/-- With two cursors the turns visit row after row of the grid. The induction is on the rows of the
first that are left. -/
theorem run_two (k : Nat) {w : Workspace n m} (hw : s.Grows w₀ w) (i : Nat) :
    s.homed (s.run (((w₀.tableUnder s.outer).size - i) * ((w₀.tableUnder d).size + 1) + (k + 1))
        (s.standAt w (i, 0))) =
      s.homed (s.visitAll w
        (grid i ((w₀.tableUnder s.outer).size - i) (w₀.tableUnder d).size)) := by
  induction hr : (w₀.tableUnder s.outer).size - i generalizing w i with
  | zero =>
    rw [Nat.zero_mul, Nat.zero_add]
    refine run_past (h.of_grows hw) ?_ k
    rw [hw.tableUnder h.outer_table]
    omega
  | succ r ih =>
    have hfuel : (r + 1) * ((w₀.tableUnder d).size + 1) + (k + 1) =
        (w₀.tableUnder d).size - 0 + (r * ((w₀.tableUnder d).size + 1) + (k + 1) + 1) := by
      rw [Nat.succ_mul]
      omega
    rw [hfuel, run_rest h hinner _ hw (by omega), Nat.sub_zero, grid, List.range'_succ,
      List.flatMap_cons, visitAll_append]
    have hgrows := hw.trans (grows_visitAll s w
      ((List.range' 0 (w₀.tableUnder d).size).map fun j => (i, j)))
    rcases hv : s.visitAll w ((List.range' 0 (w₀.tableUnder d).size).map fun j => (i, j)) with
      ⟨w', _ | e⟩ <;> rw [hv] at hgrows
    · exact ih hgrows (i + 1) (by omega)

end Two

theorem le_total {k : Nat} {ks : List Nat} (h : k ∈ ks) : k ≤ total ks :=
  List.single_le_sum (fun _ _ => Nat.zero_le _) _ h

/-- No table is longer than all of them together. -/
theorem size_le_total (w : Workspace n m) (c : Fin m) :
    (w.tableUnder c).size ≤ total (w.tables.toList.map Table.size) :=
  le_total (List.mem_map_of_mem (Vector.mem_toList_iff.2 (Vector.getElem_mem _)))

/-- The bound on the rows of a sweep allows for every table as it is. -/
theorem size_le_rowBound (s : Selection n m) (w : Workspace n m) (c : Fin m) :
    (w.tableUnder c).size ≤ s.rowBound w := by
  have hle := size_le_total w c
  unfold rowBound
  omega

/-- The combinations from where the cursors stand on. With two cursors the first row of the
first one is gone through from where the second one stands, the others from the beginning. -/
def visits (s : Selection n m) (w : Workspace n m) : List (Nat × Nat) :=
  let i := (w.cursor s.outer).position
  let rows := (w.tableUnder s.outer).size
  match s.inner? with
  | none => (List.range' i (rows - i)).map fun i => (i, 0)
  | some d =>
    let j := (w.cursor d).position
    let width := (w.tableUnder d).size
    if i < rows then
      ((List.range' j (width - j)).map fun j => (i, j)) ++ grid (i + 1) (rows - (i + 1)) width
    else []

/-- **A sweep is a loop over the combinations of rows** from where its cursors stand on. -/
theorem sweep_eq_visitAll {s : Selection n m} {w : Workspace n m} (h : s.Apart w) :
    s.homed (s.sweep w) = s.homed (s.visitAll w (s.visits w)) := by
  have hc := size_le_rowBound s w s.outer
  have hsq : s.turnBound w = s.rowBound w * s.rowBound w + 4 * s.rowBound w + 4 := by
    unfold turnBound
    ring
  unfold sweep visits
  generalize hi : (w.cursor s.outer).position = i
  rcases hinner : s.inner? with _ | d
  · have hstart : s.standAt w (i, 0) = w := by
      simp only [standAt, hinner, Workspace.moveTo_of_eq hi]
    -- There are turns enough to come behind the last row, and one to find that out.
    obtain ⟨k, hk⟩ : ∃ k, s.turnBound w = (w.tableUnder s.outer).size - i + (k + 1) :=
      ⟨s.turnBound w - ((w.tableUnder s.outer).size - i) - 1, by omega⟩
    have hrun := run_one h hinner i k
    rw [hstart, ← hk] at hrun
    exact hrun
  · dsimp only
    generalize hj : (w.cursor d).position = j
    have hstart : s.standAt w (i, j) = w := by
      simp only [standAt, hinner, Workspace.moveTo_of_eq hi, Workspace.moveTo_of_eq hj]
    by_cases hlt : i < (w.tableUnder s.outer).size
    -- What is left of the first row, and of the grid behind it, takes fewer turns than there are.
    · have hd := size_le_rowBound s w d
      have hmul : ((w.tableUnder s.outer).size - (i + 1)) * ((w.tableUnder d).size + 1) ≤
          s.rowBound w * (s.rowBound w + 1) :=
        Nat.mul_le_mul (by omega) (Nat.succ_le_succ hd)
      rw [Nat.mul_succ (s.rowBound w)] at hmul
      obtain ⟨k, hk⟩ : ∃ k, s.turnBound w = (w.tableUnder d).size - j +
          (((w.tableUnder s.outer).size - (i + 1)) * ((w.tableUnder d).size + 1) +
            (k + 1) + 1) :=
        ⟨s.turnBound w - ((w.tableUnder d).size - j) -
          ((w.tableUnder s.outer).size - (i + 1)) * ((w.tableUnder d).size + 1) - 2, by omega⟩
      have hrun := run_rest h hinner (((w.tableUnder s.outer).size - (i + 1)) *
        ((w.tableUnder d).size + 1) + (k + 1)) (Grows.refl s w) hlt j
      rw [hstart, ← hk] at hrun
      rw [if_pos hlt, hrun, visitAll_append]
      have hgrows := grows_visitAll s w
        ((List.range' j ((w.tableUnder d).size - j)).map fun j => (i, j))
      rcases hv : s.visitAll w ((List.range' j ((w.tableUnder d).size - j)).map fun j => (i, j))
        with ⟨w', _ | e⟩ <;> rw [hv] at hgrows
      · exact run_two h hinner k hgrows (i + 1)
    -- The first cursor is behind its last row from the beginning.
    · obtain ⟨k, hk⟩ : ∃ k, s.turnBound w = k + 1 := ⟨s.turnBound w - 1, by omega⟩
      have hrun := run_past h (j := j) (Nat.not_lt.1 hlt) k
      rw [hstart, ← hk] at hrun
      rw [if_neg hlt]
      exact hrun

/-- Cursors that are on their first rows visit all combinations. -/
theorem visits_of_home {s : Selection n m} {w : Workspace n m} (h : s.Apart w)
    (hw : s.standAt w (0, 0) = w) :
    s.visits w = match s.inner? with
      | none => (List.range' 0 (w.tableUnder s.outer).size).map fun i => (i, 0)
      | some d => grid 0 (w.tableUnder s.outer).size (w.tableUnder d).size := by
  unfold visits
  rcases hinner : s.inner? with _ | d
  · have hposition : (w.cursor s.outer).position = 0 := by
      rw [← hw]
      simp only [standAt, hinner, Workspace.cursor_moveTo_self]
    dsimp only
    rw [hposition, Nat.sub_zero]
  · have houter : (w.cursor s.outer).position = 0 := by
      rw [← hw]
      simp only [standAt, hinner]
      rw [Workspace.cursor_moveTo_of_ne _ (h.distinct d hinner), Workspace.cursor_moveTo_self]
    have hposition : (w.cursor d).position = 0 := by
      rw [← hw]
      simp only [standAt, hinner, Workspace.cursor_moveTo_self]
    dsimp only
    rw [houter, hposition, Nat.sub_zero]
    -- The rest of the first row is the whole of it, so that it belongs to the grid.
    rcases (w.tableUnder s.outer).size with _ | rows
    · rfl
    · have hgrid : grid 0 (rows + 1) (w.tableUnder d).size =
          ((List.range' 0 (w.tableUnder d).size).map fun j => (0, j)) ++
            grid 1 rows (w.tableUnder d).size := by
        rw [grid, List.range'_succ, List.flatMap_cons]
        rfl
      rw [if_pos (Nat.succ_pos rows), hgrid]
      rfl

end Selection

/-- A selection is a loop over the combinations from where its cursors stand on, and puts
them back to their first rows. -/
theorem Workspace.select_eq {n m : Nat} {w : Workspace n m} (s : Selection n m)
    (h : s.Apart w) :
    w.select s.target s.columns (s.outer :: s.inner?.toList) s.conditions =
      s.homed (s.visitAll w (s.visits w)) := by
  rw [← Selection.sweep_eq_visitAll h]
  obtain ⟨target, columns, conditions, outer, inner?⟩ := s
  rcases inner? with _ | d
  · rfl
  · rfl

/-- A selection with one cursor on its first row is a loop over the rows under it. -/
theorem Workspace.select_one {n m : Nat} {w : Workspace n m} {target : Fin n}
    {columns : List (BoundColumn m)} {c : Fin m} {conditions : List (Condition m)}
    (h : Selection.Apart ⟨target, columns, conditions, c, none⟩ w)
    (hw : Selection.standAt ⟨target, columns, conditions, c, none⟩ w (0, 0) = w) :
    w.select target columns [c] conditions =
      Selection.homed ⟨target, columns, conditions, c, none⟩
        (Selection.visitAll ⟨target, columns, conditions, c, none⟩ w
          ((List.range' 0 (w.tableUnder c).size).map fun i => (i, 0))) := by
  have hselect := select_eq _ h
  rw [Selection.visits_of_home h hw] at hselect
  exact hselect

/-- A selection with two cursors on their first rows is a loop over the rows under the
first and, for each of them, over the rows under the second. -/
theorem Workspace.select_two {n m : Nat} {w : Workspace n m} {target : Fin n}
    {columns : List (BoundColumn m)} {c d : Fin m} {conditions : List (Condition m)}
    (h : Selection.Apart ⟨target, columns, conditions, c, some d⟩ w)
    (hw : Selection.standAt ⟨target, columns, conditions, c, some d⟩ w (0, 0) = w) :
    w.select target columns [c, d] conditions =
      Selection.homed ⟨target, columns, conditions, c, some d⟩
        (Selection.visitAll ⟨target, columns, conditions, c, some d⟩ w
          (Selection.grid 0 (w.tableUnder c).size (w.tableUnder d).size)) := by
  have hselect := select_eq _ h
  rw [Selection.visits_of_home h hw] at hselect
  exact hselect

/-! ## 6. Sweeps that nothing stops -/

/-- To add a row behind others is to drop it if it is one of them. -/
theorem eraseDups_append_cons (rows : List Row) (r : Row) (rs : List Row) :
    ((if r ∈ rows then rows else rows ++ [r]) ++ rs).eraseDups =
      (rows ++ r :: rs).eraseDups := by
  by_cases hr : r ∈ rows
  · rw [if_pos hr, List.eraseDups_append, List.eraseDups_append, List.cons_removeAll,
      if_neg (by simpa using hr)]
  · rw [if_neg hr, List.append_assoc]
    rfl

/-- What differs is all kept. -/
theorem eraseDups_of_nodup {α : Type} [BEq α] [LawfulBEq α] {xs : List α} (h : xs.Nodup) :
    xs.eraseDups = xs := by
  induction xs with
  | nil => rfl
  | cons x xs ih =>
    rw [List.nodup_cons] at h
    have hfilter : xs.filter (fun y => !y == x) = xs := by
      refine List.filter_eq_self.2 fun y hy => ?_
      have hne : y ≠ x := fun he => h.1 (he ▸ hy)
      simpa using hne
    rw [List.eraseDups_cons, hfilter, ih h.2]

namespace Selection

variable {n m : Nat}

/-- What a visit does to the target where nothing fails. -/
theorem visit_collect {s : Selection n m} {w : Workspace n m} {row? : Option Row}
    (hcandidate : s.candidate w = .ok row?)
    (hwidth : ∀ r, row? = some r → r.length = (w.table s.target).titles.length) :
    ∃ w', s.visit w = (w', none) ∧
      (w'.table s.target).name = (w.table s.target).name ∧
      (w'.table s.target).titles = (w.table s.target).titles ∧
      ∀ rs, ((w'.table s.target).rows ++ rs).eraseDups =
        ((w.table s.target).rows ++ (row?.toList ++ rs)).eraseDups := by
  rw [visit_eq, hcandidate]
  rcases row? with _ | r
  · exact ⟨w, rfl, rfl, rfl, fun rs => rfl⟩
  · dsimp only
    rcases hadd : (w.table s.target).add r with e | ⟨u, b⟩
    · rw [Table.add, dif_pos (hwidth r rfl)] at hadd
      simp at hadd
    · refine ⟨_, rfl, ?_, ?_, fun rs => ?_⟩
      · rw [Workspace.table_setTable_self, Table.add_name hadd]
      · rw [Workspace.table_setTable_self, Table.add_titles hadd]
      · rw [Workspace.table_setTable_self, Table.add_rows hadd, eraseDups_append_cons]
        rfl

/-- Putting the cursors somewhere changes no table. -/
theorem table_standAt (s : Selection n m) (w : Workspace n m) (p : Nat × Nat) (t : Fin n) :
    (s.standAt w p).table t = w.table t := by
  unfold standAt
  split
  · rfl
  · rfl

/-- Where every visit has its candidate, the target gains the candidates in the order of
the visits, each of them once. -/
theorem visitAll_collect {s : Selection n m} {w₀ : Workspace n m} {f : Nat × Nat → Option Row}
    {ps : List (Nat × Nat)}
    (hcandidate : ∀ w, s.Grows w₀ w → ∀ p ∈ ps, s.candidate (s.standAt w p) = .ok (f p))
    (hwidth : ∀ p r, f p = some r → r.length = (w₀.table s.target).titles.length)
    {w : Workspace n m} (hw : s.Grows w₀ w)
    (htitles : (w.table s.target).titles = (w₀.table s.target).titles) :
    ∃ w', s.visitAll w ps = (w', none) ∧
      (w'.table s.target).name = (w.table s.target).name ∧
      (w'.table s.target).titles = (w₀.table s.target).titles ∧
      (w'.table s.target).rows = ((w.table s.target).rows ++ ps.filterMap f).eraseDups := by
  induction ps generalizing w with
  | nil =>
    refine ⟨w, rfl, rfl, htitles, ?_⟩
    rw [List.filterMap_nil, List.append_nil, eraseDups_of_nodup (Table.rows_nodup _)]
  | cons p ps ih =>
    -- Behind the visit the workspace has only grown, so the other candidates are as they were.
    have hcandidate' := fun v hv q hq => hcandidate v hv q (List.mem_cons_of_mem p hq)
    have hgrows := hw.trans ((grows_standAt s w p).trans (grows_visit s (s.standAt w p)))
    obtain ⟨v, hv, hname, hsame, hrows⟩ :=
      visit_collect (hcandidate w hw p (List.mem_cons_self ..)) fun r hr => by
        rw [table_standAt, htitles]
        exact hwidth p r hr
    rw [table_standAt] at hname hsame
    rw [hv] at hgrows
    obtain ⟨w', hall, hname', htitles', hrows'⟩ := ih hcandidate' hgrows (hsame.trans htitles)
    refine ⟨w', ?_, hname'.trans hname, htitles', ?_⟩
    · rw [visitAll, hv]
      exact hall
    · rw [hrows', hrows, table_standAt, List.filterMap_cons]
      rcases f p with _ | r
      · rfl
      · rfl

end Selection

end FlatQuery
