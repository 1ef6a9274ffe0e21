import FlatQuery.Proofs.Cursors
import FlatQuery.Proofs.Loops
import FlatQuery.Proofs.Visiting
import Mathlib.Data.Finset.NAry

/-!
# Selections that feed themselves

A selection may add rows to a table that it sweeps. Then the end that a cursor is on its way to
moves away from it, by one row with each row that is gained, and it has to be said why the cursor
arrives. The reason is that a selection makes no values. Whatever row it adds consists of values
that were in some table before, one for each column, so there are only so many rows that the
target can still gain (`Selection.missing`), and none of them is gained twice. The size of a
table together with what is missing is a height that no turn raises, and towards it every turn
takes the pair of positions onward: the faster cursor by one row, or, behind a full sweep of that
one, the other (`Selection.toGo_lt`).

A sweep with one cursor over the target goes on until the target is closed: each of its rows from
the starting position on was visited. What was found at a visit is still found at the end,
because what the cursors stood on then stands where it stood (`Workspace.Sees`); this is why the
end can be described without the order of the visits.
-/

set_option autoImplicit false

namespace FlatQuery

/-! ## 1. Rows made of values -/

/-- The rows of a length that can be made of some values. -/
def rowsOver (values : Finset String) : Nat → Finset Row
  | 0 => {[]}
  | k + 1 => Finset.image₂ List.cons values (rowsOver values k)

/-- A row is among those that can be made of its values. -/
theorem mem_rowsOver {values : Finset String} {row : Row} (h : ∀ x ∈ row, x ∈ values) :
    row ∈ rowsOver values row.length := by
  induction row with
  | nil => exact Finset.mem_singleton_self []
  | cons x row ih =>
    obtain ⟨hx, hrow⟩ := List.forall_mem_cons.1 h
    exact Finset.mem_image₂_of_mem hx (ih hrow)

/-- There are no more rows of a length than ways to choose each of its values. -/
theorem card_rowsOver_le (values : Finset String) (k : Nat) :
    (rowsOver values k).card ≤ values.card ^ k := by
  induction k with
  | zero => exact Nat.le_of_eq (Finset.card_singleton _)
  | succ k ih =>
    calc (rowsOver values (k + 1)).card
        ≤ values.card * (rowsOver values k).card := Finset.card_image₂_le _ _ _
      _ ≤ values.card * values.card ^ k := Nat.mul_le_mul_left _ ih
      _ = values.card ^ (k + 1) := by rw [Nat.pow_succ, Nat.mul_comm]

namespace Workspace

variable {n m : Nat}

/-- The values in the tables of a workspace. -/
def values (w : Workspace n m) : Finset String :=
  (w.tables.toList.flatMap fun t => t.rows.flatten).toFinset

/-- A value of a workspace stands in a row of one of its tables. -/
theorem mem_values {w : Workspace n m} {x : String} :
    x ∈ w.values ↔ ∃ t, ∃ row ∈ (w.table t).rows, x ∈ row := by
  rw [values, List.mem_toFinset, List.mem_flatMap]
  constructor
  · rintro ⟨t, ht, hx⟩
    obtain ⟨i, hi, rfl⟩ := Vector.mem_iff_getElem.1 (Vector.mem_toList_iff.1 ht)
    exact ⟨⟨i, hi⟩, List.mem_flatten.1 hx⟩
  · rintro ⟨t, hx⟩
    exact ⟨w.table t, Vector.mem_toList_iff.2 (Vector.getElem_mem _), List.mem_flatten.2 hx⟩

/-- Counted with repetitions there are at least as many values. -/
theorem card_values_le (w : Workspace n m) : w.values.card ≤ Selection.valueCount w := by
  refine (List.toFinset_card_le _).trans (Nat.le_of_eq ?_)
  rw [List.length_flatMap]
  rfl

/-- A row of values that are there brings no new ones. -/
theorem values_insert (w : Workspace n m) (t : Fin n) {row : Row}
    (width : row.length = (w.table t).titles.length) (h : ∀ x ∈ row, x ∈ w.values) :
    (w.setTable t ((w.table t).insert row width)).values = w.values := by
  ext x
  constructor
  -- A value of the new row was there before.
  · intro hx
    obtain ⟨u, r, hr, hxr⟩ := mem_values.1 hx
    by_cases hu : u = t
    · rw [hu, table_setTable_self, Table.insert_rows] at hr
      split at hr
      · exact mem_values.2 ⟨t, r, hr, hxr⟩
      · rcases List.mem_append.1 hr with hold | hnew
        · exact mem_values.2 ⟨t, r, hold, hxr⟩
        · rw [List.mem_singleton.1 hnew] at hxr
          exact h x hxr
    · rw [table_setTable_of_ne w hu] at hr
      exact mem_values.2 ⟨u, r, hr, hxr⟩
  -- No row is lost.
  · intro hx
    obtain ⟨u, r, hr, hxr⟩ := mem_values.1 hx
    refine mem_values.2 ⟨u, r, ?_, hxr⟩
    by_cases hu : u = t
    · rw [hu] at hr
      rw [hu, table_setTable_self, Table.insert_rows]
      split
      · exact hr
      · exact List.mem_append_left _ hr
    · rw [table_setTable_of_ne w hu]
      exact hr

/-- What a bound column shows is a value that is there. -/
theorem mem_values_of_value {w : Workspace n m} {b : BoundColumn m} {x : String}
    (h : b.value w = .ok x) : x ∈ w.values := by
  unfold BoundColumn.value value at h
  rcases hrow : w.row? b.cursor with _ | row <;> rw [hrow] at h
  · cases h
  · dsimp only at h
    unfold Row.field at h
    rcases hx : signedGet? row b.index with _ | y <;> rw [hx] at h
    · cases h
    · obtain rfl := Except.ok.inj h
      rw [row?, ← Table.getElem?_rows] at hrow
      refine mem_values.2 ⟨_, row, List.mem_of_getElem? hrow, ?_⟩
      unfold signedGet? at hx
      split at hx
      · exact List.mem_of_getElem? hx
      · split at hx
        · exact List.mem_of_getElem? hx
        · cases hx

end Workspace

namespace Selection

variable {n m : Nat}

/-! ## 2. What a visit gains -/

/-- A candidate satisfies the conditions and is what the columns show. -/
theorem of_candidate {s : Selection n m} {w : Workspace n m} {row : Row}
    (h : s.candidate w = .ok (some row)) : s.Holds w ∧ s.Shows w row := by
  rcases s.candidate_cases w with ⟨hnone, -⟩ | ⟨row', hrow, hholds, hshows⟩ | ⟨e, he, -⟩
  · rw [hnone] at h
    cases h
  · rw [hrow] at h
    obtain rfl := Option.some.inj (Except.ok.inj h)
    exact ⟨hholds, hshows⟩
  · rw [he] at h
    cases h

/-- Where the conditions hold and nothing fails there is a row. -/
theorem exists_of_holds {s : Selection n m} {w : Workspace n m} {row? : Option Row}
    (h : s.candidate w = .ok row?) (hholds : s.Holds w) :
    ∃ row, row? = some row ∧ s.Shows w row := by
  rcases s.candidate_cases w with
    ⟨-, before, c, after, hsplit, -, hc⟩ | ⟨row, hrow, -, hshows⟩ | ⟨e, he, -⟩
  · have hmem : c ∈ s.conditions := by
      rw [hsplit]
      exact List.mem_append_cons_self
    rw [hholds c hmem] at hc
    cases hc
  · rw [hrow] at h
    exact ⟨row, (Except.ok.inj h).symm, hshows⟩
  · rw [he] at h
    cases h

/-- A candidate is made of values that are there. -/
theorem mem_rowsOver_of_candidate {s : Selection n m} {w : Workspace n m} {row : Row}
    (h : s.candidate w = .ok (some row)) :
    (∀ x ∈ row, x ∈ w.values) ∧ row ∈ rowsOver w.values s.columns.length := by
  have hshows := (of_candidate h).2
  have hvalues : ∀ x ∈ row, x ∈ w.values := by
    intro x hx
    obtain ⟨hlen, hget⟩ := List.forall₂_iff_get.1 hshows
    obtain ⟨i, hi, rfl⟩ := List.mem_iff_getElem.1 hx
    exact Workspace.mem_values_of_value (hget i (hlen ▸ hi) hi)
  refine ⟨hvalues, ?_⟩
  rw [hshows.length_eq]
  exact mem_rowsOver hvalues

/-- What a visit changes: nothing, or the target gains a candidate that it did not have. -/
theorem visit_cases (s : Selection n m) (w : Workspace n m) :
    (s.visit w).1 = w ∨ ∃ row, ∃ width : row.length = (w.table s.target).titles.length,
      s.candidate w = .ok (some row) ∧ row ∉ (w.table s.target).rows ∧
        (s.visit w).1 = w.setTable s.target ((w.table s.target).insert row width) ∧
        (s.visit w).2 = none := by
  unfold visit
  rcases s.candidate w with e | _ | row
  · exact .inl rfl
  · exact .inl rfl
  · dsimp only
    rcases w.addRow_cases s.target row with ⟨-, hadd⟩ | ⟨width, hadd⟩
    · rw [hadd]
      exact .inl rfl
    · rw [hadd]
      by_cases hmem : row ∈ (w.table s.target).rows
      · refine .inl ?_
        dsimp only
        rw [Table.insert_of_mem hmem, Workspace.setTable_table]
      · exact .inr ⟨row, width, rfl, hmem, rfl, rfl⟩

/-- A visit that does not fail had a candidate or none, and the target has it afterwards. -/
theorem candidate_of_visit {s : Selection n m} {w : Workspace n m} (h : (s.visit w).2 = none) :
    ∃ row?, s.candidate w = .ok row? ∧
      ∀ row, row? = some row → row ∈ ((s.visit w).1.table s.target).rows := by
  rw [visit_eq] at h ⊢
  rcases hc : s.candidate w with e | _ | row <;> rw [hc] at h
  · cases h
  · exact ⟨none, rfl, fun row hrow => by cases hrow⟩
  · refine ⟨some row, rfl, fun r hr => ?_⟩
    obtain rfl := Option.some.inj hr
    dsimp only at h ⊢
    rcases hadd : (w.table s.target).add row with e | ⟨u, isNew⟩ <;> rw [hadd] at h
    · cases h
    · dsimp only
      rw [Workspace.table_setTable_self, Table.add_rows hadd]
      split
      · assumption
      · exact List.mem_append_right _ (List.mem_singleton_self row)

/-- A visit that fails has changed nothing. -/
theorem visit_of_fails {s : Selection n m} {w : Workspace n m} {e : Error}
    (h : (s.visit w).2 = some e) : (s.visit w).1 = w := by
  rcases s.visit_cases w with hsame | ⟨_, _, _, _, _, hnone⟩
  · exact hsame
  · rw [hnone] at h
    cases h

/-- Why a visit fails. -/
theorem fails_of_visit {s : Selection n m} {w : Workspace n m} {t : Table} {p : Nat × Nat}
    {e : Error} (h : (s.visit (s.during w t p)).2 = some e) : s.Fails w t p e := by
  rw [visit_eq] at h
  rcases s.candidate_cases (s.during w t p) with
    ⟨hnone, -⟩ | ⟨row, hrow, hholds, hshows⟩ | ⟨e', he, hfails⟩
  · rw [hnone] at h
    cases h
  · rw [hrow] at h
    dsimp only at h
    rw [table_during, Table.add] at h
    by_cases hwidth : row.length = t.titles.length
    · rw [dif_pos hwidth] at h
      cases h
    · rw [dif_neg hwidth] at h
      obtain rfl := Option.some.inj h
      exact .width hholds hshows hwidth
  · rw [he] at h
    obtain rfl := Option.some.inj h
    rcases hfails with hreaches | ⟨hholds, hlacks⟩
    · exact .condition hreaches
    · exact .column hholds hlacks

/-- How many rows the target can still gain. -/
def missing (s : Selection n m) (w : Workspace n m) : Nat :=
  (rowsOver w.values s.columns.length \ (w.table s.target).rows.toFinset).card

/-- Where the table under a cursor ends at the latest: behind its rows, and as many more as the
target can still gain. -/
def height (s : Selection n m) (w : Workspace n m) (c : Fin m) : Nat :=
  (w.tableUnder c).size + s.missing w

/-- A new row of values that were there is one less to gain. -/
theorem missing_insert {s : Selection n m} {w : Workspace n m} {row : Row}
    (width : row.length = (w.table s.target).titles.length)
    (hcandidate : s.candidate w = .ok (some row)) (hnew : row ∉ (w.table s.target).rows) :
    s.missing (w.setTable s.target ((w.table s.target).insert row width)) + 1 = s.missing w := by
  obtain ⟨hvalues, hrow⟩ := mem_rowsOver_of_candidate hcandidate
  have hrows : ((w.table s.target).insert row width).rows.toFinset =
      insert row (w.table s.target).rows.toFinset := by
    rw [Table.insert_rows, if_neg hnew, List.toFinset_append, Finset.union_comm]
    rfl
  rw [missing, missing, w.values_insert s.target width hvalues, Workspace.table_setTable_self,
    hrows, Finset.sdiff_insert]
  refine Finset.card_erase_add_one ?_
  rw [Finset.mem_sdiff, List.mem_toFinset]
  exact ⟨hrow, hnew⟩

/-- **No visit raises a height**: a row that a table gains is one less that is missing. -/
theorem height_visit_le (s : Selection n m) (w : Workspace n m) (c : Fin m) :
    s.height (s.visit w).1 c ≤ s.height w c := by
  rcases s.visit_cases w with hsame | ⟨row, width, hcandidate, hnew, hgain, -⟩
  · rw [hsame]
  · have hmissing := missing_insert width hcandidate hnew
    rw [hgain, height, height]
    have hsize : ((w.setTable s.target ((w.table s.target).insert row width)).tableUnder c).size ≤
        (w.tableUnder c).size + 1 := by
      change ((w.setTable s.target _).table (w.cursor c).table).size ≤ _
      -- A cursor over another table has no further to go, and a row less is missing.
      by_cases hc : (w.cursor c).table = s.target
      · rw [hc, Workspace.table_setTable_self, ← Table.length_rows, Table.insert_rows, if_neg hnew,
          List.length_append, Table.length_rows, Workspace.tableUnder, hc]
        rfl
      · rw [Workspace.table_setTable_of_ne w hc]
        exact Nat.le_succ _
    omega

/-! ## 3. Why a sweep ends -/

/-- A visit adds rows at the end, of any table. -/
theorem rows_visit (s : Selection n m) (w : Workspace n m) (t : Fin n) :
    (w.table t).rows <+: ((s.visit w).1.table t).rows := by
  unfold visit
  rcases s.candidate w with e | _ | row
  · exact List.prefix_refl _
  · exact List.prefix_refl _
  · have hrows := w.rows_perform (.add s.target row) t
    rw [Workspace.perform] at hrows
    dsimp only
    rcases hadd : w.addRow s.target row with ⟨v, e | isNew⟩ <;> rw [hadd] at hrows
    · exact hrows
    · exact hrows

/-- Whether the cursors that are swept are two, if there is a second one. -/
def Distinct (s : Selection n m) : Prop := ∀ d, s.inner? = some d → s.outer ≠ d

/-- The cursor that moves on behind a visit. -/
def fastest (s : Selection n m) : Fin m := s.inner?.getD s.outer

theorem fastest_of_one {s : Selection n m} (h : s.inner? = none) : s.fastest = s.outer := by
  rw [fastest, h, Option.getD_none]

theorem fastest_of_two {s : Selection n m} {d : Fin m} (h : s.inner? = some d) :
    s.fastest = d := by
  rw [fastest, h, Option.getD_some]

/-- One turn as the body of a loop, which is not told how often it is passed. -/
def turnPass (s : Selection n m) (w : Workspace n m) :
    Pass (Workspace n m) (Workspace n m × Option Error) :=
  match s.turn w with
  | .finished v => .over (v, none)
  | .moved v => .again v
  | .failed v e => .over (v, some e)

/-- What a turn comes to, and when. -/
inductive Goes (s : Selection n m) (w : Workspace n m) :
    Pass (Workspace n m) (Workspace n m × Option Error) → Prop where
  /-- The first cursor is behind its last row. -/
  | finished (past : w.hasRow s.outer = false) : Goes s w (.over (w, none))
  /-- Something cannot be evaluated or added. -/
  | failed {e : Error} (row : w.hasRow s.outer = true) (fast : w.hasRow s.fastest = true)
      (fails : (s.visit w).2 = some e) : Goes s w (.over ((s.visit w).1, some e))
  /-- There was a visit, and the fastest cursor moves on. -/
  | stepped (row : w.hasRow s.outer = true) (fast : w.hasRow s.fastest = true)
      (visits : (s.visit w).2 = none) :
      Goes s w (.again ((s.visit w).1.moveTo s.fastest ((w.cursor s.fastest).position + 1)))
  /-- The second cursor is behind its last row, and the first one moves on. -/
  | turned {d : Fin m} (inner : s.inner? = some d) (row : w.hasRow s.outer = true)
      (past : w.hasRow d = false) :
      Goes s w (.again ((w.moveTo d 0).moveTo s.outer ((w.cursor s.outer).position + 1)))

/-- A cursor that stood on a row before a visit does so behind it. -/
theorem hasRow_visit (s : Selection n m) {w : Workspace n m} {c : Fin m}
    (h : w.hasRow c = true) : (s.visit w).1.hasRow c = true := by
  rw [Workspace.hasRow_iff, Workspace.tableUnder, cursor_visit] at *
  exact Nat.lt_of_lt_of_le h ((s.rows_visit w _).length_le)

/-- A turn that visits ends the sweep by the visit's error, or goes on one row further. -/
theorem goes_of_visit {s : Selection n m} {w : Workspace n m} (hrow : w.hasRow s.outer = true)
    (hfast : w.hasRow s.fastest = true) (hturn : s.turn w = s.visitAndAdvance w s.fastest) :
    s.Goes w (s.turnPass w) := by
  rw [turnPass, hturn, visitAndAdvance]
  have hfast' := s.hasRow_visit hfast
  have hcursor := s.cursor_visit w s.fastest
  rcases hv : s.visit w with ⟨v, _ | e⟩ <;> rw [hv] at hfast' hcursor
  · dsimp only
    rw [Workspace.advance, if_pos hfast', hcursor]
    have hstepped := Goes.stepped hrow hfast (congrArg Prod.snd hv)
    rw [hv] at hstepped
    exact hstepped
  · have hfailed := Goes.failed hrow hfast (congrArg Prod.snd hv)
    rw [hv] at hfailed
    exact hfailed

/-- **What one turn can do**, all of it. -/
theorem goes_turnPass {s : Selection n m} (distinct : s.Distinct) (w : Workspace n m) :
    s.Goes w (s.turnPass w) := by
  by_cases hrow : w.hasRow s.outer = true
  · rcases hinner : s.inner? with _ | d
    · have hfastest := fastest_of_one hinner
      refine goes_of_visit hrow (hfastest ▸ hrow) ?_
      rw [turn, if_pos hrow, hinner, hfastest]
    · have hfastest := fastest_of_two hinner
      by_cases hd : w.hasRow d = true
      · refine goes_of_visit hrow (hfastest ▸ hd) ?_
        rw [turn, if_pos hrow, hinner, hfastest]
        exact if_pos hd
      -- The second cursor is put back first; the first one, being another, still has its row.
      · have hrow' : (w.moveTo d 0).hasRow s.outer = true := by
          rw [Workspace.hasRow_iff, Workspace.tableUnder_moveTo,
            Workspace.cursor_moveTo_of_ne w (distinct d hinner)]
          exact Workspace.hasRow_iff.1 hrow
        rw [turnPass, turn, if_pos hrow, hinner]
        dsimp only
        rw [if_neg hd, Workspace.reset, Workspace.advance, if_pos hrow',
          Workspace.cursor_moveTo_of_ne w (distinct d hinner)]
        exact .turned hinner hrow (Bool.eq_false_iff.2 hd)
  · rw [turnPass, turn, if_neg hrow]
    exact .finished (Bool.eq_false_iff.2 hrow)

/-- What a pass of the loop comes to is what a turn comes to. -/
theorem goes_of_pass {s : Selection n m} (distinct : s.Distinct) {w : Workspace n m}
    {p : Pass (Workspace n m) (Workspace n m × Option Error)} (h : s.turnPass w = p) :
    s.Goes w p := by
  rw [← h]
  exact goes_turnPass distinct w

/-- With one cursor, a turn that another one follows is a visit and a step. -/
theorem visit_of_again {s : Selection n m} (hinner : s.inner? = none) {w v : Workspace n m}
    (h : s.turnPass w = .again v) :
    w.hasRow s.outer = true ∧ (s.visit w).2 = none ∧
      v = (s.visit w).1.moveTo s.outer ((w.cursor s.outer).position + 1) := by
  have distinct : s.Distinct := by
    intro d hd
    rw [hinner] at hd
    cases hd
  have hfastest := fastest_of_one hinner
  cases goes_of_pass distinct h with
  | stepped row _ visits =>
    rw [hfastest]
    exact ⟨row, visits, rfl⟩
  | turned inner _ _ =>
    rw [hinner] at inner
    cases inner

/-- How many more turns there can be. With two cursors there is one for each place that the
second one can still come to, and as many as it has places for each further place of the
first. -/
def toGo (s : Selection n m) (w : Workspace n m) : Nat :=
  let rows := s.height w s.outer - (w.cursor s.outer).position
  match s.inner? with
  | none => rows
  | some d => rows * (s.height w d + 1) + (s.height w d - (w.cursor d).position)

/-- Where a cursor's table ends does not depend on where any cursor stands. -/
theorem height_moveTo (s : Selection n m) (w : Workspace n m) (c d : Fin m) (p : Nat) :
    s.height (w.moveTo c p) d = s.height w d := by
  rw [height, Workspace.tableUnder_moveTo]
  rfl

/-- A cursor that stands on a row stands before the end of its table. -/
theorem position_lt_height (s : Selection n m) {w : Workspace n m} {c : Fin m}
    (h : w.hasRow c = true) : (w.cursor c).position < s.height w c :=
  Nat.lt_of_lt_of_le (Workspace.hasRow_iff.1 h) (Nat.le_add_right _ _)

/-- **Every turn is one less to go.** -/
theorem toGo_lt {s : Selection n m} (distinct : s.Distinct) {w v : Workspace n m}
    (h : s.turnPass w = .again v) : s.toGo v < s.toGo w := by
  cases goes_of_pass distinct h with
  | stepped row fast visits =>
    have hrows := s.height_visit_le w s.outer
    have hlt := s.position_lt_height fast
    rcases hinner : s.inner? with _ | d
    · have hfastest := fastest_of_one hinner
      rw [hfastest] at hlt ⊢
      simp only [toGo, hinner, height_moveTo, Workspace.cursor_moveTo_self, cursor_visit]
      omega
    · have hfastest := fastest_of_two hinner
      have hwidth := s.height_visit_le w d
      rw [hfastest] at hlt ⊢
      simp only [toGo, hinner, height_moveTo, Workspace.cursor_moveTo_self,
        Workspace.cursor_moveTo_of_ne _ (distinct d hinner), cursor_visit]
      have hmul := Nat.mul_le_mul (Nat.sub_le_sub_right hrows (w.cursor s.outer).position)
        (Nat.add_le_add_right hwidth 1)
      omega
  | @turned d inner row past =>
    have hlt := s.position_lt_height row
    simp only [toGo, inner, height_moveTo, Workspace.cursor_moveTo_self,
      Workspace.cursor_moveTo_of_ne _ (distinct d inner).symm]
    -- A place of the first cursor is left, for as many of the second as it begins anew with.
    have hplaces : s.height w s.outer - (w.cursor s.outer).position =
        s.height w s.outer - ((w.cursor s.outer).position + 1) + 1 := by omega
    rw [hplaces, Nat.succ_mul]
    omega

/-- A sweep as a loop that takes turns as long as they go on. -/
def sweeping (s : Selection n m) (distinct : s.Distinct) :
    Loop (Workspace n m) (Workspace n m × Option Error) where
  pass := s.turnPass
  amount := s.toGo
  amount_lt := toGo_lt distinct

/-- The bound that a sweep is run with allows for every table at its longest. -/
theorem height_le_rowBound (s : Selection n m) (w : Workspace n m) (c : Fin m) :
    s.height w c ≤ s.rowBound w := by
  have hsize := size_le_total w c
  have hmissing : s.missing w ≤ Nat.pow (valueCount w) s.columns.length :=
    calc s.missing w ≤ (rowsOver w.values s.columns.length).card :=
          Finset.card_le_card Finset.sdiff_subset
      _ ≤ w.values.card ^ s.columns.length := card_rowsOver_le _ _
      _ ≤ valueCount w ^ s.columns.length := Nat.pow_le_pow_left w.card_values_le _
  unfold height rowBound
  omega

/-- What is to go is less than the number of turns that a sweep is given. -/
theorem toGo_lt_turnBound (s : Selection n m) (w : Workspace n m) :
    s.toGo w < s.turnBound w := by
  have hrows : s.height w s.outer - (w.cursor s.outer).position ≤ s.rowBound w :=
    (Nat.sub_le _ _).trans (s.height_le_rowBound w s.outer)
  have hbound : s.turnBound w = s.rowBound w * (s.rowBound w + 1) + 3 * s.rowBound w + 4 := by
    unfold turnBound
    ring
  unfold toGo
  rcases s.inner? with _ | d
  · dsimp only
    omega
  · have hwidth := s.height_le_rowBound w d
    have hmul := Nat.mul_le_mul hrows (Nat.add_le_add_right hwidth 1)
    dsimp only
    omega

/-- A run of so many turns is a pass of the loop, and what is left of them. -/
theorem run_succ (s : Selection n m) (k : Nat) (w : Workspace n m) :
    s.run (k + 1) w = (s.turnPass w).result (s.run k) := by
  rw [run, turnPass]
  rcases s.turn w with v | v | ⟨v, e⟩
  · rfl
  · rfl
  · rfl

/-- A number of turns that is large enough makes no difference. -/
theorem run_of_takes {s : Selection n m} {distinct : s.Distinct} {w : Workspace n m} {k : Nat}
    {r : Workspace n m × Option Error} (h : (s.sweeping distinct).Takes w k r) {j : Nat}
    (hj : k < j) : s.run j w = r := by
  induction h generalizing j with
  | «over» hpass =>
    obtain ⟨i, rfl⟩ := Nat.exists_eq_add_one_of_ne_zero (Nat.ne_of_gt hj)
    rw [run_succ, show s.turnPass _ = _ from hpass]
    rfl
  | again hpass _ ih =>
    obtain ⟨i, rfl⟩ := Nat.exists_eq_add_one_of_ne_zero (Nat.ne_of_gt (Nat.zero_lt_of_lt hj))
    rw [run_succ, show s.turnPass _ = _ from hpass]
    exact ih (Nat.lt_of_succ_lt_succ hj)

/-- **A sweep ends by itself**: the number of turns that it is given does not cut it off. -/
theorem sweep_ends {s : Selection n m} (distinct : s.Distinct) (w : Workspace n m) :
    (s.sweeping distinct).EndsWith w (s.sweep w) := by
  obtain ⟨k, hk, htakes⟩ := Loop.endsWith_of_eq (s.sweeping distinct).result_eq w
  have hsweep := run_of_takes htakes (Nat.lt_of_le_of_lt hk (s.toGo_lt_turnBound w))
  rw [sweep, hsweep]
  exact ⟨k, hk, htakes⟩

/-! ## 4. What was seen on the way -/

/-- What a sweep does to a workspace: the target gains rows, and the cursors that are swept
move. -/
structure Fills (s : Selection n m) (w v : Workspace n m) : Prop extends s.Grows w v where
  rows : ∀ t, (w.table t).rows <+: (v.table t).rows
  cursor_eq : ∀ c, c ∉ s.listed → v.cursor c = w.cursor c

theorem Fills.refl (s : Selection n m) (w : Workspace n m) : s.Fills w w :=
  ⟨Grows.refl s w, fun _ => List.prefix_refl _, fun _ _ => rfl⟩

theorem Fills.trans {s : Selection n m} {u v w : Workspace n m} (h : s.Fills u v)
    (h' : s.Fills v w) : s.Fills u w :=
  ⟨h.toGrows.trans h'.toGrows, fun t => (h.rows t).trans (h'.rows t),
    fun c hc => (h'.cursor_eq c hc).trans (h.cursor_eq c hc)⟩

/-- A visit adds to the target and moves no cursor. -/
theorem fills_visit (s : Selection n m) (w : Workspace n m) : s.Fills w (s.visit w).1 :=
  ⟨s.grows_visit w, s.rows_visit w, fun c _ => s.cursor_visit w c⟩

/-- Moving a cursor that is swept changes no table. -/
theorem fills_moveTo (s : Selection n m) (w : Workspace n m) {c : Fin m} (hc : c ∈ s.listed)
    (p : Nat) : s.Fills w (w.moveTo c p) where
  table_eq _ _ := rfl
  cursor_table d := w.cursor_table_moveTo c d p
  rows _ := List.prefix_refl _
  cursor_eq d hd := by
    refine w.cursor_moveTo_of_ne (fun heq => hd ?_) p
    rw [heq]
    exact hc

theorem outer_mem_listed (s : Selection n m) : s.outer ∈ s.listed := List.mem_cons_self ..

theorem inner_mem_listed {s : Selection n m} {d : Fin m} (h : s.inner? = some d) :
    d ∈ s.listed := by
  rw [listed, h]
  exact List.mem_cons_of_mem _ (List.mem_singleton_self d)

theorem fastest_mem_listed (s : Selection n m) : s.fastest ∈ s.listed := by
  rcases hinner : s.inner? with _ | d
  · rw [fastest_of_one hinner]
    exact s.outer_mem_listed
  · rw [fastest_of_two hinner]
    exact inner_mem_listed hinner

/-- A turn that goes on adds to the target and moves cursors that are swept. -/
theorem fills_of_again {s : Selection n m} (distinct : s.Distinct) {w v : Workspace n m}
    (h : s.turnPass w = .again v) : s.Fills w v := by
  cases goes_of_pass distinct h with
  | stepped _ _ _ => exact (s.fills_visit w).trans (s.fills_moveTo _ s.fastest_mem_listed _)
  | turned inner _ _ =>
    exact (s.fills_moveTo w (inner_mem_listed inner) 0).trans
      (s.fills_moveTo _ s.outer_mem_listed _)

/-- A turn that ends a sweep does no more than that either. -/
theorem fills_of_over {s : Selection n m} (distinct : s.Distinct) {w : Workspace n m}
    {r : Workspace n m × Option Error} (h : s.turnPass w = .over r) : s.Fills w r.1 := by
  cases goes_of_pass distinct h with
  | finished _ => exact .refl s w
  | failed _ _ _ => exact s.fills_visit w

/-- What every turn does, the whole loop does. The induction is on the number of passes. -/
theorem fills_of_takes {s : Selection n m} {distinct : s.Distinct} {w : Workspace n m} {k : Nat}
    {r : Workspace n m × Option Error} (h : (s.sweeping distinct).Takes w k r) :
    s.Fills w r.1 := by
  induction h with
  | «over» hpass => exact fills_of_over distinct hpass
  | again hpass _ ih => exact (fills_of_again distinct hpass).trans ih

end Selection

namespace Workspace

variable {n m : Nat}

/-- Whether the cursors of the second workspace stand on rows that those of the first do. -/
def Sees (w v : Workspace n m) : Prop := ∀ c row, w.row? c = some row → v.row? c = some row

/-- A value that a column shows is shown from the same row later. -/
theorem Sees.value {w v : Workspace n m} (h : w.Sees v) {b : BoundColumn m} {x : String}
    (hx : b.value w = .ok x) : b.value v = .ok x := by
  unfold BoundColumn.value Workspace.value at hx ⊢
  rcases hrow : w.row? b.cursor with _ | row <;> rw [hrow] at hx
  · cases hx
  · rw [h b.cursor row hrow]
    exact hx

/-- A condition that has a result has the same on the same rows. -/
theorem Sees.test {w v : Workspace n m} (h : w.Sees v) {c : Condition m} {b : Bool}
    (hb : c.test w = .ok b) : c.test v = .ok b := by
  unfold Condition.test at hb ⊢
  rcases hx : c.left.value w with e | x <;> rw [hx] at hb
  · cases hb
  · rw [h.value hx]
    rcases hr : c.right with d | text <;> rw [hr] at hb
    · rcases hy : d.value w with e | y
      · rw [show Operand.value (.column d) w = _ from hy] at hb
        cases hb
      · rw [show Operand.value (.column d) w = _ from hy] at hb
        rw [show Operand.value (.column d) v = _ from h.value hy]
        exact hb
    · exact hb

/-- So have several conditions, as they are tested one by one. -/
theorem Sees.satisfied {w v : Workspace n m} (h : w.Sees v) {cs : List (Condition m)} {b : Bool}
    (hb : Condition.satisfied w cs = .ok b) : Condition.satisfied v cs = .ok b := by
  unfold Condition.satisfied at hb ⊢
  induction cs with
  | nil => exact hb
  | cons c cs ih =>
    rw [List.allM] at hb ⊢
    rcases hc : c.test w with e | _ | _ <;> rw [hc] at hb
    · cases hb
    · rw [h.test hc]
      exact hb
    · rw [h.test hc]
      exact ih hb

end Workspace

namespace Selection

variable {n m : Nat}

/-- The columns show the same row from the same rows. -/
theorem project_of_sees {s : Selection n m} {w v : Workspace n m} (h : w.Sees v) {row : Row}
    (hrow : s.project w = .ok row) : s.project v = .ok row :=
  Statement.mapM_eq_ok_iff.2 ((Statement.mapM_eq_ok_iff.1 hrow).imp fun _ _ hx => h.value hx)

/-- What a combination comes to does not change while its rows stay where they are. -/
theorem candidate_of_sees {s : Selection n m} {w v : Workspace n m} (h : w.Sees v)
    {row? : Option Row} (hrow : s.candidate w = .ok row?) : s.candidate v = .ok row? := by
  unfold candidate at hrow ⊢
  rcases hsat : Condition.satisfied w s.conditions with e | _ | _ <;> rw [hsat] at hrow
  · cases hrow
  · rw [h.satisfied hsat]
    exact hrow
  · rw [h.satisfied hsat]
    change (do return some (← s.project w)) = _ at hrow
    change (do return some (← s.project v)) = _
    rcases hproject : s.project w with e | row <;> rw [hproject] at hrow
    · cases hrow
    · rw [project_of_sees h hproject]
      exact hrow

/-- What one cursor is on its way over can be looked at again at the end. -/
theorem Fills.sees {s : Selection n m} (hinner : s.inner? = none) {w v : Workspace n m}
    (h : s.Fills w v) : w.Sees (v.moveTo s.outer (w.cursor s.outer).position) := by
  intro c row hrow
  have hposition : ((v.moveTo s.outer (w.cursor s.outer).position).cursor c).position =
      (w.cursor c).position := by
    by_cases hc : c = s.outer
    · rw [hc, Workspace.cursor_moveTo_self]
    · rw [Workspace.cursor_moveTo_of_ne v hc, h.cursor_eq c]
      rw [listed, hinner]
      exact fun hmem => hc (List.mem_singleton.1 hmem)
  rw [Workspace.row?, ← Table.getElem?_rows] at hrow ⊢
  rw [Workspace.tableUnder_moveTo, hposition, Workspace.tableUnder, h.cursor_table]
  obtain ⟨added, hadded⟩ := h.rows (w.cursor c).table
  obtain ⟨hlt, -⟩ := List.getElem?_eq_some_iff.1 hrow
  rw [← hadded]
  exact (List.getElem?_append_left hlt).trans hrow

/-- Tables under cursors never become shorter. -/
theorem size_le_of_fills {s : Selection n m} {w v : Workspace n m} (h : s.Fills w v)
    (c : Fin m) : (w.tableUnder c).size ≤ (v.tableUnder c).size := by
  rw [Workspace.tableUnder, Workspace.tableUnder, h.cursor_table]
  exact (h.rows _).length_le

/-- Nothing that is visited and does not fail is missing from the target at the end. -/
theorem closed_of_takes {s : Selection n m} {distinct : s.Distinct} (hinner : s.inner? = none)
    {w : Workspace n m} {k : Nat} {r : Workspace n m × Option Error}
    (h : (s.sweeping distinct).Takes w k r) (hok : r.2 = none) {j : Nat}
    (hfrom : (w.cursor s.outer).position ≤ j) (hto : j < (r.1.tableUnder s.outer).size) :
    ∃ row?, s.candidate (r.1.moveTo s.outer j) = .ok row? ∧
      ∀ row, row? = some row → row ∈ (r.1.table s.target).rows := by
  induction h with
  | @«over» w r hpass =>
    cases goes_of_pass distinct hpass with
    -- There is no such place: the cursor is at the end.
    | finished past =>
      have hrow : w.hasRow s.outer = true :=
        Workspace.hasRow_iff.2 (Nat.lt_of_le_of_lt hfrom hto)
      rw [past] at hrow
      cases hrow
    | failed _ _ _ => cases hok
  | @again w v k r hpass hrest ih =>
    obtain ⟨-, hvisits, hv⟩ := visit_of_again hinner hpass
    -- The first place is visited in this turn, the others are left to the turns that follow.
    by_cases hj : j = (w.cursor s.outer).position
    · obtain ⟨row?, hcandidate, hrow⟩ := candidate_of_visit hvisits
      have hthere := fills_of_takes hrest
      have hfills := (fills_of_again distinct hpass).trans hthere
      refine ⟨row?, ?_, fun row heq => (hthere.rows s.target).subset ?_⟩
      · rw [hj]
        exact candidate_of_sees (hfills.sees hinner) hcandidate
      · rw [hv]
        exact hrow row heq
    · refine ih hok ?_ hto
      have hposition : (v.cursor s.outer).position = (w.cursor s.outer).position + 1 := by
        rw [hv, Workspace.cursor_moveTo_self]
      omega

/-- A sweep that fails has failed at a place that it comes to. -/
theorem failed_of_takes {s : Selection n m} {distinct : s.Distinct} (hinner : s.inner? = none)
    {w : Workspace n m} {k : Nat} {r : Workspace n m × Option Error}
    (h : (s.sweeping distinct).Takes w k r) {e : Error} (hfails : r.2 = some e) :
    ∃ j, (w.cursor s.outer).position ≤ j ∧ j < (r.1.tableUnder s.outer).size ∧
      (s.visit (r.1.moveTo s.outer j)).2 = some e := by
  induction h with
  | @«over» w r hpass =>
    cases goes_of_pass distinct hpass with
    | finished _ => cases hfails
    -- A visit that fails changes nothing, so it fails again when the cursor is put back here.
    | failed here _ fails =>
      obtain rfl := Option.some.inj hfails
      dsimp only
      rw [visit_of_fails fails]
      refine ⟨_, Nat.le_refl _, Workspace.hasRow_iff.1 here, ?_⟩
      rw [Workspace.moveTo_of_eq rfl]
      exact fails
  | @again w v k r hpass hrest ih =>
    obtain ⟨-, -, hv⟩ := visit_of_again hinner hpass
    obtain ⟨j, hfrom, hto, hvisit⟩ := ih hfails
    rw [hv, Workspace.cursor_moveTo_self] at hfrom
    exact ⟨j, Nat.le_of_succ_le hfrom, hto, hvisit⟩

/-- What the target gains at a visit is what comes of that place at the end. -/
theorem gained_of_visit {s : Selection n m} (hinner : s.inner? = none) {w v : Workspace n m}
    (hrow : w.hasRow s.outer = true) (h : s.Fills w v) {row : Row}
    (hmem : row ∈ ((s.visit w).1.table s.target).rows) :
    row ∈ (w.table s.target).rows ∨ ∃ j, (w.cursor s.outer).position ≤ j ∧
      j < (v.tableUnder s.outer).size ∧ s.candidate (v.moveTo s.outer j) = .ok (some row) := by
  rcases s.visit_cases w with hsame | ⟨added, width, hcandidate, hnew, hgain, -⟩
  · rw [hsame] at hmem
    exact .inl hmem
  · rw [hgain, Workspace.table_setTable_self, Table.insert_rows, if_neg hnew] at hmem
    rcases List.mem_append.1 hmem with hold | hlast
    · exact .inl hold
    · obtain rfl := List.mem_singleton.1 hlast
      have hlt := Nat.lt_of_lt_of_le (Workspace.hasRow_iff.1 hrow) (size_le_of_fills h s.outer)
      exact .inr ⟨_, Nat.le_refl _, hlt, candidate_of_sees (h.sees hinner) hcandidate⟩

/-- Whatever the target gains comes of some place that was visited. -/
theorem gained_of_takes {s : Selection n m} {distinct : s.Distinct} (hinner : s.inner? = none)
    {w : Workspace n m} {k : Nat} {r : Workspace n m × Option Error}
    (h : (s.sweeping distinct).Takes w k r) {row : Row} (hrow : row ∈ (r.1.table s.target).rows) :
    row ∈ (w.table s.target).rows ∨ ∃ j, (w.cursor s.outer).position ≤ j ∧
      j < (r.1.tableUnder s.outer).size ∧ s.candidate (r.1.moveTo s.outer j) = .ok (some row) := by
  induction h with
  | @«over» w r hpass =>
    cases goes_of_pass distinct hpass with
    | finished _ => exact .inl hrow
    | failed here _ _ => exact gained_of_visit hinner here (s.fills_visit w) hrow
  | @again w v k r hpass hrest ih =>
    obtain ⟨hhere, -, hv⟩ := visit_of_again hinner hpass
    rcases ih hrow with hthere | ⟨j, hfrom, hto, hcandidate⟩
    · rw [hv] at hthere
      exact gained_of_visit hinner hhere
        ((fills_of_again distinct hpass).trans (fills_of_takes hrest)) hthere
    · rw [hv, Workspace.cursor_moveTo_self] at hfrom
      exact .inr ⟨j, Nat.le_of_succ_le hfrom, hto, hcandidate⟩

/-! ## 5. Selections -/

/-- A selection is a sweep, and behind it the listed cursors are reset. -/
theorem select_eq_sweep (s : Selection n m) (w : Workspace n m) :
    w.select s.target s.columns s.listed s.conditions =
      ((s.sweep w).1.resetAll s.listed, (s.sweep w).2) := by
  obtain ⟨target, columns, conditions, outer, _ | d⟩ := s
  · rfl
  · rfl

/-- Resetting the listed cursors changes no table. -/
theorem fills_resetAll (s : Selection n m) (w : Workspace n m) :
    s.Fills w (w.resetAll s.listed) := by
  rcases hinner : s.inner? with _ | d
  · rw [listed, hinner]
    exact s.fills_moveTo w s.outer_mem_listed 0
  · rw [listed, hinner]
    exact (s.fills_moveTo w s.outer_mem_listed 0).trans
      (s.fills_moveTo _ (inner_mem_listed hinner) 0)

/-- **A selection ends, also when it feeds itself.** The loop over turns is over after no more
turns than there are to go, and what it comes to is what the selection comes to, with the listed
cursors put back. The rows that the target had come first. With one cursor, the target is closed
where nothing fails: it has the row of each row under the cursor from its position on for which
the conditions hold, those included that were gained on the way. Where something fails, it is an
evaluation at one of these places. And whatever the target has besides, it had before. -/
theorem select_ends (s : Selection n m) (distinct : s.Distinct) (w : Workspace n m) :
    let r := w.select s.target s.columns s.listed s.conditions
    let rows := (r.1.table s.target).rows
    (∃ v, (s.sweeping distinct).EndsWith w (v, r.2) ∧ r.1 = v.resetAll s.listed) ∧
    (w.table s.target).rows <+: rows ∧
    (s.inner? = none →
      (r.2 = none → ∀ j, (w.cursor s.outer).position ≤ j → j < (r.1.tableUnder s.outer).size →
        s.Holds (r.1.moveTo s.outer j) → ∃ row ∈ rows, s.Shows (r.1.moveTo s.outer j) row) ∧
      (∀ e, r.2 = some e → ∃ j, (w.cursor s.outer).position ≤ j ∧
        j < (r.1.tableUnder s.outer).size ∧ s.Fails r.1 (r.1.table s.target) (j, 0) e) ∧
      ∀ row ∈ rows, row ∈ (w.table s.target).rows ∨
        ∃ j, (w.cursor s.outer).position ≤ j ∧ j < (r.1.tableUnder s.outer).size ∧
          s.Holds (r.1.moveTo s.outer j) ∧ s.Shows (r.1.moveTo s.outer j) row) := by
  intro r rows
  obtain ⟨k, hk, htakes⟩ := sweep_ends distinct w
  have hr : r = ((s.sweep w).1.resetAll s.listed, (s.sweep w).2) := s.select_eq_sweep w
  have hfills := (fills_of_takes htakes).trans (s.fills_resetAll _)
  refine ⟨⟨(s.sweep w).1, ⟨k, hk, ?_⟩, congrArg Prod.fst hr⟩, ?_, fun hinner => ?_⟩
  · rw [hr]
    exact htakes
  · change _ <+: (r.1.table s.target).rows
    rw [hr]
    exact hfills.rows s.target
  -- To put the cursor back is to forget where it stood at the end.
  · have hback : r.1 = (s.sweep w).1.moveTo s.outer 0 := by
      rw [hr, listed, hinner]
      rfl
    have hrows : rows = ((s.sweep w).1.table s.target).rows := by
      change (r.1.table s.target).rows = _
      rw [hback]
      rfl
    have hsize : (r.1.tableUnder s.outer).size = ((s.sweep w).1.tableUnder s.outer).size := by
      rw [hback, Workspace.tableUnder_moveTo]
    have hmove : ∀ j, r.1.moveTo s.outer j = (s.sweep w).1.moveTo s.outer j := by
      intro j
      rw [hback, Workspace.moveTo_moveTo]
    have hduring : ∀ j, s.during r.1 (r.1.table s.target) (j, 0) = r.1.moveTo s.outer j := by
      intro j
      rw [during, Workspace.setTable_table, standAt, hinner]
    refine ⟨fun hok j hfrom hto hholds => ?_, fun e he => ?_, fun row hrow => ?_⟩
    · rw [hr] at hok
      rw [hsize] at hto
      rw [hmove] at hholds ⊢
      obtain ⟨row?, hcandidate, hmem⟩ := closed_of_takes hinner htakes hok hfrom hto
      obtain ⟨row, rfl, hshows⟩ := exists_of_holds hcandidate hholds
      exact ⟨row, hrows ▸ hmem row rfl, hshows⟩
    · rw [hr] at he
      obtain ⟨j, hfrom, hto, hvisit⟩ := failed_of_takes hinner htakes he
      rw [← hmove, ← hduring] at hvisit
      exact ⟨j, hfrom, hsize ▸ hto, fails_of_visit hvisit⟩
    · rw [hrows] at hrow
      rcases gained_of_takes hinner htakes hrow with hold | ⟨j, hfrom, hto, hcandidate⟩
      · exact .inl hold
      · rw [← hmove] at hcandidate
        exact .inr ⟨j, hfrom, hsize ▸ hto, of_candidate hcandidate⟩

/-- A table of one row, with different values. -/
def wheelTable : Table where
  name := "t"
  titles := ["a", "b", "c"]
  rowSet := ArrivalSet.empty.insert ["x", "y", "z"]
  titles_nodup := by decide
  width_eq := by decide +kernel

/-- A table that gains each of its rows once more with the first value put last. It has gone
round after two rows: the one of the last row is the first. -/
theorem select_ends_wheel :
    let w := Workspace.ofTables [wheelTable]
    let s : Selection 1 1 := ⟨0, [⟨0, 1, "b"⟩, ⟨0, 2, "c"⟩, ⟨0, 0, "a"⟩], [], 0, none⟩
    let r := w.select 0 s.columns [0] []
    s.Distinct ∧ r.2 = none ∧
      (r.1.table 0).rows = [["x", "y", "z"], ["y", "z", "x"], ["z", "x", "y"]] ∧
      ∀ j < 3, ∃ row ∈ (r.1.table 0).rows, s.Shows (r.1.moveTo 0 j) row := by
  intro w s r
  have distinct : s.Distinct := fun d hd => by cases hd
  have hok : r.2 = none := by decide +kernel
  have hrows : (r.1.table 0).rows = [["x", "y", "z"], ["y", "z", "x"], ["z", "x", "y"]] := by
    decide +kernel
  obtain ⟨-, -, hone⟩ := select_ends s distinct w
  refine ⟨distinct, hok, hrows, fun j hj => ?_⟩
  have hsize : (r.1.tableUnder 0).size = 3 := by decide +kernel
  exact (hone rfl).1 hok j (Nat.zero_le j) (hsize.symm ▸ hj)
    fun c hc => absurd hc List.not_mem_nil

end Selection

end FlatQuery
