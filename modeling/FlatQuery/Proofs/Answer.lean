import FlatQuery.Proofs.Resolution
import FlatQuery.Proofs.Sweeping

/-!
# Answers to queries

What a query means takes three lines: go through the combinations of rows of its sources,
those of the second source for each row of the first; keep the ones that satisfy the
conditions; show the selected columns of each, and drop what was shown before.
`Query.rows` is this meaning. It mentions no cursor and no target table, only the rows of
one combination, in the order of the sources.

`Query.answer_eq` says that the answer of a query is its meaning. What has to be assumed is
what reading a query makes sure of (`Query.IsBound`): there are one or two sources, every
column is one of its source, and there is a title for each column to show. A query like
that always has an answer.
-/

set_option autoImplicit false

namespace FlatQuery

/-! ## 1. Values in a combination of rows -/

section Values

variable {n m : Nat}

/-- The value of a column in a combination of rows, one row of each cursor's table. -/
def BoundColumn.valueIn (c : BoundColumn m) (rows : List Row) : Option String :=
  rows[c.cursor.val]?.bind (signedGet? · c.index)

/-- The value of one side of a condition in a combination of rows. -/
def Operand.valueIn (o : Operand m) (rows : List Row) : Option String :=
  match o with
  | .column c => c.valueIn rows
  | .literal text => some text

/-- Whether a condition holds in a combination of rows. -/
def Condition.holdsIn (c : Condition m) (rows : List Row) : Bool :=
  match c.left.valueIn rows, c.right.valueIn rows with
  | some x, some y => c.relation.holds (compareText x y)
  | _, _ => false

/-- Whether a column is one of its cursor's table. -/
def BoundColumn.IsBound (w : Workspace n m) (c : BoundColumn m) : Prop :=
  -((w.tableUnder c.cursor).titles.length : Int) ≤ c.index ∧
    c.index < (w.tableUnder c.cursor).titles.length

/-- Whether the columns of a condition are. -/
def Condition.IsBound (w : Workspace n m) (c : Condition m) : Prop :=
  c.left.IsBound w ∧ ∀ d, c.right = .column d → d.IsBound w

/-- Whether the cursors of a workspace stand on the rows of a combination. -/
def Workspace.StandsOn (w : Workspace n m) (rows : List Row) : Prop :=
  ∀ c : Fin m, ∃ r, w.row? c = some r ∧ rows[c.val]? = some r

/-- A row under a cursor is as wide as the cursor's table. -/
theorem Workspace.length_of_row? {w : Workspace n m} {c : Fin m} {r : Row}
    (h : w.row? c = some r) : r.length = (w.tableUnder c).titles.length := by
  rw [row?, ← Table.getElem?_rows] at h
  exact Table.rows_width _ r (List.mem_of_getElem? h)

variable {w : Workspace n m} {rows : List Row}

/-- A column that is bound has a value in the rows that the cursors stand on. -/
theorem BoundColumn.value_of_standsOn {c : BoundColumn m} (hw : w.StandsOn rows)
    (hc : c.IsBound w) : ∃ x, c.value w = .ok x ∧ c.valueIn rows = some x := by
  obtain ⟨r, hr, hrows⟩ := hw c.cursor
  obtain ⟨x, hx⟩ : ∃ x, signedGet? r c.index = some x := by
    rw [← Option.isSome_iff_exists, signedGet?_isSome, Workspace.length_of_row? hr]
    exact hc
  refine ⟨x, ?_, ?_⟩
  · rw [value, Workspace.value, hr]
    dsimp only
    rw [Row.field, hx]
  · rw [valueIn, hrows]
    exact hx

/-- A condition whose columns are bound is tested on those rows, without error. -/
theorem Condition.test_of_standsOn {c : Condition m} (hw : w.StandsOn rows)
    (hc : c.IsBound w) : c.test w = .ok (c.holdsIn rows) := by
  obtain ⟨x, hx, hx'⟩ := BoundColumn.value_of_standsOn hw hc.1
  have hright : ∃ y, c.right.value w = .ok y ∧ c.right.valueIn rows = some y := by
    rcases hr : c.right with d | text
    · exact BoundColumn.value_of_standsOn hw (hc.2 d hr)
    · exact ⟨text, rfl, rfl⟩
  obtain ⟨y, hy, hy'⟩ := hright
  rw [test, hx, hy, holdsIn, hx', hy']
  rfl

/-- So are several conditions, and all of them have to hold. -/
theorem Condition.satisfied_of_standsOn {cs : List (Condition m)} (hw : w.StandsOn rows)
    (hcs : ∀ c ∈ cs, c.IsBound w) : satisfied w cs = .ok (cs.all (·.holdsIn rows)) := by
  unfold satisfied
  induction cs with
  | nil => rfl
  | cons c cs ih =>
    rw [List.allM, test_of_standsOn hw (hcs c (List.mem_cons_self ..)), List.all_cons]
    rcases c.holdsIn rows with _ | _
    · rfl
    · exact ih fun d hd => hcs d (List.mem_cons_of_mem c hd)

/-- Columns that are bound show a row, which is as long as there are columns. -/
theorem BoundColumn.mapM_value_of_standsOn {cs : List (BoundColumn m)} (hw : w.StandsOn rows)
    (hcs : ∀ c ∈ cs, c.IsBound w) :
    ∃ r, cs.mapM (·.value w) = .ok r ∧ cs.mapM (·.valueIn rows) = some r ∧
      r.length = cs.length := by
  induction cs with
  | nil => exact ⟨[], rfl, rfl, rfl⟩
  | cons c cs ih =>
    obtain ⟨x, hx, hx'⟩ := value_of_standsOn hw (hcs c (List.mem_cons_self ..))
    obtain ⟨r, hr, hr', hlen⟩ := ih fun d hd => hcs d (List.mem_cons_of_mem c hd)
    refine ⟨x :: r, ?_, ?_, congrArg _ hlen⟩
    · rw [List.mapM_cons, hx, hr]
      rfl
    · rw [List.mapM_cons, hx', hr']
      rfl

end Values

/-! ## 2. The meaning of a query -/

namespace Query

/-- The combinations of rows of some tables. The rows of the last table come fastest. -/
def combinations : List Table → List (List Row)
  | [] => [[]]
  | t :: ts => t.rows.flatMap fun r => (combinations ts).map (r :: ·)

/-- What a query shows of a combination of rows, if it keeps it. -/
def shown? (q : Query) (rows : List Row) : Option Row :=
  if q.conditions.all (·.holdsIn rows) then q.columns.mapM (·.valueIn rows) else none

/-- The rows of the answer. -/
def rows (q : Query) : List Row := ((combinations q.sources).filterMap q.shown?).eraseDups

/-- Whether a query can be answered: its columns are those of its one or two sources, and
the table to fill has no rows and a title for each column to show. -/
structure IsBound (q : Query) : Prop where
  sources_pos : 0 < q.sources.length
  sources_le : q.sources.length ≤ Workspace.maxSources
  columns : ∀ c ∈ q.columns, c.IsBound (Workspace.ofTables q.sources)
  conditions : ∀ c ∈ q.conditions, c.IsBound (Workspace.ofTables q.sources)
  titles : q.result.titles.length = q.columns.length
  empty : q.result.rows = []

/-! ## 3. The workspace of a query -/

/-- The cursors of a query stand on the first rows of its sources, each on one. -/
theorem cursor_workspace (q : Query) (c : Fin q.sources.length) :
    q.workspace.cursor c = ⟨c.castSucc, 0⟩ := by
  simp [workspace, Workspace.addTable, Workspace.ofTables, Workspace.cursor]

/-- The result is the last table of a query's workspace. -/
theorem table_workspace_last (q : Query) : q.workspace.table (Fin.last _) = q.result := by
  simp [workspace, Workspace.addTable, Workspace.table]

/-- The table under a cursor of a query is a source. -/
theorem tableUnder_workspace (q : Query) (c : Fin q.sources.length) :
    q.workspace.tableUnder c = q.sources.get c := by
  rw [Workspace.tableUnder, cursor_workspace]
  simp [workspace, Workspace.addTable, Workspace.ofTables, Workspace.table]

/-- What is bound among the sources is bound in the workspace, and stays so. -/
theorem isBound_of_grows {q : Query} {s : Selection (q.sources.length + 1) q.sources.length}
    (hs : s.target = Fin.last _) {w : Workspace (q.sources.length + 1) q.sources.length}
    (hw : s.Grows q.workspace w) {c : BoundColumn q.sources.length}
    (hc : c.IsBound (Workspace.ofTables q.sources)) : c.IsBound w := by
  have hne : (q.workspace.cursor c.cursor).table ≠ s.target := by
    rw [cursor_workspace, hs]
    exact Fin.ne_of_lt (Fin.castSucc_lt_last _)
  rw [BoundColumn.IsBound, hw.tableUnder hne, tableUnder_workspace, ← ColumnRef.tableUnder_ofTables]
  exact hc

/-- At a combination of rows the candidate of a sweep is what the query shows of it. -/
theorem candidate_eq {q : Query} (h : q.IsBound)
    {s : Selection (q.sources.length + 1) q.sources.length} (hs : s.target = Fin.last _)
    (hcolumns : s.columns = q.columns) (hconditions : s.conditions = q.conditions)
    {w : Workspace (q.sources.length + 1) q.sources.length} (hw : s.Grows q.workspace w)
    {rows : List Row} (hrows : w.StandsOn rows) : s.candidate w = .ok (q.shown? rows) := by
  have hsatisfied : Condition.satisfied w q.conditions =
      .ok (q.conditions.all (·.holdsIn rows)) := by
    refine Condition.satisfied_of_standsOn hrows fun c hc => ⟨?_, fun d hd => ?_⟩
    · exact isBound_of_grows hs hw (h.conditions c hc).1
    · exact isBound_of_grows hs hw ((h.conditions c hc).2 d hd)
  obtain ⟨r, hr, hr', -⟩ := BoundColumn.mapM_value_of_standsOn hrows fun c hc =>
    isBound_of_grows hs hw (h.columns c hc)
  rw [Selection.candidate, Selection.project, hconditions, hcolumns, hsatisfied, hr, shown?, hr']
  rcases q.conditions.all (·.holdsIn rows) with _ | _
  · rfl
  · rfl

/-- A row that is shown has a value for each column. -/
theorem length_of_shown? {q : Query} {rows : List Row} {r : Row} (h : q.shown? rows = some r) :
    r.length = q.columns.length := by
  unfold shown? at h
  split at h
  · generalize q.columns = cs at h
    induction cs generalizing r with
    | nil =>
      injection h with h
      rw [← h]
      rfl
    | cons c cs ih =>
      rw [List.mapM_cons] at h
      rcases hx : c.valueIn rows with _ | x <;> rw [hx] at h
      · simp at h
      · rcases hr : cs.mapM (·.valueIn rows) with _ | r' <;> rw [hr] at h ih
        · simp at h
        · injection h with h
          rw [← h]
          exact congrArg Nat.succ (ih rfl)
  · simp at h

/-! ## 4. The answer -/

/-- A row that is there is the one that stands in for it. -/
theorem getElem?_eq_getD {rows : List Row} {i : Nat} (h : i < rows.length) :
    rows[i]? = some (rows.getD i []) := by
  rw [List.getD_eq_getElem?_getD, List.getElem?_eq_getElem h]
  rfl

/-- Counting through rows is going through them. -/
theorem map_getD_range' (rows : List Row) :
    (List.range' 0 rows.length).map (fun i => rows.getD i []) = rows := by
  refine List.ext_getElem? fun i => ?_
  by_cases h : i < rows.length
  · rw [List.getElem?_map, List.getElem?_range' h, getElem?_eq_getD h]
    simp
  · rw [List.getElem?_eq_none (by simpa using h), List.getElem?_eq_none (by simpa using h)]

theorem combinations_singleton (t : Table) : combinations [t] = t.rows.map fun r => [r] :=
  List.map_eq_flatMap.symm

/-- The places of one table are its combinations. -/
theorem map_combinations_one (t : Table) :
    ((List.range' 0 t.rows.length).map fun i => (i, 0)).map
      (fun p : Nat × Nat => [t.rows.getD p.1 []]) = combinations [t] := by
  rw [combinations_singleton, ← congrArg (List.map fun r => [r]) (map_getD_range' t.rows),
    List.map_map, List.map_map]
  rfl

/-- The places of a grid are the combinations of two tables. -/
theorem map_combinations_two (t u : Table) :
    (Selection.grid 0 t.rows.length u.rows.length).map
      (fun p : Nat × Nat => [t.rows.getD p.1 [], u.rows.getD p.2 []]) =
      combinations [t, u] := by
  have hrow : ∀ r : Row, (List.range' 0 u.rows.length).map (fun j => [r, u.rows.getD j []]) =
      (combinations [u]).map (r :: ·) := by
    intro r
    have hmap := congrArg (List.map fun s => [r, s]) (map_getD_range' u.rows)
    rw [List.map_map] at hmap
    rw [combinations_singleton, List.map_map]
    exact hmap
  have htwo : combinations [t, u] =
      ((List.range' 0 t.rows.length).map (fun i => t.rows.getD i [])).flatMap fun r =>
        (combinations [u]).map (r :: ·) := by
    rw [map_getD_range']
    rfl
  rw [htwo, List.flatMap_map, Selection.grid, List.map_flatMap]
  refine List.flatMap_congr fun i _ => ?_
  rw [List.map_map, ← hrow]
  rfl

/-- A cursor that is moved to a place stands on the row there. -/
theorem row?_moveTo {n m : Nat} (w : Workspace n m) (c : Fin m) (p : Nat) :
    (w.moveTo c p).row? c = (w.tableUnder c).rows[p]? := by
  rw [Workspace.row?, Workspace.tableUnder_moveTo, Workspace.cursor_moveTo_self,
    Table.getElem?_rows]

/-- The other cursors stand on the rows that they stood on. -/
theorem row?_moveTo_of_ne {n m : Nat} (w : Workspace n m) {c d : Fin m} (h : d ≠ c) (p : Nat) :
    (w.moveTo c p).row? d = w.row? d := by
  rw [Workspace.row?, Workspace.tableUnder_moveTo, Workspace.cursor_moveTo_of_ne w h]
  rfl

/-- A query's answer is its meaning where the loop that answers it goes through the
combinations of its sources' rows. -/
theorem answer_of_select {q : Query} (h : q.IsBound)
    {s : Selection (q.sources.length + 1) q.sources.length} (hs : s.target = Fin.last _)
    (hcolumns : s.columns = q.columns) (hconditions : s.conditions = q.conditions)
    {ps : List (Nat × Nat)} {f : Nat × Nat → List Row}
    (hselect : q.workspace.select (Fin.last _) q.columns (cursorsOf q.sources) q.conditions =
      s.homed (s.visitAll q.workspace ps))
    (hstands : ∀ w, s.Grows q.workspace w → ∀ p ∈ ps, (s.standAt w p).StandsOn (f p))
    (hps : ps.map f = combinations q.sources) :
    ∃ t, q.answer = .ok t ∧ t.name = q.result.name ∧ t.titles = q.result.titles ∧
      t.rows = q.rows := by
  have hresult : q.workspace.table s.target = q.result := by rw [hs, table_workspace_last]
  obtain ⟨w, hw, hname, htitles, hrows⟩ := Selection.visitAll_collect
    (f := fun p => q.shown? (f p))
    (fun w hw p hp => candidate_eq h hs hcolumns hconditions
      (hw.trans (Selection.grows_standAt s w p)) (hstands w hw p hp))
    (fun p r hr => by rw [hresult, h.titles, length_of_shown? hr])
    (Selection.Grows.refl s q.workspace) rfl
  rw [hresult, hs] at hname htitles hrows
  refine ⟨w.table (Fin.last _), ?_, hname, htitles, ?_⟩
  · rw [answer, hselect, hw, Selection.homed]
    dsimp only
    rw [Selection.table_standAt]
  · rw [hrows, h.empty, List.nil_append, rows, ← hps, List.filterMap_map]
    rfl

/-- A query with one source is answered with the rows that it means. -/
theorem answer_one {result t : Table} {columns : List (BoundColumn [t].length)}
    {conditions : List (Condition [t].length)}
    (h : IsBound ⟨result, [t], columns, conditions⟩) :
    ∃ u, answer ⟨result, [t], columns, conditions⟩ = .ok u ∧ u.name = result.name ∧
      u.titles = result.titles ∧ u.rows = rows ⟨result, [t], columns, conditions⟩ := by
  let q : Query := ⟨result, [t], columns, conditions⟩
  let s : Selection 2 1 := ⟨Fin.last 1, columns, conditions, 0, none⟩
  have hne : (q.workspace.cursor 0).table ≠ s.target := by
    rw [cursor_workspace q]
    exact Fin.ne_of_lt (Fin.castSucc_lt_last _)
  have hunder : q.workspace.tableUnder 0 = t := tableUnder_workspace q 0
  have hapart : s.Apart q.workspace := ⟨hne, by simp [s], by simp [s]⟩
  -- The cursor stands on its first row, so the selection visits all of them.
  have hhome : s.standAt q.workspace (0, 0) = q.workspace :=
    Workspace.moveTo_of_eq (by rw [cursor_workspace q])
  have hselect := Workspace.select_one hapart hhome
  rw [hunder] at hselect
  refine answer_of_select (q := q) h (s := s) rfl rfl rfl hselect
    (f := fun p => [t.rows.getD p.1 []]) ?_ (map_combinations_one t)
  intro w hw p hp c
  obtain ⟨i, hi, rfl⟩ := List.mem_map.1 hp
  have hlt : i < t.rows.length := by
    rw [List.mem_range'_1, Nat.zero_add] at hi
    exact hi.2
  obtain rfl : c = (0 : Fin 1) := Fin.fin_one_eq_zero c
  refine ⟨t.rows.getD i [], ?_, rfl⟩
  change (w.moveTo 0 i).row? 0 = _
  rw [row?_moveTo, hw.tableUnder hne, hunder, getElem?_eq_getD hlt]

/-- A query with two sources is answered with the rows that it means. -/
theorem answer_two {result t u : Table} {columns : List (BoundColumn [t, u].length)}
    {conditions : List (Condition [t, u].length)}
    (h : IsBound ⟨result, [t, u], columns, conditions⟩) :
    ∃ v, answer ⟨result, [t, u], columns, conditions⟩ = .ok v ∧ v.name = result.name ∧
      v.titles = result.titles ∧ v.rows = rows ⟨result, [t, u], columns, conditions⟩ := by
  let q : Query := ⟨result, [t, u], columns, conditions⟩
  let s : Selection 3 2 := ⟨Fin.last 2, columns, conditions, 0, some 1⟩
  -- The result is the last of the tables, and no cursor is over it.
  have hne : ∀ c, (q.workspace.cursor c).table ≠ s.target := by
    intro c
    rw [cursor_workspace q]
    exact Fin.ne_of_lt (Fin.castSucc_lt_last _)
  have hunder : q.workspace.tableUnder 0 = t := tableUnder_workspace q 0
  have hunder' : q.workspace.tableUnder 1 = u := tableUnder_workspace q 1
  -- The two cursors are over sources, and differ.
  have hapart : s.Apart q.workspace := by
    refine ⟨hne 0, fun d _ => hne d, fun d hd => ?_⟩
    injection hd with hd
    rw [← hd]
    exact Fin.zero_ne_one
  -- Both cursors stand on their first rows.
  have hhome : s.standAt q.workspace (0, 0) = q.workspace := by
    have hzero : q.workspace.moveTo 0 0 = q.workspace :=
      Workspace.moveTo_of_eq (by rw [cursor_workspace q])
    change (q.workspace.moveTo 0 0).moveTo 1 0 = _
    rw [hzero]
    exact Workspace.moveTo_of_eq (by rw [cursor_workspace q])
  have hselect := Workspace.select_two hapart hhome
  rw [hunder, hunder'] at hselect
  refine answer_of_select (q := q) h (s := s) rfl rfl rfl hselect
    (f := fun p => [t.rows.getD p.1 [], u.rows.getD p.2 []]) ?_ (map_combinations_two t u)
  intro w hw p hp c
  obtain ⟨i, j, hi, hj, rfl⟩ := Selection.mem_grid hp
  -- Moving the second cursor does not take the first off its row.
  have hrow : ((w.moveTo 0 i).moveTo 1 j).row? 0 = some (t.rows.getD i []) := by
    rw [row?_moveTo_of_ne _ Fin.zero_ne_one, row?_moveTo, hw.tableUnder (hne 0), hunder]
    exact getElem?_eq_getD hi
  have hrow' : ((w.moveTo 0 i).moveTo 1 j).row? 1 = some (u.rows.getD j []) := by
    rw [row?_moveTo, Workspace.tableUnder_moveTo, hw.tableUnder (hne 1), hunder']
    exact getElem?_eq_getD hj
  rcases Fin.exists_fin_two.1 ⟨(c : Fin 2), rfl⟩ with hc | hc
  · rw [hc]
    exact ⟨_, hrow, rfl⟩
  · rw [hc]
    exact ⟨_, hrow', rfl⟩

/-- **The answer of a query is its meaning.** -/
theorem answer_eq {q : Query} (h : q.IsBound) :
    ∃ t, q.answer = .ok t ∧ t.name = q.result.name ∧ t.titles = q.result.titles ∧
      t.rows = q.rows := by
  obtain ⟨result, sources, columns, conditions⟩ := q
  rcases sources with _ | ⟨t, _ | ⟨u, _ | ⟨v, ts⟩⟩⟩
  · exact absurd h.sources_pos (Nat.lt_irrefl 0)
  · exact answer_one h
  · exact answer_two h
  · exact absurd h.sources_le (by simp [Workspace.maxSources])

end Query

end FlatQuery
