import FlatQuery.Proofs.Decoding

/-!
# Adding rows one after the other

A table is made from titles, and then rows are added to it, some of which are there already and
some of which do not fit. The table keeps going: what does not fit is refused and changes nothing,
what is there already changes nothing either, and everything else comes last. So at every moment
its rows are the fitting ones among those offered so far, each where it came first.

What one addition does is said once (`Workspace.addRow_cases`), and a sequence of them is followed
in a workspace (`Workspace.addEach`), where it shows that no other table and no cursor is touched.
The outcomes need no induction of their own: what the addition at some place comes to is what it
comes to behind the additions in front of it (`Workspace.getElem?_addEach`).

A table holds its rows twice, in order and in an index, and only the index is asked whether a row
is there. That it gives the answer of the list is part of the statement.
-/

set_option autoImplicit false

namespace FlatQuery

namespace Workspace

variable {n m : Nat}

/-! ## 1. One row -/

theorem setTable_setTable (w : Workspace n m) (t : Fin n) (u v : Table) :
    (w.setTable t u).setTable t v = w.setTable t v := by
  simp [setTable]

theorem setTable_table (w : Workspace n m) (t : Fin n) : w.setTable t (w.table t) = w := by
  simp [setTable, table]

/-- What adding a row comes to: a row that does not fit is refused and changes nothing, and any
other is put into the table, which knows whether it is new. -/
theorem addRow_cases (w : Workspace n m) (t : Fin n) (row : Row) :
    (row.length ≠ (w.table t).titles.length ∧
      w.addRow t row = (w, .error ((w.table t).widthError row))) ∨
    ∃ width : row.length = (w.table t).titles.length,
      w.addRow t row = (w.setTable t ((w.table t).insert row width),
        .ok (decide (row ∉ (w.table t).rows))) := by
  unfold addRow
  by_cases hwidth : row.length = (w.table t).titles.length
  · rw [dif_pos hwidth, insertRow_eq]
    have hnew : (!(w.table t).holds row) = decide (row ∉ (w.table t).rows) := by
      rw [Bool.eq_iff_iff, Bool.not_eq_true', ← Bool.not_eq_true, Table.holds_iff,
        decide_eq_true_iff]
    exact .inr ⟨hwidth, by rw [hnew]⟩
  · rw [dif_neg hwidth]
    exact .inl ⟨hwidth, rfl⟩

/-! ## 2. Several rows -/

/-- Adds rows to a table one after the other, also behind one that is refused, and tells what
each of them came to. -/
def addEach (w : Workspace n m) (t : Fin n) : List Row → Workspace n m × List (Except Error Bool)
  | [] => (w, [])
  | row :: rows =>
    let r := w.addRow t row
    let rest := r.1.addEach t rows
    (rest.1, r.2 :: rest.2)

theorem addEach_append (w : Workspace n m) (t : Fin n) (xs ys : List Row) :
    w.addEach t (xs ++ ys) =
      (((w.addEach t xs).1.addEach t ys).1,
        (w.addEach t xs).2 ++ ((w.addEach t xs).1.addEach t ys).2) := by
  induction xs generalizing w with
  | nil => rfl
  | cons x xs ih =>
    rw [List.cons_append, addEach, ih]
    rfl

theorem length_addEach (w : Workspace n m) (t : Fin n) (rows : List Row) :
    (w.addEach t rows).2.length = rows.length := by
  induction rows generalizing w with
  | nil => rfl
  | cons row rows ih => exact congrArg Nat.succ (ih _)

/-- An addition comes to what it comes to behind those in front of it. -/
theorem getElem?_addEach (w : Workspace n m) (t : Fin n) {rows : List Row} {k : Nat} {row : Row}
    (h : rows[k]? = some row) :
    (w.addEach t rows).2[k]? = some ((w.addEach t (rows.take k)).1.addRow t row).2 := by
  obtain ⟨hlt, hrow⟩ := List.getElem?_eq_some_iff.1 h
  have hsplit : rows = rows.take k ++ row :: rows.drop (k + 1) := by
    rw [← hrow, List.cons_getElem_drop_succ, List.take_append_drop]
  have hlength : (w.addEach t (rows.take k)).2.length = k := by
    rw [length_addEach, List.length_take]
    omega
  conv_lhs => rw [hsplit, addEach_append]
  dsimp only
  rw [List.getElem?_append_right (Nat.le_of_eq hlength), hlength, Nat.sub_self]
  rfl

theorem addEach_take_succ (w : Workspace n m) (t : Fin n) {rows : List Row} {k : Nat} {row : Row}
    (h : rows[k]? = some row) :
    (w.addEach t (rows.take (k + 1))).1 = ((w.addEach t (rows.take k)).1.addRow t row).1 := by
  rw [List.take_add_one, h, addEach_append]
  rfl

/-- **What was offered and fits is there, each row where it came first**, and nothing else of the
workspace has changed. -/
theorem exists_addEach (w : Workspace n m) (t : Fin n) (rows : List Row) :
    ∃ u, (w.addEach t rows).1 = w.setTable t u ∧ u.name = (w.table t).name ∧
      u.titles = (w.table t).titles ∧
      u.rows = ((w.table t).rows ++
        rows.filter (·.length = (w.table t).titles.length)).eraseDups := by
  induction rows generalizing w with
  | nil =>
    refine ⟨w.table t, (setTable_table w t).symm, rfl, rfl, ?_⟩
    rw [List.filter_nil, List.append_nil, eraseDups_of_nodup (Table.rows_nodup _)]
  | cons row rows ih =>
    rw [addEach]
    rcases addRow_cases w t row with ⟨hwidth, hadd⟩ | ⟨hwidth, hadd⟩
    · rw [hadd, List.filter_cons_of_neg (by simpa using hwidth)]
      exact ih w
    · obtain ⟨u, hu, hname, htitles, hrows⟩ := ih (w.addRow t row).1
      rw [hadd] at hu hname htitles hrows ⊢
      rw [table_setTable_self] at hname htitles hrows
      rw [setTable_setTable] at hu
      refine ⟨u, hu, hname, htitles, ?_⟩
      rw [hrows, Table.insert_titles, Table.insert_rows, eraseDups_append_cons,
        List.filter_cons_of_pos (by simpa using hwidth)]

end Workspace

/-! ## 3. A table from its titles on -/

namespace Table

/-- A row is found where some row of the list has the same number of fields and the same field
at each number. -/
theorem holds_iff_fields {t : Table} {row : Row} :
    t.holds row = true ↔ ∃ x ∈ t.rows, x.length = row.length ∧ ∀ k : Nat, x[k]? = row[k]? := by
  rw [holds_iff]
  constructor
  · exact fun h => ⟨row, h, rfl, fun _ => rfl⟩
  · rintro ⟨x, hx, -, hfields⟩
    rw [← List.ext_getElem? hfields]
    exact hx

/-- **A table is a set in order of arrival, under whatever is added to it.** No table is made
where a title repeats, and the first title that equals an earlier one is told. From any other
titles a table is made, and in whatever workspace it stands and whatever rows are added: at every
moment its rows are those of the right width among the rows offered so far, each where it came
first; the index finds a row where the list has one with the same fields; an addition says
whether its row was not there before, or is refused for its width and changes nothing. -/
theorem adds_keep_first (name : String) (titles : List String) :
    ((∃ t, FirstRepeat titles t) ↔ ¬ titles.Nodup) ∧
    (∀ text, (∃ e, withTitles name titles = .error e ∧ e.message = text) ↔
      ∃ t, FirstRepeat titles t ∧ text = s!"duplicate column name: {t}") ∧
    (titles.Nodup → ∃ t, withTitles name titles = .ok t ∧
      ∀ {n m : Nat} (w : Workspace n m) (i : Fin n) (rows : List Row),
        let start := w.setTable i t
        let after := fun k => (start.addEach i (rows.take k)).1
        let outcomes := (start.addEach i rows).2
        outcomes.length = rows.length ∧
        (∀ k, ∃ u, after k = w.setTable i u ∧ u.name = name ∧ u.titles = titles ∧
          u.rows = ((rows.take k).filter (·.length = titles.length)).eraseDups ∧
          ∀ row, u.holds row = true ↔
            ∃ x ∈ u.rows, x.length = row.length ∧ ∀ j : Nat, x[j]? = row[j]?) ∧
        ∀ k row, rows[k]? = some row →
          if row.length = titles.length then
            outcomes[k]? = some (.ok (decide (row ∉ ((after k).table i).rows)))
          else
            outcomes[k]? = some (.error (.rowWidth row.length name titles.length)) ∧
              after (k + 1) = after k) := by
  -- A construction fails by a repeated title and by nothing else.
  have hrepeat : (∃ t, FirstRepeat titles t) ↔ ¬ titles.Nodup := by
    rw [← @withTitles_isOk_iff name titles]
    constructor
    · rintro ⟨t, ht⟩ ⟨u, hu⟩
      rw [withTitles_eq_error_iff.2 ⟨t, ht, rfl⟩] at hu
      cases hu
    · intro hnone
      rcases h : withTitles name titles with e | u
      · obtain ⟨t, ht, -⟩ := withTitles_eq_error_iff.1 h
        exact ⟨t, ht⟩
      · exact absurd ⟨u, h⟩ hnone
  refine ⟨hrepeat, fun text => ?_, fun hnodup => ?_⟩
  · simp only [withTitles_eq_error_iff]
    constructor
    · rintro ⟨_, ⟨t, ht, rfl⟩, rfl⟩
      exact ⟨t, ht, rfl⟩
    · rintro ⟨t, ht, rfl⟩
      exact ⟨_, ⟨t, ht, rfl⟩, rfl⟩
  · obtain ⟨t, ht⟩ := (@withTitles_isOk_iff name titles).2 hnodup
    obtain ⟨hname, htitles, hempty⟩ := withTitles_spec ht
    refine ⟨t, ht, fun w i rows => ?_⟩
    intro start after outcomes
    -- At every moment the table holds the first occurrences of what was added and fits.
    have hmoment : ∀ k, ∃ u, after k = w.setTable i u ∧ u.name = name ∧ u.titles = titles ∧
        u.rows = ((rows.take k).filter (·.length = titles.length)).eraseDups := by
      intro k
      obtain ⟨u, hu, huname, hutitles, hurows⟩ := start.exists_addEach i (rows.take k)
      rw [Workspace.table_setTable_self] at huname hutitles hurows
      rw [hempty, List.nil_append, htitles] at hurows
      rw [Workspace.setTable_setTable] at hu
      exact ⟨u, hu, huname.trans hname, hutitles.trans htitles, hurows⟩
    refine ⟨start.length_addEach i rows, fun k => ?_, fun k row hk => ?_⟩
    · obtain ⟨u, hu, huname, hutitles, hurows⟩ := hmoment k
      exact ⟨u, hu, huname, hutitles, hurows, fun row => holds_iff_fields⟩
    · obtain ⟨u, hu, huname, hutitles, -⟩ := hmoment k
      have htable : (after k).table i = u := by
        rw [hu, Workspace.table_setTable_self]
      have houtcome : outcomes[k]? = some ((after k).addRow i row).2 :=
        start.getElem?_addEach i hk
      -- What an addition gives is said of the table as it is at that moment.
      have hnext : after (k + 1) = ((after k).addRow i row).1 := start.addEach_take_succ i hk
      rw [houtcome, hnext]
      rcases Workspace.addRow_cases (after k) i row with ⟨hwidth, hadd⟩ | ⟨hwidth, hadd⟩
      · rw [htable, hutitles] at hwidth
        rw [if_neg hwidth, hadd, htable, widthError, huname, hutitles]
        exact ⟨rfl, rfl⟩
      · rw [htable, hutitles] at hwidth
        rw [if_pos hwidth, hadd]

/-- Two rows whose fields join to the same text are two rows, a row too wide is refused, and a row
that comes again is not new. -/
theorem adds_keep_first_alike :
    let rows : List Row := [["xy", ""], ["x", "y"], ["x"], ["xy", ""]]
    ∃ t, withTitles "t" ["a", "b"] = .ok t ∧
      let r := (Workspace.ofTables [t]).addEach 0 rows
      r.2[1]? = some (.ok true) ∧ r.2[2]? = some (.error (.rowWidth 1 "t" 2)) ∧
        r.2[3]? = some (.ok false) ∧ (r.1.table 0).rows = [["xy", ""], ["x", "y"]] := by
  intro rows
  obtain ⟨t, ht, hadds⟩ := (adds_keep_first "t" ["a", "b"]).2.2 (by decide)
  refine ⟨t, ht, ?_⟩
  intro r
  -- The table is in the workspace already.
  have hsame : (Workspace.ofTables [t]).setTable 0 t = Workspace.ofTables [t] :=
    (Workspace.ofTables [t]).setTable_table 0
  obtain ⟨-, hmoments, houtcomes⟩ := hadds (Workspace.ofTables [t]) 0 rows
  dsimp only at hmoments houtcomes
  rw [hsame] at hmoments houtcomes
  have hrows : ∀ k, (((Workspace.ofTables [t]).addEach 0 (rows.take k)).1.table 0).rows =
      ((rows.take k).filter (·.length = 2)).eraseDups := by
    intro k
    obtain ⟨u, hu, -, -, hrows, -⟩ := hmoments k
    rw [hu, Workspace.table_setTable_self]
    exact hrows
  have hfirst := houtcomes 1 ["x", "y"] rfl
  have hlast := houtcomes 3 ["xy", ""] rfl
  rw [if_pos (by decide), hrows] at hfirst hlast
  have hnarrow := houtcomes 2 ["x"] rfl
  rw [if_neg (by decide)] at hnarrow
  exact ⟨hfirst, hnarrow.1, hlast, hrows 4⟩

end Table

end FlatQuery
