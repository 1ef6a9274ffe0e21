import FlatQuery.Proofs.Selecting

/-!
# What a selection visits, and what it leaves

A selection from wherever its cursors stand is a loop over the combinations from there on
(`Selection.visits`), and here is what that loop comes to, in words that do not mention it. A
combination is looked at in the workspace as it was, with the listed cursors at the combination
and with the target as it is by then (`Selection.during`): nothing else has changed. There the
conditions are looked at up to the first that does not hold, then the columns, then the width
of the row, and each of them may fail. `Collects` says of combinations that none fails and
which rows come of them, `Fails` that one fails and how.

Which combinations are visited is known beforehand, but not what they come to: a condition may
speak of a cursor that is not listed and stands on the target, so a row that was gained can be
what a later combination is compared with. That is why the target is followed from one
combination to the next.

However a sweep ends, the workspace it leaves is the one it began with, with the listed cursors
on their first rows and the target as it is by then (`Selection.exists_select`).
-/

set_option autoImplicit false

namespace FlatQuery

/-! ## 1. Evaluation up to the first that stops it -/

/-- A list of evaluations fails where the first of them fails. -/
theorem mapM_eq_error {α β : Type} {f : α → Except Error β} {xs : List α} {e : Error}
    (h : xs.mapM f = .error e) :
    ∃ before x after, xs = before ++ x :: after ∧ (∀ b ∈ before, ∃ y, f b = .ok y) ∧
      f x = .error e := by
  induction xs with
  | nil => cases h
  | cons x xs ih =>
    rw [List.mapM_cons] at h
    rcases hx : f x with d | y <;> rw [hx] at h
    · injection h with h
      exact ⟨[], x, xs, rfl, fun b hb => absurd hb List.not_mem_nil, h ▸ hx⟩
    · rcases hxs : xs.mapM f with d | ys <;> rw [hxs] at h
      · injection h with h
        obtain ⟨before, z, after, rfl, hbefore, hz⟩ := ih (h ▸ hxs)
        exact ⟨x :: before, z, after, rfl, List.forall_mem_cons.2 ⟨⟨y, hx⟩, hbefore⟩, hz⟩
      · cases h

/-- A list of tests comes to what the first of them does that does not hold. -/
theorem allM_cases {α : Type} (f : α → Except Error Bool) (xs : List α) :
    (xs.allM f = .ok true ∧ ∀ x ∈ xs, f x = .ok true) ∨
    ∃ before x after, xs = before ++ x :: after ∧ (∀ b ∈ before, f b = .ok true) ∧
      f x = xs.allM f ∧ f x ≠ .ok true := by
  induction xs with
  | nil => exact .inl ⟨rfl, fun x hx => absurd hx List.not_mem_nil⟩
  | cons x xs ih =>
    rw [List.allM]
    by_cases hx : f x = .ok true
    · rw [hx]
      change (xs.allM f = _ ∧ _) ∨ ∃ before y after, _ ∧ _ ∧ f y = xs.allM f ∧ _
      rcases ih with ⟨hxs, hall⟩ | ⟨before, y, after, hsplit, hbefore, hy⟩
      · exact .inl ⟨hxs, List.forall_mem_cons.2 ⟨hx, hall⟩⟩
      · exact .inr ⟨x :: before, y, after, congrArg (x :: ·) hsplit,
          List.forall_mem_cons.2 ⟨hx, hbefore⟩, hy⟩
    · refine .inr ⟨[], x, xs, rfl, fun b hb => absurd hb List.not_mem_nil, ?_, hx⟩
      rcases hr : f x with e | _ | _
      · rfl
      · rfl
      · exact absurd hr hx

namespace Selection

variable {n m : Nat} (s : Selection n m)

/-- Whether all conditions hold. -/
def Holds (w : Workspace n m) : Prop := ∀ c ∈ s.conditions, c.test w = .ok true

/-- Whether a condition is reached that comes to something, because those before it hold. Those
behind it do not matter. -/
def Reaches (w : Workspace n m) (r : Except Error Bool) : Prop :=
  ∃ before c after, s.conditions = before ++ c :: after ∧
    (∀ b ∈ before, b.test w = .ok true) ∧ c.test w = r

/-- Whether a row has the values of the columns. -/
def Shows (w : Workspace n m) (row : Row) : Prop :=
  List.Forall₂ (fun c x => c.value w = .ok x) s.columns row

/-- Whether a column has no value, and those before it have one. -/
def Lacks (w : Workspace n m) (e : Error) : Prop :=
  ∃ before c after, s.columns = before ++ c :: after ∧
    (∀ b ∈ before, ∃ x, b.value w = .ok x) ∧ c.value w = .error e

/-- What a combination comes to: nothing, a row, or an error. -/
theorem candidate_cases (w : Workspace n m) :
    (s.candidate w = .ok none ∧ s.Reaches w (.ok false)) ∨
    (∃ row, s.candidate w = .ok (some row) ∧ s.Holds w ∧ s.Shows w row) ∨
    ∃ e, s.candidate w = .error e ∧ (s.Reaches w (.error e) ∨ s.Holds w ∧ s.Lacks w e) := by
  unfold candidate Condition.satisfied
  rcases allM_cases (·.test w) s.conditions with
    ⟨hall, hholds⟩ | ⟨before, c, after, hsplit, hbefore, hc, hne⟩
  · rw [hall]
    rcases hrow : s.project w with e | row
    · exact .inr (.inr ⟨e, rfl, .inr ⟨hholds, mapM_eq_error hrow⟩⟩)
    · exact .inr (.inl ⟨row, rfl, hholds, Statement.mapM_eq_ok_iff.1 hrow⟩)
  · rw [← hc]
    rcases hr : c.test w with e | _ | _
    · exact .inr (.inr ⟨e, rfl, .inl ⟨before, c, after, hsplit, hbefore, hr⟩⟩)
    · exact .inl ⟨rfl, before, c, after, hsplit, hbefore, hr⟩
    · exact absurd hr hne

/-! ## 2. What combinations come to -/

/-- The workspace with the listed cursors at a combination, and with a table as target. -/
def during (w : Workspace n m) (t : Table) (p : Nat × Nat) : Workspace n m :=
  s.standAt (w.setTable s.target t) p

/-- Whether none of some combinations fails. The target is the first table before them and the
last behind them, and these are the rows that were added to it in between, new or not. -/
inductive Collects (w : Workspace n m) :
    Table → List (Nat × Nat) → List Row → Table → Prop where
  | nil (t : Table) : Collects w t [] [] t
  /-- A condition does not hold. -/
  | passed {t u : Table} {p : Nat × Nat} {ps : List (Nat × Nat)} {rows : List Row}
      (reaches : s.Reaches (s.during w t p) (.ok false)) (rest : Collects w t ps rows u) :
      Collects w t (p :: ps) rows u
  /-- The row of the columns' values is added. -/
  | added {t u : Table} {p : Nat × Nat} {ps : List (Nat × Nat)} {row : Row} {rows : List Row}
      (holds : s.Holds (s.during w t p)) (shows : s.Shows (s.during w t p) row)
      (width : row.length = t.titles.length) (rest : Collects w (t.insert row width) ps rows u) :
      Collects w t (p :: ps) (row :: rows) u

/-- Whether a combination fails, and how. -/
inductive Fails (w : Workspace n m) (t : Table) (p : Nat × Nat) : Error → Prop where
  /-- One side of a condition that is reached has no value. -/
  | condition {e : Error} (reaches : s.Reaches (s.during w t p) (.error e)) : Fails w t p e
  /-- The conditions hold, and a column has no value. -/
  | column {e : Error} (holds : s.Holds (s.during w t p)) (lacks : s.Lacks (s.during w t p) e) :
      Fails w t p e
  /-- The conditions hold, and the row does not fit the table. -/
  | width {row : Row} (holds : s.Holds (s.during w t p)) (shows : s.Shows (s.during w t p) row)
      (wide : row.length ≠ t.titles.length) : Fails w t p (t.widthError row)

variable {s} {w : Workspace n m}

/-- What was added comes behind what was there, each row where it comes first. -/
theorem Collects.table_eq {t u : Table} {ps : List (Nat × Nat)} {rows : List Row}
    (h : s.Collects w t ps rows u) :
    u.name = t.name ∧ u.titles = t.titles ∧ u.rows = (t.rows ++ rows).eraseDups := by
  induction h with
  | nil t => exact ⟨rfl, rfl, by rw [List.append_nil, eraseDups_of_nodup t.rows_nodup]⟩
  | passed reaches rest ih => exact ih
  | added holds shows width rest ih =>
    obtain ⟨hname, htitles, hrows⟩ := ih
    rw [Table.insert_rows, eraseDups_append_cons] at hrows
    exact ⟨hname, htitles, hrows⟩

theorem setTable_standAt (w : Workspace n m) (t : Fin n) (u : Table) (p : Nat × Nat) :
    (s.standAt w p).setTable t u = s.standAt (w.setTable t u) p := by
  unfold standAt
  split
  · rfl
  · rfl

/-- Wherever the cursors stood before, they are at the next combination. -/
theorem standAt_during (h : s.Apart w) (t : Table) (p q : Nat × Nat) :
    s.standAt (s.during w t p) q = s.during w t q := by
  have hapart : s.Apart (w.setTable s.target t) := ⟨h.outer_table, h.inner_table, h.distinct⟩
  exact standAt_standAt hapart p q

/-- Whatever the target was before, it is the next table. -/
theorem standAt_setTable_during (h : s.Apart w) (t u : Table) (p q : Nat × Nat) :
    s.standAt ((s.during w t p).setTable s.target u) q = s.during w u q := by
  have hset : (s.during w t p).setTable s.target u = s.during w u p := by
    rw [during, setTable_standAt, during]
    simp [Workspace.setTable]
  rw [hset, standAt_during h]

theorem table_during (w : Workspace n m) (t : Table) (p : Nat × Nat) :
    (s.during w t p).table s.target = t := by
  rw [during, table_standAt, Workspace.table_setTable_self]

/-- One visit: the combination is passed, a row is added, or it fails and nothing changes. -/
theorem visit_during (h : s.Apart w) (t : Table) (p : Nat × Nat) :
    ∃ v e?, s.visit (s.during w t p) = (v, e?) ∧
      ((e? = none ∧ s.Reaches (s.during w t p) (.ok false) ∧
          ∀ q, s.standAt v q = s.during w t q) ∨
        (e? = none ∧ ∃ row, ∃ width : row.length = t.titles.length,
          s.Holds (s.during w t p) ∧ s.Shows (s.during w t p) row ∧
            ∀ q, s.standAt v q = s.during w (t.insert row width) q) ∨
        ∃ e, e? = some e ∧ s.Fails w t p e ∧ ∀ q, s.standAt v q = s.during w t q) := by
  have hstay := standAt_during h t p
  rw [visit_eq]
  rcases s.candidate_cases (s.during w t p) with
    ⟨hnone, hreaches⟩ | ⟨row, hrow, hholds, hshows⟩ | ⟨e, he, hfails⟩
  · rw [hnone]
    exact ⟨_, none, rfl, .inl ⟨rfl, hreaches, hstay⟩⟩
  · rw [hrow]
    dsimp only
    rw [table_during, Table.add]
    by_cases hwidth : row.length = t.titles.length
    · rw [dif_pos hwidth]
      exact ⟨_, none, rfl, .inr (.inl
        ⟨rfl, row, hwidth, hholds, hshows, standAt_setTable_during h t _ p⟩)⟩
    · rw [dif_neg hwidth]
      exact ⟨_, _, rfl, .inr (.inr ⟨_, rfl, .width hholds hshows hwidth, hstay⟩)⟩
  · rw [he]
    refine ⟨_, _, rfl, .inr (.inr ⟨e, rfl, ?_, hstay⟩)⟩
    rcases hfails with hreaches | ⟨hholds, hlacks⟩
    · exact .condition hreaches
    · exact .column hholds hlacks

/-- **The loop collects rows up to the first combination that fails.** -/
theorem visitAll_during (h : s.Apart w) {v : Workspace n m} {t : Table}
    (hv : ∀ p, s.standAt v p = s.during w t p) (ps : List (Nat × Nat)) :
    ∃ rows u, (∀ p, s.standAt (s.visitAll v ps).1 p = s.during w u p) ∧
      match (s.visitAll v ps).2 with
      | none => s.Collects w t ps rows u
      | some e => ∃ before p after, ps = before ++ p :: after ∧
          s.Collects w t before rows u ∧ s.Fails w u p e := by
  induction ps generalizing v t with
  | nil => exact ⟨[], t, hv, .nil t⟩
  | cons p ps ih =>
    -- By what the first visit does: it passes, adds a row, or fails.
    obtain ⟨v', e?, hvisit, hcases⟩ := visit_during h t p
    rw [visitAll, hv p, hvisit]
    rcases hcases with ⟨rfl, hreaches, hv'⟩ | ⟨rfl, row, hwidth, hholds, hshows, hv'⟩ |
      ⟨e, rfl, hfails, hv'⟩
    · obtain ⟨rows, u, hu, hrest⟩ := ih hv'
      refine ⟨rows, u, hu, ?_⟩
      dsimp only
      rcases hend : (s.visitAll v' ps).2 with _ | e <;> rw [hend] at hrest
      · exact .passed hreaches hrest
      · obtain ⟨before, q, after, rfl, hbefore, hfails⟩ := hrest
        exact ⟨p :: before, q, after, rfl, .passed hreaches hbefore, hfails⟩
    · obtain ⟨rows, u, hu, hrest⟩ := ih hv'
      refine ⟨row :: rows, u, hu, ?_⟩
      dsimp only
      rcases hend : (s.visitAll v' ps).2 with _ | e <;> rw [hend] at hrest
      · exact .added hholds hshows hwidth hrest
      · obtain ⟨before, q, after, rfl, hbefore, hfails⟩ := hrest
        exact ⟨p :: before, q, after, rfl, .added hholds hshows hwidth hbefore, hfails⟩
    · exact ⟨[], t, hv', [], p, ps, rfl, .nil t, hfails⟩

end Selection

/-! ## 3. Selections -/

namespace Selection

variable {n m : Nat} {s : Selection n m} {w : Workspace n m}

/-- The cursors that are swept. -/
def listed (s : Selection n m) : List (Fin m) := s.outer :: s.inner?.toList

/-- **However a selection ends, it leaves the workspace it began with**, with the listed cursors
on their first rows and the target as it is by then. -/
theorem exists_select (h : s.Apart w) :
    ∃ rows u e?, w.select s.target s.columns s.listed s.conditions = (s.during w u (0, 0), e?) ∧
      match e? with
      | none => s.Collects w (w.table s.target) (s.visits w) rows u
      | some e => ∃ before p after, s.visits w = before ++ p :: after ∧
          s.Collects w (w.table s.target) before rows u ∧ s.Fails w u p e := by
  have hstart : ∀ p, s.standAt w p = s.during w (w.table s.target) p := by
    intro p
    have hsame : w.setTable s.target (w.table s.target) = w := by
      simp [Workspace.setTable, Workspace.table]
    rw [during, hsame]
  obtain ⟨rows, u, hu, hcases⟩ := visitAll_during h hstart (s.visits w)
  refine ⟨rows, u, (s.visitAll w (s.visits w)).2, ?_, hcases⟩
  rw [listed, Workspace.select_eq s h, homed, hu]

theorem position_standAt (h : s.Apart w) {c : Fin m} (hc : c ∈ s.listed) :
    ((s.standAt w (0, 0)).cursor c).position = 0 := by
  unfold listed at hc
  rcases hi : s.inner? with _ | d
  · rw [hi] at hc
    obtain rfl : c = s.outer := List.mem_singleton.1 hc
    simp only [standAt, hi, Workspace.cursor_moveTo_self]
  · rw [hi] at hc
    simp only [standAt, hi]
    rcases List.mem_pair.1 hc with rfl | rfl
    · rw [Workspace.cursor_moveTo_of_ne _ (h.distinct d hi), Workspace.cursor_moveTo_self]
    · rw [Workspace.cursor_moveTo_self]

theorem cursor_standAt {c : Fin m} (hc : c ∉ s.listed) (p : Nat × Nat) :
    (s.standAt w p).cursor c = w.cursor c := by
  unfold listed at hc
  rcases hi : s.inner? with _ | d
  · rw [hi] at hc
    have houter : c ≠ s.outer := fun heq => hc (List.mem_singleton.2 heq)
    simp only [standAt, hi, Workspace.cursor_moveTo_of_ne _ houter]
  · rw [hi] at hc
    have houter : c ≠ s.outer := fun heq => hc (List.mem_pair.2 (.inl heq))
    have hinner : c ≠ d := fun heq => hc (List.mem_pair.2 (.inr heq))
    simp only [standAt, hi, Workspace.cursor_moveTo_of_ne _ houter,
      Workspace.cursor_moveTo_of_ne _ hinner]

/-- **A selection from any positions, however it ends.** It visits the combinations from where
the listed cursors stand on, in their order. Where none fails, the target gains the rows of the
columns' values where the conditions hold, in the order of the combinations and each of them
once. Where one fails, its error is given, and the target has gained the rows of those before
it. Either way the listed cursors are on their first rows, the others have not moved, and no
other table has changed. -/
theorem select_visits (s : Selection n m) (w : Workspace n m) (h : s.Apart w) :
    let r := w.select s.target s.columns s.listed s.conditions
    let t := r.1.table s.target
    (∃ rows, t.name = (w.table s.target).name ∧ t.titles = (w.table s.target).titles ∧
      t.rows = ((w.table s.target).rows ++ rows).eraseDups ∧
      match r.2 with
      | none => s.Collects w (w.table s.target) (s.visits w) rows t
      | some e => ∃ before p after, s.visits w = before ++ p :: after ∧
          s.Collects w (w.table s.target) before rows t ∧ s.Fails w t p e) ∧
    (∀ c ∈ s.listed, (r.1.cursor c).position = 0) ∧
    (∀ c, c ∉ s.listed → r.1.cursor c = w.cursor c) ∧
    (∀ c, (r.1.cursor c).table = (w.cursor c).table) ∧
    ∀ u, u ≠ s.target → r.1.table u = w.table u := by
  obtain ⟨rows, u, e?, hselect, hcases⟩ := exists_select h
  have hapart : s.Apart (w.setTable s.target u) := ⟨h.outer_table, h.inner_table, h.distinct⟩
  rw [hselect]
  dsimp only
  rw [table_during]
  refine ⟨⟨rows, ?_⟩, fun c hc => ?_, fun c hc => ?_, fun c => ?_, fun v hv => ?_⟩
  · have htable : u.name = (w.table s.target).name ∧ u.titles = (w.table s.target).titles ∧
        u.rows = ((w.table s.target).rows ++ rows).eraseDups := by
      rcases e? with _ | e
      · exact hcases.table_eq
      · obtain ⟨before, p, after, -, hbefore, -⟩ := hcases
        exact hbefore.table_eq
    exact ⟨htable.1, htable.2.1, htable.2.2, hcases⟩
  · exact position_standAt hapart hc
  · exact cursor_standAt hc (0, 0)
  · exact (grows_standAt s (w.setTable s.target u) (0, 0)).cursor_table c
  · rw [during, table_standAt, Workspace.table_setTable_of_ne w hv]

/-- The second cursor stands on its last row. At the first combination the first condition does
not hold, so that the second one, which looks behind the last row of the target, is not reached
before the next combination. -/
theorem select_visits_unreached :
    let w : Workspace 3 3 :=
      (Workspace.ofTables [Table.blank, Session.pairTable, Session.pairTable]).moveTo 2 1
    let s : Selection 3 3 :=
      { target := 0
        columns := [⟨2, 0, "a"⟩]
        conditions := [⟨⟨1, 0, "a"⟩, .equal, .literal "y"⟩, ⟨⟨0, 0, "a"⟩, .equal, .literal "z"⟩]
        outer := 1
        inner? := some 2 }
    let r := w.select 0 s.columns [1, 2] s.conditions
    s.visits w = [(0, 1), (1, 0), (1, 1)] ∧ r.2 = some (.pastLastRow "") ∧
      s.Reaches (s.during w Table.blank (0, 1)) (.ok false) ∧
      (r.1.cursor 2).position = 0 ∧ r.1.cursor 0 = w.cursor 0 := by
  intro w s r
  -- Neither cursor is over the target, and they differ.
  have hapart : s.Apart w := by
    refine ⟨by decide +kernel, ?_, ?_⟩
    · intro d hd
      obtain rfl : 2 = d := Option.some.inj hd
      decide +kernel
    · intro d hd
      obtain rfl : 2 = d := Option.some.inj hd
      decide
  have hvisits : s.visits w = [(0, 1), (1, 0), (1, 1)] := by decide +kernel
  have herror : r.2 = some (.pastLastRow "") := by decide +kernel
  have hfirst : s.Reaches (s.during w Table.blank (0, 1)) (.ok false) :=
    ⟨[], _, _, rfl, fun b hb => absurd hb List.not_mem_nil, by decide +kernel⟩
  obtain ⟨-, hlisted, hothers, -, -⟩ := select_visits s w hapart
  exact ⟨hvisits, herror, hfirst, hlisted 2 (by decide), hothers 0 (by decide)⟩

end Selection

end FlatQuery
