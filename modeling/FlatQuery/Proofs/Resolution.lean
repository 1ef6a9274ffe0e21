import FlatQuery.Query.Basic
import Mathlib.Data.List.Nodup
import Mathlib.Data.List.FinRange
import Mathlib.Logic.ExistsUnique

/-!
# What a reference means

A reference means something among some sources exactly when one of them, and only one,
matches it: the source's name is the reference's, if it gives one, and the source has a
column of the title. `columnOf_isOk_iff` says so, and `columnOf_spec` says what it means
then: the column of that title in that source.
-/

set_option autoImplicit false

namespace FlatQuery

namespace ColumnRef

variable {n m : Nat}

/-- Whether a table has the column of a reference. -/
def Matches (r : ColumnRef) (t : Table) : Prop := r.admits t = true ∧ r.name ∈ t.titles

/-- Whether one source and no other has the column of a reference. -/
def MatchedOnce (sources : List Table) (r : ColumnRef) : Prop :=
  ∃! i : Fin sources.length, r.Matches (sources.get i)

/-! ## 1. One cursor -/

theorem column?_eq_some {t : Table} {title : String} {k : Nat} (h : t.column? title = some k) :
    t.titles[k]? = some title := by
  rw [Table.column?, List.findIdx?_eq_some_iff_getElem] at h
  obtain ⟨hlt, hk, -⟩ := h
  rw [List.getElem?_eq_getElem hlt, of_decide_eq_true hk]

theorem column?_isSome {t : Table} {title : String} :
    (t.column? title).isSome = true ↔ title ∈ t.titles := by
  rw [Table.column?, List.findIdx?_isSome, List.any_eq_true]
  constructor
  · rintro ⟨x, hx, he⟩
    rw [← of_decide_eq_true he]
    exact hx
  · exact fun h => ⟨title, h, decide_eq_true rfl⟩

theorem bind?_isSome {r : ColumnRef} {w : Workspace n m} {c : Fin m} :
    (r.bind? w c).isSome = true ↔ r.Matches (w.tableUnder c) := by
  rw [bind?, Matches, ← column?_isSome]
  split
  · rename_i h
    rw [Option.isSome_map]
    exact (and_iff_right h).symm
  · rename_i h
    exact ⟨fun hn => Bool.noConfusion hn, fun hr => absurd hr.1 h⟩

/-- What a reference is bound to under a cursor. -/
theorem bind?_eq_some {r : ColumnRef} {w : Workspace n m} {c : Fin m} {b : BoundColumn m}
    (h : r.bind? w c = some b) :
    b.cursor = c ∧ ∃ k : Nat, b.index = k ∧ (w.tableUnder c).titles[k]? = some r.name := by
  unfold bind? at h
  split at h
  · obtain ⟨k, hk, rfl⟩ := Option.map_eq_some_iff.1 h
    exact ⟨rfl, k, rfl, column?_eq_some hk⟩
  · simp at h

/-! ## 2. Several cursors -/

theorem resolve_eq_ok_iff {r : ColumnRef} {w : Workspace n m} {cs : List (Fin m)}
    {b : BoundColumn m} : r.resolve w cs = .ok b ↔ cs.filterMap (r.bind? w) = [b] := by
  unfold resolve
  rcases cs.filterMap (r.bind? w) with _ | ⟨d, _ | ⟨e, ds⟩⟩
  · dsimp only
    split <;> simp
  · simp
  · simp

/-- One cursor of a list without repetitions matches when one column is found. -/
theorem length_filterMap_bind? {r : ColumnRef} {w : Workspace n m} {cs : List (Fin m)}
    (hcs : cs.Nodup) (hall : ∀ c, c ∈ cs) :
    (cs.filterMap (r.bind? w)).length = 1 ↔ ∃! c, r.Matches (w.tableUnder c) := by
  rw [List.length_filterMap_eq_countP, List.countP_eq_length_filter, List.length_eq_one_iff]
  constructor
  · rintro ⟨c, hc⟩
    have hmem : ∀ d, d ∈ cs.filter (fun a => (r.bind? w a).isSome) ↔
        r.Matches (w.tableUnder d) := by
      intro d
      rw [List.mem_filter, bind?_isSome]
      exact and_iff_right (hall d)
    refine ⟨c, (hmem c).1 (hc ▸ List.mem_singleton.2 rfl), fun d hd => ?_⟩
    exact List.mem_singleton.1 (hc ▸ (hmem d).2 hd)
  · rintro ⟨c, hc, hunique⟩
    have hfilter : cs.filter (fun a => (r.bind? w a).isSome) = cs.filter (· = c) := by
      refine List.filter_congr fun d _ => ?_
      rw [Bool.eq_iff_iff, bind?_isSome, decide_eq_true_iff]
      exact ⟨fun hd => hunique d hd, fun hd => hd ▸ hc⟩
    rw [hfilter, List.filter_eq, List.count_eq_one_of_mem hcs (hall c)]
    exact ⟨c, rfl⟩

/-! ## 3. The sources of a query -/

theorem tableUnder_ofTables (ts : List Table) (c : Fin ts.length) :
    (Workspace.ofTables ts).tableUnder c = ts.get c := by
  simp [Workspace.ofTables, Workspace.tableUnder, Workspace.table, Workspace.cursor]

/-- The column that a reference means among some sources. -/
def columnOf (sources : List Table) (r : ColumnRef) : Except Error (BoundColumn sources.length) :=
  r.resolve (Workspace.ofTables sources) (Query.cursorsOf sources)

/-- **A reference means something when one source matches it.** -/
theorem columnOf_isOk_iff {sources : List Table} {r : ColumnRef} :
    (∃ b, columnOf sources r = .ok b) ↔ r.MatchedOnce sources := by
  have hlength := length_filterMap_bind? (r := r) (w := Workspace.ofTables sources)
    (List.nodup_finRange sources.length) (List.mem_finRange)
  simp only [tableUnder_ofTables] at hlength
  rw [MatchedOnce, ← hlength, List.length_eq_one_iff]
  exact exists_congr fun b => resolve_eq_ok_iff

/-- What it means is the column of its title in that source. -/
theorem columnOf_spec {sources : List Table} {r : ColumnRef} {b : BoundColumn sources.length}
    (h : columnOf sources r = .ok b) :
    r.Matches (sources.get b.cursor) ∧
      (∃ k : Nat, b.index = k ∧ (sources.get b.cursor).titles[k]? = some r.name) ∧
      ∀ i : Fin sources.length, r.Matches (sources.get i) → i = b.cursor := by
  obtain ⟨i, hi, hunique⟩ := columnOf_isOk_iff.1 ⟨b, h⟩
  have hmem : b ∈ (Query.cursorsOf sources).filterMap (r.bind? (Workspace.ofTables sources)) := by
    rw [resolve_eq_ok_iff.1 h]
    exact List.mem_singleton.2 rfl
  obtain ⟨c, -, hc⟩ := List.mem_filterMap.1 hmem
  obtain ⟨rfl, htitle⟩ := bind?_eq_some hc
  have hmatches : r.Matches (sources.get b.cursor) := by
    rw [← tableUnder_ofTables, ← bind?_isSome, hc]
    rfl
  rw [tableUnder_ofTables] at htitle
  exact ⟨hmatches, htitle, fun j hj => (hunique j hj).trans (hunique _ hmatches).symm⟩

end ColumnRef

end FlatQuery
