import FlatQuery.Proofs.Rearranging
import Mathlib.Algebra.Group.Action.Defs

/-!
# Selecting all columns

The rows of an answer are what a clause shows of the combinations that it keeps, every row
where it comes first. A clause that shows too few columns may show the same of two
combinations, and then the second is lost. A clause that names every column of every source
shows no two combinations alike (`Phrase.Clause.shown_injOn`), so it loses nothing: there is
one row for each combination that is kept.

Values are not compared as they are put together but column by column. Each value of a
combination stands under a title of its source, some reference of the clause has this title,
and as no other source has it, what the reference shows is this value
(`ColumnRef.getElem?_of_matches`). It is here that the titles of the sources have to be apart.
-/

set_option autoImplicit false

namespace FlatQuery

/-! ## 1. Combinations -/

namespace Query

/-- Rows are combined once only. -/
theorem nodup_combinations (ts : List Table) : (combinations ts).Nodup := by
  induction ts with
  | nil => exact List.nodup_singleton _
  | cons t ts ih =>
    refine List.nodup_flatMap.2 ⟨fun r _ => ih.map (List.cons_injective), ?_⟩
    refine t.rows_nodup.imp fun {r r'} hne => ?_
    apply List.disjoint_left.2
    rintro rows hrows hrows'
    obtain ⟨rs, -, rfl⟩ := List.mem_map.1 hrows
    obtain ⟨rs', -, heq⟩ := List.mem_map.1 hrows'
    exact hne (List.cons.inj heq).1.symm

/-- There are as many combinations as the numbers of rows multiply to. -/
theorem length_combinations (ts : List Table) :
    (combinations ts).length = (ts.map Table.size).prod := by
  induction ts with
  | nil => rfl
  | cons t ts ih =>
    rw [combinations, List.length_flatMap, List.map_cons, List.prod_cons, ← ih]
    simp only [List.length_map, List.map_const', List.sum_replicate, smul_eq_mul,
      Table.length_rows]

/-- Each row of a combination is as wide as its table. -/
theorem width_of_mem_combinations {ts : List Table} {rows : List Row}
    (h : rows ∈ combinations ts) {i : Nat} (hi : i < ts.length) (hi' : i < rows.length) :
    rows[i].length = ts[i].titles.length :=
  Table.rows_width _ _ ((forall₂_of_mem_combinations h).get hi hi')

end Query

/-! ## 2. The value under a title -/

namespace ColumnRef

variable {r : ColumnRef} {ts : List Table} {rows : List Row}

/-- **A reference has the value that stands under its title in the row of its source.** -/
theorem getElem?_of_matches (h : r.MatchedOnce ts) (hrows : rows ∈ Query.combinations ts)
    {i k : Nat} {t : Table} (hi : ts[i]? = some t) (hmatches : r.Matches t)
    (hk : t.titles[k]? = some r.name) : rows[i]?.bind (·[k]?) = some (r.valueIn ts rows) := by
  obtain ⟨b, hb⟩ := columnOf_isOk_iff.2 h
  obtain ⟨-, ⟨k', hindex, hk'⟩, hunique⟩ := columnOf_spec hb
  obtain ⟨hlt, rfl⟩ := List.getElem?_eq_some_iff.1 hi
  have hcursor : (⟨i, hlt⟩ : Fin ts.length) = b.cursor := hunique _ hmatches
  rw [← hcursor] at hk'
  obtain rfl : k = k' := by
    obtain ⟨hklt, hkeq⟩ := List.getElem?_eq_some_iff.1 hk
    obtain ⟨hklt', hkeq'⟩ := List.getElem?_eq_some_iff.1 hk'
    exact (List.Nodup.getElem_inj_iff (Table.titles_nodup _)).1 (hkeq.trans hkeq'.symm)
  rw [← valueIn_of_columnOf hb hrows, BoundColumn.valueIn, ← hcursor, hindex]
  rfl

end ColumnRef

namespace Phrase

/-! ## 3. Clauses that name all columns -/

/-- Without comparisons every combination is kept. -/
theorem Clause.kept_of_none {c : Catalog} {p : Clause} (h : p.comparisons? = none) :
    p.kept c = Query.combinations (tablesOf c p.sources.toList) := by
  refine List.filter_eq_self.2 fun rows _ => decide_eq_true fun d hd => ?_
  rw [h] at hd
  exact absurd hd List.not_mem_nil

/-- Whether a clause is over one or two sources with titles of their own and names each of
their columns once, alone or with its source in front, in whatever order. -/
structure Clause.NamesAll (c : Catalog) (p : Clause) : Prop where
  registered : ∀ n ∈ p.sources.toList, n ∈ c.names
  sources_le : p.sources.toList.length ≤ Workspace.maxSources
  apart : (tablesOf c p.sources.toList).Pairwise fun t u => t.titles.Disjoint u.titles
  titles : p.titles.Perm ((tablesOf c p.sources.toList).flatMap Table.titles)
  columns : ∀ r ∈ p.columns.toList, ∃ t ∈ tablesOf c p.sources.toList, r.Matches t

/-- Where the titles of the sources are apart, each is that of one source. -/
theorem eq_of_mem_titles {ts : List Table}
    (hapart : ts.Pairwise fun t u => t.titles.Disjoint u.titles) {i j : Fin ts.length}
    {title : String} (hi : title ∈ (ts.get i).titles) (hj : title ∈ (ts.get j).titles) :
    i = j := by
  rw [List.pairwise_iff_getElem] at hapart
  rcases lt_trichotomy i j with hlt | heq | hlt
  · exact absurd hj (hapart i j i.isLt j.isLt hlt hi)
  · exact heq
  · exact absurd hi (hapart j i j.isLt i.isLt hlt hj)

section NamesAll

variable {c : Catalog} {p : Clause}

theorem Clause.NamesAll.matchedOnce (h : p.NamesAll c) {r : ColumnRef}
    (hr : r ∈ p.columns.toList) : r.MatchedOnce (tablesOf c p.sources.toList) := by
  obtain ⟨t, ht, hmatches⟩ := h.columns r hr
  obtain ⟨i, rfl⟩ := List.mem_iff_get.1 ht
  exact ⟨i, hmatches, fun j hj => eq_of_mem_titles h.apart hj.2 hmatches.2⟩

/-- The catalog admits such a clause if the references of its comparisons have a match each. -/
theorem Clause.NamesAll.admissible (h : p.NamesAll c)
    (hcomparisons : ∀ d ∈ comparisons p.comparisons?, ∀ r ∈ d.refs,
      r.MatchedOnce (tablesOf c p.sources.toList)) : p.Admissible c where
  titles := by
    refine h.titles.nodup_iff.2 (List.nodup_flatMap.2 ⟨fun t _ => t.titles_nodup, ?_⟩)
    exact h.apart
  registered := h.registered
  sources_le := h.sources_le
  columns r hr := by
    rcases List.mem_append.1 hr with hr | hr
    · exact h.matchedOnce hr
    · obtain ⟨d, hd, hr⟩ := List.mem_flatMap.1 hr
      exact hcomparisons d hd r hr

/-- Every title of every source is that of a column of the clause. -/
theorem Clause.NamesAll.exists_column (h : p.NamesAll c) {t : Table}
    (ht : t ∈ tablesOf c p.sources.toList) {title : String} (htitle : title ∈ t.titles) :
    ∃ r ∈ p.columns.toList, r.name = title ∧ r.Matches t := by
  have hmem : title ∈ p.titles := h.titles.mem_iff.2 (List.mem_flatMap.2 ⟨t, ht, htitle⟩)
  obtain ⟨r, hr, rfl⟩ := List.mem_map.1 hmem
  obtain ⟨u, hu, hmatches⟩ := h.columns r hr
  -- The reference means a column of some source, and no other source has this title.
  obtain ⟨i, rfl⟩ := List.mem_iff_get.1 ht
  obtain ⟨j, rfl⟩ := List.mem_iff_get.1 hu
  obtain rfl : i = j := eq_of_mem_titles h.apart htitle hmatches.2
  exact ⟨r, hr, rfl, hmatches⟩

/-- So every value of a combination is shown, and by the same column whatever the combination. -/
theorem Clause.NamesAll.exists_shows (h : p.NamesAll c) {i k : Nat}
    (hi : i < (tablesOf c p.sources.toList).length)
    (hk : k < (tablesOf c p.sources.toList)[i].titles.length) :
    ∃ r ∈ p.columns.toList, ∀ rows ∈ Query.combinations (tablesOf c p.sources.toList),
      rows[i]?.bind (·[k]?) = some (r.valueIn (tablesOf c p.sources.toList) rows) := by
  obtain ⟨r, hr, hname, hmatches⟩ := h.exists_column (List.getElem_mem hi) (List.getElem_mem hk)
  refine ⟨r, hr, fun rows hrows => ?_⟩
  apply ColumnRef.getElem?_of_matches (h.matchedOnce hr) hrows (List.getElem?_eq_getElem hi)
    hmatches
  rw [hname, List.getElem?_eq_getElem hk]

/-- **No two combinations are shown alike.** -/
theorem Clause.shown_injOn (h : p.NamesAll c) {rows rows' : List Row}
    (hrows : rows ∈ Query.combinations (tablesOf c p.sources.toList))
    (hrows' : rows' ∈ Query.combinations (tablesOf c p.sources.toList))
    (heq : p.shown c rows = p.shown c rows') : rows = rows' := by
  have hlength := (Query.forall₂_of_mem_combinations hrows).length_eq
  have hlength' := (Query.forall₂_of_mem_combinations hrows').length_eq
  apply List.ext_getElem (hlength.symm.trans hlength')
  intro i hi hi'
  have hlt : i < (tablesOf c p.sources.toList).length := hlength ▸ hi
  have hwidth := Query.width_of_mem_combinations hrows hlt hi
  have hwidth' := Query.width_of_mem_combinations hrows' hlt hi'
  apply List.ext_getElem (hwidth.trans hwidth'.symm)
  intro k hk hk'
  -- The column that shows this value shows the same of either combination.
  obtain ⟨r, hr, hshows⟩ := h.exists_shows hlt (hwidth ▸ hk)
  have hsame := List.map_inj_left.1 heq r hr
  have hvalue := hshows rows hrows
  rw [hsame, ← hshows rows' hrows', List.getElem?_eq_getElem hi, List.getElem?_eq_getElem hi',
    Option.bind_some, Option.bind_some, List.getElem?_eq_getElem hk,
    List.getElem?_eq_getElem hk'] at hvalue
  exact Option.some.inj hvalue

/-- So what is shown of the combinations that are kept has no row twice. -/
theorem Clause.NamesAll.nodup_shown (h : p.NamesAll c) :
    ((p.kept c).map (p.shown c)).Nodup := by
  refine List.Nodup.map_on (fun rows hrows rows' hrows' => ?_)
    ((Query.nodup_combinations _).filter _)
  exact shown_injOn h (mem_kept.1 hrows).1 (mem_kept.1 hrows').1

/-- The columns of one table in their own order show its rows as they are. -/
theorem Clause.NamesAll.shown_singleton (h : p.NamesAll c) {s : Table}
    (hs : tablesOf c p.sources.toList = [s]) (htitles : p.titles = s.titles) {row : Row}
    (hrow : row ∈ s.rows) : p.shown c [row] = row := by
  have hmem : [row] ∈ Query.combinations [s] := by
    rw [Query.combinations_singleton]
    exact List.mem_map.2 ⟨row, hrow, rfl⟩
  have hlength : p.columns.toList.length = s.titles.length := by
    rw [← htitles, Clause.titles, List.length_map]
  refine List.ext_getElem ?_ fun k hk hk' => ?_
  · rw [shown, List.length_map, hlength, Table.rows_width s row hrow]
  · rw [shown, List.length_map] at hk
    have hname : s.titles[k]? = some p.columns.toList[k].name := by
      rw [← htitles, Clause.titles, List.getElem?_map, List.getElem?_eq_getElem hk]
      rfl
    have hr : p.columns.toList[k] ∈ p.columns.toList := List.getElem_mem hk
    obtain ⟨t, ht, hmatches⟩ := h.columns _ hr
    have honce := h.matchedOnce hr
    rw [hs] at ht honce
    obtain rfl := List.mem_singleton.1 ht
    have hvalue := ColumnRef.getElem?_of_matches (i := 0) honce hmem rfl hmatches hname
    simp only [shown, hs, List.getElem_map]
    rw [List.getElem?_cons_zero, Option.bind_some, List.getElem?_eq_getElem hk'] at hvalue
    exact (Option.some.inj hvalue).symm

end NamesAll

/-- **A clause that names all columns loses nothing.** It gives a table with one row for each
combination of rows in which its comparisons hold, in the order of the combinations, and what
it shows of them has no row twice. Without comparisons there are as many rows as the sources'
numbers of rows multiply to, and where the columns are those of one table in their own order,
the rows are that table's. -/
theorem Clause.allColumns_given (db : Database) (name? : Option String) {p : Clause}
    (h : p.NamesAll db.catalog)
    (hcomparisons : ∀ d ∈ comparisons p.comparisons?, ∀ r ∈ d.refs,
      r.MatchedOnce (tablesOf db.catalog p.sources.toList)) :
    ∃ t, p.Gives db name? t ∧ t.titles = p.titles ∧
      ((p.kept db.catalog).map (p.shown db.catalog)).Nodup ∧
      t.rows = (p.kept db.catalog).map (p.shown db.catalog) ∧
      t.size = (p.kept db.catalog).length ∧
      (p.comparisons? = none →
        t.size = ((tablesOf db.catalog p.sources.toList).map Table.size).prod) ∧
      ∀ s, tablesOf db.catalog p.sources.toList = [s] → p.titles = s.titles →
        p.comparisons? = none → t.titles = s.titles ∧ t.rows = s.rows := by
  obtain ⟨t, hgives, -, htitles, hrows⟩ := exists_gives (h.admissible hcomparisons) name?
  have hshown : t.rows = (p.kept db.catalog).map (p.shown db.catalog) := by
    rw [hrows, rows_eq_eraseDups]
    exact eraseDups_of_nodup h.nodup_shown
  have hsize : t.size = (p.kept db.catalog).length := by
    rw [← Table.length_rows, hshown, List.length_map]
  refine ⟨t, hgives, htitles, h.nodup_shown, hshown, hsize, fun hnone => ?_, ?_⟩
  · rw [hsize, kept_of_none hnone, Query.length_combinations]
  · intro s hs hown hnone
    refine ⟨htitles.trans hown, ?_⟩
    rw [hshown, kept_of_none hnone, hs, Query.combinations_singleton, List.map_map]
    exact (List.map_congr_left fun row hrow => h.shown_singleton hs hown hrow).trans
      (List.map_id' s.rows)

/-- Rows that differ in one value, or only in where a value ends, stay apart. -/
theorem Clause.allColumns_given_alike :
    let p : Clause := ⟨⟨⟨"c", some "u"⟩, [⟨"d", none⟩, ⟨"a", none⟩]⟩, ⟨"t", ["u"]⟩,
      some ⟨⟨⟨"a", none⟩, .different, .column ⟨"c", none⟩⟩, []⟩⟩
    p.NamesAll alikeTables.catalog ∧
      (∀ d ∈ comparisons p.comparisons?, ∀ r ∈ d.refs,
        r.MatchedOnce (tablesOf alikeTables.catalog p.sources.toList)) ∧
      ∃ t, p.Gives alikeTables none t ∧
        t.rows = [["2", "23", "1"], ["12", "23", "1"], ["2", "3", "12"]] ∧ t.size = 3 := by
  intro p
  have h : p.NamesAll alikeTables.catalog :=
    ⟨by decide, by decide, List.pairwise_pair.2 (List.disjoint_left.2 (by decide +kernel)),
      by decide +kernel, by decide +kernel⟩
  have hcomparisons : ∀ d ∈ comparisons p.comparisons?, ∀ r ∈ d.refs,
      r.MatchedOnce (tablesOf alikeTables.catalog p.sources.toList) := by
    simp only [ColumnRef.matchedOnce_iff_countP]
    intro d hd
    obtain rfl := List.mem_singleton.1 hd
    decide +kernel
  refine ⟨h, hcomparisons, ?_⟩
  obtain ⟨t, hgives, -, -, hrows, hsize, -⟩ := allColumns_given alikeTables none h hcomparisons
  exact ⟨t, hgives, hrows.trans (by decide +kernel), hsize.trans (by decide +kernel)⟩

end Phrase

end FlatQuery
