import FlatQuery.Proofs.Asking

/-!
# The order of sources and comparisons

In which order a clause lists its sources decides in which order their rows are combined, and
so in which order the rows of the answer come; in which order it lists its comparisons decides
nothing. The rows themselves are the same (`Phrase.Clause.mem_rows_of_rearranges`), and so is
whether there is an answer at all.

The reason is that a reference has to have one match. Among the sources in some other order it
has one match again, and among the rows of a combination in that order the same value
(`ColumnRef.valueIn_of_perm`): what is looked up first does not matter where only one look can
succeed. Combinations are carried over along the permutation, together with the sources they
are of (`Query.exists_combination_of_perm`).
-/

set_option autoImplicit false

namespace FlatQuery

/-! ## 1. References -/

instance (r : ColumnRef) (t : Table) : Decidable (r.Matches t) :=
  inferInstanceAs (Decidable (_ ∧ _))

namespace ColumnRef

variable {r : ColumnRef} {ts us : List Table}

/-- One source matches a reference where the matching sources are one in number. -/
theorem matchedOnce_iff_countP : r.MatchedOnce ts ↔ ts.countP (r.Matches ·) = 1 := by
  have hlength := length_filterMap_bind? (r := r) (w := Workspace.ofTables ts)
    (List.nodup_finRange ts.length) List.mem_finRange
  simp only [tableUnder_ofTables] at hlength
  have hcount : ts.countP (r.Matches ·) =
      (List.finRange ts.length).countP fun c => (r.bind? (Workspace.ofTables ts) c).isSome := by
    conv_lhs => rw [← List.map_get_finRange ts, List.countP_map]
    refine List.countP_congr fun c _ => ?_
    rw [Function.comp_apply, decide_eq_true_iff, bind?_isSome, tableUnder_ofTables]
  rw [MatchedOnce, ← hlength, List.length_filterMap_eq_countP, hcount]

theorem MatchedOnce.of_perm (h : r.MatchedOnce ts) (hperm : ts.Perm us) : r.MatchedOnce us := by
  rw [matchedOnce_iff_countP] at h ⊢
  rw [← hperm.countP_eq, h]

/-- What is found of a reference in a row, if the source is one that it may mean. -/
def lookIn (r : ColumnRef) : Table × Row → Option String
  | (t, row) => if r.admits t then (t.titles.zip row).lookup r.name else none

/-- Something is found only where the source matches. -/
theorem matches_of_lookIn {t : Table} {row : Row} (h : r.lookIn (t, row) ≠ none) :
    r.Matches t := by
  by_contra hnot
  apply h
  rw [lookIn]
  by_cases hadmits : r.admits t = true
  · rw [if_pos hadmits, lookup_zip_eq_none fun hmem => hnot ⟨hadmits, hmem⟩]
  · rw [if_neg hadmits]

/-- So a reference with one match is found once at most. -/
theorem pairwise_lookIn (h : r.MatchedOnce ts) (rows : List Row) :
    (ts.zip rows).Pairwise fun a b => r.lookIn a = none ∨ r.lookIn b = none := by
  obtain ⟨k, -, hunique⟩ := h
  rw [List.pairwise_iff_getElem]
  intro i j hi hj hij
  by_contra hfound
  obtain ⟨hfirst, hsecond⟩ := not_or.1 hfound
  rw [List.getElem_zip] at hfirst hsecond
  have hits : i < ts.length := (List.lt_length_left_of_zip hi)
  have hjts : j < ts.length := (List.lt_length_left_of_zip hj)
  have hsame : (⟨i, hits⟩ : Fin ts.length) = ⟨j, hjts⟩ :=
    (hunique _ (matches_of_lookIn hfirst)).trans (hunique _ (matches_of_lookIn hsecond)).symm
  exact absurd (congrArg Fin.val hsame) (Nat.ne_of_lt hij)

end ColumnRef

/-- Where one item at most gives something, their order does not matter to what is found. -/
theorem findSome?_eq_of_perm {α β : Type} {f : α → Option β} {l m : List α} (h : l.Perm m)
    (hl : l.Pairwise fun a b => f a = none ∨ f b = none) : l.findSome? f = m.findSome? f := by
  induction h with
  | nil => rfl
  | cons x _ ih => rw [List.findSome?_cons, List.findSome?_cons, ih (List.pairwise_cons.1 hl).2]
  | swap x y l =>
    rw [List.findSome?_cons, List.findSome?_cons, List.findSome?_cons, List.findSome?_cons]
    rcases (List.pairwise_cons.1 hl).1 x List.mem_cons_self with hy | hx
    · rw [hy]
    · rw [hx]
  | trans hlm _ ih ih' => exact (ih hl).trans (ih' ((hlm.pairwise_iff Or.symm).1 hl))

/-- **A reference with one match has its value whatever the order of the sources.** -/
theorem ColumnRef.valueIn_of_perm {r : ColumnRef} {ts us : List Table} {rows rows' : List Row}
    (h : r.MatchedOnce ts) (hperm : (ts.zip rows).Perm (us.zip rows')) :
    r.valueIn us rows' = r.valueIn ts rows :=
  congrArg (·.getD "") (findSome?_eq_of_perm hperm (pairwise_lookIn h rows)).symm

/-! ## 2. Combinations -/

namespace Query

theorem mem_combinations_cons {t : Table} {ts : List Table} {rows : List Row} :
    rows ∈ combinations (t :: ts) ↔ ∃ r ∈ t.rows, ∃ rs ∈ combinations ts, r :: rs = rows := by
  rw [combinations, List.mem_flatMap]
  simp only [List.mem_map]

/-- **The rows of a combination can be combined in any order of their sources.** -/
theorem exists_combination_of_perm {ts us : List Table} (h : ts.Perm us) {rows : List Row}
    (hrows : rows ∈ combinations ts) :
    ∃ rows' ∈ combinations us, (ts.zip rows).Perm (us.zip rows') := by
  induction h generalizing rows with
  | nil => exact ⟨rows, hrows, .refl _⟩
  | cons t _ ih =>
    obtain ⟨r, hr, rs, hrs, rfl⟩ := mem_combinations_cons.1 hrows
    obtain ⟨rs', hrs', hperm⟩ := ih hrs
    exact ⟨r :: rs', mem_combinations_cons.2 ⟨r, hr, rs', hrs', rfl⟩, hperm.cons (t, r)⟩
  | swap t u ts =>
    obtain ⟨x, hx, _, hrest, rfl⟩ := mem_combinations_cons.1 hrows
    obtain ⟨y, hy, rs, hrs, rfl⟩ := mem_combinations_cons.1 hrest
    have hmem : x :: rs ∈ combinations (u :: ts) :=
      mem_combinations_cons.2 ⟨x, hx, rs, hrs, rfl⟩
    exact ⟨y :: x :: rs, mem_combinations_cons.2 ⟨y, hy, _, hmem, rfl⟩, .swap _ _ _⟩
  | trans _ _ ih ih' =>
    obtain ⟨rows', hrows', hperm⟩ := ih hrows
    obtain ⟨rows'', hrows'', hperm'⟩ := ih' hrows'
    exact ⟨rows'', hrows'', hperm.trans hperm'⟩

end Query

/-! ## 3. Clauses -/

namespace Phrase

/-- Whether a clause is another one with its sources and its comparisons in some order. -/
structure Clause.Rearranges (p q : Clause) : Prop where
  columns : q.columns = p.columns
  sources : q.sources.toList.Perm p.sources.toList
  comparisons : (comparisons q.comparisons?).Perm (comparisons p.comparisons?)

theorem Clause.Rearranges.symm {p q : Clause} (h : p.Rearranges q) : q.Rearranges p :=
  ⟨h.columns.symm, h.sources.symm, h.comparisons.symm⟩

/-- A comparison of references with one match holds whatever the order of the sources. -/
theorem Comparison.holdsIn_of_perm {d : Comparison} {ts us : List Table} {rows rows' : List Row}
    (h : ∀ r ∈ d.refs, r.MatchedOnce ts) (hperm : (ts.zip rows).Perm (us.zip rows')) :
    d.HoldsIn us rows' ↔ d.HoldsIn ts rows := by
  obtain ⟨left, relation, right⟩ := d
  rw [refs, List.forall_mem_cons] at h
  have hright : right.valueIn us rows' = right.valueIn ts rows := by
    rcases right with text | r
    · rfl
    · exact ColumnRef.valueIn_of_perm (h.2 r (List.mem_singleton.2 rfl)) hperm
  rw [HoldsIn, HoldsIn, ColumnRef.valueIn_of_perm h.1 hperm, hright]

section Rearranged

variable {c : Catalog} {p q : Clause}

theorem tablesOf_perm {names names' : List String} (h : names.Perm names') :
    (tablesOf c names).Perm (tablesOf c names') := h.filterMap _

/-- The catalog admits a clause in any order. -/
theorem Clause.Admissible.of_rearranges (hp : p.Admissible c) (h : p.Rearranges q) :
    q.Admissible c := by
  refine ⟨h.columns ▸ hp.titles, fun n hn => hp.registered n (h.sources.mem_iff.1 hn), ?_,
    fun r hr => ?_⟩
  · rw [h.sources.length_eq]
    exact hp.sources_le
  · have hmem : r ∈ p.refs := by
      rw [Clause.refs, h.columns, List.mem_append, List.mem_flatMap] at hr
      rw [Clause.refs, List.mem_append, List.mem_flatMap]
      rcases hr with hr | hr
      · exact .inl hr
      · obtain ⟨d, hd, hr⟩ := hr
        exact .inr ⟨d, h.comparisons.mem_iff.1 hd, hr⟩
    exact (hp.columns r hmem).of_perm (tablesOf_perm h.sources.symm)

/-- Whatever row a clause selects, it selects in any order. -/
theorem Clause.mem_rows_of_rearranges (hp : p.Admissible c) (h : p.Rearranges q) {row : Row}
    (hrow : row ∈ p.rows c) : row ∈ q.rows c := by
  obtain ⟨rows, hkept, rfl⟩ := mem_rows.1 hrow
  obtain ⟨hrows, hholds⟩ := mem_kept.1 hkept
  obtain ⟨rows', hrows', hperm⟩ :=
    Query.exists_combination_of_perm (tablesOf_perm h.sources.symm) hrows
  refine mem_rows.2 ⟨rows', mem_kept.2 ⟨hrows', fun d hd => ?_⟩, ?_⟩
  · have hd := h.comparisons.mem_iff.1 hd
    refine (Comparison.holdsIn_of_perm (fun r hr => hp.columns r ?_) hperm).2 (hholds d hd)
    exact List.mem_append_right _ (List.mem_flatMap.2 ⟨d, hd, hr⟩)
  · rw [shown, h.columns]
    refine List.map_congr_left fun r hr => ColumnRef.valueIn_of_perm (hp.columns r ?_) hperm
    exact List.mem_append_left _ hr

/-- The order of the comparisons alone does not even matter to the order of the rows. -/
theorem Clause.rows_eq_of_rearranges (h : p.Rearranges q) (hsources : q.sources = p.sources) :
    q.rows c = p.rows c := by
  refine rows_congr h.columns hsources fun rows => ?_
  simp only [h.comparisons.mem_iff]

end Rearranged

/-- **A clause in any order of its sources and comparisons.** Whatever the database and whatever
is asked for, the rows or a new table, either both clauses fail, or both give a table. The tables
have the same titles and the same rows, each of them once, in the order of the combinations of
each clause's own sources. Where only the comparisons are in another order, it is one table. -/
theorem Clause.rearranged_alike (db : Database) (name? : Option String) {p q : Clause}
    (h : p.Rearranges q) :
    (∃ t u, p.Gives db name? t ∧ q.Gives db name? u ∧
      t.rows = p.rows db.catalog ∧ u.rows = q.rows db.catalog ∧
      u.titles = t.titles ∧ u.rows.Perm t.rows ∧ t.rows.Nodup ∧
      (q.sources = p.sources → u = t)) ∨
    (p.Fails db name? ∧ q.Fails db name?) := by
  by_cases hp : p.Admissible db.catalog
  · have hq := hp.of_rearranges h
    obtain ⟨t, ht, htname, httitles, htrows⟩ := exists_gives hp name?
    obtain ⟨u, hu, huname, hutitles, hurows⟩ := exists_gives hq name?
    have htitles : u.titles = t.titles := by
      rw [httitles, hutitles, titles, titles, h.columns]
    have hmem : ∀ row, row ∈ u.rows ↔ row ∈ t.rows := by
      intro row
      rw [htrows, hurows]
      exact ⟨mem_rows_of_rearranges hq h.symm, mem_rows_of_rearranges hp h⟩
    refine .inl ⟨t, u, ht, hu, htrows, hurows, htitles,
      (List.perm_ext_iff_of_nodup u.rows_nodup t.rows_nodup).2 hmem, t.rows_nodup, ?_⟩
    intro hsources
    refine Table.ext (huname.trans htname.symm) htitles ?_
    rw [htrows, hurows, rows_eq_of_rearranges h hsources]
  · have hq : ¬q.Admissible db.catalog := fun hq => hp (hq.of_rearranges h.symm)
    exact .inr ⟨fails_of_not_admissible hp name?, fails_of_not_admissible hq name?⟩

/-- With the sources the other way round the same rows come in another order. -/
theorem Clause.rearranged_alike_swapped :
    let differ : Comparison := ⟨⟨"d", none⟩, .different, .column ⟨"c", none⟩⟩
    let below : Comparison := ⟨⟨"a", some "t"⟩, .less, .column ⟨"c", none⟩⟩
    let p : Clause := ⟨⟨⟨"a", none⟩, [⟨"c", none⟩]⟩, ⟨"t", ["u"]⟩, some ⟨differ, [below]⟩⟩
    let q : Clause := ⟨⟨⟨"a", none⟩, [⟨"c", none⟩]⟩, ⟨"u", ["t"]⟩, some ⟨below, [differ]⟩⟩
    p.Rearranges q ∧ ∃ t u, p.Gives alikeTables none t ∧ q.Gives alikeTables none u ∧
      t.rows = [["1", "2"], ["1", "12"], ["12", "2"]] ∧
      u.rows = [["1", "2"], ["12", "2"], ["1", "12"]] := by
  intro differ below p q
  have h : p.Rearranges q := ⟨rfl, .swap _ _ _, .swap _ _ _⟩
  refine ⟨h, ?_⟩
  rcases rearranged_alike alikeTables none h with
    ⟨t, u, ht, hu, htrows, hurows, -⟩ | ⟨hfails, -⟩
  · exact ⟨t, u, ht, hu, htrows.trans (by decide +kernel), hurows.trans (by decide +kernel)⟩
  · have hasks : (Session.start (.ofString "select a, c from t, u where d != c and t.a < c;")
        alikeTables).Asks alikeTables none p := by
      apply Session.asks_start
      unfold HasTokens
      decide +kernel
    obtain ⟨e, v, hv, -⟩ := hfails _ hasks
    have hok : (Session.start (.ofString "select a, c from t, u where d != c and t.a < c;")
        alikeTables).statement.1.isOk = true := by decide +kernel
    rw [hv] at hok
    cases hok

end Phrase

end FlatQuery
