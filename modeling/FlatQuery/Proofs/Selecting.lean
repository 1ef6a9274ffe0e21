import FlatQuery.Proofs.Acceptance
import Mathlib.Data.List.Lex

/-!
# What a selection selects

A clause can be read off its phrase. Its references name columns by their titles, and in a
combination of rows, one of each source, the value of a reference is the one under its title
in the row of the source that has it. Keep the combinations in which the comparisons hold,
show the values of the columns of each, and drop what was shown before: these are the rows
that the clause selects (`Phrase.Clause.rows`). Texts are compared by their code points.

Nothing of how a query is read or answered occurs in this. The meaning of the query in
`Query.rows` speaks of columns by their numbers; `Phrase.Clause.rows_eq` says that the two
agree, and with it the answer to a query that was read is what its clause selects
(`Phrase.Clause.answer_of_reads`).
-/

set_option autoImplicit false

namespace FlatQuery

/-! ## 1. The order of texts -/

/-- The code points of a text. -/
def codePoints (s : String) : List Nat := s.toList.map Char.toNat

theorem lt_iff_codePoints_lt {s t : String} : s < t ↔ codePoints s < codePoints t := by
  rw [String.lt_iff, codePoints, codePoints]
  generalize s.toList = cs
  generalize t.toList = ds
  induction cs generalizing ds with
  | nil =>
    rcases ds with _ | ⟨d, ds⟩
    · exact iff_of_false (List.not_lt_nil _) (List.not_lt_nil _)
    · exact iff_of_true (List.nil_lt_cons ..) (List.nil_lt_cons ..)
  | cons c cs ih =>
    rcases ds with _ | ⟨d, ds⟩
    · exact iff_of_false (List.not_lt_nil _) (List.not_lt_nil _)
    · rw [List.map_cons, List.map_cons, List.cons_lt_cons_iff, List.cons_lt_cons_iff, ih,
        Char.toNat_inj]
      rfl

theorem codePoints_inj {s t : String} : codePoints s = codePoints t ↔ s = t := by
  refine ⟨fun h => ?_, congrArg codePoints⟩
  exact String.toList_inj.1 (List.map_injective_iff.2 (fun _ _ => Char.toNat_inj.1) h)

/-- What a relation says of two texts. -/
def Relation.Relates : Relation → String → String → Prop
  | .less, x, y => codePoints x < codePoints y
  | .greater, x, y => codePoints y < codePoints x
  | .atMost, x, y => codePoints x ≤ codePoints y
  | .atLeast, x, y => codePoints y ≤ codePoints x
  | .equal, x, y => x = y
  | .different, x, y => x ≠ y

theorem compareText_cases (x y : String) :
    (compareText x y = .lt ∧ codePoints x < codePoints y) ∨
    (compareText x y = .gt ∧ codePoints y < codePoints x) ∨
    (compareText x y = .eq ∧ x = y) := by
  unfold compareText
  by_cases hxy : x < y
  · rw [if_pos hxy]
    exact .inl ⟨rfl, lt_iff_codePoints_lt.1 hxy⟩
  by_cases hyx : y < x
  · rw [if_neg hxy, if_pos hyx]
    exact .inr (.inl ⟨rfl, lt_iff_codePoints_lt.1 hyx⟩)
  · rw [if_neg hxy, if_neg hyx]
    rw [lt_iff_codePoints_lt] at hxy hyx
    exact .inr (.inr ⟨rfl, codePoints_inj.1 (List.le_antisymm hyx hxy)⟩)

/-- A relation holds of a comparison when it holds of the texts compared. -/
theorem Relation.holds_compareText {r : Relation} {x y : String} :
    r.holds (compareText x y) = true ↔ r.Relates x y := by
  rcases compareText_cases x y with ⟨h, hlt⟩ | ⟨h, hlt⟩ | ⟨h, rfl⟩
  · have hne : x ≠ y := fun he => absurd (he ▸ hlt) (lt_irrefl _)
    rw [h]
    rcases r with _ | _ | _ | _ | _ | _ <;> simp [holds, Relates, hlt, hlt.le, hne, hlt.not_gt]
  · have hne : x ≠ y := fun he => absurd (he ▸ hlt) (lt_irrefl _)
    rw [h]
    rcases r with _ | _ | _ | _ | _ | _ <;> simp [holds, Relates, hlt, hlt.le, hne, hlt.not_gt]
  · rw [h]
    rcases r with _ | _ | _ | _ | _ | _ <;> simp [holds, Relates]

instance (r : Relation) (x y : String) : Decidable (r.Relates x y) :=
  decidable_of_iff _ Relation.holds_compareText

/-! ## 2. What a clause selects -/

/-- The value of a column in a combination of rows of some sources: the one under its title
in the row of the source that has it. A column that no source has is given the empty text,
which no admissible clause comes to. -/
def ColumnRef.valueIn (sources : List Table) (rows : List Row) (r : ColumnRef) : String :=
  ((sources.zip rows).findSome? fun (t, row) =>
    if r.admits t then (t.titles.zip row).lookup r.name else none).getD ""

namespace Phrase

def Side.valueIn (sources : List Table) (rows : List Row) : Side → String
  | .literal text => Statement.literalValue text
  | .column r => r.valueIn sources rows

/-- Whether a comparison holds in a combination of rows. -/
def Comparison.HoldsIn (sources : List Table) (rows : List Row) (p : Comparison) : Prop :=
  p.relation.Relates (p.left.valueIn sources rows) (p.right.valueIn sources rows)

instance (sources : List Table) (rows : List Row) (p : Comparison) :
    Decidable (p.HoldsIn sources rows) :=
  inferInstanceAs (Decidable (p.relation.Relates _ _))

/-- The titles of what a clause selects: the names of its columns, without their tables. -/
def Clause.titles (p : Clause) : List String := p.columns.toList.map ColumnRef.name

/-- The rows that a clause selects: the values of its columns in each combination of rows in
which its comparisons hold, every such row where it comes first. -/
def Clause.rows (c : Catalog) (p : Clause) : List Row :=
  let sources := tablesOf c p.sources.toList
  let kept := (Query.combinations sources).filter fun rows =>
    ∀ comparison ∈ comparisons p.comparisons?, comparison.HoldsIn sources rows
  (kept.map fun rows => p.columns.toList.map (·.valueIn sources rows)).eraseDups

end Phrase

/-! ## 3. The value of a reference -/

theorem lookup_zip {titles : List String} {row : Row} (htitles : titles.Nodup)
    {title : String} {k : Nat} (hk : titles[k]? = some title) :
    (titles.zip row).lookup title = row[k]? := by
  induction titles generalizing row k with
  | nil => simp at hk
  | cons t ts ih =>
    obtain ⟨hnotin, hnodup⟩ := List.nodup_cons.1 htitles
    rcases row with _ | ⟨x, row⟩
    · rfl
    rw [List.zip_cons_cons, List.lookup_cons]
    rcases k with _ | k
    · rw [List.getElem?_cons_zero] at hk
      injection hk with hk
      rw [hk, beq_self_eq_true]
      rfl
    · rw [List.getElem?_cons_succ] at hk
      have hne : title ≠ t := fun he => hnotin (he ▸ List.mem_of_getElem? hk)
      rw [beq_eq_false_iff_ne.2 hne]
      exact ih hnodup hk

theorem lookup_zip_eq_none {titles : List String} {row : Row} {title : String}
    (h : title ∉ titles) : (titles.zip row).lookup title = none := by
  rw [List.lookup_eq_none_iff]
  rintro ⟨t, x⟩ hmem
  have hne : title ≠ t := fun he => h (he ▸ (List.of_mem_zip hmem).1)
  exact bne_iff_ne.2 hne

/-- Where one item of a list gives something and no other does, this is what is found. -/
theorem findSome?_eq_of_unique {α β : Type} {f : α → Option β} {l : List α} {i : Nat} {x : α}
    {y : β} (hi : l[i]? = some x) (hx : f x = some y)
    (hothers : ∀ j z, l[j]? = some z → j ≠ i → f z = none) : l.findSome? f = some y := by
  induction l generalizing i with
  | nil => simp at hi
  | cons z l ih =>
    rw [List.findSome?_cons]
    rcases i with _ | i
    · rw [List.getElem?_cons_zero] at hi
      injection hi with hi
      rw [hi, hx]
    · rw [List.getElem?_cons_succ] at hi
      rw [hothers 0 z (List.getElem?_cons_zero ..) (Nat.succ_ne_zero i).symm]
      refine ih hi fun j w hj hne => hothers (j + 1) w ?_ fun he => hne (Nat.succ_inj.1 he)
      rw [List.getElem?_cons_succ, hj]

/-- A combination has one row of each table. -/
theorem Query.forall₂_of_mem_combinations {ts : List Table} {rows : List Row}
    (h : rows ∈ combinations ts) : List.Forall₂ (fun t r => r ∈ t.rows) ts rows := by
  induction ts generalizing rows with
  | nil =>
    rw [List.mem_singleton.1 h]
    exact .nil
  | cons t ts ih =>
    obtain ⟨r, hr, h⟩ := List.mem_flatMap.1 h
    obtain ⟨rows', hrows', rfl⟩ := List.mem_map.1 h
    exact .cons hr (ih hrows')

/-- **The column that a reference is bound to has the value that the reference names.** -/
theorem ColumnRef.valueIn_of_columnOf {sources : List Table} {r : ColumnRef}
    {b : BoundColumn sources.length} (h : columnOf sources r = .ok b) {rows : List Row}
    (hrows : rows ∈ Query.combinations sources) :
    b.valueIn rows = some (r.valueIn sources rows) := by
  obtain ⟨hmatches, ⟨k, hk, htitle⟩, hunique⟩ := columnOf_spec h
  have hforall := Query.forall₂_of_mem_combinations hrows
  have hlt : b.cursor.val < rows.length := by
    rw [← hforall.length_eq]
    exact b.cursor.isLt
  have hrow : rows[b.cursor.val] ∈ (sources.get b.cursor).rows :=
    hforall.get b.cursor.isLt hlt
  have hindex : k < rows[b.cursor.val].length := by
    rw [Table.rows_width _ _ hrow]
    exact (List.getElem?_eq_some_iff.1 htitle).1
  -- The column's cursor stands on a row that is wide enough.
  have hvalue : b.valueIn rows = some rows[b.cursor.val][k] := by
    rw [BoundColumn.valueIn, List.getElem?_eq_getElem hlt, hk]
    exact List.getElem?_eq_getElem hindex
  rw [hvalue, valueIn, findSome?_eq_of_unique (i := b.cursor.val)
    (x := (sources.get b.cursor, rows[b.cursor.val])) (y := rows[b.cursor.val][k])]
  · rfl
  · rw [List.getElem?_zip_eq_some]
    exact ⟨List.getElem?_eq_getElem b.cursor.isLt, List.getElem?_eq_getElem hlt⟩
  · dsimp only
    rw [if_pos hmatches.1, lookup_zip (Table.titles_nodup _) htitle]
    exact List.getElem?_eq_getElem hindex
  -- No other source has the title, or the reference would have matched it as well.
  · rintro j ⟨t, row⟩ hj hne
    obtain ⟨ht, -⟩ := List.getElem?_zip_eq_some.1 hj
    obtain ⟨hjlt, rfl⟩ := List.getElem?_eq_some_iff.1 ht
    dsimp only
    split
    · rename_i hadmits
      refine lookup_zip_eq_none fun hmem => hne ?_
      exact congrArg Fin.val (hunique ⟨j, hjlt⟩ ⟨hadmits, hmem⟩)
    · rfl

/-! ## 4. The answer to a clause -/

namespace Phrase

theorem Comparison.holdsIn_iff {sources : List Table} {p : Comparison}
    {d : Condition sources.length} (h : p.Reads sources d) {rows : List Row}
    (hrows : rows ∈ Query.combinations sources) :
    d.holdsIn rows = true ↔ p.HoldsIn sources rows := by
  obtain ⟨hleft, hrelation, hright⟩ := h
  have hvalue : d.right.valueIn rows = some (p.right.valueIn sources rows) := by
    generalize p.right = side at hright
    generalize d.right = o at hright
    rcases hright with _ | hb
    · rfl
    · exact ColumnRef.valueIn_of_columnOf hb hrows
  rw [Condition.holdsIn, ColumnRef.valueIn_of_columnOf hleft hrows, hvalue, HoldsIn, hrelation]
  exact Relation.holds_compareText

/-- The conditions of a query hold where the comparisons of its clause do. -/
theorem all_holdsIn_iff {sources : List Table} {ps : List Comparison}
    {ds : List (Condition sources.length)} (h : List.Forall₂ (Comparison.Reads sources) ps ds)
    {rows : List Row} (hrows : rows ∈ Query.combinations sources) :
    ds.all (·.holdsIn rows) = true ↔ ∀ p ∈ ps, p.HoldsIn sources rows := by
  induction h with
  | nil => simp
  | cons hp _ ih =>
    rw [List.all_cons, Bool.and_eq_true, ih, List.forall_mem_cons,
      Comparison.holdsIn_iff hp hrows]

/-- The columns of a query have the values that the references of its clause name. -/
theorem mapM_valueIn_eq {sources : List Table} {rs : List ColumnRef}
    {bs : List (BoundColumn sources.length)}
    (h : List.Forall₂ (fun r b => ColumnRef.columnOf sources r = .ok b) rs bs)
    {rows : List Row} (hrows : rows ∈ Query.combinations sources) :
    bs.mapM (·.valueIn rows) = some (rs.map (·.valueIn sources rows)) := by
  induction h with
  | nil => rfl
  | cons hb _ ih =>
    rw [List.mapM_cons, ColumnRef.valueIn_of_columnOf hb hrows, ih]
    rfl

/-- **The meaning of a query is what its clause selects.** -/
theorem Clause.rows_eq {c : Catalog} {name : String} {p : Clause} {q : Query}
    (h : p.Reads c name q) : q.rows = p.rows c := by
  obtain ⟨-, ⟨entries, hentries, htables⟩, -, hcolumns, hconditions⟩ := h
  have hsources : tablesOf c p.sources.toList = q.sources := (tablesOf_eq hentries).trans htables
  have hshown : ∀ rows ∈ Query.combinations q.sources, q.shown? rows =
      if ∀ d ∈ comparisons p.comparisons?, d.HoldsIn q.sources rows then
        some (p.columns.toList.map (·.valueIn q.sources rows)) else none := by
    intro rows hrows
    rw [Query.shown?, mapM_valueIn_eq hcolumns hrows]
    exact if_congr (all_holdsIn_iff hconditions hrows) rfl rfl
  rw [Query.rows, List.filterMap_congr hshown, Clause.rows, hsources, ← List.filterMap_eq_map',
    List.filterMap_filter]
  refine congrArg List.eraseDups (List.filterMap_congr fun rows _ => ?_)
  exact if_congr decide_eq_true_iff.symm rfl rfl

/-- **A query that was read has what its clause selects for an answer.** -/
theorem Clause.answer_of_reads {c : Catalog} {name : String} {p : Clause} {q : Query}
    (h : p.Reads c name q) :
    ∃ t, q.answer = .ok t ∧ t.name = name ∧ t.titles = p.titles ∧ t.rows = p.rows c := by
  obtain ⟨t, ht, hname, htitles, hrows⟩ := Query.answer_eq h.isBound
  obtain ⟨hname', htitles', -⟩ := Table.withTitles_spec h.result
  exact ⟨t, ht, hname.trans hname', htitles.trans htitles', hrows.trans (rows_eq h)⟩

end Phrase

/-! ## 5. Selections -/

namespace Session

open FlatQuery.Phrase

/-- Whatever query is read, it is a clause's, and its answer is what the clause selects. -/
theorem answer_of_query {c : Catalog} {name : String} {u v : TokenStream} {q : Query}
    (hu : u.IsLexical) (h : (Statement.query c name).run u = .ok q v) :
    ∃ (p : Clause) (answer : Table), p.Admissible c ∧ u.Takes p.spell v ∧
      q.answer = .ok answer ∧ answer.name = name ∧ answer.titles = p.titles ∧
        answer.rows = p.rows c := by
  obtain ⟨p, hreads, htakes⟩ := Statement.query_finds c name u q v hu h
  obtain ⟨answer, hanswer, hname, htitles, hrows⟩ := Clause.answer_of_reads hreads
  exact ⟨p, answer, Clause.exists_reads_iff.1 ⟨q, hreads⟩, htakes, hanswer, hname, htitles,
    hrows⟩

variable {s : Session} {p : Clause} {rest : List Arrival}

/-- A plain selection shows the rows that its clause selects, and changes nothing. -/
theorem select_shows (hs : s.stream.IsLexical) (hp : p.Admissible s.database.catalog)
    (hq : s.stream.queue = arrivals ((Command.select p).spell ++ [.terminator]) ++ rest) :
    ∃ t, s.statement = (.ok .onward, t) ∧ t.stream.queue = rest ∧ t.database = s.database ∧
      t.printed = s.printed ++ .line "Search results:" ::
        (p.rows s.database.catalog).map (fun r => .line r.display) := by
  obtain ⟨q, hreads⟩ := Clause.exists_reads_iff.2 hp
  obtain ⟨answer, hanswer, -, -, hrows⟩ := Clause.answer_of_reads hreads
  have hst : (Statement.select q).execute s.database =
      .ok (s.database, "Search results:" :: answer.display) := by
    rw [Statement.execute, hanswer]
    rfl
  obtain ⟨t, ht, hdb, hprinted, hrest⟩ := statement_of_reads hs hq (.select hreads) hst
  refine ⟨t, ht, hrest, hdb, ?_⟩
  rw [hprinted, Table.display, hrows, List.map_cons, List.map_map]
  rfl

/-- A creation registers what its clause selects under a name, and shows nothing. -/
theorem create_registers (hs : s.stream.IsLexical) (hp : p.Admissible s.database.catalog)
    {name : String} (hq : s.stream.queue =
      arrivals ((Command.create name (.query p)).spell ++ [.terminator]) ++ rest) :
    ∃ (t : Session) (answer : Table), s.statement = (.ok .onward, t) ∧ t.stream.queue = rest ∧
      answer.name = name ∧ answer.titles = p.titles ∧ answer.rows = p.rows s.database.catalog ∧
      t.database = { s.database with catalog := s.database.catalog.put name answer } ∧
      t.printed = s.printed := by
  obtain ⟨q, hreads⟩ := Clause.exists_reads_iff.2 hp
  obtain ⟨answer, hanswer, hname, htitles, hrows⟩ := Clause.answer_of_reads hreads
  have hst : (Statement.create name (.query q)).execute s.database =
      .ok ({ s.database with catalog := s.database.catalog.put name answer }, []) := by
    rw [Statement.execute, Definition.table, hanswer]
    rfl
  obtain ⟨t, ht, hdb, hprinted, hrest⟩ :=
    statement_of_reads hs hq (.create (.query hreads)) hst
  refine ⟨t, answer, ht, hrest, hname, htitles, hrows, hdb, ?_⟩
  rw [hprinted, List.map_nil, List.append_nil]

/-- **A selection selects what its clause says.** The answer to every query that is read is a
table with the titles of its clause and the rows that the clause selects. A plain selection
shows these rows and leaves the database alone, and a creation registers the answer. -/
theorem selection_answered (hs : s.stream.IsLexical) :
    (∀ name u q v, u.IsLexical →
      (Statement.query s.database.catalog name).run u = .ok q v →
      ∃ (p : Clause) (answer : Table), p.Admissible s.database.catalog ∧ u.Takes p.spell v ∧
        q.answer = .ok answer ∧ answer.name = name ∧ answer.titles = p.titles ∧
          answer.rows = p.rows s.database.catalog) ∧
    ∀ (p : Clause) (rest : List Arrival), p.Admissible s.database.catalog →
      (s.stream.queue = arrivals ((Command.select p).spell ++ [.terminator]) ++ rest →
        ∃ t, s.statement = (.ok .onward, t) ∧ t.stream.queue = rest ∧
          t.database = s.database ∧ t.printed = s.printed ++ .line "Search results:" ::
            (p.rows s.database.catalog).map (fun r => .line r.display)) ∧
      ∀ name, s.stream.queue =
          arrivals ((Command.create name (.query p)).spell ++ [.terminator]) ++ rest →
        ∃ (t : Session) (answer : Table), s.statement = (.ok .onward, t) ∧
          t.stream.queue = rest ∧ answer.name = name ∧ answer.titles = p.titles ∧
          answer.rows = p.rows s.database.catalog ∧
          t.database = { s.database with catalog := s.database.catalog.put name answer } ∧
          t.printed = s.printed :=
  ⟨fun _ _ _ _ => answer_of_query, fun _ _ hp =>
    ⟨select_shows hs hp, fun _ => create_registers hs hp⟩⟩

/-- A table of two rows, for a selection. -/
def pairTable : Table where
  name := "t"
  titles := ["a"]
  rowSet := (ArrivalSet.empty.insert ["x"]).insert ["y"]
  titles_nodup := by decide
  width_eq := by decide +kernel

theorem select_answered_pair :
    ∃ t, (start (.ofString "select a from t where a > 'x';")
      ⟨⟨[⟨"t", 0, pairTable⟩]⟩, .root, .empty⟩).statement = (.ok .onward, t) ∧
      t.printed = [.line "Search results:", .line "  y"] := by
  have hq : (start (.ofString "select a from t where a > 'x';")
      ⟨⟨[⟨"t", 0, pairTable⟩]⟩, .root, .empty⟩).stream.queue =
      arrivals ((Command.select ⟨⟨⟨"a", none⟩, []⟩, ⟨"t", []⟩,
        some ⟨⟨⟨"a", none⟩, .greater, .literal "'x'"⟩, []⟩⟩).spell ++ [.terminator]) ++ [] :=
    TokenStream.queue_ofSource.trans (by decide +kernel)
  have hp : Clause.Admissible ⟨[⟨"t", 0, pairTable⟩]⟩ ⟨⟨⟨"a", none⟩, []⟩, ⟨"t", []⟩,
      some ⟨⟨⟨"a", none⟩, .greater, .literal "'x'"⟩, []⟩⟩ := by
    refine ⟨by decide, by decide, by decide, fun r hr => ?_⟩
    have hr : r = ⟨"a", none⟩ := by
      simpa [Clause.refs, comparisons, OneOrMore.toList, Comparison.refs, Side.refs] using hr
    rw [hr]
    exact ⟨(0 : Fin 1), ⟨rfl, by decide⟩, fun j _ => Fin.fin_one_eq_zero j⟩
  obtain ⟨t, ht, -, -, hprinted⟩ := ((selection_answered
    (TokenStream.isLexical_of_none rfl)).2 _ _ hp).1 hq
  refine ⟨t, ht, hprinted.trans ?_⟩
  decide +kernel

end Session

end FlatQuery
