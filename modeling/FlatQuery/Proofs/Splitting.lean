import FlatQuery.Proofs.Rearranging

/-!
# What the relations say of a selection

The six relations are read off one comparison, and the comparison is that of a total order: of
texts by their code points. So they come in pairs that leave nothing out (`Relation.complement`)
and in pairs that say the same of two texts in either order (`Relation.mirror`).

All of this is carried over from texts to clauses. A comparison that is added to a clause
without any keeps some combinations of rows and drops the others, and its complement keeps
exactly the others. It is of combinations that this holds, and not of rows: two combinations may
show one row, so the rows that a comparison and its complement select together are all rows,
but may have some in common.
-/

set_option autoImplicit false

namespace FlatQuery

/-! ## 1. The order of texts -/

theorem compareText_eq_lt {x y : String} :
    compareText x y = .lt ↔ codePoints x < codePoints y :=
  beq_iff_eq.symm.trans (Relation.holds_compareText (r := .less))

theorem compareText_eq_gt {x y : String} :
    compareText x y = .gt ↔ codePoints y < codePoints x :=
  beq_iff_eq.symm.trans (Relation.holds_compareText (r := .greater))

theorem compareText_eq_eq {x y : String} : compareText x y = .eq ↔ x = y :=
  beq_iff_eq.symm.trans (Relation.holds_compareText (r := .equal))

/-- Texts that change places compare the other way. -/
theorem compareText_swap (x y : String) : compareText y x = (compareText x y).swap := by
  rcases compareText_cases x y with ⟨h, hlt⟩ | ⟨h, hlt⟩ | ⟨h, rfl⟩
  · rw [h, compareText_eq_gt.2 hlt]
    rfl
  · rw [h, compareText_eq_lt.2 hlt]
    rfl
  · rw [h]
    rfl

theorem compareText_ne_gt {x y : String} :
    compareText x y ≠ .gt ↔ codePoints x ≤ codePoints y := by
  rw [ne_eq, compareText_eq_gt, not_lt]

theorem compareText_trans {x y z : String} (hxy : compareText x y ≠ .gt)
    (hyz : compareText y z ≠ .gt) : compareText x z ≠ .gt :=
  compareText_ne_gt.2 (le_trans (compareText_ne_gt.1 hxy) (compareText_ne_gt.1 hyz))

/-! ## 2. Relations in pairs -/

namespace Relation

/-- The relation that holds where another one does not. -/
def complement : Relation → Relation
  | .less => .atLeast
  | .greater => .atMost
  | .atMost => .greater
  | .atLeast => .less
  | .equal => .different
  | .different => .equal

/-- The relation that holds where another one does of the texts in the other order. -/
def mirror : Relation → Relation
  | .less => .greater
  | .greater => .less
  | .atMost => .atLeast
  | .atLeast => .atMost
  | .equal => .equal
  | .different => .different

@[simp] theorem holds_complement (r : Relation) (o : Ordering) :
    r.complement.holds o = !r.holds o := by
  cases r <;> cases o <;> rfl

@[simp] theorem holds_mirror (r : Relation) (o : Ordering) :
    r.mirror.holds o = r.holds o.swap := by
  cases r <;> cases o <;> rfl

variable {r : Relation} {x y : String}

theorem relates_complement : r.complement.Relates x y ↔ ¬r.Relates x y := by
  rw [← holds_compareText, ← holds_compareText, holds_complement, Bool.not_eq_true',
    Bool.not_eq_true]

theorem relates_mirror : r.mirror.Relates y x ↔ r.Relates x y := by
  rw [← holds_compareText, ← holds_compareText, holds_mirror, ← compareText_swap]

/-- Neither of two texts comes after the other when they are equal. -/
theorem atMost_and_atLeast :
    atMost.Relates x y ∧ atLeast.Relates x y ↔ equal.Relates x y := by
  rw [Relates, Relates, Relates, ← le_antisymm_iff, codePoints_inj]

end Relation

/-! ## 3. Conditions -/

section Conditions

variable {n : Nat} {sources : List Table} {w : Workspace n sources.length}

/-- What is bound among some sources is bound wherever the cursors are on these. -/
theorem BoundColumn.isBound_of_tableUnder (hunder : ∀ i, w.tableUnder i = sources.get i)
    {b : BoundColumn sources.length} (hb : b.IsBound (Workspace.ofTables sources)) :
    b.IsBound w := by
  rw [BoundColumn.IsBound, ColumnRef.tableUnder_ofTables] at hb
  rw [BoundColumn.IsBound, hunder]
  exact hb

theorem Condition.isBound_of_tableUnder (hunder : ∀ i, w.tableUnder i = sources.get i)
    {d : Condition sources.length} (hd : d.IsBound (Workspace.ofTables sources)) :
    d.IsBound w :=
  ⟨BoundColumn.isBound_of_tableUnder hunder hd.1,
    fun b hb => BoundColumn.isBound_of_tableUnder hunder (hd.2 b hb)⟩

/-- A condition with the complementary relation. -/
def Condition.complement {m : Nat} (d : Condition m) : Condition m :=
  { d with relation := d.relation.complement }

/-- **Where the cursors stand, either a condition holds or its complement.** -/
theorem Condition.test_complement {d : Condition sources.length} {rows : List Row}
    (hw : w.StandsOn rows) (hd : d.IsBound w) :
    ∃ b, d.test w = .ok b ∧ d.complement.test w = .ok (!b) := by
  obtain ⟨x, hx, -⟩ := BoundColumn.value_of_standsOn hw hd.1
  have hy : ∃ y, d.right.value w = .ok y := by
    rcases hr : d.right with e | text
    · obtain ⟨y, hy, -⟩ := BoundColumn.value_of_standsOn hw (hd.2 e hr)
      exact ⟨y, hy⟩
    · exact ⟨text, rfl⟩
  obtain ⟨y, hy⟩ := hy
  refine ⟨d.relation.holds (compareText x y), ?_, ?_⟩
  · rw [test, hx, hy]
    rfl
  · -- Both sides have the values that they have in the condition itself.
    rw [test, complement, hx, hy, ← Relation.holds_complement]
    rfl

end Conditions

namespace Phrase

/-- So a comparison and its complement come to two conditions of which one holds. -/
theorem Comparison.exists_complementary {sources : List Table} {x : ColumnRef} {y : Side}
    (hrefs : ∀ r ∈ x :: y.refs, r.MatchedOnce sources) (r : Relation) :
    ∃ d d', Comparison.Reads sources ⟨x, r, y⟩ d ∧
      Comparison.Reads sources ⟨x, r.complement, y⟩ d' ∧
      ∀ (n : Nat) (w : Workspace n sources.length) (rows : List Row),
        (∀ i, w.tableUnder i = sources.get i) → w.StandsOn rows →
        ∃ b, d.test w = .ok b ∧ d'.test w = .ok (!b) := by
  obtain ⟨d, hd⟩ := (Comparison.exists_reads_iff (p := ⟨x, r, y⟩)).2 hrefs
  refine ⟨d, d.complement, hd, ⟨hd.left, congrArg Relation.complement hd.relation, hd.right⟩, ?_⟩
  intro n w rows hunder hw
  apply Condition.test_complement hw
  exact Condition.isBound_of_tableUnder hunder (isBound_of_reads hd)

/-! ## 4. Clauses -/

/-- A clause with some comparisons in the place of its own. -/
def Clause.restricted (p : Clause) (d : Comparison) (ds : List Comparison) : Clause :=
  { p with comparisons? := some ⟨d, ds⟩ }

section Restricted

variable {c : Catalog} {p : Clause} {d : Comparison} {ds : List Comparison} {x : ColumnRef}
  {y : Side}

/-- The catalog admits what is added when each of its references has one match. -/
theorem Clause.Admissible.restricted (hp : p.Admissible c)
    (hrefs : ∀ e ∈ d :: ds, ∀ r ∈ e.refs, r.MatchedOnce (tablesOf c p.sources.toList)) :
    (p.restricted d ds).Admissible c where
  titles := hp.titles
  registered := hp.registered
  sources_le := hp.sources_le
  columns r hr := by
    rcases List.mem_append.1 hr with hr | hr
    · exact hp.columns r (List.mem_append_left _ hr)
    · obtain ⟨e, he, hr⟩ := List.mem_flatMap.1 hr
      exact hrefs e he r hr

/-- Of a clause without comparisons a comparison keeps the combinations in which it holds. -/
theorem Clause.mem_kept_restricted (hnone : p.comparisons? = none) {rows : List Row} :
    rows ∈ (p.restricted d []).kept c ↔
      rows ∈ p.kept c ∧ d.HoldsIn (tablesOf c p.sources.toList) rows := by
  have hall : ∀ e ∈ comparisons p.comparisons?,
      e.HoldsIn (tablesOf c p.sources.toList) rows := by
    rw [hnone]
    exact fun e he => absurd he List.not_mem_nil
  rw [mem_kept, mem_kept, and_iff_left hall]
  exact and_congr_right fun _ => List.forall_mem_singleton

/-- **A comparison and its complement select all rows.** -/
theorem Clause.mem_rows_or_complement (hnone : p.comparisons? = none) {r : Relation}
    {row : Row} : row ∈ p.rows c ↔ row ∈ (p.restricted ⟨x, r, y⟩ []).rows c ∨
      row ∈ (p.restricted ⟨x, r.complement, y⟩ []).rows c := by
  rw [mem_rows, mem_rows, mem_rows]
  constructor
  · rintro ⟨rows, hkept, rfl⟩
    by_cases hholds : (⟨x, r, y⟩ : Comparison).HoldsIn (tablesOf c p.sources.toList) rows
    · exact .inl ⟨rows, (mem_kept_restricted hnone).2 ⟨hkept, hholds⟩, rfl⟩
    · have hcomplement := Relation.relates_complement.2 hholds
      exact .inr ⟨rows, (mem_kept_restricted hnone).2 ⟨hkept, hcomplement⟩, rfl⟩
  · rintro (⟨rows, hkept, rfl⟩ | ⟨rows, hkept, rfl⟩)
    · exact ⟨rows, ((mem_kept_restricted hnone).1 hkept).1, rfl⟩
    · exact ⟨rows, ((mem_kept_restricted hnone).1 hkept).1, rfl⟩

/-- At most and at least together are the same as equal. -/
theorem Clause.rows_atMost_atLeast :
    (p.restricted ⟨x, .atMost, y⟩ [⟨x, .atLeast, y⟩]).rows c =
      (p.restricted ⟨x, .equal, y⟩ []).rows c := by
  refine rows_congr rfl rfl fun rows => ?_
  change (∀ d ∈ [⟨x, .atMost, y⟩, ⟨x, .atLeast, y⟩], Comparison.HoldsIn _ rows d) ↔
    ∀ d ∈ [⟨x, .equal, y⟩], Comparison.HoldsIn _ rows d
  rw [List.forall_mem_cons, List.forall_mem_singleton, List.forall_mem_singleton]
  exact Relation.atMost_and_atLeast

/-- A comparison of columns says the same with its sides exchanged. -/
theorem Clause.rows_mirror {z : ColumnRef} {r : Relation} :
    (p.restricted ⟨z, r.mirror, .column x⟩ []).rows c =
      (p.restricted ⟨x, r, .column z⟩ []).rows c := by
  refine rows_congr rfl rfl fun rows => ?_
  change (∀ d ∈ [⟨z, r.mirror, .column x⟩], Comparison.HoldsIn _ rows d) ↔
    ∀ d ∈ [⟨x, r, .column z⟩], Comparison.HoldsIn _ rows d
  rw [List.forall_mem_singleton, List.forall_mem_singleton]
  exact Relation.relates_mirror

end Restricted

/-- **The relations are one total order and split every selection.** Texts compare as their code
points do, in lexicographic order, so that either comparison of two texts tells the other, none
but equal texts compare as equal, and comparisons chain.

Take any clause without comparisons that the catalog admits, a reference and a side with one
match each. Wherever cursors stand on rows of its sources, a comparison of the two holds or the
complementary one, and not both. The rows that the clause selects with the one or the other
added are those that it selects without. Asking for at most and at least gives the table that
asking for equality gives, and so does asking with the sides exchanged and the relation
mirrored. -/
theorem relations_split_clauses :
    (∀ x y z : String,
      (compareText x y = .lt ↔ codePoints x < codePoints y) ∧
      (compareText x y = .gt ↔ codePoints y < codePoints x) ∧
      (compareText x y = .eq ↔ x = y) ∧
      compareText y x = (compareText x y).swap ∧
      (compareText x y ≠ .gt → compareText y z ≠ .gt → compareText x z ≠ .gt)) ∧
    ∀ (db : Database) (name? : Option String) (p : Clause) (x : ColumnRef) (y : Side),
      let sources := tablesOf db.catalog p.sources.toList
      p.Admissible db.catalog → p.comparisons? = none →
      (∀ r ∈ x :: y.refs, r.MatchedOnce sources) →
      (∀ r : Relation, ∃ d d', Comparison.Reads sources ⟨x, r, y⟩ d ∧
        Comparison.Reads sources ⟨x, r.complement, y⟩ d' ∧
        ∀ (n : Nat) (w : Workspace n sources.length) (rows : List Row),
          (∀ i, w.tableUnder i = sources.get i) → w.StandsOn rows →
          ∃ b, d.test w = .ok b ∧ d'.test w = .ok (!b)) ∧
      (∀ r : Relation, ∃ t u v, p.Gives db name? t ∧
        (p.restricted ⟨x, r, y⟩ []).Gives db name? u ∧
        (p.restricted ⟨x, r.complement, y⟩ []).Gives db name? v ∧
        ∀ row, row ∈ t.rows ↔ row ∈ u.rows ∨ row ∈ v.rows) ∧
      (∃ t, (p.restricted ⟨x, .atMost, y⟩ [⟨x, .atLeast, y⟩]).Gives db name? t ∧
        (p.restricted ⟨x, .equal, y⟩ []).Gives db name? t) ∧
      ∀ z, y = .column z → ∀ r : Relation, ∃ t,
        (p.restricted ⟨x, r, .column z⟩ []).Gives db name? t ∧
        (p.restricted ⟨z, r.mirror, .column x⟩ []).Gives db name? t := by
  refine ⟨fun x y z => ⟨compareText_eq_lt, compareText_eq_gt, compareText_eq_eq,
    compareText_swap x y, compareText_trans⟩, ?_⟩
  intro db name? p x y sources hp hnone hrefs
  have hadmissible : ∀ r : Relation, (p.restricted ⟨x, r, y⟩ []).Admissible db.catalog :=
    fun r => hp.restricted (List.forall_mem_singleton.2 hrefs)
  refine ⟨Comparison.exists_complementary hrefs, fun r => ?_, ?_, ?_⟩
  · obtain ⟨t, ht, -, -, htrows⟩ := Clause.exists_gives hp name?
    obtain ⟨u, hu, -, -, hurows⟩ := Clause.exists_gives (hadmissible r) name?
    obtain ⟨v, hv, -, -, hvrows⟩ := Clause.exists_gives (hadmissible r.complement) name?
    refine ⟨t, u, v, ht, hu, hv, fun row => ?_⟩
    rw [htrows, hurows, hvrows]
    exact Clause.mem_rows_or_complement hnone
  · have hboth : (p.restricted ⟨x, .atMost, y⟩ [⟨x, .atLeast, y⟩]).Admissible db.catalog :=
      hp.restricted (List.forall_mem_cons.2 ⟨hrefs, List.forall_mem_singleton.2 hrefs⟩)
    exact Clause.exists_gives_both hboth (hadmissible .equal) rfl
      Clause.rows_atMost_atLeast.symm name?
  · rintro z rfl r
    have hmirror : (p.restricted ⟨z, r.mirror, .column x⟩ []).Admissible db.catalog := by
      refine hp.restricted (List.forall_mem_singleton.2 fun s hs => hrefs s ?_)
      rcases List.mem_cons.1 hs with rfl | hs
      · exact List.mem_cons_of_mem _ (List.mem_singleton.2 rfl)
      · exact List.mem_cons.2 (.inl (List.mem_singleton.1 hs))
    exact Clause.exists_gives_both (hadmissible r) hmirror rfl Clause.rows_mirror name?

/-- A text that the order of code units would put last, and a selection with a comparison that
divides its rows. -/
theorem relations_split_clauses_alike :
    compareText "ｚ" "𝒜" = .lt ∧
    let p : Clause := ⟨⟨⟨"a", none⟩, [⟨"c", none⟩]⟩, ⟨"t", ["u"]⟩, none⟩
    p.Admissible alikeTables.catalog ∧ p.comparisons? = none ∧
      (∀ r ∈ (⟨"a", none⟩ : ColumnRef) :: (Side.column ⟨"c", some "u"⟩).refs,
        r.MatchedOnce (tablesOf alikeTables.catalog p.sources.toList)) ∧
      ∃ t u v, p.Gives alikeTables none t ∧
        (p.restricted ⟨⟨"a", none⟩, .less, .column ⟨"c", some "u"⟩⟩ []).Gives alikeTables none u ∧
        (p.restricted ⟨⟨"a", none⟩, .atLeast, .column ⟨"c", some "u"⟩⟩ []).Gives
          alikeTables none v ∧ ∀ row, row ∈ t.rows ↔ row ∈ u.rows ∨ row ∈ v.rows := by
  refine ⟨(relations_split_clauses.1 "ｚ" "𝒜" "").1.2 (by decide), ?_⟩
  intro p
  have hp : p.Admissible alikeTables.catalog := by
    refine ⟨by decide, by decide, by decide, ?_⟩
    simp only [ColumnRef.matchedOnce_iff_countP]
    decide +kernel
  have hrefs : ∀ r ∈ (⟨"a", none⟩ : ColumnRef) :: (Side.column ⟨"c", some "u"⟩).refs,
      r.MatchedOnce (tablesOf alikeTables.catalog p.sources.toList) := by
    simp only [ColumnRef.matchedOnce_iff_countP]
    decide +kernel
  exact ⟨hp, rfl, hrefs, (relations_split_clauses.2 alikeTables none p _ _ hp rfl hrefs).2.1 .less⟩

end Phrase

end FlatQuery
