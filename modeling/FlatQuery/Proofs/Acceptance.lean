import FlatQuery.Proofs.Answer
import FlatQuery.Proofs.Files
import FlatQuery.Proofs.Spelling
import FlatQuery.Proofs.Turns

/-!
# Which statements are accepted

A statement is accepted when it is a command of the grammar and what the command asks for
can be done. What that is depends on the command and is said by `Phrase.Command.Admissible`
in terms of the catalog and the files alone: titles must differ, tables must be there,
every column must be one of exactly one source, and so on. No order among these conditions
shows in it, although the session checks some of them while it still reads and others when
the whole statement has been read.

That the two come to the same rests on a query that was read being one that can be answered
(`Phrase.Clause.Reads.isBound`), so that nothing can fail behind the checks.
-/

set_option autoImplicit false

namespace FlatQuery

/-! ## 1. Lists of pairs -/

/-- Each element of a list has a partner exactly if there is a list of partners. -/
theorem exists_forall₂ {α β : Type} {R : α → β → Prop} {xs : List α} :
    (∃ ys, List.Forall₂ R xs ys) ↔ ∀ x ∈ xs, ∃ y, R x y := by
  induction xs with
  | nil => exact ⟨fun _ _ hx => absurd hx List.not_mem_nil, fun _ => ⟨[], .nil⟩⟩
  | cons x xs ih =>
    rw [List.forall_mem_cons, ← ih]
    constructor
    · rintro ⟨ys, h⟩
      obtain ⟨y, ys', hy, hys, -⟩ := List.forall₂_cons_left_iff.1 h
      exact ⟨⟨y, hy⟩, ys', hys⟩
    · rintro ⟨⟨y, hy⟩, ys, hys⟩
      exact ⟨y :: ys, .cons hy hys⟩

/-- A partner in the second list has one in the first. -/
theorem exists_of_mem_right {α β : Type} {R : α → β → Prop} {xs : List α} {ys : List β}
    (h : List.Forall₂ R xs ys) {y : β} (hy : y ∈ ys) : ∃ x ∈ xs, R x y := by
  induction h with
  | nil => exact absurd hy List.not_mem_nil
  | cons hxy _ ih =>
    rcases List.mem_cons.1 hy with rfl | hy
    · exact ⟨_, List.mem_cons_self .., hxy⟩
    · obtain ⟨x, hx, hR⟩ := ih hy
      exact ⟨x, List.mem_cons_of_mem _ hx, hR⟩

namespace Phrase

/-! ## 2. Clauses -/

/-- The references of the right side of a comparison. -/
def Side.refs : Side → List ColumnRef
  | .literal _ => []
  | .column r => [r]

def Comparison.refs (p : Comparison) : List ColumnRef := p.left :: p.right.refs

/-- The references of a clause: its columns, and those that its comparisons name. -/
def Clause.refs (p : Clause) : List ColumnRef :=
  p.columns.toList ++ (comparisons p.comparisons?).flatMap Comparison.refs

/-- The tables that are registered under some names. -/
def tablesOf (c : Catalog) (names : List String) : List Table :=
  names.filterMap fun n => (c.find? n).map Catalog.Entry.table

/-- What a clause asks of the catalog. -/
structure Clause.Admissible (c : Catalog) (p : Clause) : Prop where
  titles : (p.columns.toList.map ColumnRef.name).Nodup
  registered : ∀ n ∈ p.sources.toList, n ∈ c.names
  sources_le : p.sources.toList.length ≤ Workspace.maxSources
  columns : ∀ r ∈ p.refs, r.MatchedOnce (tablesOf c p.sources.toList)

/-- The tables of some names are those of the entries that are found under them. -/
theorem tablesOf_eq {c : Catalog} {names : List String} {entries : List Catalog.Entry}
    (h : List.Forall₂ (fun n e => c.lookup n = .ok e) names entries) :
    tablesOf c names = entries.map Catalog.Entry.table := by
  induction h with
  | nil => rfl
  | cons he _ ih =>
    rw [Catalog.lookup_eq_ok_iff] at he
    rw [tablesOf, List.filterMap_cons, he]
    exact congrArg _ ih

/-- A comparison can be read where each of its references names one column. -/
theorem Comparison.exists_reads_iff {sources : List Table} {p : Comparison} :
    (∃ c, p.Reads sources c) ↔ ∀ r ∈ p.refs, r.MatchedOnce sources := by
  obtain ⟨left, relation, right⟩ := p
  rw [refs, List.forall_mem_cons, ← ColumnRef.columnOf_isOk_iff]
  constructor
  · rintro ⟨c, hleft, -, hright⟩
    refine ⟨⟨_, hleft⟩, fun r hr => ?_⟩
    rcases right with text | r'
    · exact absurd hr List.not_mem_nil
    · rw [List.mem_singleton.1 hr, ← ColumnRef.columnOf_isOk_iff]
      generalize c.right = o at hright
      rcases hright with _ | hb
      exact ⟨_, hb⟩
  · rintro ⟨⟨b, hb⟩, hright⟩
    rcases right with text | r
    · exact ⟨⟨b, relation, _⟩, hb, rfl, .literal text⟩
    · obtain ⟨d, hd⟩ := ColumnRef.columnOf_isOk_iff.2 (hright r (List.mem_singleton.2 rfl))
      exact ⟨⟨b, relation, _⟩, hb, rfl, .column hd⟩

/-- **A clause means a query when the catalog has what it asks for.** -/
theorem Clause.exists_reads_iff {c : Catalog} {resultName : String} {p : Clause} :
    (∃ q, p.Reads c resultName q) ↔ p.Admissible c := by
  constructor
  · rintro ⟨q, hresult, ⟨entries, hentries, htables⟩, hle, hcolumns, hconditions⟩
    -- The references are resolved among the tables that were found, which are those of the names.
    have htablesOf := (tablesOf_eq hentries).trans htables
    refine ⟨Table.withTitles_isOk_iff.1 ⟨_, hresult⟩, fun n hn => ?_, ?_, fun r hr => ?_⟩
    · exact Catalog.lookup_isOk_iff.1 (exists_forall₂.1 ⟨_, hentries⟩ n hn)
    · rw [hentries.length_eq, ← List.length_map Catalog.Entry.table, htables]
      exact hle
    · rw [htablesOf]
      rcases List.mem_append.1 hr with hr | hr
      · exact ColumnRef.columnOf_isOk_iff.1 (exists_forall₂.1 ⟨_, hcolumns⟩ r hr)
      · obtain ⟨comparison, hcomparison, hr⟩ := List.mem_flatMap.1 hr
        exact Comparison.exists_reads_iff.1
          (exists_forall₂.1 ⟨_, hconditions⟩ comparison hcomparison) r hr
  · rintro ⟨htitles, hregistered, hle, hrefs⟩
    -- The parts are found one after the other, as the query is read.
    obtain ⟨result, hresult⟩ : ∃ t, Table.withTitles resultName _ = .ok t :=
      Table.withTitles_isOk_iff.2 htitles
    obtain ⟨entries, hentries⟩ := exists_forall₂.2 fun n hn =>
      Catalog.lookup_isOk_iff.2 (hregistered n hn)
    rw [tablesOf_eq hentries] at hrefs
    obtain ⟨columns, hcolumns⟩ := exists_forall₂.2 fun r hr =>
      ColumnRef.columnOf_isOk_iff.2 (hrefs r (List.mem_append_left _ hr))
    obtain ⟨conditions, hconditions⟩ := exists_forall₂.2 fun comparison hcomparison =>
      Comparison.exists_reads_iff.2 fun r hr => hrefs r
        (List.mem_append_right _ (List.mem_flatMap.2 ⟨comparison, hcomparison, hr⟩))
    refine ⟨⟨result, entries.map Catalog.Entry.table, columns, conditions⟩, hresult,
      ⟨entries, hentries, rfl⟩, ?_, hcolumns, hconditions⟩
    rw [List.length_map, ← hentries.length_eq]
    exact hle

/-- A reference that is resolved is bound to a cursor over the sources. -/
theorem isBound_of_columnOf {sources : List Table} {r : ColumnRef}
    {b : BoundColumn sources.length} (h : ColumnRef.columnOf sources r = .ok b) :
    b.IsBound (Workspace.ofTables sources) := by
  obtain ⟨-, ⟨k, hk, htitle⟩, -⟩ := ColumnRef.columnOf_spec h
  obtain ⟨hlt, -⟩ := List.getElem?_eq_some_iff.1 htitle
  rw [BoundColumn.IsBound, ColumnRef.tableUnder_ofTables]
  omega

/-- Both sides of a comparison that is read are bound. -/
theorem Comparison.isBound_of_reads {sources : List Table} {p : Comparison}
    {d : Condition sources.length} (h : p.Reads sources d) :
    d.IsBound (Workspace.ofTables sources) := by
  refine ⟨isBound_of_columnOf h.left, fun b hb => ?_⟩
  have hright := h.right
  rw [hb] at hright
  generalize p.right = side at hright
  rcases hright with _ | hr
  exact isBound_of_columnOf hr

/-- **A query that was read can be answered.** -/
theorem Clause.Reads.isBound {c : Catalog} {resultName : String} {p : Clause} {q : Query}
    (h : p.Reads c resultName q) : q.IsBound := by
  obtain ⟨hresult, ⟨entries, hentries, htables⟩, hle, hcolumns, hconditions⟩ := h
  obtain ⟨-, htitles, hempty⟩ := Table.withTitles_spec hresult
  refine ⟨?_, hle, fun b hb => ?_, fun d hd => ?_, ?_, hempty⟩
  · rw [← htables, List.length_map, ← hentries.length_eq]
    exact Nat.succ_pos _
  · obtain ⟨r, -, hr⟩ := exists_of_mem_right hcolumns hb
    exact isBound_of_columnOf hr
  · obtain ⟨comparison, -, hreads⟩ := exists_of_mem_right hconditions hd
    exact Comparison.isBound_of_reads hreads
  · rw [htitles, List.length_map, hcolumns.length_eq]

/-! ## 3. Commands -/

/-- What a command asks of the catalog and the files. -/
def Command.Admissible (db : Database) : Command → Prop
  | .create _ (.titles ts) => ts.toList.Nodup
  | .create _ (.query p) => p.Admissible db.catalog
  | .insert target values _ =>
    ∃ e, db.catalog.find? target = some e ∧ values.toList.length = e.table.width
  | .load name => db.Readable name
  | .store name => name ∈ db.catalog.names ∧ db.Writable name
  | .print name => name ∈ db.catalog.names
  | .select p => p.Admissible db.catalog
  | .exit | .quit => True

/-- The creation of a table by a query that is bound never fails. -/
theorem execute_create_isOk (db : Database) (name : String) {q : Query} (h : q.IsBound) :
    ∃ r, (Statement.create name (.query q)).execute db = .ok r := by
  obtain ⟨t, ht, -⟩ := Query.answer_eq h
  rw [Statement.execute, Definition.table, ht]
  exact ⟨_, rfl⟩

/-- A selection that is bound never fails. -/
theorem execute_select_isOk (db : Database) {q : Query} (h : q.IsBound) :
    ∃ r, (Statement.select q).execute db = .ok r := by
  obtain ⟨t, ht, -⟩ := Query.answer_eq h
  rw [Statement.execute, ht]
  exact ⟨_, rfl⟩

/-- An insertion fails by the number of its values alone. -/
theorem execute_insert_isOk_iff (db : Database) {e : Catalog.Entry} {values : Row} :
    (∃ r, (Statement.insert e values).execute db = .ok r) ↔
      values.length = e.table.width := by
  rw [Statement.execute]
  by_cases h : values.length = e.table.width
  · rw [if_neg (not_not.2 h), Table.add, dif_pos (show _ = e.table.titles.length from h)]
    exact iff_of_true ⟨_, rfl⟩ h
  · rw [if_pos h]
    refine iff_of_false ?_ h
    rintro ⟨r, hr⟩
    simp [throw, throwThe, MonadExceptOf.throw, bind, Except.bind] at hr

/-- **A command is carried out when the catalog and the files have what it asks for.** -/
theorem Command.exists_execute_iff {db : Database} {cmd : Command} :
    (∃ st r, cmd.Reads db.catalog st ∧ st.execute db = .ok r) ↔ cmd.Admissible db := by
  constructor
  -- What was read and carried out shows its side condition, command by command.
  · rintro ⟨st, r, hreads, hst⟩
    rcases hreads with @⟨n, body, d, ht | hq⟩ | he | n | n | n | hq | _ | _
    · exact Table.withTitles_isOk_iff.1 ⟨_, ht⟩
    · exact Clause.exists_reads_iff.1 ⟨_, hq⟩
    · rw [Catalog.lookup_eq_ok_iff] at he
      have hlength := (execute_insert_isOk_iff db).1 ⟨r, hst⟩
      rw [List.length_map] at hlength
      exact ⟨_, he, hlength⟩
    -- A load, a store and a print do nothing but ask the database, so they fail as it does.
    · apply Database.load_isOk_iff.1
      rw [Statement.execute] at hst
      rcases hload : db.load n with e | db'
      · rw [hload] at hst
        simp [bind, Except.bind] at hst
      · exact ⟨db', rfl⟩
    · apply Database.store_isOk_iff.1
      rw [Statement.execute] at hst
      rcases hstore : db.store n with e | db'
      · rw [hstore] at hst
        simp [bind, Except.bind] at hst
      · exact ⟨db', rfl⟩
    · apply Catalog.lookup_isOk_iff.1
      rw [Statement.execute] at hst
      rcases hlookup : db.catalog.lookup n with e | entry
      · rw [hlookup] at hst
        simp [bind, Except.bind] at hst
      · exact ⟨entry, rfl⟩
    · exact Clause.exists_reads_iff.1 ⟨_, hq⟩
    · trivial
    · trivial
  -- The side condition lets the command be read, and nothing else can keep it from being carried
  -- out.
  · intro h
    rcases cmd with ⟨n, ts | p⟩ | ⟨target, values, parenthesized⟩ | n | n | n | p | _ | _
    · obtain ⟨t, ht⟩ : ∃ t, Table.withTitles n _ = .ok t := Table.withTitles_isOk_iff.2 h
      exact ⟨_, _, .create (.titles ht), rfl⟩
    · obtain ⟨q, hq⟩ : ∃ q, p.Reads db.catalog n q := Clause.exists_reads_iff.2 h
      obtain ⟨r, hr⟩ := execute_create_isOk db n hq.isBound
      exact ⟨_, r, .create (.query hq), hr⟩
    · obtain ⟨e, he, hlength⟩ := h
      rw [← List.length_map Statement.literalValue] at hlength
      obtain ⟨r, hr⟩ := (execute_insert_isOk_iff db).2 hlength
      exact ⟨_, r, .insert (Catalog.lookup_eq_ok_iff.2 he), hr⟩
    · obtain ⟨db', hload⟩ := Database.load_isOk_iff.2 h
      obtain ⟨r, hr⟩ : ∃ r, (Statement.load n).execute db = .ok r := by
        rw [Statement.execute, hload]
        exact ⟨_, rfl⟩
      exact ⟨_, r, .load n, hr⟩
    · obtain ⟨db', hstore⟩ := Database.store_isOk_iff.2 h
      obtain ⟨r, hr⟩ : ∃ r, (Statement.store n).execute db = .ok r := by
        rw [Statement.execute, hstore]
        exact ⟨_, rfl⟩
      exact ⟨_, r, .store n, hr⟩
    · obtain ⟨e, he⟩ := Catalog.lookup_isOk_iff.2 h
      obtain ⟨r, hr⟩ : ∃ r, (Statement.print n).execute db = .ok r := by
        rw [Statement.execute, he]
        exact ⟨_, rfl⟩
      exact ⟨_, r, .print n, hr⟩
    · obtain ⟨q, hq⟩ : ∃ q, p.Reads db.catalog Statement.selectionName q :=
        Clause.exists_reads_iff.2 h
      obtain ⟨r, hr⟩ := execute_select_isOk db hq.isBound
      exact ⟨_, r, .select hq, hr⟩
    · exact ⟨_, _, .exit, rfl⟩
    · exact ⟨_, _, .quit, rfl⟩

/-! ## 4. Where a command ends -/

/-- A list holds no semicolon if neither its items nor its separator do. -/
theorem OneOrMore.kind_ne_semicolon {α : Type} {separator : String} {item : α → List Token}
    (hsep : (Token.ofText separator).kind ≠ .semicolon)
    (hitem : ∀ x, ∀ k ∈ item x, k.kind ≠ .semicolon) (xs : OneOrMore α) :
    ∀ k ∈ xs.spell separator item, k.kind ≠ .semicolon := by
  intro k hk
  rcases List.mem_append.1 hk with hk | hk
  · exact hitem _ k hk
  · obtain ⟨x, -, hk⟩ := List.mem_flatMap.1 hk
    rcases List.mem_cons.1 hk with rfl | hk
    · exact hsep
    · exact hitem x k hk

/-- A reference holds no semicolon. -/
theorem spell_columnRef_ne_semicolon (r : ColumnRef) : ∀ k ∈ r.spell, k.kind ≠ .semicolon := by
  obtain ⟨n, _ | q⟩ := r
  · simp [ColumnRef.spell, Token.ofName]
  · simp [ColumnRef.spell, Token.ofName]
    decide

/-- A comparison holds no semicolon: its sign is a relation. -/
theorem spell_comparison_ne_semicolon (p : Comparison) : ∀ k ∈ p.spell, k.kind ≠ .semicolon := by
  obtain ⟨left, relation, text | r⟩ := p
  · simp only [Comparison.spell, Side.spell, List.forall_mem_append, List.forall_mem_cons]
    exact ⟨spell_columnRef_ne_semicolon left, by simp, by simp, by simp⟩
  · simp only [Comparison.spell, Side.spell, List.forall_mem_append, List.forall_mem_cons]
    exact ⟨spell_columnRef_ne_semicolon left, by simp, spell_columnRef_ne_semicolon r⟩

/-- No part of a clause holds a semicolon. -/
theorem spell_clause_ne_semicolon (p : Clause) : ∀ k ∈ p.spell, k.kind ≠ .semicolon := by
  rw [Clause.spell, List.forall_mem_append, List.forall_mem_cons, List.forall_mem_append]
  refine ⟨OneOrMore.kind_ne_semicolon (by decide) spell_columnRef_ne_semicolon _, by decide,
    OneOrMore.kind_ne_semicolon (by decide) (by simp [Token.ofName]) _, ?_⟩
  rcases p.comparisons? with _ | cs
  · exact fun k hk => absurd hk List.not_mem_nil
  · rw [spellWhere, List.forall_mem_cons]
    exact ⟨by decide, OneOrMore.kind_ne_semicolon (by decide) spell_comparison_ne_semicolon _⟩

/-- No command holds a semicolon. -/
theorem Command.kind_ne_semicolon (cmd : Command) : ∀ k ∈ cmd.spell, k.kind ≠ .semicolon := by
  have hnames : ∀ xs : OneOrMore String, ∀ k ∈ xs.spell "," (fun n => [Token.ofName n]),
      k.kind ≠ .semicolon :=
    OneOrMore.kind_ne_semicolon (by decide) (by simp [Token.ofName])
  have hliterals : ∀ xs : OneOrMore String, ∀ k ∈ xs.spell "," (fun v => [⟨.literal, v⟩]),
      k.kind ≠ .semicolon :=
    OneOrMore.kind_ne_semicolon (by decide) (by simp)
  rcases cmd with ⟨n, ts | p⟩ | ⟨target, values, _ | _⟩ | n | n | n | p | _ | _
  -- The words of a command are no semicolons, nor are the names in it; lists and clauses have
  -- lemmas of their own.
  · simp only [spell, Body.spell, List.forall_mem_cons, List.forall_mem_append]
    exact ⟨by decide, by decide, by simp [Token.ofName], by decide, hnames ts, by decide,
      by simp⟩
  · simp only [spell, Body.spell, List.forall_mem_cons]
    exact ⟨by decide, by decide, by simp [Token.ofName], by decide, by decide,
      spell_clause_ne_semicolon p⟩
  · simp only [spell, List.forall_mem_cons]
    exact ⟨by decide, by decide, by simp [Token.ofName], by decide, hliterals values⟩
  · simp only [spell, spellValues, List.forall_mem_cons]
    refine ⟨by decide, by decide, by simp [Token.ofName], by decide, ?_⟩
    rw [if_pos trivial, List.forall_mem_cons, List.forall_mem_append]
    exact ⟨by decide, hliterals values, by decide⟩
  · simp [spell, Token.ofName]
    decide
  · simp [spell, Token.ofName]
    decide
  · simp [spell, Token.ofName]
    decide
  · rw [spell, List.forall_mem_cons]
    exact ⟨by decide, spell_clause_ne_semicolon p⟩
  · decide
  · decide

end Phrase

/-- Only a semicolon has its text. -/
theorem Token.IsLexical.text_ne_semicolon {k : Token} (h : k.IsLexical)
    (hk : k.kind ≠ .semicolon) : k.text ≠ ";" := by
  intro htext
  apply hk
  rw [h.eq_of_text htext]
  rfl

/-! ## 5. Statements -/

/-- What stands before the first of its kind is determined, and so is what stands behind. -/
theorem eq_of_append_cons {α : Type} {a : α} {l l' r r' : List α} (hl : a ∉ l) (hl' : a ∉ l')
    (h : l ++ a :: r = l' ++ a :: r') : l = l' ∧ r = r' := by
  induction l generalizing l' with
  | nil =>
    rcases l' with _ | ⟨b, l'⟩
    · exact ⟨rfl, (List.cons.inj h).2⟩
    · exact absurd ((List.cons.inj h).1 ▸ List.mem_cons_self ..) hl'
  | cons b l ih =>
    rcases l' with _ | ⟨b', l'⟩
    · exact absurd ((List.cons.inj h).1 ▸ List.mem_cons_self ..) hl
    · obtain ⟨rfl, htail⟩ := List.cons.inj h
      obtain ⟨rfl, hr⟩ := ih (List.not_mem_of_not_mem_cons hl)
        (List.not_mem_of_not_mem_cons hl') htail
      exact ⟨rfl, hr⟩

/-- Where a token stands next, it is not the end of the input that is found. -/
theorem Statement.next?_ne_none {c : Catalog} {s t : TokenStream} {k : Token}
    {rest : List Arrival} (hq : s.queue = .ok k :: rest) : (next? c).run s ≠ .ok none t := by
  intro h
  obtain ⟨a, u, hl, h⟩ := Parser.run_bind_ok h
  obtain ⟨hsu, ⟨rfl, hu, -⟩ | ⟨k', rfl, -, -⟩⟩ := TokenStream.lookahead_takes hl
  · rw [hsu.queue_eq, hu] at hq
    simp [arrivals] at hq
  · dsimp only at h
    rcases hbody : body? c k'.text with _ | p <;> rw [hbody] at h
    · simp [Parser.fail] at h
    · obtain ⟨_, v, -, h⟩ := Parser.run_bind_ok h
      obtain ⟨st, w, -, h⟩ := Parser.run_bind_ok h
      injection h with h
      simp at h

namespace Session

open FlatQuery.Phrase

/-- What is read of a statement is all of it. -/
theorem exists_command_of_read {c : Catalog} {s t : TokenStream} {st : Statement}
    (hs : s.IsLexical) {body : List Token} {rest : List Arrival}
    (hbody : ∀ k ∈ body, k.text ≠ ";")
    (hq : s.queue = arrivals (body ++ [.terminator]) ++ rest)
    (h : (Statement.next? c).run s = .ok (some st) t) :
    ∃ cmd : Command, body = cmd.spell ∧ cmd.Reads c st ∧ t.queue = rest ∧
      t.consumed = s.consumed + (body.length + 1) := by
  obtain ⟨cmd, hreads, htakes⟩ := Statement.next?_finds hs h
  -- Up to the first semicolon both spell the same, and neither holds one before its end.
  have heq : arrivals cmd.spell ++ .ok .terminator :: t.queue =
      arrivals body ++ .ok .terminator :: rest := by
    have hqt := htakes.queue_eq
    rw [hq, arrivals_append, arrivals_append, List.append_assoc, List.append_assoc] at hqt
    exact hqt.symm
  have hcmd : (.ok .terminator : Arrival) ∉ arrivals cmd.spell := by
    intro hmem
    obtain ⟨k, hk, hkt⟩ := List.mem_map.1 hmem
    injection hkt with hkt
    exact cmd.kind_ne_semicolon k hk (by rw [hkt]; rfl)
  have hnotin : (.ok .terminator : Arrival) ∉ arrivals body := by
    intro hmem
    obtain ⟨k, hk, hkt⟩ := List.mem_map.1 hmem
    injection hkt with hkt
    exact hbody k hk (by rw [hkt]; rfl)
  obtain ⟨hspell, hrest⟩ := eq_of_append_cons hcmd hnotin heq
  have hspell : cmd.spell = body := List.map_injective_iff.2 (fun _ _ h => by injection h) hspell
  refine ⟨cmd, hspell.symm, hreads, hrest, ?_⟩
  rw [htakes.consumed_eq, hspell, List.length_append]
  rfl

/-- Where the tokens of a command are the next to come, the statement that it means is read. -/
theorem exists_read_of_spelled {s : Session} (hs : s.stream.IsLexical) {cmd : Command}
    {rest : List Arrival} (hq : s.stream.queue = arrivals (cmd.spell ++ [.terminator]) ++ rest)
    {st : Statement} (hreads : cmd.Reads s.database.catalog st) :
    ∃ u, (Statement.next? s.database.catalog).run s.stream = .ok (some st) u ∧ u.queue = rest := by
  have hlex : ∀ k ∈ cmd.spell, k.IsLexical := fun k hk => hs k (mem_of_spelled hq hk)
  obtain ⟨u, hrun, htakes⟩ := Statement.next?_accepts hreads hlex s.stream rest hq trivial
  exact ⟨u, hrun, htakes.queue_rest hq⟩

/-- A command that means something, and can be carried out, is. -/
theorem statement_of_reads {s : Session} (hs : s.stream.IsLexical) {cmd : Command}
    {rest : List Arrival} (hq : s.stream.queue = arrivals (cmd.spell ++ [.terminator]) ++ rest)
    {st : Statement} (hreads : cmd.Reads s.database.catalog st) {db : Database}
    {lines : List String} (hst : st.execute s.database = .ok (db, lines)) :
    ∃ t, s.statement = (.ok (if st.continues then .onward else .left), t) ∧ t.database = db ∧
      t.printed = s.printed ++ lines.map .line ∧ t.stream.queue = rest := by
  obtain ⟨u, hrun, hrest⟩ := exists_read_of_spelled hs hq hreads
  refine ⟨(s.readTo u).carryOut db lines, statement_of_done hrun hst, rfl, ?_, ?_⟩
  · rw [printed_carryOut, printed_readTo]
  · rw [queue_carryOut, queue_readTo, hrest]

/-- Only the two commands to leave end a session. -/
theorem left_iff_of_reads {c : Catalog} {cmd : Command} {st : Statement} (h : cmd.Reads c st) :
    st.continues = false ↔ cmd.spell = Command.exit.spell ∨ cmd.spell = Command.quit.spell := by
  rcases h with _ | _ | n | n | n | _ | _ | _ <;>
    simp [Statement.continues, Command.spell, Token.ofText]

/-- **The grammar and its side conditions.** Where the next thing to come are the tokens of
a text up to its first semicolon, a statement is accepted exactly when these tokens spell a
command that the catalog and the files admit. Then they are consumed and no others, and the
session is left exactly by the two commands for it. -/
theorem statement_accepted_iff {s : Session} (hs : s.stream.IsLexical) {body : List Token}
    {rest : List Arrival} (hbody : ∀ k ∈ body, k.text ≠ ";")
    (hq : s.stream.queue = arrivals (body ++ [.terminator]) ++ rest) :
    ((∃ a t, s.statement = (.ok a, t)) ↔
      ∃ cmd : Command, body = cmd.spell ∧ cmd.Admissible s.database) ∧
    ∀ a t, s.statement = (.ok a, t) →
      t.stream.queue = rest ∧ t.stream.consumed = s.stream.consumed + (body.length + 1) ∧
        a ≠ .inputEnded ∧
        (a = .left ↔ body = Command.exit.spell ∨ body = Command.quit.spell) := by
  -- Whatever is accepted was read as a command and carried out.
  have hread : ∀ a t, s.statement = (.ok a, t) → ∃ (st : Statement) (u : TokenStream)
      (r : Database × List String),
      (Statement.next? s.database.catalog).run s.stream = .ok (some st) u ∧
        st.execute s.database = .ok r ∧ a = (if st.continues then .onward else .left) ∧
        t = (s.readTo u).carryOut r.1 r.2 := by
    intro a t h
    rw [statement_eq] at h
    rcases hrun : (Statement.next? s.database.catalog).run s.stream with ⟨_ | st, u⟩ | ⟨e, u⟩ <;>
      rw [hrun] at h
    · obtain ⟨k, rest', hk⟩ : ∃ k rest', s.stream.queue = .ok k :: rest' := by
        rw [hq]
        rcases body with _ | ⟨k, body⟩
        · exact ⟨_, _, rfl⟩
        · exact ⟨_, _, rfl⟩
      exact absurd hrun (Statement.next?_ne_none hk)
    · dsimp only at h
      rcases hst : st.execute s.database with e | r <;> rw [hst] at h
      · simp at h
      · obtain ⟨ha, ht⟩ := Prod.mk.inj h
        injection ha with ha
        exact ⟨st, u, r, rfl, hst, ha.symm, ht.symm⟩
    · simp at h
  constructor
  · constructor
    · rintro ⟨a, t, h⟩
      obtain ⟨st, u, r, hrun, hst, -⟩ := hread a t h
      obtain ⟨cmd, hspell, hreads, -⟩ := exists_command_of_read hs hbody hq hrun
      exact ⟨cmd, hspell, Command.exists_execute_iff.1 ⟨st, r, hreads, hst⟩⟩
    · rintro ⟨cmd, rfl, hadmissible⟩
      obtain ⟨st, ⟨db, lines⟩, hreads, hst⟩ := Command.exists_execute_iff.2 hadmissible
      obtain ⟨t, ht, -⟩ := statement_of_reads hs hq hreads hst
      exact ⟨_, t, ht⟩
  · intro a t h
    obtain ⟨st, u, r, hrun, -, rfl, rfl⟩ := hread a t h
    obtain ⟨cmd, rfl, hreads, hrest, hconsumed⟩ := exists_command_of_read hs hbody hq hrun
    refine ⟨?_, hconsumed, ?_, ?_⟩
    · rw [queue_carryOut, queue_readTo, hrest]
    · split <;> simp
    · rw [← left_iff_of_reads hreads]
      rcases st.continues with _ | _ <;> simp

/-- Keywords are names like any other. -/
theorem create_accepted_keywords :
    ∃ t, (start (.ofString "create table from (select, as);")
      (.fresh .root .empty)).statement = (.ok .onward, t) ∧ t.stream.queue = [] := by
  have hq : (start (.ofString "create table from (select, as);")
      (.fresh .root .empty)).stream.queue =
      arrivals ((Command.create "from" (.titles ⟨"select", ["as"]⟩)).spell ++ [.terminator]) ++
        [] :=
    TokenStream.queue_ofSource.trans (by decide +kernel)
  obtain ⟨haccepted, hafter⟩ := statement_accepted_iff
    (TokenStream.isLexical_of_none rfl) (by decide) hq
  obtain ⟨a, t, h⟩ := haccepted.2 ⟨_, rfl, show ["select", "as"].Nodup by decide⟩
  obtain ⟨hrest, -, hend, hleft⟩ := hafter a t h
  rcases a with _ | _ | _
  · exact ⟨t, h, hrest⟩
  · exact absurd (hleft.1 rfl) (by decide)
  · exact absurd rfl hend

end Session

end FlatQuery
