import FlatQuery.Proofs.Rendering
import FlatQuery.Proofs.Selecting
import FlatQuery.Proofs.Unambiguity

/-!
# What a clause gives

There are two statements that a clause is a part of: one shows the rows of its answer, the
other registers the answer under a name. What is said here of a clause is said of both, and of
every session over a database in which the tokens of the statement are the next to come, no
matter what was run before and what is to come behind.

Such a statement either gives a table (`Phrase.Clause.Gives`), which is then the answer to the
query that is read, or it fails (`Phrase.Clause.Fails`). The first is the case where the catalog
admits the clause, and the table has the titles and the rows that the clause selects; the second
where it does not, and here it matters that the tokens are the spelling of no other clause.
-/

set_option autoImplicit false

namespace FlatQuery

open FlatQuery.Phrase

/-- The statement that asks for the answer to a query: to show it, or to register it under a
name. -/
def Query.asked (q : Query) : Option String → Statement
  | none => .select q
  | some name => .create name (.query q)

/-- The command of such a statement. -/
def Phrase.Clause.asking (p : Clause) : Option String → Command
  | none => .select p
  | some name => .create name (.query p)

/-- The name of the table that is asked for. -/
def answerName (name? : Option String) : String := name?.getD Statement.selectionName

namespace Session

/-! ## 1. Statements that are next -/

/-- Whether a session is over a database and the statement by a clause is the next to come. -/
structure Asks (db : Database) (name? : Option String) (p : Clause) (s : Session) : Prop where
  database : s.database = db
  lexical : s.stream.IsLexical
  queue : ∃ rest, s.stream.queue = arrivals ((p.asking name?).spell ++ [.terminator]) ++ rest

/-- Whether the statement by a clause gives a table: this is the answer to the query that is
read, and its rows are shown, or it is registered. -/
structure Obtains (s : Session) (name? : Option String) (t : Table) : Prop where
  answer : ∃ (q : Query) (u : TokenStream), (Statement.next? s.database.catalog).run s.stream =
    .ok (some (q.asked name?)) u ∧ q.answer = .ok t
  outcome : ∃ u, s.statement = (.ok .onward, u) ∧
    match name? with
    | none => u.database = s.database ∧
        u.printed = s.printed ++ Shown.line "Search results:" :: t.display.map Shown.line
    | some name => u.printed = s.printed ∧
        u.database = { s.database with catalog := s.database.catalog.put name t }

/-- A text asks by a clause that has the tokens of the statement. -/
theorem asks_start (db : Database) {name? : Option String} {p : Clause} {text : String}
    (h : HasTokens text.toList ((p.asking name?).spell ++ [.terminator])) :
    (start (.ofString text) db).Asks db name? p where
  database := rfl
  lexical := TokenStream.isLexical_of_none rfl
  queue := ⟨[], by rw [queue_start, arrivalsOf_of_hasTokens h, List.append_nil]; rfl⟩

/-- A command that is carried out is one that the database admits. -/
theorem admissible_of_statement {s t : Session} (hs : s.stream.IsLexical) {cmd : Command}
    {rest : List Arrival} (hq : s.stream.queue = arrivals (cmd.spell ++ [.terminator]) ++ rest)
    {a : Advance} (h : s.statement = (.ok a, t)) : cmd.Admissible s.database := by
  rw [statement_eq] at h
  rcases hrun : (Statement.next? s.database.catalog).run s.stream with ⟨_ | st, u⟩ | ⟨e, u⟩ <;>
    rw [hrun] at h
  · obtain ⟨k, rest', hk⟩ : ∃ k rest', s.stream.queue = .ok k :: rest' := by
      rw [hq]
      rcases cmd.spell with _ | ⟨k, body⟩
      · exact ⟨_, _, rfl⟩
      · exact ⟨_, _, rfl⟩
    exact absurd hrun (Statement.next?_ne_none hk)
  · dsimp only at h
    rcases hst : st.execute s.database with e | r <;> rw [hst] at h
    · cases h
    · have hbody : ∀ k ∈ cmd.spell, k.text ≠ ";" := fun k hk =>
        (hs k (mem_of_spelled hq hk)).text_ne_semicolon (cmd.kind_ne_semicolon k hk)
      obtain ⟨cmd', hspell, hreads, -⟩ := exists_command_of_read hs hbody hq hrun
      obtain rfl : cmd = cmd' := Command.spell_injective hspell
      exact Command.exists_execute_iff.1 ⟨st, r, hreads, hst⟩
  · cases h

end Session

namespace Phrase

/-! ## 2. What is kept and what is shown -/

/-- The combinations of rows in which the comparisons of a clause hold. -/
def Clause.kept (c : Catalog) (p : Clause) : List (List Row) :=
  (Query.combinations (tablesOf c p.sources.toList)).filter fun rows =>
    ∀ d ∈ comparisons p.comparisons?, d.HoldsIn (tablesOf c p.sources.toList) rows

/-- What a clause shows of a combination: the values of its columns. -/
def Clause.shown (c : Catalog) (p : Clause) (rows : List Row) : Row :=
  p.columns.toList.map (·.valueIn (tablesOf c p.sources.toList) rows)

theorem Clause.rows_eq_eraseDups (c : Catalog) (p : Clause) :
    p.rows c = ((p.kept c).map (p.shown c)).eraseDups := rfl

theorem Clause.mem_kept {c : Catalog} {p : Clause} {rows : List Row} :
    rows ∈ p.kept c ↔ rows ∈ Query.combinations (tablesOf c p.sources.toList) ∧
      ∀ d ∈ comparisons p.comparisons?, d.HoldsIn (tablesOf c p.sources.toList) rows := by
  rw [kept, List.mem_filter, decide_eq_true_iff]

theorem Clause.mem_rows {c : Catalog} {p : Clause} {row : Row} :
    row ∈ p.rows c ↔ ∃ rows ∈ p.kept c, p.shown c rows = row := by
  rw [rows_eq_eraseDups, List.mem_eraseDups, List.mem_map]

/-- Clauses that differ only in comparisons which hold of the same combinations select the same
rows. -/
theorem Clause.rows_congr {c : Catalog} {p q : Clause} (hcolumns : q.columns = p.columns)
    (hsources : q.sources = p.sources)
    (hholds : ∀ rows,
      (∀ d ∈ comparisons q.comparisons?, d.HoldsIn (tablesOf c p.sources.toList) rows) ↔
        ∀ d ∈ comparisons p.comparisons?, d.HoldsIn (tablesOf c p.sources.toList) rows) :
    q.rows c = p.rows c := by
  rw [rows, rows, hcolumns, hsources]
  simp only [hholds]

/-! ## 3. Clauses that give a table, and clauses that fail -/

/-- Whether the statement by a clause gives a table, whenever it comes. -/
def Clause.Gives (db : Database) (name? : Option String) (p : Clause) (t : Table) : Prop :=
  ∀ s : Session, s.Asks db name? p → s.Obtains name? t

/-- Whether it fails, whenever it comes. -/
def Clause.Fails (db : Database) (name? : Option String) (p : Clause) : Prop :=
  ∀ s : Session, s.Asks db name? p → ∃ e u, s.statement = (.error e, u) ∧ u.database = db

variable {db : Database} {name? : Option String} {p : Clause}

theorem Clause.admissible_asking : (p.asking name?).Admissible db ↔ p.Admissible db.catalog := by
  rcases name? with _ | name
  · exact Iff.rfl
  · exact Iff.rfl

/-- **A clause that the catalog admits gives what it selects.** -/
theorem Clause.exists_gives (hp : p.Admissible db.catalog) (name? : Option String) :
    ∃ t, p.Gives db name? t ∧ t.name = answerName name? ∧ t.titles = p.titles ∧
      t.rows = p.rows db.catalog := by
  obtain ⟨q, hreads⟩ : ∃ q, p.Reads db.catalog (answerName name?) q := Clause.exists_reads_iff.2 hp
  obtain ⟨t, hanswer, hname, htitles, hrows⟩ := Clause.answer_of_reads hreads
  refine ⟨t, ?_, hname, htitles, hrows⟩
  rintro s ⟨rfl, hs, rest, hq⟩
  have hcommand : (p.asking name?).Reads s.database.catalog (q.asked name?) := by
    rcases name? with _ | name
    · exact .select hreads
    · exact .create (.query hreads)
  obtain ⟨u, hrun, -⟩ := Session.exists_read_of_spelled hs hq hcommand
  refine ⟨⟨q, u, hrun, hanswer⟩, ?_⟩
  rcases name? with _ | name
  · have hst : (Statement.select q).execute s.database =
        .ok (s.database, "Search results:" :: t.display) := by
      rw [Statement.execute, hanswer]
      rfl
    obtain ⟨v, hv, hdatabase, hprinted, -⟩ := Session.statement_of_reads hs hq hcommand hst
    exact ⟨v, hv, hdatabase, hprinted⟩
  · have hst : (Statement.create name (.query q)).execute s.database =
        .ok ({ s.database with catalog := s.database.catalog.put name t }, []) := by
      rw [Statement.execute, Definition.table, hanswer]
      rfl
    obtain ⟨v, hv, hdatabase, hprinted, -⟩ := Session.statement_of_reads hs hq hcommand hst
    rw [List.map_nil, List.append_nil] at hprinted
    exact ⟨v, hv, hprinted, hdatabase⟩

/-- Clauses that select the same rows under the same titles give one and the same table. -/
theorem Clause.exists_gives_both {q : Clause} (hp : p.Admissible db.catalog)
    (hq : q.Admissible db.catalog) (htitles : q.titles = p.titles)
    (hrows : q.rows db.catalog = p.rows db.catalog) (name? : Option String) :
    ∃ t, p.Gives db name? t ∧ q.Gives db name? t := by
  obtain ⟨t, ht, htname, httitles, htrows⟩ := exists_gives hp name?
  obtain ⟨u, hu, huname, hutitles, hurows⟩ := exists_gives hq name?
  obtain rfl : u = t :=
    Table.ext (huname.trans htname.symm) ((hutitles.trans htitles).trans httitles.symm)
      ((hurows.trans hrows).trans htrows.symm)
  exact ⟨u, ht, hu⟩

/-- **A clause that the catalog does not admit fails.** -/
theorem Clause.fails_of_not_admissible (hp : ¬p.Admissible db.catalog) (name? : Option String) :
    p.Fails db name? := by
  rintro s ⟨rfl, hs, rest, hq⟩
  rcases h : s.statement with ⟨e | a, u⟩
  · exact ⟨e, u, rfl, (Session.statement_of_failure h).1⟩
  · exact absurd (admissible_asking.1 (Session.admissible_of_statement hs hq h)) hp

end Phrase

/-! ## 4. Two tables -/

/-- Two rows that are the same when their values are put together. -/
def alikeTable : Table where
  name := "t"
  titles := ["a", "d"]
  rowSet := (ArrivalSet.empty.insert ["1", "23"]).insert ["12", "3"]
  titles_nodup := by decide
  width_eq := by decide +kernel

/-- Two rows of one value. -/
def columnTable : Table where
  name := "u"
  titles := ["c"]
  rowSet := (ArrivalSet.empty.insert ["2"]).insert ["12"]
  titles_nodup := by decide
  width_eq := by decide +kernel

/-- A database of the two tables. -/
def alikeTables : Database :=
  ⟨⟨[⟨"t", 0, alikeTable⟩, ⟨"u", 1, columnTable⟩]⟩, .root, .empty⟩

end FlatQuery
