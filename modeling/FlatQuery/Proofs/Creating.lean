import FlatQuery.Proofs.Reload
import FlatQuery.Proofs.Rendering
import FlatQuery.Proofs.Selecting

/-!
# A table from a query

To create a table from a query and to print it shows what a plain selection by that query
shows, and where one of the two fails so does the other, with the same error. The name of
the table makes no difference, be it that of a source or that of a keyword: a query is
answered on the database before the creation, and the table is registered behind it.

Where the tokens of a query spell a clause that the catalog admits, both statements are
carried out, and both answers are what the clause selects. What is left are the errors. There
the two statements have more in common than that they fail: the two readers are in lockstep
from the columns of the query to its semicolon, once the one has taken the tokens in front
(`Statement.exists_run_createBody`), because where the reading of a query fails has nothing to
do with the name of the table that it is to fill (`Statement.query_forget`).
-/

set_option autoImplicit false

namespace FlatQuery

open FlatQuery.Phrase

/-! ## 1. Reading a query for a table of any name -/

/-- Whether the titles of a table are refused does not depend on its name. -/
theorem Table.withTitles_cases (m n : String) (titles : List String) :
    (∃ t u, withTitles m titles = .ok t ∧ withTitles n titles = .ok u) ∨
    ∃ e, withTitles m titles = .error e ∧ withTitles n titles = .error e := by
  unfold withTitles
  split
  · exact .inr ⟨_, rfl, rfl⟩
  · exact .inl ⟨_, _, rfl, rfl⟩

namespace Parser

variable {α β : Type}

/-- What is made of a result has no part in an error. -/
theorem run_map_eq_fail_iff {p : Parser α} {f : α → β} {s t : TokenStream} {e : Error} :
    (do let a ← p; return f a : Parser β).run s = .fail e t ↔ p.run s = .fail e t := by
  rw [run_bind]
  rcases p.run s with ⟨a, u⟩ | ⟨d, u⟩
  · simp [run_pure]
  · simp

/-- Behind tokens that are accepted a parser goes on with what they mean. -/
theorem Accepts.exists_run_bind {p : Parser α} {F : List Arrival → Prop} {toks : List Token}
    {a : α} (h : p.Accepts F toks a) {s : TokenStream} {rest : List Arrival}
    (hq : s.queue = arrivals toks ++ rest) (hrest : F rest) :
    ∃ t, t.queue = rest ∧ ∀ f : α → Parser β, (p >>= f).run s = (f a).run t := by
  obtain ⟨t, ht, hst⟩ := h s rest hq hrest
  refine ⟨t, hst.queue_rest hq, fun f => ?_⟩
  rw [run_bind, ht]

end Parser

/-- The tokens of a creation in front of its query. -/
def Phrase.creationHead (name : String) : List Token :=
  [.ofText "create", .ofText "table", .ofName name, .ofText "as", .ofText "select"]

theorem Phrase.kind_ne_semicolon_of_mem_creationHead (name : String) :
    ∀ k ∈ creationHead name, k.kind ≠ .semicolon := by
  simp only [creationHead, List.forall_mem_cons]
  exact ⟨by decide, by decide, by simp [Token.ofName], by decide, by decide,
    fun k hk => absurd hk List.not_mem_nil⟩

theorem arrivals_whole (body : List Token) (rest : List Arrival) :
    arrivals (body ++ [Token.terminator]) ++ rest = arrivals body ++ closing (some rest) := by
  rw [arrivals_append, List.append_assoc]
  rfl

theorem isInner_arrivals {body : List Token} (h : ∀ k ∈ body, k.text ≠ ";") :
    ∀ x ∈ arrivals body, x.IsInner := by
  intro x hx
  obtain ⟨k, hk, rfl⟩ := List.mem_map.1 hx
  exact h k hk

namespace Statement

open FlatQuery.Parser

/-- **Where the reading of a query fails does not depend on the name of its table**, nor does
where it ends. -/
theorem query_forget (c : Catalog) (m n : String) :
    (do let _ ← query c m; return ()) = (do let _ ← query c n; return ()) := by
  unfold query
  simp only [bind_assoc]
  refine bind_congr fun refs => ?_
  rcases Table.withTitles_cases m n (refs.map ColumnRef.name) with
    ⟨t, u, ht, hu⟩ | ⟨e, ht, hu⟩ <;> rw [ht, hu]
  -- With a table for the titles, the name is only in the result.
  change (pure t >>= _) = (pure u >>= _)
  rw [pure_bind, pure_bind]
  refine bind_congr fun _ => bind_congr fun entries => ?_
  split
  · rfl
  · simp only [bind_assoc, pure_bind]

/-- A query up to and with its semicolon, for the sake of where the reading of it fails. -/
def queryEnd (c : Catalog) : Parser String := do
  let _ ← query c selectionName
  expect ";"

theorem final_queryEnd (c : Catalog) : Final (queryEnd c) :=
  (local_query c selectionName).bind fun _ => final_expect

/-- A query with its semicolon fails like this, whatever table it is for and whatever is made of
it. -/
theorem queryEnd_eq_fail_iff {α : Type} {c : Catalog} {name : String} {f : Query → α}
    {s t : TokenStream} {e : Error} :
    (do let q ← query c name; let _ ← expect ";"; return f q : Parser α).run s = .fail e t ↔
      (queryEnd c).run s = .fail e t := by
  have hend : queryEnd c = (do let _ ← query c name; expect ";") := by
    have hforget := congrArg (fun p : Parser Unit => p >>= fun _ => expect ";")
      (query_forget c selectionName name)
    simp only [bind_assoc, pure_bind] at hforget
    exact hforget
  rw [hend, run_bind, run_bind]
  rcases (query c name).run s with ⟨q, u⟩ | ⟨d, u⟩
  · exact run_map_eq_fail_iff
  · simp

/-- What is read behind its keyword of a creation that goes on with a query. -/
theorem exists_run_createBody (c : Catalog) (name : String) {s : TokenStream}
    {rest : List Arrival} (hq : s.queue = arrivals [.ofText "table", .ofName name, .ofText "as",
      .ofText "select"] ++ rest) :
    ∃ t, t.queue = rest ∧ (createBody c).run s =
      (do let q ← query c name
          let _ ← expect ";"
          return .create name (.query q) : Parser Statement).run t := by
  obtain ⟨t₁, hq₁, h₁⟩ :=
    (expect_accepts "table" Anything).exists_run_bind (β := Statement) hq trivial
  obtain ⟨t₂, hq₂, h₂⟩ :=
    (name_accepts name Anything).exists_run_bind (β := Statement) hq₁ trivial
  -- No titles follow, since the next word is not a parenthesis.
  obtain ⟨t₃, hq₃, h₃⟩ := (nextIf_accepts_none "(").exists_run_bind (β := Statement) hq₂
    (before_ofText (by decide) _)
  obtain ⟨t₄, hq₄, h₄⟩ :=
    (expect_accepts "as" Anything).exists_run_bind (β := Statement) hq₃ trivial
  obtain ⟨t₅, hq₅, h₅⟩ :=
    (expect_accepts "select" Anything).exists_run_bind (β := Statement) hq₄ trivial
  refine ⟨t₅, hq₅, ?_⟩
  rw [createBody, h₁, h₂, definition, bind_assoc, h₃, if_neg Bool.false_ne_true, bind_assoc, h₄,
    bind_assoc, h₅, bind_assoc]
  simp only [pure_bind]

/-- **A creation fails to be read where the selection does.** The tokens of a query stand
before two readers, the keyword of a selection in front of the one and the head of a creation
in front of the other. -/
theorem fail_of_selection {c : Catalog} {name : String} {body : List Token}
    {s s' t' : TokenStream} {rest rest' : List Arrival} (hbody : ∀ k ∈ body, k.text ≠ ";")
    (hq : s.queue = arrivals (creationHead name ++ body ++ [Token.terminator]) ++ rest)
    (hq' : s'.queue = arrivals (Token.ofText "select" :: body ++ [Token.terminator]) ++ rest')
    {e : Error} (h : (next? c).run s' = .fail e t') : ∃ t, (next? c).run s = .fail e t := by
  have hselectBody : body? c "select" = some (selectBody c) := rfl
  obtain ⟨u', hsu', hselect⟩ := exists_run_next? hselectBody hq'
  rw [hselect, run_map_eq_fail_iff, selectBody, queryEnd_eq_fail_iff] at h
  have hcreateBody : body? c "create" = some (createBody c) := rfl
  obtain ⟨u, hsu, hcreate⟩ := exists_run_next? hcreateBody hq
  obtain ⟨v, hv, hcreation⟩ :=
    exists_run_createBody c name (hsu.queue_rest (l := [.ofText "create"]) hq)
  have hu' := hsu'.queue_rest (l := [.ofText "select"]) hq'
  -- Both readers have come to the query, which ends at the semicolon of either.
  let P : Pair := ⟨0, v.consumed, u'.consumed, some rest, some rest', rfl⟩
  have hin : P.Inside v u' := by
    refine ⟨arrivals body, isInner_arrivals hbody, ⟨?_, Nat.le_refl _, .inl rfl⟩,
      ⟨?_, Nat.le_refl _, .inl rfl⟩⟩
    · rw [Session.map_delay_zero, ← arrivals_whole]
      exact hv
    · rw [← arrivals_whole]
      exact hu'
  rcases (final_queryEnd c P v u' hin).cases with
    ⟨a, t, t', -, hok, -⟩ | ⟨d, t, t', hfail, hfail', -⟩
  · rw [h] at hok
    cases hok
  · rw [h] at hfail'
    obtain rfl : e = d := (Reply.fail.inj hfail').1
    refine ⟨t, ?_⟩
    rw [hcreate, run_map_eq_fail_iff, hcreation, queryEnd_eq_fail_iff, hfail,
      Error.delay_zero]

end Statement

/-! ## 2. Runs -/

/-- What a statement to print a table shows. -/
def Database.printing (db : Database) (name : String) : Transcript :=
  match db.catalog.lookup name with
  | .error e => [.failure e]
  | .ok entry => entry.table.display.map .line

/-- What is read as a selection is a clause that the catalog admits. -/
theorem Phrase.Command.Reads.exists_clause {c : Catalog} {cmd : Command} {st : Statement}
    (h : cmd.Reads c st) {body : List Token} (hspell : .ofText "select" :: body = cmd.spell) :
    ∃ p : Clause, p.spell = body ∧ p.Admissible c := by
  cases h with
  | select hreads =>
    exact ⟨_, (List.cons.inj hspell).2.symm, Clause.exists_reads_iff.1 ⟨_, hreads⟩⟩
  | _ => exact absurd (congrArg Token.text (List.cons.inj hspell).1) (by decide)

namespace Session

/-- Where its tokens are those of no clause that the catalog admits, the reading of a selection
fails. -/
theorem exists_fail_of_selection {s : Session} (hs : s.stream.IsLexical) {body : List Token}
    {rest : List Arrival} (hbody : ∀ k ∈ body, k.text ≠ ";")
    (hq : s.stream.queue = arrivals (Token.ofText "select" :: body ++ [Token.terminator]) ++ rest)
    (hclause : ∀ p : Clause, p.spell = body → ¬p.Admissible s.database.catalog) :
    ∃ e t, (Statement.next? s.database.catalog).run s.stream = .fail e t := by
  rcases hrun : (Statement.next? s.database.catalog).run s.stream with ⟨_ | st, t⟩ | ⟨e, t⟩
  · exact absurd hrun (Statement.next?_ne_none hq)
  · have hwhole : ∀ k ∈ Token.ofText "select" :: body, k.text ≠ ";" :=
      List.forall_mem_cons.2 ⟨by decide, hbody⟩
    obtain ⟨cmd, hspell, hreads, -⟩ := exists_command_of_read hs hwhole hq hrun
    obtain ⟨p, hp, hadmissible⟩ := hreads.exists_clause hspell
    exact absurd hadmissible (hclause p hp)
  · exact ⟨e, t, rfl⟩

/-- A statement that fails is reported, and the run goes on behind it. -/
theorem run_of_error {s u : Session} (hs : ∀ x ∈ s.stream.queue, x.IsRegular)
    {body : List Token} (hbody : ∀ k ∈ body, k.text ≠ ";") {rest : List Arrival}
    (hq : s.stream.queue = arrivals (body ++ [Token.terminator]) ++ rest) {e : Error}
    (h : s.statement = (.error e, u)) :
    ∃ t : Session, s.run = t.run ∧ t.database = s.database ∧
      t.printed = s.printed ++ [Shown.failure e] ∧ t.stream.queue = rest := by
  obtain ⟨t, ht, hqueue, hdatabase, hprinted⟩ := going_of_failure hs h
  refine ⟨t, run_of_going ht, hdatabase, hprinted, ?_⟩
  rw [hqueue, hq, arrivals_whole, behindFirst_append (isInner_arrivals hbody)]
  rfl

theorem run_of_onward {s t : Session} (h : s.statement = (.ok .onward, t)) : s.run = t.run :=
  run_of_going (by rw [turn, h])

/-- A statement to print a table shows it or reports that there is none, and that is all. -/
theorem run_of_print {s : Session} (hs : ∀ x ∈ s.stream.queue, x.IsRegular) {name : String}
    (hq : s.stream.queue = arrivals ((Command.print name).spell ++ [Token.terminator])) :
    s.run.2 = .inputEnded ∧ s.run.1.database = s.database ∧
      s.run.1.printed = s.printed ++ s.database.printing name := by
  have hlex : s.stream.IsLexical := fun k hk => hs (.ok k) hk
  rw [← List.append_nil (arrivals _)] at hq
  obtain ⟨t, hrun, hdatabase, hprinted, hrest⟩ : ∃ t : Session, s.run = t.run ∧
      t.database = s.database ∧ t.printed = s.printed ++ s.database.printing name ∧
        t.stream.queue = [] := by
    rw [Database.printing]
    -- There is a table to print, or an error to report; the run goes on to the end either way.
    rcases hlookup : s.database.catalog.lookup name with e | entry
    · have hst : (Statement.print name).execute s.database = .error e := by
        rw [Statement.execute, hlookup]
        rfl
      obtain ⟨u, hread, -⟩ := exists_read_of_spelled hlex hq (.print name)
      have hbody : ∀ k ∈ (Command.print name).spell, k.text ≠ ";" := fun k hk =>
        (hlex k (mem_of_spelled hq hk)).text_ne_semicolon (Command.kind_ne_semicolon _ k hk)
      exact run_of_error hs hbody hq (statement_of_refused hread hst)
    · have hst : (Statement.print name).execute s.database =
          .ok (s.database, entry.table.display) := by
        rw [Statement.execute, hlookup]
        rfl
      obtain ⟨t, hrun, hdatabase, hprinted, hrest, -⟩ :=
        run_of_reads hlex hq (.print name) hst rfl
      exact ⟨t, hrun, hdatabase, hprinted, hrest⟩
  obtain ⟨hended, hdb, hshown⟩ := run_of_nil hrest
  rw [hrun]
  exact ⟨hended, hdb.trans hdatabase, hshown.trans hprinted⟩

/-- Whether a text is run to its end, with this database behind it and this printed. -/
structure RunsTo (db : Database) (text : String) (db' : Database) (shown : Transcript) :
    Prop where
  ended : (runText db text).2 = .inputEnded
  database : (runText db text).1.database = db'
  printed : (runText db text).1.printed = shown

/-! ## 3. Texts -/

section Texts

variable {db : Database} {text : String} {t : Session}

/-- A text whose run comes by the end of the input is run to where it has come. -/
theorem runsTo_of_nil (hrun : (start (.ofString text) db).run = t.run)
    (hqueue : t.stream.queue = []) : RunsTo db text t.database t.printed := by
  obtain ⟨hended, hdatabase, hprinted⟩ := run_of_nil hqueue
  rw [← hrun] at hended hdatabase hprinted
  exact ⟨hended, hdatabase, hprinted⟩

/-- A text whose run comes by a last statement to print a table shows that table. -/
theorem runsTo_of_print {name : String} {before : List Arrival}
    (hrun : (start (.ofString text) db).run = t.run)
    (hqueue : t.stream.queue = arrivals ((Command.print name).spell ++ [Token.terminator]))
    (hq : (start (.ofString text) db).stream.queue =
      before ++ arrivals ((Command.print name).spell ++ [Token.terminator])) :
    RunsTo db text t.database (t.printed ++ t.database.printing name) := by
  have hregular : ∀ x ∈ t.stream.queue, x.IsRegular := by
    intro x hx
    apply isRegular_start db text
    rw [hq, ← hqueue]
    exact List.mem_append_right _ hx
  obtain ⟨hended, hdatabase, hprinted⟩ := run_of_print hregular hqueue
  rw [← hrun] at hended hdatabase hprinted
  exact ⟨hended, hdatabase, hprinted⟩

end Texts

section Queries

variable {db : Database} {name : String} {body : List Token} {creating selecting : String}
  (hcreating : HasTokens creating.toList (creationHead name ++ body ++ [Token.terminator] ++
    ((Command.print name).spell ++ [Token.terminator])))
  (hselecting : HasTokens selecting.toList (Token.ofText "select" :: body ++ [Token.terminator]))

include hcreating in
/-- What comes of a creation and a statement to print the table. -/
theorem queue_creating (db : Database) : (start (.ofString creating) db).stream.queue =
    arrivals (creationHead name ++ body ++ [Token.terminator]) ++
      arrivals ((Command.print name).spell ++ [Token.terminator]) := by
  rw [queue_start, arrivalsOf_of_hasTokens hcreating, ← arrivals_append]
  rfl

include hselecting in
/-- What comes of a selection. -/
theorem queue_selecting (db : Database) : (start (.ofString selecting) db).stream.queue =
    arrivals (Token.ofText "select" :: body ++ [Token.terminator]) ++ [] := by
  rw [queue_start, arrivalsOf_of_hasTokens hselecting, List.append_nil]
  rfl

include hcreating hselecting

/-- Where a clause is admitted, both statements come to what it selects. -/
theorem exists_answer_of_admissible {p : Clause} (hp : p.Admissible db.catalog)
    (hspell : p.spell = body) :
    ∃ t : Table, t.name = name ∧ t.titles = p.titles ∧ t.rows = p.rows db.catalog ∧
      RunsTo db creating { db with catalog := db.catalog.put name t } (t.display.map .line) ∧
      RunsTo db selecting db (.line "Search results:" :: t.display.map .line) := by
  subst hspell
  have hcreate := queue_creating hcreating db
  have hselect := queue_selecting hselecting db
  obtain ⟨s, answer, hs, hrest, hname, htitles, hrows, hdatabase, hprinted⟩ :=
    create_registers (TokenStream.isLexical_of_none rfl) hp hcreate
  obtain ⟨u, hu, hrest', hdatabase', hprinted'⟩ :=
    select_shows (TokenStream.isLexical_of_none rfl) hp hselect
  refine ⟨answer, hname, htitles, hrows, ?_, ?_⟩
  -- What is registered is what is printed.
  · have hprinting : Database.printing { db with catalog := db.catalog.put name answer } name =
        answer.display.map .line := by
      rw [Database.printing, Catalog.lookup_put]
    have hruns := runsTo_of_print (run_of_onward hs) hrest hcreate
    rw [hdatabase, hprinted] at hruns
    exact hprinting ▸ hruns
  · have hdisplay : (p.rows db.catalog).map (fun r => .line r.display) =
        answer.display.map Shown.line := by
      rw [Table.display, hrows, List.map_map]
      rfl
    have hruns := runsTo_of_nil (run_of_onward hu) hrest'
    rw [hdatabase', hprinted'] at hruns
    exact hdisplay ▸ hruns

/-- Where none is, both statements come to one error. -/
theorem exists_error_of_not_admissible (hbody : ∀ k ∈ body, k.text ≠ ";")
    (hclause : ∀ p : Clause, p.spell = body → ¬p.Admissible db.catalog) :
    ∃ e, RunsTo db creating db (.failure e :: db.printing name) ∧
      RunsTo db selecting db [.failure e] := by
  have hcreate := queue_creating hcreating db
  have hselect := queue_selecting hselecting db
  obtain ⟨e, t, hfail⟩ := exists_fail_of_selection (TokenStream.isLexical_of_none rfl) hbody
    hselect hclause
  -- The same error is met whether the query is to be registered or shown.
  obtain ⟨u, hfail'⟩ := Statement.fail_of_selection hbody hcreate hselect hfail
  refine ⟨e, ?_, ?_⟩
  -- Neither the head of the creation nor the body holds a semicolon, so the statement's is its own.
  · have hhead : ∀ k ∈ creationHead name, k.text ≠ ";" := by
      intro k hk
      have hlex : k.IsLexical :=
        isRegular_start db creating _ (mem_of_spelled hcreate (List.mem_append_left _ hk))
      exact hlex.text_ne_semicolon (kind_ne_semicolon_of_mem_creationHead name k hk)
    have hwhole : ∀ k ∈ creationHead name ++ body, k.text ≠ ";" :=
      List.forall_mem_append.2 ⟨hhead, hbody⟩
    obtain ⟨s, hrun, hdatabase, hprinted, hrest⟩ :=
      run_of_error (isRegular_start db creating) hwhole hcreate (statement_of_fail hfail')
    have hruns := runsTo_of_print hrun hrest hcreate
    rw [hdatabase, hprinted] at hruns
    exact hruns
  · have hwhole : ∀ k ∈ Token.ofText "select" :: body, k.text ≠ ";" :=
      List.forall_mem_cons.2 ⟨by decide, hbody⟩
    obtain ⟨s, hrun, hdatabase, hprinted, hrest⟩ :=
      run_of_error (isRegular_start db selecting) hwhole hselect (statement_of_fail hfail)
    have hruns := runsTo_of_nil hrun hrest
    rw [hdatabase, hprinted] at hruns
    exact hruns

end Queries

/-- **To create a table from a query and to print it is to select by the query.** The texts are
any that have these tokens, with the same query in both: a creation and a statement to print
the table, and a selection. Where the tokens of the query spell a clause that the catalog
admits, both succeed. The creation leaves under the name a table of that name with the titles
and the rows that the clause selects from the tables before, one of which the new table may
take the place of, and what is printed of it is what the selection shows below its heading.
Where they spell none, well formed or not, both statements fail with the same error, and
neither changes anything. -/
theorem create_agrees_with_select (db : Database) {name : String} {body : List Token}
    {creating selecting : String} (hbody : ∀ k ∈ body, k.text ≠ ";")
    (hcreating : HasTokens creating.toList (creationHead name ++ body ++ [Token.terminator] ++
      ((Command.print name).spell ++ [Token.terminator])))
    (hselecting : HasTokens selecting.toList
      (Token.ofText "select" :: body ++ [Token.terminator])) :
    (∀ p : Clause, p.spell = body → p.Admissible db.catalog →
      ∃ t : Table, t.name = name ∧ t.titles = p.titles ∧ t.rows = p.rows db.catalog ∧
        (∃ entry, (db.catalog.put name t).lookup name = .ok entry ∧ entry.table = t) ∧
        RunsTo db creating { db with catalog := db.catalog.put name t } (t.display.map .line) ∧
        RunsTo db selecting db (.line "Search results:" :: t.display.map .line)) ∧
    ((∀ p : Clause, p.spell = body → ¬p.Admissible db.catalog) →
      ∃ e, RunsTo db creating db (.failure e :: db.printing name) ∧
        RunsTo db selecting db [.failure e]) := by
  refine ⟨fun p hspell hp => ?_, exists_error_of_not_admissible hcreating hselecting hbody⟩
  obtain ⟨t, hname, htitles, hrows, hcreate, hselect⟩ :=
    exists_answer_of_admissible hcreating hselecting hp hspell
  exact ⟨t, hname, htitles, hrows, ⟨_, Catalog.lookup_put _ _ _, rfl⟩, hcreate, hselect⟩

/-- The clause of a query for the values above `x`. -/
def aboveX : Clause :=
  ⟨⟨⟨"a", none⟩, []⟩, ⟨"t", []⟩, some ⟨⟨⟨"a", none⟩, .greater, .literal "'x'"⟩, []⟩⟩

/-- A table takes the place of the source it is selected from, and a query that is empty leaves
the source where it is. -/
theorem create_agrees_with_select_source :
    let db : Database := ⟨⟨[⟨"t", 0, pairTable⟩]⟩, .root, .empty⟩
    (∃ db', RunsTo db "create table t as select a from t where a > 'x'; print t;" db'
        [.line "  y"] ∧
      RunsTo db "select a from t where a > 'x';" db [.line "Search results:", .line "  y"]) ∧
    ∃ e, RunsTo db "create table t as select; print t;" db
        [.failure e, .line "  x", .line "  y"] ∧
      RunsTo db "select;" db [.failure e] := by
  intro db
  constructor
  · have hcreating : HasTokens
        "create table t as select a from t where a > 'x'; print t;".toList
        (creationHead "t" ++ aboveX.spell ++ [Token.terminator] ++
          ((Command.print "t").spell ++ [Token.terminator])) := by
      unfold HasTokens
      decide +kernel
    have hselecting : HasTokens "select a from t where a > 'x';".toList
        (Token.ofText "select" :: aboveX.spell ++ [Token.terminator]) := by
      unfold HasTokens
      decide +kernel
    have hp : aboveX.Admissible db.catalog := by
      refine ⟨by decide, by decide, by decide, fun r hr => ?_⟩
      -- The clause names one column only, and the table has it once.
      have hr : r = ⟨"a", none⟩ := by
        simpa [aboveX, Clause.refs, comparisons, OneOrMore.toList, Comparison.refs,
          Side.refs] using hr
      rw [hr]
      exact ⟨(0 : Fin 1), ⟨rfl, by decide⟩, fun j _ => Fin.fin_one_eq_zero j⟩
    obtain ⟨hsuccess, -⟩ := create_agrees_with_select db (by decide) hcreating hselecting
    obtain ⟨t, -, -, hrows, -, hcreate, hselect⟩ := hsuccess aboveX rfl hp
    have hdisplay : t.display = ["  y"] := by
      rw [Table.display, hrows]
      decide +kernel
    rw [hdisplay] at hcreate hselect
    exact ⟨_, hcreate, hselect⟩
  · have hcreating : HasTokens "create table t as select; print t;".toList
        (creationHead "t" ++ [] ++ [Token.terminator] ++
          ((Command.print "t").spell ++ [Token.terminator])) := by
      unfold HasTokens
      decide +kernel
    have hselecting : HasTokens "select;".toList
        (Token.ofText "select" :: [] ++ [Token.terminator]) := by
      unfold HasTokens
      decide +kernel
    -- Nothing at all spells no clause, which would begin with a column.
    have hnone : ∀ p : Clause, p.spell = [] → ¬p.Admissible db.catalog := by
      intro p hp
      exact absurd (List.append_eq_nil_iff.1 hp).2 (List.cons_ne_nil _ _)
    obtain ⟨-, hfailure⟩ :=
      create_agrees_with_select db (List.forall_mem_nil _) hcreating hselecting
    obtain ⟨e, hcreate, hselect⟩ := hfailure hnone
    have hprinting : db.printing "t" = [.line "  x", .line "  y"] := by
      decide +kernel
    rw [hprinting] at hcreate
    exact ⟨e, hcreate, hselect⟩

end Session

end FlatQuery
