import FlatQuery.Proofs.Reload

/-!
# What a command changes

A command that is carried out changes one thing or nothing. An insertion changes the table
that it names, a creation and a load change the entry of the name that they give, and a store
changes the file of its table. `Phrase.Command.Makes` says for each command what it makes of
a database, so that everything which it does not mention is as it was: every other table, the
order of the names, and every other file.

This would not be so if a table stood under two names, since a row that is added under one of
them shows under the other. That no table does is `Catalog.IsUnshared`. A table that is
created or loaded is registered as one of its own, so commands keep it
(`Database.keptByCommands_isUnshared`), and with it the frame of every command, over a run of
any length. A table may be the source of the selection that takes its place: the selection is
answered in full before anything is registered.
-/

set_option autoImplicit false

namespace FlatQuery

open FlatQuery.Phrase

/-! ## 1. Names and what they stand for -/

/-- A list of names in which one stands for something else, in its place. -/
def reassign {α : Type} (name : String) (x : α) (l : List (String × α)) : List (String × α) :=
  l.map fun e => if e.1 = name then (name, x) else e

/-- A list of names in which one stands for something else: in its place if it is there, and
at the end if it is not. -/
def assign {α : Type} (name : String) (x : α) (l : List (String × α)) : List (String × α) :=
  if name ∈ l.map Prod.fst then reassign name x l else l ++ [(name, x)]

namespace Catalog

theorem map_fst_toList (c : Catalog) : c.toList.map Prod.fst = c.names := by
  rw [toList, List.map_map]
  rfl

/-- **A table that is registered takes the place of the one of its name, or comes last.** -/
theorem toList_put (c : Catalog) (name : String) (t : Table) :
    (c.put name t).toList = assign name t c.toList := by
  have hany : (c.entries.any fun d => d.name = name) = true ↔ name ∈ c.names := by
    rw [List.any_eq_true, names, List.mem_map]
    simp only [decide_eq_true_eq]
  rw [assign, map_fst_toList, put, set]
  dsimp only
  by_cases hname : name ∈ c.names
  · rw [if_pos (hany.2 hname), if_pos hname, toList, toList, reassign, List.map_map,
      List.map_map]
    refine List.map_congr_left fun e _ => ?_
    rw [Function.comp_apply, Function.comp_apply]
    split
    · rfl
    · rfl
  · rw [if_neg (fun h => hname (hany.1 h)), if_neg hname, toList, toList, List.map_append]
    rfl

/-- Whether no name comes twice and no table stands under two names. -/
structure IsUnshared (c : Catalog) : Prop where
  names_nodup : c.names.Nodup
  identity_inj : ∀ d ∈ c.entries, ∀ e ∈ c.entries, d.identity = e.identity → d = e

theorem isUnshared_empty : empty.IsUnshared :=
  ⟨List.nodup_nil, fun _ hd => absurd hd List.not_mem_nil⟩

variable {c : Catalog} (hc : c.IsUnshared)
include hc

/-- An entry is told by its name. -/
theorem IsUnshared.eq_of_name {d e : Entry} (hd : d ∈ c.entries) (he : e ∈ c.entries)
    (hname : d.name = e.name) : d = e :=
  List.inj_on_of_nodup_map hc.names_nodup hd he hname

/-- So to change the table of an entry is to change what its name stands for. -/
theorem IsUnshared.toList_update {target : Entry} (htarget : target ∈ c.entries) (t : Table) :
    (c.update target.identity t).toList = reassign target.name t c.toList := by
  rw [toList, toList, update, reassign, List.map_map, List.map_map]
  refine List.map_congr_left fun e he => ?_
  rw [Function.comp_apply, Function.comp_apply]
  by_cases hname : e.name = target.name
  · rw [hc.eq_of_name he htarget hname, if_pos rfl, if_pos rfl]
  · have hid : e.identity ≠ target.identity := by
      intro hid
      exact hname (congrArg Entry.name (hc.identity_inj e he target htarget hid))
    rw [if_neg hid, if_neg hname]

theorem IsUnshared.put (name : String) (t : Table) : (c.put name t).IsUnshared := by
  constructor
  · rw [← map_fst_toList, toList_put, assign, map_fst_toList]
    split
    · have hsame : (reassign name t c.toList).map Prod.fst = c.names := by
        rw [← map_fst_toList, reassign, List.map_map]
        refine List.map_congr_left fun e _ => ?_
        rw [Function.comp_apply]
        split
        · rename_i hname
          exact hname.symm
        · rfl
      rw [hsame]
      exact hc.names_nodup
    · rename_i hname
      rw [List.map_append, map_fst_toList, List.nodup_append]
      refine ⟨hc.names_nodup, List.nodup_singleton _, fun n hn m hm hnm => hname ?_⟩
      have hm : m = name := List.mem_singleton.1 hm
      rwa [← hm, ← hnm]
  · intro d hd e he hde
    rcases mem_put hd with hd | rfl <;> rcases mem_put he with he | rfl
    · exact hc.identity_inj d hd e he hde
    · exact absurd hde (Nat.ne_of_lt (identity_lt_freshIdentity hd))
    · exact absurd hde.symm (Nat.ne_of_lt (identity_lt_freshIdentity he))
    · rfl

theorem IsUnshared.update (identity : Nat) (t : Table) : (c.update identity t).IsUnshared := by
  constructor
  · rw [names_update]
    exact hc.names_nodup
  · intro d hd e he hde
    obtain ⟨d', hd', rfl⟩ := List.mem_map.1 hd
    obtain ⟨e', he', rfl⟩ := List.mem_map.1 he
    have hidentity : ∀ x : Entry,
        (if x.identity = identity then { x with table := t } else x).identity = x.identity := by
      intro x
      split
      · rfl
      · rfl
    rw [hidentity, hidentity] at hde
    rw [hc.identity_inj d' hd' e' he' hde]

end Catalog

/-! ## 2. What commands make of a database -/

namespace Phrase

/-- Whether a table is what a creation of a name asks for, as the catalog stands. -/
def Body.Gives (c : Catalog) (name : String) (t : Table) : Body → Prop
  | .titles ts => t.name = name ∧ t.titles = ts.toList ∧ t.rows = []
  | .query p => t.name = name ∧ t.titles = p.titles ∧ t.rows = p.rows c

/-- What a command makes of a database when it is carried out. -/
def Command.Makes (db db' : Database) : Command → Prop
  | .create name body =>
    ∃ t, body.Gives db.catalog name t ∧ db'.catalog.toList = assign name t db.catalog.toList ∧
      db'.directory = db.directory ∧ db'.files = db.files
  | .insert target values _ =>
    let row := values.toList.map Statement.literalValue
    ∃ t u, (target, t) ∈ db.catalog.toList ∧ u.name = t.name ∧ u.titles = t.titles ∧
      u.rows = (if row ∈ t.rows then t.rows else t.rows ++ [row]) ∧
      db'.catalog.toList = reassign target u db.catalog.toList ∧
      db'.directory = db.directory ∧ db'.files = db.files
  | .load name =>
    ∃ t, db.readTable name = .ok t ∧ db'.catalog.toList = assign name t db.catalog.toList ∧
      db'.directory = db.directory ∧ db'.files = db.files
  | .store name =>
    db'.catalog = db.catalog ∧ db'.directory = db.directory ∧
    db'.files.workingDirectory = db.files.workingDirectory ∧
    ∃ t place, (name, t) ∈ db.catalog.toList ∧ db.files.locate (db.pathOf name) = .ok place ∧
      ∀ p, db'.files.node? p =
        if p = place then some (.file (Text.Utf8.encode t.encode.toList)) else db.files.node? p
  | .print _ | .select _ | .exit | .quit => db' = db

variable {db db' : Database}

theorem Body.gives_of_reads {name : String} {body : Body} {d : Definition}
    (h : body.Reads db.catalog name d) {t : Table} (ht : d.table = .ok t) :
    body.Gives db.catalog name t := by
  rcases h with @⟨ts, u, hu⟩ | @⟨p, q, hq⟩
  · injection ht with ht
    exact ht ▸ Table.withTitles_spec hu
  · obtain ⟨u, hu, hspec⟩ := Clause.answer_of_reads hq
    rw [Except.ok.inj (hu.symm.trans ht)] at hspec
    exact hspec

theorem mem_toList_of_lookup {c : Catalog} {name : String} {e : Catalog.Entry}
    (h : c.lookup name = .ok e) : (name, e.table) ∈ c.toList := by
  obtain ⟨hmem, rfl⟩ := Catalog.mem_of_lookup h
  exact List.mem_map_of_mem hmem

/-- **The statement that a command means makes of a database what the command does.** -/
theorem Command.makes_of_reads (hdb : db.catalog.IsUnshared) {cmd : Command} {st : Statement}
    (hreads : cmd.Reads db.catalog st) {lines : List String}
    (hst : st.execute db = .ok (db', lines)) : cmd.Makes db db' := by
  have hspec := Statement.execute_spec hst
  rcases hreads with @⟨name, body, d, hbody⟩ | @⟨target, values, parenthesized, e, he⟩ | name |
    name | name | hq | _ | _
  · obtain ⟨t, ht, rfl⟩ := hspec
    exact ⟨t, Body.gives_of_reads hbody ht, db.catalog.toList_put name t, rfl, rfl⟩
  · obtain ⟨u, isNew, hadd, rfl⟩ := hspec
    obtain ⟨hmem, hname⟩ := Catalog.mem_of_lookup he
    refine ⟨e.table, u, mem_toList_of_lookup he, Table.add_name hadd, Table.add_titles hadd,
      Table.add_rows hadd, ?_, rfl, rfl⟩
    rw [← hname]
    exact hdb.toList_update hmem u
  · obtain ⟨t, ht, rfl⟩ := Database.load_spec hspec
    exact ⟨t, ht, db.catalog.toList_put name t, rfl, rfl⟩
  · obtain ⟨e, he, hwrite⟩ := Database.store_spec hspec
    obtain ⟨-, files, hfiles, rfl⟩ := Database.writeTable_spec hwrite
    obtain ⟨place, hlocate, hplace, -, rfl⟩ := FileSystem.writeFile_spec hfiles
    exact ⟨rfl, rfl, FileSystem.workingDirectory_put place _, e.table, place,
      mem_toList_of_lookup he, hlocate, FileSystem.node?_put hplace _⟩
  · exact hspec
  · exact hspec
  · exact hspec
  · exact hspec

end Phrase

/-- No command puts a table under a second name. -/
theorem Database.keptByCommands_isUnshared :
    KeptByCommands fun db => db.catalog.IsUnshared := by
  intro db db' cmd st lines hdb _ hreads hst
  have hspec := Statement.execute_spec hst
  rcases hreads with @⟨name, body, d, hbody⟩ | @⟨target, values, parenthesized, e, he⟩ | name |
    name | name | hq | _ | _
  · obtain ⟨t, -, rfl⟩ := hspec
    exact hdb.put name t
  · obtain ⟨t, isNew, -, rfl⟩ := hspec
    exact hdb.update e.identity t
  · obtain ⟨t, -, rfl⟩ := load_spec hspec
    exact hdb.put name t
  · rw [catalog_of_store hspec]
    exact hdb
  · rw [hspec]
    exact hdb
  · rw [hspec]
    exact hdb
  · rw [hspec]
    exact hdb
  · rw [hspec]
    exact hdb

/-! ## 3. Statements that succeed -/

namespace Session

/-- A statement that succeeds at anything but the end of the input was a command, and has
made of the database what the command does. -/
theorem exists_makes_of_success {s t : Session} {a : Advance} (hs : s.stream.IsLexical)
    (hdb : s.database.catalog.IsUnshared) (h : s.statement = (.ok a, t)) :
    (a = .inputEnded ∧ t.database = s.database) ∨
    ∃ (cmd : Command) (rest : List Arrival),
      s.stream.queue = arrivals (cmd.spell ++ [.terminator]) ++ rest ∧
        t.stream.queue = rest ∧ cmd.Makes s.database t.database := by
  rw [statement_eq] at h
  rcases hr : (Statement.next? s.database.catalog).run s.stream with ⟨_ | st, u⟩ | ⟨e, u⟩ <;>
    rw [hr] at h
  · obtain ⟨ha, rfl⟩ := Prod.mk.inj h
    injection ha with ha
    exact .inl ⟨ha.symm, rfl⟩
  · obtain ⟨cmd, hreads, htakes⟩ := Statement.next?_finds hs hr
    dsimp only at h
    rcases hst : st.execute s.database with e | ⟨db, lines⟩ <;> rw [hst] at h
    · simp at h
    · obtain ⟨-, rfl⟩ := Prod.mk.inj h
      refine .inr ⟨cmd, u.queue, htakes.queue_eq, ?_, Command.makes_of_reads hdb hreads hst⟩
      rw [queue_carryOut, queue_readTo]
  · simp at h

/-- A command that is spelled and admitted is carried out. -/
theorem exists_makes_of_admissible {s : Session} (hs : s.stream.IsLexical)
    (hdb : s.database.catalog.IsUnshared) {cmd : Command} {rest : List Arrival}
    (hq : s.stream.queue = arrivals (cmd.spell ++ [.terminator]) ++ rest)
    (hadmissible : cmd.Admissible s.database) :
    ∃ a t, s.statement = (.ok a, t) ∧ t.stream.queue = rest ∧
      cmd.Makes s.database t.database := by
  obtain ⟨st, ⟨db, lines⟩, hreads, hst⟩ := Command.exists_execute_iff.2 hadmissible
  obtain ⟨t, ht, hdatabase, -, hrest⟩ := statement_of_reads hs hq hreads hst
  refine ⟨_, t, ht, hrest, ?_⟩
  rw [hdatabase]
  exact Command.makes_of_reads hdb hreads hst

/-- **The frame of a statement that succeeds.** It was a command, and has made of the database
what `Command.Makes` says and nothing else; and every command that is spelled and admitted is
such a statement. This needs a catalog in which no table stands under two names. A run keeps
that, so it holds of each statement of a run of any length. -/
theorem success_frame (s : Session) (hdb : s.database.catalog.IsUnshared) :
    (s.stream.IsLexical →
      (∀ a t, s.statement = (.ok a, t) → (a = .inputEnded ∧ t.database = s.database) ∨
        ∃ (cmd : Command) (rest : List Arrival),
          s.stream.queue = arrivals (cmd.spell ++ [.terminator]) ++ rest ∧
            t.stream.queue = rest ∧ cmd.Makes s.database t.database) ∧
      ∀ (cmd : Command) (rest : List Arrival),
        s.stream.queue = arrivals (cmd.spell ++ [.terminator]) ++ rest →
        cmd.Admissible s.database →
        ∃ a t, s.statement = (.ok a, t) ∧ t.stream.queue = rest ∧
          cmd.Makes s.database t.database) ∧
    ((∀ x ∈ s.stream.queue, x.IsRegular) → ∀ n t, s.afterTurns n = some t →
      t.stream.IsLexical ∧ t.database.catalog.IsUnshared) := by
  refine ⟨fun hs => ⟨fun a t h => exists_makes_of_success hs hdb h, fun cmd rest hq hadmissible =>
    exists_makes_of_admissible hs hdb hq hadmissible⟩, fun hs n t ht => ⟨?_, ?_⟩⟩
  · obtain ⟨-, hregular⟩ := queue_of_afterTurns hs ht
    exact fun k hk => hregular (.ok k) hk
  · exact afterTurns_keeps Database.keptByCommands_isUnshared hs hdb ht

/-- Two tables of two rows, each under a name of its own. -/
def twoTables : Database :=
  ⟨⟨[⟨"t", 0, pairTable⟩, ⟨"u", 1, pairTable⟩]⟩, .root, .empty⟩

theorem isUnshared_twoTables : twoTables.catalog.IsUnshared := by
  refine ⟨by decide, fun d hd e he hde => ?_⟩
  rcases List.mem_pair.1 hd with rfl | rfl <;> rcases List.mem_pair.1 he with rfl | rfl
  · rfl
  · exact absurd hde (by decide)
  · exact absurd hde (by decide)
  · rfl

/-- A table that is made of its own rows takes its own place, before the other table. -/
theorem success_frame_source :
    ∃ a t, (start (.ofString "create table t as select a from t where a > 'x';")
        twoTables).statement = (.ok a, t) ∧
      t.database.catalog.toList.map (fun e => (e.1, e.2.rows)) =
        [("t", [["y"]]), ("u", [["x"], ["y"]])] ∧
      t.database.files = twoTables.files := by
  have hq : (start (.ofString "create table t as select a from t where a > 'x';")
      twoTables).stream.queue =
      arrivals ((Command.create "t" (.query ⟨⟨⟨"a", none⟩, []⟩, ⟨"t", []⟩,
        some ⟨⟨⟨"a", none⟩, .greater, .literal "'x'"⟩, []⟩⟩)).spell ++ [.terminator]) ++ [] :=
    TokenStream.queue_ofSource.trans (by decide +kernel)
  have hp : Clause.Admissible twoTables.catalog ⟨⟨⟨"a", none⟩, []⟩, ⟨"t", []⟩,
      some ⟨⟨⟨"a", none⟩, .greater, .literal "'x'"⟩, []⟩⟩ := by
    refine ⟨by decide, by decide, by decide, fun r hr => ?_⟩
    have hr : r = ⟨"a", none⟩ := by
      simpa [Clause.refs, comparisons, OneOrMore.toList, Comparison.refs, Side.refs] using hr
    rw [hr]
    exact ⟨(0 : Fin 1), ⟨rfl, by decide⟩, fun j _ => Fin.fin_one_eq_zero j⟩
  obtain ⟨a, t, ht, -, answer, ⟨-, -, hrows⟩, hlist, -, hfiles⟩ :=
    ((success_frame (start (.ofString "create table t as select a from t where a > 'x';")
      twoTables) isUnshared_twoTables).1 (TokenStream.isLexical_of_none rfl)).2 _ _ hq hp
  refine ⟨a, t, ht, ?_, hfiles⟩
  have hanswer : answer.rows = [["y"]] := hrows.trans (by decide +kernel)
  rw [hlist]
  change [("t", answer.rows), ("u", pairTable.rows)] = _
  rw [hanswer]
  decide +kernel

end Session

end FlatQuery
