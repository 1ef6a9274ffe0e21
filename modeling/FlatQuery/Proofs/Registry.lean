import FlatQuery.Proofs.Encoding
import FlatQuery.Proofs.Invariance
import FlatQuery.Proofs.Selecting

/-!
# What can be registered

A table comes into the catalog in one of four ways: by a list of columns, by a selection, from
a file, or by a row that is put into one. Each of them makes sure of something else. Titles
that are written are names, and those of a selection are written too; titles that are read
from a file have been cut at its commas and line ends. Values are literals, or are taken
from rows that are there, or have been cut at line ends. So whatever is done, a registered
table stands under its own name, has a column, and can be written in lines: no title holds a
comma or a line end, and no value holds a line end (`Table.IsSound`).

A row that is put into a table shows under every name of the table. That this spoils no name
rests on there being one only, which is part of the invariant of catalogs
(`Catalog.IsSound`). Reading a file and giving a new table a name keep it, since a table that
is registered has an identity that no other has.

`Database.Reachable` lists what can be done to a database, and `Reachable.isSound` is the
induction along it.
-/

set_option autoImplicit false

namespace FlatQuery

open FlatQuery.Phrase

/-! ## 1. Sound tables -/

/-- Whether a text can stand in the first line of a table's file. -/
structure IsTitle (title : String) : Prop where
  delimiter_notMem : Table.delimiter ∉ title.toList
  lineFeed_notMem : '\n' ∉ title.toList
  carriageReturn_notMem : '\r' ∉ title.toList

/-- Whether a table has a column and can be written in lines. -/
structure Table.IsSound (t : Table) : Prop where
  titles_ne_nil : t.titles ≠ []
  titles : ∀ title ∈ t.titles, IsTitle title
  values : ∀ row ∈ t.rows, ∀ v ∈ row, '\n' ∉ v.toList

/-- A name can be a title. -/
theorem isTitle_of_isLexical {n : String} (h : (Token.ofName n).IsLexical) : IsTitle n :=
  ⟨h.notMem_name (by decide), h.notMem_name (by decide), h.notMem_name (by decide)⟩

namespace Table

theorem isSound_of_withTitles {name : String} {titles : List String} {t : Table}
    (h : withTitles name titles = .ok t) (hne : titles ≠ [])
    (htitles : ∀ title ∈ titles, IsTitle title) : t.IsSound := by
  obtain ⟨-, ht, hrows⟩ := withTitles_spec h
  refine ⟨ht ▸ hne, ht ▸ htitles, fun row hrow => ?_⟩
  rw [hrows] at hrow
  exact absurd hrow List.not_mem_nil

/-- A row of values that stay within a line can be put into a sound table. -/
theorem IsSound.add {t u : Table} {row : Row} {isNew : Bool} (ht : t.IsSound)
    (h : t.add row = .ok (u, isNew)) (hrow : ∀ v ∈ row, '\n' ∉ v.toList) : u.IsSound := by
  have htitles := add_titles h
  refine ⟨htitles ▸ ht.titles_ne_nil, htitles ▸ ht.titles, fun r hr => ?_⟩
  rw [add_rows h] at hr
  split at hr
  · exact ht.values r hr
  · rcases List.mem_append.1 hr with hr | hr
    · exact ht.values r hr
    · rw [List.mem_singleton.1 hr]
      exact hrow

/-- **Whatever a file holds, a table that is read from it is sound.** -/
theorem isSound_of_decode {name content : String} {t : Table} (h : decode name content = .ok t)
    (hcontent : '\r' ∉ content.toList) : t.IsSound := by
  obtain ⟨hkeeps, -⟩ := keepsLines_of_decode h
  obtain ⟨header, lines, hlines, -, htitles, -⟩ := decode_spec h
  refine ⟨hkeeps.titles_ne_nil, fun title ht => ?_, hkeeps.values⟩
  obtain ⟨hcomma, hfeed⟩ := hkeeps.titles title ht
  obtain ⟨-, hchars⟩ := of_mem_fileLines (hlines ▸ List.mem_cons_self)
  rw [htitles] at ht
  exact ⟨hcomma, hfeed, fun hc => hcontent (hchars _ (mem_of_mem_decodeLine ht hc))⟩

end Table

/-- What is found under a title is a value of one of the rows. -/
theorem ColumnRef.valueIn_mem (sources : List Table) (rows : List Row) (r : ColumnRef) :
    r.valueIn sources rows = "" ∨ ∃ row ∈ rows, r.valueIn sources rows ∈ row := by
  unfold valueIn
  rcases hfind : (sources.zip rows).findSome? _ with _ | v
  · exact .inl rfl
  · obtain ⟨⟨t, row⟩, hmem, hv⟩ := List.exists_of_findSome?_eq_some hfind
    dsimp only at hv
    split at hv
    · obtain ⟨l, l', hzip, -⟩ := List.lookup_eq_some_iff.1 hv
      have hpair : (r.name, v) ∈ t.titles.zip row := by
        rw [hzip]
        exact List.mem_append_right _ (List.mem_cons_self ..)
      exact .inr ⟨row, (List.of_mem_zip hmem).2, (List.of_mem_zip hpair).2⟩
    · simp at hv

/-- Every row of a combination is one of a source. -/
theorem Query.exists_of_mem_combinations {ts : List Table} {rows : List Row}
    (h : rows ∈ combinations ts) {row : Row} (hrow : row ∈ rows) : ∃ t ∈ ts, row ∈ t.rows :=
  exists_of_mem_right (forall₂_of_mem_combinations h) hrow

/-! ## 2. Sound catalogs -/

namespace Catalog

/-- Whether every table of a catalog is sound and stands under its own name alone. -/
structure IsSound (c : Catalog) : Prop where
  name_eq : ∀ e ∈ c.entries, e.table.name = e.name
  table : ∀ e ∈ c.entries, e.table.IsSound
  identity_inj : ∀ d ∈ c.entries, ∀ e ∈ c.entries, d.identity = e.identity → d = e

theorem isSound_empty : empty.IsSound :=
  ⟨fun _ he => absurd he List.not_mem_nil, fun _ he => absurd he List.not_mem_nil,
    fun _ he => absurd he List.not_mem_nil⟩

theorem mem_of_lookup {c : Catalog} {name : String} {e : Entry} (h : c.lookup name = .ok e) :
    e ∈ c.entries ∧ e.name = name := by
  rw [lookup_eq_ok_iff] at h
  exact ⟨List.mem_of_find?_eq_some h, by simpa using List.find?_some h⟩

theorem mem_put {c : Catalog} {name : String} {t : Table} {e : Entry}
    (h : e ∈ (c.put name t).entries) : e ∈ c.entries ∨ e = ⟨name, c.freshIdentity, t⟩ := by
  unfold put set at h
  split at h
  · obtain ⟨d, hd, hde⟩ := List.mem_map.1 h
    split at hde
    · exact .inr hde.symm
    · exact .inl (hde ▸ hd)
  · exact (List.mem_append.1 h).imp id List.mem_singleton.1

/-- A sound table can be registered under its name. -/
theorem IsSound.put {c : Catalog} (hc : c.IsSound) {t : Table} (ht : t.IsSound) {name : String}
    (hname : t.name = name) : (c.put name t).IsSound := by
  refine ⟨fun e he => ?_, fun e he => ?_, fun d hd e he hde => ?_⟩
  · rcases mem_put he with he | rfl
    · exact hc.name_eq e he
    · exact hname
  · rcases mem_put he with he | rfl
    · exact hc.table e he
    · exact ht
  · rcases mem_put hd with hd | rfl <;> rcases mem_put he with he | rfl
    · exact hc.identity_inj d hd e he hde
    · exact absurd hde (Nat.ne_of_lt (identity_lt_freshIdentity hd))
    · exact absurd hde.symm (Nat.ne_of_lt (identity_lt_freshIdentity he))
    · rfl

/-- The contents of a registered table can be replaced by sound ones. -/
theorem IsSound.update {c : Catalog} (hc : c.IsSound) {target : Entry}
    (htarget : target ∈ c.entries) {t : Table} (ht : t.IsSound)
    (hname : t.name = target.table.name) : (c.update target.identity t).IsSound := by
  -- No other entry has the target's identity, so no other entry changes.
  have hcases : ∀ e ∈ (c.update target.identity t).entries,
      e = { target with table := t } ∨ e ∈ c.entries ∧ e.identity ≠ target.identity := by
    intro e he
    obtain ⟨d, hd, rfl⟩ := List.mem_map.1 he
    split
    · rename_i hid
      rw [hc.identity_inj d hd target htarget hid]
      exact .inl rfl
    · rename_i hid
      exact .inr ⟨hd, hid⟩
  refine ⟨fun e he => ?_, fun e he => ?_, fun d hd e he hde => ?_⟩
  · rcases hcases e he with rfl | ⟨he, -⟩
    · exact hname.trans (hc.name_eq target htarget)
    · exact hc.name_eq e he
  · rcases hcases e he with rfl | ⟨he, -⟩
    · exact ht
    · exact hc.table e he
  · rcases hcases d hd with rfl | ⟨hd, hdt⟩ <;> rcases hcases e he with rfl | ⟨he, het⟩
    · rfl
    · exact absurd hde.symm het
    · exact absurd hde hdt
    · exact hc.identity_inj d hd e he hde

end Catalog

/-! ## 3. What commands register -/

namespace Phrase

/-- **What is selected from sound tables is sound.** -/
theorem Clause.isSound_of_reads {c : Catalog} (hc : c.IsSound) {name : String} {p : Clause}
    {q : Query} (hlexical : ∀ k ∈ p.spell, k.IsLexical) (h : p.Reads c name q) {t : Table}
    (ht : q.answer = .ok t) : t.name = name ∧ t.IsSound := by
  obtain ⟨u, hu, hname, htitles, hrows⟩ := answer_of_reads h
  obtain rfl : u = t := Except.ok.inj (hu.symm.trans ht)
  refine ⟨hname, ?_, fun title hmem => ?_, fun row hrow v hv => ?_⟩
  · rw [htitles]
    exact List.cons_ne_nil _ _
  · rw [htitles] at hmem
    obtain ⟨r, hr, rfl⟩ := List.mem_map.1 hmem
    have hspell : Token.ofName r.name ∈ r.spell := by
      obtain ⟨n, _ | table⟩ := r
      · exact List.mem_singleton_self _
      · exact List.mem_cons_of_mem _ (List.mem_cons_of_mem _ (List.mem_singleton_self _))
    exact isTitle_of_isLexical
      (hlexical _ (List.mem_append_left _ (OneOrMore.mem_spell hr hspell)))
  -- A value of the answer was a value of a source, or stands for none.
  · rw [hrows, rows, List.mem_eraseDups] at hrow
    obtain ⟨rows, hkept, rfl⟩ := List.mem_map.1 hrow
    obtain ⟨r, -, rfl⟩ := List.mem_map.1 hv
    rcases r.valueIn_mem (tablesOf c p.sources.toList) rows with hempty | ⟨row, hrow, hmem⟩
    · rw [hempty]
      decide
    · obtain ⟨source, hsource, hrow⟩ :=
        Query.exists_of_mem_combinations (List.mem_filter.1 hkept).1 hrow
      obtain ⟨n, -, hn⟩ := List.mem_filterMap.1 hsource
      obtain ⟨e, he, rfl⟩ := Option.map_eq_some_iff.1 hn
      exact (hc.table e (List.mem_of_find?_eq_some he)).values row hrow _ hmem

theorem isSound_of_body {c : Catalog} (hc : c.IsSound) {name : String} {body : Body}
    {d : Definition} (hlexical : ∀ k ∈ body.spell, k.IsLexical) (h : body.Reads c name d)
    {t : Table} (ht : d.table = .ok t) : t.name = name ∧ t.IsSound := by
  rcases h with @⟨ts, u, hu⟩ | @⟨p, q, hq⟩
  · injection ht with ht
    subst ht
    refine ⟨(Table.withTitles_spec hu).1, Table.isSound_of_withTitles hu (List.cons_ne_nil _ _)
      fun n hn => isTitle_of_isLexical (hlexical _ ?_)⟩
    exact List.mem_cons_of_mem _
      (List.mem_append_left _ (OneOrMore.mem_spell hn (List.mem_singleton_self _)))
  · refine Clause.isSound_of_reads hc (fun k hk => hlexical k ?_) hq ht
    exact List.mem_cons_of_mem _ (List.mem_cons_of_mem _ hk)

theorem notMem_values {values : OneOrMore String} {parenthesized : Bool}
    (hlexical : ∀ k ∈ spellValues values parenthesized, k.IsLexical) :
    ∀ v ∈ values.toList.map Statement.literalValue, '\n' ∉ v.toList := by
  intro v hv
  obtain ⟨text, htext, rfl⟩ := List.mem_map.1 hv
  have hmem : (⟨.literal, text⟩ : Token) ∈ values.spell "," fun v => [⟨.literal, v⟩] :=
    OneOrMore.mem_spell htext (List.mem_singleton_self _)
  refine (hlexical _ ?_).notMem_literalValue
  unfold spellValues
  split
  · exact List.mem_cons_of_mem _ (List.mem_append_left _ hmem)
  · exact hmem

end Phrase

namespace Database

theorem isSound_of_load {db db' : Database} {name : String} (hdb : db.catalog.IsSound)
    (h : db.load name = .ok db') : db'.catalog.IsSound := by
  obtain ⟨t, ht, rfl⟩ := load_spec h
  obtain ⟨content, text, -, htext, hdecode⟩ := readTable_spec ht
  obtain ⟨-, -, -, hname, -⟩ := Table.decode_spec hdecode
  exact hdb.put (Table.isSound_of_decode hdecode (notMem_of_textOf htext)) hname

theorem catalog_of_store {db db' : Database} {name : String} (h : db.store name = .ok db') :
    db'.catalog = db.catalog := by
  obtain ⟨entry, -, hwrite⟩ := store_spec h
  obtain ⟨-, files, -, rfl⟩ := writeTable_spec hwrite
  rfl

/-- **No command spoils a sound catalog.** -/
theorem keptByCommands_isSound : KeptByCommands fun db => db.catalog.IsSound := by
  intro db db' cmd st lines hdb hlexical hreads hst
  have hspec := Statement.execute_spec hst
  have hspell {k : Token} {ks : List Token} (h : ks <:+ cmd.spell) (hk : k ∈ ks) :
      k.IsLexical := hlexical k (h.subset hk)
  rcases hreads with @⟨name, body, d, hbody⟩ | @⟨target, values, parenthesized, e, he⟩ | n | n |
    n | hq | _ | _
  · obtain ⟨t, ht, rfl⟩ := hspec
    obtain ⟨hname, hsound⟩ :=
      isSound_of_body hdb (fun k hk => hspell (List.suffix_append [_, _, _] _) hk) hbody ht
    exact hdb.put hsound hname
  · obtain ⟨t, isNew, hadd, rfl⟩ := hspec
    obtain ⟨hmem, -⟩ := Catalog.mem_of_lookup he
    have hvalues := notMem_values (fun k hk => hspell (List.suffix_append [_, _, _, _] _) hk)
    exact hdb.update hmem ((hdb.table e hmem).add hadd hvalues) (Table.add_name hadd)
  · exact isSound_of_load hdb hspec
  -- A store changes files, and the other commands nothing.
  · rw [catalog_of_store hspec]
    exact hdb
  · rw [hspec]
    exact hdb
  · rw [hspec]
    exact hdb
  · rw [hspec]
    exact hdb
  · rw [hspec]
    exact hdb

/-! ## 4. What can be reached -/

/-- What can become of a database that is used by its statements, loads and stores. -/
inductive Reachable : Database → Prop where
  /-- There are no tables at first, whatever the files are. -/
  | fresh (directory : Directory) (files : FileSystem) : Reachable (.fresh directory files)
  /-- A text is run. -/
  | run {db : Database} (h : Reachable db) (text : String) :
    Reachable (Session.runText db text).1.database
  /-- A text is run, and broken off between two statements. -/
  | broken {db : Database} (h : Reachable db) {text : String} {n : Nat} {s : Session}
    (hs : (Session.start (.ofString text) db).afterTurns n = some s) : Reachable s.database
  /-- A file is loaded. -/
  | load {db db' : Database} (h : Reachable db) {name : String} (hl : db.load name = .ok db') :
    Reachable db'
  /-- A table is stored. -/
  | store {db db' : Database} (h : Reachable db) {name : String}
    (hs : db.store name = .ok db') : Reachable db'
  /-- The files become others. -/
  | rewrite {db : Database} (h : Reachable db) (files : FileSystem) :
    Reachable { db with files }

/-- **Whatever is done, the catalog is sound.** -/
theorem Reachable.isSound {db : Database} (h : db.Reachable) : db.catalog.IsSound := by
  induction h with
  | fresh directory files => exact Catalog.isSound_empty
  | run _ text ih =>
    exact Session.run_keeps keptByCommands_isSound (Session.isRegular_start _ text) ih
  | broken _ hs ih =>
    exact Session.afterTurns_keeps keptByCommands_isSound (Session.isRegular_start _ _) ih hs
  | load _ hl ih => exact isSound_of_load ih hl
  | store _ hs ih =>
    rw [catalog_of_store hs]
    exact ih
  | rewrite _ files ih => exact ih

/-- **A registered table is as it should be.** Whatever was run, loaded and stored, and
whatever the files were meanwhile, a table stands under its own name and has one column at
least. Its titles differ and hold neither commas nor line ends; its rows are as wide as the
titles, differ, and hold no line ends. So its file has a line for the titles and one for
each row, and the first is read as the titles again. -/
theorem Reachable.registered {db : Database} (h : db.Reachable) :
    ∀ e ∈ db.catalog.entries,
      e.table.name = e.name ∧ e.table.titles ≠ [] ∧ e.table.titles.Nodup ∧
      (∀ title ∈ e.table.titles, ',' ∉ title.toList ∧ '\n' ∉ title.toList) ∧
      (∀ row ∈ e.table.rows, row.length = e.table.titles.length) ∧ e.table.rows.Nodup ∧
      (∀ row ∈ e.table.rows, ∀ v ∈ row, '\n' ∉ v.toList) ∧
      (Table.fileLines e.table.encode).length = 1 + e.table.size ∧
      ∃ header, (Table.fileLines e.table.encode).head? = some header ∧
        Table.decodeLine header = e.table.titles := by
  intro e he
  have hname := h.isSound.name_eq e he
  obtain ⟨hne, htitles, hvalues⟩ := h.isSound.table e he
  have hlines := Table.fileLines_encode (fun title ht => (htitles title ht).lineFeed_notMem)
    hvalues
  refine ⟨hname, hne, e.table.titles_nodup,
    fun title ht => ⟨(htitles title ht).delimiter_notMem, (htitles title ht).lineFeed_notMem⟩,
    e.table.rows_width, e.table.rows_nodup, hvalues, ?_, Table.lineOf e.table.titles, ?_, ?_⟩
  · rw [hlines, List.length_cons, List.length_map, Table.length_rows, Nat.add_comm]
  · rw [hlines, List.head?_cons]
  · exact Table.decodeLine_lineOf hne fun title ht => (htitles title ht).delimiter_notMem

/-- A database without tables over a file in which a line comes twice. -/
def repeated : Database :=
  fresh .root ⟨[(["t.db"], .file (Text.Utf8.encode "a,b\n1,2\n1,2\n".toList))], [], []⟩

theorem registered_repeated :
    ∃ db, repeated.load "t" = .ok db ∧ ∃ e ∈ db.catalog.entries, e.table.name = e.name ∧
      e.table.titles = ["a", "b"] ∧ e.table.size = 1 ∧
      (Table.fileLines e.table.encode).length = 1 + e.table.size := by
  have hload : (repeated.load "t").toOption.map (fun db =>
      db.catalog.entries.map fun e => (e.table.titles, e.table.size)) = some [(["a", "b"], 1)] := by
    decide +kernel
  rcases hl : repeated.load "t" with d | db <;> rw [hl] at hload
  · cases hload
  · obtain ⟨e, he, hmap⟩ := List.mem_map.1 (Option.some.inj hload ▸ List.mem_singleton_self _)
    obtain ⟨htitles, hsize⟩ := Prod.mk.inj hmap
    obtain ⟨hname, -, -, -, -, -, -, hlength, -⟩ :=
      (Reachable.load (.fresh _ _) hl).registered e he
    exact ⟨db, rfl, e, he, hname, htitles, hsize, hlength⟩

end Database

end FlatQuery
