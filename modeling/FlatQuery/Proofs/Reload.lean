import FlatQuery.Proofs.Registry
import FlatQuery.Text.Utf8.RoundTrip

/-!
# Stored and loaded again

A table that was stored is loaded again as it was exactly when none of its values holds a
comma or a carriage return (`Database.readTable_iff`). The two do different damage.

A comma makes its line too wide, and a line that is too wide is refused. So the table is not
loaded, and that is reported (`Database.readTable_of_delimiter`).

A carriage return is written as it is, and is read as the end of a line. A literal may hold
one within, where it is not trimmed. In a table of one column each part of the value then is a
row of its own, and nothing is refused. The text of `Session.reload_splits` creates such a
table and stores it, and what is loaded has two rows where there was one.

Both rest on the file being read as it was written but for its line ends
(`Database.readTable_of_writeTable`): a path leads where it led, because what a file takes the
place of is no directory (`FileSystem.follow_put`).
-/

set_option autoImplicit false

namespace FlatQuery

open FlatQuery.Phrase

/-! ## 1. What is written is read -/

namespace FileSystem

variable {fs fs' : FileSystem} {place : List String}

/-- Replacing what stands at a place moves nothing to another. -/
theorem find?_replace (nodes : List (List String × Node)) (n : Node) (p : List String) :
    (nodes.map fun e => if e.1 = place then (place, n) else e).find? (fun e => e.1 = p) =
      (nodes.find? fun e => e.1 = p).map fun e => if e.1 = place then (place, n) else e := by
  have hsame : ((fun e : List String × Node => decide (e.1 = p)) ∘
      fun e => if e.1 = place then (place, n) else e) = fun e => decide (e.1 = p) := by
    funext e
    by_cases he : e.1 = place
    · simp [he]
    · simp [he]
  rw [List.find?_map, hsame]

/-- What is put at a place stands there, and nothing else has changed. -/
theorem node?_put (hplace : place ≠ []) (n : Node) (p : List String) :
    (fs.put place n).node? p = if p = place then some n else fs.node? p := by
  by_cases hroot : p = []
  · rw [if_neg (hroot ▸ hplace.symm), node?, node?, if_pos hroot, if_pos hroot]
  · rw [node?, node?, if_neg hroot, if_neg hroot, put]
    split
    -- What stood at the place is replaced where it is found,
    · rename_i hany
      dsimp only
      rw [find?_replace]
      by_cases hp : p = place
      · obtain ⟨e, he⟩ : ∃ e, fs.nodes.find? (fun e => e.1 = p) = some e := by
          rw [← Option.isSome_iff_exists, List.find?_isSome]
          simpa [hp] using hany
        have hep : e.1 = p := by simpa using List.find?_some he
        rw [he, if_pos hp, Option.map_some, if_pos (hep.trans hp), Option.map_some]
      · rw [if_neg hp, Option.map_map]
        refine Option.map_congr fun e he => ?_
        have hep : e.1 = p := by simpa using List.find?_some he
        rw [Function.comp_apply, if_neg (hep ▸ hp)]
    -- and where nothing stood, the last entry is the only one there.
    · rename_i hany
      dsimp only
      rw [List.find?_append, List.find?_singleton]
      by_cases hp : p = place
      · have hnone : fs.nodes.find? (fun e => e.1 = p) = none := by
          rw [List.find?_eq_none]
          intro e he hep
          exact hany (List.any_eq_true.2 ⟨e, he, hp ▸ hep⟩)
        rw [hnone, if_pos hp]
        simp [hp]
      · rw [if_neg hp, if_neg (by simpa using Ne.symm hp), Option.or_none]

@[simp] theorem workingDirectory_put (place : List String) (n : Node) :
    (fs.put place n).workingDirectory = fs.workingDirectory := by
  unfold put
  split
  · rfl
  · rfl

/-- What is put somewhere opens no directory. -/
@[simp] theorem isClosed_put (place : List String) (n : Node) (p : List String) :
    (fs.put place n).isClosed p = fs.isClosed p := by
  unfold put
  split
  · rfl
  · rfl

/-- A step is made from a directory that may be searched, up or to a name that is not too
long. -/
theorem follow_cons_eq_ok_iff {start names target : List String} {name : String} :
    fs.follow start (name :: names) = .ok target ↔
      fs.node? start = some .directory ∧ fs.isClosed start = false ∧
        (name = ".." ∧ fs.follow start.dropLast names = .ok target ∨
          name ≠ ".." ∧ name.utf8ByteSize ≤ maxName ∧
            fs.follow (start ++ [name]) names = .ok target) := by
  rw [follow]
  rcases fs.node? start with _ | ⟨content⟩ | _
  · simp
  · simp
  · dsimp only
    rcases hclosed : fs.isClosed start with _ | _
    · rw [if_neg Bool.false_ne_true]
      by_cases hup : name = ".."
      · simp [hup]
      · rw [if_neg hup]
        by_cases hlong : maxName < name.utf8ByteSize
        · simp [hup, hlong, Nat.not_le.2 hlong]
        · simp [hup, hlong, Nat.not_lt.1 hlong]
    · simp

/-- A path leads somewhere if it can be looked at and its names can be followed. -/
theorem locate_eq_ok_iff {p : Path} {target : List String} :
    fs.locate p = .ok target ↔
      (p.holdsNull = false ∧ p.toString.utf8ByteSize ≤ maxPath ∧
        (p = ⟨"", []⟩ → fs.isClosed fs.workingDirectory = false)) ∧
      fs.follow (if p.isAbsolute then [] else fs.workingDirectory) p.names = .ok target := by
  rw [locate]
  rcases p.holdsNull with _ | _
  · rw [if_neg Bool.false_ne_true]
    by_cases hlong : maxPath < p.toString.utf8ByteSize
    · simp [hlong, Nat.not_le.2 hlong]
    · rw [if_neg hlong]
      by_cases hclosed : p = ⟨"", []⟩ ∧ fs.isClosed fs.workingDirectory = true
      · rw [if_pos hclosed]
        simp [hclosed]
      · rw [if_neg hclosed]
        rw [not_and, Bool.not_eq_true] at hclosed
        simp only [true_and, iff_and_self]
        exact fun _ => ⟨Nat.not_lt.1 hlong, hclosed⟩
  · simp

/-- A path leads where it led, if no directory was replaced. -/
theorem follow_put (hplace : place ≠ []) (hnode : fs.node? place ≠ some .directory) (n : Node)
    {start names target : List String} (h : fs.follow start names = .ok target) :
    (fs.put place n).follow start names = .ok target := by
  induction names generalizing start with
  | nil => exact h
  | cons name names ih =>
    rw [follow_cons_eq_ok_iff] at h ⊢
    obtain ⟨hstart, hclosed, hstep⟩ := h
    -- A step is made from a directory, and so not from the place.
    have hne : start ≠ place := fun heq => hnode (heq ▸ hstart)
    rw [node?_put hplace, if_neg hne, isClosed_put]
    exact ⟨hstart, hclosed, hstep.imp (And.imp id ih) (And.imp id (And.imp id ih))⟩

theorem locate_put (hplace : place ≠ []) (hnode : fs.node? place ≠ some .directory) (n : Node)
    {p : Path} {target : List String} (h : fs.locate p = .ok target) :
    (fs.put place n).locate p = .ok target := by
  rw [locate_eq_ok_iff] at h ⊢
  rw [workingDirectory_put, isClosed_put]
  exact h.imp id (follow_put hplace hnode n)

/-- A path that leads somewhere where a file was put led there before, because no step is made
from a file. -/
theorem follow_of_put (hplace : place ≠ []) (content : Bytes) {start names target : List String}
    (h : (fs.put place (.file content)).follow start names = .ok target) :
    fs.follow start names = .ok target := by
  induction names generalizing start with
  | nil => exact h
  | cons name names ih =>
    rw [follow_cons_eq_ok_iff, node?_put hplace, isClosed_put] at h
    obtain ⟨hnode, hclosed, hstep⟩ := h
    have hstart : start ≠ place := by
      intro heq
      rw [if_pos heq] at hnode
      cases hnode
    rw [if_neg hstart] at hnode
    rw [follow_cons_eq_ok_iff]
    exact ⟨hnode, hclosed, hstep.imp (And.imp id ih) (And.imp id (And.imp id ih))⟩

theorem locate_of_put (hplace : place ≠ []) (content : Bytes) {p : Path} {target : List String}
    (h : (fs.put place (.file content)).locate p = .ok target) :
    fs.locate p = .ok target := by
  rw [locate_eq_ok_iff, workingDirectory_put, isClosed_put] at h
  rw [locate_eq_ok_iff]
  exact h.imp id (follow_of_put hplace content)

/-- A file is written where its path leads, and what it takes the place of is no directory. -/
theorem writeFile_spec {p : Path} {content : Bytes} (h : fs.writeFile p content = .ok fs') :
    ∃ place, fs.locate p = .ok place ∧ place ≠ [] ∧ fs.node? place ≠ some .directory ∧
      fs' = fs.put place (.file content) := by
  unfold writeFile at h
  rcases hlocate : fs.locate p with e | place <;> rw [hlocate] at h
  · cases h
  · dsimp only at h
    have hnode : fs.node? place ≠ some .directory := by
      intro hdirectory
      rw [hdirectory] at h
      cases h
    -- The root is a directory.
    have hplace : place ≠ [] := by
      rintro rfl
      exact hnode (if_pos rfl)
    refine ⟨place, rfl, hplace, hnode, ?_⟩
    split at h
    · cases h
    · exact (Except.ok.inj h).symm

/-- **A file that was written is read as it was written.** -/
theorem readFile_of_writeFile {p : Path} {content : Bytes}
    (h : fs.writeFile p content = .ok fs') : fs'.readFile p = .ok content := by
  obtain ⟨place, hlocate, hplace, hnode, rfl⟩ := writeFile_spec h
  rw [readFile, locate_put hplace hnode _ hlocate]
  dsimp only
  rw [node?_put hplace, if_pos rfl]

end FileSystem

/-! ## 2. Tables and their files -/

namespace Table

/-- Whether no value of a table holds a character that the file of the table cannot keep. -/
def IsPlain (t : Table) : Prop :=
  ∀ row ∈ t.rows, ∀ v ∈ row, delimiter ∉ v.toList ∧ '\r' ∉ v.toList

instance (t : Table) : Decidable t.IsPlain :=
  inferInstanceAs (Decidable (∀ row ∈ t.rows, ∀ v ∈ row, delimiter ∉ v.toList ∧ '\r' ∉ v.toList))

variable {t : Table} {name : String}

theorem IsSound.keepsLines (ht : t.IsSound) : t.KeepsLines :=
  ⟨ht.titles_ne_nil, fun title h => ⟨(ht.titles title h).delimiter_notMem,
    (ht.titles title h).lineFeed_notMem⟩, ht.values⟩

/-- A carriage return of a table's file is one of the table's values. -/
theorem IsSound.notMem_encode (ht : t.IsSound)
    (hrows : ∀ row ∈ t.rows, ∀ v ∈ row, '\r' ∉ v.toList) : '\r' ∉ t.encode.toList := by
  rw [toList_encode]
  intro hmem
  obtain ⟨l, hl, hmem⟩ := List.mem_flatMap.1 hmem
  rcases List.mem_append.1 hmem with hmem | hmem
  · rcases List.mem_cons.1 hl with rfl | hl
    · exact notMem_lineOf (by decide) (fun title h => (ht.titles title h).carriageReturn_notMem)
        hmem
    · obtain ⟨row, hrow, rfl⟩ := List.mem_map.1 hl
      exact notMem_lineOf (by decide) (hrows row hrow) hmem
  · exact absurd hmem (by decide)

/-- **A table is read as it was written**, where no value holds a comma. -/
theorem IsSound.decode_encode (ht : t.IsSound)
    (hrows : ∀ row ∈ t.rows, ∀ v ∈ row, delimiter ∉ v.toList) :
    decode t.name t.encode = .ok t := by
  obtain ⟨u, hu, hname, htitles, hread⟩ := ht.keepsLines.exists_decode t.name hrows
  rw [hu, ext hname htitles hread]

end Table

/-! ## 3. Databases -/

namespace Database

variable {db db' : Database} {name : String} {t : Table}

theorem textOf_encode (cs : List Char) :
    textOf (Text.Utf8.encode cs) = .ok (String.ofList (Text.unifyLineEnds cs)) := by
  rw [textOf, Text.Utf8.decode_encode]

/-- What is read of a table's file is what was written, but for its line ends. -/
theorem readTable_of_writeTable (h : db.writeTable t name = .ok db') :
    db'.readTable name =
      Table.decode name (String.ofList (Text.unifyLineEnds t.encode.toList)) := by
  obtain ⟨hnull, files, hwrite, rfl⟩ := writeTable_spec h
  have hread := FileSystem.readFile_of_writeFile hwrite
  unfold readTable
  rw [show pathOf { db with files } name = db.pathOf name from rfl, hnull,
    if_neg Bool.false_ne_true, hread]
  dsimp only
  rw [textOf_encode]

/-- So where a table's values have no carriage returns, its file is read as it was written. -/
theorem readTable_of_isSound (h : db.writeTable t name = .ok db') (ht : t.IsSound)
    (hrows : ∀ row ∈ t.rows, ∀ v ∈ row, '\r' ∉ v.toList) :
    db'.readTable name = Table.decode name t.encode := by
  rw [readTable_of_writeTable h, Text.unifyLineEnds_of_notMem (ht.notMem_encode hrows),
    String.ofList_toList]

/-- A table that was read from a file has nothing in it that a file cannot keep. -/
theorem isPlain_of_readTable (h : db.readTable name = .ok t) : t.IsPlain := by
  obtain ⟨content, text, -, htext, hdecode⟩ := readTable_spec h
  obtain ⟨header, lines, hlines, -, -, hrows⟩ := Table.decode_spec hdecode
  intro row hrow v hv
  rw [hrows, List.mem_eraseDups] at hrow
  obtain ⟨line, hline, rfl⟩ := List.mem_map.1 hrow
  obtain ⟨-, hchars⟩ := Table.of_mem_fileLines (hlines ▸ List.mem_cons_of_mem header hline)
  exact ⟨Table.delimiter_notMem_decodeLine hv,
    fun hc => notMem_of_textOf htext (hchars _ (Table.mem_of_mem_decodeLine hv hc))⟩

section Stored

variable {e : Catalog.Entry} (hdb : db.catalog.IsSound) (he : db.catalog.lookup name = .ok e)
  (hstore : db.store name = .ok db')
include hdb he hstore

/-- **What comes back.** A table that was stored is read again as it was exactly when no
value holds a comma or a carriage return. -/
theorem readTable_iff : db'.readTable name = .ok e.table ↔ e.table.IsPlain := by
  obtain ⟨hmem, hname⟩ := Catalog.mem_of_lookup he
  obtain ⟨e', he', hwrite⟩ := store_spec hstore
  obtain rfl : e = e' := Except.ok.inj (he.symm.trans he')
  have hsound := hdb.table e hmem
  constructor
  · exact isPlain_of_readTable
  · intro hplain
    rw [readTable_of_isSound hwrite hsound fun row hrow v hv => (hplain row hrow v hv).2]
    have hdecode := hsound.decode_encode fun row hrow v hv => (hplain row hrow v hv).1
    rwa [(hdb.name_eq e hmem).trans hname] at hdecode

/-- Where a comma is in a value and no carriage return in any, the file is refused. -/
theorem readTable_of_delimiter
    (hreturn : ∀ row ∈ e.table.rows, ∀ v ∈ row, '\r' ∉ v.toList) {row : Row}
    (hrow : row ∈ e.table.rows) {v : String} (hv : v ∈ row)
    (hcomma : Table.delimiter ∈ v.toList) :
    ∃ n given, db'.readTable name = .error (.lineWidth n name given e.table.titles.length) := by
  obtain ⟨hmem, -⟩ := Catalog.mem_of_lookup he
  obtain ⟨e', he', hwrite⟩ := store_spec hstore
  obtain rfl : e = e' := Except.ok.inj (he.symm.trans he')
  have hkeeps := (hdb.table e hmem).keepsLines
  obtain ⟨before, first, after, -, -, -, hdecode⟩ :=
    hkeeps.decode_of_delimiter name ⟨row, hrow, v, hv, hcomma⟩
  rw [readTable_of_isSound hwrite (hdb.table e hmem) hreturn, hdecode]
  exact ⟨_, _, rfl⟩

end Stored

end Database

/-! ## 4. Statements -/

namespace Session

/-- What a statement to load a table comes to is what reading its file comes to. -/
theorem statement_of_load {v : Session} (hv : v.stream.IsLexical) {name : String}
    {rest : List Arrival}
    (hq : v.stream.queue = arrivals ((Command.load name).spell ++ [.terminator]) ++ rest) :
    ∃ u : Session, u.database = v.database ∧
      v.statement = match v.database.readTable name with
        | .error e => (.error e, u)
        | .ok t => (.ok .onward, u.carryOut
            { v.database with catalog := v.database.catalog.put name t }
            [s!"Loaded {name}.db"]) := by
  obtain ⟨x, hrun, -⟩ := exists_read_of_spelled hv hq (.load name)
  refine ⟨v.readTo x, rfl, ?_⟩
  rw [statement_eq, hrun]
  dsimp only [Statement.execute, Database.load]
  rcases v.database.readTable name with e | t
  · rfl
  · rfl

/-- A statement to store a table that was carried out has stored it. -/
theorem store_of_statement {s u : Session} (hs : s.stream.IsLexical) {name : String}
    {rest : List Arrival}
    (hq : s.stream.queue = arrivals ((Command.store name).spell ++ [.terminator]) ++ rest)
    {a : Advance} (h : s.statement = (.ok a, u)) : s.database.store name = .ok u.database := by
  obtain ⟨x, hrun, -⟩ := exists_read_of_spelled hs hq (.store name)
  rw [statement_eq, hrun] at h
  dsimp only at h
  rcases hst : (Statement.store name).execute s.database with e | ⟨db', lines⟩ <;> rw [hst] at h
  · cases h
  · have hu : (s.readTo x).carryOut db' lines = u := (Prod.mk.inj h).2
    rw [← hu]
    exact Statement.execute_spec hst

/-- **What was stored is loaded as it was, or a comma is reported, or a carriage return was
in it.** Whatever was run before, a table that a statement has stored is loaded into a new
database over the same directory as the same table exactly when no value holds a comma or a
carriage return. Where a comma is in a value and no carriage return in any, the statement to
load it is an error that names the line. -/
theorem reload_stored {s u v : Session} (hs : s.stream.IsLexical) (hdb : s.database.Reachable)
    {name : String} {rest rest' : List Arrival} {a : Advance}
    (hq : s.stream.queue = arrivals ((Command.store name).spell ++ [.terminator]) ++ rest)
    (hstore : s.statement = (.ok a, u)) (hv : v.stream.IsLexical)
    (hfresh : v.database = .fresh u.database.directory u.database.files)
    (hqv : v.stream.queue = arrivals ((Command.load name).spell ++ [.terminator]) ++ rest') :
    ∃ e, s.database.catalog.lookup name = .ok e ∧
      ((∃ b w, v.statement = (.ok b, w) ∧ w.database.catalog.toList = [(name, e.table)]) ↔
        e.table.IsPlain) ∧
      ∀ row ∈ e.table.rows, ∀ x ∈ row, Table.delimiter ∈ x.toList →
        (∀ row ∈ e.table.rows, ∀ x ∈ row, '\r' ∉ x.toList) →
          ∃ n given w, v.statement =
            (.error (.lineWidth n name given e.table.titles.length), w) := by
  have hstored := store_of_statement hs hq hstore
  obtain ⟨e, he, -⟩ := Database.store_spec hstored
  obtain ⟨y, -, hload⟩ := statement_of_load hv hqv
  -- The catalog has no part in what is read.
  have hread : v.database.readTable name = u.database.readTable name := by
    rw [hfresh]
    rfl
  rw [hread, hfresh] at hload
  have hplain := Database.readTable_iff hdb.isSound he hstored
  refine ⟨e, he, ⟨?_, fun h => ?_⟩, fun row hrow x hx hcomma hreturn => ?_⟩
  · rintro ⟨b, w, hw, hlist⟩
    rw [hload] at hw
    rcases ht : u.database.readTable name with f | t <;> rw [ht] at hw
    · cases hw
    · rw [← (Prod.mk.inj hw).2] at hlist
      have htable : t = e.table := (Prod.mk.inj (List.cons.inj hlist).1).2
      exact hplain.1 (htable ▸ ht)
  · rw [hplain.2 h] at hload
    exact ⟨_, _, hload, rfl⟩
  · obtain ⟨n, given, herror⟩ :=
      Database.readTable_of_delimiter hdb.isSound he hstored hreturn hrow hx hcomma
    rw [herror] at hload
    exact ⟨n, given, y, hload⟩

/-- A file of two lines is loaded, stored, and loaded again. -/
theorem reload_stored_pair :
    let files : FileSystem := ⟨[(["t.db"], .file (Text.Utf8.encode "a\nx\ny\n".toList))], [], []⟩
    ∃ b w, (start (.ofString "load t;") (.fresh .root files)).statement = (.ok b, w) ∧
      w.database.catalog.toList = [("t", pairTable)] := by
  intro files
  let db : Database := ⟨⟨[⟨"t", 0, pairTable⟩]⟩, .root, files⟩
  have hload : (Database.fresh .root files).load "t" = .ok db := by decide +kernel
  have hq : (start (.ofString "store t;") db).stream.queue =
      arrivals ((Command.store "t").spell ++ [.terminator]) ++ [] :=
    TokenStream.queue_ofSource.trans (by decide +kernel)
  have hqv : (start (.ofString "load t;") (.fresh .root files)).stream.queue =
      arrivals ((Command.load "t").spell ++ [.terminator]) ++ [] :=
    TokenStream.queue_ofSource.trans (by decide +kernel)
  have hexecute : (Statement.store "t").execute db = .ok (db, ["Stored t.db"]) := by
    decide +kernel
  obtain ⟨u, hstore, hu, -⟩ := statement_of_reads (TokenStream.isLexical_of_none rfl) hq
    (.store "t") hexecute
  obtain ⟨e, he, hiff, -⟩ := reload_stored (TokenStream.isLexical_of_none rfl)
    (.load (.fresh _ _) hload) hq hstore (TokenStream.isLexical_of_none rfl)
    (by rw [hu]; rfl) hqv
  obtain rfl : (⟨"t", 0, pairTable⟩ : Catalog.Entry) = e := Except.ok.inj he
  exact hiff.2 (by decide +kernel)

/-- A command that can be carried out is, and the run goes on behind it. -/
theorem run_of_reads {s : Session} (hs : s.stream.IsLexical) {cmd : Command}
    {rest : List Arrival} (hq : s.stream.queue = arrivals (cmd.spell ++ [.terminator]) ++ rest)
    {st : Statement} (hreads : cmd.Reads s.database.catalog st) {db : Database}
    {lines : List String} (hst : st.execute s.database = .ok (db, lines))
    (hcontinues : st.continues = true) :
    ∃ t : Session, s.run = t.run ∧ t.database = db ∧
      t.printed = s.printed ++ lines.map .line ∧ t.stream.queue = rest ∧ t.stream.IsLexical := by
  obtain ⟨u, hrun, hrest⟩ := exists_read_of_spelled hs hq hreads
  have hturn := turn_of_done hrun hst
  rw [if_pos hcontinues] at hturn
  have hqueue : ((s.readTo u).carryOut db lines).stream.queue = rest := by
    rw [queue_carryOut, queue_readTo, hrest]
  refine ⟨_, run_of_going hturn, rfl, ?_, hqueue, fun k hk => hs k ?_⟩
  · rw [printed_carryOut, printed_readTo]
  · rw [hqueue] at hk
    rw [hq]
    exact List.mem_append_right _ hk

/-- The table of `pairTable`'s title with one value, and a carriage return within it. -/
def splitTable : Table :=
  { pairTable with
    rowSet := ArrivalSet.empty.insert ["x\ry"]
    width_eq := by decide +kernel }

/-- **A carriage return makes two rows of one.** No value holds a comma, the table is stored
and it is loaded again, and nothing is reported; but it is not the table that was stored. -/
theorem reload_splits :
    ∃ s, runText (.fresh .root .empty)
        "create table t (a); insert into t values ('x\ry'); store t;" = (s, .inputEnded) ∧
      s.printed = [.line "Stored t.db"] ∧
      s.database.catalog.toList.map (fun e => (e.1, e.2.titles, e.2.rows)) =
        [("t", ["a"], [["x\ry"]])] ∧
      ∃ db, (Database.fresh s.database.directory s.database.files).load "t" = .ok db ∧
        db.catalog.toList.map (fun e => (e.1, e.2.titles, e.2.rows)) =
          [("t", ["a"], [["x"], ["y"]])] := by
  let empty : Table := { splitTable with rowSet := .empty, width_eq := by simp }
  let created : Database := ⟨⟨[⟨"t", 0, empty⟩]⟩, .root, .empty⟩
  let inserted : Database := ⟨⟨[⟨"t", 0, splitTable⟩]⟩, .root, .empty⟩
  let stored : Database := { inserted with
    files := ⟨[(["t.db"], .file (Text.Utf8.encode "a\nx\ry\n".toList))], [], []⟩ }
  have hq : (start (.ofString "create table t (a); insert into t values ('x\ry'); store t;")
      (.fresh .root .empty)).stream.queue =
      arrivals ((Command.create "t" (.titles ⟨"a", []⟩)).spell ++ [.terminator]) ++
        (arrivals ((Command.insert "t" ⟨"'x\ry'", []⟩ true).spell ++ [.terminator]) ++
          (arrivals ((Command.store "t").spell ++ [.terminator]) ++ [])) :=
    TokenStream.queue_ofSource.trans (by decide +kernel)
  have hcreate : (Statement.create "t" (.columns empty)).execute (.fresh .root .empty) =
      .ok (created, []) := rfl
  have hlookup : created.catalog.lookup "t" = .ok ⟨"t", 0, empty⟩ := rfl
  have hinsert : (Statement.insert ⟨"t", 0, empty⟩ (["'x\ry'"].map Statement.literalValue)).execute
      created = .ok (inserted, []) := by
    decide +kernel
  have hstore : (Statement.store "t").execute inserted = .ok (stored, ["Stored t.db"]) := by
    decide +kernel
  -- Each statement is carried out where the one before has left the session.
  obtain ⟨s₁, hrun₁, hdb₁, hprinted₁, hq₁, hs₁⟩ := run_of_reads
    (TokenStream.isLexical_of_none rfl) hq (.create (.titles rfl)) hcreate rfl
  obtain ⟨s₂, hrun₂, hdb₂, hprinted₂, hq₂, hs₂⟩ := run_of_reads hs₁ hq₁
    (.insert (hdb₁ ▸ hlookup)) (hdb₁ ▸ hinsert) rfl
  obtain ⟨s₃, hrun₃, hdb₃, hprinted₃, hq₃, -⟩ := run_of_reads hs₂ hq₂ (.store "t")
    (hdb₂ ▸ hstore) rfl
  obtain ⟨x, hended⟩ := turn_of_nil hq₃
  have hdb : (s₃.readTo x).database = stored := hdb₃
  refine ⟨s₃.readTo x, ?_, ?_, ?_, ?_⟩
  · rw [runText, hrun₁, hrun₂, hrun₃, run_of_ended hended]
  · rw [printed_readTo, hprinted₃, hprinted₂, hprinted₁]
    rfl
  · rw [hdb]
    decide +kernel
  · rw [hdb]
    have hloaded : ((Database.fresh stored.directory stored.files).load "t").toOption.map (fun db =>
        db.catalog.toList.map fun e => (e.1, e.2.titles, e.2.rows)) =
        some [("t", ["a"], [["x"], ["y"]])] := by
      decide +kernel
    rcases hload : (Database.fresh stored.directory stored.files).load "t" with e | db <;>
      rw [hload] at hloaded
    · cases hloaded
    · exact ⟨db, rfl, Option.some.inj hloaded⟩

end Session

end FlatQuery
