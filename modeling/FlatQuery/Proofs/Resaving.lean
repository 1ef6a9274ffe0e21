import FlatQuery.Proofs.Reload

/-!
# Loaded and stored again

A table that was read from a file is written as the lines of that file. A line is the values
between its commas with the commas put back (`Table.lineOf_decodeLine`), so different lines
are different rows and no two lines are one row. What reading drops are the rows that came
before, and these are the lines that came before (`Table.encode_eq`).

What else may change is the end. A file may leave its last line open, and a table is always
written with all its lines ended (`Text.lineEnded`). So a file comes back to the byte if it
ends its last line and repeats none, and what was written once is written again the same.
-/

set_option autoImplicit false

namespace FlatQuery

/-! ## 1. What is listed once -/

theorem nodup_eraseDups {α : Type} [BEq α] [LawfulBEq α] (xs : List α) : xs.eraseDups.Nodup := by
  induction hn : xs.length using Nat.strongRecOn generalizing xs with
  | _ n ih =>
    subst hn
    cases xs with
    | nil => exact List.nodup_nil
    | cons x xs =>
      rw [List.eraseDups_cons, List.nodup_cons]
      refine ⟨fun hmem => ?_, ih _ (Nat.lt_succ_of_le (List.length_filter_le _ _)) _ rfl⟩
      rw [List.mem_eraseDups, List.mem_filter] at hmem
      simp at hmem

theorem eraseDups_eq_self_iff {α : Type} [BEq α] [LawfulBEq α] {xs : List α} :
    xs.eraseDups = xs ↔ xs.Nodup :=
  ⟨fun h => h ▸ nodup_eraseDups xs, eraseDups_of_nodup⟩

/-- What is told apart is repeated where it was. -/
theorem eraseDups_map {α β : Type} [BEq α] [LawfulBEq α] [BEq β] [LawfulBEq β] {f : α → β}
    (hf : Function.Injective f) (xs : List α) : (xs.map f).eraseDups = xs.eraseDups.map f := by
  induction hn : xs.length using Nat.strongRecOn generalizing xs with
  | _ n ih =>
    subst hn
    cases xs with
    | nil => rfl
    | cons x xs =>
      have hsame : ((fun y => !y == f x) ∘ f) = fun y => !y == x := by
        funext y
        rw [Function.comp_apply, Bool.not_inj_iff, Bool.eq_iff_iff, beq_iff_eq, beq_iff_eq]
        exact hf.eq_iff
      have hlt := Nat.lt_succ_of_le (List.length_filter_le (fun y => !y == x) xs)
      rw [List.map_cons, List.eraseDups_cons, List.eraseDups_cons, List.filter_map, hsame,
        ih _ hlt _ rfl, List.map_cons]

namespace Text

/-! ## 2. The lines of a text -/

/-- A text with its last line ended. -/
def lineEnded (cs : List Char) : List Char :=
  if cs.getLast? = some '\n' then cs else cs ++ ['\n']

/-- Whether a text is a first line with others below it, the last of them ended or not. -/
structure HasLines (cs header : List Char) (lines : List (List Char)) : Prop where
  unbroken : ∀ l ∈ header :: lines, '\n' ∉ l
  lineEnded_eq : lineEnded cs = (header :: lines).flatMap fun l => l ++ ['\n']

theorem flatMap_line_eq {d : Char} {fs : List (List Char)} (h : fs ≠ []) :
    (fs.flatMap fun f => f ++ [d]) = join d fs ++ [d] := by
  fun_induction join d fs with
  | case1 => exact absurd rfl h
  | case2 f => exact List.flatMap_singleton ..
  | case3 f g fs ih =>
    rw [List.flatMap_cons, ih (List.cons_ne_nil g fs), List.append_assoc, List.append_assoc]
    rfl

/-- The pieces between line ends with a line end behind each are the text with one more. -/
theorem flatMap_split (cs : List Char) :
    ((split '\n' cs).flatMap fun l => l ++ ['\n']) = cs ++ ['\n'] := by
  rw [flatMap_line_eq (split_ne_nil '\n' cs), join_split]

theorem split_concat (cs : List Char) : split '\n' (cs ++ ['\n']) = split '\n' cs ++ [[]] := by
  rw [← flatMap_split, split_flatMap_line fun l hl => notMem_of_mem_split hl]

/-- The last piece is empty where the last line is ended or there is none. -/
theorem getLast?_split {cs : List Char} (h : cs ≠ []) :
    (split '\n' cs).getLast? = some [] ↔ cs.getLast? = some '\n' := by
  constructor
  · intro hlast
    obtain ⟨ls, hls⟩ := List.getLast?_eq_some_iff.1 hlast
    have hcs : (ls.flatMap fun l => l ++ ['\n']) = cs := by
      have hsplit := flatMap_split cs
      rw [hls, List.flatMap_append] at hsplit
      exact List.append_cancel_right hsplit
    rcases List.eq_nil_or_concat ls with rfl | ⟨ls, l, rfl⟩
    · exact absurd hcs.symm h
    · rw [← hcs, List.concat_eq_append, List.flatMap_append, List.flatMap_singleton,
        ← List.append_assoc, List.getLast?_concat]
  · intro hlast
    obtain ⟨ds, rfl⟩ := List.getLast?_eq_some_iff.1 hlast
    rw [split_concat, List.getLast?_concat]

theorem getLast?_flatMap_line {l : List Char} (ls : List (List Char)) :
    ((l :: ls).flatMap fun l => l ++ ['\n']).getLast? = some '\n' := by
  rw [flatMap_line_eq (List.cons_ne_nil l ls), List.getLast?_concat]

/-- Lines that are written one below the other can be told from what is written. -/
theorem flatMap_line_inj {ls ms : List (List Char)} (hls : ∀ l ∈ ls, '\n' ∉ l)
    (hms : ∀ l ∈ ms, '\n' ∉ l)
    (h : (ls.flatMap fun l => l ++ ['\n']) = ms.flatMap fun l => l ++ ['\n']) : ls = ms := by
  have hsplit := congrArg (split '\n') h
  rw [split_flatMap_line hls, split_flatMap_line hms] at hsplit
  exact List.append_cancel_right hsplit

end Text

/-! ## 3. Tables -/

namespace Table

variable {t : Table} {name content : String}

/-- **A line is its values with the commas put back.** -/
theorem lineOf_decodeLine (line : List Char) : lineOf (decodeLine line) = line := by
  have hvalues : (decodeLine line).map String.toList = Text.split delimiter line := by
    rw [decodeLine, List.map_map]
    exact List.map_id'' (fun _ => String.toList_ofList) _
  rw [lineOf_eq, hvalues, Text.join_split]

/-- So different lines have different values. -/
theorem decodeLine_injective : Function.Injective decodeLine :=
  Function.LeftInverse.injective lineOf_decodeLine

/-- The lines that are found in a file are those it has. -/
theorem hasLines_of_fileLines {header : List Char} {lines : List (List Char)}
    (h : fileLines content = header :: lines) :
    Text.HasLines content.toList header lines := by
  refine ⟨fun l hl => (of_mem_fileLines (h ▸ hl)).1, ?_⟩
  have hne : content.toList ≠ [] := by
    intro hnil
    rw [fileLines, hnil] at h
    cases h
  rw [← h, fileLines, Text.lineEnded]
  by_cases hlast : content.toList.getLast? = some '\n'
  · have hsplit := (Text.getLast?_split hne).2 hlast
    obtain ⟨ls, hls⟩ := List.getLast?_eq_some_iff.1 hsplit
    have hwhole := Text.flatMap_split content.toList
    rw [hls, List.flatMap_append] at hwhole
    rw [if_pos hlast, if_pos hsplit, hls, List.dropLast_concat]
    exact (List.append_cancel_right hwhole).symm
  · rw [if_neg hlast, if_neg (mt (Text.getLast?_split hne).1 hlast), Text.flatMap_split]

/-- **What was read is written as the lines it was read from**, each where it comes first. -/
theorem exists_hasLines (h : decode name content = .ok t) :
    ∃ header lines, Text.HasLines content.toList header lines ∧
      t.encode.toList = (header :: lines.eraseDups).flatMap fun l => l ++ ['\n'] := by
  obtain ⟨header, lines, hlines, -, htitles, hrows⟩ := decode_spec h
  refine ⟨header, lines, hasLines_of_fileLines hlines, ?_⟩
  have hdistinct : t.rows.map lineOf = lines.eraseDups := by
    rw [hrows, eraseDups_map decodeLine_injective, List.map_map]
    exact List.map_id'' lineOf_decodeLine _
  rw [toList_encode, htitles, lineOf_decodeLine, hdistinct]

/-- It is the file again where the last line is ended and none is repeated. -/
theorem eq_iff_of_hasLines {text : String} {header : List Char} {lines : List (List Char)}
    (h : Text.HasLines content.toList header lines)
    (htext : text.toList = (header :: lines.eraseDups).flatMap fun l => l ++ ['\n']) :
    text = content ↔ content.toList.getLast? = some '\n' ∧ lines.Nodup := by
  rw [← String.toList_inj, htext]
  constructor
  · intro heq
    have hlast : content.toList.getLast? = some '\n' := by
      rw [← heq, Text.getLast?_flatMap_line]
    have hwritten := h.lineEnded_eq
    rw [Text.lineEnded, if_pos hlast, ← heq] at hwritten
    have hunbroken : ∀ l ∈ header :: lines.eraseDups, '\n' ∉ l := by
      rw [List.forall_mem_cons]
      have hall := List.forall_mem_cons.1 h.unbroken
      exact ⟨hall.1, fun l hl => hall.2 l (List.mem_eraseDups.1 hl)⟩
    have hsame := Text.flatMap_line_inj hunbroken h.unbroken hwritten
    exact ⟨hlast, eraseDups_eq_self_iff.1 (List.cons.inj hsame).2⟩
  · rintro ⟨hlast, hnodup⟩
    rw [eraseDups_of_nodup hnodup, ← h.lineEnded_eq, Text.lineEnded, if_pos hlast]

/-- What was read and written is read and written again the same. -/
theorem encode_again (h : decode name content = .ok t) (other : String) :
    ∃ u, decode other t.encode = .ok u ∧ u.encode = t.encode := by
  obtain ⟨hkeeps, hcommas⟩ := keepsLines_of_decode h
  obtain ⟨u, hu, -, htitles, hrows⟩ := hkeeps.exists_decode other hcommas
  exact ⟨u, hu, by rw [encode, encode, htitles, hrows]⟩

end Table

/-! ## 4. Files -/

namespace Database

variable {db db' db'' : Database} {name : String}

/-- A table that was loaded is stored into the file it was loaded from. -/
theorem readFile_of_store (hload : db.load name = .ok db') (hstore : db'.store name = .ok db'') :
    ∃ t, db.readTable name = .ok t ∧
      db''.files.readFile (db.pathOf name) = .ok (Text.Utf8.encode t.encode.toList) := by
  obtain ⟨t, hread, rfl⟩ := load_spec hload
  obtain ⟨entry, hentry, hwrite⟩ := store_spec hstore
  rw [Catalog.lookup_put] at hentry
  rw [← Except.ok.inj hentry] at hwrite
  obtain ⟨-, files, hfiles, rfl⟩ := writeTable_spec hwrite
  exact ⟨t, hread, FileSystem.readFile_of_writeFile hfiles⟩

end Database

/-- **Reading and writing a file keeps its lines.** What is read of a text under any name is
written as that text with the first line kept, each line that repeats an earlier one below
the first left out, the others in their order, and every line ended. So what is written is
read and written again the same, and it is the text itself exactly when the text ends its last
line and repeats none. And to load a table and to store it again leaves in its file the lines
that were read there, each once and in their order. -/
theorem resave_keeps_lines :
    (∀ name content t, Table.decode name content = .ok t →
      (∃ header lines, Text.HasLines content.toList header lines ∧
        t.encode.toList = ((header :: lines.eraseDups).flatMap fun l => l ++ ['\n']) ∧
        (t.encode = content ↔ content.toList.getLast? = some '\n' ∧ lines.Nodup)) ∧
      ∀ other, ∃ u, Table.decode other t.encode = .ok u ∧ u.encode = t.encode) ∧
    ∀ (db db' db'' : Database) (name : String), db.load name = .ok db' →
      db'.store name = .ok db'' →
      ∃ bytes text header lines, db.files.readFile (db.pathOf name) = .ok bytes ∧
        Database.textOf bytes = .ok text ∧ Text.HasLines text.toList header lines ∧
        db''.files.readFile (db.pathOf name) =
          .ok (Text.Utf8.encode ((header :: lines.eraseDups).flatMap fun l => l ++ ['\n'])) := by
  refine ⟨fun name content t h => ⟨?_, Table.encode_again h⟩, ?_⟩
  · obtain ⟨header, lines, hlines, hencode⟩ := Table.exists_hasLines h
    exact ⟨header, lines, hlines, hencode, Table.eq_iff_of_hasLines hlines hencode⟩
  · intro db db' db'' name hload hstore
    obtain ⟨t, hread, hwritten⟩ := Database.readFile_of_store hload hstore
    obtain ⟨bytes, text, hbytes, htext, hdecode⟩ := Database.readTable_spec hread
    obtain ⟨header, lines, hlines, hencode⟩ := Table.exists_hasLines hdecode
    exact ⟨bytes, text, header, lines, hbytes, htext, hlines, hencode ▸ hwritten⟩

/-- Lines below the first that are empty, repeated, or the first again, and a last line that is
not ended. -/
theorem resave_keeps_lines_repeated :
    let content := "a\n\nb\na\n\nb"
    let db : Database :=
      .fresh .root ⟨[(["t.db"], .file (Text.Utf8.encode content.toList))], [], []⟩
    (∃ t, Table.decode "t" content = .ok t ∧ t.encode = "a\n\nb\na\n") ∧
    ∃ db' db'', db.load "t" = .ok db' ∧ db'.store "t" = .ok db'' ∧
      db''.files.readFile (db.pathOf "t") = .ok (Text.Utf8.encode "a\n\nb\na\n".toList) := by
  intro content db
  -- The lines of a text are determined by it, so they can be read off this one.
  have hwritten : ∀ header lines, Text.HasLines content.toList header lines →
      ((header :: lines.eraseDups).flatMap fun l => l ++ ['\n']) = "a\n\nb\na\n".toList := by
    intro header lines h
    have hlines := h.lineEnded_eq
    rw [show Text.lineEnded content.toList =
      [['a'], [], ['b'], ['a'], [], ['b']].flatMap fun l => l ++ ['\n'] by decide +kernel] at hlines
    obtain ⟨rfl, rfl⟩ := List.cons.inj (Text.flatMap_line_inj (by decide) h.unbroken hlines)
    decide +kernel
  obtain ⟨htable, hfile⟩ := resave_keeps_lines
  constructor
  · rcases ht : Table.decode "t" content with e | t
    · have hok : (Table.decode "t" content).isOk = true := by decide +kernel
      rw [ht] at hok
      cases hok
    · obtain ⟨⟨header, lines, hlines, hencode, -⟩, -⟩ := htable "t" content t ht
      exact ⟨t, rfl, String.toList_inj.1 (hencode.trans (hwritten header lines hlines))⟩
  · rcases hload : db.load "t" with e | db'
    · have hok : (db.load "t").isOk = true := by decide +kernel
      rw [hload] at hok
      cases hok
    · rcases hstore : db'.store "t" with e | db''
      · have hok : ((db.load "t").bind fun db' => db'.store "t").isOk = true := by
          decide +kernel
        rw [hload] at hok
        change (db'.store "t").isOk = true at hok
        rw [hstore] at hok
        cases hok
      · obtain ⟨bytes, text, header, lines, hbytes, htext, hlines, hread⟩ :=
          hfile db db' db'' "t" hload hstore
        -- What stands in the file is known, and so is its text.
        have hcontent : text = content := by
          have hdecoded : Database.textOf (Text.Utf8.encode content.toList) = .ok content := by
            decide +kernel
          have hfound : db.files.readFile (db.pathOf "t") =
              .ok (Text.Utf8.encode content.toList) := by
            decide +kernel
          rw [hfound] at hbytes
          rw [← Except.ok.inj hbytes, hdecoded] at htext
          exact (Except.ok.inj htext).symm
        rw [hcontent] at hlines
        rw [hwritten header lines hlines] at hread
        exact ⟨db', db'', rfl, hstore, hread⟩

end FlatQuery
