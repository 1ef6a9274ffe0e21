import FlatQuery.Proofs.Files
import FlatQuery.Proofs.Sweeping

/-!
# Table files line by line

What is written of a table are lines without line ends in them, and what is read of a file
are its lines. Between the two stands `fileLines_of_lines`: lines that are written one below
the other are found again. So all that can get lost between writing and reading a table is
lost within a line, or by what reading does to line ends before it looks at lines.

Within a line nothing is escaped. A line has one value for each that was joined and one more
for each comma in them (`length_decodeLine_lineOf`). Either no value has a comma and they are
read back as they were (`decodeLine_lineOf`), or the line is too wide.
-/

set_option autoImplicit false

namespace FlatQuery

/-! ## 1. Where a list splits -/

section Split

variable {α : Type} {P : List α → α → Prop}

/-- The empty list has no element to be split at. -/
theorem not_exists_split_nil : ¬∃ before y after, [] = before ++ y :: after ∧ P before y := by
  rintro ⟨before, y, after, h, -⟩
  exact List.append_ne_nil_of_right_ne_nil before (List.cons_ne_nil y after) h.symm

/-- A list is split at its first element or further on. -/
theorem exists_split_cons {x : α} {xs : List α} :
    (∃ before y after, x :: xs = before ++ y :: after ∧ P before y) ↔
      P [] x ∨ ∃ before y after, xs = before ++ y :: after ∧ P (x :: before) y := by
  constructor
  · rintro ⟨_ | ⟨z, before⟩, y, after, h, hP⟩
    · obtain ⟨rfl, -⟩ := List.cons.inj h
      exact .inl hP
    · obtain ⟨rfl, rfl⟩ := List.cons.inj h
      exact .inr ⟨before, y, after, rfl, hP⟩
  · rintro (hP | ⟨before, y, after, rfl, hP⟩)
    · exact ⟨[], x, xs, rfl, hP⟩
    · exact ⟨x :: before, y, after, rfl, hP⟩

end Split

namespace Text

/-! ## 2. Characters of fields -/

theorem mem_join {d c : Char} {fs : List (List Char)} (h : c ∈ join d fs) :
    c = d ∨ ∃ f ∈ fs, c ∈ f := by
  fun_induction join d fs with
  | case1 => exact absurd h List.not_mem_nil
  | case2 f => exact .inr ⟨f, List.mem_singleton_self f, h⟩
  | case3 f g fs ih =>
    rcases List.mem_append.1 h with h | h
    · exact .inr ⟨f, List.mem_cons_self .., h⟩
    · rcases List.mem_cons.1 h with rfl | h
      · exact .inl rfl
      · exact (ih h).imp id fun ⟨x, hx, hc⟩ => ⟨x, List.mem_cons_of_mem _ hx, hc⟩

theorem mem_join_of_mem {d c : Char} {fs : List (List Char)} {f : List Char} (hf : f ∈ fs)
    (hc : c ∈ f) : c ∈ join d fs := by
  fun_induction join d fs with
  | case1 => exact absurd hf List.not_mem_nil
  | case2 g => exact List.mem_singleton.1 hf ▸ hc
  | case3 g g' fs ih =>
    rcases List.mem_cons.1 hf with rfl | hf
    · exact List.mem_append_left _ hc
    · exact List.mem_append_right _ (List.mem_cons_of_mem _ (ih hf))

/-- The characters of a field are the text's. -/
theorem mem_of_mem_split {d c : Char} {cs f : List Char} (hf : f ∈ split d cs) (hc : c ∈ f) :
    c ∈ cs := by
  have h := mem_join_of_mem (d := d) hf hc
  rwa [join_split] at h

/-- Each field adds its own delimiters, and each but the first the one before it. -/
theorem count_join {d : Char} {fs : List (List Char)} (h : fs ≠ []) :
    (join d fs).count d + 1 = fs.length + (fs.map (·.count d)).sum := by
  fun_induction join d fs with
  | case1 => exact absurd rfl h
  | case2 f =>
    simp only [List.length_singleton, List.map_cons, List.map_nil, List.sum_cons, List.sum_nil]
    omega
  | case3 f g fs ih =>
    have ih := ih (List.cons_ne_nil g fs)
    rw [List.map_cons, List.sum_cons, List.length_cons, List.count_append, List.count_cons_self]
    omega

/-- No carriage return is left where line ends are made one. -/
theorem notMem_unifyLineEnds (cs : List Char) : '\r' ∉ unifyLineEnds cs := by
  fun_induction unifyLineEnds cs with
  | case1 => exact List.not_mem_nil
  | case2 cs ih => exact List.not_mem_cons_of_ne_of_not_mem (by decide) ih
  | case3 c cs _ ih =>
    refine List.not_mem_cons_of_ne_of_not_mem ?_ ih
    split
    · decide
    · rename_i hc
      exact Ne.symm hc

/-- Lines that are written one below the other are found again, and nothing behind them. -/
theorem split_flatMap_line {ls : List (List Char)} (h : ∀ l ∈ ls, '\n' ∉ l) :
    split '\n' (ls.flatMap fun l => l ++ ['\n']) = ls ++ [[]] := by
  induction ls with
  | nil => rfl
  | cons l ls ih =>
    rw [List.flatMap_cons, List.append_assoc, List.singleton_append,
      split_append_cons (h l (List.mem_cons_self ..)),
      ih fun x hx => h x (List.mem_cons_of_mem _ hx)]
    rfl

end Text

namespace Table

/-! ## 3. Lines -/

/-- The values of a line with commas between them. -/
def lineOf (values : List String) : List Char := (Text.joined delimiter values).toList

theorem lineOf_eq (values : List String) :
    lineOf values = Text.join delimiter (values.map String.toList) := by
  rw [lineOf, Text.joined, String.toList_ofList]

/-- A line breaks nowhere where none of its values does. -/
theorem notMem_lineOf {c : Char} (hc : c ≠ delimiter) {values : List String}
    (h : ∀ v ∈ values, c ∉ v.toList) : c ∉ lineOf values := by
  intro hmem
  rw [lineOf_eq] at hmem
  rcases Text.mem_join hmem with rfl | ⟨f, hf, hcf⟩
  · exact hc rfl
  · obtain ⟨v, hv, rfl⟩ := List.mem_map.1 hf
    exact h v hv hcf

/-- **Values without commas are read back as they were.** -/
theorem decodeLine_lineOf {values : List String} (hne : values ≠ [])
    (h : ∀ v ∈ values, delimiter ∉ v.toList) : decodeLine (lineOf values) = values := by
  rw [decodeLine, lineOf_eq, Text.split_join (fun hnil => hne (List.map_eq_nil_iff.1 hnil)),
    List.map_map]
  · exact List.map_id'' (fun v => String.ofList_toList) values
  · intro f hf
    obtain ⟨v, hv, rfl⟩ := List.mem_map.1 hf
    exact h v hv

/-- A line is as wide as its values are many, and wider by one for each comma in them. -/
theorem length_decodeLine_lineOf {values : List String} (hne : values ≠ []) :
    (decodeLine (lineOf values)).length =
      values.length + (values.map fun v => v.toList.count delimiter).sum := by
  have hfields : values.map String.toList ≠ [] := fun hnil => hne (List.map_eq_nil_iff.1 hnil)
  rw [decodeLine, List.length_map, Text.length_split, lineOf_eq, Text.count_join hfields,
    List.length_map, List.map_map]
  rfl

theorem length_lt_decodeLine {values : List String} {v : String} (hv : v ∈ values)
    (h : delimiter ∈ v.toList) : values.length < (decodeLine (lineOf values)).length := by
  have hcount : 0 < v.toList.count delimiter := List.count_pos_iff.2 h
  have hsum := List.single_le_sum (fun _ _ => Nat.zero_le _) _
    (List.mem_map_of_mem (f := fun v : String => v.toList.count delimiter) hv)
  rw [length_decodeLine_lineOf (List.ne_nil_of_mem hv)]
  omega

theorem decodeLine_ne_nil (line : List Char) : decodeLine line ≠ [] :=
  fun h => Text.split_ne_nil delimiter line (List.map_eq_nil_iff.1 h)

theorem delimiter_notMem_decodeLine {line : List Char} {v : String} (h : v ∈ decodeLine line) :
    delimiter ∉ v.toList := by
  obtain ⟨f, hf, rfl⟩ := List.mem_map.1 h
  rw [String.toList_ofList]
  exact Text.notMem_of_mem_split hf

/-- The characters of a value are the line's. -/
theorem mem_of_mem_decodeLine {line : List Char} {v : String} (h : v ∈ decodeLine line)
    {c : Char} (hc : c ∈ v.toList) : c ∈ line := by
  obtain ⟨f, hf, rfl⟩ := List.mem_map.1 h
  rw [String.toList_ofList] at hc
  exact Text.mem_of_mem_split hf hc

/-! ## 4. Files -/

/-- Lines that are written one below the other are the lines of the file. -/
theorem fileLines_of_lines {content : String} {ls : List (List Char)}
    (hcontent : content.toList = ls.flatMap fun l => l ++ ['\n']) (h : ∀ l ∈ ls, '\n' ∉ l) :
    fileLines content = ls := by
  rw [fileLines, hcontent, Text.split_flatMap_line h, if_pos List.getLast?_concat,
    List.dropLast_concat]

/-- No line of a file breaks, and its characters are the file's. -/
theorem of_mem_fileLines {content : String} {line : List Char} (h : line ∈ fileLines content) :
    '\n' ∉ line ∧ ∀ c ∈ line, c ∈ content.toList := by
  have hsplit : line ∈ Text.split '\n' content.toList := by
    unfold fileLines at h
    dsimp only at h
    split at h
    · exact List.dropLast_subset _ h
    · exact h
  exact ⟨Text.notMem_of_mem_split hsplit, fun c hc => Text.mem_of_mem_split hsplit hc⟩

theorem toList_encode (t : Table) :
    t.encode.toList = (lineOf t.titles :: t.rows.map lineOf).flatMap fun l => l ++ ['\n'] := by
  rw [encode, String.toList_ofList, List.flatMap_cons, List.flatMap_map]
  rfl

/-- **A table is written as its titles and its rows, a line each.** -/
theorem fileLines_encode {t : Table} (htitles : ∀ title ∈ t.titles, '\n' ∉ title.toList)
    (hrows : ∀ row ∈ t.rows, ∀ v ∈ row, '\n' ∉ v.toList) :
    fileLines t.encode = lineOf t.titles :: t.rows.map lineOf := by
  apply fileLines_of_lines t.toList_encode
  rw [List.forall_mem_cons]
  refine ⟨notMem_lineOf (by decide) htitles, fun l hl => ?_⟩
  obtain ⟨row, hrow, rfl⟩ := List.mem_map.1 hl
  exact notMem_lineOf (by decide) (hrows row hrow)

/-! ## 5. Tables of lines -/

/-- The rows of added lines come behind those that are there, each where it comes first. -/
theorem addLines_spec {t u : Table} {file : String} {number : Nat} {lines : List (List Char)}
    (h : t.addLines file number lines = .ok u) :
    u.name = t.name ∧ u.titles = t.titles ∧
      u.rows = (t.rows ++ lines.map decodeLine).eraseDups := by
  induction lines generalizing t number with
  | nil =>
    injection h with h
    rw [← h, List.map_nil, List.append_nil, eraseDups_of_nodup t.rows_nodup]
    exact ⟨rfl, rfl, rfl⟩
  | cons line lines ih =>
    rw [addLines] at h
    split at h
    · obtain ⟨hname, htitles, hrows⟩ := ih h
      rw [insert_rows, eraseDups_append_cons] at hrows
      exact ⟨hname, htitles, hrows⟩
    · simp at h

/-- What is told of is the first record that has not the width of the titles. -/
theorem addLines_eq_error_iff {t : Table} {file : String} {number : Nat}
    {lines : List (List Char)} {e : Error} :
    t.addLines file number lines = .error e ↔ ∃ before record after,
      lines.map decodeLine = before ++ record :: after ∧
      (∀ r ∈ before, r.length = t.titles.length) ∧ record.length ≠ t.titles.length ∧
      e = .lineWidth (number + before.length) file record.length t.titles.length := by
  induction lines generalizing t number with
  | nil => exact iff_of_false (fun h => by cases h) not_exists_split_nil
  | cons line lines ih =>
    rw [addLines, List.map_cons, exists_split_cons]
    by_cases hw : (decodeLine line).length = t.titles.length
    · -- One line is taken, and those behind it are numbered from the next one on.
      have hnumber : ∀ before : List Row,
          number + (decodeLine line :: before).length = number + 1 + before.length := by
        intro before
        rw [List.length_cons, Nat.add_right_comm, Nat.add_assoc]
      rw [dif_pos hw, ih, insert_titles]
      constructor
      · rintro ⟨before, record, after, h, hbefore, hrecord, rfl⟩
        refine .inr ⟨before, record, after, h, List.forall_mem_cons.2 ⟨hw, hbefore⟩, hrecord, ?_⟩
        rw [hnumber]
      · rintro (⟨-, hrecord, -⟩ | ⟨before, record, after, h, hbefore, hrecord, rfl⟩)
        · exact absurd hw hrecord
        · refine ⟨before, record, after, h, (List.forall_mem_cons.1 hbefore).2, hrecord, ?_⟩
          rw [hnumber]
    -- The first line is the one of the wrong width.
    · rw [dif_neg hw]
      constructor
      · intro h
        exact .inl ⟨fun r hr => absurd hr List.not_mem_nil, hw, (Except.error.inj h).symm⟩
      · rintro (⟨-, -, rfl⟩ | ⟨before, record, after, -, hbefore, -⟩)
        · rfl
        · exact absurd (hbefore _ List.mem_cons_self) hw

/-- **What is read of a file.** The first line gives the titles, and the others give the rows
in their order, each where it comes first. -/
theorem decode_spec {name content : String} {t : Table} (h : decode name content = .ok t) :
    ∃ header lines, fileLines content = header :: lines ∧ t.name = name ∧
      t.titles = decodeLine header ∧ t.rows = (lines.map decodeLine).eraseDups := by
  unfold decode at h
  rcases hlines : fileLines content with _ | ⟨header, lines⟩ <;> rw [hlines] at h
  · simp at h
  · dsimp only at h
    rcases ht : withTitles name (decodeLine header) with e | u <;> rw [ht] at h
    · simp [bind, Except.bind] at h
    · obtain ⟨hname, htitles, hrows⟩ := withTitles_spec ht
      obtain ⟨hname', htitles', hrows'⟩ := addLines_spec h
      rw [hrows, List.nil_append] at hrows'
      exact ⟨header, lines, rfl, hname'.trans hname, htitles'.trans htitles, hrows'⟩

end Table

/-! ## 6. Files of a database -/

namespace Database

variable {db db' : Database} {name : String} {t : Table}

/-- A name without null characters puts none into the path of its file, and no directory has
one in its own. -/
theorem holdsNull_pathOf (hname : '\x00' ∉ name.toList) : (db.pathOf name).holdsNull = false := by
  have hchars : '\x00' ∉ (name ++ ".db").toList := by
    rw [String.toList_append, List.mem_append, not_or]
    exact ⟨hname, by decide⟩
  have hnames : (Path.ofString (name ++ ".db")).holdsNull = false := by
    rw [Path.holdsNull, List.any_eq_false]
    intro n hn hnull
    obtain ⟨f, hf, rfl⟩ := List.mem_map.1 (List.mem_filter.1 hn).1
    rw [String.toList_ofList, List.contains_iff_mem] at hnull
    exact hchars (Text.mem_of_mem_split hf hnull)
  unfold pathOf Path.join
  dsimp only
  split
  · exact hnames
  · have hdirectory := db.directory.holdsNull_path
    rw [Path.holdsNull] at hnames hdirectory ⊢
    rw [List.any_append, hnames, hdirectory, Bool.or_false]

/-- What is read as a file's text has no line ends but line feeds. -/
theorem notMem_of_textOf {content : Bytes} {text : String} (h : textOf content = .ok text) :
    '\r' ∉ text.toList := by
  unfold textOf at h
  split at h
  · injection h with h
    rw [← h, String.toList_ofList]
    exact Text.notMem_unifyLineEnds _
  · cases h

theorem readTable_spec (h : db.readTable name = .ok t) :
    ∃ content text, db.files.readFile (db.pathOf name) = .ok content ∧
      textOf content = .ok text ∧ Table.decode name text = .ok t := by
  unfold readTable at h
  split at h
  · cases h
  · split at h
    · cases h
    · cases h
    · rename_i content hcontent
      rcases htext : textOf content with f | text <;> rw [htext] at h
      · cases h
      · exact ⟨content, text, hcontent, htext, h⟩

theorem load_spec (h : db.load name = .ok db') :
    ∃ t, db.readTable name = .ok t ∧ db' = { db with catalog := db.catalog.put name t } := by
  unfold load at h
  split at h
  · cases h
  · rename_i t ht
    injection h with h
    exact ⟨t, ht, h.symm⟩

theorem writeTable_spec (h : db.writeTable t name = .ok db') :
    (db.pathOf name).holdsNull = false ∧
      ∃ files, db.files.writeFile (db.pathOf name) (Text.Utf8.encode t.encode.toList) =
        .ok files ∧ db' = { db with files } := by
  unfold writeTable at h
  split at h
  · cases h
  · rename_i hnull
    split at h
    · cases h
    · rename_i files hfiles
      injection h with h
      exact ⟨Bool.eq_false_iff.2 hnull, files, hfiles, h.symm⟩

theorem store_spec (h : db.store name = .ok db') :
    ∃ entry, db.catalog.lookup name = .ok entry ∧ db.writeTable entry.table name = .ok db' := by
  unfold store at h
  split at h
  · cases h
  · rename_i entry hentry
    exact ⟨entry, hentry, h⟩

end Database

end FlatQuery
