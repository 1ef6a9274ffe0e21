import FlatQuery.Proofs.Lines

/-!
# Which tables their files give back

A table is written as a line of titles and a line for each row, without any escape. Reading
finds the lines at the line ends and the values at the commas. So everything that is read is
free of both, and a table that has one of them in a title or a value, or has no column at all,
is not what its file is read as. Every other table is (`Table.decode_encode_iff`).

Of what a file does not give back a comma in a value is the one thing that is always noticed.
Its line has a field too many for each comma, and reading stops at the first line that is not as
wide as the titles (`Table.addLines_append_cons`). The lines before it were taken, so the error
says where the first row with a comma stands.
-/

set_option autoImplicit false

namespace FlatQuery

namespace Table

variable {t u : Table} {name : String}

/-! ## 1. The first line that is refused -/

/-- Reading takes lines as long as they are as wide as the titles, and reports the first that
is not. -/
theorem addLines_append_cons {file : String} {number : Nat} {before after : List (List Char)}
    {line : List Char} (hbefore : ∀ l ∈ before, (decodeLine l).length = t.titles.length)
    (hline : (decodeLine line).length ≠ t.titles.length) :
    t.addLines file number (before ++ line :: after) =
      .error (.lineWidth (number + before.length) file (decodeLine line).length
        t.titles.length) := by
  apply addLines_eq_error_iff.2
  refine ⟨before.map decodeLine, decodeLine line, after.map decodeLine, ?_, ?_, hline, ?_⟩
  · rw [List.map_append, List.map_cons]
  · exact List.forall_mem_map.2 hbefore
  · rw [List.length_map]

/-! ## 2. Lines that are kept -/

/-- Whether the lines of a table's file are those that were written: there are titles, they can
be told apart, and no title or value breaks its line. -/
structure KeepsLines (t : Table) : Prop where
  titles_ne_nil : t.titles ≠ []
  titles : ∀ title ∈ t.titles, delimiter ∉ title.toList ∧ '\n' ∉ title.toList
  values : ∀ row ∈ t.rows, ∀ v ∈ row, '\n' ∉ v.toList

/-- **What is read keeps its lines**, and its values can be told apart. -/
theorem keepsLines_of_decode {content : String} (h : decode name content = .ok t) :
    t.KeepsLines ∧ ∀ row ∈ t.rows, ∀ v ∈ row, delimiter ∉ v.toList := by
  obtain ⟨header, lines, hlines, -, htitles, hrows⟩ := decode_spec h
  have hfeed : ∀ line ∈ header :: lines, ∀ v ∈ decodeLine line, '\n' ∉ v.toList := by
    intro line hline v hv hc
    exact (of_mem_fileLines (hlines ▸ hline)).1 (mem_of_mem_decodeLine hv hc)
  have hrow : ∀ row ∈ t.rows, ∃ line ∈ lines, row = decodeLine line := by
    intro row hrow
    rw [hrows, List.mem_eraseDups] at hrow
    obtain ⟨line, hline, rfl⟩ := List.mem_map.1 hrow
    exact ⟨line, hline, rfl⟩
  refine ⟨⟨htitles ▸ decodeLine_ne_nil header, ?_, ?_⟩, ?_⟩
  · intro title htitle
    rw [htitles] at htitle
    exact ⟨delimiter_notMem_decodeLine htitle, hfeed header List.mem_cons_self title htitle⟩
  · intro row hr v hv
    obtain ⟨line, hline, rfl⟩ := hrow row hr
    exact hfeed line (List.mem_cons_of_mem _ hline) v hv
  · intro row hr v hv
    obtain ⟨line, hline, rfl⟩ := hrow row hr
    exact delimiter_notMem_decodeLine hv

namespace KeepsLines

theorem row_ne_nil (ht : t.KeepsLines) {row : Row} (hrow : row ∈ t.rows) : row ≠ [] := by
  intro hnil
  have hwidth := t.rows_width row hrow
  rw [hnil] at hwidth
  exact ht.titles_ne_nil (List.length_eq_zero_iff.1 hwidth.symm)

/-- The titles are found again, and what is left to read are the lines of the rows. -/
theorem decode_encode (ht : t.KeepsLines) (name : String) :
    ∃ u, withTitles name t.titles = .ok u ∧ u.titles = t.titles ∧
      decode name t.encode = u.addLines name 2 (t.rows.map lineOf) := by
  have hlines := fileLines_encode (fun title h => (ht.titles title h).2) ht.values
  have hheader : decodeLine (lineOf t.titles) = t.titles :=
    decodeLine_lineOf ht.titles_ne_nil fun title h => (ht.titles title h).1
  obtain ⟨u, hu⟩ : ∃ u, withTitles name t.titles = .ok u := withTitles_isOk_iff.2 t.titles_nodup
  obtain ⟨-, htitles, -⟩ := withTitles_spec hu
  refine ⟨u, hu, htitles, ?_⟩
  rw [decode, hlines]
  dsimp only
  rw [hheader, hu]
  rfl

/-- A line without commas in its values is as wide as the titles. -/
theorem length_decodeLine (ht : t.KeepsLines) {row : Row} (hrow : row ∈ t.rows)
    (h : ∀ v ∈ row, delimiter ∉ v.toList) :
    (decodeLine (lineOf row)).length = t.titles.length := by
  rw [decodeLine_lineOf (ht.row_ne_nil hrow) h]
  exact t.rows_width row hrow

/-- **A table is read as it was written**, where no value holds a comma. -/
theorem exists_decode (ht : t.KeepsLines) (name : String)
    (h : ∀ row ∈ t.rows, ∀ v ∈ row, delimiter ∉ v.toList) :
    ∃ u, decode name t.encode = .ok u ∧ u.name = name ∧ u.titles = t.titles ∧
      u.rows = t.rows := by
  obtain ⟨s, hs, htitles, hdecode⟩ := ht.decode_encode name
  obtain ⟨hname, -, hempty⟩ := withTitles_spec hs
  have hwidth : ∀ line ∈ t.rows.map lineOf, (decodeLine line).length = s.titles.length := by
    intro line hline
    obtain ⟨row, hrow, rfl⟩ := List.mem_map.1 hline
    rw [htitles]
    exact ht.length_decodeLine hrow (h row hrow)
  have hread : (t.rows.map lineOf).map decodeLine = t.rows := by
    rw [List.map_map]
    refine (List.map_congr_left fun row hrow => ?_).trans (List.map_id t.rows)
    exact decodeLine_lineOf (ht.row_ne_nil hrow) (h row hrow)
  obtain ⟨u, hu⟩ := addLines_isOk_iff.2 hwidth
  obtain ⟨huname, hutitles, hurows⟩ := addLines_spec hu
  refine ⟨u, hdecode.trans hu, huname.trans hname, hutitles.trans htitles, ?_⟩
  rw [hurows, hempty, List.nil_append, hread, eraseDups_of_nodup t.rows_nodup]

/-- The first row with a comma makes a line that is refused. -/
theorem decode_of_rows_eq (ht : t.KeepsLines) {before after : List Row} {row : Row}
    (hrows : t.rows = before ++ row :: after)
    (hbefore : ∀ r ∈ before, ∀ v ∈ r, delimiter ∉ v.toList)
    (hrow : ∃ v ∈ row, delimiter ∈ v.toList) :
    decode name t.encode = .error (.lineWidth (before.length + 2) name
      (t.width + (row.map fun v => v.toList.count delimiter).sum) t.width) := by
  obtain ⟨u, -, htitles, hdecode⟩ := ht.decode_encode name
  have hmem : ∀ r ∈ before ++ row :: after, r ∈ t.rows := fun r hr => hrows ▸ hr
  have hself := hmem row (List.mem_append_right _ List.mem_cons_self)
  have hgiven : (decodeLine (lineOf row)).length =
      t.width + (row.map fun v => v.toList.count delimiter).sum := by
    rw [length_decodeLine_lineOf (ht.row_ne_nil hself), t.rows_width row hself]
    rfl
  -- The delimiter in the row's value makes one more of its fields.
  have hwide : (decodeLine (lineOf row)).length ≠ u.titles.length := by
    obtain ⟨v, hv, hcomma⟩ := hrow
    have hlt := length_lt_decodeLine hv hcomma
    rw [t.rows_width row hself] at hlt
    rw [htitles]
    omega
  -- The rows before it are read as they were written.
  have hnarrow : ∀ line ∈ before.map lineOf, (decodeLine line).length = u.titles.length := by
    intro line hline
    obtain ⟨r, hr, rfl⟩ := List.mem_map.1 hline
    rw [htitles]
    exact ht.length_decodeLine (hmem r (List.mem_append_left _ hr)) (hbefore r hr)
  rw [hdecode, hrows, List.map_append, List.map_cons, addLines_append_cons hnarrow hwide, hgiven,
    htitles, List.length_map, Nat.add_comm]
  rfl

/-- **Where a comma is in a value the file is refused**, for the first row that has one. -/
theorem decode_of_delimiter (ht : t.KeepsLines) (name : String)
    (h : ∃ row ∈ t.rows, ∃ v ∈ row, delimiter ∈ v.toList) :
    ∃ before row after, t.rows = before ++ row :: after ∧
      (∀ r ∈ before, ∀ v ∈ r, delimiter ∉ v.toList) ∧ (∃ v ∈ row, delimiter ∈ v.toList) ∧
      decode name t.encode = .error (.lineWidth (before.length + 2) name
        (t.width + (row.map fun v => v.toList.count delimiter).sum) t.width) := by
  obtain ⟨row, hfind⟩ : ∃ row, t.rows.find? (fun r => decide (∃ v ∈ r, delimiter ∈ v.toList)) =
      some row := by
    rw [← Option.isSome_iff_exists, List.find?_isSome]
    obtain ⟨row, hrow, hv⟩ := h
    exact ⟨row, hrow, decide_eq_true hv⟩
  obtain ⟨hrow, before, after, hrows, hnone⟩ := List.find?_eq_some_iff_append.1 hfind
  have hbefore : ∀ r ∈ before, ∀ v ∈ r, delimiter ∉ v.toList := by
    intro r hr v hv hmem
    have hr := hnone r hr
    rw [Bool.not_eq_true', decide_eq_false_iff_not] at hr
    exact hr ⟨v, hv, hmem⟩
  have hrow := of_decide_eq_true hrow
  exact ⟨before, row, after, hrows, hbefore, hrow, ht.decode_of_rows_eq hrows hbefore hrow⟩

end KeepsLines

/-! ## 3. What comes back -/

/-- **A file gives its table back exactly when the table has a column and no title or value
holds a comma or a line end.** And where commas in values are all that is in the way, the file
is refused: the error is about the first row that has one, says which line that is and how many
values are found there, one more than there are columns for each comma. -/
theorem decode_encode_iff (t : Table) (name : String) :
    ((∃ u, decode name t.encode = .ok u ∧ u.name = name ∧ u.titles = t.titles ∧
        u.rows = t.rows) ↔
      t.titles ≠ [] ∧ (∀ title ∈ t.titles, delimiter ∉ title.toList ∧ '\n' ∉ title.toList) ∧
        ∀ row ∈ t.rows, ∀ v ∈ row, delimiter ∉ v.toList ∧ '\n' ∉ v.toList) ∧
    (t.titles ≠ [] →
      (∀ title ∈ t.titles, delimiter ∉ title.toList ∧ '\n' ∉ title.toList) →
      (∀ row ∈ t.rows, ∀ v ∈ row, '\n' ∉ v.toList) →
      (∃ row ∈ t.rows, ∃ v ∈ row, delimiter ∈ v.toList) →
      ∃ before row after, t.rows = before ++ row :: after ∧
        (∀ r ∈ before, ∀ v ∈ r, delimiter ∉ v.toList) ∧
        (∃ v ∈ row, delimiter ∈ v.toList) ∧
        ∃ e, decode name t.encode = .error e ∧
          e.message = s!"line {before.length + 2} of {name}.db has {t.width +
            (row.map fun v => v.toList.count delimiter).sum} values, expected {t.width}") := by
  refine ⟨⟨?_, ?_⟩, ?_⟩
  · rintro ⟨u, hu, -, htitles, hrows⟩
    obtain ⟨hlines, hcommas⟩ := keepsLines_of_decode hu
    refine ⟨htitles ▸ hlines.titles_ne_nil, htitles ▸ hlines.titles, ?_⟩
    intro row hrow v hv
    rw [← hrows] at hrow
    exact ⟨hcommas row hrow v hv, hlines.values row hrow v hv⟩
  · rintro ⟨hne, htitles, hvalues⟩
    have hlines : t.KeepsLines := ⟨hne, htitles, fun row hrow v hv => (hvalues row hrow v hv).2⟩
    exact hlines.exists_decode name fun row hrow v hv => (hvalues row hrow v hv).1
  · intro hne htitles hvalues hcomma
    have hlines : t.KeepsLines := ⟨hne, htitles, hvalues⟩
    obtain ⟨before, row, after, hrows, hbefore, hrow, hdecode⟩ :=
      hlines.decode_of_delimiter name hcomma
    exact ⟨before, row, after, hrows, hbefore, hrow, _, hdecode, rfl⟩

/-- A table whose second row has three commas in two values. -/
def commaTable : Table where
  name := "t"
  titles := ["a", "b"]
  rowSet := (ArrivalSet.empty.insert ["x", "y"]).insert ["1,,2", ",3"]
  titles_nodup := by decide
  width_eq := by decide +kernel

/-- The file of such a table is refused for its third line. -/
theorem decode_encode_iff_comma :
    ∃ e, decode "u" commaTable.encode = .error e ∧
      e.message = "line 3 of u.db has 5 values, expected 2" := by
  have hrows : commaTable.rows = [["x", "y"], ["1,,2", ",3"]] := by decide +kernel
  obtain ⟨before, row, after, hsplit, hbefore, hrow, e, he, hmessage⟩ :=
    (decode_encode_iff commaTable "u").2 (by decide) (by decide) (by decide +kernel)
      (by decide +kernel)
  rw [hrows] at hsplit
  rcases before with _ | ⟨first, _ | ⟨second, before⟩⟩
  · obtain ⟨rfl, -⟩ := List.cons.inj hsplit
    exact absurd hrow (by decide)
  · obtain ⟨-, htail⟩ := List.cons.inj hsplit
    obtain ⟨rfl, -⟩ := List.cons.inj htail
    rw [List.length_singleton] at hmessage
    exact ⟨e, he, hmessage.trans (by decide +kernel)⟩
  · have hlength := congrArg List.length hsplit
    simp only [List.length_cons, List.length_nil, List.length_append] at hlength
    omega

end Table

end FlatQuery
