import FlatQuery.Proofs.Resaving

/-!
# What a file is read as

A file that is not empty has titles and records, one below the other, and it has them in one
way only (`Table.HasRecords`). What it is read as is decided by them, in the order in which they
are looked at: the titles have to differ, every record has to be as wide as the titles, and the
rows are then the records, each where it comes first.

A file may have many faults, and the first is told. What comes first is a matter of how the list
of titles or of records splits: there is no fault in front of the title or record at fault. Both
lists are gone through in one recursion each, and the two lemmas about these
(`firstRepeat?_eq_some_iff`, `Table.addLines_eq_error_iff`) carry the split along.

The wording of an error tells which fault it is, numbers and titles included, since a number
ends at the space behind it (`Table.lineWidth_message_inj`). So what is said of errors can be
said of texts.
-/

set_option autoImplicit false

namespace FlatQuery

/-! ## 1. The wording of faults -/

/-- What stands in front of the first of some character can be told from what is behind it. -/
theorem Text.append_cons_inj {d : Char} {f g cs ds : List Char} (hf : d ∉ f) (hg : d ∉ g)
    (h : f ++ d :: cs = g ++ d :: ds) : f = g ∧ cs = ds := by
  have hsplit := congrArg (split d) h
  rw [split_append_cons hf, split_append_cons hg] at hsplit
  obtain ⟨hfield, hfields⟩ := List.cons.inj hsplit
  refine ⟨hfield, ?_⟩
  rw [← join_split d cs, ← join_split d ds, hfields]

theorem space_notMem_toString (n : Nat) : ' ' ∉ (toString n).toList := by
  intro h
  rw [Nat.toString_eq_repr, Nat.toList_repr] at h
  exact absurd (Nat.isDigit_of_mem_toDigits (by decide) (by decide) h) (by decide)

theorem toString_toList_inj {m n : Nat} (h : (toString m).toList = (toString n).toList) :
    m = n := by
  rw [Nat.toString_eq_repr, Nat.toString_eq_repr, Nat.toList_repr, Nat.toList_repr] at h
  rw [← @Nat.ofDigitChars_ten_toDigits m, h, Nat.ofDigitChars_ten_toDigits]

namespace Table

variable {name : String}

theorem lineWidth_message_toList (k m w : Nat) :
    (Error.lineWidth k name m w).message.toList =
      "line ".toList ++ ((toString k).toList ++ ' ' :: ("of ".toList ++ (name.toList ++
        (".db has ".toList ++ ((toString m).toList ++ ' ' :: ("values, expected ".toList ++
          (toString w).toList)))))) := by
  change ("line " ++ toString k ++ " of " ++ name ++ ".db has " ++ toString m ++
    " values, expected " ++ toString w).toList = _
  simp only [String.toList_append, List.append_assoc]
  rfl

/-- The numbers can be read off the error about a line. -/
theorem lineWidth_message_inj {k m w k' m' w' : Nat}
    (h : (Error.lineWidth k name m w).message = (Error.lineWidth k' name m' w').message) :
    k = k' ∧ m = m' ∧ w = w' := by
  have hchars := congrArg String.toList h
  rw [lineWidth_message_toList, lineWidth_message_toList] at hchars
  obtain ⟨hk, hrest⟩ := Text.append_cons_inj (space_notMem_toString k) (space_notMem_toString k')
    (List.append_cancel_left hchars)
  have hrest := List.append_cancel_left (List.append_cancel_left (List.append_cancel_left hrest))
  obtain ⟨hm, hw⟩ := Text.append_cons_inj (space_notMem_toString m) (space_notMem_toString m') hrest
  exact ⟨toString_toList_inj hk, toString_toList_inj hm,
    toString_toList_inj (List.append_cancel_left hw)⟩

theorem duplicateColumn_message_toList (t : String) :
    (Error.duplicateColumn t).message.toList = "duplicate column name: ".toList ++ t.toList := by
  change ("duplicate column name: " ++ t).toList = _
  rw [String.toList_append]

theorem missingHeader_message_toList (n : String) :
    (Error.missingHeader n).message.toList = "missing header in ".toList ++
      (n.toList ++ ".db".toList) := by
  change ("missing header in " ++ n ++ ".db").toList = _
  rw [String.toList_append, String.toList_append, List.append_assoc]

/-- The title can be read off the error about it. -/
theorem duplicateColumn_message_inj {t u : String}
    (h : (Error.duplicateColumn t).message = (Error.duplicateColumn u).message) : t = u := by
  have hchars := congrArg String.toList h
  rw [duplicateColumn_message_toList, duplicateColumn_message_toList] at hchars
  exact String.toList_inj.1 (List.append_cancel_left hchars)

/-- Which of the faults it is can be told from the first letter. -/
theorem fault_messages_ne (name t : String) (k m w : Nat) :
    (Error.missingHeader name).message ≠ (Error.duplicateColumn t).message ∧
      (Error.missingHeader name).message ≠ (Error.lineWidth k name m w).message ∧
      (Error.duplicateColumn t).message ≠ (Error.lineWidth k name m w).message := by
  have hm : (Error.missingHeader name).message.toList.head? = some 'm' := by
    rw [missingHeader_message_toList]
    rfl
  have hd : (Error.duplicateColumn t).message.toList.head? = some 'd' := by
    rw [duplicateColumn_message_toList]
    rfl
  have hl : (Error.lineWidth k name m w).message.toList.head? = some 'l' := by
    rw [lineWidth_message_toList]
    rfl
  refine ⟨fun h => ?_, fun h => ?_, fun h => ?_⟩
  · rw [h, hd] at hm
    cases hm
  · rw [h, hl] at hm
    cases hm
  · rw [h, hl] at hd
    cases hd

end Table

/-! ## 2. The first title that repeats -/

/-- Whether a title is the first of a list that equals an earlier one. -/
def FirstRepeat (titles : List String) (t : String) : Prop :=
  ∃ before after, titles = before ++ t :: after ∧ before.Nodup ∧ t ∈ before

/-- What is found is the first title that was seen before the list or stands in front of it. -/
theorem firstRepeat?_eq_some_iff {seen titles : List String} {t : String} :
    firstRepeat? seen titles = some t ↔ ∃ before u after, titles = before ++ u :: after ∧
      before.Nodup ∧ (∀ x ∈ before, x ∉ seen) ∧ (u ∈ seen ∨ u ∈ before) ∧ u = t := by
  induction titles generalizing seen with
  | nil => exact iff_of_false (fun h => by cases h) not_exists_split_nil
  | cons x titles ih =>
    rw [firstRepeat?, exists_split_cons]
    by_cases hx : x ∈ seen
    · rw [if_pos hx, Option.some_inj]
      constructor
      · intro h
        exact .inl ⟨List.nodup_nil, fun y hy => absurd hy List.not_mem_nil, .inl hx, h⟩
      · rintro (⟨-, -, -, h⟩ | ⟨before, u, after, -, -, hnew, -⟩)
        · exact h
        · exact absurd hx (hnew x List.mem_cons_self)
    · -- The title is seen from now on, so it must not be among those in front again.
      rw [if_neg hx, ih]
      constructor
      · rintro ⟨before, u, after, h, hnodup, hnew, hseen, hu⟩
        refine .inr ⟨before, u, after, h, ?_, ?_, ?_, hu⟩
        · exact List.nodup_cons.2 ⟨fun h => hnew x h List.mem_cons_self, hnodup⟩
        · refine List.forall_mem_cons.2 ⟨hx, fun y hy hmem => ?_⟩
          exact hnew y hy (List.mem_cons_of_mem x hmem)
        · rw [List.mem_cons] at hseen ⊢
          tauto
      · rintro (⟨-, -, hseen, -⟩ | ⟨before, u, after, h, hnodup, hnew, hseen, hu⟩)
        · exact absurd (hseen.resolve_right List.not_mem_nil) hx
        · obtain ⟨hnotin, hnodup⟩ := List.nodup_cons.1 hnodup
          refine ⟨before, u, after, h, hnodup, fun y hy hmem => ?_, ?_, hu⟩
          · rcases List.mem_cons.1 hmem with rfl | hmem
            · exact hnotin hy
            · exact hnew y (List.mem_cons_of_mem x hy) hmem
          · rw [List.mem_cons] at hseen ⊢
            tauto

theorem firstRepeat?_nil_eq_some_iff {titles : List String} {t : String} :
    firstRepeat? [] titles = some t ↔ FirstRepeat titles t := by
  rw [firstRepeat?_eq_some_iff, FirstRepeat]
  constructor
  · rintro ⟨before, u, after, h, hnodup, -, hseen, rfl⟩
    exact ⟨before, after, h, hnodup, hseen.resolve_left List.not_mem_nil⟩
  · rintro ⟨before, after, h, hnodup, ht⟩
    exact ⟨before, t, after, h, hnodup, fun x _ => List.not_mem_nil, .inr ht, rfl⟩

namespace Table

theorem withTitles_eq_error_iff {name : String} {titles : List String} {e : Error} :
    withTitles name titles = .error e ↔ ∃ t, FirstRepeat titles t ∧ e = .duplicateColumn t := by
  simp only [← firstRepeat?_nil_eq_some_iff]
  unfold withTitles
  split
  · rename_i t ht
    rw [ht]
    constructor
    · intro h
      exact ⟨t, rfl, (Except.error.inj h).symm⟩
    · rintro ⟨u, hu, rfl⟩
      rw [Option.some_inj.1 hu]
  · rename_i hnone
    refine iff_of_false (fun h => by cases h) ?_
    rintro ⟨t, ht, -⟩
    rw [hnone] at ht
    cases ht

/-! ## 3. Titles and records -/

/-- Whether a text is some titles and records, each on a line with commas between its values,
the last line ended or not. -/
structure HasRecords (content : String) (titles : List String) (records : List Row) : Prop where
  ne_empty : content ≠ ""
  ne_nil : ∀ values ∈ titles :: records, values ≠ []
  values : ∀ values ∈ titles :: records, ∀ v ∈ values, delimiter ∉ v.toList ∧ '\n' ∉ v.toList
  lineEnded_eq : Text.lineEnded content.toList = (titles :: records).flatMap encodeLine

variable {name content : String} {titles : List String} {records : List Row}

theorem fileLines_eq_nil_iff : fileLines content = [] ↔ content = "" := by
  constructor
  · intro h
    by_contra hne
    have hchars : content.toList ≠ [] := fun hnil => hne (String.toList_inj.1 hnil)
    rw [fileLines] at h
    split at h
    · rename_i hlast
      -- The text would be the one line that its last line end opens.
      have hone : Text.split '\n' content.toList = [[]] := by
        obtain ⟨ls, hls⟩ := List.getLast?_eq_some_iff.1 hlast
        rw [hls, List.dropLast_concat] at h
        rw [hls, h, List.nil_append]
      have hjoin := Text.join_split '\n' content.toList
      rw [hone] at hjoin
      exact hchars hjoin.symm
    · exact Text.split_ne_nil _ _ h
  · rintro rfl
    rfl

/-- **A text that is not empty has titles and records.** -/
theorem exists_hasRecords (h : content ≠ "") :
    ∃ titles records, HasRecords content titles records := by
  rcases hlines : fileLines content with _ | ⟨header, lines⟩
  · exact absurd (fileLines_eq_nil_iff.1 hlines) h
  · have hline : ∀ values ∈ decodeLine header :: lines.map decodeLine,
        ∃ l ∈ fileLines content, decodeLine l = values := by
      intro values hvalues
      rw [hlines]
      exact List.mem_map.1 hvalues
    refine ⟨decodeLine header, lines.map decodeLine, h, ?_, ?_, ?_⟩
    · intro values hvalues
      obtain ⟨l, -, rfl⟩ := hline values hvalues
      exact decodeLine_ne_nil l
    · intro values hvalues v hv
      obtain ⟨l, hl, rfl⟩ := hline values hvalues
      exact ⟨delimiter_notMem_decodeLine hv,
        fun hmem => (of_mem_fileLines hl).1 (mem_of_mem_decodeLine hv hmem)⟩
    · rw [(hasLines_of_fileLines hlines).lineEnded_eq, ← List.map_cons, List.flatMap_map]
      refine List.flatMap_congr fun l _ => ?_
      exact congrArg (· ++ ['\n']) (lineOf_decodeLine l).symm

/-- **They are what is found in the text**, and so it has no others. -/
theorem HasRecords.fileLines_eq (h : HasRecords content titles records) :
    ∃ header lines, fileLines content = header :: lines ∧ decodeLine header = titles ∧
      lines.map decodeLine = records := by
  have hread : ∀ values ∈ titles :: records, decodeLine (lineOf values) = values :=
    fun values hvalues => decodeLine_lineOf (h.ne_nil values hvalues)
      fun v hv => (h.values values hvalues v hv).1
  have hunbroken : ∀ l ∈ (titles :: records).map lineOf, '\n' ∉ l := by
    intro l hl
    obtain ⟨values, hvalues, rfl⟩ := List.mem_map.1 hl
    exact notMem_lineOf (by decide) fun v hv => (h.values values hvalues v hv).2
  rcases hlines : fileLines content with _ | ⟨header, lines⟩
  · exact absurd (fileLines_eq_nil_iff.1 hlines) h.ne_empty
  · have hfound := hasLines_of_fileLines hlines
    have hsame : header :: lines = (titles :: records).map lineOf := by
      refine Text.flatMap_line_inj hfound.unbroken hunbroken ?_
      rw [← hfound.lineEnded_eq, h.lineEnded_eq, List.flatMap_map]
      rfl
    obtain ⟨rfl, rfl⟩ := List.cons.inj hsame
    refine ⟨_, _, rfl, hread titles List.mem_cons_self, ?_⟩
    rw [List.map_map]
    exact (List.map_congr_left fun r hr => hread r (List.mem_cons_of_mem _ hr)).trans
      (List.map_id' records)

/-! ## 4. What comes of reading -/

/-- **What is told is the first title that repeats**, and where none does the first record that
is not as wide as the titles. -/
theorem HasRecords.decode_eq_error_iff (h : HasRecords content titles records) {e : Error} :
    decode name content = .error e ↔
      (∃ t, FirstRepeat titles t ∧ e = .duplicateColumn t) ∨
      (titles.Nodup ∧ ∃ before record after, records = before ++ record :: after ∧
        (∀ r ∈ before, r.length = titles.length) ∧ record.length ≠ titles.length ∧
        e = .lineWidth (2 + before.length) name record.length titles.length) := by
  obtain ⟨header, lines, hlines, rfl, rfl⟩ := h.fileLines_eq
  rw [decode, hlines, ← @withTitles_eq_error_iff name]
  dsimp only
  rcases ht : withTitles name (decodeLine header) with d | t
  · have hnodup : ¬(decodeLine header).Nodup := by
      intro hnodup
      obtain ⟨t, ht'⟩ := (@withTitles_isOk_iff name _).2 hnodup
      rw [ht] at ht'
      cases ht'
    rw [or_iff_left (fun hline => hnodup hline.1)]
    rfl
  · obtain ⟨-, htitles, -⟩ := withTitles_spec ht
    have hnodup : (decodeLine header).Nodup := htitles ▸ t.titles_nodup
    rw [or_iff_right (fun herror => by cases herror), and_iff_right hnodup, ← htitles]
    exact addLines_eq_error_iff

/-- A file without faults is read as its titles and its records, each where it comes first. -/
theorem HasRecords.exists_decode (h : HasRecords content titles records)
    (htitles : titles.Nodup) (hrecords : ∀ r ∈ records, r.length = titles.length) :
    ∃ t, decode name content = .ok t ∧ t.name = name ∧ t.titles = titles ∧
      t.rows = records.eraseDups := by
  rcases hdecode : decode name content with e | t
  · rcases h.decode_eq_error_iff.1 hdecode with ⟨t, ⟨before, after, rfl, -, ht⟩, -⟩ |
      ⟨-, before, record, after, rfl, -, hrecord, -⟩
    · rw [List.nodup_append] at htitles
      exact absurd rfl (htitles.2.2 t ht t List.mem_cons_self)
    · exact absurd (hrecords record (List.mem_append_right _ List.mem_cons_self)) hrecord
  · obtain ⟨header, lines, hlines, rfl, rfl⟩ := h.fileLines_eq
    obtain ⟨header', lines', hlines', hname, hheader, hrows⟩ := decode_spec hdecode
    obtain ⟨rfl, rfl⟩ := List.cons.inj (hlines.symm.trans hlines')
    exact ⟨t, rfl, hname, hheader, hrows⟩

/-- **What reading a file comes to.** It has no header exactly when it is empty. Every other has
titles and records, and then one of three things is the case. A title equals an earlier one, and
the first such is told. Or the titles differ, but some record is not as wide as they are many,
and the line of the first such is told. Or neither is the case: then the table is read that has
the titles and the records, each where it comes first. -/
theorem decode_outcome (name content : String) :
    ((∃ e, decode name content = .error e ∧ e.message = s!"missing header in {name}.db") ↔
      content = "") ∧
    (content ≠ "" → ∃ titles records, HasRecords content titles records) ∧
    ∀ titles records, HasRecords content titles records →
      (∀ t, (∃ e, decode name content = .error e ∧
          e.message = s!"duplicate column name: {t}") ↔ FirstRepeat titles t) ∧
      (∀ k m w, (∃ e, decode name content = .error e ∧
          e.message = s!"line {k} of {name}.db has {m} values, expected {w}") ↔
        titles.Nodup ∧ ∃ before record after, records = before ++ record :: after ∧
          (∀ r ∈ before, r.length = titles.length) ∧ record.length ≠ titles.length ∧
          k = 2 + before.length ∧ m = record.length ∧ w = titles.length) ∧
      ((∃ t, decode name content = .ok t ∧ t.name = name ∧ t.titles = titles ∧
          t.rows = records.eraseDups) ↔
        titles.Nodup ∧ ∀ r ∈ records, r.length = titles.length) := by
  refine ⟨⟨?_, ?_⟩, exists_hasRecords, fun titles records h => ⟨?_, ?_, ?_⟩⟩
  -- An error with this message is no other, because the messages of different errors differ.
  · rintro ⟨e, hdecode, hmessage⟩
    by_contra hne
    obtain ⟨titles, records, h⟩ := exists_hasRecords hne
    rcases h.decode_eq_error_iff.1 hdecode with
      ⟨t, -, rfl⟩ | ⟨-, before, record, after, -, -, -, rfl⟩
    · exact (fault_messages_ne name t 0 0 0).1 hmessage.symm
    · exact (fault_messages_ne name "" _ _ _).2.1 hmessage.symm
  · rintro rfl
    exact ⟨.missingHeader name, rfl, rfl⟩
  · intro t
    constructor
    · rintro ⟨e, hdecode, hmessage⟩
      -- Of the two errors that there can be it is the one about the titles.
      rcases h.decode_eq_error_iff.1 hdecode with ⟨u, hu, rfl⟩ |
        ⟨-, before, record, after, -, -, -, rfl⟩
      · rw [← duplicateColumn_message_inj hmessage]
        exact hu
      · exact absurd hmessage.symm (fault_messages_ne name t _ _ _).2.2
    · exact fun ht => ⟨_, h.decode_eq_error_iff.2 (.inl ⟨t, ht, rfl⟩), rfl⟩
  · intro k m w
    constructor
    · rintro ⟨e, hdecode, hmessage⟩
      -- It is the one about a line, whose numbers can be read off its message.
      rcases h.decode_eq_error_iff.1 hdecode with ⟨u, -, rfl⟩ |
        ⟨hnodup, before, record, after, hrecords, hbefore, hrecord, rfl⟩
      · exact absurd hmessage (fault_messages_ne name u k m w).2.2
      · obtain ⟨rfl, rfl, rfl⟩ := lineWidth_message_inj hmessage
        exact ⟨hnodup, before, record, after, hrecords, hbefore, hrecord, rfl, rfl, rfl⟩
    · rintro ⟨hnodup, before, record, after, hrecords, hbefore, hrecord, rfl, rfl, rfl⟩
      exact ⟨_, h.decode_eq_error_iff.2
        (.inr ⟨hnodup, before, record, after, hrecords, hbefore, hrecord, rfl⟩), rfl⟩
  · constructor
    · rintro ⟨t, hdecode, -, rfl, hrows⟩
      -- The records are the table's rows, which all have its width.
      refine ⟨t.titles_nodup, fun r hr => t.rows_width r ?_⟩
      rw [hrows, List.mem_eraseDups]
      exact hr
    · exact fun ⟨htitles, hrecords⟩ => h.exists_decode htitles hrecords

/-- Of a file with a repeated record, an empty line and a last line that is not ended, the empty
line is the one at fault. -/
theorem decode_outcome_blank :
    HasRecords "a,b\n1,2\n1,2\n\n3" ["a", "b"] [["1", "2"], ["1", "2"], [""], ["3"]] ∧
    ∃ e, decode "t" "a,b\n1,2\n1,2\n\n3" = .error e ∧
      e.message = "line 4 of t.db has 1 values, expected 2" := by
  have h : HasRecords "a,b\n1,2\n1,2\n\n3" ["a", "b"] [["1", "2"], ["1", "2"], [""], ["3"]] :=
    ⟨by decide, by decide, by decide +kernel, by decide +kernel⟩
  obtain ⟨-, hline, -⟩ := (decode_outcome "t" "a,b\n1,2\n1,2\n\n3").2.2 _ _ h
  exact ⟨h, (hline 4 1 2).2 ⟨by decide, [["1", "2"], ["1", "2"]], [""], [["3"]], rfl,
    by decide, by decide, rfl, rfl, rfl⟩⟩

end Table

end FlatQuery
