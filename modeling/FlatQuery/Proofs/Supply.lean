import FlatQuery.Proofs.Requests
import FlatQuery.Text.Utf8.Blocks

/-!
# Where a text comes from

The same text can be at hand as characters, stand in a file as bytes, or be typed. A file is
read in blocks, and a block may break off a character; what is typed is ended by a line feed
even if the text is not. Neither shows. The bytes of a text without carriage returns give the
lines of the text one after the other (`Source.gives_ofBytes`), and so does typing it but for
the line feed behind the last line (`Source.gives_typed`).

That line feed is the one thing that can be ahead on one side and not on the other. No lexeme
reaches into it (`Lexeme.front_ending`), so it is passed over in silence when the line holds
nothing else, and what is come upon before is the same (`Scanner.next_trails`).

`TokenStream.simulation_besides` puts this together: two streams whose sources differ in these
ways give the same, ask for as many lines, and with the same prompts.
-/

set_option autoImplicit false

namespace FlatQuery

/-! ## 1. The lines of a source -/

/-- A first line that is ended is that whatever follows. -/
theorem Text.takeLine_append_of_ended {cs : List Char}
    (h : (takeLine cs).1.getLast? = some '\n') (ds : List Char) :
    takeLine (cs ++ ds) = ((takeLine cs).1, (takeLine cs).2 ++ ds) := by
  induction cs with
  | nil => cases h
  | cons c cs ih =>
    rw [List.cons_append]
    by_cases hc : c = '\n'
    · rw [takeLine, takeLine, if_pos hc, if_pos hc]
    · rw [takeLine, if_neg hc] at h
      rw [takeLine, takeLine, if_neg hc, if_neg hc]
      have hne : (takeLine cs).1 ≠ [] := by
        intro hnil
        dsimp only at h
        rw [hnil, List.getLast?_singleton, Option.some.injEq] at h
        exact hc h
      dsimp only at h
      rw [List.getLast?_cons_of_ne_nil hne] at h
      rw [ih h]

/-- Only the empty text has no bytes. -/
theorem Text.Utf8.encode_eq_nil {cs : List Char} (h : encode cs = []) : cs = [] := by
  have hdecode := decode_encode cs
  rw [h] at hdecode
  injection hdecode with hnil
  exact hnil.symm

/-- The lines that a source gives until it comes to its end. -/
inductive Source.Gives : Source → List (List Char) → Prop where
  | ended {s : Source} : s.readLine = .endOfInput → Gives s []
  | line {s t : Source} {text : List Char} {more : List (List Char)} :
      s.readLine = .line text t → Gives t more → Gives s (text :: more)

namespace Source

open Text.Utf8 (encode BreaksOff)

/-- Whether a source is at its end if a text is empty, and else gives the first line of the
text and is then related to the others. -/
def Reads (R : Source → List Char → Prop) (s : Source) (cs : List Char) : Prop :=
  (cs = [] ∧ s.readLine = .endOfInput) ∨
    (cs ≠ [] ∧ ∃ t, s.readLine = .line (Text.takeLine cs).1 t ∧ R t (Text.takeLine cs).2)

/-- **Line by line a source gives a text** that it reads the first line of, at every line. -/
theorem gives_of_reads {R : Source → List Char → Prop} (hR : ∀ s cs, R s cs → Reads R s cs)
    {s : Source} {cs : List Char} (h : R s cs) : s.Gives (Text.lines cs) := by
  -- By the length of the text: no line is empty.
  induction hm : cs.length using Nat.strongRecOn generalizing s cs with
  | _ m ih =>
    rcases hR s cs h with ⟨rfl, hread⟩ | ⟨hcs, t, hread, ht⟩
    · exact .ended hread
    · rw [Text.lines_of_ne_nil hcs]
      have hlength := Text.takeLine_length cs
      have hpos := List.length_pos_iff.2 (mt Text.takeLine_fst_eq_nil.1 hcs)
      exact .line hread (ih _ (by omega) ht rfl)

/-- Characters at hand give the lines of the text that they are. -/
theorem gives_ready (cs : List Char) (position : Nat) :
    Gives { ready := cs, position } (Text.lines cs) := by
  apply gives_of_reads (R := fun s cs => s = { ready := cs, position }) _ rfl
  rintro s cs rfl
  have hread := readLine_ready cs position
  by_cases hcs : cs = []
  · rw [if_pos hcs] at hread
    exact .inl ⟨hcs, hread⟩
  · rw [if_neg hcs] at hread
    exact .inr ⟨hcs, _, hread, rfl⟩

/-! ## 2. Bytes -/

/-- Whether a source holds what is left of a text: first the characters at hand, then the
others in bytes, of which those of a character that a block has broken off come first. -/
structure Holds (s : Source) (cs : List Char) : Prop where
  fault_eq : s.fault? = none
  held_eq : s.held = false
  notMem : '\r' ∉ cs
  text_eq : ∃ behind, cs = s.ready ++ behind ∧ s.carried ++ s.unread = encode behind ∧
    (s.carried = [] ∨ ∃ c tail, behind = c :: tail ∧ BreaksOff c s.carried)

theorem holds_ofBytes {cs : List Char} (h : '\r' ∉ cs) : (ofBytes (encode cs)).Holds cs :=
  ⟨rfl, rfl, h, cs, rfl, rfl, .inl rfl⟩

/-- Of a text without carriage returns none is held back. -/
theorem unifyBlock_of_notMem {cs : List Char} (h : '\r' ∉ cs) :
    Text.unifyBlock false cs = (cs, false) := by
  have hlast : cs.getLast? ≠ some '\r' := fun hlast => h (List.mem_of_getLast? hlast)
  simp only [Text.unifyBlock, Bool.false_and, Bool.false_eq_true, if_false, if_neg hlast,
    Text.unifyLineEnds_of_notMem h]

/-- Behind the characters that were made of the first bytes of a text, the bytes of the others
are left. -/
theorem append_eq_encode {bs kept more : Bytes} {before after : List Char}
    (hbs : bs = encode before ++ kept) (h : bs ++ more = encode (before ++ after)) :
    kept ++ more = encode after := by
  have hencode : encode (before ++ after) = encode before ++ encode after :=
    List.flatMap_append
  rw [hbs, hencode, List.append_assoc] at h
  exact List.append_cancel_left h

/-- A block makes characters of bytes, and takes none of the text away. -/
theorem Holds.readBlock {s : Source} {cs : List Char} (h : s.Holds cs) :
    ∃ t, s.readBlock = .ok t ∧ t.Holds cs := by
  obtain ⟨hfault, hheld, hnotMem, behind, rfl, hbytes, -⟩ := h
  -- The bytes kept back and those of the block are the beginning of all that are left.
  have hsplit : s.carried ++ s.unread.take blockSize ++ s.unread.drop blockSize =
      encode behind := by
    rw [List.append_assoc, List.take_append_drop, hbytes]
  obtain ⟨before, after, kept, rfl, hblock, hcut, hdecode⟩ :=
    Text.Utf8.decodeBlock_of_prefix ⟨_, hsplit⟩
  have hunify : Text.unifyBlock s.held before = (before, false) := by
    rw [hheld]
    apply unifyBlock_of_notMem
    intro hmem
    exact hnotMem (List.mem_append_right _ (List.mem_append_left _ hmem))
  have hrest := append_eq_encode hblock hsplit
  have hread : s.readBlock = .ok {
      ready := s.ready ++ before
      carried := kept
      position := s.position + (s.unread.take blockSize).length
      unread := s.unread.drop blockSize } := by
    unfold Source.readBlock
    dsimp only
    rw [hdecode]
    dsimp only
    rw [hunify, hfault]
  exact ⟨_, hread, rfl, rfl, hnotMem, after, (List.append_assoc _ _ _).symm, hrest, hcut⟩

/-- Where no bytes are unread none are kept back, and the characters at hand are all of the
text. -/
theorem Holds.eq_ready {s : Source} {cs : List Char} (h : s.Holds cs) (hu : s.unread = []) :
    s.carried = [] ∧ cs = s.ready := by
  obtain ⟨-, -, -, behind, rfl, hbytes, hkept⟩ := h
  rw [hu, List.append_nil] at hbytes
  rcases hkept with hnil | ⟨c, tail, rfl, more, hmore, hchar⟩
  · rw [hnil] at hbytes
    rw [Text.Utf8.encode_eq_nil hbytes.symm, List.append_nil]
    exact ⟨hnil, rfl⟩
  -- The bytes kept back are less than a character, and here they would have to be one.
  · have hlength := congrArg List.length hbytes
    have hlength' := congrArg List.length hchar
    have hpos := List.length_pos_iff.2 hmore
    rw [show encode (c :: tail) = String.utf8EncodeChar c ++ encode tail from rfl] at hlength
    rw [List.length_append] at hlength hlength'
    omega

/-- A source that holds a text gives the first line of it, and holds the others then. -/
theorem Holds.readLine {s : Source} {cs : List Char} (h : s.Holds cs) :
    Reads Holds s cs := by
  unfold Reads
  fun_induction Source.readLine s with
  | case1 s cut hcut =>
    obtain ⟨hfault, hheld, hnotMem, behind, rfl, hbytes, hkept⟩ := h
    -- The first line is at hand, so it is the first line of the text.
    have hline : Text.takeLine (s.ready ++ behind) = (cut.1, cut.2 ++ behind) :=
      Text.takeLine_append_of_ended hcut behind
    have hne : s.ready ++ behind ≠ [] := by
      intro hnil
      rw [hnil, Text.takeLine] at hline
      rw [← (Prod.mk.inj hline).1] at hcut
      cases hcut
    rw [hline]
    refine .inr ⟨hne, _, rfl, hfault, hheld, ?_, behind, rfl, hbytes, hkept⟩
    have hwhole := Text.takeLine_append (s.ready ++ behind)
    rw [hline] at hwhole
    rw [← hwhole, List.mem_append, not_or] at hnotMem
    exact hnotMem.2
  | case2 s cut hcut hu =>
    obtain ⟨hcarried, rfl⟩ := h.eq_ready hu
    have hlast : s.lastLine = if s.ready = [] then .endOfInput
        else .line s.ready { s with ready := [], carried := [], held := false } := by
      simp [lastLine, hcarried, h.fault_eq, h.held_eq, Text.Utf8.decode, Text.Utf8.read]
    rw [hlast]
    by_cases hready : s.ready = []
    · rw [if_pos hready]
      exact .inl ⟨hready, rfl⟩
    · rw [if_neg hready, Text.takeLine_of_unended hcut]
      exact .inr ⟨hready, _, rfl, h.fault_eq, rfl, List.not_mem_nil, [], rfl, hu, .inl rfl⟩
  | case3 s cut hcut hu f hb =>
    obtain ⟨t, ht, -⟩ := h.readBlock
    rw [hb] at ht
    cases ht
  | case4 s cut hcut hu t hb ih =>
    obtain ⟨t', ht, hholds⟩ := h.readBlock
    rw [hb] at ht
    injection ht with ht
    exact ih (ht ▸ hholds)

/-- The bytes of a text without carriage returns give its lines. -/
theorem gives_ofBytes {cs : List Char} (h : '\r' ∉ cs) :
    (ofBytes (encode cs)).Gives (Text.lines cs) :=
  gives_of_reads (fun _ _ => Holds.readLine) (holds_ofBytes h)

/-! ## 3. The end of the last line -/

end Source

/-- Whether two texts have the same lines, but for the line feed that may end the last line of
the second. -/
inductive Text.SameLines : List (List Char) → List (List Char) → Prop where
  | refl (lines : List (List Char)) : SameLines lines lines
  | last (line : List Char) : SameLines [line] [line ++ ['\n']]
  | cons (line : List Char) {lines lines' : List (List Char)} :
      SameLines lines lines' → SameLines (line :: lines) (line :: lines')

theorem Text.sameLines_newline {cs : List Char} (hne : cs ≠ []) (h : cs.getLast? ≠ some '\n') :
    SameLines (lines cs) (lines (cs ++ ['\n'])) := by
  induction cs with
  | nil => exact absurd rfl hne
  | cons c cs ih =>
    rw [List.cons_append]
    -- The line feed is behind the last line, which may be the one that begins here.
    by_cases hcs : cs = []
    · subst hcs
      have hc : c ≠ '\n' := fun hc => h (by rw [hc]; rfl)
      have hone : lines [c] = [[c]] := by
        rw [lines, if_neg hc]
        rfl
      have htwo : lines (c :: ([] ++ ['\n'])) = [[c] ++ ['\n']] := by
        rw [lines, if_neg hc]
        rfl
      rw [hone, htwo]
      exact .last [c]
    · rw [List.getLast?_cons_of_ne_nil hcs] at h
      have hrest := ih hcs h
      by_cases hc : c = '\n'
      · rw [lines, if_pos hc, lines, if_pos hc]
        exact .cons [c] hrest
      · rw [lines, if_neg hc, lines, if_neg hc]
        generalize hls : lines cs = ls at hrest
        generalize lines (cs ++ ['\n']) = ls' at hrest
        cases hrest with
        | refl => exact .refl _
        | last line => exact .last (c :: line)
        | cons line hmore => exact .cons (c :: line) hmore

/-- Pieces of a text are read as the text, wherever they are cut. -/
theorem Source.charactersOf_of_flatten {carried : Bytes} {pieces : List Bytes} {cs : List Char}
    (h : carried ++ pieces.flatten = Text.Utf8.encode cs) :
    charactersOf carried pieces = (cs, none) := by
  induction pieces generalizing carried cs with
  | nil =>
    rw [List.flatten_nil, List.append_nil] at h
    rw [charactersOf, h, Text.Utf8.decode_encode]
  | cons piece pieces ih =>
    rw [List.flatten_cons, ← List.append_assoc] at h
    obtain ⟨before, after, kept, rfl, hblock, -, hdecode⟩ :=
      Text.Utf8.decodeBlock_of_prefix ⟨_, h⟩
    rw [charactersOf, hdecode]
    dsimp only
    rw [ih (append_eq_encode hblock h)]

/-- **What is typed gives the lines of the text**, but for the end of the last one. -/
theorem Source.gives_typed {pieces : List Bytes} {text : String}
    (h : pieces.flatten = Text.Utf8.encode text.toList) :
    ∃ lines, (typed pieces).Gives lines ∧ Text.SameLines (Text.lines text.toList) lines := by
  have hcharacters : charactersOf [] pieces = (text.toList, none) := charactersOf_of_flatten h
  rw [typed, hcharacters]
  dsimp only
  by_cases h : text.toList = [] ∨ text.toList.getLast? = some '\n'
  · rw [if_pos h]
    exact ⟨_, gives_ready _ 0, .refl _⟩
  · rw [if_neg h]
    rw [not_or] at h
    exact ⟨_, gives_ready _ 0, Text.sameLines_newline h.1 h.2⟩

namespace Lexeme

/-- A line feed behind a text is none of the characters that one looks out for. -/
theorem head?_ending {c : Char} (hc : c ≠ '\n') (rest : List Char) :
    (rest ++ ['\n']).head? = some c ↔ rest.head? = some c := by
  rcases rest with _ | ⟨d, rest⟩
  · simp [Ne.symm hc]
  · rfl

theorem takeWhile_ending {p : Char → Bool} (hp : p '\n' = false) (rest : List Char) :
    (rest ++ ['\n']).takeWhile p = rest.takeWhile p := by
  rw [List.takeWhile_append, List.takeWhile_cons, hp]
  simp only [Bool.false_eq_true, if_false, List.append_nil, ite_eq_right_iff]
  exact fun hlength => ((List.takeWhile_prefix p).eq_of_length hlength).symm

/-- **No lexeme reaches into a line feed behind it.** -/
theorem front_ending (inComment : Bool) (c : Char) (rest : List Char) :
    front inComment c (rest ++ ['\n']) = front inComment c rest := by
  have hname : (rest ++ ['\n']).takeWhile isNamePart = rest.takeWhile isNamePart :=
    takeWhile_ending (by decide) rest
  have hbody : (rest ++ ['\n']).takeWhile isLiteralBody = rest.takeWhile isLiteralBody :=
    takeWhile_ending (by decide) rest
  have hclose : ((rest ++ ['\n']).drop (rest.takeWhile isLiteralBody).length).head? =
      some '\'' ↔ (rest.drop (rest.takeWhile isLiteralBody).length).head? = some '\'' := by
    rw [List.drop_append_of_le_length (List.takeWhile_prefix isLiteralBody).length_le]
    exact head?_ending (by decide) _
  have hline : rest.head? = some '-' →
      ((rest ++ ['\n']).drop 1).takeWhile isWithinLine = (rest.drop 1).takeWhile isWithinLine := by
    intro hd
    rcases rest with _ | ⟨d, r⟩
    · cases hd
    · exact takeWhile_ending (by decide) r
  rcases inComment with _ | _
  · simp only [front, Bool.false_eq_true, if_false]
    by_cases hd : rest.head? = some '-'
    · simp only [outside, hname, hbody, hclose, hline hd, head?_ending (show '=' ≠ '\n' by decide),
        head?_ending (show '-' ≠ '\n' by decide), head?_ending (show '*' ≠ '\n' by decide)]
    · simp only [outside, hname, hbody, hclose, hd, and_false, if_false,
        head?_ending (show '=' ≠ '\n' by decide), head?_ending (show '-' ≠ '\n' by decide),
        head?_ending (show '*' ≠ '\n' by decide)]
  · simp only [front, if_true, inside, head?_ending (show '/' ≠ '\n' by decide)]

end Lexeme

namespace Scanner

/-- Whether two scanners are at one place of a last line that is ended for the second, or both
at its end. -/
def Trails (s s' : Scanner) : Prop :=
  s' = s.extend ['\n'] ∨ s.rest = [] ∧ s'.rest = [] ∧ s'.inComment = s.inComment

/-- At the end of a text a line feed is passed over in silence. -/
theorem next_newline {s : Scanner} (h : s.rest = []) :
    ∃ t, (s.extend ['\n']).next = (none, t) ∧ t.rest = [] ∧ t.inComment = s.inComment := by
  have hrest : (s.extend ['\n']).rest = ['\n'] := by rw [extend, h, List.nil_append]
  have hfront : Lexeme.front (s.extend ['\n']).inComment '\n' [] = (.silent, 0) := by
    unfold Lexeme.front
    split
    · rfl
    · rfl
  refine ⟨(s.extend ['\n']).behind '\n' [] .silent 0, ?_, rfl, rfl⟩
  rw [next_of_cons hrest, hfront]
  exact next_of_nil rfl

/-- **What is come upon is the same, whether or not the last line is ended.** -/
theorem next_trails {s s' : Scanner} (h : s.Trails s') :
    ∃ e? t t', s.next = (e?, t) ∧ s'.next = (e?, t') ∧ t.Trails t' ∧
      t'.inComment = t.inComment := by
  rcases h with rfl | ⟨hs, hs', hcomment⟩
  · fun_induction next s with
    | case1 s hs =>
      obtain ⟨t, hnext, hrest, hcomment⟩ := next_newline hs
      exact ⟨none, s, t, rfl, hnext, .inr ⟨hs, hrest, hcomment⟩, hcomment⟩
    | case2 s c rest hs x f hf =>
      have hnext := next_extend_of_front hs (Lexeme.front_ending s.inComment c rest)
      rw [hf] at hnext
      exact ⟨_, _, _, rfl, hnext, .inl rfl, rfl⟩
    | case3 s c rest hs x hf ih =>
      have hnext := next_extend_of_front hs (Lexeme.front_ending s.inComment c rest)
      rw [hf] at hnext
      rw [hnext]
      exact ih
  · exact ⟨none, s, s', next_of_nil hs, next_of_nil hs', .inr ⟨hs, hs', hcomment⟩, hcomment⟩

end Scanner

/-! ## 4. Streams over one text -/

namespace TokenStream

/-- Whether two scanners and their sources have the same text ahead, but for the line feed that
may end the last line of the second: either the line is the same and lines are to come, or it
is the last one. -/
inductive SameAhead : Scanner → Source → Scanner → Source → Prop where
  | before {scanner : Scanner} {source source' : Source} {lines lines' : List (List Char)} :
      source.Gives lines → source'.Gives lines' → Text.SameLines lines lines' →
      SameAhead scanner source scanner source'
  | within {scanner scanner' : Scanner} {source source' : Source} :
      source.Gives [] → source'.Gives [] → scanner.Trails scanner' →
      SameAhead scanner source scanner' source'

/-- Whether two streams differ in nothing but how they come by the same text. -/
def Besides (s s' : TokenStream) : Prop :=
  ∃ scanner source, s' = { s with scanner, source } ∧
    SameAhead s.scanner s.source scanner source

theorem SameAhead.next {scanner scanner' : Scanner} {source source' : Source}
    (h : SameAhead scanner source scanner' source') :
    ∃ e? t t', scanner.next = (e?, t) ∧ scanner'.next = (e?, t') ∧
      t'.inComment = t.inComment ∧ SameAhead t source t' source' := by
  rcases h with ⟨hgives, hgives', hsame⟩ | ⟨hgives, hgives', htrails⟩
  · exact ⟨_, _, _, rfl, rfl, rfl, .before hgives hgives' hsame⟩
  · obtain ⟨e?, t, t', ht, ht', htt, hcomment⟩ := Scanner.next_trails htrails
    exact ⟨e?, t, t', ht, ht', hcomment, .within hgives hgives' htt⟩

/-- Behind a line, both sources have another one or neither has. -/
theorem SameAhead.readLine {scanner scanner' : Scanner} {source source' : Source}
    (h : SameAhead scanner source scanner' source')
    (hrest : scanner.rest = [] ∧ scanner'.rest = [])
    (hcomment : scanner'.inComment = scanner.inComment) :
    (source.readLine = .endOfInput ∧ source'.readLine = .endOfInput) ∨
    ∃ text text' t t', source.readLine = .line text t ∧ source'.readLine = .line text' t' ∧
      SameAhead (scanner.feed text) t (scanner'.feed text') t' := by
  rcases h with ⟨hgives, hgives', hsame⟩ | ⟨⟨hend⟩, ⟨hend'⟩, -⟩
  · rcases hgives with ⟨hend⟩ | ⟨hline, hmore⟩
    · cases hsame
      rcases hgives' with ⟨hend'⟩
      exact .inl ⟨hend, hend'⟩
    · refine .inr ?_
      rcases hgives' with ⟨hend'⟩ | ⟨hline', hmore'⟩
      · cases hsame
      · refine ⟨_, _, _, _, hline, hline', ?_⟩
        cases hsame with
        | refl => exact .before hmore hmore' (.refl _)
        | last line => exact .within hmore hmore' (.inl rfl)
        | cons line hsame => exact .before hmore hmore' hsame
  · exact .inl ⟨hend, hend'⟩

/-- **What is read is the same.** -/
theorem Besides.read {s s' : TokenStream} (h : s.Besides s') : s.read.Alike Besides s'.read := by
  -- By what is left of the first source: every line that is asked for takes some of it.
  induction hm : s.source.size using Nat.strongRecOn generalizing s s' with
  | _ m ih =>
    obtain ⟨scanner', source', rfl, hahead⟩ := h
    obtain ⟨e?, t, t', ht, ht', hcomment, hbehind⟩ := hahead.next
    rw [read_eq, read_eq]
    dsimp only
    rw [ht, ht']
    rcases e? with _ | e
    · dsimp only
      have hprompt : ({ s with scanner := t', source := source' } : TokenStream).prompt =
          ({ s with scanner := t } : TokenStream).prompt := by
        unfold prompt
        dsimp only
        rw [hcomment]
      by_cases hx : s.exhausted = true
      · rw [if_pos hx, if_pos hx]
        exact ⟨rfl, _, _, rfl, hbehind⟩
      · rw [if_neg hx, if_neg hx]
        have hrest := Scanner.next_none_rest ht
        have hrest' := Scanner.next_none_rest ht'
        rcases hbehind.readLine ⟨hrest, hrest'⟩ hcomment with
          ⟨hend, hend'⟩ | ⟨text, text', u, u', hline, hline', hsame⟩
        · rw [hend, hend']
          refine ⟨rfl, t', source', ?_, hbehind⟩
          unfold requested
          rw [hprompt]
        · rw [hline, hline']
          have hlt := (Source.readLine_line hline).2
          have hpos := List.length_pos_iff.2 (Source.readLine_line hline).1
          refine ih u.size (by omega) ⟨t'.feed text', u', ?_, hsame⟩ rfl
          unfold requested
          rw [hprompt]
    · dsimp only
      rcases e.found with tok | f
      · exact ⟨rfl, _, _, rfl, hbehind⟩
      · exact ⟨rfl, _, _, rfl, hbehind⟩

theorem Besides.ahead_eq {s s' : TokenStream} (h : s.Besides s') : s'.ahead? = s.ahead? := by
  obtain ⟨scanner, source, rfl, -⟩ := h
  rfl

theorem Besides.lookahead {s s' : TokenStream} (h : s.Besides s') :
    s.lookahead.Alike Besides s'.lookahead := by
  have hahead := h.ahead_eq
  rcases ha : s.ahead? with _ | a <;> rw [ha] at hahead
  · rcases h.read.cases with
      ⟨a, t, t', hr, hr', scanner, source, rfl, hrest⟩ | ⟨e, t, t', hr, hr', hbesides⟩
    · rw [lookahead_of_read ha hr, lookahead_of_read hahead hr']
      exact ⟨rfl, scanner, source, rfl, hrest⟩
    · rw [lookahead_of_fail ha hr, lookahead_of_fail hahead hr']
      exact ⟨rfl, hbesides⟩
  · rw [lookahead_of_some ha, lookahead_of_some hahead]
    exact ⟨rfl, h⟩

theorem Besides.consume {s s' : TokenStream} (h : s.Besides s') :
    s.consume.Besides s'.consume := by
  have hahead := h.ahead_eq
  rcases ha : s.ahead? with _ | tok | _ <;> rw [ha] at hahead <;>
    rw [TokenStream.consume, TokenStream.consume, ha, hahead]
  · exact h
  · obtain ⟨scanner, source, rfl, hrest⟩ := h
    exact ⟨scanner, source, rfl, hrest⟩
  · exact h

/-- **Where a text comes from does not show.** -/
theorem simulation_besides : Simulation fun _ => Besides where
  kept _ := ⟨Besides.lookahead, Besides.consume⟩
  forgetRequests := by
    rintro past s _ ⟨scanner, source, rfl, hahead⟩
    exact ⟨scanner, source, rfl, hahead⟩
  asked_eq := by
    rintro past s _ ⟨scanner, source, rfl, -⟩
    rfl
  samePlace := by
    rintro past s _ ⟨scanner, source, rfl, -⟩
    exact ⟨rfl, rfl⟩

end TokenStream

namespace Session

/-- A session over a text is beside one over a source that gives the same lines. -/
theorem parallel_start (db : Database) {text : String} {source : Source}
    {lines : List (List Char)} (hgives : source.Gives lines)
    (hsame : Text.SameLines (Text.lines text.toList) lines) :
    Parallel (fun _ => TokenStream.Besides) (start (.ofString text) db) (start source db) where
  stream := ⟨{}, source, rfl, .before (Source.gives_ready text.toList 0) hgives hsame⟩
  database := rfl
  log := rfl

end Session

end FlatQuery
