import FlatQuery.CommandLine.Basic
import FlatQuery.Proofs.Loops
import FlatQuery.Proofs.Reports
import FlatQuery.Proofs.Scripts
import FlatQuery.Proofs.Supply

/-!
# What breaks a session off

No statement breaks a session off: what goes wrong with one is reported, and the next one
begins behind its semicolon. What can break it off is the input. The bytes of a script, or
those on standard input, may turn out not to be text, and that is not found out when a script
is opened but when its bytes are read, block by block, behind statements that have been carried
out by then.

What a stream has to give says whether it will break: the error is the last of its queue
(`TokenStream.Breaks`). Reading neither brings it nearer to the front nor takes it away but by
coming to it (`TokenStream.invariant_breaks`), so a session can end at the end of its input only
if the error is not there, and by an error only if it is (`Session.tells_of_run`). And it is
there exactly when the bytes are not text (`TokenStream.breaks_iff`): what a block keeps of the
bytes before it decides as well as these bytes.

A script that is text need not stay so. Where it stores a table into its own file, reading goes
on in the new content at the old place, and that may be within a character
(`Session.self_storing_breaks`).
-/

set_option autoImplicit false

namespace FlatQuery

open Text.Utf8 (IsText)

/-! ## 1. Sources -/

namespace Source

/-- Whether all that a source has not made characters of is text. -/
structure IsText (s : Source) : Prop where
  fault_eq : s.fault? = none
  bytes : Text.Utf8.IsText (s.carried ++ s.unread)

theorem isText_iff {s : Source} :
    s.IsText ↔ s.fault? = none ∧ Text.Utf8.IsText (s.carried ++ s.unread) :=
  ⟨fun h => ⟨h.fault_eq, h.bytes⟩, fun h => ⟨h.1, h.2⟩⟩

/-- Blocks are taken off the bytes, and what is left decides. -/
theorem isText_of_readBlock {s t : Source} (h : s.readBlock = .ok t) :
    t.IsText ↔ s.IsText := by
  unfold readBlock at h
  dsimp only at h
  rcases hdecode : Text.Utf8.decodeBlock (s.carried ++ s.unread.take blockSize) with
    f | ⟨cs, kept⟩ <;> rw [hdecode] at h
  · cases h
  · injection h with h
    have hblock := Text.Utf8.isText_of_decodeBlock hdecode (s.unread.drop blockSize)
    rw [List.append_assoc, List.take_append_drop] at hblock
    rw [← h, isText_iff, isText_iff, hblock]

/-- A block shows that the bytes are not text only where they are not. -/
theorem not_isText_of_readBlock {s : Source} {f : Text.Utf8.Fault} (h : s.readBlock = .error f) :
    ¬s.IsText := by
  unfold readBlock at h
  dsimp only at h
  rcases hdecode : Text.Utf8.decodeBlock (s.carried ++ s.unread.take blockSize) with
    f' | ⟨cs, kept⟩ <;> rw [hdecode] at h
  · have hblock := Text.Utf8.not_isText_of_decodeBlock hdecode (s.unread.drop blockSize)
    rw [List.append_assoc, List.take_append_drop] at hblock
    exact fun htext => hblock htext.bytes
  · cases h

/-- The last line shows whether the bytes that are kept are text, or the fault that was known
beforehand. -/
theorem isText_of_lastLine (s : Source) (hu : s.unread = []) :
    match s.lastLine with
    | .line _ t => t.IsText ↔ s.IsText
    | .endOfInput => s.IsText
    | .broken _ => ¬s.IsText := by
  have hbytes : s.carried ++ s.unread = s.carried := by rw [hu, List.append_nil]
  rw [isText_iff, hbytes, Text.Utf8.isText_iff_decode, lastLine]
  rcases hfault : s.fault? with _ | f
  · rcases hdecode : Text.Utf8.decode s.carried with f | cs
    · rintro ⟨-, cs, h⟩
      cases h
    · dsimp only
      split
      · rename_i hline
        split at hline
        · cases hline
        · injection hline with _ hrest
          refine ⟨fun _ => ⟨rfl, cs, rfl⟩, fun _ => ?_⟩
          rw [← hrest, isText_iff, hu]
          exact ⟨rfl, [], fun _ => rfl⟩
      · exact ⟨rfl, cs, rfl⟩
      · rename_i hline
        split at hline <;> cases hline
  · rintro ⟨h, -⟩
    cases h

/-- **What asking for a line says about the bytes.** A line leaves it open whether they are
text, the end shows that they are, and a source breaks only where they are not. -/
theorem isText_of_readLine (s : Source) :
    match s.readLine with
    | .line _ t => t.IsText ↔ s.IsText
    | .endOfInput => s.IsText
    | .broken _ => ¬s.IsText := by
  fun_induction readLine s with
  | case1 s cut hcut => exact ⟨fun h => ⟨h.1, h.2⟩, fun h => ⟨h.1, h.2⟩⟩
  | case2 s cut hcut hu => exact s.isText_of_lastLine hu
  | case3 s cut hcut hu f hb => exact not_isText_of_readBlock hb
  | case4 s cut hcut hu t hb ih =>
    rw [isText_of_readBlock hb] at ih
    exact ih

/-- A file that was opened has its content left to read. -/
theorem isText_ofBytes {content : Bytes} : (ofBytes content).IsText ↔ Text.Utf8.IsText content := by
  rw [isText_iff]
  exact and_iff_right rfl

/-- No piece is found not to be text exactly when all of them together are text. -/
theorem charactersOf_eq_none_iff {carried : Bytes} {pieces : List Bytes} :
    (charactersOf carried pieces).2 = none ↔ Text.Utf8.IsText (carried ++ pieces.flatten) := by
  induction pieces generalizing carried with
  | nil =>
    rw [List.flatten_nil, List.append_nil, Text.Utf8.isText_iff_decode, charactersOf]
    rcases Text.Utf8.decode carried with f | cs
    · simp
    · simp
  | cons piece pieces ih =>
    rw [List.flatten_cons, ← List.append_assoc, charactersOf]
    rcases hdecode : Text.Utf8.decodeBlock (carried ++ piece) with f | ⟨cs, kept⟩
    · have hblock := Text.Utf8.not_isText_of_decodeBlock hdecode pieces.flatten
      exact iff_of_false (Option.some_ne_none f) hblock
    · rw [Text.Utf8.isText_of_decodeBlock hdecode]
      exact ih

/-- What is typed in pieces is text if all the pieces together are. -/
theorem isText_typed {pieces : List Bytes} :
    (typed pieces).IsText ↔ Text.Utf8.IsText pieces.flatten := by
  have hcharacters : (charactersOf [] pieces).2 = none ↔ Text.Utf8.IsText pieces.flatten :=
    charactersOf_eq_none_iff
  rw [← hcharacters, isText_iff, typed]
  rcases charactersOf [] pieces with ⟨cs, _ | f⟩
  · exact iff_of_true ⟨rfl, [], fun _ => rfl⟩ rfl
  · exact iff_of_false (fun h => Option.some_ne_none f h.1) (Option.some_ne_none f)

end Source

/-! ## 2. Streams -/

namespace TokenStream

/-- Whether a stream has come to its end, or what is left of its source is text. -/
def IsSafe (s : TokenStream) : Prop := s.exhausted = true ∨ s.source.IsText

/-- **What reading says about the bytes.** -/
theorem isSafe_of_read (s : TokenStream) :
    match s.read with
    | .ok (.token _) t => t.IsSafe ↔ s.IsSafe
    | .ok .endOfInput _ => s.IsSafe
    | .fail e t => (∃ f, e = .lexical f) ∧ (t.IsSafe ↔ s.IsSafe) ∨
        (∃ f, e = .inputEncoding f) ∧ ¬s.IsSafe := by
  fun_induction read s with
  | case1 s e scanner hn k hf => exact Iff.rfl
  | case2 s e scanner hn f hf => exact .inl ⟨⟨f, rfl⟩, Iff.rfl⟩
  | case3 s scanner hn u hx => exact .inl hx
  -- A line that was read leaves open whether the rest is text.
  | case4 s scanner hn u hx text source hl ih =>
    have hline := s.source.isText_of_readLine
    rw [hl] at hline
    have hsame : ({ u.requested false with scanner := scanner.feed text, source } :
        TokenStream).IsSafe ↔ s.IsSafe := or_congr Iff.rfl hline
    revert ih
    split <;> intro ih <;> rw [hsame] at ih
    · exact ih
    · exact ih
    · exact ih
  | case5 s scanner hn u hx hl =>
    have hline := s.source.isText_of_readLine
    rw [hl] at hline
    exact .inr hline
  | case6 s scanner hn u hx f hl =>
    have hline := s.source.isText_of_readLine
    rw [hl] at hline
    -- The source broke, so it is not at its end, and what was unread is not text.
    refine .inr ⟨⟨f, rfl⟩, ?_⟩
    rintro (hexhausted | htext)
    · exact hx hexhausted
    · exact hline htext

/-- Whether reading will come upon bytes that are not text. -/
def Breaks (s : TokenStream) : Prop := ∃ f, .error (.inputEncoding f) ∈ s.queue

/-- **A stream breaks exactly where its bytes are not text.** -/
theorem breaks_iff {s : TokenStream} (h : s.ahead? = none) : s.Breaks ↔ ¬s.IsSafe := by
  rw [Breaks, queue_of_none h]
  clear h
  fun_induction coming s with
  | case1 s k t hr ih =>
    have hread := s.isSafe_of_read
    rw [hr] at hread
    simp [ih, hread]
  | case2 s t hr =>
    have hread := s.isSafe_of_read
    rw [hr] at hread
    simp [show s.IsSafe from hread]
  | case3 s e t hr he ih =>
    have hread := s.isSafe_of_read
    rw [hr] at hread
    rcases hread with ⟨⟨f, rfl⟩, hsafe⟩ | ⟨⟨f, rfl⟩, -⟩
    · simp [ih, hsafe]
    · cases he
  | case4 s e t hr he =>
    have hread := s.isSafe_of_read
    rw [hr] at hread
    rcases hread with ⟨⟨f, rfl⟩, -⟩ | ⟨⟨f, rfl⟩, hsafe⟩
    · exact absurd rfl he
    · simp [hsafe]

/-- Whether a stream will break does not change as it is read. -/
theorem invariant_breaks (B : Prop) : Invariant fun _ s => s.Breaks ↔ B where
  lookahead := by
    intro _ s h
    rw [← h]
    rcases lookahead_cases s with ⟨t, hl, hq, hqt, -⟩ | ⟨k, t, hl, hq, ha, -⟩ |
      ⟨e, t, hl, -, -, ⟨he, hq⟩ | ⟨-, hq, hqt⟩⟩ <;> rw [hl, Reply.rest, Breaks, Breaks, hq]
    · rw [hqt]
    · rw [queue_of_token ha]
    -- The error that is given is not the one.
    · refine exists_congr fun f => ?_
      rw [List.mem_cons, or_iff_right]
      intro hf
      injection hf with hf
      rw [← hf] at he
      cases he
    · rw [hqt]
  consume := by
    intro _ s h
    rw [← h]
    rcases ha : s.ahead? with _ | k | _
    · rw [consume, ha]
    · rw [Breaks, Breaks, (consume_of_token ha).1, queue_of_token ha]
      simp
    · rw [consume_of_end ha]
  forgetRequests := by
    intro _ s h
    rwa [Breaks, queue_forgetRequests]

/-- Tokens are written as tokens however far a stream is read. -/
theorem invariant_isLexical : Invariant fun _ s => s.IsLexical where
  lookahead := fun h => isLexical_of_suffix (lookahead_suffix _) h
  consume := fun h => isLexical_of_suffix (consume_suffix _) h
  forgetRequests := by
    intro _ s h
    exact isLexical_of_suffix (queue_forgetRequests s ▸ List.suffix_rfl) h

/-- Where the rest of a text comes from does not matter to how tokens are written. -/
theorem IsLexical.of_ahead {s t : TokenStream} (hs : s.IsLexical) (h : t.ahead? = s.ahead?) :
    t.IsLexical := by
  intro k hk
  unfold queue at hk
  rcases ha : t.ahead? with _ | d | _ <;> rw [ha] at hk
  · exact coming_isLexical t hk
  · rcases List.mem_cons.1 hk with hd | hk
    · apply hs
      rw [queue_of_token (h.symm.trans ha), hd]
      exact List.mem_cons_self ..
    · exact coming_isLexical t hk
  · cases hk

end TokenStream

/-! ## 3. Sessions -/

/-- Passing the rest of a statement fails only by an error that belongs to none. -/
theorem Parser.error_of_skip {s t : TokenStream} {e : Error} (h : skip.run s = .fail e t) :
    e.isStatementError = false ∧ .error e ∈ s.queue := by
  induction hm : s.pending using Nat.strongRecOn generalizing s with
  | _ m ih =>
    subst hm
    have hsuffix := s.lookahead_suffix
    have huses := s.pending_of_lookahead
    have hfails := s.failsBy_lookahead (E := fun _ => False)
    rw [run_skip] at h
    rcases hl : s.lookahead with ⟨k | _, u⟩ | ⟨d, u⟩ <;>
      rw [hl] at h hsuffix huses hfails <;> dsimp only at h
    · split at h
      · cases h
      -- A token that is passed was in the queue, and what comes behind it was so too.
      · obtain ⟨he, hmem⟩ := ih _ (TokenStream.pending_consume_of_lookahead hl) h rfl
        exact ⟨he, hsuffix.subset (u.consume_suffix.subset hmem)⟩
    · cases h
    -- An error of the text is passed, and any other is what passing fails by.
    · split at h
      · rename_i hd
        obtain ⟨he, hmem⟩ := ih _ (huses.2 hd) h rfl
        exact ⟨he, hsuffix.subset hmem⟩
      · rename_i hd
        injection h with h
        rw [← h]
        exact ⟨Bool.eq_false_iff.2 hd, hfails.resolve_left id⟩

namespace Session

/-- What an ending tells about a stream that breaks or not. -/
def Ending.Tells (breaks : Prop) : Ending → Prop
  | .left => True
  | .inputEnded => ¬breaks
  | .broken e => (∃ f, e = .inputEncoding f) ∧ breaks

/-- What is read on from is behind what has been read, so it is made of tokens as well. -/
theorem isLexical_of_readOn {s : Session} (hs : s.stream.IsLexical) (place : List String) :
    (s.readOn place).stream.IsLexical := by
  unfold readOn
  split
  · exact hs.of_ahead rfl
  · exact hs

@[simp] theorem transcript_readOn (s : Session) (place : List String) :
    (s.readOn place).transcript = s.transcript := by
  unfold readOn
  split <;> rfl

section Lexical

variable {s : Session} (hs : s.stream.IsLexical)
include hs

/-- An error that belongs to no statement is that the bytes are not text. -/
theorem breaks_of_statement {u : Session} {e : Error} (h : s.statement = (.error e, u))
    (he : e.isStatementError = false) : (∃ f, e = .inputEncoding f) ∧ s.stream.Breaks := by
  rcases isExternal_or_mem_of_failsBy hs (failsBy_of_statement hs h) with hexternal | hmem
  · exact absurd hexternal.ofStatement (by simp [he])
  · rcases TokenStream.error_mem_queue hmem with ⟨f, rfl⟩ | ⟨f, rfl⟩
    · cases he
    · exact ⟨⟨f, rfl⟩, f, hmem⟩

/-- Where a turn is broken off, it is because the bytes are not text. -/
theorem breaks_of_turn {t : Session} {e : Error} (h : s.turn = .ended t (.broken e)) :
    (∃ f, e = .inputEncoding f) ∧ s.stream.Breaks := by
  have hsame : s.Has fun _ t => t.Breaks ↔ s.stream.Breaks := Iff.rfl
  have hbreaks := Has.statement (TokenStream.invariant_breaks _) hsame
  rw [turn] at h
  rcases hst : s.statement with ⟨d | a, u⟩ <;> rw [hst] at h hbreaks
  · change u.stream.Breaks ↔ s.stream.Breaks at hbreaks
    obtain ⟨e', hhow, hcause⟩ := ending_of_recover h
    injection hhow with hhow
    subst hhow
    rcases hcause with ⟨hd, rfl⟩ | ⟨v, hskip⟩
    · exact breaks_of_statement hs hst hd
    -- The statement has failed, and then passing the rest of it.
    · obtain ⟨he, hmem⟩ := Parser.error_of_skip hskip
      rcases TokenStream.error_mem_queue hmem with ⟨f, rfl⟩ | ⟨f, rfl⟩
      · cases he
      · exact ⟨⟨f, rfl⟩, hbreaks.1 ⟨f, hmem⟩⟩
  · rcases a with _ | _ | _ <;> cases h

/-- A turn that ends its session tells whether its bytes are text. -/
theorem tells_of_turn {t : Session} {how : Ending} (h : s.turn = .ended t how) :
    how.Tells s.stream.Breaks := by
  rcases ending_of_turn h with ⟨rfl, -⟩ | ⟨rfl, hqueue⟩ | ⟨e, rfl⟩
  · trivial
  · rintro ⟨f, hf⟩
    rw [hqueue] at hf
    cases hf
  · exact breaks_of_turn hs h

/-- **How a run ends tells whether its bytes are text.** It gets to the end of the input only
if they are, and is broken off only if they are not. -/
theorem tells_of_run : s.run.2.Tells s.stream.Breaks := by
  refine run_induction
    (I := fun t => t.stream.IsLexical ∧ (t.stream.Breaks ↔ s.stream.Breaks))
    (F := fun r => r.2.Tells s.stream.Breaks) ?_ ?_ ⟨hs, Iff.rfl⟩
  · rintro t u ⟨hlexical, hbreaks⟩ hu
    exact ⟨Has.going TokenStream.invariant_isLexical hlexical hu,
      Has.going (TokenStream.invariant_breaks _) hbreaks hu⟩
  · rintro t u how ⟨hlexical, hbreaks⟩ hu
    rw [← hbreaks]
    exact tells_of_turn hlexical hu

/-- A script that is written while it runs has only one way to break as well. -/
theorem broken_of_runScript {place : List String} {k : Nat} {e : Error}
    (h : (s.runScript place k).2 = .broken e) : ∃ f, e = .inputEncoding f := by
  induction k generalizing s with
  | zero =>
    have htells := tells_of_run hs
    rw [show s.run.2 = .broken e from h] at htells
    exact htells.1
  | succ k ih =>
    rw [runScript] at h
    rcases hturn : s.turn with ⟨t, how⟩ | t <;> rw [hturn] at h
    · have htells := tells_of_turn hs hturn
      rw [show how = .broken e from h] at htells
      exact htells.1
    · exact ih (isLexical_of_readOn (Has.going TokenStream.invariant_isLexical hs hturn) place) h

end Lexical

/-- A session breaks exactly where its source is not text. -/
theorem breaks_start {source : Source} (db : Database) :
    (start source db).stream.Breaks ↔ ¬source.IsText := by
  rw [TokenStream.breaks_iff rfl]
  exact not_congr ⟨fun h => h.resolve_left Bool.false_ne_true, .inr⟩

/-- A source is made of tokens, so how a run over it ends tells whether it is text. -/
theorem tells_of_start (source : Source) (db : Database) :
    (start source db).run.2.Tells (¬source.IsText) := by
  rw [← breaks_start db]
  exact tells_of_run (TokenStream.isLexical_of_none rfl)

/-- Whether all that a session has reported is external. -/
def ReportsExternal (s : Session) : Prop := ∀ e, .failure e ∈ s.transcript → e.IsExternal

/-- What is reported is printed. -/
theorem failure_mem_printed {s : Session} {e : Error} :
    .failure e ∈ s.printed ↔ .failure e ∈ s.transcript := by
  rw [printed, Transcript.printed, List.mem_filter]
  exact and_iff_left rfl

section Reports

variable {s : Session} (hs : s.stream.IsLexical) (h : s.ReportsExternal)
include hs h

/-- A turn adds only external reports to those there are. -/
theorem reportsExternal_of_turn : s.turn.session.ReportsExternal := by
  intro e he
  rcases turn_reports hs (failure_mem_printed.2 he) with hbefore | hexternal
  · exact h e (failure_mem_printed.1 hbefore)
  · exact hexternal

/-- All that a run reports is external, if all that was reported before it is. -/
theorem reportsExternal_of_run : s.run.1.ReportsExternal := by
  refine run_induction (I := fun t => t.stream.IsLexical ∧ t.ReportsExternal)
    (F := fun r => r.1.ReportsExternal) ?_ ?_ ⟨hs, h⟩
  · rintro t u ⟨hlexical, hreports⟩ hu
    have hturn := reportsExternal_of_turn hlexical hreports
    rw [hu] at hturn
    exact ⟨Has.going TokenStream.invariant_isLexical hlexical hu, hturn⟩
  · rintro t u how ⟨hlexical, hreports⟩ hu
    have hturn := reportsExternal_of_turn hlexical hreports
    rw [hu] at hturn
    exact hturn

/-- So is all that a script reports, even one that is written while it runs. The induction is on how
often its file is looked at. -/
theorem reportsExternal_of_runScript (place : List String) (k : Nat) :
    (s.runScript place k).1.ReportsExternal := by
  induction k generalizing s with
  | zero => exact reportsExternal_of_run hs h
  | succ k ih =>
    have hturn := reportsExternal_of_turn hs h
    rw [runScript]
    rcases hu : s.turn with ⟨t, how⟩ | t <;> rw [hu] at hturn
    · exact hturn
    · have hlexical : t.stream.IsLexical := Has.going TokenStream.invariant_isLexical hs hu
      refine ih (isLexical_of_readOn hlexical place) ?_
      rw [ReportsExternal, transcript_readOn]
      exact hturn

end Reports

/-- A session that has begun has reported nothing. -/
theorem reportsExternal_start (source : Source) (db : Database) :
    (start source db).ReportsExternal := fun _ h => by cases h

/-- **Nothing but the input breaks a session off.** Whatever the registered tables, their names,
the directory and the files are, a run over a text comes to its end, by a statement to leave or
at the end of the input. A run over what comes in on standard input is broken off only by bytes
there that are not text, and a script only if it is not text or does not leave its own file
alone. Each of the errors that a run reports belongs to one statement and is none of the
internal ones: no row of a wrong width, no cursor behind its last row, no unknown sign, no
number out of range.

Texts are sequences of scalar values here, so a value can always be written to a file, and a
directory is one whose path holds no null character. Both are needed: what cannot be encoded,
or opened under its path, is an error that no statement reports. -/
theorem broken_only_by_input (db : Database) :
    (∀ text : String,
      ((runText db text).2 = .left ∨ (runText db text).2 = .inputEnded) ∧
        (runText db text).1.ReportsExternal) ∧
    (∀ pieces : List Bytes,
      (∀ e, (start (.typed pieces) db).run.2 = .broken e →
        (∃ f, e = .inputEncoding f) ∧ ¬∃ cs, Text.Utf8.decode pieces.flatten = .ok cs) ∧
        (start (.typed pieces) db).run.1.ReportsExternal) ∧
    ∀ (content : Bytes) (place : List String) (k : Nat),
      (∀ e, ((start (.ofBytes content) db).runScript place k).2 = .broken e →
        (∃ f, e = .inputEncoding f) ∧ ((∃ cs, Text.Utf8.decode content = .ok cs) →
          ¬(start (.ofBytes content) db).Leaves place content)) ∧
        ((start (.ofBytes content) db).runScript place k).1.ReportsExternal := by
  have hlexical (source : Source) : (start source db).stream.IsLexical :=
    TokenStream.isLexical_of_none rfl
  refine ⟨fun text => ⟨?_, ?_⟩, fun pieces => ⟨fun e he => ?_, ?_⟩, fun content place k =>
    ⟨fun e he => ⟨broken_of_runScript (hlexical _) he, ?_⟩, ?_⟩⟩
  · exact ending_of_run (isRegular_start db text)
  · exact reportsExternal_of_run (hlexical _) (reportsExternal_start _ _)
  · have hbroken := tells_of_start (.typed pieces) db
    rw [he] at hbroken
    rw [← Text.Utf8.isText_iff_decode, ← Source.isText_typed]
    exact hbroken
  · exact reportsExternal_of_run (hlexical _) (reportsExternal_start _ _)
  · intro htext hleaves
    have hbroken := tells_of_start (.ofBytes content) db
    rw [← runScript_of_leaves hleaves k, he, Source.isText_ofBytes,
      Text.Utf8.isText_iff_decode] at hbroken
    exact hbroken.2 htext
  · exact reportsExternal_of_runScript (hlexical _) (reportsExternal_start _ _) place k

section SelfStoring

/-- A script that inserts a row into the table of its own lines and stores it. -/
def selfStoring : String := "load t;insert into t values('éé');store t;\n  \n  \n"

/-- The script, standing where the table's file does. -/
def withSelfStoring : FileSystem where
  nodes := [(["t.db"], .file (Text.Utf8.encode selfStoring.toList))]
  workingDirectory := []

set_option maxRecDepth 10000 in
/-- **A script that is text can break its session off.** Its lines are read as a table, and the
table, which keeps one of the two blank rows, is stored where the script stands. Reading goes on
behind the fifty-one bytes that have been read, and there the second byte of a character comes
next. -/
theorem self_storing_breaks :
    withSelfStoring.probe (.ofString "t.db") =
        .ok (some (["t.db"], .file (Text.Utf8.encode selfStoring.toList))) ∧
      ((start (.ofBytes (Text.Utf8.encode selfStoring.toList))
        (.fresh .root withSelfStoring)).runScript ["t.db"] CommandLine.scriptTurns).2 =
          .broken (.inputEncoding ⟨0, [0xa9], .invalidStart⟩) :=
  ⟨by decide +kernel, by decide +kernel⟩

end SelfStoring

end Session

end FlatQuery
