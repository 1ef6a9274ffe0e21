import FlatQuery.Proofs.Invariance

/-!
# What can be reported

The errors that a session reports are about what was written: about a word, a name, a file.
Errors about the library's own doings exist too. A row may not fit its table, a cursor may
stand behind the last row, a sign may be no relation, a number may be out of range. None of
these is reached from statements, in whatever state the tables and files are
(`Session.turn_reports`).

For what goes wrong while a statement is read this is shown parser by parser.
`Parser.FailsBy E` says that a parser fails by errors of a kind `E` or by an error of the
text, and it is kept by the ways in which parsers are put together. There is one place where
it takes more than that. The sign of a condition is looked up, and is always found, because a
token that is a relation is written like one.

What goes wrong while a statement is carried out is read off the lemmas about when it can
be. A query that was read can be answered, and the values of an insertion are counted before
they are added.
-/

set_option autoImplicit false

namespace FlatQuery

open FlatQuery.Phrase

/-! ## 1. Two kinds of errors -/

/-- Whether an error is about the library's own doings. -/
def Error.isInternal : Error → Bool
  | .rowWidth _ _ _ | .pastLastRow _ | .unknownRelation _ | .rowIndex | .fieldIndex
  | .indexTooLarge => true
  | _ => false

/-- Whether an error belongs to a statement and is not about the library's own doings. -/
structure Error.IsExternal (e : Error) : Prop where
  ofStatement : e.isStatementError = true
  notInternal : e.isInternal = false

/-- An error that is spelled out is external if it is so as it stands. -/
theorem Error.IsExternal.of_eq {α : Type} {d e : Error} (hd : d.IsExternal)
    (h : (.error d : Except Error α) = .error e) : e.IsExternal := by
  injection h with h
  rw [← h]
  exact hd

namespace TokenStream

/-! ## 2. Parsers and their errors -/

/-- What is to come of a stream was to come of it before. -/
theorem lookahead_suffix (s : TokenStream) : s.lookahead.rest.queue <:+ s.queue := by
  rcases lookahead_cases s with ⟨t, hl, -, hqt, -⟩ | ⟨k, t, hl, hq, ha, -⟩ |
    ⟨e, t, hl, -, -, ⟨-, hq⟩ | ⟨-, hq, hqt⟩⟩ <;> rw [hl, Reply.rest]
  · rw [hqt]
    exact List.nil_suffix
  · exact (queue_of_token ha).trans hq.symm ▸ List.suffix_rfl
  · rw [hq]
    exact List.suffix_cons ..
  · exact hqt.trans hq.symm ▸ List.suffix_rfl

/-- The tokens of what is left are among those there were. -/
theorem isLexical_of_suffix {s t : TokenStream} (h : t.queue <:+ s.queue) (hs : s.IsLexical) :
    t.IsLexical := fun k hk => hs k (h.subset hk)

end TokenStream

section Replies

variable {α : Type} {E : Error → Prop}

/-- Whether a reply leads on in a stream, or fails by an error of some kind or of the stream. -/
def Reply.FailsBy (E : Error → Prop) (s : TokenStream) : Reply α → Prop
  | .ok _ t => t.queue <:+ s.queue
  | .fail e _ => E e ∨ .error e ∈ s.queue

/-- A reply on what is left is a reply on what there was. -/
theorem Reply.FailsBy.of_suffix {r : Reply α} {s t : TokenStream} (h : r.FailsBy E t)
    (hts : t.queue <:+ s.queue) : r.FailsBy E s := by
  rcases r with ⟨a, u⟩ | ⟨e, u⟩
  · exact h.trans hts
  · exact h.imp id fun he => hts.subset he

/-- Looking ahead loses nothing but an error, which is given. -/
theorem TokenStream.failsBy_lookahead (s : TokenStream) : s.lookahead.FailsBy E s := by
  have hsuffix := s.lookahead_suffix
  rcases s.lookahead_cases with ⟨t, hl, -⟩ | ⟨k, t, hl, -⟩ |
    ⟨e, t, hl, -, -, ⟨-, hq⟩ | ⟨-, hq, -⟩⟩ <;> rw [hl] at hsuffix ⊢
  · exact hsuffix
  · exact hsuffix
  · exact .inr (hq ▸ List.mem_cons_self ..)
  · exact .inr (hq ▸ List.mem_cons_self ..)

/-- Consuming takes a token off the front or nothing at all. -/
theorem TokenStream.consume_suffix (s : TokenStream) : s.consume.queue <:+ s.queue := by
  rcases ha : s.ahead? with _ | k | _
  · have hsame : s.consume = s := by rw [consume, ha]
    exact hsame.symm ▸ List.suffix_rfl
  · rw [(consume_of_token ha).1, queue_of_token ha]
    exact List.suffix_cons ..
  · exact (consume_of_end ha).symm ▸ List.suffix_rfl

end Replies

namespace Parser

variable {α β : Type} {E : Error → Prop}

/-- Whether a parser fails by errors of some kind or of the text only. -/
def FailsBy (E : Error → Prop) (p : Parser α) : Prop :=
  ∀ s : TokenStream, s.IsLexical → (p.run s).FailsBy E s

theorem FailsBy.pure (a : α) : FailsBy E (pure a : Parser α) := fun _ _ => List.suffix_rfl

theorem FailsBy.fail {e : Error} (he : E e) : FailsBy E (fail e : Parser α) :=
  fun _ _ => .inl he

/-- What is looked up fails by the errors of the lookup. -/
theorem FailsBy.ofExcept {x : Except Error α} (hx : ∀ e, x = .error e → E e) :
    FailsBy E (ofExcept x) := by
  rcases x with e | a
  · exact .fail (hx e rfl)
  · exact .pure a

/-- What is put behind a parser has to fail by errors of the kind where the parser has been. -/
theorem FailsBy.bind_of_ok {p : Parser α} {f : α → Parser β} (hp : p.FailsBy E)
    (hf : ∀ s a t, s.IsLexical → p.run s = .ok a t → (f a).FailsBy E) :
    (p >>= f).FailsBy E := by
  intro s hs
  have hps := hp s hs
  rw [run_bind]
  rcases hr : p.run s with ⟨a, t⟩ | ⟨e, t⟩ <;> rw [hr] at hps
  · exact (hf s a t hs hr t (TokenStream.isLexical_of_suffix hps hs)).of_suffix hps
  · exact hps

/-- A failure of the second parser comes from what the first has left. -/
theorem FailsBy.bind {p : Parser α} {f : α → Parser β} (hp : p.FailsBy E)
    (hf : ∀ a, (f a).FailsBy E) : (p >>= f).FailsBy E :=
  hp.bind_of_ok fun _ a _ _ _ => hf a

/-- A choice fails by what its branches fail by. -/
theorem FailsBy.ite {c : Prop} [Decidable c] {p q : Parser α} (hp : p.FailsBy E)
    (hq : q.FailsBy E) : (if c then p else q).FailsBy E := by
  split
  · exact hp
  · exact hq

theorem failsBy_lookahead : FailsBy E lookahead := fun s _ => s.failsBy_lookahead

theorem failsBy_consume : FailsBy E consume := fun s _ => s.consume_suffix

theorem failsBy_peekKind : FailsBy E peekKind := failsBy_lookahead.bind fun _ => .pure _

/-- A word that may be missing is never missed. -/
theorem failsBy_nextIf (text : String) : FailsBy E (nextIf text) :=
  failsBy_lookahead.bind fun _ => .ite (failsBy_consume.bind fun _ => .pure _) (.pure _)

/-- A word that has to be there is missed by an error that names it. -/
theorem failsBy_expect {text : String} (he : ∀ found, E (.expectedText text found)) :
    FailsBy E (expect text) :=
  failsBy_lookahead.bind fun _ =>
    .ite (failsBy_consume.bind fun _ => .pure _) (.fail (he _))

/-- A token of a kind that has to be there is missed by an error that names the kind. -/
theorem failsBy_expectKind {kind : Token.Kind}
    (he : ∀ found, E (.expectedKind kind.name found)) : FailsBy E (expectKind kind) :=
  failsBy_lookahead.bind fun _ =>
    .ite (failsBy_consume.bind fun _ => .pure _) (.fail (he _))

/-- A list fails by what its items fail by. The induction is on what remains of the stream. -/
theorem failsBy_more {separator : String} (hsep : separator ≠ Lookahead.endOfInput.text)
    {item : Parser α} (hitem : item.FailsBy E) : (more separator item hsep).FailsBy E := by
  intro s
  -- Behind each item the rest of the list is met again.
  refine more_induction hsep (p := item)
    (motive := fun s => s.IsLexical → ((more separator item hsep).run s).FailsBy E s)
    (fun s ih hs => ?_) s
  have hst := failsBy_nextIf (E := E) separator s hs
  rw [more_eq, run_bind]
  rcases hn : (nextIf separator).run s with ⟨b, t⟩ | ⟨e, t⟩ <;> rw [hn] at hst
  · rcases b with _ | _
    · exact hst
    · have ht := TokenStream.isLexical_of_suffix hst hs
      have htu := hitem t ht
      dsimp only
      rw [if_pos rfl, run_bind]
      refine Reply.FailsBy.of_suffix ?_ hst
      rcases hi : item.run t with ⟨a, u⟩ | ⟨e, u⟩ <;> rw [hi] at htu
      · have hrest := ih t u a hn hi (TokenStream.isLexical_of_suffix htu ht)
        dsimp only
        rw [run_bind]
        refine Reply.FailsBy.of_suffix ?_ htu
        rcases hm : (more separator item hsep).run u with ⟨as, v⟩ | ⟨e, v⟩ <;> rw [hm] at hrest
        · exact hrest
        · exact hrest
      · exact htu
  · exact hst

/-- The first item of a list fails like any other. -/
theorem failsBy_separated {separator : String} (hsep : separator ≠ Lookahead.endOfInput.text)
    {item : Parser α} (hitem : item.FailsBy E) : (separated separator item hsep).FailsBy E :=
  hitem.bind fun _ => (failsBy_more hsep hitem).bind fun _ => .pure _

end Parser

/-! ## 3. The rules of the grammar -/


section Lookups

variable {n m : Nat}

/-- A name under which no table is registered is reported. -/
theorem Catalog.isExternal_of_lookup {c : Catalog} {name : String} {e : Error}
    (h : c.lookup name = .error e) : e.IsExternal := by
  unfold lookup at h
  split at h
  · cases h
  · obtain rfl := Except.error.inj h
    exact ⟨rfl, rfl⟩

/-- A repeated title is reported, and nothing else can be wrong with titles. -/
theorem Table.isExternal_of_withTitles {name : String} {titles : List String} {e : Error}
    (h : withTitles name titles = .error e) : e.IsExternal := by
  unfold withTitles at h
  split at h
  · obtain rfl := Except.error.inj h
    exact ⟨rfl, rfl⟩
  · cases h

/-- Each of the three errors about a reference is reported. -/
theorem ColumnRef.isExternal_of_resolve {r : ColumnRef} {w : Workspace n m}
    {cursors : List (Fin m)} {e : Error} (h : r.resolve w cursors = .error e) :
    e.IsExternal := by
  unfold resolve at h
  split at h
  · cases h
  · split at h <;> obtain rfl := Except.error.inj h <;> exact ⟨rfl, rfl⟩
  · obtain rfl := Except.error.inj h
    exact ⟨rfl, rfl⟩

/-- Of several references the first that cannot be resolved is reported. -/
theorem ColumnRef.isExternal_of_resolveAll {rs : List ColumnRef} {w : Workspace n m}
    {cursors : List (Fin m)} {e : Error} (h : resolveAll w cursors rs = .error e) :
    e.IsExternal := by
  unfold resolveAll at h
  induction rs with
  | nil => cases h
  | cons r rs ih =>
    rw [List.mapM_cons] at h
    rcases hr : r.resolve w cursors with d | b <;> rw [hr] at h
    · exact (isExternal_of_resolve hr).of_eq h
    · rcases hrs : rs.mapM (·.resolve w cursors) with d | bs <;> rw [hrs] at h ih
      · exact ih h
      · cases h

end Lookups

namespace Statement

open FlatQuery.Parser

/-- Whether a parser reports nothing but what the text is to blame for. -/
abbrev Reports {α : Type} (p : Parser α) : Prop :=
  p.FailsBy Error.IsExternal

/-- An error about a missing word is reported. -/
theorem reports_word (text : String) : Reports (expect text) :=
  failsBy_expect fun _ => ⟨rfl, rfl⟩

/-- An error about a missing kind of token is reported. -/
theorem reports_kind (kind : Token.Kind) : Reports (expectKind kind) :=
  failsBy_expectKind fun _ => ⟨rfl, rfl⟩

theorem reports_literal : Reports literal :=
  (reports_kind _).bind fun _ => .pure _

theorem reports_columnRef : Reports columnRef :=
  (reports_kind _).bind fun _ => (failsBy_nextIf _).bind fun _ =>
    .ite ((reports_kind _).bind fun _ => .pure _) (.pure _)

/-- The name of a table is missing, or no table is registered under it. -/
theorem reports_tableName (c : Catalog) : Reports (tableName c) :=
  (reports_kind _).bind fun _ => .ofExcept fun _ => Catalog.isExternal_of_lookup

/-- A reference is missing, or cannot be resolved among the sources. -/
theorem reports_boundColumn (sources : List Table) :
    Reports (boundColumn sources) :=
  reports_columnRef.bind fun _ => .ofExcept fun _ => ColumnRef.isExternal_of_resolve

/-- An operand is a literal or a reference, and fails as they do. -/
theorem reports_operand (sources : List Table) : Reports (operand sources) :=
  failsBy_peekKind.bind fun _ => .ite (reports_literal.bind fun _ => .pure _)
    ((reports_boundColumn sources).bind fun _ => .pure _)

/-- **The sign of a condition is always found**, since only signs are tokens of its kind. -/
theorem reports_condition (sources : List Table) : Reports (condition sources) := by
  refine (reports_boundColumn sources).bind fun left => ?_
  refine (reports_kind _).bind_of_ok fun s symbol t hs hr => ?_
  obtain ⟨r, rfl⟩ : ∃ r : Relation, symbol = r.symbol := hs _ (expectKind_ok hr).1
  refine (reports_operand sources).bind fun right => .ofExcept fun e he => ?_
  rw [Condition.ofSymbol, Relation.ofSymbol?_symbol] at he
  cases he

theorem reports_whereClause (sources : List Table) :
    Reports (whereClause sources) :=
  (failsBy_nextIf _).bind fun _ =>
    .ite (failsBy_separated _ (reports_condition sources)) (.pure _)

/-- A query fails in its parts, or because it has too many sources. -/
theorem reports_query (c : Catalog) (resultName : String) :
    Reports (query c resultName) := by
  refine (failsBy_separated _ reports_columnRef).bind fun refs => ?_
  refine .bind (.ofExcept fun _ => Table.isExternal_of_withTitles) fun result => ?_
  refine (reports_word _).bind fun _ => ?_
  refine (failsBy_separated _ (reports_tableName c)).bind fun entries => ?_
  refine .ite (.fail ⟨rfl, rfl⟩) ?_
  refine (reports_whereClause _).bind fun conditions => ?_
  exact .bind (.ofExcept fun _ => ColumnRef.isExternal_of_resolveAll) fun _ => .pure _

/-- A definition fails in its parts, or by a repeated title. -/
theorem reports_definition (c : Catalog) (tableName : String) :
    Reports (definition c tableName) := by
  refine (failsBy_nextIf _).bind fun _ => .ite ?_ ?_
  · refine (failsBy_separated _ (reports_kind _)).bind fun titles => ?_
    refine (reports_word _).bind fun _ => ?_
    exact .bind (.ofExcept fun _ => Table.isExternal_of_withTitles) fun _ => .pure _
  · refine (reports_word _).bind fun _ => (reports_word _).bind fun _ => ?_
    exact (reports_query c tableName).bind fun _ => .pure _

/-- A list of values fails where a value or a mark is missing. -/
theorem reports_values : Reports values := by
  refine (failsBy_nextIf _).bind fun _ => ?_
  refine (failsBy_separated _ reports_literal).bind fun vs => .ite ?_ (.pure vs)
  exact (reports_word _).bind fun _ => .pure vs

/-- Whatever the keyword, the body behind it fails by external errors. -/
theorem reports_body {c : Catalog} {keyword : String} {p : Parser Statement}
    (h : body? c keyword = some p) : Reports p := by
  have hnamed (build : String → Statement) : Reports (namedBody build) :=
    (reports_kind _).bind fun _ => (reports_word _).bind fun _ => .pure _
  have hexit : Reports exitBody := (reports_word _).bind fun _ => .pure _
  unfold body? at h
  split at h
  all_goals first | injection h with h; rw [← h] | cases h
  · refine (reports_word _).bind fun _ => (reports_kind _).bind fun tableName => ?_
    exact (reports_definition c tableName).bind fun _ => (reports_word _).bind fun _ => .pure _
  · refine (reports_word _).bind fun _ => (reports_tableName c).bind fun _ => ?_
    refine (reports_word _).bind fun _ => ?_
    exact reports_values.bind fun _ => (reports_word _).bind fun _ => .pure _
  · exact hnamed _
  · exact hnamed _
  · exact hnamed _
  · exact (reports_query c selectionName).bind fun _ => (reports_word _).bind fun _ => .pure _
  · exact hexit
  · exact hexit

/-- **A statement that cannot be read is to blame itself.** -/
theorem reports_next? (c : Catalog) : Reports (next? c) := by
  refine failsBy_lookahead.bind fun a => ?_
  rcases a with k | _
  · dsimp only
    rcases hbody : body? c k.text with _ | p
    · exact .fail ⟨rfl, rfl⟩
    · exact failsBy_consume.bind fun _ => (reports_body hbody).bind fun _ => .pure _
  · exact .pure none

end Statement

/-! ## 4. Files -/

/-- A file's content can be wrong in its header or in the width of a line. The row of a line that
fits is never refused. -/
theorem Table.isExternal_of_decode {name content : String} {e : Error}
    (h : decode name content = .error e) : e.IsExternal := by
  unfold decode at h
  split at h
  · obtain rfl := Except.error.inj h
    exact ⟨rfl, rfl⟩
  · rename_i header lines _
    rcases ht : withTitles name (decodeLine header) with d | t <;> rw [ht] at h
    · exact (isExternal_of_withTitles ht).of_eq h
    · obtain ⟨before, record, after, -, -, -, rfl⟩ := addLines_eq_error_iff.1 h
      exact ⟨rfl, rfl⟩

namespace Database

variable {db : Database} {name : String} {e : Error}

/-- A file is missing, cannot be read, or has a content that is no table. Its path holds no null
character, as neither the directory nor the name does. -/
theorem isExternal_of_readTable (hname : '\x00' ∉ name.toList)
    (h : db.readTable name = .error e) : e.IsExternal := by
  rw [readTable, holdsNull_pathOf hname, if_neg Bool.false_ne_true] at h
  split at h
  · obtain rfl := Except.error.inj h
    exact ⟨rfl, rfl⟩
  · obtain rfl := Except.error.inj h
    exact ⟨rfl, rfl⟩
  · split at h
    · obtain rfl := Except.error.inj h
      exact ⟨rfl, rfl⟩
    · exact Table.isExternal_of_decode h

/-- Whatever a file holds, and whatever stands in its place. -/
theorem isExternal_of_load (hname : '\x00' ∉ name.toList) (h : db.load name = .error e) :
    e.IsExternal := by
  unfold load at h
  split at h
  · rename_i d hread
    exact (isExternal_of_readTable hname hread).of_eq h
  · cases h

/-- A store fails for want of the table, or at its file. -/
theorem isExternal_of_store (hname : '\x00' ∉ name.toList) (h : db.store name = .error e) :
    e.IsExternal := by
  unfold store at h
  split at h
  · rename_i d hlookup
    exact (Catalog.isExternal_of_lookup hlookup).of_eq h
  · rw [writeTable, holdsNull_pathOf hname, if_neg Bool.false_ne_true] at h
    split at h
    · obtain rfl := Except.error.inj h
      exact ⟨rfl, rfl⟩
    · cases h

end Database

/-! ## 5. Statements that cannot be carried out -/

/-- A chain of two steps fails in the first or in the second. -/
theorem of_bind_eq_error {α β : Type} {x : Except Error α} {f : α → Except Error β} {e : Error}
    (h : x >>= f = .error e) : x = .error e ∨ ∃ a, x = .ok a ∧ f a = .error e := by
  rcases x with d | a
  · exact .inl (congrArg _ (Except.error.inj h))
  · exact .inr ⟨a, rfl, h⟩

/-- **A statement that was read and cannot be carried out meets no internal error.** -/
theorem Statement.isExternal_of_execute {db : Database} {cmd : Command} {st : Statement}
    {e : Error} (hlexical : cmd.IsLexical) (hreads : cmd.Reads db.catalog st)
    (h : st.execute db = .error e) : e.IsExternal := by
  rcases hreads with
    @⟨n, body, d, ht | hq⟩ | @⟨target, values, _, entry, he⟩ | n | n | n | hq | _ | _
  -- The table of a creation was made when the statement was read, and a query that was read can be
  -- answered.
  · cases h
  · obtain ⟨r, hr⟩ := execute_create_isOk db n hq.isBound
    cases hr.symm.trans h
  · by_cases hwidth : (values.toList.map literalValue).length = entry.table.width
    · obtain ⟨r, hr⟩ := (execute_insert_isOk_iff db).2 hwidth
      cases hr.symm.trans h
    · rw [execute, if_pos hwidth] at h
      obtain rfl := Except.error.inj h
      exact ⟨rfl, rfl⟩
  -- The names in a command hold no null character.
  · rcases of_bind_eq_error h with h | ⟨u, -, h⟩
    · exact Database.isExternal_of_load
        (hlexical.notMem_null (List.mem_cons_of_mem _ (List.mem_singleton_self _))) h
    · cases h
  · rcases of_bind_eq_error h with h | ⟨u, -, h⟩
    · exact Database.isExternal_of_store
        (hlexical.notMem_null (List.mem_cons_of_mem _ (List.mem_singleton_self _))) h
    · cases h
  · rcases of_bind_eq_error h with h | ⟨entry, -, h⟩
    · exact Catalog.isExternal_of_lookup h
    · cases h
  · obtain ⟨r, hr⟩ := execute_select_isOk db hq.isBound
    cases hr.symm.trans h
  · cases h
  · cases h

/-! ## 6. Turns -/

namespace TokenStream

/-- What reading fails by is a lexical error, or that the bytes are not text. -/
theorem error_of_read {s t : TokenStream} {e : Error} (h : s.read = .fail e t) :
    (∃ f, e = .lexical f) ∨ ∃ f, e = .inputEncoding f := by
  fun_induction read s with
  | case1 s d scanner hn k hf => cases h
  | case2 s d scanner hn f hf =>
    injection h with he
    exact .inl ⟨f, he.symm⟩
  | case3 s scanner hn u hx => cases h
  | case4 s scanner hn u hx text source hl ih => exact ih h
  | case5 s scanner hn u hx hl => cases h
  | case6 s scanner hn u hx f hl =>
    injection h with he
    exact .inr ⟨f, he.symm⟩

/-- The errors that a stream gives are those of reading. -/
theorem error_mem_queue {s : TokenStream} {e : Error} (h : .error e ∈ s.queue) :
    (∃ f, e = .lexical f) ∨ ∃ f, e = .inputEncoding f := by
  have hcoming : .error e ∈ s.coming := by
    unfold queue at h
    split at h
    · exact h
    · exact (List.mem_cons.1 h).resolve_left (by simp)
    · cases h
  clear h
  fun_induction coming s with
  | case1 s k t hr ih => exact ih ((List.mem_cons.1 hcoming).resolve_left (by simp))
  | case2 s t hr => cases hcoming
  | case3 s d t hr he ih =>
    rcases List.mem_cons.1 hcoming with hd | hmem
    · injection hd with hd
      exact hd ▸ error_of_read hr
    · exact ih hmem
  | case4 s d t hr he =>
    injection List.mem_singleton.1 hcoming with hd
    exact hd ▸ error_of_read hr

end TokenStream

namespace Session

/-- What a statement fails by comes from outside, or is an error that the stream gives. -/
theorem isExternal_or_mem_of_failsBy {s : Session} (hs : s.stream.IsLexical) {e : Error}
    (h : s.FailsBy e) : e.IsExternal ∨ .error e ∈ s.stream.queue := by
  rcases h with ⟨t, hr⟩ | ⟨cmd, st, hlexical, hreads, hst⟩
  · have hfails := Statement.reports_next? s.database.catalog s.stream hs
    rwa [hr] at hfails
  · exact .inl (Statement.isExternal_of_execute hlexical hreads hst)

/-- A statement that succeeds shows lines and reports nothing. -/
theorem failure_mem_of_success {s u : Session} {a : Advance} (hst : s.statement = (.ok a, u))
    {e : Error} (h : .failure e ∈ u.printed) : .failure e ∈ s.printed := by
  rw [statement_eq] at hst
  rcases hr : (Statement.next? s.database.catalog).run s.stream with ⟨_ | st, t⟩ | ⟨d, t⟩ <;>
    rw [hr] at hst
  · rw [← (Prod.mk.inj hst).2, printed_readTo] at h
    exact h
  · dsimp only at hst
    rcases hex : st.execute s.database with d | ⟨db, lines⟩ <;> rw [hex] at hst
    · cases hst
    · rw [← (Prod.mk.inj hst).2, printed_carryOut, printed_readTo] at h
      rcases List.mem_append.1 h with h | h
      · exact h
      · obtain ⟨text, -, htext⟩ := List.mem_map.1 h
        cases htext
  · cases hst

/-- **What a turn reports is external.** It reports the error that its statement fails by, if
that belongs to the statement, and no other. Where the lines come from plays no part. -/
theorem turn_reports {s : Session} (hs : s.stream.IsLexical) {e : Error}
    (h : .failure e ∈ s.turn.session.printed) : .failure e ∈ s.printed ∨ e.IsExternal := by
  rcases hst : s.statement with ⟨d | a, u⟩
  · rcases hd : d.isStatementError with _ | _
    -- The turn ends with the error, which is not shown.
    · rw [turn, hst] at h
      dsimp only at h
      rw [recover, if_neg (by simp [hd])] at h
      exact .inl ((statement_of_failure hst).2 ▸ h)
    · rw [(turn_of_failure hst hd).2] at h
      rcases List.mem_append.1 h with h | h
      · exact .inl h
      · obtain rfl : e = d := Shown.failure.inj (List.mem_singleton.1 h)
        rcases isExternal_or_mem_of_failsBy hs (failsBy_of_statement hs hst) with hexternal | hmem
        · exact .inr hexternal
        · rcases TokenStream.error_mem_queue hmem with ⟨f, rfl⟩ | ⟨f, rfl⟩
          · exact .inr ⟨rfl, rfl⟩
          · cases hd
  · have hsession : s.turn.session = u := by
      rw [turn, hst]
      rcases a with _ | _ | _ <;> rfl
    exact .inl (failure_mem_of_success hst (hsession ▸ h))

end Session

end FlatQuery
