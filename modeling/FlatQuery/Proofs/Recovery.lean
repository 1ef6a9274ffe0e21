import FlatQuery.Proofs.Acceptance
import FlatQuery.Proofs.Atomicity
import FlatQuery.Proofs.Lines

/-!
# Where the next statement begins

Whatever becomes of a statement, the next one begins behind its semicolon. An error can
strike anywhere: at the first token, in the middle of a list, at a fault that is met while
looking ahead, or when the semicolon is consumed and the statement is being carried out. The
session has only the number of tokens it has consumed and the last of them to tell where it
stands, and passes on to the next semicolon or not accordingly.

That it is right every time is said for two sessions at once. They have the same database
and the same statement before them, but stand in different lines and have different texts
behind the statement. A turn then does the same in both and leaves each behind its own
semicolon (`Session.turn_agree`). One session by itself is a pair with itself, which gives
`Session.queue_of_going`.
-/

set_option autoImplicit false

namespace FlatQuery

open FlatQuery.Phrase

/-! ## 1. Errors of statements that were read -/

/-- Whether the tokens of a command are written as their kinds are, as those of a text. -/
def Phrase.Command.IsLexical (cmd : Command) : Prop := ∀ k ∈ cmd.spell, k.IsLexical

/-- A name holds no characters but those of names. -/
theorem Token.IsLexical.notMem_name {n : String} (h : (Token.ofName n).IsLexical) {c : Char}
    (hc : isNamePart c = false) : c ∉ n.toList := by
  obtain ⟨d, ds, rfl : n = _, hd, hds⟩ := h
  rw [String.toList_ofList]
  intro hmem
  have hpart : isNamePart c = true := by
    rcases List.mem_cons.1 hmem with rfl | hmem
    · rw [isNamePart, hd, Bool.true_or]
    · exact hds c hmem
  exact Bool.false_ne_true (hc.symm.trans hpart)

/-- The name of a file holds no null character, since names of tables do not. -/
theorem Phrase.Command.IsLexical.notMem_null {cmd : Command} (h : cmd.IsLexical) {n : String}
    (hn : Token.ofName n ∈ cmd.spell) : '\x00' ∉ n.toList :=
  (h _ hn).notMem_name (by decide)

/-- A line of a file is numbered in the file, and the file is the same in both. -/
theorem Table.isUnplaced_of_addLines {t : Table} {file : String} {number : Nat}
    {lines : List (List Char)} {e : Error} (h : t.addLines file number lines = .error e) :
    e.IsUnplaced := by
  induction lines generalizing t number with
  | nil => simp [addLines] at h
  | cons line lines ih =>
    unfold addLines at h
    dsimp only at h
    split at h
    · exact ih h
    · exact .of_eq ⟨rfl, fun _ => rfl⟩ h

/-- What is wrong with a file's content does not depend on the statement's line. -/
theorem Table.isUnplaced_of_decode {name content : String} {e : Error}
    (h : decode name content = .error e) : e.IsUnplaced := by
  unfold decode at h
  split at h
  · exact .of_eq ⟨rfl, fun _ => rfl⟩ h
  · rename_i header lines _
    rcases ht : withTitles name (decodeLine header) with d | t <;> rw [ht] at h
    · exact (isUnplaced_of_withTitles ht).of_eq h
    · exact isUnplaced_of_addLines h

namespace Database

/-- A load that fails names the file. -/
theorem isUnplaced_of_load {db : Database} {name : String} {e : Error}
    (hname : '\x00' ∉ name.toList) (h : db.load name = .error e) : e.IsUnplaced := by
  have hread : db.readTable name = .error e := by
    unfold load at h
    rcases hr : db.readTable name with d | t <;> rw [hr] at h
    · injection h with h
      rw [h]
    · simp at h
  rw [readTable, holdsNull_pathOf hname, if_neg Bool.false_ne_true] at hread
  split at hread
  · exact .of_eq ⟨rfl, fun _ => rfl⟩ hread
  · exact .of_eq ⟨rfl, fun _ => rfl⟩ hread
  · split at hread
    · exact .of_eq ⟨rfl, fun _ => rfl⟩ hread
    · exact Table.isUnplaced_of_decode hread

/-- A store that fails names the table or the file. -/
theorem isUnplaced_of_store {db : Database} {name : String} {e : Error}
    (hname : '\x00' ∉ name.toList) (h : db.store name = .error e) : e.IsUnplaced := by
  unfold store at h
  rcases hl : db.catalog.lookup name with d | entry <;> rw [hl] at h
  · exact (Catalog.isUnplaced_of_lookup hl).of_eq h
  · dsimp only at h
    rw [writeTable, holdsNull_pathOf hname, if_neg Bool.false_ne_true] at h
    split at h
    · exact .of_eq ⟨rfl, fun _ => rfl⟩ h
    · simp at h

end Database

/-- An error of a statement that was read belongs to the statement, wherever it stood. -/
theorem Statement.isUnplaced_of_execute {db : Database} {cmd : Command} {st : Statement}
    {e : Error} (hlexical : cmd.IsLexical) (hreads : cmd.Reads db.catalog st)
    (h : st.execute db = .error e) : e.IsUnplaced := by
  rcases hreads with
    @⟨n, body, d, ht | hq⟩ | @⟨target, values, _, entry, he⟩ | n | n | n | hq | _ | _
  -- The table of a creation was made when the statement was read.
  · simp [execute, Definition.table, bind, Except.bind, pure, Except.pure] at h
  · obtain ⟨r, hr⟩ := execute_create_isOk db n hq.isBound
    rw [hr] at h
    simp at h
  · by_cases hwidth : (values.toList.map literalValue).length = entry.table.width
    · obtain ⟨r, hr⟩ := (execute_insert_isOk_iff db).2 hwidth
      rw [hr] at h
      simp at h
    · rw [execute, if_pos hwidth] at h
      exact .of_eq ⟨rfl, fun _ => rfl⟩ h
  · rw [execute] at h
    rcases hload : db.load n with d | db' <;> rw [hload] at h
    · have hname := hlexical.notMem_null (List.mem_cons_of_mem _ (List.mem_singleton_self _))
      exact (Database.isUnplaced_of_load hname hload).of_eq h
    · simp [bind, Except.bind, pure, Except.pure] at h
  · rw [execute] at h
    rcases hstore : db.store n with d | db' <;> rw [hstore] at h
    · have hname := hlexical.notMem_null (List.mem_cons_of_mem _ (List.mem_singleton_self _))
      exact (Database.isUnplaced_of_store hname hstore).of_eq h
    · simp [bind, Except.bind, pure, Except.pure] at h
  · rw [execute] at h
    rcases hlookup : db.catalog.lookup n with d | entry <;> rw [hlookup] at h
    · exact (Catalog.isUnplaced_of_lookup hlookup).of_eq h
    · simp [bind, Except.bind, pure, Except.pure] at h
  · obtain ⟨r, hr⟩ := execute_select_isOk db hq.isBound
    rw [hr] at h
    simp at h
  · simp [execute, pure, Except.pure] at h
  · simp [execute, pure, Except.pure] at h

namespace Session

/-- What is read of a text is a command that is written as texts write it. -/
theorem reads_of_next? {s : Session} (hs : s.stream.IsLexical) {st : Statement}
    {t : TokenStream} (h : (Statement.next? s.database.catalog).run s.stream = .ok (some st) t) :
    ∃ cmd : Command, cmd.IsLexical ∧ cmd.Reads s.database.catalog st := by
  obtain ⟨cmd, hreads, htakes⟩ := Statement.next?_finds hs h
  exact ⟨cmd, fun k hk => hs k (mem_of_spelled htakes.queue_eq hk), hreads⟩

/-! ## 2. Going on after an error -/

/-- A reader who still stands within the statement passes the rest of it. -/
theorem recover_within {s : Session} {e : Error} (he : e.isStatementError = true) {n : Nat}
    {part : List Arrival} {after : Option (List Arrival)} (hpart : ∀ x ∈ part, x.IsInner)
    (h : Within n part after s.stream) :
    ∃ t, s.recover n e = .going t ∧ t.database = s.database ∧
      t.printed = s.printed ++ [.failure e] ∧ t.stream.queue = after.getD [] ∧
      (after.isSome = true → t.stream.ahead? = none) := by
  obtain ⟨u, hskip, hqueue, hahead⟩ := Parser.skip_of_queue hpart h.queue_eq
  have hskip' : (s.tell [.failure e]).skip = (.ok (), (s.tell [.failure e]).readTo u) := by
    rw [skip, parse, show (s.tell [.failure e]).stream = s.stream from rfl, hskip]
  have hplace : (s.tell [.failure e]).stream.consumed = n ∨
      (s.tell [.failure e]).stream.atStatementStart = false := by
    refine h.mid.imp id fun hmid => ?_
    change (!s.stream.midStatement) = false
    rw [hmid]
    rfl
  refine ⟨(s.tell [.failure e]).readTo u, ?_, rfl, ?_, ?_, hahead⟩
  · rw [recover, if_pos he]
    dsimp only
    rw [if_pos hplace, hskip']
  · rw [printed_readTo]
    exact printed_tell s _
  · rw [queue_readTo, hqueue]

/-- A reader who has consumed the semicolon goes on where he stands. -/
theorem recover_behind {s : Session} {e : Error} (he : e.isStatementError = true) {n : Nat}
    {rest : List Arrival} (h : Behind n rest s.stream) :
    s.recover n e = .going (s.tell [.failure e]) := by
  rw [recover, if_pos he]
  dsimp only
  rw [if_neg]
  rintro (hconsumed | hstart)
  · exact Nat.ne_of_gt h.start_lt hconsumed
  · change (!s.stream.midStatement) = false at hstart
    rw [h.mid] at hstart
    exact Bool.noConfusion hstart

end Session

/-- Putting requests on record moves nothing within the statement. -/
theorem Within.forgetRequests {n : Nat} {part : List Arrival} {after : Option (List Arrival)}
    {s : TokenStream} (h : Within n part after s) : Within n part after s.forgetRequests :=
  ⟨s.queue_forgetRequests.trans h.queue_eq, h.start_le, h.mid⟩

/-- Putting requests on record moves nothing behind it. -/
theorem Behind.forgetRequests {n : Nat} {rest : List Arrival} {s : TokenStream}
    (h : Behind n rest s) : Behind n rest s.forgetRequests :=
  ⟨s.queue_forgetRequests.trans h.queue_eq, h.start_lt, h.mid, h.ahead⟩

/-! ## 3. Two sessions at one statement -/

/-- The same shown so many lines further down. -/
def Shown.delay (k : Nat) : Shown → Shown
  | .failure e => .failure (e.delay k)
  | x => x

theorem map_delay_zero_shown (t : Transcript) : t.map (Shown.delay 0) = t := by
  refine (List.map_congr_left fun x _ => ?_).trans (List.map_id _)
  rcases x with r | text | e
  · rfl
  · rfl
  · change Shown.failure (e.delay 0) = _
    rw [Error.delay_zero]
    rfl

/-- Lines that are shown name no line of the text. -/
theorem map_delay_lines (k : Nat) (lines : List String) :
    (lines.map Shown.line).map (Shown.delay k) = lines.map .line := by
  rw [List.map_map]
  rfl

namespace Session

/-- Whether two sessions with one database come to one database again and print the same on
the way, the first of them so many lines further down. -/
structure Agree (k : Nat) (s s' t t' : Session) : Prop where
  database : t.database = t'.database
  printed : ∃ more : Transcript, t.printed = s.printed ++ more.map (Shown.delay k) ∧
    t'.printed = s'.printed ++ more

/-- What two sessions have shown in step adds up. -/
theorem Agree.trans {k : Nat} {s s' t t' u u' : Session} (h : Agree k s s' t t')
    (h' : Agree k t t' u u') : Agree k s s' u u' := by
  obtain ⟨more, ht, ht'⟩ := h.printed
  obtain ⟨more', hu, hu'⟩ := h'.printed
  refine ⟨h'.database, more ++ more', ?_, ?_⟩
  · rw [hu, ht, List.map_append, List.append_assoc]
  · rw [hu', ht', List.append_assoc]

/-- Where nothing is further down, the same is printed. -/
theorem Agree.printed_eq {s s' t t' : Session} (h : Agree 0 s s' t t')
    (hs : s.printed = s'.printed) : t.printed = t'.printed := by
  obtain ⟨more, ht, ht'⟩ := h.printed
  rw [ht, ht', hs, map_delay_zero_shown]

/-- Two sessions with one database, a statement before both of them. -/
structure Abreast (P : Pair) (s s' : Session) : Prop where
  database : s.database = s'.database
  inside : P.Inside s.stream s'.stream
  before : P.before = s.stream.consumed
  before' : P.before' = s'.stream.consumed
  lexical : s'.stream.IsLexical

/-- What two turns have to do with each other: both are the last for one reason, or both are
not and lead behind the statement. -/
def Progress.Agree (P : Pair) (s s' : Session) : Progress → Progress → Prop
  | .ended t how, .ended t' how' =>
    how = how' ∧ Session.Agree P.delay s s' t t' ∧
      (how = .left ∨ how = .inputEnded ∧ P.after = none)
  | .going t, .going t' =>
    Session.Agree P.delay s s' t t' ∧ t.stream.queue = P.after.getD [] ∧
      t'.stream.queue = P.after'.getD []
  | _, _ => False

/-- Two turns that agree both end their sessions, and in the same way, or both go on behind the
statement. -/
theorem Progress.Agree.cases {P : Pair} {s s' : Session} {x y : Progress}
    (h : Progress.Agree P s s' x y) :
    (∃ t t' how, x = .ended t how ∧ y = .ended t' how ∧ Session.Agree P.delay s s' t t' ∧
      (how = .left ∨ how = .inputEnded ∧ P.after = none)) ∨
    (∃ t t', x = .going t ∧ y = .going t' ∧ Session.Agree P.delay s s' t t' ∧
      t.stream.queue = P.after.getD [] ∧ t'.stream.queue = P.after'.getD []) := by
  rcases x with ⟨t, how⟩ | t <;> rcases y with ⟨t', how'⟩ | t'
  · obtain ⟨rfl, hagree, hhow⟩ := h
    exact .inl ⟨t, t', how, rfl, rfl, hagree, hhow⟩
  · exact h.elim
  · exact h.elim
  · obtain ⟨hagree, hq, hq'⟩ := h
    exact .inr ⟨t, t', rfl, rfl, hagree, hq, hq'⟩

/-- Two sessions agree when they report one error, the first of them further down. -/
theorem agree_of_failure {k : Nat} {s s' t t' : Session} (e : Error)
    (hdatabase : t.database = t'.database) (ht : t.printed = s.printed ++ [.failure (e.delay k)])
    (ht' : t'.printed = s'.printed ++ [.failure e]) : Agree k s s' t t' :=
  ⟨hdatabase, [.failure e], ht, ht'⟩

variable {P : Pair} {s s' : Session}

/-- Both sessions have read one statement, and carry it out or not. -/
theorem turn_agree_of_read (h : Abreast P s s') {st : Statement} {u u' : TokenStream}
    (hr : (Statement.next? s.database.catalog).run s.stream = .ok (some st) u)
    (hr' : (Statement.next? s'.database.catalog).run s'.stream = .ok (some st) u')
    (hpast : P.Past u u') : Progress.Agree P s s' s.turn s'.turn := by
  obtain ⟨rest, rest', hafter, hafter', hbehind, hbehind'⟩ := hpast
  rcases hst' : st.execute s'.database with e | ⟨db, lines⟩
  -- The error of a statement that was read names no line, so it is the same in both sessions.
  · obtain ⟨cmd, hlexical, hreads⟩ := reads_of_next? h.lexical hr'
    have he : e.IsUnplaced := Statement.isUnplaced_of_execute hlexical hreads hst'
    have hst : st.execute s.database = .error e := by rw [h.database, hst']
    rw [turn_of_refused hr hst, turn_of_refused hr' hst', ← h.before, ← h.before',
      recover_behind he.ofStatement (s := s.readTo u) hbehind.forgetRequests,
      recover_behind he.ofStatement (s := s'.readTo u') hbehind'.forgetRequests]
    refine ⟨agree_of_failure e h.database ?_ ?_, ?_, ?_⟩
    · rw [he.delay_eq, printed_tell, printed_readTo]
      rfl
    · rw [printed_tell, printed_readTo]
      rfl
    · rw [hafter]
      exact (queue_readTo s u).trans hbehind.queue_eq
    · rw [hafter']
      exact (queue_readTo s' u').trans hbehind'.queue_eq
  -- The statement is carried out on one database, and shows the same lines.
  · have hst : st.execute s.database = .ok (db, lines) := by rw [h.database, hst']
    have hagree : Session.Agree P.delay s s' ((s.readTo u).carryOut db lines)
        ((s'.readTo u').carryOut db lines) := by
      refine ⟨rfl, lines.map .line, ?_, ?_⟩
      · rw [printed_carryOut, printed_readTo, map_delay_lines]
      · rw [printed_carryOut, printed_readTo]
    rw [turn_of_done hr hst, turn_of_done hr' hst']
    rcases st.continues with _ | _
    · exact ⟨rfl, hagree, .inl rfl⟩
    · refine ⟨hagree, ?_, ?_⟩
      · rw [hafter, queue_carryOut, queue_readTo]
        exact hbehind.queue_eq
      · rw [hafter', queue_carryOut, queue_readTo]
        exact hbehind'.queue_eq

/-- **Two sessions at one statement do the same, and then stand behind it.** -/
theorem turn_agree (h : Abreast P s s') : Progress.Agree P s s' s.turn s'.turn := by
  have hcatalog : s.database.catalog = s'.database.catalog := by rw [h.database]
  rcases Statement.next?_cases s.database.catalog h.inside with
    ⟨u, u', hr, hr', hafter, -, -⟩ | ⟨st, u, u', hr, hr', hpast⟩ | ⟨e, u, u', hr, hr', he, hin⟩ <;>
    rw [hcatalog] at hr'
  · rw [turn_of_end hr, turn_of_end hr']
    refine ⟨rfl, ⟨h.database, [], ?_, ?_⟩, .inr ⟨rfl, hafter⟩⟩
    · rw [printed_readTo, List.map_nil, List.append_nil]
    · rw [printed_readTo, List.append_nil]
  · exact turn_agree_of_read h hr hr' hpast
  -- The statement could not be read, and both pass the rest of it.
  · obtain ⟨part, hpart, hwithin, hwithin'⟩ := hin
    have hpart' : ∀ x ∈ part.map (Arrival.delay P.delay), x.IsInner := by
      intro x hx
      obtain ⟨y, hy, rfl⟩ := List.mem_map.1 hx
      exact Arrival.isInner_delay _ (hpart y hy)
    obtain ⟨t, ht, hdatabase, hprinted, hqueue, -⟩ := recover_within
      ((Error.isStatementError_delay P.delay e).trans he) hpart' (s := s.readTo u)
      hwithin.forgetRequests
    obtain ⟨t', ht', hdatabase', hprinted', hqueue', -⟩ := recover_within he hpart
      (s := s'.readTo u') hwithin'.forgetRequests
    rw [turn_of_fail hr, turn_of_fail hr', ← h.before, ← h.before', ht, ht']
    refine ⟨agree_of_failure e ?_ ?_ ?_, hqueue, hqueue'⟩
    · rw [hdatabase, hdatabase']
      exact h.database
    · rw [hprinted, printed_readTo]
    · rw [hprinted', printed_readTo]

end Session

/-! ## 4. Where a statement ends -/

/-- Whether an arrival is one that a text gives: a token written as its kind is, or an error
that belongs to a statement. -/
def Arrival.IsRegular : Arrival → Prop
  | .ok k => k.IsLexical
  | .error e => e.isStatementError = true

/-- What is behind the first statement of a queue, and so behind the first semicolon. -/
def behindFirst : List Arrival → List Arrival
  | [] => []
  | .ok k :: q => if k.text = ";" then q else behindFirst q
  | .error _ :: q => behindFirst q

/-- Behind the first semicolon is what comes after the statement, as there is none within it. -/
theorem behindFirst_append {part : List Arrival} (hpart : ∀ x ∈ part, x.IsInner)
    (after : Option (List Arrival)) : behindFirst (part ++ closing after) = after.getD [] := by
  induction part with
  | nil =>
    rcases after with _ | rest
    · rfl
    · rfl
  | cons x part ih =>
    have hrest := ih fun y hy => hpart y (List.mem_cons_of_mem _ hy)
    rcases x with e | k
    · exact hrest
    · rw [List.cons_append, behindFirst, if_neg (hpart (.ok k) (List.mem_cons_self ..))]
      exact hrest

/-- A queue is its first statement and what is behind that. -/
theorem exists_part {q : List Arrival} (hq : ∀ x ∈ q, x.IsRegular) :
    ∃ part after, (∀ x ∈ part, x.IsInner) ∧ q = part ++ closing after := by
  induction q with
  | nil => exact ⟨[], none, fun x hx => absurd hx List.not_mem_nil, rfl⟩
  | cons x q ih =>
    obtain ⟨part, after, hpart, rfl⟩ := ih fun y hy => hq y (List.mem_cons_of_mem _ hy)
    have hx := hq x (List.mem_cons_self ..)
    have hcons : x.IsInner → ∃ part' after', (∀ y ∈ part', y.IsInner) ∧
        x :: (part ++ closing after) = part' ++ closing after' := by
      intro hinner
      refine ⟨x :: part, after, ?_, rfl⟩
      rw [List.forall_mem_cons]
      exact ⟨hinner, hpart⟩
    rcases x with e | k
    · exact hcons hx
    · by_cases hk : k.text = ";"
      · refine ⟨[], some (part ++ closing after), fun x hx => absurd hx List.not_mem_nil, ?_⟩
        rw [show k = .terminator from Token.IsLexical.eq_of_text hx hk]
        rfl
      · exact hcons hk

namespace Session

/-- Two sessions with one database are abreast where the queue of one begins like that of
the other, so many lines further down. -/
theorem exists_abreast {s s' : Session} (hdatabase : s.database = s'.database) {k : Nat}
    {part : List Arrival} {after after' : Option (List Arrival)}
    (hpart : ∀ x ∈ part, x.IsInner) (halike : after.isSome = after'.isSome)
    (hq : s.stream.queue = part.map (Arrival.delay k) ++ closing after)
    (hq' : s'.stream.queue = part ++ closing after') (hlexical : s'.stream.IsLexical) :
    Abreast ⟨k, s.stream.consumed, s'.stream.consumed, after, after', halike⟩ s s' where
  database := hdatabase
  inside := ⟨part, hpart, ⟨hq, Nat.le_refl _, .inl rfl⟩, ⟨hq', Nat.le_refl _, .inl rfl⟩⟩
  before := rfl
  before' := rfl
  lexical := hlexical

/-! ## 5. One session -/

theorem map_delay_zero (q : List Arrival) : q.map (Arrival.delay 0) = q := by
  rw [List.map_congr_left fun x _ => Arrival.delay_zero x, List.map_id']

section Alone

variable {s t : Session} (hs : ∀ x ∈ s.stream.queue, x.IsRegular)
include hs

/-- A session is abreast of itself. -/
theorem exists_abreast_self :
    ∃ P : Pair, Abreast P s s ∧ P.after.getD [] = behindFirst s.stream.queue ∧
      (P.after = none → ∀ x ∈ s.stream.queue, x.IsInner) := by
  obtain ⟨part, after, hpart, hq⟩ := exists_part hs
  have hq' : s.stream.queue = part.map (Arrival.delay 0) ++ closing after := by
    rw [map_delay_zero, hq]
  refine ⟨_, exists_abreast rfl hpart rfl hq' hq fun k hk => hs (.ok k) hk, ?_, ?_⟩
  · rw [hq, behindFirst_append hpart]
  · rintro (rfl : after = none)
    rw [hq, closing, List.append_nil]
    exact hpart

/-- **The next statement begins behind the semicolon of the last.** Whether the last one
was carried out or failed, and where it failed, makes no difference. -/
theorem queue_of_going (h : s.turn = .going t) : t.stream.queue = behindFirst s.stream.queue := by
  obtain ⟨P, habreast, hafter, -⟩ := exists_abreast_self hs
  have hagree := turn_agree habreast
  rw [h] at hagree
  rw [← hafter]
  exact hagree.2.1

/-- No error ends the session: where it was not left, no semicolon was before it. -/
theorem ending_of_ended {how : Ending} (h : s.turn = .ended t how) :
    how = .left ∨ how = .inputEnded ∧ ∀ x ∈ s.stream.queue, x.IsInner := by
  obtain ⟨P, habreast, -, hnone⟩ := exists_abreast_self hs
  have hagree := turn_agree habreast
  rw [h] at hagree
  exact hagree.2.2.imp id (And.imp id hnone)

/-- Every error belongs to its statement. -/
theorem isStatementError_of_failure {e : Error} (h : s.statement = (.error e, t)) :
    e.isStatementError = true := by
  obtain ⟨P, habreast, -⟩ := exists_abreast_self hs
  rw [statement_eq] at h
  rcases hr : (Statement.next? s.database.catalog).run s.stream with ⟨_ | st, u⟩ | ⟨d, u⟩ <;>
    rw [hr] at h
  · simp at h
  · dsimp only at h
    rcases hst : st.execute s.database with d | ⟨db, lines⟩ <;> rw [hst] at h
    -- What was read cannot be carried out.
    · obtain ⟨cmd, hlexical, hreads⟩ := reads_of_next? habreast.lexical hr
      have he := Statement.isUnplaced_of_execute hlexical hreads hst
      exact (he.of_eq (Prod.mk.inj h).1).ofStatement
    · simp at h
  · obtain ⟨hd, -⟩ := Prod.mk.inj h
    injection hd with hd
    -- What cannot be read fails as it would beside itself, within its statement.
    rcases Statement.next?_cases s.database.catalog habreast.inside with
      ⟨v, v', -, hr', -⟩ | ⟨st, v, v', -, hr', -⟩ | ⟨e', v, v', -, hr', he, -⟩ <;>
      rw [hr] at hr'
    · simp at hr'
    · simp at hr'
    · injection hr' with hd'
      rw [← hd, hd']
      exact he

end Alone

/-- A turn with an error in it is not the one to leave by. What ends the session is that error,
which belongs to no statement, or one met while the rest of the statement is passed. -/
theorem ending_of_recover {s t : Session} {n : Nat} {e : Error} {how : Ending}
    (h : s.recover n e = .ended t how) :
    ∃ d, how = .broken d ∧ (e.isStatementError = false ∧ d = e ∨
      ∃ u, Parser.skip.run s.stream = .fail d u) := by
  unfold recover at h
  dsimp only at h
  split at h
  · split at h
    · split at h
      · simp at h
      · rename_i d u hskip
        injection h with _ h
        refine ⟨d, h.symm, .inr ?_⟩
        unfold skip parse at hskip
        split at hskip
        · simp at hskip
        · rename_i c v hrun
          injection hskip with hskip _
          injection hskip with hskip
          exact ⟨v, hskip ▸ hrun⟩
    · simp at h
  · rename_i he
    injection h with _ h
    exact ⟨e, h.symm, .inl ⟨Bool.eq_false_iff.2 he, rfl⟩⟩

/-- **A statement that fails costs one error, whatever it was and wherever it failed.** -/
theorem going_of_failure {s u : Session} (hs : ∀ x ∈ s.stream.queue, x.IsRegular) {e : Error}
    (h : s.statement = (.error e, u)) :
    ∃ t, s.turn = .going t ∧ t.stream.queue = behindFirst s.stream.queue ∧
      t.database = s.database ∧ t.printed = s.printed ++ [.failure e] := by
  obtain ⟨hdatabase, hprinted⟩ := turn_of_failure h (isStatementError_of_failure hs h)
  have hrecover : s.turn = u.recover s.stream.consumed e := by rw [turn, h]
  rcases hturn : s.turn with ⟨t, how⟩ | t
  · obtain ⟨d, rfl, -⟩ := ending_of_recover (hrecover.symm.trans hturn)
    exact absurd (ending_of_ended hs hturn) (by simp)
  · rw [hturn] at hdatabase hprinted
    exact ⟨t, rfl, queue_of_going hs hturn, hdatabase, hprinted⟩

end Session

end FlatQuery
