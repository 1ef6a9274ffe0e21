import FlatQuery.Proofs.Lockstep
import FlatQuery.Proofs.Turns

/-!
# A statement that fails leaves nothing behind

A session reads and looks up, fills tables and opens files while it is still busy with a
statement, and in all of this it can fail. Yet a statement that fails changes no table and
no file, and shows nothing but its error.

For one turn this is `turn_of_failure`. For a whole run it takes an account of what was
done. `Session.deeds` lists the statements that were carried out and the errors that were
reported, in order, and `run_account` says that the run comes to no more than this list: the
database is what the statements make of it one after the other, and what was printed is
their lines and the errors. The errors can be struck off the list without a change to the
database (`Deed.foldl_database`).
-/

set_option autoImplicit false

namespace FlatQuery

/-! ## 1. One turn -/

/-- Where a turn leads, be it the last or not. -/
def Session.Progress.session : Session.Progress → Session
  | .ended s _ => s
  | .going s => s

namespace Session

/-- A failing statement has not touched the database, and has printed nothing. -/
theorem statement_of_failure {s u : Session} {e : Error} (h : s.statement = (.error e, u)) :
    u.database = s.database ∧ u.printed = s.printed := by
  rw [statement_eq] at h
  rcases hr : (Statement.next? s.database.catalog).run s.stream with ⟨_ | st, t⟩ | ⟨d, t⟩ <;>
    rw [hr] at h
  · simp at h
  · dsimp only at h
    rcases hst : st.execute s.database with d | ⟨db, lines⟩ <;> rw [hst] at h
    · obtain ⟨-, hu⟩ := Prod.mk.inj h
      rw [← hu]
      exact ⟨rfl, printed_readTo s t⟩
    · simp at h
  · obtain ⟨-, hu⟩ := Prod.mk.inj h
    rw [← hu]
    exact ⟨rfl, printed_readTo s t⟩

/-- An error in the place of a statement's first token is the statement's. -/
theorem statement_of_error {s : Session} {e : Error} {q : List Arrival}
    (hq : s.stream.queue = .error e :: q) (he : e.isStatementError = true) :
    ∃ u, s.statement = (.error e, u) := by
  obtain ⟨t, hl, -⟩ := TokenStream.lookahead_of_error hq he
  refine ⟨s.readTo t, statement_of_fail ?_⟩
  rw [Statement.next?, Parser.run_lookahead_bind, hl]

/-- A first token that opens no statement is reported as such. -/
theorem statement_of_unrecognized {s : Session} {k : Token} {q : List Arrival}
    (hq : s.stream.queue = .ok k :: q)
    (hk : Statement.body? s.database.catalog k.text = none) :
    ∃ u, s.statement = (.error (.unrecognizedCommand k.text), u) := by
  obtain ⟨t, hl, -⟩ := TokenStream.lookahead_of_ok hq
  refine ⟨s.readTo t, statement_of_fail ?_⟩
  rw [Statement.next?, Parser.run_lookahead_bind, hl]
  dsimp only
  rw [hk]
  rfl

theorem skip_seen (s : Session) :
    s.skip.2.database = s.database ∧ s.skip.2.printed = s.printed := by
  unfold skip parse
  rcases Parser.skip.run s.stream with ⟨a, t⟩ | ⟨e, t⟩
  · exact ⟨rfl, printed_readTo s t⟩
  · exact ⟨rfl, printed_readTo s t⟩

/-- Going on after an error reports the error and does nothing else that could be seen. -/
theorem recover_seen (s : Session) (before : Nat) {e : Error} (he : e.isStatementError = true) :
    (s.recover before e).session.database = s.database ∧
      (s.recover before e).session.printed = s.printed ++ [.failure e] := by
  have htell : (s.tell [.failure e]).printed = s.printed ++ [.failure e] := printed_tell s _
  rw [recover, if_pos he]
  dsimp only
  split
  · obtain ⟨hdatabase, hprinted⟩ := skip_seen (s.tell [.failure e])
    rcases hskip : (s.tell [.failure e]).skip with ⟨_ | _, u⟩ <;>
      rw [hskip] at hdatabase hprinted
    · exact ⟨hdatabase, hprinted.trans htell⟩
    · exact ⟨hdatabase, hprinted.trans htell⟩
  · exact ⟨rfl, htell⟩

/-- **A turn that fails leaves the database as it was and prints its error alone.** -/
theorem turn_of_failure {s u : Session} {e : Error} (h : s.statement = (.error e, u))
    (he : e.isStatementError = true) :
    s.turn.session.database = s.database ∧
      s.turn.session.printed = s.printed ++ [.failure e] := by
  obtain ⟨hdatabase, hprinted⟩ := statement_of_failure h
  obtain ⟨hdatabase', hprinted'⟩ := recover_seen u s.stream.consumed he
  rw [turn, h]
  refine ⟨hdatabase'.trans hdatabase, hprinted'.trans ?_⟩
  rw [hprinted]

end Session

/-! ## 2. An account of a run -/

/-- What a turn can come to: a statement that is carried out, or an error that is
reported. -/
inductive Deed where
  | done (st : Statement)
  | failed (e : Error)

namespace Deed

/-- The database and what was printed, after one more deed. -/
def account (seen : Database × Transcript) : Deed → Database × Transcript
  | .failed e => (seen.1, seen.2 ++ [.failure e])
  | .done st =>
    match st.execute seen.1 with
    | .error _ => seen
    | .ok (db, lines) => (db, seen.2 ++ lines.map .line)

/-- Whether a deed is a statement that was carried out. -/
def isDone : Deed → Bool
  | .done _ => true
  | .failed _ => false

theorem account_database (d : Deed) {seen seen' : Database × Transcript}
    (h : seen.1 = seen'.1) : (account seen d).1 = (account seen' d).1 := by
  rcases d with st | e
  · rw [account, account, h]
    rcases st.execute seen'.1 with e | ⟨db, lines⟩
    · exact h
    · rfl
  · exact h

/-- Errors have no part in what becomes of the database. -/
theorem foldl_database (ds : List Deed) {seen seen' : Database × Transcript}
    (h : seen.1 = seen'.1) :
    (ds.foldl account seen).1 = ((ds.filter isDone).foldl account seen').1 := by
  induction ds generalizing seen seen' with
  | nil => exact h
  | cons d ds ih =>
    rcases d with st | e
    · exact ih (account_database (.done st) h)
    · exact ih h

end Deed

namespace Session

/-- What the next turn of a session comes to. -/
def deed? (s : Session) : Option Deed :=
  match (Statement.next? s.database.catalog).run s.stream with
  | .fail e _ => if e.isStatementError then some (.failed e) else none
  | .ok none _ => none
  | .ok (some st) _ =>
    match st.execute s.database with
    | .error e => if e.isStatementError then some (.failed e) else none
    | .ok _ => some (.done st)

/-- What a session comes to, turn by turn. -/
def deeds (s : Session) : List Deed :=
  s.deed?.toList ++
    match _h : s.turn with
    | .ended _ _ => []
    | .going t => t.deeds
termination_by s.stream.remaining
decreasing_by exact turn_going _h

/-- All that can be seen of a session. -/
def seen (s : Session) : Database × Transcript := (s.database, s.printed)

theorem deed?_of_failure {s u : Session} {e : Error} (h : s.statement = (.error e, u)) :
    s.deed? = if e.isStatementError then some (.failed e) else none := by
  rw [statement_eq] at h
  unfold deed?
  rcases hr : (Statement.next? s.database.catalog).run s.stream with ⟨_ | st, t⟩ | ⟨d, t⟩ <;>
    rw [hr] at h
  · simp at h
  · dsimp only at h ⊢
    rcases hst : st.execute s.database with d | ⟨db, lines⟩ <;> rw [hst] at h
    · obtain ⟨hd, -⟩ := Prod.mk.inj h
      injection hd with hd
      rw [hd]
    · simp at h
  · obtain ⟨hd, -⟩ := Prod.mk.inj h
    injection hd with hd
    rw [hd]

theorem seen_of_success {s u : Session} {a : Advance} (h : s.statement = (.ok a, u)) :
    u.seen = s.deed?.toList.foldl Deed.account s.seen := by
  rw [statement_eq] at h
  unfold deed?
  rcases hr : (Statement.next? s.database.catalog).run s.stream with ⟨_ | st, t⟩ | ⟨d, t⟩ <;>
    rw [hr] at h
  · obtain ⟨-, hu⟩ := Prod.mk.inj h
    rw [← hu, seen, printed_readTo]
    rfl
  · dsimp only at h ⊢
    rcases hst : st.execute s.database with d | ⟨db, lines⟩ <;> rw [hst] at h
    · simp at h
    · obtain ⟨-, hu⟩ := Prod.mk.inj h
      rw [← hu, seen, printed_carryOut, printed_readTo]
      change _ = Deed.account s.seen (.done st)
      rw [Deed.account, show s.seen.1 = s.database from rfl, hst]
      rfl
  · simp at h

/-- One turn comes to its deed. -/
theorem turn_seen (s : Session) :
    s.turn.session.seen = s.deed?.toList.foldl Deed.account s.seen := by
  rcases hst : s.statement with ⟨e | a, u⟩
  · rw [deed?_of_failure hst]
    rcases he : e.isStatementError with _ | _
    · obtain ⟨hdatabase, hprinted⟩ := statement_of_failure hst
      rw [turn, hst]
      dsimp only
      rw [recover, if_neg (by rw [he]; exact Bool.false_ne_true)]
      exact Prod.ext hdatabase hprinted
    · obtain ⟨hdatabase, hprinted⟩ := turn_of_failure hst he
      exact Prod.ext hdatabase hprinted
  · rw [← seen_of_success hst, turn, hst]
    rcases a with _ | _ | _
    · rfl
    · rfl
    · rfl

/-- **A run comes to its deeds, one after the other.** -/
theorem run_account (s : Session) :
    s.run.1.seen = s.deeds.foldl Deed.account s.seen := by
  induction hm : s.stream.remaining using Nat.strongRecOn generalizing s with
  | _ m ih =>
    rw [run, deeds, List.foldl_append, ← turn_seen]
    rcases hturn : s.turn with ⟨t, how⟩ | t
    · rfl
    · dsimp only
      rw [ih _ (hm ▸ turn_going hturn) t rfl]
      rfl

/-- **A failing statement is as if it were not there.** Its turn leaves the database as it
was, and all that it prints is the line of its error. Over a whole run, with any number of
failures in it, the database is what the statements that were carried out make of it. -/
theorem failure_leaves_nothing (s : Session) :
    (∀ e u, s.statement = (.error e, u) → e.isStatementError = true →
      s.turn.session.database = s.database ∧
        s.turn.session.transcript.plain =
          s.transcript.plain ++ ("Error: " ++ e.message ++ "\n")) ∧
    s.run.1.seen = s.deeds.foldl Deed.account s.seen ∧
    s.run.1.database = ((s.deeds.filter Deed.isDone).foldl Deed.account s.seen).1 := by
  refine ⟨fun e u h he => ?_, run_account s, ?_⟩
  · obtain ⟨hdatabase, hprinted⟩ := turn_of_failure h he
    refine ⟨hdatabase, ?_⟩
    rw [← Transcript.plain_printed, ← Transcript.plain_printed s.transcript]
    change Transcript.plain s.turn.session.printed = Transcript.plain s.printed ++ _
    rw [hprinted, Transcript.plain_append]
    rfl
  · rw [← Deed.foldl_database s.deeds rfl, ← run_account]
    rfl

theorem failure_leaves_nothing_drop :
    (start (.ofString "drop;") (.fresh .root .empty)).turn.session.database =
      .fresh .root .empty ∧
    (start (.ofString "drop;") (.fresh .root .empty)).turn.session.transcript.plain =
      "Error: unrecognizable command: drop\n" := by
  have hq : (start (.ofString "drop;") (.fresh .root .empty)).stream.queue =
      [.ok ⟨.identifier, "drop"⟩, .ok .terminator] :=
    TokenStream.queue_ofSource.trans (by decide +kernel)
  obtain ⟨u, hu⟩ := statement_of_unrecognized hq rfl
  exact (failure_leaves_nothing _).1 _ u hu rfl

end Session

end FlatQuery
