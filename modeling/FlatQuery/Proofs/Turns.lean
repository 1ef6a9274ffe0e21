import FlatQuery.Proofs.Queue
import FlatQuery.Session

/-!
# What a statement does to a session

A session changes in two places only: where its stream is read, and where a statement that
has been read is carried out. `Session.statement_eq` writes both into one expression, and
what a session has in common with the one before is read off there.

What a session prints are the lines and errors of its transcript. The requests for lines
stand between them in the transcript and are no part of a script's output
(`Transcript.plain_printed`).
-/

set_option autoImplicit false

namespace FlatQuery

/-! ## 1. What is printed -/

namespace Transcript

/-- The items of a transcript that are printed where there are no prompts. -/
def printed (t : Transcript) : Transcript :=
  t.filter fun
    | .request _ => false
    | _ => true

/-- Printing goes item by item. -/
theorem printed_append (t u : Transcript) : printed (t ++ u) = printed t ++ printed u :=
  List.filter_append _ _

/-- Asking for lines prints nothing. -/
theorem printed_requests (rs : List Request) : printed (rs.map .request) = [] := by
  rw [printed, List.filter_eq_nil_iff]
  intro x hx
  obtain ⟨r, -, rfl⟩ := List.mem_map.1 hx
  exact Bool.false_ne_true

/-- Lines that are shown are printed. -/
theorem printed_lines (lines : List String) :
    printed (lines.map .line) = lines.map .line := by
  rw [printed, List.filter_eq_self]
  intro x hx
  obtain ⟨text, -, rfl⟩ := List.mem_map.1 hx
  rfl

/-- The text of a transcript is put together from the texts of its parts. -/
theorem plain_append (t u : Transcript) : plain (t ++ u) = plain t ++ plain u := by
  rw [plain, List.map_append, String.join_append]
  rfl

/-- A script's output is that of the items that are printed. -/
theorem plain_printed (t : Transcript) : plain (printed t) = plain t := by
  unfold plain printed
  induction t with
  | nil => rfl
  | cons x t ih =>
    rcases x with r | text | e
    · rw [List.filter_cons_of_neg (by simp), List.map_cons, String.join_cons, ih]
      exact (String.empty_append).symm
    · rw [List.filter_cons_of_pos (by simp), List.map_cons, List.map_cons, String.join_cons,
        String.join_cons, ih]
    · rw [List.filter_cons_of_pos (by simp), List.map_cons, List.map_cons, String.join_cons,
        String.join_cons, ih]

end Transcript

/-- The requests on record have no part in what is still to come. -/
theorem TokenStream.queue_forgetRequests (s : TokenStream) : s.forgetRequests.queue = s.queue := by
  have hcoming : s.forgetRequests.coming = s.coming := coming_congr ⟨rfl, rfl, rfl⟩
  rw [queue, queue, hcoming]
  rfl

namespace Session

/-- What a session has printed. -/
def printed (s : Session) : Transcript := s.transcript.printed

/-- Reading on prints nothing. -/
@[simp] theorem printed_readTo (s : Session) (t : TokenStream) :
    (s.readTo t).printed = s.printed := by
  rw [printed, transcript_readTo, Transcript.printed_append, Transcript.printed_requests,
    List.append_nil]
  rfl

/-- What is told is printed behind what was. -/
@[simp] theorem printed_tell (s : Session) (more : Transcript) :
    (s.tell more).printed = s.printed ++ more.printed := by
  rw [printed, transcript_tell, Transcript.printed_append]
  rfl

/-- A session that has read on has what its stream has left. -/
theorem queue_readTo (s : Session) (t : TokenStream) : (s.readTo t).stream.queue = t.queue :=
  TokenStream.queue_forgetRequests t

/-! ## 2. Statements -/

/-- A session after a statement was carried out: the database and the lines to show are the
statement's. -/
def carryOut (s : Session) (db : Database) (lines : List String) : Session :=
  { s with database := db }.tell (lines.map .line)

/-- A command that is carried out prints its lines. -/
@[simp] theorem printed_carryOut (s : Session) (db : Database) (lines : List String) :
    (s.carryOut db lines).printed = s.printed ++ lines.map .line := by
  rw [carryOut, printed_tell, Transcript.printed_lines]
  rfl

theorem queue_carryOut (s : Session) (db : Database) (lines : List String) :
    (s.carryOut db lines).stream.queue = s.stream.queue := rfl

/-- **A statement is read, and then carried out.** -/
theorem statement_eq (s : Session) :
    s.statement =
      match (Statement.next? s.database.catalog).run s.stream with
      | .fail e t => (.error e, s.readTo t)
      | .ok none t => (.ok .inputEnded, s.readTo t)
      | .ok (some st) t =>
        match st.execute s.database with
        | .error e => (.error e, s.readTo t)
        | .ok (db, lines) =>
          (.ok (if st.continues then .onward else .left), (s.readTo t).carryOut db lines) := by
  unfold statement parse
  rcases (Statement.next? s.database.catalog).run s.stream with ⟨_ | st, t⟩ | ⟨e, t⟩
  · rfl
  · dsimp only
    rw [execute, show (s.readTo t).database = s.database from rfl]
    rcases st.execute s.database with e | ⟨db, lines⟩
    · rfl
    · rfl
  · rfl

section Statements

variable {s : Session} {t : TokenStream}

/-- A statement that cannot be read fails as its reading does. -/
theorem statement_of_fail {e : Error}
    (h : (Statement.next? s.database.catalog).run s.stream = .fail e t) :
    s.statement = (.error e, s.readTo t) := by
  rw [statement_eq, h]

/-- A statement that cannot be carried out fails as its execution does. -/
theorem statement_of_refused {st : Statement} {e : Error}
    (h : (Statement.next? s.database.catalog).run s.stream = .ok (some st) t)
    (hst : st.execute s.database = .error e) : s.statement = (.error e, s.readTo t) := by
  rw [statement_eq, h]
  dsimp only
  rw [hst]

/-- A statement that is carried out leaves what it makes and shows. -/
theorem statement_of_done {st : Statement} {db : Database} {lines : List String}
    (h : (Statement.next? s.database.catalog).run s.stream = .ok (some st) t)
    (hst : st.execute s.database = .ok (db, lines)) :
    s.statement = (.ok (if st.continues then .onward else .left),
      (s.readTo t).carryOut db lines) := by
  rw [statement_eq, h]
  dsimp only
  rw [hst]

end Statements

/-! ## 3. Turns -/

section Turns

variable {s : Session} {t : TokenStream}

/-- At the end of the input the session is over. -/
theorem turn_of_end (h : (Statement.next? s.database.catalog).run s.stream = .ok none t) :
    s.turn = .ended (s.readTo t) .inputEnded := by
  rw [turn, statement_eq, h]

/-- Where no statement can be read, the session goes on after the error. -/
theorem turn_of_fail {e : Error}
    (h : (Statement.next? s.database.catalog).run s.stream = .fail e t) :
    s.turn = (s.readTo t).recover s.stream.consumed e := by
  rw [turn, statement_of_fail h]

/-- So it does where a statement cannot be carried out. -/
theorem turn_of_refused {st : Statement} {e : Error}
    (h : (Statement.next? s.database.catalog).run s.stream = .ok (some st) t)
    (hst : st.execute s.database = .error e) :
    s.turn = (s.readTo t).recover s.stream.consumed e := by
  rw [turn, statement_of_refused h hst]

/-- A statement that is carried out is followed by the next, unless it was one to leave. -/
theorem turn_of_done {st : Statement} {db : Database} {lines : List String}
    (h : (Statement.next? s.database.catalog).run s.stream = .ok (some st) t)
    (hst : st.execute s.database = .ok (db, lines)) :
    s.turn = if st.continues then .going ((s.readTo t).carryOut db lines)
      else .ended ((s.readTo t).carryOut db lines) .left := by
  rw [turn, statement_of_done h hst]
  rcases st.continues with _ | _
  · rfl
  · rfl

end Turns

end Session

end FlatQuery
