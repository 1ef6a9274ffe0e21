import FlatQuery.Statement.Grammar

/-!
# Sessions

A session reads statements from a stream and carries them out on a database, one after
the other, until it is told to leave or the input ends. An error belongs to the
statement it occurs in: it is reported in one line, and what is left of the statement
is passed over, so that the next one starts behind the next semicolon.

What a session shows is kept as a transcript, in which the requests for lines stand
among the lines shown, each in its turn. A script's output is the lines alone; at a
terminal the prompts appear between them. Both are views of the one transcript.

Each turn of a session that is not its last leaves less input than there was before,
so a session ends. `turn_going` says so, and `run` is defined by it. The one exception
is a script that stores a table into its own file: it goes on with what it has put
there, and that can be more than was left. `runScript` allows for it.
-/

set_option autoImplicit false

namespace FlatQuery

/-! ## 1. Transcripts -/

/-- An item of a transcript. -/
inductive Shown where
  /-- A line was asked for. -/
  | request (r : Request)
  /-- A line was shown. -/
  | line (text : String)
  /-- An error was reported. -/
  | failure (e : Error)
deriving DecidableEq

/-- What a session has shown so far, in order. -/
abbrev Transcript := List Shown

namespace Transcript

/-- The text of one item where no prompts are shown. -/
def plainItem : Shown → String
  | .request _ => ""
  | .line text => text ++ "\n"
  | .failure e => "Error: " ++ e.message ++ "\n"

/-- The text of one item at a terminal: a prompt stays on its line until the next line
is typed, and the end of the input ends that line too. -/
def promptedItem : Shown → String
  | .request r => r.prompt.text ++ (if r.metEnd then "\n" else "")
  | x => plainItem x

/-- The part of a transcript before the end of the input was met. A longer input only goes
on from there. -/
def beforeEnd : Transcript → Transcript
  | [] => []
  | .request r :: t => if r.metEnd then [] else .request r :: beforeEnd t
  | x :: t => x :: beforeEnd t

/-- The prompt at which the end of the input was met, if it was. -/
def endPrompt? (t : Transcript) : Option Prompt :=
  t.findSome? fun
    | .request r => if r.metEnd then some r.prompt else none
    | _ => none

/-- A transcript without its prompts. -/
def plain (t : Transcript) : String := String.join (t.map plainItem)

/-- A transcript with its prompts. -/
def prompted (t : Transcript) : String := String.join (t.map promptedItem)

end Transcript

/-! ## 2. Sessions -/

/-- A stream of tokens, a database, and what has been shown. -/
structure Session where
  /-- Where the statements come from. -/
  stream : TokenStream
  /-- What they work on. -/
  database : Database
  /-- What has been shown, the latest item first, so that showing more copies nothing. -/
  log : List Shown := []

namespace Session

variable {α : Type}

/-- A session at its start. -/
def start (source : Source) (db : Database) : Session :=
  { stream := { source }, database := db }

/-- What has been shown, in order. -/
def transcript (s : Session) : Transcript := s.log.reverse

/-- The session after its stream was read to a further place. -/
def readTo (s : Session) (t : TokenStream) : Session :=
  { s with stream := t.forgetRequests, log := t.asked.map .request ++ s.log }

/-- The session after more was shown. -/
def tell (s : Session) (more : Transcript) : Session := { s with log := more.reverse ++ s.log }

@[simp] theorem transcript_start (source : Source) (db : Database) :
    (start source db).transcript = [] := rfl

@[simp] theorem transcript_readTo (s : Session) (t : TokenStream) :
    (s.readTo t).transcript = s.transcript ++ t.requests.map .request := by
  simp [readTo, transcript, TokenStream.requests]

@[simp] theorem transcript_tell (s : Session) (more : Transcript) :
    (s.tell more).transcript = s.transcript ++ more := by
  simp [tell, transcript]

/-- Reads something off the stream. -/
def parse (s : Session) (p : Parser α) : Except Error α × Session :=
  match p.run s.stream with
  | .ok a t => (.ok a, s.readTo t)
  | .fail e t => (.error e, s.readTo t)

/-- Carries out a statement that has been read. -/
def execute (s : Session) (st : Statement) : Except Error Unit × Session :=
  match st.execute s.database with
  | .error e => (.error e, s)
  | .ok (db, lines) => (.ok (), { s with database := db }.tell (lines.map .line))

/-- Reads a statement by a parser for it, and carries it out. -/
def perform (s : Session) (p : Parser Statement) : Except Error Unit × Session :=
  match s.parse p with
  | (.error e, s) => (.error e, s)
  | (.ok st, s) => s.execute st

/-- What the next statement comes to, if it comes to no error. -/
inductive Advance where
  /-- It has been carried out, and there may be another one. -/
  | onward
  /-- It was the one to leave by. -/
  | left
  /-- There is none. -/
  | inputEnded
deriving DecidableEq

/-- Reads the next statement and carries it out. -/
def statement (s : Session) : Except Error Advance × Session :=
  match s.parse (Statement.next? s.database.catalog) with
  | (.error e, s) => (.error e, s)
  | (.ok none, s) => (.ok .inputEnded, s)
  | (.ok (some st), s) =>
    match s.execute st with
    | (.error e, s) => (.error e, s)
    | (.ok (), s) => (.ok (if st.continues then .onward else .left), s)

/-- Passes the rest of a statement. -/
def skip (s : Session) : Except Error Unit × Session := s.parse Parser.skip

/-! ## 3. Turns -/

/-- How a session ends. -/
inductive Ending where
  /-- By a statement to leave. -/
  | left
  /-- At the end of the input. -/
  | inputEnded
  /-- By an error that belongs to no statement. -/
  | broken (e : Error)
deriving DecidableEq

/-- What a turn of a session comes to. -/
inductive Progress where
  /-- The session is over. -/
  | ended (s : Session) (how : Ending)
  /-- There may be further statements. -/
  | going (s : Session)

/-- Goes on after an error: reports it, and passes the rest of the statement unless its
semicolon is consumed already. The number is that of the tokens consumed before the
statement. -/
def recover (s : Session) (before : Nat) (e : Error) : Progress :=
  if e.isStatementError then
    let t := s.tell [.failure e]
    -- With nothing consumed, a semicolon consumed last belongs to the statement before.
    if t.stream.consumed = before ∨ t.stream.atStatementStart = false then
      match t.skip with
      | (.ok (), u) => .going u
      | (.error e, u) => .ended u (.broken e)
    else .going t
  else .ended s (.broken e)

/-- One turn: a statement, or an error and what it takes to go on. -/
def turn (s : Session) : Progress :=
  match s.statement with
  | (.ok .onward, t) => .going t
  | (.ok .left, t) => .ended t .left
  | (.ok .inputEnded, t) => .ended t .inputEnded
  | (.error e, t) => t.recover s.stream.consumed e

/-! ### Turns use up input -/

theorem precedes_parse (s : Session) (p : Parser α) :
    s.stream.Precedes (s.parse p).2.stream := by
  have h := p.precedes s.stream
  simp only [parse]
  cases hp : p.run s.stream <;> rw [hp] at h <;> exact h

@[simp] theorem execute_stream (s : Session) (st : Statement) :
    (s.execute st).2.stream = s.stream := by
  simp only [execute]
  split <;> rfl

/-- A statement consumes a token. An error leaves the possibilities that
`Statement.next?_spec` lists, a token being consumed once the statement was read. -/
theorem statement_spec (s : Session) :
    s.stream.Precedes s.statement.2.stream ∧
    match s.statement with
    | (.ok .onward, t) => s.stream.consumed < t.stream.consumed
    | (.ok _, _) => True
    | (.error e, t) => s.stream.consumed < t.stream.consumed ∨
        (e.isStatementError = true → t.stream.remaining < s.stream.remaining) ∨
        ∃ k, t.stream.ahead? = some (.token k) := by
  have hp := precedes_parse s (Statement.next? s.database.catalog)
  have hs := Statement.next?_spec s.database.catalog s.stream
  simp only [statement, parse] at hp ⊢
  cases hr : (Statement.next? s.database.catalog).run s.stream with
  | fail e t =>
    rw [hr] at hp hs
    exact ⟨hp, hs⟩
  | ok st? t =>
    rw [hr] at hp hs
    cases st? with
    | none => exact ⟨hp, trivial⟩
    | some st =>
      simp only at hp hs ⊢
      have hx := execute_stream (s.readTo t) st
      revert hx
      cases (s.readTo t).execute st with
      | mk r u =>
        intro hx
        simp only at hx
        cases r with
        | error e => exact ⟨hx ▸ hp, .inl (hx ▸ hs)⟩
        | ok _ =>
          refine ⟨hx ▸ hp, ?_⟩
          have hc : s.stream.consumed < u.stream.consumed := hx ▸ hs
          cases st.continues
          · trivial
          · exact hc

/-- Going on after an error leaves less input than there was before the statement: when
nothing was consumed and no fault passed, a token stands next, and passing the rest of
the statement consumes it. -/
theorem recover_going {s t u : Session} {e : Error} (hp : s.stream.Precedes t.stream)
    (hs : s.stream.consumed < t.stream.consumed ∨
      (e.isStatementError = true → t.stream.remaining < s.stream.remaining) ∨
      ∃ k, t.stream.ahead? = some (.token k))
    (h : t.recover s.stream.consumed e = .going u) :
    u.stream.remaining < s.stream.remaining := by
  simp only [recover] at h
  split at h
  · rename_i he
    split at h
    · have hu : u = ((t.tell [.failure e]).skip).2 := by
        revert h
        rcases (t.tell [.failure e]).skip with ⟨r, v⟩
        cases r <;> simp [eq_comm]
      have hq : t.stream.Precedes u.stream := hu ▸ precedes_parse (t.tell [.failure e]) Parser.skip
      rcases hs with hs | hs | ⟨k, hk⟩
      · exact (hp.trans hq).remaining_lt (Nat.lt_of_lt_of_le hs hq.1)
      · exact Nat.lt_of_le_of_lt hq.remaining_le (hs he)
      · have hc : t.stream.consumed < u.stream.consumed := by
          have := Parser.consumed_skip hk
          rw [hu]
          simp only [skip, parse, tell]
          cases hr : Parser.skip.run t.stream <;> rw [hr] at this <;> exact this
        exact (hp.trans hq).remaining_lt (Nat.lt_of_le_of_lt hp.1 hc)
    · rename_i hn
      injection h with h
      subst h
      simp only [not_or, tell] at hn
      have := hp.1
      exact hp.remaining_lt (show s.stream.consumed < t.stream.consumed by omega)
  · simp at h

/-- A turn that is not the last leaves less input. -/
theorem turn_going {s t : Session} (h : s.turn = .going t) :
    t.stream.remaining < s.stream.remaining := by
  have hs := statement_spec s
  simp only [turn] at h
  rcases hr : s.statement with ⟨r, u⟩
  rw [hr] at hs h
  cases r with
  | error e => exact recover_going hs.1 hs.2 h
  | ok b =>
    cases b with
    | left => simp at h
    | inputEnded => simp at h
    | onward =>
      injection h with h
      exact h ▸ hs.1.remaining_lt hs.2

/-- Takes turns to the end. Gives the session at its end and how it ended. -/
def run (s : Session) : Session × Ending :=
  match _h : s.turn with
  | .ended t how => (t, how)
  | .going t => t.run
termination_by s.stream.remaining
decreasing_by exact turn_going _h

/-! ## 4. Scripts -/

/-- The session when its statements come from the file at a place, and what has not been
read of it is as the file is now. -/
def readOn (s : Session) (place : List String) : Session :=
  match s.database.files.node? place with
  | some (.file content) =>
    { s with stream := { s.stream with source := s.stream.source.readOn content } }
  | _ => s

/-- Takes turns to the end, where the statements come from the file at a place. A file is
only ever written by the last step of a turn, so it is looked at again behind each of
so many turns, and no more behind those. -/
def runScript (place : List String) : Nat → Session → Session × Ending
  | 0, s => s.run
  | k + 1, s =>
    match s.turn with
    | .ended t how => (t, how)
    | .going t => runScript place k (t.readOn place)

/-- As long as the file is what it was, reading on changes nothing. -/
theorem readOn_eq_self {s : Session} {place : List String} {content : Bytes}
    (hfile : s.database.files.node? place = some (.file content))
    (hs : s.stream.source.unread = content.drop s.stream.source.position) :
    s.readOn place = s := by
  simp only [readOn, hfile, Source.readOn, ← hs]

/-- A script whose file is never written runs like any other text. -/
theorem runScript_eq_run {place : List String} (P : Session → Prop)
    (hread : ∀ t, P t → t.readOn place = t) (hturn : ∀ t u, P t → t.turn = .going u → P u)
    (k : Nat) {s : Session} (hs : P s) : s.runScript place k = s.run := by
  induction k generalizing s with
  | zero => rfl
  | succ k ih =>
    rw [runScript, run]
    cases ht : s.turn with
    | ended t how => rfl
    | going t =>
      have hp := hturn s t hs ht
      simp only [hread t hp, ih hp]

end Session

end FlatQuery
