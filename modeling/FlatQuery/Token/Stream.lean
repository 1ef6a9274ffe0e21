import FlatQuery.Error
import FlatQuery.Token.Source

/-!
# The token stream

Between a text and the one who reads it as statements stands a stream of tokens that
can be looked at one token ahead. It asks for another line of the text only when it
is asked for a token and the lines it has hold none, because a person may be typing
the text: a statement is carried out as soon as its last token has been read, and the
prompt for the next line says whether a statement or a comment is still open.

Every question asked of a stream either uses up input or leaves the amount of it
alone. `remaining` measures that amount - the token looked at, the characters of the
current line, what is left in the source, and the end if it has not been met -
and the sum of it and of the tokens consumed never grows. That is the order
`Precedes` on streams, and it is what every loop over a stream ends by.
-/

set_option autoImplicit false

namespace FlatQuery

/-! ## 1. Prompts -/

/-- What a reader is shown when a line is asked for. -/
inductive Prompt where
  /-- A new statement can begin. -/
  | primary
  /-- A statement or a comment is open. -/
  | continuation
deriving DecidableEq

/-- The text of a prompt. -/
def Prompt.text : Prompt → String
  | .primary => "> "
  | .continuation => "...> "

/-- A request for a line: the prompt that was shown, and whether there was no line left. -/
structure Request where
  /-- The prompt that was shown. -/
  prompt : Prompt
  /-- Whether the request met the end of the input. -/
  metEnd : Bool
deriving DecidableEq

/-! ## 2. Streams -/

/-- A stream of tokens with one token of lookahead. -/
structure TokenStream where
  /-- The scanner in the current line. -/
  scanner : Scanner := {}
  /-- The text behind the current line. -/
  source : Source
  /-- What has been looked at and not consumed. -/
  ahead? : Option Lookahead := none
  /-- Whether the end of the source has been met. -/
  exhausted : Bool := false
  /-- Whether the last token consumed was not a semicolon. -/
  midStatement : Bool := false
  /-- How many tokens have been consumed. -/
  consumed : Nat := 0
  /-- The requests for lines, the latest first. -/
  asked : List Request := []
deriving DecidableEq

namespace TokenStream

/-- The stream of a given text. -/
def ofString (s : String) : TokenStream := { source := .ofString s }

/-- Whether a new statement can begin: nothing has been consumed, or a semicolon last. -/
def atStatementStart (s : TokenStream) : Bool := !s.midStatement

/-- The requests for lines, in order. -/
def requests (s : TokenStream) : List Request := s.asked.reverse

/-- The stream with no requests on record. -/
def forgetRequests (s : TokenStream) : TokenStream := { s with asked := [] }

/-- The prompt for a line that is asked for here. -/
def prompt (s : TokenStream) : Prompt :=
  if s.midStatement || s.scanner.inComment then .continuation else .primary

/-- The stream after a request for a line. -/
def requested (s : TokenStream) (metEnd : Bool) : TokenStream :=
  { s with asked := ⟨s.prompt, metEnd⟩ :: s.asked }

@[simp] theorem requests_requested (s : TokenStream) (metEnd : Bool) :
    (s.requested metEnd).requests = s.requests ++ [⟨s.prompt, metEnd⟩] := by
  simp [requested, requests]

/-! ### What is left to read -/

/-- How much a lookahead counts: a token is still to be consumed, the end is not. -/
def aheadSize : Option Lookahead → Nat
  | some (.token _) => 1
  | _ => 0

/-- How much the end of the source counts until it has been met. -/
def endSize (exhausted : Bool) : Nat := if exhausted then 0 else 1

/-- How much input is left. -/
def remaining (s : TokenStream) : Nat :=
  aheadSize s.ahead? + s.scanner.rest.length + s.source.size + endSize s.exhausted

/-- The second stream is the first one later on: no fewer tokens are consumed, and the
input left has shrunk by as many at least. -/
def Precedes (s t : TokenStream) : Prop :=
  s.consumed ≤ t.consumed ∧ t.consumed + t.remaining ≤ s.consumed + s.remaining

theorem Precedes.refl (s : TokenStream) : s.Precedes s := ⟨Nat.le_refl _, Nat.le_refl _⟩

theorem Precedes.trans {s t u : TokenStream} (h₁ : s.Precedes t) (h₂ : t.Precedes u) :
    s.Precedes u := ⟨Nat.le_trans h₁.1 h₂.1, Nat.le_trans h₂.2 h₁.2⟩

theorem Precedes.remaining_le {s t : TokenStream} (h : s.Precedes t) :
    t.remaining ≤ s.remaining := by
  have := h.1
  have := h.2
  omega

/-- Whoever consumes a token has less input left. -/
theorem Precedes.remaining_lt {s t : TokenStream} (h : s.Precedes t)
    (hc : s.consumed < t.consumed) : t.remaining < s.remaining := by
  have := h.2
  omega

end TokenStream

/-- What comes of reading: a result or an error, and the stream afterwards. -/
inductive Reply (α : Type) where
  | ok (value : α) (rest : TokenStream)
  | fail (e : Error) (rest : TokenStream)

/-- The stream afterwards. -/
def Reply.rest {α : Type} : Reply α → TokenStream
  | .ok _ s => s
  | .fail _ s => s

namespace TokenStream

/-! ### Reading -/

/-- Takes the next token or the end off the lines, asking for lines as long as the lines
so far hold no more. A lexical fault is passed, so that the next reading goes on behind
it. -/
def read (s : TokenStream) : Reply Lookahead :=
  match s.scanner.next with
  | (some e, scanner) =>
    match e.found with
    | .token t => .ok (.token t) { s with scanner }
    | .fault f => .fail (.lexical f) { s with scanner }
  -- The lines so far hold no more tokens.
  | (none, scanner) =>
    let t := { s with scanner }
    if t.exhausted then .ok .endOfInput t
    else
      match _h : s.source.readLine with
      | .line text source =>
        -- A line may hold nothing but blanks and comments, so there may be another one.
        read { t.requested false with scanner := scanner.feed text, source }
      | .endOfInput => .ok .endOfInput { t.requested true with exhausted := true }
      | .broken f => .fail (.inputEncoding f) (t.requested false)
termination_by s.source.size
decreasing_by
  have h := Source.readLine_line _h
  have : 0 < text.length := List.length_pos_iff.2 h.1
  omega

/-- What stands next, which is kept until it is consumed. -/
def lookahead (s : TokenStream) : Reply Lookahead :=
  match s.ahead? with
  | some a => .ok a s
  | none =>
    match s.read with
    | .ok a t => .ok a { t with ahead? := some a }
    | .fail e t => .fail e t

/-- The stream behind what has been looked at. The end stays where it is. -/
def consume (s : TokenStream) : TokenStream :=
  match s.ahead? with
  | some (.token t) =>
    { s with ahead? := none, midStatement := t.text ≠ ";", consumed := s.consumed + 1 }
  | _ => s

/-! ### Reading uses up input -/

/-- What reading does to the amount of input: a token or a fault takes some of it, and
the end is met once. -/
theorem read_spec (s : TokenStream) :
    match s.read with
    | .ok a t => t.ahead? = s.ahead? ∧ t.consumed = s.consumed ∧
        t.remaining + aheadSize (some a) ≤ s.remaining
    | .fail e t => t.ahead? = s.ahead? ∧ t.consumed = s.consumed ∧
        t.remaining ≤ s.remaining ∧ (e.isStatementError = true → t.remaining < s.remaining) := by
  fun_induction read s with
  | case1 s e scanner hn t hf =>
    have := Scanner.next_some_length hn
    simp only [remaining, aheadSize, true_and]
    omega
  | case2 s e scanner hn f hf =>
    have := Scanner.next_some_length hn
    simp only [remaining, true_and]
    omega
  | case3 s scanner hn t hx =>
    have := Scanner.next_none_rest hn
    simp only [remaining, aheadSize, t, this, true_and, List.length_nil]
    omega
  | case4 s scanner hn t hx text source h ih =>
    -- A line moves from the source to the scanner, whose old text is used up.
    have hl := (Source.readLine_line h).2
    have hr : ({ t.requested false with scanner := scanner.feed text, source } :
        TokenStream).remaining ≤ s.remaining := by
      simp only [remaining, requested, t, Scanner.feed]
      omega
    revert ih
    split <;> intro ih
    · refine ⟨ih.1, ih.2.1, ?_⟩
      have := ih.2.2
      omega
    · refine ⟨ih.1, ih.2.1, ?_, fun he => ?_⟩
      · have := ih.2.2.1
        omega
      · have := ih.2.2.2 he
        omega
  | case5 s scanner hn t hx h =>
    -- The end has not been met before, and counts until now.
    have := Scanner.next_none_rest hn
    have hx' : s.exhausted = false := by simpa [t] using hx
    simp only [remaining, requested, t, this, true_and, List.length_nil, hx', aheadSize, endSize]
    simp only [Bool.false_eq_true, if_false, if_true]
    omega
  | case6 s scanner hn t hx f h =>
    have := Scanner.next_none_rest hn
    simp only [remaining, requested, t, this, true_and, List.length_nil, Error.isStatementError]
    refine ⟨?_, by simp⟩
    omega

/-- Looking ahead consumes nothing. On success what was seen is kept; on a lexical fault
there is less input. -/
theorem lookahead_spec (s : TokenStream) :
    match s.lookahead with
    | .ok a t => t.ahead? = some a ∧ t.consumed = s.consumed ∧ t.remaining ≤ s.remaining
    | .fail e t => t.consumed = s.consumed ∧ t.remaining ≤ s.remaining ∧
        (e.isStatementError = true → t.remaining < s.remaining) := by
  unfold lookahead
  cases ha : s.ahead? with
  | some a => simp [ha]
  | none =>
    have hs := read_spec s
    cases hr : s.read with
    | ok a t =>
      rw [hr] at hs
      simp only at hs ⊢
      refine ⟨trivial, hs.2.1, ?_⟩
      have h₁ := hs.1
      have h₂ := hs.2.2
      rw [ha] at h₁
      simp only [remaining, h₁, aheadSize] at h₂ ⊢
      omega
    | fail e t =>
      rw [hr] at hs
      exact hs.2

theorem precedes_lookahead (s : TokenStream) : s.Precedes s.lookahead.rest := by
  have hs := lookahead_spec s
  cases hr : s.lookahead with
  | ok a t =>
    rw [hr] at hs
    simp only [Precedes, Reply.rest] at hs ⊢
    omega
  | fail e t =>
    rw [hr] at hs
    simp only [Precedes, Reply.rest] at hs ⊢
    omega

theorem precedes_consume (s : TokenStream) : s.Precedes s.consume := by
  unfold consume
  split
  · simp only [Precedes, remaining, aheadSize, *]
    omega
  · exact .refl s

/-- A token that stands next is consumed. -/
theorem consumed_consume {s : TokenStream} {t : Token} (h : s.ahead? = some (.token t)) :
    s.consume.consumed = s.consumed + 1 := by
  simp [consume, h]

end TokenStream

end FlatQuery
