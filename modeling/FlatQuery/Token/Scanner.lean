import FlatQuery.Token.Basic

/-!
# The scanner

The scanner cuts a text into lexemes from left to right: the longest token, blank,
line comment or comment mark that stands at the front, one after the other, so that
the lexemes put together are the text again. Most of them say nothing and are
passed over. What is left are the events: tokens, and the two faults that a text can
have, a literal without its closing quote and a character that begins nothing.

Inside a block comment only its end matters, and a comment may stay open when the
text ends. The scanner therefore remembers, from one text to the next, whether a
comment is open and which line it is on. A fault is an event like any other: it
covers the text it is about, and scanning goes on behind it.
-/

set_option autoImplicit false

namespace FlatQuery

/-! ## 1. Lexemes -/

/-- Blanks that separate tokens and do not end a line. -/
def isSeparator (c : Char) : Bool := c == ' ' || c == '\t' || c == '\r' || c == '\x0c'

/-- Characters that a name can start with: unaccented letters and the underscore. -/
def isNameStart (c : Char) : Bool :=
  ('a' ≤ c && c ≤ 'z') || ('A' ≤ c && c ≤ 'Z') || c == '_'

/-- Characters that a name can go on with. -/
def isNamePart (c : Char) : Bool := isNameStart c || ('0' ≤ c && c ≤ '9')

/-- Characters that stand between the quotes of a literal. -/
def isLiteralBody (c : Char) : Bool := c != '\'' && c != '\n'

/-- Characters that a line comment goes on with. -/
def isWithinLine (c : Char) : Bool := c != '\n'

/-- What a lexeme is. -/
inductive Lexeme where
  /-- Blanks, line ends, comment marks and the inside of comments. -/
  | silent
  /-- The mark that opens a block comment. -/
  | commentStart
  /-- The mark that closes a block comment. -/
  | commentEnd
  /-- A token of a kind. -/
  | token (k : Token.Kind)
  /-- A literal whose line ends before its closing quote. -/
  | unterminatedLiteral
  /-- A character that begins no lexeme. -/
  | illegalCharacter
deriving DecidableEq

namespace Lexeme

/-- The lexeme at the front of a text outside comments, given the first character and
what follows it, and how many of the following characters belong to it. -/
def outside (c : Char) (rest : List Char) : Lexeme × Nat :=
  if isSeparator c || c == '\n' then (.silent, 0)
  else if isNameStart c then (.token .identifier, (rest.takeWhile isNamePart).length)
  else if c = '\'' then
    -- The body stops at a quote or at the end of its line; only a quote closes it.
    let body := rest.takeWhile isLiteralBody
    if (rest.drop body.length).head? = some '\'' then (.token .literal, body.length + 1)
    else (.unterminatedLiteral, body.length)
  else if c = '<' ∨ c = '>' then
    -- A sign of two characters wins over its first character.
    (.token .relation, if rest.head? = some '=' then 1 else 0)
  else if c = '!' ∧ rest.head? = some '=' then (.token .relation, 1)
  else if c = '=' then (.token .relation, 0)
  -- One dash, one slash and one exclamation mark begin nothing.
  else if c = '-' ∧ rest.head? = some '-' then
    (.silent, 1 + ((rest.drop 1).takeWhile isWithinLine).length)
  else if c = '/' ∧ rest.head? = some '*' then (.commentStart, 1)
  else if c = '(' then (.token .leftParen, 0)
  else if c = ')' then (.token .rightParen, 0)
  else if c = ',' then (.token .comma, 0)
  else if c = ';' then (.token .semicolon, 0)
  else if c = '.' then (.token .dot, 0)
  else (.illegalCharacter, 0)

/-- The lexeme at the front of a text inside a block comment. -/
def inside (c : Char) (rest : List Char) : Lexeme × Nat :=
  if c = '*' ∧ rest.head? = some '/' then (.commentEnd, 1) else (.silent, 0)

/-- The lexeme at the front of a text. -/
def front (inComment : Bool) (c : Char) (rest : List Char) : Lexeme × Nat :=
  if inComment then inside c rest else outside c rest

/-- Whether a comment is open behind a lexeme. -/
def leavesComment (inComment : Bool) : Lexeme → Bool
  | .commentStart => true
  | .commentEnd => false
  | _ => inComment

end Lexeme

/-! ## 2. Events -/

/-- What is wrong with a text that no token fits. -/
inductive LexicalFault where
  /-- A literal has no closing quote on its line; the text is the rest of the line. -/
  | unterminatedLiteral (text : String)
  /-- A character begins no token, comment or blank. -/
  | illegalCharacter (c : Char) (line : Nat)
deriving DecidableEq

namespace LexicalFault

/-- The wording of a lexical fault. -/
def message : LexicalFault → String
  | .unterminatedLiteral text => "unterminated literal: " ++ text
  | .illegalCharacter c line => s!"illegal character '{c}' on line {line}"

/-- The text that a fault covers. -/
def text : LexicalFault → String
  | .unterminatedLiteral text => text
  | .illegalCharacter c _ => String.singleton c

end LexicalFault

/-- What scanning comes upon. -/
inductive Found where
  | token (t : Token)
  | fault (f : LexicalFault)
deriving DecidableEq

/-- What a lexeme gives to the reader of the text, if it gives anything. -/
def Lexeme.found? (x : Lexeme) (text : List Char) (line : Nat) : Option Found :=
  match x with
  | .token k => some (.token ⟨k, String.ofList text⟩)
  | .unterminatedLiteral => some (.fault (.unterminatedLiteral (String.ofList text)))
  | .illegalCharacter => text.head?.map fun c => .fault (.illegalCharacter c line)
  | _ => none

/-- A token or a fault, and where it starts. -/
structure Event where
  /-- The token or fault. -/
  found : Found
  /-- The line it starts on. -/
  line : Nat
  /-- The number of characters before it in its text. -/
  position : Nat
deriving DecidableEq

/-- The text that an event covers. -/
def Event.text (e : Event) : String :=
  match e.found with
  | .token t => t.text
  | .fault f => f.text

/-! ## 3. The scanner -/

/-- A place in a text: the line, whether a block comment is open, how many characters
are behind and which are ahead. -/
structure Scanner where
  /-- The number of the line, from one. -/
  line : Nat := 1
  /-- Whether a block comment is open. -/
  inComment : Bool := false
  /-- How many characters of the text are behind. -/
  position : Nat := 0
  /-- The characters ahead. -/
  rest : List Char := []
deriving DecidableEq

namespace Scanner

/-- Turns to a new text. The line number and an open comment carry over; whatever was
left of the old text is dropped. -/
def feed (s : Scanner) (text : List Char) : Scanner := { s with position := 0, rest := text }

/-- The scanner behind the lexeme at the front, given the first character, the rest,
the lexeme, and how many further characters it has. Lines are counted by the line
feeds passed. -/
def behind (s : Scanner) (c : Char) (rest : List Char) (x : Lexeme) (n : Nat) : Scanner where
  line := s.line + (c :: rest.take n).count '\n'
  inComment := x.leavesComment s.inComment
  position := s.position + (c :: rest.take n).length
  rest := rest.drop n

theorem behind_rest_length (s : Scanner) (c : Char) (rest : List Char) (x : Lexeme) (n : Nat) :
    (s.behind c rest x n).rest.length ≤ rest.length := by
  simp [behind]

/-- The next event and the scanner behind it, or no event and the scanner at the end of
the text. -/
def next (s : Scanner) : Option Event × Scanner :=
  match _h : s.rest with
  | [] => (none, s)
  | c :: rest =>
    let x := Lexeme.front s.inComment c rest
    match x.1.found? (c :: rest.take x.2) s.line with
    | some f => (some ⟨f, s.line, s.position⟩, s.behind c rest x.1 x.2)
    -- A lexeme that says nothing is passed over.
    | none => next (s.behind c rest x.1 x.2)
termination_by s.rest.length
decreasing_by
  rw [_h, List.length_cons]
  exact Nat.lt_succ_of_le (behind_rest_length s c rest x.1 x.2)

theorem next_of_nil {s : Scanner} (h : s.rest = []) : s.next = (none, s) := by
  rw [next]
  split
  · rfl
  · simp_all

/-- Behind an event less text is ahead. -/
theorem next_some_length {s t : Scanner} {e : Event} (h : s.next = (some e, t)) :
    t.rest.length < s.rest.length := by
  fun_induction next s with
  | case1 s hr => simp at h
  | case2 s c rest hr x f hf =>
    simp only [Prod.mk.injEq] at h
    have := behind_rest_length s c rest x.1 x.2
    rw [hr, List.length_cons, ← h.2]
    omega
  | case3 s c rest hr x hf ih =>
    have := behind_rest_length s c rest x.1 x.2
    have := ih h
    rw [hr, List.length_cons]
    omega

/-- Without an event the text is used up. -/
theorem next_none_rest {s t : Scanner} (h : s.next = (none, t)) : t.rest = [] := by
  fun_induction next s with
  | case1 s hr =>
    simp only [Prod.mk.injEq, true_and] at h
    exact h ▸ hr
  | case2 s c rest hr x f hf => simp at h
  | case3 s c rest hr x hf ih => exact ih h

/-! ## 4. Whole texts -/

/-- All events up to the end of the text, and the scanner there. -/
def events (s : Scanner) : List Event × Scanner :=
  match _h : s.next with
  | (none, t) => ([], t)
  | (some e, t) =>
    let (es, u) := t.events
    (e :: es, u)
termination_by s.rest.length
decreasing_by exact next_some_length _h

/-- The tokens up to the end of the text or the first fault, and the scanner there. -/
def tokens (s : Scanner) : Except LexicalFault (List Event) × Scanner :=
  match _h : s.next with
  | (none, t) => (.ok [], t)
  | (some e, t) =>
    match e.found with
    -- The tokens before the fault are dropped with it, but the scanner stays behind it.
    | .fault f => (.error f, t)
    | .token _ =>
      let (es, u) := t.tokens
      (es.map (e :: ·), u)
termination_by s.rest.length
decreasing_by exact next_some_length _h

end Scanner

end FlatQuery
