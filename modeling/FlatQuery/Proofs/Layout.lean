import FlatQuery.Proofs.Feeding
import FlatQuery.Proofs.Lexical

/-!
# What a text is made up of

Every character of a command text belongs to one piece: a token, a literal that is not
closed on its line, a character that begins nothing, a blank or a line end, a line comment
or a block comment. The first three are the events that the scanner gives out and the
others are passed over, so the events with the pieces between them are the whole text
(`Scanner.exists_makeUp`).

What may stand in which place is said in the words of the text alone
(`Piece.StandsBefore`). A token is the longest text that has the form of a token there,
whatever its kind; the unclosed literal and the line comment reach to the end of their
line; a character that begins nothing is a single one; a block comment ends with the first
closing mark behind its opening mark, or at the end of the text if there is none, and the
next text then begins inside it. From the pieces everything else is read off: where an
event starts, which line that is, and what stands there (`Event.Accounts`).

Longest match is where the scanner and the written form of tokens meet. That each lexeme
found is a token says only that it is not too long. That none longer stands there, and that
no token stands where a fault is found, is the other half: a token at the front of a text
makes the scanner find a token there, at least as long (`Lexeme.outside_of_isLexical`).
-/

set_option autoImplicit false

namespace FlatQuery

/-! ## 1. The longest token -/

namespace Token

/-- Whether a token is the longest that stands at the front of a text. -/
structure IsLongest (t : Token) (ahead : List Char) : Prop where
  /-- It is written as its kind is. -/
  lexical : t.IsLexical
  /-- It stands there. -/
  front : t.text.toList <+: ahead
  /-- No token of any kind that stands there is longer. -/
  longest : ∀ u : Token, u.IsLexical → u.text.toList <+: ahead →
    u.text.toList.length ≤ t.text.toList.length

/-- No token is empty. -/
theorem IsLexical.exists_cons {t : Token} (h : t.IsLexical) :
    ∃ c cs, t.text.toList = c :: cs := by
  obtain ⟨k, text⟩ := t
  cases k with
  | identifier =>
    obtain ⟨c, cs, htext, -⟩ := h
    exact ⟨c, cs, by rw [htext, String.toList_ofList]⟩
  | literal =>
    obtain ⟨body, htext, -⟩ := h
    exact ⟨_, _, by rw [htext, String.toList_ofList]⟩
  | relation =>
    obtain ⟨r, htext⟩ := h
    rw [htext]
    cases r <;> exact ⟨_, _, rfl⟩
  | leftParen | rightParen | comma | semicolon | dot =>
    rw [show text = _ from h]
    exact ⟨_, _, rfl⟩

end Token

/-- Whether every token ends before a text, because no name and no sign goes on with it. -/
def EndsTokens (ahead : List Char) : Prop :=
  ∀ c ∈ ahead.head?, isNamePart c = false ∧ c ≠ '='

/-- Where tokens end, no name goes on. -/
theorem EndsTokens.takeWhile_isNamePart {ahead : List Char} (h : EndsTokens ahead) :
    ahead.takeWhile isNamePart = [] := by
  cases ahead with
  | nil => rfl
  | cons c rest => exact List.takeWhile_cons_of_neg (Bool.eq_false_iff.1 (h c rfl).1)

/-- Where tokens end, no relation goes on. -/
theorem EndsTokens.head?_ne {ahead : List Char} (h : EndsTokens ahead) :
    ahead.head? ≠ some '=' :=
  fun hhead => (h _ hhead).2 rfl

namespace Lexeme

/-- A name goes on as long as there are parts of one. -/
theorem outside_of_isNameStart {c : Char} (h : isNameStart c = true) (rest : List Char) :
    outside c rest = (.token .identifier, (rest.takeWhile isNamePart).length) := by
  have hblank : ¬(isSeparator c || c == '\n') = true := by
    intro hb
    simp only [isSeparator, Bool.or_eq_true, beq_iff_eq] at hb
    obtain ((((rfl | rfl) | rfl) | rfl) | rfl) := hb <;> exact absurd h (by decide)
  rw [outside, if_neg hblank, if_pos h]

/-- A literal goes on to its quote. -/
theorem outside_of_literal {body : List Char} (h : ∀ d ∈ body, isLiteralBody d = true)
    (more : List Char) :
    outside '\'' (body ++ '\'' :: more) = (.token .literal, body.length + 1) := by
  have hbody : (body ++ '\'' :: more).takeWhile isLiteralBody = body := by
    rw [List.takeWhile_append_of_pos h, List.takeWhile_cons_of_neg (by decide), List.append_nil]
  have hclose : ((body ++ '\'' :: more).drop body.length).head? = some '\'' := by
    rw [List.drop_left]
    rfl
  simp only [outside, hbody, hclose]
  rfl

private theorem toList_symbol (r : Relation) :
    r.symbol.toList =
      match r with
      | .less => ['<']
      | .greater => ['>']
      | .equal => ['=']
      | .different => ['!', '=']
      | .atMost => ['<', '=']
      | .atLeast => ['>', '='] := by
  cases r <;> rfl

/-- Where a text begins with a token, a token is found that is at least as long, and no longer
if every token ends there. -/
theorem outside_of_isLexical {t : Token} (h : t.IsLexical) {c : Char} {cs : List Char}
    (htext : t.text.toList = c :: cs) (more : List Char) :
    ∃ n, outside c (cs ++ more) = (.token t.kind, n) ∧ cs.length ≤ n ∧
      (EndsTokens more → n = cs.length) := by
  obtain ⟨k, text⟩ := t
  change text.toList = c :: cs at htext
  -- By kind: a name goes on as far as its parts, a literal to its quote, and a relation of one sign
  -- could still become one of two.
  cases k with
  | identifier =>
    obtain ⟨d, ds, hd, hstart, hpart⟩ := h
    rw [show text = _ from hd, String.toList_ofList, List.cons.injEq] at htext
    obtain ⟨rfl, rfl⟩ := htext
    refine ⟨_, outside_of_isNameStart hstart _, ?_, fun hends => ?_⟩
    · rw [List.takeWhile_append_of_pos hpart, List.length_append]
      exact Nat.le_add_right _ _
    · rw [List.takeWhile_append_of_pos hpart, hends.takeWhile_isNamePart, List.append_nil]
  | literal =>
    obtain ⟨body, hd, hbody⟩ := h
    rw [show text = _ from hd, String.toList_ofList, List.cons.injEq] at htext
    obtain ⟨rfl, rfl⟩ := htext
    have hlength : (body ++ ['\'']).length = body.length + 1 := List.length_append
    rw [List.append_assoc, List.singleton_append]
    exact ⟨_, outside_of_literal hbody more, hlength.le, fun _ => hlength.symm⟩
  | relation =>
    obtain ⟨r, hr⟩ := h
    rw [show text = _ from hr] at htext
    rw [toList_symbol] at htext
    cases r with
    | less | greater =>
      obtain ⟨rfl, rfl⟩ := List.cons.inj htext
      exact ⟨_, rfl, Nat.zero_le _, fun hends => if_neg hends.head?_ne⟩
    | equal | different | atMost | atLeast =>
      obtain ⟨rfl, rfl⟩ := List.cons.inj htext
      exact ⟨_, rfl, Nat.le_refl _, fun _ => rfl⟩
  | leftParen | rightParen | comma | semicolon | dot =>
    rw [show text = _ from h] at htext
    obtain ⟨rfl, rfl⟩ := List.cons.inj htext
    exact ⟨0, rfl, Nat.le_refl 0, fun _ => rfl⟩

/-- So a token that stands at the front of a text is found, or a longer one. -/
theorem outside_of_prefix {t : Token} (h : t.IsLexical) {c : Char} {rest : List Char}
    (hfront : t.text.toList <+: c :: rest) :
    ∃ n, outside c rest = (.token t.kind, n) ∧ t.text.toList.length ≤ n + 1 := by
  obtain ⟨d, ds, htext⟩ := h.exists_cons
  rw [htext] at hfront ⊢
  obtain ⟨rfl, more, rfl⟩ := List.cons_prefix_cons.1 hfront
  obtain ⟨n, hn, hlen, -⟩ := outside_of_isLexical h htext more
  exact ⟨n, hn, Nat.succ_le_succ hlen⟩

/-- The token found at the front of a text is the longest there. -/
theorem isLongest_of_outside {c : Char} {rest : List Char} {k : Token.Kind} {n : Nat}
    (h : outside c rest = (.token k, n)) :
    Token.IsLongest ⟨k, String.ofList (c :: rest.take n)⟩ (c :: rest) := by
  have hn : n ≤ rest.length := by
    have hle := outside_le c rest
    rwa [h] at hle
  have hlength : (String.ofList (c :: rest.take n)).toList.length = n + 1 := by
    rw [String.toList_ofList, List.length_cons, List.length_take, Nat.min_eq_left hn]
  refine ⟨outside_isLexical h, ?_, ?_⟩
  · rw [String.toList_ofList, List.cons_prefix_cons]
    exact ⟨rfl, List.take_prefix n rest⟩
  -- A longer token would have been found instead.
  · intro u hu hfront
    obtain ⟨m, hm, hlen⟩ := outside_of_prefix hu hfront
    rw [h, Prod.mk.injEq] at hm
    rw [hlength, hm.2]
    exact hlen

/-- Where no token is found, none stands. -/
theorem not_prefix_of_outside {c : Char} {rest : List Char} {x : Lexeme} {n : Nat}
    (h : outside c rest = (x, n)) (hx : ∀ k, x ≠ .token k) (t : Token) (ht : t.IsLexical) :
    ¬t.text.toList <+: c :: rest := by
  intro hfront
  obtain ⟨m, hm, -⟩ := outside_of_prefix ht hfront
  rw [h, Prod.mk.injEq] at hm
  exact hx t.kind hm.1

end Lexeme

/-! ## 2. Pieces -/

/-- Whether a text is at the end of a line. -/
def AtLineEnd (ahead : List Char) : Prop := ∀ c ∈ ahead.head?, c = '\n'

/-- Whether nothing begins at the front of a text. -/
structure BeginsNothing (ahead : List Char) : Prop where
  /-- No token. -/
  token : ∀ t : Token, t.IsLexical → ¬t.text.toList <+: ahead
  /-- No blank and no line end. -/
  blank : ∀ c ∈ ahead.head?, (isSeparator c || c == '\n') = false
  /-- No literal, closed or not. -/
  literal : ¬['\''] <+: ahead
  /-- No line comment. -/
  lineComment : ¬['-', '-'] <+: ahead
  /-- No block comment. -/
  comment : ¬['/', '*'] <+: ahead

/-- Whether a text begins with a quote that is not closed on its line. -/
def LacksQuote (ahead : List Char) : Prop :=
  ∃ behind, ahead = '\'' :: behind ∧ '\'' ∉ behind.takeWhile isWithinLine

/-- A piece of a text. -/
inductive Piece where
  /-- A token. -/
  | token (t : Token)
  /-- A literal that is not closed on its line, without its quote. -/
  | unterminatedLiteral (body : List Char)
  /-- A character that begins nothing. -/
  | illegalCharacter (c : Char)
  /-- A blank or a line end. -/
  | blank (c : Char)
  /-- A line comment, without its mark. -/
  | lineComment (body : List Char)
  /-- A block comment, without its marks, and whether it is opened and closed in the text. -/
  | comment (opened : Bool) (body : List Char) (closed : Bool)

namespace Piece

/-- The characters of a piece. -/
def text : Piece → List Char
  | .token t => t.text.toList
  | .unterminatedLiteral body => '\'' :: body
  | .illegalCharacter c => [c]
  | .blank c => [c]
  | .lineComment body => '-' :: '-' :: body
  | .comment opened body closed =>
    (if opened then ['/', '*'] else []) ++ body ++ if closed then ['*', '/'] else []

/-- Whether a comment is open before a piece. -/
def startsInComment : Piece → Bool
  | .comment opened _ _ => !opened
  | _ => false

/-- Whether a comment is open behind a piece. -/
def leavesComment : Piece → Bool
  | .comment _ _ closed => !closed
  | _ => false

/-- What a piece gives to the reader of the text, if it gives anything. -/
def found? (line : Nat) : Piece → Option Found
  | .token t => some (.token t)
  | .unterminatedLiteral body =>
    some (.fault (.unterminatedLiteral (String.ofList ('\'' :: body))))
  | .illegalCharacter c => some (.fault (.illegalCharacter c line))
  | _ => none

/-- Whether a piece may stand before what is behind it. -/
def StandsBefore (behind : List Char) : Piece → Prop
  | .token t => t.IsLongest (t.text.toList ++ behind)
  | .unterminatedLiteral body => (∀ d ∈ body, isLiteralBody d = true) ∧ AtLineEnd behind
  | .illegalCharacter c => BeginsNothing (c :: behind)
  | .blank c => (isSeparator c || c == '\n') = true
  | .lineComment body => (∀ d ∈ body, isWithinLine d = true) ∧ AtLineEnd behind
  -- The closing mark is the first one: its own star ends no earlier one either.
  | .comment _ body true => ¬['*', '/'] <:+: body ++ ['*']
  | .comment _ body false => ¬['*', '/'] <:+: body ∧ behind = []

/-- Whether a text is made up of these pieces, from inside a comment or not and to inside a
comment or not. -/
inductive MakeUp : Bool → List Piece → List Char → Bool → Prop where
  | nil (inComment : Bool) : MakeUp inComment [] [] inComment
  | cons {p : Piece} {ps : List Piece} {behind : List Char} {b : Bool}
      (stands : p.StandsBefore behind) (rest : MakeUp p.leavesComment ps behind b) :
      MakeUp p.startsInComment (p :: ps) (p.text ++ behind) b

/-- The events of the pieces of a text, from a line and a place on. -/
def events (line position : Nat) : List Piece → List Event
  | [] => []
  | p :: ps =>
    (p.found? line).toList.map (Event.mk · line position) ++
      events (line + p.text.count '\n') (position + p.text.length) ps

/-- A piece that gives something is not empty. -/
theorem length_pos_of_found? {p : Piece} {behind : List Char} (h : p.StandsBefore behind)
    {line : Nat} {f : Found} (hf : p.found? line = some f) : 0 < p.text.length := by
  cases p with
  | token t =>
    obtain ⟨c, cs, htext⟩ := h.lexical.exists_cons
    rw [text, htext]
    exact Nat.succ_pos _
  | unterminatedLiteral body => exact Nat.succ_pos _
  | illegalCharacter c => exact Nat.one_pos
  | blank | lineComment | comment => cases hf

/-- Every event is a piece, and stands where what is before the piece ends. -/
theorem MakeUp.of_mem_events {b d : Bool} {ps : List Piece} {cs : List Char}
    (h : MakeUp b ps cs d) {line position : Nat} {e : Event}
    (he : e ∈ events line position ps) :
    ∃ (before : List Char) (p : Piece) (behind : List Char),
      cs = before ++ (p.text ++ behind) ∧ p.StandsBefore behind ∧
      p.found? e.line = some e.found ∧ e.position = position + before.length ∧
      e.line = line + before.count '\n' := by
  induction h generalizing line position with
  | nil => exact absurd he List.not_mem_nil
  | @cons p ps behind b stands rest ih =>
    rw [events, List.mem_append] at he
    rcases he with he | he
    · obtain ⟨f, hf, rfl⟩ := List.mem_map.1 he
      exact ⟨[], p, behind, rfl, stands, Option.mem_toList.1 hf, rfl, rfl⟩
    · obtain ⟨before, q, after, rfl, hstands, hfound, hposition, hline⟩ := ih he
      refine ⟨p.text ++ before, q, after, (List.append_assoc ..).symm, hstands, hfound, ?_, ?_⟩
      · rw [hposition, List.length_append, Nat.add_assoc]
      · rw [hline, List.count_append, Nat.add_assoc]

/-- Each event starts behind the start of the event before it. -/
theorem MakeUp.pairwise_events {b d : Bool} {ps : List Piece} {cs : List Char}
    (h : MakeUp b ps cs d) (line position : Nat) :
    (events line position ps).Pairwise fun x y => x.position < y.position := by
  induction h generalizing line position with
  | nil => exact List.Pairwise.nil
  | @cons p ps behind b stands rest ih =>
    rw [events]
    rcases hf : p.found? line with _ | f
    · exact ih _ _
    -- What comes later is behind the piece, and a piece that gives an event is not empty.
    · refine List.pairwise_cons.2 ⟨fun e he => ?_, ih _ _⟩
      obtain ⟨before, -, -, -, -, -, hposition, -⟩ := rest.of_mem_events he
      have hpos := length_pos_of_found? stands hf
      change position < e.position
      omega

end Piece

/-! ## 3. The piece ahead -/

/-- Behind a run of characters comes none that the run could go on with. -/
theorem eq_false_of_mem_head?_drop {p : Char → Bool} {rest : List Char} {d : Char}
    (h : d ∈ (rest.drop (rest.takeWhile p).length).head?) : p d = false := by
  have hdrop : rest.drop (rest.takeWhile p).length = rest.dropWhile p := by
    have hleft := @List.drop_left _ (rest.takeWhile p) (rest.dropWhile p)
    rwa [List.takeWhile_append_dropWhile] at hleft
  have hhead := List.head?_dropWhile_not p rest
  rw [hdrop, Option.mem_def] at h
  rw [h] at hhead
  exact hhead

/-- Where the front of a text is found to begin nothing, nothing begins there. -/
theorem beginsNothing_of_outside {c : Char} {rest : List Char} {n : Nat}
    (h : Lexeme.outside c rest = (.illegalCharacter, n)) : BeginsNothing (c :: rest) := by
  refine ⟨Lexeme.not_prefix_of_outside h (by simp), ?_, ?_, ?_, ?_⟩
  · intro d hd
    rw [List.head?_cons, Option.mem_some_iff] at hd
    subst hd
    rw [← Bool.not_eq_true]
    intro hblank
    rw [Lexeme.outside, if_pos hblank] at h
    simp at h
  -- A quote begins a literal, closed or not.
  · intro hfront
    obtain ⟨rfl, -⟩ := List.cons_prefix_cons.1 hfront
    have hquote : Lexeme.outside '\'' rest =
        if (rest.drop (rest.takeWhile isLiteralBody).length).head? = some '\'' then
          (.token .literal, (rest.takeWhile isLiteralBody).length + 1)
        else (.unterminatedLiteral, (rest.takeWhile isLiteralBody).length) := rfl
    rw [hquote] at h
    split at h <;> simp at h
  · rintro ⟨more, hmore⟩
    obtain ⟨rfl, rfl⟩ := List.cons.inj hmore
    have hline : Lexeme.outside '-' ('-' :: more) =
        (.silent, 1 + (more.takeWhile isWithinLine).length) := rfl
    exact absurd (hline.symm.trans h) (by simp)
  · rintro ⟨more, hmore⟩
    obtain ⟨rfl, rfl⟩ := List.cons.inj hmore
    have hstart : Lexeme.outside '/' ('*' :: more) = (.commentStart, 1) := rfl
    exact absurd (hstart.symm.trans h) (by simp)

namespace Scanner

/-- The scanner behind a piece of the text ahead. -/
def past (s : Scanner) (p : Piece) (behind : List Char) : Scanner where
  line := s.line + p.text.count '\n'
  inComment := p.leavesComment
  position := s.position + p.text.length
  rest := behind

/-- Whether a piece is ahead, with what is behind it: it may stand there, the events to come
are its own and those behind it. -/
structure Meets (s : Scanner) (p : Piece) (behind : List Char) : Prop where
  nonempty : p.text ≠ []
  inComment : s.inComment = p.startsInComment
  rest : s.rest = p.text ++ behind
  stands : p.StandsBefore behind
  events : s.events =
    ((p.found? s.line).toList.map (Event.mk · s.line s.position) ++ (s.past p behind).events.1,
      (s.past p behind).events.2)

/-- What the first character gives, and what is behind its lexeme. -/
theorem events_of_cons {s : Scanner} {c : Char} {rest : List Char} {x : Lexeme} {n : Nat}
    (hs : s.rest = c :: rest) (hx : Lexeme.front s.inComment c rest = (x, n)) :
    s.events =
      ((x.found? (c :: rest.take n) s.line).toList.map (Event.mk · s.line s.position) ++
        (s.behind c rest x n).events.1, (s.behind c rest x n).events.2) := by
  have hnext := next_of_cons hs
  rw [hx] at hnext
  rcases hf : x.found? (c :: rest.take n) s.line with _ | f
  · rw [hf] at hnext
    exact events_congr hnext
  · rw [hf] at hnext
    exact events_of_some hnext

/-- A lexeme of the same characters is the piece ahead. -/
theorem meets_of_outside {s : Scanner} {c : Char} {rest : List Char} {x : Lexeme} {n : Nat}
    (hs : s.rest = c :: rest) (hb : s.inComment = false)
    (hx : Lexeme.outside c rest = (x, n)) {p : Piece} (htext : c :: rest.take n = p.text)
    (hfound : x.found? p.text s.line = p.found? s.line)
    (hstarts : p.startsInComment = false) (hleaves : x.leavesComment false = p.leavesComment)
    (hstands : p.StandsBefore (rest.drop n)) : s.Meets p (rest.drop n) := by
  have hbehind : s.behind c rest x n = s.past p (rest.drop n) := by
    rw [behind, past, htext, hb, hleaves]
  refine ⟨?_, hb.trans hstarts.symm, ?_, hstands, ?_⟩
  · rw [← htext]
    exact List.cons_ne_nil _ _
  · rw [hs, ← htext, List.cons_append, List.take_append_drop]
  · have hfront : Lexeme.front s.inComment c rest = (x, n) := by
      rw [hb]
      exact hx
    rw [events_of_cons hs hfront, htext, hfound, hbehind]

/-- A character before a text without closing mark makes none, unless it is the star of
one. -/
private theorem not_infix_cons {c : Char} {rest xs : List Char}
    (hc : ¬(c = '*' ∧ rest.head? = some '/')) (hxs : xs <+: rest)
    (h : ¬['*', '/'] <:+: xs) : ¬['*', '/'] <:+: c :: xs := by
  intro hin
  rcases List.infix_cons_iff.1 hin with hfront | hin
  · obtain ⟨hstar, hslash⟩ := List.cons_prefix_cons.1 hfront
    obtain ⟨more, rfl⟩ := hslash.trans hxs
    exact hc ⟨hstar.symm, rfl⟩
  · exact h hin

/-- A character of a comment's body is passed alone: it begins no closing mark, and behind it
the comment goes on. -/
private theorem stands_of_cons {c : Char} {body behind : List Char} {closed : Bool}
    (h : (Piece.comment false (c :: body) closed).StandsBefore behind) :
    ¬(c = '*' ∧ ((Piece.comment false body closed).text ++ behind).head? = some '/') ∧
      (Piece.comment false body closed).StandsBefore behind := by
  cases closed with
  | false =>
    obtain ⟨hin, rfl⟩ := h
    refine ⟨?_, fun hmore => hin (List.infix_cons hmore), rfl⟩
    rintro ⟨rfl, hhead⟩
    obtain ⟨more, hmore⟩ := List.head?_eq_some_iff.1 hhead
    have hbody : body = '/' :: more := by simpa [Piece.text] using hmore
    exact hin ⟨[], more, by rw [hbody]; rfl⟩
  | true =>
    refine ⟨?_, fun hmore => h (List.infix_cons hmore)⟩
    rintro ⟨rfl, hhead⟩
    cases body with
    | nil => exact absurd hhead (by simp [Piece.text])
    | cons d more =>
      have hd : d = '/' := by simpa [Piece.text] using hhead
      exact h ⟨[], more ++ ['*'], by rw [hd]; rfl⟩

/-- Inside a comment the rest of it is passed, up to its closing mark or to the end of the
text, and gives nothing. -/
theorem events_of_comment (line position : Nat) {body behind : List Char} {closed : Bool}
    (h : (Piece.comment false body closed).StandsBefore behind) :
    (Scanner.mk line true position ((Piece.comment false body closed).text ++ behind)).events =
      ((Scanner.mk line true position ((Piece.comment false body closed).text ++ behind)).past
        (.comment false body closed) behind).events := by
  induction body generalizing line position with
  | nil =>
    cases closed with
    | false =>
      obtain ⟨-, rfl⟩ := h
      rfl
    | true => exact events_of_cons (s := ⟨line, true, position, _⟩) rfl rfl
  | cons c body ih =>
    obtain ⟨hc, hbody⟩ := stands_of_cons h
    -- The character does not close the comment, because the comment stands before its mark.
    have hfront : Lexeme.front true c ((Piece.comment false body closed).text ++ behind) =
        (.silent, 0) := if_neg hc
    have htext : (Piece.comment false (c :: body) closed).text =
        [c] ++ (Piece.comment false body closed).text := rfl
    have hpast : (Scanner.mk (line + [c].count '\n') true (position + 1)
          ((Piece.comment false body closed).text ++ behind)).past
            (.comment false body closed) behind =
        (Scanner.mk line true position
          ((Piece.comment false (c :: body) closed).text ++ behind)).past
            (.comment false (c :: body) closed) behind := by
      simp only [past, htext, List.count_append, List.length_append, Nat.add_assoc]
      rfl
    refine (events_of_cons (s := ⟨line, true, position, _⟩) rfl hfront).trans ?_
    rw [← hpast, ← ih _ _ hbody]
    rfl

/-- Inside a comment the piece ahead is the rest of it, up to the first closing mark or, if
there is none, to the end of the text. -/
theorem exists_comment (rest : List Char) :
    ∃ body closed behind,
      rest = (Piece.comment false body closed).text ++ behind ∧
      (Piece.comment false body closed).StandsBefore behind := by
  induction rest with
  | nil =>
    refine ⟨[], false, [], rfl, ?_, rfl⟩
    rw [List.infix_nil]
    exact List.cons_ne_nil _ _
  | cons c rest ih =>
    -- Either the closing mark is at the front, or one character is passed and the text behind
    -- it is inside the comment again.
    by_cases hc : c = '*' ∧ rest.head? = some '/'
    · obtain ⟨rfl, hhead⟩ := hc
      obtain ⟨more, rfl⟩ := List.head?_eq_some_iff.1 hhead
      refine ⟨[], true, more, rfl, ?_⟩
      intro hin
      exact absurd hin.length_le (by decide)
    · obtain ⟨body, closed, behind, hrest, hstands⟩ := ih
      refine ⟨c :: body, closed, behind, ?_, ?_⟩
      · rw [hrest]
        rfl
      · cases closed with
        | false =>
          obtain ⟨hin, rfl⟩ := hstands
          refine ⟨not_infix_cons hc ?_ hin, rfl⟩
          rw [hrest]
          exact ⟨[], by simp [Piece.text]⟩
        | true =>
          refine not_infix_cons hc ?_ hstands
          rw [hrest]
          exact ⟨'/' :: behind, by simp [Piece.text]⟩

/-- Within a comment the piece ahead is the rest of the comment. -/
theorem exists_meets_of_inComment {s : Scanner} (hb : s.inComment = true) (hne : s.rest ≠ []) :
    ∃ p behind, s.Meets p behind := by
  rcases s with ⟨line, inComment, position, rest⟩
  subst hb
  obtain ⟨body, closed, behind, rfl, hstands⟩ := exists_comment rest
  refine ⟨_, behind, ?_, rfl, rfl, hstands, events_of_comment line position hstands⟩
  intro hnil
  cases closed with
  | false =>
    apply hne
    change (Piece.comment false body false).text ++ behind = []
    rw [hnil, hstands.2, List.append_nil]
  | true => simp [Piece.text] at hnil

/-- The mark that opens a comment is passed, and then the rest of the comment. -/
theorem events_of_commentStart {s : Scanner} (hb : s.inComment = false) {body behind : List Char}
    {closed : Bool} (hs : s.rest = (Piece.comment true body closed).text ++ behind)
    (h : (Piece.comment true body closed).StandsBefore behind) :
    s.events = (s.past (.comment true body closed) behind).events := by
  -- Behind the opening marks the comment goes on like any other.
  have hbody : (Piece.comment false body closed).StandsBefore behind := by
    cases closed with
    | false => exact h
    | true => exact h
  have htext : (Piece.comment true body closed).text =
      ['/', '*'] ++ (Piece.comment false body closed).text := by
    simp [Piece.text]
  have hcons : s.rest = '/' :: '*' :: ((Piece.comment false body closed).text ++ behind) := by
    rw [hs, htext]
    rfl
  have hfront : Lexeme.front s.inComment '/'
      ('*' :: ((Piece.comment false body closed).text ++ behind)) = (.commentStart, 1) := by
    rw [hb]
    rfl
  have hpast : (Scanner.mk (s.line + ['/', '*'].count '\n') true (s.position + 2)
        ((Piece.comment false body closed).text ++ behind)).past (.comment false body closed)
        behind = s.past (.comment true body closed) behind := by
    simp only [past, htext, List.count_append, List.length_append, Nat.add_assoc]
    rfl
  refine (events_of_cons hcons hfront).trans ?_
  rw [← hpast, ← events_of_comment _ _ hbody]
  rfl

/-- Where a comment is opened, the piece ahead is the comment. -/
theorem exists_meets_of_commentStart {s : Scanner} (hb : s.inComment = false)
    {more : List Char} (hs : s.rest = '/' :: '*' :: more) : ∃ p behind, s.Meets p behind := by
  obtain ⟨body, closed, behind, rfl, hstands⟩ := exists_comment more
  have htext : (Piece.comment true body closed).text =
      ['/', '*'] ++ (Piece.comment false body closed).text := by
    simp [Piece.text]
  have hrest : s.rest = (Piece.comment true body closed).text ++ behind := by
    rw [hs, htext]
    rfl
  have hopened : (Piece.comment true body closed).StandsBefore behind := by
    cases closed with
    | false => exact hstands
    | true => exact hstands
  refine ⟨.comment true body closed, behind, ?_, hb, hrest, hopened,
    events_of_commentStart hb hrest hopened⟩
  rw [htext]
  exact List.cons_ne_nil _ _

/-- Where a token is found, it is the piece ahead. -/
theorem exists_meets_of_token {s : Scanner} {c : Char} {rest : List Char} {k : Token.Kind}
    {n : Nat} (hb : s.inComment = false) (hs : s.rest = c :: rest)
    (hx : Lexeme.outside c rest = (.token k, n)) : ∃ p behind, s.Meets p behind := by
  have htext : (Piece.token ⟨k, String.ofList (c :: rest.take n)⟩).text = c :: rest.take n :=
    String.toList_ofList
  refine ⟨_, _, meets_of_outside hs hb hx htext.symm ?_ rfl rfl ?_⟩
  · rw [htext]
    rfl
  · have hall : (String.ofList (c :: rest.take n)).toList ++ rest.drop n = c :: rest := by
      rw [String.toList_ofList, List.cons_append, List.take_append_drop]
    change Token.IsLongest _ ((String.ofList (c :: rest.take n)).toList ++ rest.drop n)
    rw [hall]
    exact Lexeme.isLongest_of_outside hx

/-- Where a literal is not closed on its line, what there is of it is the piece ahead. -/
theorem exists_meets_of_unterminated {s : Scanner} {rest : List Char}
    (hb : s.inComment = false) (hs : s.rest = '\'' :: rest)
    (hq : (rest.drop (rest.takeWhile isLiteralBody).length).head? ≠ some '\'')
    (hx : Lexeme.outside '\'' rest =
      (.unterminatedLiteral, (rest.takeWhile isLiteralBody).length)) :
    ∃ p behind, s.Meets p behind := by
  have htake : rest.take (rest.takeWhile isLiteralBody).length = rest.takeWhile isLiteralBody :=
    (List.prefix_iff_eq_take.1 (List.takeWhile_prefix isLiteralBody)).symm
  refine ⟨.unterminatedLiteral (rest.takeWhile isLiteralBody), _,
    meets_of_outside hs hb hx (congrArg _ htake) rfl rfl rfl ⟨?_, ?_⟩⟩
  · exact fun d hd => List.mem_takeWhile_imp hd
  · -- A body breaks off at a quote or at a line end, and there is no quote.
    intro d hd
    have hend := eq_false_of_mem_head?_drop hd
    by_contra hne
    have hquote : d = '\'' := by simpa [isLiteralBody, hne] using hend
    subst hquote
    exact hq hd

/-- Where a line comment begins, the piece ahead is the rest of the line. -/
theorem exists_meets_of_lineComment {s : Scanner} {more : List Char} (hb : s.inComment = false)
    (hs : s.rest = '-' :: '-' :: more) :
    ∃ p behind, s.Meets p behind := by
  have hx : Lexeme.outside '-' ('-' :: more) =
      (.silent, (more.takeWhile isWithinLine).length + 1) := by
    rw [Nat.add_comm]
    rfl
  refine ⟨.lineComment (more.takeWhile isWithinLine), _,
    meets_of_outside hs hb hx ?_ rfl rfl rfl ⟨?_, ?_⟩⟩
  · rw [List.take_succ_cons, ← List.prefix_iff_eq_take.1 (List.takeWhile_prefix isWithinLine)]
    rfl
  · exact fun d hd => List.mem_takeWhile_imp hd
  · intro d hd
    rw [List.drop_succ_cons] at hd
    simpa [isWithinLine] using eq_false_of_mem_head?_drop hd

/-- As long as text is ahead, a piece of it is. -/
theorem exists_meets {s : Scanner} (hne : s.rest ≠ []) : ∃ p behind, s.Meets p behind := by
  cases hb : s.inComment with
  | true => exact exists_meets_of_inComment hb hne
  | false =>
    -- Every lexeme that can be found at the front makes a piece, the tokens all in the same way.
    obtain ⟨c, rest, hs⟩ := List.exists_cons_of_ne_nil hne
    have htoken {k : Token.Kind} {n : Nat} :
        Lexeme.outside c rest = (.token k, n) → ∃ p behind, s.Meets p behind :=
      fun hx => exists_meets_of_token hb hs hx
    refine Lexeme.outside_cases
      (P := fun r => Lexeme.outside c rest = r → ∃ p behind, s.Meets p behind)
      ?blank (fun _ => htoken) (fun _ _ => htoken) ?unterminated (fun _ => htoken)
      (fun _ _ => htoken) (fun _ => htoken) ?lineComment ?commentStart (fun _ => htoken)
      (fun _ => htoken) (fun _ => htoken) (fun _ => htoken) (fun _ => htoken) ?illegal rfl
    case blank =>
      intro hc hx
      exact ⟨.blank c, _, meets_of_outside hs hb hx rfl rfl rfl rfl hc⟩
    case unterminated =>
      rintro rfl hq hx
      exact exists_meets_of_unterminated hb hs hq hx
    case lineComment =>
      rintro rfl hhead -
      obtain ⟨more, rfl⟩ := List.head?_eq_some_iff.1 hhead
      exact exists_meets_of_lineComment hb hs
    case commentStart =>
      rintro rfl hhead -
      obtain ⟨more, rfl⟩ := List.head?_eq_some_iff.1 hhead
      exact exists_meets_of_commentStart hb hs
    case illegal =>
      intro hx
      exact ⟨.illegalCharacter c, _,
        meets_of_outside hs hb hx rfl rfl rfl rfl (beginsNothing_of_outside hx)⟩

/-- **A text is made up of pieces**, and its events are those of the pieces. -/
theorem exists_makeUp (s : Scanner) :
    ∃ ps, Piece.MakeUp s.inComment ps s.rest s.events.2.inComment ∧
      s.events.1 = Piece.events s.line s.position ps := by
  induction h : s.rest.length using Nat.strong_induction_on generalizing s with
  | _ n ih =>
    subst h
    by_cases hne : s.rest = []
    · rw [events_of_none (next_of_nil hne), hne]
      exact ⟨[], .nil _, rfl⟩
    -- The piece ahead is made, and the text behind it is shorter.
    · obtain ⟨p, behind, hmeets⟩ := exists_meets hne
      have hlt : (s.past p behind).rest.length < s.rest.length := by
        have hpos := List.length_pos_of_ne_nil hmeets.nonempty
        rw [hmeets.rest, List.length_append]
        change behind.length < _
        omega
      obtain ⟨ps, hps, hevents⟩ := ih _ hlt (s.past p behind) rfl
      refine ⟨p :: ps, ?_, ?_⟩
      · rw [hmeets.inComment, hmeets.rest, hmeets.events]
        exact .cons hmeets.stands hps
      · rw [hmeets.events, hevents]
        rfl

end Scanner

/-! ## 4. What stands where an event is -/

/-- Whether the text ahead is what was found there, on this line. -/
def Found.Fits (ahead : List Char) (line : Nat) : Found → Prop
  | .token t => t.IsLongest ahead
  -- The rest of the line, from the quote on.
  | .fault (.unterminatedLiteral text) => text.toList = ahead.takeWhile isWithinLine
  | .fault (.illegalCharacter c n) => ahead.head? = some c ∧ BeginsNothing ahead ∧ n = line

/-- Whether an event says what its text, which begins on this line, has at its place. -/
structure Event.Accounts (line : Nat) (text : List Char) (e : Event) : Prop where
  /-- Its text stands there. -/
  slice : e.text.toList <+: text.drop e.position
  /-- It is what is to be found there. -/
  fits : e.found.Fits (text.drop e.position) e.line
  /-- It is a literal that is not closed exactly where a quote is not closed. -/
  unterminated_iff : (∃ covered, e.found = .fault (.unterminatedLiteral covered)) ↔
    LacksQuote (text.drop e.position)
  /-- Its line is the first one and the line ends before it. -/
  line_eq : e.line = line + (text.take e.position).count '\n'

/-- A run of characters within a line is all there is of the line. -/
theorem takeWhile_isWithinLine {xs ys : List Char} (hxs : ∀ d ∈ xs, isWithinLine d = true)
    (hys : AtLineEnd ys) : (xs ++ ys).takeWhile isWithinLine = xs := by
  rw [List.takeWhile_append_of_pos hxs]
  rcases ys with _ | ⟨d, ys⟩
  · exact List.append_nil xs
  · rw [hys d rfl, List.takeWhile_cons_of_neg (by decide), List.append_nil]

/-- A literal does not go over the end of its line. -/
theorem isWithinLine_of_isLiteralBody {d : Char} (h : isLiteralBody d = true) :
    isWithinLine d = true := by
  rw [isLiteralBody, Bool.and_eq_true] at h
  exact h.2

/-- Where a token stands no quote is open. -/
theorem Token.IsLexical.not_lacksQuote {t : Token} (h : t.IsLexical) (behind : List Char) :
    ¬LacksQuote (t.text.toList ++ behind) := by
  rintro ⟨more, hmore, hnot⟩
  obtain ⟨c, cs, htext⟩ := h.exists_cons
  rw [htext, List.cons_append, List.cons.injEq] at hmore
  obtain ⟨rfl, rfl⟩ := hmore
  -- The token begins with a quote, so it is a literal and its closing quote is on the line.
  have hkind : t.kind = .literal := by
    rw [h.kind_eq, Token.kindOf, htext]
    rfl
  obtain ⟨k, text⟩ := t
  rw [show k = _ from hkind] at h
  obtain ⟨body, hbody, hall⟩ := h
  rw [show text = _ from hbody, String.toList_ofList, List.cons.injEq] at htext
  apply hnot
  rw [← htext.2, List.append_assoc,
    List.takeWhile_append_of_pos fun d hd => isWithinLine_of_isLiteralBody (hall d hd)]
  exact List.mem_append_right _ List.mem_cons_self

namespace Piece

variable {p : Piece} {behind : List Char} {e : Event}

/-- What an event shows is the text of its piece. -/
theorem text_eq_of_found? (hf : p.found? e.line = some e.found) : e.text.toList = p.text := by
  unfold Event.text
  cases p with
  | token t =>
    rw [← Option.some.inj hf]
    rfl
  | unterminatedLiteral body =>
    rw [← Option.some.inj hf]
    exact String.toList_ofList
  | illegalCharacter c =>
    rw [← Option.some.inj hf]
    exact String.toList_singleton c
  | blank | lineComment | comment => cases hf

/-- What is found in a piece is what the rules say for the text from there on. -/
theorem StandsBefore.fits (h : p.StandsBefore behind) {line : Nat} {f : Found}
    (hf : p.found? line = some f) : f.Fits (p.text ++ behind) line := by
  cases p with
  | token t =>
    rw [← Option.some.inj hf]
    exact h
  | unterminatedLiteral body =>
    rw [← Option.some.inj hf]
    have hline : ∀ d ∈ '\'' :: body, isWithinLine d = true := by
      refine List.forall_mem_cons.2 ⟨by decide, fun d hd => ?_⟩
      exact isWithinLine_of_isLiteralBody (h.1 d hd)
    change (String.ofList ('\'' :: body)).toList = (('\'' :: body) ++ behind).takeWhile _
    rw [String.toList_ofList, takeWhile_isWithinLine hline h.2]
  | illegalCharacter c =>
    rw [← Option.some.inj hf]
    exact ⟨rfl, h, rfl⟩
  | blank | lineComment | comment => cases hf

/-- The quote is missing exactly where the event says so. -/
theorem StandsBefore.unterminated_iff (h : p.StandsBefore behind) {line : Nat} {f : Found}
    (hf : p.found? line = some f) :
    (∃ covered, f = .fault (.unterminatedLiteral covered)) ↔ LacksQuote (p.text ++ behind) := by
  cases p with
  | token t =>
    rw [← Option.some.inj hf]
    exact iff_of_false (by simp) (h.lexical.not_lacksQuote behind)
  | unterminatedLiteral body =>
    rw [← Option.some.inj hf]
    refine iff_of_true ⟨_, rfl⟩ ⟨body ++ behind, rfl, ?_⟩
    rw [takeWhile_isWithinLine (fun d hd => isWithinLine_of_isLiteralBody (h.1 d hd)) h.2]
    exact fun hmem => absurd (h.1 _ hmem) (by decide)
  | illegalCharacter c =>
    rw [← Option.some.inj hf]
    refine iff_of_false (by simp) ?_
    rintro ⟨more, hmore, -⟩
    exact h.literal ⟨more, hmore.symm⟩
  | blank | lineComment | comment => cases hf

/-- The events of the pieces of a text say what it has where they are. -/
theorem MakeUp.accounts {b d : Bool} {ps : List Piece} {cs : List Char} (h : MakeUp b ps cs d)
    {line : Nat} (he : e ∈ events line 0 ps) : e.Accounts line cs := by
  obtain ⟨before, p, behind, rfl, hstands, hfound, hposition, hline⟩ := h.of_mem_events he
  rw [Nat.zero_add] at hposition
  have hdrop : (before ++ (p.text ++ behind)).drop e.position = p.text ++ behind := by
    rw [hposition, List.drop_left]
  have htake : (before ++ (p.text ++ behind)).take e.position = before := by
    rw [hposition, List.take_left]
  refine ⟨?_, ?_, ?_, ?_⟩
  · rw [hdrop, text_eq_of_found? hfound]
    exact List.prefix_append _ _
  · rw [hdrop]
    exact hstands.fits hfound
  · rw [hdrop]
    exact hstands.unterminated_iff hfound
  · rw [htake]
    exact hline

end Piece

/-- **The events account for the whole text.** Whatever text comes next, from any line and
inside a comment or not, it is made up of pieces that give its events, each where it
stands, and of blanks, line ends and comments between them; each event starts behind the
start of the one before; and each says what the text has at its place, and on which line. -/
theorem Scanner.events_account (s : Scanner) (text : List Char) :
    (∃ ps, Piece.MakeUp s.inComment ps text (s.feed text).events.2.inComment ∧
      (s.feed text).events.1 = Piece.events s.line 0 ps) ∧
    (s.feed text).events.1.Pairwise (fun d e => d.position < e.position) ∧
    ∀ e ∈ (s.feed text).events.1, e.Accounts s.line text := by
  obtain ⟨ps, hps, hevents⟩ := exists_makeUp (s.feed text)
  have hmake : Piece.MakeUp s.inComment ps text (s.feed text).events.2.inComment := hps
  refine ⟨⟨ps, hmake, hevents⟩, ?_, ?_⟩
  · rw [hevents]
    exact hmake.pairwise_events _ _
  · intro e he
    rw [hevents] at he
    exact hmake.accounts he

/-- From inside a comment: the quote before its end is no literal, the relation is not cut
into two, the literal behind it has no closing quote on its line, and a mark that is both
the opening and half of the closing one opens a comment and does not close it. -/
theorem Scanner.events_account_comment :
    let s : Scanner := { line := 3, inComment := true }
    let text := "'*/a<='b\n?/*/".toList
    (s.feed text).events.1 =
      [⟨.token ⟨.identifier, "a"⟩, 3, 3⟩, ⟨.token ⟨.relation, "<="⟩, 3, 4⟩,
        ⟨.fault (.unterminatedLiteral "'b"), 3, 6⟩, ⟨.fault (.illegalCharacter '?' 4), 4, 9⟩] ∧
    Token.IsLongest ⟨.relation, "<="⟩ (text.drop 4) ∧ LacksQuote (text.drop 6) ∧
    BeginsNothing (text.drop 9) := by
  intro s text
  have hevents : (s.feed text).events.1 =
      [⟨.token ⟨.identifier, "a"⟩, 3, 3⟩, ⟨.token ⟨.relation, "<="⟩, 3, 4⟩,
        ⟨.fault (.unterminatedLiteral "'b"), 3, 6⟩,
        ⟨.fault (.illegalCharacter '?' 4), 4, 9⟩] := by
    decide +kernel
  have haccounts := (events_account s text).2.2
  rw [hevents] at haccounts
  simp only [List.forall_mem_cons] at haccounts
  obtain ⟨-, hrelation, hliteral, hillegal, -⟩ := haccounts
  exact ⟨hevents, hrelation.fits, hliteral.unterminated_iff.1 ⟨_, rfl⟩, hillegal.fits.2.1⟩

end FlatQuery
