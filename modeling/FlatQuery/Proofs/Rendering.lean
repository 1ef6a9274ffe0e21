import FlatQuery.Proofs.Composition
import FlatQuery.Proofs.Layout

/-!
# Tokens laid out as a text

Tokens can be written down in many ways. Between two of them stands at least one blank, line
end or comment, at the ends there may be some, and which ones is free: a comment may hold
quotes, semicolons and comment marks, and go over several lines. `Layout` is such a way of
writing, and the scanner finds in its text the tokens and nothing else (`Layout.scan`).

That a text is made up of pieces determines its events, whichever pieces they are
(`Piece.MakeUp.events_eq`): what may stand in which place is said so narrowly that only one
piece fits. So it is enough to see that the tokens of a layout and the blanks and comments
between them are the pieces of its text. The one condition that needs the gap is that a
token is the longest that stands in its place, and behind it comes a blank or the mark of a
comment, with which no token goes on (`EndsTokens`).

A session sees of a text only what arrives from it, and without a fault these are the
tokens, so texts that have the same tokens are run alike (`Session.runText_congr`).
-/

set_option autoImplicit false

namespace FlatQuery

/-! ## 1. The pieces determine the events -/

namespace Lexeme

variable {behind : List Char}

/-- The longest token that stands there is found. -/
theorem outside_of_isLongest {t : Token} {c : Char} {cs : List Char}
    (htext : t.text.toList = c :: cs) (h : t.IsLongest (c :: (cs ++ behind))) :
    outside c (cs ++ behind) = (.token t.kind, cs.length) := by
  obtain ⟨n, hn, hle, -⟩ := outside_of_isLexical h.lexical htext behind
  have hfound := isLongest_of_outside hn
  have hlength := h.longest _ hfound.lexical hfound.front
  have hn' : n ≤ (cs ++ behind).length := by
    have hle := outside_le c (cs ++ behind)
    rwa [hn] at hle
  rw [htext, String.toList_ofList, List.length_cons, List.length_take, Nat.min_eq_left hn',
    List.length_cons] at hlength
  rw [hn, show n = cs.length by omega]

/-- A literal that is not closed on its line is found as far as the line goes. -/
theorem outside_of_unterminated {body : List Char} (hbody : ∀ d ∈ body, isLiteralBody d = true)
    (hend : AtLineEnd behind) :
    outside '\'' (body ++ behind) = (.unterminatedLiteral, body.length) := by
  have hnone : behind.takeWhile isLiteralBody = [] := by
    cases behind with
    | nil => rfl
    | cons d more => rw [hend d rfl, List.takeWhile_cons_of_neg (by decide)]
  have htake : (body ++ behind).takeWhile isLiteralBody = body := by
    rw [List.takeWhile_append_of_pos hbody, hnone, List.append_nil]
  have hquote : ¬((body ++ behind).drop body.length).head? = some '\'' := by
    rw [List.drop_left]
    exact fun hhead => absurd (hend _ hhead) (by decide)
  have houtside : outside '\'' (body ++ behind) =
      if ((body ++ behind).drop ((body ++ behind).takeWhile isLiteralBody).length).head? =
          some '\'' then
        (.token .literal, ((body ++ behind).takeWhile isLiteralBody).length + 1)
      else (.unterminatedLiteral, ((body ++ behind).takeWhile isLiteralBody).length) := rfl
  rw [houtside, htake, if_neg hquote]

/-- A character that begins nothing is found, and found to be illegal. -/
theorem outside_of_beginsNothing {c : Char} (h : BeginsNothing (c :: behind)) :
    outside c behind = (.illegalCharacter, 0) := by
  -- Every other lexeme is one that begins there.
  have htoken {k : Token.Kind} {n : Nat} (hx : outside c behind = (.token k, n)) :
      outside c behind = (.illegalCharacter, 0) :=
    absurd (isLongest_of_outside hx).front (h.token _ (outside_isLexical hx))
  refine outside_cases
    (P := fun r => outside c behind = r →
      outside c behind = (.illegalCharacter, 0))
    ?blank (fun _ => htoken) (fun _ _ => htoken) ?unterminated (fun _ => htoken)
    (fun _ _ => htoken) (fun _ => htoken) ?lineComment ?commentStart (fun _ => htoken)
    (fun _ => htoken) (fun _ => htoken) (fun _ => htoken) (fun _ => htoken) id rfl
  case blank =>
    intro hc
    exact absurd hc (Bool.eq_false_iff.1 (h.blank c rfl))
  case unterminated =>
    rintro rfl
    exact absurd ⟨behind, rfl⟩ h.literal
  case lineComment =>
    rintro rfl hhead
    obtain ⟨more, rfl⟩ := List.head?_eq_some_iff.1 hhead
    exact absurd ⟨more, rfl⟩ h.lineComment
  case commentStart =>
    rintro rfl hhead
    obtain ⟨more, rfl⟩ := List.head?_eq_some_iff.1 hhead
    exact absurd ⟨more, rfl⟩ h.comment

end Lexeme

namespace Scanner

variable {s : Scanner} {behind : List Char}

/-- A piece outside comments that one lexeme covers gives what the lexeme gives. -/
theorem events_of_outside {p : Piece} {c : Char} {cs : List Char} {x : Lexeme}
    (hb : s.inComment = false) (hs : s.rest = p.text ++ behind) (h : p.StandsBefore behind)
    (htext : p.text = c :: cs) (hx : Lexeme.outside c (cs ++ behind) = (x, cs.length))
    (hfound : x.found? p.text s.line = p.found? s.line) (hstarts : p.startsInComment = false)
    (hleaves : x.leavesComment false = p.leavesComment) :
    s.events =
      ((p.found? s.line).toList.map (Event.mk · s.line s.position) ++ (s.past p behind).events.1,
        (s.past p behind).events.2) := by
  have hdrop : (cs ++ behind).drop cs.length = behind := List.drop_left
  have hcons : s.rest = c :: (cs ++ behind) := by
    rw [hs, htext]
    rfl
  have htake : c :: (cs ++ behind).take cs.length = p.text := by
    rw [List.take_left, htext]
  have hmeets := meets_of_outside hcons hb hx htake hfound hstarts hleaves (hdrop.symm ▸ h)
  rw [hdrop] at hmeets
  exact hmeets.events

/-- **A piece that may stand ahead is the one that is found.** -/
theorem events_of_stands {p : Piece} (hb : s.inComment = p.startsInComment)
    (hs : s.rest = p.text ++ behind) (h : p.StandsBefore behind) :
    s.events =
      ((p.found? s.line).toList.map (Event.mk · s.line s.position) ++ (s.past p behind).events.1,
        (s.past p behind).events.2) := by
  -- A piece is found where it stands because what follows it does not make another one of it.
  cases p with
  | token t =>
    obtain ⟨c, cs, htext⟩ := h.lexical.exists_cons
    have hlongest : t.IsLongest (t.text.toList ++ behind) := h
    rw [htext] at hlongest
    refine events_of_outside hb hs h htext (Lexeme.outside_of_isLongest htext hlongest) ?_ rfl rfl
    exact congrArg (fun text => some (Found.token ⟨t.kind, text⟩)) String.ofList_toList
  | unterminatedLiteral body =>
    exact events_of_outside hb hs h rfl (Lexeme.outside_of_unterminated h.1 h.2) rfl rfl rfl
  | illegalCharacter c =>
    exact events_of_outside hb hs h rfl (Lexeme.outside_of_beginsNothing h) rfl rfl rfl
  | blank c => exact events_of_outside hb hs h rfl (if_pos h) rfl rfl rfl
  | lineComment body =>
    have hx : Lexeme.outside '-' ('-' :: body ++ behind) =
        (.silent, 1 + ((body ++ behind).takeWhile isWithinLine).length) := rfl
    rw [takeWhile_isWithinLine h.1 h.2, Nat.add_comm] at hx
    exact events_of_outside hb hs h rfl hx rfl rfl rfl
  | comment opened body closed =>
    cases opened with
    | false =>
      obtain ⟨line, inComment, position, rest⟩ := s
      obtain rfl : inComment = true := hb
      obtain rfl : rest = _ := hs
      exact events_of_comment line position h
    | true => exact events_of_commentStart hb hs h

end Scanner

namespace Piece

/-- **What a text is made up of determines its events.** -/
theorem MakeUp.events_eq {b d : Bool} {ps : List Piece} {cs : List Char} (h : MakeUp b ps cs d)
    (line position : Nat) :
    (Scanner.mk line b position cs).events.1 = events line position ps ∧
      (Scanner.mk line b position cs).events.2.inComment = d := by
  induction h generalizing line position with
  | nil inComment =>
    rw [Scanner.events_of_none (Scanner.next_of_nil rfl)]
    exact ⟨rfl, rfl⟩
  | @cons p ps behind d stands rest ih =>
    obtain ⟨hevents, hend⟩ := ih (line + p.text.count '\n') (position + p.text.length)
    rw [Scanner.events_of_stands (p := p) rfl rfl stands]
    exact ⟨congrArg _ hevents, hend⟩

/-- What is found in pieces that tell no line is found wherever they stand. -/
theorem map_found_events {ps : List Piece} (h : ∀ p ∈ ps, ∀ n, p.found? n = p.found? 0)
    (line position : Nat) :
    (events line position ps).map Event.found = ps.filterMap (·.found? 0) := by
  induction ps generalizing line position with
  | nil => rfl
  | cons p ps ih =>
    rw [List.forall_mem_cons] at h
    rw [events, List.map_append, ih h.2, h.1]
    cases hf : p.found? 0 with
    | none => rw [List.filterMap_cons_none hf]; rfl
    | some f => rw [List.filterMap_cons_some hf]; rfl

end Piece

/-! ## 2. Layouts -/

/-- What may stand between tokens: a blank or a line end, a line comment with the end of its
line, or a block comment. -/
inductive Filler where
  /-- A blank or a line end. -/
  | blank (c : Char) (h : (isSeparator c || c == '\n') = true)
  /-- A line comment, without its mark and the end of its line. -/
  | lineComment (body : List Char) (h : '\n' ∉ body)
  /-- A block comment, without its marks. -/
  | comment (body : List Char) (h : ¬['*', '/'] <:+: body)

namespace Filler

/-- The characters of a filler. -/
def text : Filler → List Char
  | .blank c _ => [c]
  | .lineComment body _ => '-' :: '-' :: (body ++ ['\n'])
  | .comment body _ => '/' :: '*' :: (body ++ ['*', '/'])

/-- The pieces of a filler. -/
def pieces : Filler → List Piece
  | .blank c _ => [.blank c]
  | .lineComment body _ => [.lineComment body, .blank '\n']
  | .comment body _ => [.comment true body true]

/-- The last star of a comment makes no closing mark with its body. -/
private theorem not_infix_concat {body : List Char} (h : ¬['*', '/'] <:+: body) :
    ¬['*', '/'] <:+: body ++ ['*'] := by
  rw [List.infix_concat_iff, not_or]
  refine ⟨?_, h⟩
  rintro ⟨front, hfront⟩
  have hlast : (body ++ ['*']).getLast? = some '/' := by
    rw [← hfront, List.getLast?_append]
    rfl
  rw [List.getLast?_concat] at hlast
  exact absurd hlast (by decide)

/-- A filler may stand before everything. -/
theorem makeUp (f : Filler) {ps : List Piece} {behind : List Char} {d : Bool}
    (h : Piece.MakeUp false ps behind d) :
    Piece.MakeUp false (f.pieces ++ ps) (f.text ++ behind) d := by
  cases f with
  | blank c hc => exact .cons (p := .blank c) hc h
  | lineComment body hbody =>
    have hline : ∀ d ∈ body, isWithinLine d = true := by
      intro d hd
      exact bne_iff_ne.2 fun heq => hbody (heq ▸ hd)
    have hend : AtLineEnd ('\n' :: behind) := by
      intro c hc
      exact (Option.some.inj hc).symm
    have hrest : Piece.MakeUp false (.blank '\n' :: ps) ('\n' :: behind) d :=
      .cons (p := .blank '\n') rfl h
    have hwhole := Piece.MakeUp.cons (p := .lineComment body) ⟨hline, hend⟩ hrest
    rw [text, List.cons_append, List.cons_append, List.append_assoc]
    exact hwhole
  | comment body hbody =>
    have hwhole := Piece.MakeUp.cons (p := .comment true body true) (not_infix_concat hbody) h
    rw [show (comment body hbody).text = (Piece.comment true body true).text by
      simp [text, Piece.text]]
    exact hwhole

/-- No token goes on into a filler. -/
theorem endsTokens (f : Filler) (behind : List Char) : EndsTokens (f.text ++ behind) := by
  intro d hd
  cases f with
  | blank c hc =>
    obtain rfl : c = d := Option.some.inj hd
    simp only [isSeparator, Bool.or_eq_true, beq_iff_eq] at hc
    obtain ((((rfl | rfl) | rfl) | rfl) | rfl) := hc <;> decide
  | lineComment body h =>
    obtain rfl : '-' = d := Option.some.inj hd
    decide
  | comment body h =>
    obtain rfl : '/' = d := Option.some.inj hd
    decide

theorem found?_of_mem {f : Filler} {p : Piece} (h : p ∈ f.pieces) (n : Nat) :
    p.found? n = none := by
  cases f with
  | blank c hc =>
    rw [List.mem_singleton.1 h]
    rfl
  | lineComment body hbody =>
    rcases List.mem_pair.1 h with rfl | rfl
    · rfl
    · rfl
  | comment body hbody =>
    rw [List.mem_singleton.1 h]
    rfl

end Filler

/-- The characters of fillers, one behind the other. -/
def gapText (fs : List Filler) : List Char := fs.flatMap Filler.text

/-- The pieces of fillers, one behind the other. -/
def gapPieces (fs : List Filler) : List Piece := fs.flatMap Filler.pieces

theorem gap_makeUp (fs : List Filler) {ps : List Piece} {behind : List Char} {d : Bool}
    (h : Piece.MakeUp false ps behind d) :
    Piece.MakeUp false (gapPieces fs ++ ps) (gapText fs ++ behind) d := by
  induction fs with
  | nil => exact h
  | cons f fs ih =>
    rw [gapPieces, gapText, List.flatMap_cons, List.flatMap_cons, List.append_assoc,
      List.append_assoc]
    exact f.makeUp ih

theorem found?_of_mem_gapPieces {fs : List Filler} {p : Piece} (h : p ∈ gapPieces fs) (n : Nat) :
    p.found? n = none := by
  obtain ⟨f, -, hp⟩ := List.mem_flatMap.1 h
  exact Filler.found?_of_mem hp n

/-- Tokens, with what stands before, between and behind them. -/
structure Layout where
  /-- What stands before the first token. -/
  before : List Filler
  /-- The tokens, each with what stands behind it. -/
  items : List (Token × List Filler)
  /-- The tokens are written as their kinds are. -/
  lexical : ∀ i ∈ items, i.1.IsLexical
  /-- No token stands directly against the next. -/
  parted : ∀ i ∈ items.dropLast, i.2 ≠ []

namespace Layout

/-- The tokens of a layout. -/
def tokens (l : Layout) : List Token := l.items.map Prod.fst

/-- The text of a layout. -/
def text (l : Layout) : List Char :=
  gapText l.before ++ l.items.flatMap fun i => i.1.text.toList ++ gapText i.2

/-- The pieces of the text of a layout. -/
def pieces (l : Layout) : List Piece :=
  gapPieces l.before ++ l.items.flatMap fun i => .token i.1 :: gapPieces i.2

/-- A token is the longest in its place if every token ends behind it. -/
theorem isLongest_of_endsTokens {t : Token} (h : t.IsLexical) {behind : List Char}
    (hends : EndsTokens behind) : t.IsLongest (t.text.toList ++ behind) := by
  obtain ⟨c, cs, htext⟩ := h.exists_cons
  obtain ⟨n, hn, -, hexact⟩ := Lexeme.outside_of_isLexical h htext behind
  have hlongest := Lexeme.isLongest_of_outside hn
  rw [hexact hends, List.take_left, ← htext, String.ofList_toList] at hlongest
  rw [htext]
  exact hlongest

/-- The tokens with their gaps are made up of their pieces. -/
theorem makeUp_items {items : List (Token × List Filler)} (hlex : ∀ i ∈ items, i.1.IsLexical)
    (hparted : ∀ i ∈ items.dropLast, i.2 ≠ []) :
    Piece.MakeUp false (items.flatMap fun i => .token i.1 :: gapPieces i.2)
      (items.flatMap fun i => i.1.text.toList ++ gapText i.2) false := by
  induction items with
  | nil => exact .nil false
  | cons i items ih =>
    rw [List.forall_mem_cons] at hlex
    have hrest := ih hlex.2 fun j hj => hparted j <| by
      cases items with
      | nil => exact absurd hj List.not_mem_nil
      | cons k items => exact List.mem_cons_of_mem _ hj
    have hends : EndsTokens (gapText i.2 ++
        items.flatMap fun i => i.1.text.toList ++ gapText i.2) := by
      rcases hgap : i.2 with _ | ⟨f, fs⟩
      -- Without a gap this is the last token, and nothing is behind it.
      · cases items with
        | nil => exact fun c hc => absurd hc (by simp [gapText])
        | cons k items => exact absurd hgap (hparted i List.mem_cons_self)
      · rw [gapText, List.flatMap_cons, List.append_assoc]
        exact f.endsTokens _
    rw [List.flatMap_cons, List.flatMap_cons, List.cons_append, List.append_assoc]
    exact .cons (p := .token i.1) (isLongest_of_endsTokens hlex.1 hends) (gap_makeUp i.2 hrest)

theorem makeUp (l : Layout) : Piece.MakeUp false l.pieces l.text false :=
  gap_makeUp l.before (makeUp_items l.lexical l.parted)

theorem found?_of_mem {l : Layout} {p : Piece} (h : p ∈ l.pieces) (n : Nat) :
    p.found? n = p.found? 0 := by
  rw [pieces, List.mem_append, List.mem_flatMap] at h
  rcases h with h | ⟨i, -, h⟩
  · rw [found?_of_mem_gapPieces h, found?_of_mem_gapPieces h]
  · rcases List.mem_cons.1 h with rfl | h
    · rfl
    · rw [found?_of_mem_gapPieces h, found?_of_mem_gapPieces h]

theorem filterMap_gapPieces (fs : List Filler) : (gapPieces fs).filterMap (·.found? 0) = [] :=
  List.filterMap_eq_nil_iff.2 fun _ hp => found?_of_mem_gapPieces hp 0

/-- What the pieces of a layout give is its tokens. -/
theorem filterMap_pieces (l : Layout) :
    l.pieces.filterMap (·.found? 0) = l.tokens.map Found.token := by
  have hitem : ∀ i : Token × List Filler,
      (Piece.token i.1 :: gapPieces i.2).filterMap (·.found? 0) = [Found.token i.1] := by
    intro i
    exact congrArg (Found.token i.1 :: ·) (filterMap_gapPieces i.2)
  rw [pieces, List.filterMap_append, filterMap_gapPieces, List.nil_append,
    List.filterMap_flatMap, tokens, List.map_map]
  simp only [hitem]
  exact List.map_eq_flatMap.symm

end Layout

/-! ## 3. Texts with the same tokens -/

/-- Whether a text has these tokens, one after the other, and no fault. -/
def HasTokens (text : List Char) (ts : List Token) : Prop :=
  (Scanner.feed {} text).events.1.map Event.found = ts.map Found.token

theorem map_arrival {es : List Event} {ts : List Token}
    (h : es.map Event.found = ts.map Found.token) : es.map Event.arrival = ts.map .ok := by
  induction es generalizing ts with
  | nil => rw [List.map_eq_nil_iff.1 h.symm, List.map_nil, List.map_nil]
  | cons e es ih =>
    obtain ⟨t, ts, rfl, ht, hts⟩ := List.map_eq_cons_iff.1 h.symm
    rw [List.map_cons, List.map_cons, ih hts.symm, Event.arrival, ← ht]

/-- Where a text has tokens and no fault, the tokens arrive. -/
theorem arrivalsOf_of_hasTokens {text : List Char} {ts : List Token} (h : HasTokens text ts) :
    arrivalsOf text = ts.map .ok :=
  map_arrival h

/-- The tokens of a layout are what the scanner finds, from any line on. -/
theorem Layout.found (l : Layout) (line position : Nat) :
    (Scanner.mk line false position l.text).events.1.map Event.found =
        l.tokens.map Found.token ∧
      (Scanner.mk line false position l.text).events.2.inComment = false := by
  obtain ⟨hevents, hend⟩ := l.makeUp.events_eq line position
  refine ⟨?_, hend⟩
  rw [hevents, Piece.map_found_events fun p hp n => found?_of_mem hp n, l.filterMap_pieces]

theorem Layout.hasTokens (l : Layout) : HasTokens l.text l.tokens := (l.found 1 0).1

namespace Session

/-- Texts from which the same arrives are run alike. -/
theorem runText_congr (db : Database) {a b : String}
    (h : arrivalsOf a.toList = arrivalsOf b.toList) :
    (runText db a).2 = (runText db b).2 ∧
      (runText db a).1.database = (runText db b).1.database ∧
      (runText db a).1.printed = (runText db b).1.printed := by
  have hq : (start (.ofString a) db).stream.queue =
      (start (.ofString b) db).stream.queue.map (Arrival.delay 0) := by
    rw [map_delay_zero, queue_start, queue_start, h]
  have hdatabase : (start (.ofString a) db).database = (start (.ofString b) db).database := rfl
  obtain ⟨hending, hagree⟩ := run_of_delay hdatabase (isRegular_start db b) hq
  exact ⟨hending, hagree.database, hagree.printed_eq rfl⟩

end Session

/-- **Reading undoes writing, whatever the layout.** In tokens that are laid out with blanks,
line ends and comments between them the scanner finds, from any line on, those tokens in
order and nothing else, and ends outside a comment. So the layout does not matter to a
session either: it comes to the same ending, the same database and the same lines over every
text that has those tokens and no fault. -/
theorem scan_layout (l : Layout) :
    (∀ line, ((Scanner.feed { line } l.text).events.1.map Event.found =
        l.tokens.map Found.token ∧
      (Scanner.feed { line } l.text).events.2.inComment = false)) ∧
    ∀ (db : Database) (text : String), HasTokens text.toList l.tokens →
      (Session.runText db (String.ofList l.text)).2 = (Session.runText db text).2 ∧
      (Session.runText db (String.ofList l.text)).1.database =
        (Session.runText db text).1.database ∧
      (Session.runText db (String.ofList l.text)).1.printed =
        (Session.runText db text).1.printed := by
  refine ⟨fun line => l.found line 0, fun db text htext => Session.runText_congr db ?_⟩
  rw [String.toList_ofList, arrivalsOf_of_hasTokens l.hasTokens, arrivalsOf_of_hasTokens htext]

/-- A statement with a comment that holds a quote, a semicolon and the other marks, one that is
a star, and a line comment directly behind a name. -/
def commentedPrint : Layout where
  before := [.comment "'; -- /*\n".toList (by decide +kernel)]
  items := [(⟨.identifier, "print"⟩, [.comment ['*'] (by decide)]),
    (⟨.identifier, "t"⟩, [.lineComment "it's; */".toList (by decide +kernel)]),
    (⟨.semicolon, ";"⟩, [])]
  lexical := by
    simp only [List.forall_mem_cons]
    exact ⟨⟨'p', ['r', 'i', 'n', 't'], by decide, by decide, List.all_eq_true.1 (by decide)⟩,
      ⟨'t', [], by decide, by decide, List.forall_mem_nil _⟩, rfl, List.forall_mem_nil _⟩
  parted := by simp

theorem scan_layout_comments :
    let db : Database := .fresh .root .empty
    String.ofList commentedPrint.text = "/*'; -- /*\n*/print/***/t--it's; */\n;" ∧
    HasTokens "print t;".toList commentedPrint.tokens ∧
    (Session.runText db "/*'; -- /*\n*/print/***/t--it's; */\n;").1.printed =
      (Session.runText db "print t;").1.printed := by
  intro db
  have htext : String.ofList commentedPrint.text = "/*'; -- /*\n*/print/***/t--it's; */\n;" := by
    decide +kernel
  have htokens : HasTokens "print t;".toList commentedPrint.tokens := by
    unfold HasTokens
    decide +kernel
  obtain ⟨-, hrun⟩ := scan_layout commentedPrint
  obtain ⟨-, -, hprinted⟩ := hrun db "print t;" htokens
  rw [htext] at hprinted
  exact ⟨htext, htokens, hprinted⟩

end FlatQuery
