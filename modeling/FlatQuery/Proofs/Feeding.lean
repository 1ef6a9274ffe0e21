import FlatQuery.Proofs.Cutting
import FlatQuery.Text.Line

/-!
# Feeding a text in chunks

The scanner is fed one line of command text at a time. Between two chunks it keeps the
line number and whether a comment is open, and nothing else: what was ahead is used up,
and the positions start from zero again. This is enough. Chunks that are cut behind line
ends give the events of the whole text, in the same order and on the same lines, and the
scanner ends on the same line, inside a comment or not. Only the positions are counted
within each chunk, so those of a later chunk fall short by the length of the chunks
before it.

The reason is in `Scanner.events_extend`: no lexeme sees past the line end that closes a
text. What is added here is that the scanner at the end of a chunk has counted all its
characters (`Scanner.position_events`), so that being fed the next chunk and finding it
ahead differ by the length of the first (`Scanner.extend_eq_further`), and the induction
over the chunks.
-/

set_option autoImplicit false

namespace FlatQuery

/-! ## 1. The lines of a text -/

theorem EndsLine.cons {cs : List Char} (h : EndsLine cs) (hne : cs ≠ []) (c : Char) :
    EndsLine (c :: cs) := by
  intro d hd
  rw [List.getLast?_cons_of_ne_nil hne] at hd
  exact h d hd

namespace Text

/-- The lines of a text, each with the line feed that ends it. -/
def lines : List Char → List (List Char)
  | [] => []
  | c :: cs =>
    if c = '\n' then [c] :: lines cs
    else
      match lines cs with
      | [] => [[c]]
      | line :: rest => (c :: line) :: rest

/-- The lines put together are the text. -/
theorem flatten_lines (cs : List Char) : (lines cs).flatten = cs := by
  fun_induction lines cs with
  | case1 => rfl
  | case2 cs ih => rw [List.flatten_cons, ih, List.singleton_append]
  | case3 c cs hc hnil ih =>
    rw [hnil, List.flatten_nil] at ih
    rw [← ih]
    rfl
  | case4 c cs hc line rest hcons ih =>
    rw [hcons, List.flatten_cons] at ih
    rw [List.flatten_cons, List.cons_append, ih]

/-- No line is empty. -/
theorem ne_nil_of_mem_lines (cs : List Char) : ∀ line ∈ lines cs, line ≠ [] := by
  fun_induction lines cs with
  | case1 => exact fun line h => absurd h List.not_mem_nil
  | case2 cs ih => exact List.forall_mem_cons.2 ⟨List.cons_ne_nil _ _, ih⟩
  | case3 c cs hc hnil ih => exact List.forall_mem_singleton.2 (List.cons_ne_nil _ _)
  | case4 c cs hc line rest hcons ih =>
    rw [hcons, List.forall_mem_cons] at ih
    exact List.forall_mem_cons.2 ⟨List.cons_ne_nil _ _, ih.2⟩

/-- Every line but the last is ended by a line feed. -/
theorem endsLine_of_mem_dropLast (cs : List Char) :
    ∀ line ∈ (lines cs).dropLast, EndsLine line := by
  have hsingle : EndsLine ['\n'] := fun c hc => (Option.mem_some_iff.1 hc).symm
  fun_induction lines cs with
  | case1 => exact fun line h => absurd h List.not_mem_nil
  | case2 cs ih =>
    rcases hl : lines cs with _ | ⟨next, rest⟩
    · exact fun line h => absurd h List.not_mem_nil
    · rw [List.dropLast_cons_cons, List.forall_mem_cons]
      rw [hl] at ih
      exact ⟨hsingle, ih⟩
  | case3 c cs hc hnil ih => exact fun line h => absurd h List.not_mem_nil
  | case4 c cs hc first rest hcons ih =>
    rcases rest with _ | ⟨next, rest⟩
    · exact fun line h => absurd h List.not_mem_nil
    · rw [hcons, List.dropLast_cons_cons, List.forall_mem_cons] at ih
      rw [List.dropLast_cons_cons, List.forall_mem_cons]
      have hne : first ≠ [] := ne_nil_of_mem_lines cs first (by
        rw [hcons]
        exact List.mem_cons_self)
      exact ⟨ih.1.cons hne c, ih.2⟩

end Text

/-! ## 2. Further on in a text -/

/-- An event with so many characters of its text before it that were not counted. -/
def Event.further (n : Nat) (e : Event) : Event := { e with position := e.position + n }

theorem Event.delay_zero_eq_further (n : Nat) (e : Event) : e.delay 0 n = e.further n := by
  rcases e with ⟨f, line, position⟩
  rcases f with t | ⟨text⟩ | ⟨c, k⟩ <;> rfl

namespace Scanner

theorem position_next (s : Scanner) :
    s.next.2.position + s.next.2.rest.length = s.position + s.rest.length := by
  have hbehind : ∀ (s : Scanner) (c : Char) (rest : List Char) (x : Lexeme) (n : Nat),
      (s.behind c rest x n).position + (s.behind c rest x n).rest.length =
        s.position + (c :: rest).length := by
    intro s c rest x n
    simp only [behind, List.length_cons, List.length_take, List.length_drop]
    omega
  fun_induction next s with
  | case1 s hs => rfl
  | case2 s c rest hs x f hf => rw [hbehind, hs]
  | case3 s c rest hs x hf ih => rw [ih, hbehind, hs]

/-- At the end of a text the scanner has counted its characters. -/
theorem position_events (s : Scanner) : s.events.2.position = s.position + s.rest.length := by
  fun_induction events s with
  | case1 s t h =>
    have hnext := position_next s
    rw [h, next_none_rest h] at hnext
    exact hnext
  | case2 s e t h es u hu ih =>
    have hnext := position_next s
    rw [h] at hnext
    rw [hu] at ih
    exact ih.trans hnext

/-- With the text used up, more text ahead is that text fed, further on by what is behind. -/
theorem extend_eq_further {s : Scanner} (h : s.rest = []) (ys : List Char) :
    s.extend ys = (s.feed ys).delay 0 s.position := by
  rcases s with ⟨line, inComment, position, rest⟩
  simp only [extend, feed, delay, Scanner.mk.injEq, true_and, Nat.add_zero, Nat.zero_add]
  rw [show rest = [] from h, List.nil_append]

/-! ## 3. Chunks -/

/-- **Two chunks.** A text that is cut behind a line end gives the events of its first
part and those of its second, and ends as the second part does. -/
theorem events_feed_append (s : Scanner) {x : List Char} (h : EndsLine x) (y : List Char) :
    (s.feed (x ++ y)).events =
      ((s.feed x).events.1 ++ ((s.feed x).events.2.feed y).events.1.map (Event.further x.length),
        ((s.feed x).events.2.feed y).events.2.delay 0 x.length) := by
  have hposition : (s.feed x).events.2.position = x.length := by
    rw [position_events]
    exact Nat.zero_add x.length
  have hmap : Event.delay 0 x.length = Event.further x.length :=
    funext (Event.delay_zero_eq_further x.length)
  change ((s.feed x).extend y).events = _
  rw [events_extend (s := s.feed x) h, extend_eq_further (events_end _).1, events_delay,
    hposition, hmap]

/-- Feeds chunks one after the other and collects their events, each with all the
characters of the chunks that are before it; and the scanner behind the last. -/
def feedAll (s : Scanner) : List (List Char) → List Event × Scanner
  | [] => ([], s)
  | chunk :: chunks =>
    let (es, t) := (s.feed chunk).events
    let (fs, u) := t.feedAll chunks
    (es ++ fs.map (Event.further chunk.length), u)

/-- Chunks cut behind line ends give what the whole text gives. -/
theorem feedAll_flatten (s : Scanner) {chunks : List (List Char)}
    (h : ∀ chunk ∈ chunks.dropLast, EndsLine chunk) :
    (s.feedAll chunks).1 = (s.feed chunks.flatten).events.1 ∧
      (s.feedAll chunks).2.line = (s.feed chunks.flatten).events.2.line ∧
      (s.feedAll chunks).2.inComment = (s.feed chunks.flatten).events.2.inComment := by
  induction chunks generalizing s with
  | nil =>
    rw [List.flatten_nil, events_of_none (next_of_nil (s := s.feed []) rfl)]
    exact ⟨rfl, rfl, rfl⟩
  | cons chunk chunks ih =>
    rcases chunks with _ | ⟨next, chunks⟩
    · -- The last chunk need not end a line: nothing is behind it.
      rw [List.flatten_cons, List.flatten_nil, List.append_nil]
      exact ⟨List.append_nil _, rfl, rfl⟩
    · rw [List.dropLast_cons_cons, List.forall_mem_cons] at h
      obtain ⟨hevents, hline, hcomment⟩ := ih (s.feed chunk).events.2 h.2
      rw [List.flatten_cons, events_feed_append s h.1]
      refine ⟨?_, hline, hcomment⟩
      rw [← hevents]
      rfl

/-- **A text may come in lines.** Fed in two chunks of which the first ends a line, or in
any number of chunks of which all but the last do, or line by line, a text gives the same
events, from whatever line and inside a comment or not; and it leaves the scanner on the
same line and inside a comment or not as the whole text does. -/
theorem feed_in_chunks (s : Scanner) (x y : List Char) (h : EndsLine x) :
    ((s.feed (x ++ y)).events.1 = (s.feed x).events.1 ++
        ((s.feed x).events.2.feed y).events.1.map (Event.further x.length) ∧
      (s.feed (x ++ y)).events.2.line = ((s.feed x).events.2.feed y).events.2.line ∧
      (s.feed (x ++ y)).events.2.inComment =
        ((s.feed x).events.2.feed y).events.2.inComment) ∧
    (∀ chunks : List (List Char), (∀ chunk ∈ chunks.dropLast, EndsLine chunk) →
      (s.feedAll chunks).1 = (s.feed chunks.flatten).events.1 ∧
      (s.feedAll chunks).2.line = (s.feed chunks.flatten).events.2.line ∧
      (s.feedAll chunks).2.inComment = (s.feed chunks.flatten).events.2.inComment) ∧
    ∀ text : List Char,
      (s.feedAll (Text.lines text)).1 = (s.feed text).events.1 ∧
      (s.feedAll (Text.lines text)).2.line = (s.feed text).events.2.line ∧
      (s.feedAll (Text.lines text)).2.inComment = (s.feed text).events.2.inComment := by
  refine ⟨?_, fun chunks hchunks => feedAll_flatten s hchunks, fun text => ?_⟩
  · rw [events_feed_append s h]
    exact ⟨rfl, rfl, rfl⟩
  · have hlines := feedAll_flatten s (Text.endsLine_of_mem_dropLast text)
    rwa [Text.flatten_lines] at hlines

/-- From inside a comment, with a literal not closed on its line and a comment that is open
at the cut: the illegal character behind it is on the line, and at the place, that it has in
the whole text. -/
theorem feed_in_chunks_comment :
    let s : Scanner := { line := 4, inComment := true }
    (s.feed ("b */ c 'd\n/* e\n".toList ++ "? */ f ?".toList)).events.1 =
      [⟨.token ⟨.identifier, "c"⟩, 4, 5⟩, ⟨.fault (.unterminatedLiteral "'d"), 4, 7⟩,
        ⟨.token ⟨.identifier, "f"⟩, 6, 20⟩, ⟨.fault (.illegalCharacter '?' 6), 6, 22⟩] := by
  intro s
  have hline : EndsLine "b */ c 'd\n/* e\n".toList := by
    intro c hc
    rw [show "b */ c 'd\n/* e\n".toList.getLast? = some '\n' by decide] at hc
    exact (Option.some.inj hc).symm
  have hfirst : (s.feed "b */ c 'd\n/* e\n".toList).events =
      ([⟨.token ⟨.identifier, "c"⟩, 4, 5⟩, ⟨.fault (.unterminatedLiteral "'d"), 4, 7⟩],
        { line := 6, inComment := true, position := 15, rest := [] }) := by
    decide +kernel
  obtain ⟨⟨hevents, -⟩, -⟩ := feed_in_chunks s _ "? */ f ?".toList hline
  rw [hevents, hfirst]
  decide +kernel

end Scanner

end FlatQuery
