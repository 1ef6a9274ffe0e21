import FlatQuery.Proofs.Feeding
import FlatQuery.Proofs.Parallel

/-!
# Which lines are asked for

A stream over a text asks for the lines of the text, one after the other, and then for the
end. What it has asked for at any time is determined by the text and by the last thing it came
upon: the lines up to that one's line, or, when it came upon the end, all of them and the end.
And each prompt is determined by the lines given before it. It is the continuation exactly
when the last token in them is no semicolon or a comment is open behind them
(`promptBehind`).

`TokenStream.Along.read` says this for reading, which goes from line to line, and
`TokenStream.invariant_isSteady` for looking ahead and consuming, and so for whatever is made
of the two. That a line is scanned as it is within the text is `Scanner.events_feed_append`;
that everything found in a line is on that line is `Scanner.line_of_mem_events`.
-/

set_option autoImplicit false

namespace FlatQuery

/-! ## 1. Lines and what is on them -/

namespace Text

/-- The first of the lines of a text is the one that is taken first. -/
theorem lines_of_ne_nil {cs : List Char} (h : cs ≠ []) :
    lines cs = (takeLine cs).1 :: lines (takeLine cs).2 := by
  induction cs with
  | nil => exact absurd rfl h
  | cons c cs ih =>
    by_cases hc : c = '\n'
    · rw [lines, takeLine, if_pos hc, if_pos hc, hc]
    · rw [lines, takeLine, if_neg hc, if_neg hc]
      by_cases hcs : cs = []
      · rw [hcs]
        rfl
      · rw [ih hcs]

/-- A line holds no line feed before its last character. -/
theorem notMem_dropLast_of_mem_lines (cs : List Char) :
    ∀ line ∈ lines cs, '\n' ∉ line.dropLast := by
  fun_induction lines cs with
  | case1 => exact fun line h => absurd h List.not_mem_nil
  | case2 cs ih => exact List.forall_mem_cons.2 ⟨List.not_mem_nil, ih⟩
  | case3 c cs hc hnil ih => exact List.forall_mem_singleton.2 List.not_mem_nil
  | case4 c cs hc line rest hcons ih =>
    have hne : line ≠ [] := ne_nil_of_mem_lines cs line (by
      rw [hcons]
      exact List.mem_cons_self)
    rw [hcons, List.forall_mem_cons] at ih
    refine List.forall_mem_cons.2 ⟨?_, ih.2⟩
    rw [List.dropLast_cons_of_ne_nil hne, List.mem_cons, not_or]
    exact ⟨Ne.symm hc, ih.1⟩

section Given

variable {cs : List Char} {k : Nat} (hk : k < (lines cs).length)
include hk

/-- The lines before a line are all ended. -/
theorem mem_dropLast_of_mem_take {line : List Char} (h : line ∈ (lines cs).take k) :
    line ∈ (lines cs).dropLast := by
  rw [List.dropLast_eq_take]
  exact List.take_subset_take_left _ (by omega) h

/-- The first so many lines together end a line, unless they are all of them. -/
theorem endsLine_take : EndsLine ((lines cs).take k).flatten := by
  intro c hc
  rcases hlast : ((lines cs).take k).getLast? with _ | line
  · rw [List.getLast?_eq_none_iff] at hlast
    rw [hlast] at hc
    simp at hc
  · obtain ⟨before, htake⟩ := List.getLast?_eq_some_iff.1 hlast
    have hmem : line ∈ (lines cs).take k := by
      rw [htake]
      exact List.mem_append_right _ (List.mem_singleton_self line)
    have hdropLast := mem_dropLast_of_mem_take hk hmem
    have hne := ne_nil_of_mem_lines cs line (List.mem_of_mem_take hmem)
    rw [htake, List.flatten_append, List.flatten_singleton,
      List.getLast?_append_of_ne_nil _ hne] at hc
    exact endsLine_of_mem_dropLast cs line hdropLast c hc

/-- There are as many line feeds in the first so many lines as there are lines. -/
theorem count_take : ((lines cs).take k).flatten.count '\n' = k := by
  have hone : ∀ line ∈ (lines cs).take k, line.count '\n' = 1 := by
    intro line hline
    have hne := ne_nil_of_mem_lines cs line (List.mem_of_mem_take hline)
    have hends := endsLine_of_mem_dropLast cs line (mem_dropLast_of_mem_take hk hline)
    have hlast : line.getLast hne = '\n' := hends _ (List.getLast?_eq_some_getLast hne)
    have hbefore := notMem_dropLast_of_mem_lines cs line (List.mem_of_mem_take hline)
    rw [← List.dropLast_concat_getLast hne, hlast, List.count_append,
      List.count_eq_zero_of_not_mem hbefore]
    rfl
  have hmap : ((lines cs).take k).map (List.count '\n') = List.replicate k 1 := by
    rw [List.map_congr_left hone, List.map_const', List.length_take, Nat.min_eq_left hk.le]
  rw [List.count_flatten, hmap, List.sum_replicate_nat, Nat.mul_one]

theorem flatten_take_succ :
    ((lines cs).take (k + 1)).flatten = ((lines cs).take k).flatten ++ (lines cs)[k] := by
  rw [List.take_succ_eq_append_getElem hk, List.flatten_append, List.flatten_singleton]

end Given

end Text

namespace Scanner

/-- In a single line the scanner stays on its line as long as there is text ahead. -/
theorem line_behind {s : Scanner} {c : Char} {rest : List Char} (hs : s.rest = c :: rest)
    (h : '\n' ∉ s.rest.dropLast) (x : Lexeme) (n : Nat) :
    '\n' ∉ (s.behind c rest x n).rest.dropLast ∧
      ((s.behind c rest x n).rest ≠ [] → (s.behind c rest x n).line = s.line) := by
  have hsplit : s.rest = c :: rest.take n ++ rest.drop n := by
    rw [hs, List.cons_append, List.take_append_drop]
  by_cases hnil : rest.drop n = []
  · refine ⟨?_, fun hne => absurd hnil hne⟩
    change '\n' ∉ (rest.drop n).dropLast
    rw [hnil]
    exact List.not_mem_nil
  · rw [hsplit, List.dropLast_append_of_ne_nil hnil, List.mem_append, not_or] at h
    refine ⟨h.2, fun _ => ?_⟩
    change s.line + (c :: rest.take n).count '\n' = s.line
    rw [List.count_eq_zero_of_not_mem h.1, Nat.add_zero]

theorem line_next_of_single {s t : Scanner} {e : Event} (h : '\n' ∉ s.rest.dropLast)
    (hn : s.next = (some e, t)) :
    e.line = s.line ∧ '\n' ∉ t.rest.dropLast ∧ (t.rest ≠ [] → t.line = s.line) := by
  fun_induction next s with
  | case1 s hs => simp at hn
  | case2 s c rest hs x f hf =>
    rw [Prod.mk.injEq, Option.some.injEq] at hn
    obtain ⟨rfl, rfl⟩ := hn
    exact ⟨rfl, line_behind hs h x.1 x.2⟩
  | case3 s c rest hs x hf ih =>
    obtain ⟨hsingle, hline⟩ := line_behind hs h x.1 x.2
    have hne : (s.behind c rest x.1 x.2).rest ≠ [] := by
      intro hnil
      rw [next_of_nil hnil] at hn
      simp at hn
    rw [← hline hne]
    exact ih hsingle hn

/-- **All events of a line are on that line.** -/
theorem line_of_mem_events {s : Scanner} (h : '\n' ∉ s.rest.dropLast) :
    ∀ e ∈ s.events.1, e.line = s.line := by
  fun_induction events s with
  | case1 s t hn => exact fun e he => absurd he List.not_mem_nil
  | case2 s e t hn es u hu ih =>
    obtain ⟨hline, hsingle, hrest⟩ := line_next_of_single h hn
    have hes : t.events.1 = es := by rw [hu]
    rw [hes] at ih
    refine List.forall_mem_cons.2 ⟨hline, fun d hd => ?_⟩
    have hne : t.rest ≠ [] := by
      intro hnil
      rw [events_of_none (next_of_nil hnil)] at hes
      rw [← hes] at hd
      exact absurd hd List.not_mem_nil
    rw [← hrest hne]
    exact ih hsingle d hd

section Given

variable {cs : List Char} {k : Nat} (hk : k < (Text.lines cs).length)
include hk

/-- Behind so many lines of a text the next one is scanned. -/
theorem line_behind_lines : (feed {} ((Text.lines cs).take k).flatten).events.2.line = k + 1 := by
  have hcount := (events_end (feed {} ((Text.lines cs).take k).flatten)).2
  change _ = 1 + ((Text.lines cs).take k).flatten.count '\n' at hcount
  rw [hcount, Text.count_take hk, Nat.add_comm]

/-- What a line of a text holds is on that line. -/
theorem line_of_mem_events_line {s : Scanner} (hs : s.line = k + 1) :
    ∀ e ∈ (s.feed (Text.lines cs)[k]).events.1, e.line = k + 1 := by
  have hsingle := Text.notMem_dropLast_of_mem_lines cs _ (List.getElem_mem hk)
  rw [← hs]
  exact line_of_mem_events (s := s.feed (Text.lines cs)[k]) hsingle

end Given

end Scanner

/-! ## 2. What a text says about the next request -/

/-- The token that an event is, if it is one. -/
def Event.token? (e : Event) : Option Token :=
  match e.found with
  | .token k => some k
  | .fault _ => none

/-- Whether the last of the tokens among some events is no semicolon. -/
def leavesOpen (es : List Event) : Bool :=
  match (es.filterMap Event.token?).getLast? with
  | some k => k.text ≠ ";"
  | none => false

theorem leavesOpen_token {es : List Event} {e : Event} {k : Token} (h : e.found = .token k) :
    leavesOpen (es ++ [e]) = decide (k.text ≠ ";") := by
  have hk : e.token? = some k := by rw [Event.token?, h]
  rw [leavesOpen, List.filterMap_append, List.filterMap_cons_some hk, List.filterMap_nil,
    List.getLast?_concat]

theorem leavesOpen_fault {es : List Event} {e : Event} {f : LexicalFault}
    (h : e.found = .fault f) : leavesOpen (es ++ [e]) = leavesOpen es := by
  have hf : e.token? = none := by rw [Event.token?, h]
  rw [leavesOpen, List.filterMap_append, List.filterMap_cons_none hf, List.filterMap_nil,
    List.append_nil, leavesOpen]

/-- The prompt for the line behind a text: the text leaves a statement or a comment open, or
it does not. -/
def promptBehind (given : List Char) : Prompt :=
  let scan := (Scanner.feed {} given).events
  if leavesOpen scan.1 || scan.2.inComment then .continuation else .primary

/-- The requests for so many lines of a text, and for the end of it if that was met. -/
def requestsFor (cs : List Char) (k : Nat) (exhausted : Bool) : List Request :=
  (List.range k).map (fun i => ⟨promptBehind ((Text.lines cs).take i).flatten, false⟩) ++
    if exhausted then [⟨promptBehind cs, true⟩] else []

theorem requestsFor_succ (cs : List Char) (k : Nat) :
    requestsFor cs (k + 1) false = requestsFor cs k false ++
      [⟨promptBehind ((Text.lines cs).take k).flatten, false⟩] := by
  simp only [requestsFor, List.range_succ, List.map_append, List.map_cons, List.map_nil,
    Bool.false_eq_true, if_false, List.append_nil]

/-- The line of the last of some events. -/
def lastLine (es : List Event) : Nat :=
  match es.getLast? with
  | some e => e.line
  | none => 0

theorem lastLine_concat (es : List Event) (e : Event) : lastLine (es ++ [e]) = e.line := by
  rw [lastLine, List.getLast?_concat]

/-! ## 3. A stream along its text -/

namespace TokenStream

/-- Whether a stream has been given so many lines of a text and has come upon some events in
them, and what was asked for before is on record elsewhere. -/
structure Along (cs : List Char) (past : List Request) (s : TokenStream) (k : Nat)
    (taken : List Event) : Prop where
  source_eq : ∃ rest, s.source = { ready := rest } ∧ Text.lines rest = (Text.lines cs).drop k
  count_le : k ≤ (Text.lines cs).length
  requests_eq : (s.asked ++ past).reverse = requestsFor cs k s.exhausted
  events_eq : ∃ n, (Scanner.feed {} ((Text.lines cs).take k).flatten).events =
    (taken ++ s.scanner.events.1.map (Event.further n), s.scanner.events.2.delay 0 n)
  line_eq : ∀ e ∈ s.scanner.events.1, e.line = k
  at_end : s.exhausted = true → k = (Text.lines cs).length

variable {cs : List Char} {past : List Request} {s : TokenStream} {k : Nat}
  {taken : List Event}

/-- What is kept and what was consumed has no part in it. -/
theorem Along.congr (h : s.Along cs past k taken) {t : TokenStream}
    (hscanner : t.scanner.events = s.scanner.events) (hsource : t.source = s.source)
    (hexhausted : t.exhausted = s.exhausted) (hasked : t.asked = s.asked) :
    t.Along cs past k taken := by
  obtain ⟨hsource', hle, hrequests, hevents, hline, hend⟩ := h
  refine ⟨hsource ▸ hsource', hle, ?_, ?_, ?_, hexhausted ▸ hend⟩
  · rw [hasked, hexhausted]
    exact hrequests
  · rw [hscanner]
    exact hevents
  · rw [hscanner]
    exact hline

/-- An event that is taken off the line is the next one of the text, and on its last line so
far. -/
theorem Along.take (h : s.Along cs past k taken) {scanner : Scanner} {e : Event}
    (hn : s.scanner.next = (some e, scanner)) :
    ∃ d : Event, d.found = e.found ∧ d.line = k ∧
      Along cs past { s with scanner } k (taken ++ [d]) := by
  obtain ⟨hsource, hle, hrequests, ⟨n, hevents⟩, hline, hend⟩ := h
  have hsome := Scanner.events_of_some hn
  rw [hsome] at hevents hline
  rw [List.forall_mem_cons] at hline
  refine ⟨e.further n, rfl, hline.1, hsource, hle, hrequests, ⟨n, ?_⟩, hline.2, hend⟩
  rw [hevents, List.map_cons, List.append_assoc]
  rfl

/-- Where a line holds nothing more, the prompt for the next is what the text so far says. -/
theorem Along.prompt_eq (h : s.Along cs past k taken) (hmid : s.midStatement = leavesOpen taken)
    {scanner : Scanner} (hn : s.scanner.next = (none, scanner)) :
    ({ s with scanner } : TokenStream).prompt =
      promptBehind ((Text.lines cs).take k).flatten := by
  obtain ⟨n, hevents⟩ := h.events_eq
  rw [Scanner.events_of_none hn, List.map_nil, List.append_nil] at hevents
  rw [promptBehind, hevents, prompt, hmid]
  rfl

/-- The next line of the text is asked for and scanned. -/
theorem Along.line (h : s.Along cs past k taken) (hx : s.exhausted = false)
    (hmid : s.midStatement = leavesOpen taken) {scanner : Scanner}
    (hn : s.scanner.next = (none, scanner)) {text : List Char} {source : Source}
    (hl : s.source.readLine = .line text source) :
    Along cs past
      { ({ s with scanner } : TokenStream).requested false with
        scanner := scanner.feed text, source } (k + 1) taken := by
  have hprompt := h.prompt_eq hmid hn
  obtain ⟨⟨rest, hsource, hrest⟩, hle, hrequests, ⟨n, hevents⟩, -, -⟩ := h
  rw [hsource, Source.readLine_ready] at hl
  -- There was a line to be had, so not all lines have been asked for.
  have hne : rest ≠ [] := by
    rintro rfl
    rw [if_pos rfl] at hl
    cases hl
  rw [if_neg hne] at hl
  injection hl with htext hsource'
  rw [Text.lines_of_ne_nil hne, htext] at hrest
  have hk : k < (Text.lines cs).length := by
    rw [← not_le, ← List.drop_eq_nil_iff, ← hrest]
    exact List.cons_ne_nil _ _
  obtain rfl : (Text.lines cs)[k] = text := by
    rw [List.drop_eq_getElem_cons hk] at hrest
    exact (List.cons.inj hrest).1.symm
  rw [Scanner.events_of_none hn, List.map_nil, List.append_nil] at hevents
  refine ⟨⟨_, hsource'.symm, ?_⟩, hk, ?_, ?_, ?_, fun hx' => ?_⟩
  · rw [← List.tail_drop, ← hrest]
    rfl
  · change (⟨_, false⟩ :: (s.asked ++ past)).reverse = requestsFor cs (k + 1) s.exhausted
    rw [List.reverse_cons, hrequests, hprompt, hx, requestsFor_succ]
  · refine ⟨((Text.lines cs).take k).flatten.length, ?_⟩
    rw [Text.flatten_take_succ hk, Scanner.events_feed_append _ (Text.endsLine_take hk), hevents]
    rfl
  -- What is scanned on a line is on that line, because the scanner counts the feeds before it.
  · have hscanner := Scanner.line_behind_lines hk
    rw [hevents] at hscanner
    exact Scanner.line_of_mem_events_line hk hscanner
  · exact absurd (hx.symm.trans hx') Bool.false_ne_true

/-- The end is asked for behind the last line. -/
theorem Along.finish (h : s.Along cs past k taken) (hx : s.exhausted = false)
    (hmid : s.midStatement = leavesOpen taken) {scanner : Scanner}
    (hn : s.scanner.next = (none, scanner)) (hl : s.source.readLine = .endOfInput) :
    Along cs past { ({ s with scanner } : TokenStream).requested true with exhausted := true }
      (Text.lines cs).length taken := by
  have hprompt := h.prompt_eq hmid hn
  obtain ⟨⟨rest, hsource, hrest⟩, hle, hrequests, ⟨n, hevents⟩, -, -⟩ := h
  rw [hsource, Source.readLine_ready] at hl
  have hnil : rest = [] := by
    by_contra hne
    rw [if_neg hne] at hl
    cases hl
  -- There was no line to be had, so all of them have been asked for.
  have hk : k = (Text.lines cs).length := by
    rw [hnil] at hrest
    exact Nat.le_antisymm hle (List.drop_eq_nil_iff.1 hrest.symm)
  rw [← hk]
  have hself : scanner.events = ([], scanner) :=
    Scanner.events_of_none (Scanner.next_of_nil (Scanner.next_none_rest hn))
  refine ⟨⟨rest, hsource, hrest⟩, hle, ?_, ⟨n, ?_⟩, ?_, fun _ => hk⟩
  · change (⟨_, true⟩ :: (s.asked ++ past)).reverse = requestsFor cs k true
    have hwhole : ((Text.lines cs).take k).flatten = cs := by
      rw [hk, List.take_length, Text.flatten_lines]
    rw [List.reverse_cons, hrequests, hprompt, hx, hwhole]
    simp only [requestsFor, Bool.false_eq_true, if_false, if_true, List.append_nil]
  · change _ = (taken ++ scanner.events.1.map _, scanner.events.2.delay 0 n)
    rw [hevents, Scanner.events_of_none hn, hself]
  · change ∀ e ∈ scanner.events.1, _
    rw [hself]
    exact fun e he => absurd he List.not_mem_nil

/-- **Reading along a text.** Reading comes upon the next event of the text, and has then
asked for the lines up to its line and for no more; or it comes to the end, and has asked for
all lines and for the end. -/
theorem Along.read (h : s.Along cs past k taken) (hx : s.exhausted = false)
    (hmid : s.midStatement = leavesOpen taken) :
    (∃ (t : TokenStream) (e : Event) (tok : Token), s.read = .ok (.token tok) t ∧
      e.found = .token tok ∧ t.exhausted = false ∧ t.Along cs past e.line (taken ++ [e])) ∨
    (∃ (t : TokenStream) (e : Event) (f : LexicalFault), s.read = .fail (.lexical f) t ∧
      e.found = .fault f ∧ t.exhausted = false ∧ t.Along cs past e.line (taken ++ [e])) ∨
    (∃ t : TokenStream, s.read = .ok .endOfInput t ∧ t.exhausted = true ∧
      t.Along cs past (Text.lines cs).length taken) := by
  fun_induction TokenStream.read s generalizing k with
  | case1 s e scanner hn tok hf =>
    obtain ⟨d, hfound, hline, htaken⟩ := h.take hn
    refine .inl ⟨_, d, tok, rfl, hfound.trans hf, hx, ?_⟩
    rw [hline]
    exact htaken
  | case2 s e scanner hn f hf =>
    obtain ⟨d, hfound, hline, htaken⟩ := h.take hn
    refine .inr (.inl ⟨_, d, f, rfl, hfound.trans hf, hx, ?_⟩)
    rw [hline]
    exact htaken
  | case3 s scanner hn t =>
    rename_i hx'
    exact absurd (hx.symm.trans hx') Bool.false_ne_true
  | case4 s scanner hn t hx' text source hl =>
    rename_i ih
    exact ih (h.line hx hmid hn hl) hx hmid
  | case5 s scanner hn t hx' =>
    rename_i hl
    exact .inr (.inr ⟨_, rfl, rfl, h.finish hx hmid hn hl⟩)
  | case6 s scanner hn t hx' f =>
    rename_i hl
    -- A text that is at hand is never broken off.
    obtain ⟨rest, hsource, -⟩ := h.source_eq
    rw [hsource, Source.readLine_ready] at hl
    split at hl
    · cases hl
    · cases hl

/-! ## 4. Looking ahead and consuming along a text -/

/-- What was found of what is kept, if it is a token. -/
def keptFound : Option Lookahead → List Found
  | some (.token k) => [.token k]
  | _ => []

/-- Whether a stream that is looked ahead in and consumed from stands at a place of a text:
so many lines have been asked for, some events are gone, and what is kept is the event behind
them, if it is a token. As long as the end was not met, the lines asked for are those up to
the last event that was come upon. -/
structure Steady (cs : List Char) (past : List Request) (s : TokenStream) (k : Nat)
    (gone kept : List Event) : Prop where
  along : s.Along cs past k (gone ++ kept)
  kept_eq : kept.map Event.found = keptFound s.ahead?
  line_eq : s.exhausted = false → k = lastLine (gone ++ kept)
  at_end : s.exhausted = true ↔ s.ahead? = some .endOfInput
  mid_eq : s.midStatement = leavesOpen gone
  whole_eq : arrivalsOf cs = gone.map Event.arrival ++ s.queue

/-- As long as the end is not what stands next, it was not met. -/
theorem Steady.exhausted_eq {gone kept : List Event} (h : s.Steady cs past k gone kept)
    (hahead : s.ahead? ≠ some .endOfInput) : s.exhausted = false := by
  rw [Bool.eq_false_iff]
  intro hx
  exact hahead (h.at_end.1 hx)

/-- Whether a stream stands at some place of a text. -/
def IsSteady (cs : List Char) (past : List Request) (s : TokenStream) : Prop :=
  ∃ k gone kept, s.Steady cs past k gone kept

theorem isSteady_ofString (text : String) : (ofString text).IsSteady text.toList [] := by
  refine ⟨0, [], [], ⟨⟨text.toList, rfl, rfl⟩, Nat.zero_le _, rfl, ⟨0, ?_⟩, ?_, ?_⟩, rfl,
    fun _ => rfl, by simp [ofString], rfl, queue_ofSource.symm⟩
  · have hstart : (Scanner.feed {} ([] : List Char)).events = ([], Scanner.feed {} []) :=
      Scanner.events_of_none (Scanner.next_of_nil rfl)
    rw [List.take_zero, List.flatten_nil]
    change _ = ([] ++ (Scanner.feed {} []).events.1.map _, (Scanner.feed {} []).events.2.delay 0 0)
    rw [hstart]
    rfl
  · have hstart : (ofString text).scanner.events.1 = [] := by
      rw [Scanner.events_of_none (Scanner.next_of_nil rfl)]
    rw [hstart]
    exact fun e he => absurd he List.not_mem_nil
  · exact fun h => Bool.noConfusion h

theorem Steady.lookahead {gone kept : List Event} (h : s.Steady cs past k gone kept) :
    s.lookahead.rest.IsSteady cs past := by
  rcases ha : s.ahead? with _ | a
  -- Nothing was looked at, so reading decides.
  · have hx : s.exhausted = false := h.exhausted_eq (by simp [ha])
    obtain ⟨halong, hkept, hline, hend, hmid, hwhole⟩ := h
    rw [ha] at hkept hend
    obtain rfl : kept = [] := List.map_eq_nil_iff.1 hkept
    have hplace := read_samePlace s
    have hahead := read_spec s
    rw [List.append_nil] at halong
    rw [queue_of_none ha] at hwhole
    rcases halong.read hx hmid with
      ⟨t, e, tok, hr, hf, htx, ht⟩ | ⟨t, e, f, hr, hf, htx, ht⟩ | ⟨t, hr, htx, ht⟩ <;>
      rw [hr] at hplace hahead
    -- A token is kept, and stays the last of what was scanned until it is consumed.
    · rw [lookahead_of_read ha hr]
      refine ⟨e.line, gone, [e], ht.congr rfl rfl rfl rfl, ?_, fun _ => (lastLine_concat _ _).symm,
        ?_, hplace.2.trans hmid, ?_⟩
      · change [e.found] = [.token tok]
        rw [hf]
      · change t.exhausted = true ↔ some (.token tok) = some Lookahead.endOfInput
        simp [htx]
      · have hcoming : coming { t with ahead? := some (.token tok) } = t.coming :=
          coming_congr ⟨rfl, rfl, rfl⟩
        rw [hwhole, coming_of_token hr, ← hcoming]
        rfl
    -- A fault is gone as soon as it is raised.
    · have htnone : t.ahead? = none := hahead.1.trans ha
      rw [lookahead_of_fail ha hr]
      change t.IsSteady cs past
      refine ⟨e.line, gone ++ [e], [], ?_, ?_, fun _ => ?_, ?_, ?_, ?_⟩
      · rw [List.append_nil]
        exact ht
      · rw [htnone]
        rfl
      · rw [List.append_nil, lastLine_concat]
      · rw [htnone, htx]
        simp
      · rw [leavesOpen_fault hf]
        exact hplace.2.trans hmid
      · have harrival : e.arrival = .error (.lexical f) := by rw [Event.arrival, hf]
        have hcoming : s.coming = .error (.lexical f) :: t.coming := coming_of_fail hr
        rw [hwhole, hcoming, queue_of_none htnone, List.map_append, List.append_assoc,
          List.map_singleton, harrival, List.singleton_append]
    -- At the end all lines have been asked for.
    · rw [lookahead_of_read ha hr]
      refine ⟨(Text.lines cs).length, gone, [], ?_, rfl, fun hx' => ?_, ?_, hplace.2.trans hmid, ?_⟩
      · rw [List.append_nil]
        exact ht.congr rfl rfl rfl rfl
      · exact absurd (htx.symm.trans hx') (by decide)
      · change t.exhausted = true ↔ some Lookahead.endOfInput = some .endOfInput
        simp [htx]
      · rw [hwhole, coming_of_end hr]
        rfl
  · rw [lookahead_of_some ha]
    exact ⟨k, gone, kept, h⟩

theorem Steady.consume {gone kept : List Event} (h : s.Steady cs past k gone kept) :
    s.consume.IsSteady cs past := by
  -- Only a token that is kept can be consumed, and it joins those that are gone.
  rcases ha : s.ahead? with _ | tok | _
  · have hself : s.consume = s := by rw [TokenStream.consume, ha]
    rw [hself]
    exact ⟨k, gone, kept, h⟩
  · have hx : s.exhausted = false := h.exhausted_eq (by simp [ha])
    obtain ⟨halong, hkept, hline, hend, hmid, hwhole⟩ := h
    rw [ha] at hkept hend
    obtain ⟨e, rfl, hf⟩ := List.map_eq_singleton_iff.1 hkept
    obtain ⟨hqueue, hnone, -, hmid'⟩ := consume_of_token ha
    have hconsume : s.consume.scanner = s.scanner ∧ s.consume.source = s.source ∧
        s.consume.exhausted = s.exhausted ∧ s.consume.asked = s.asked := by
      rw [TokenStream.consume, ha]
      exact ⟨rfl, rfl, rfl, rfl⟩
    obtain ⟨hscanner, hsource, hexhausted, hasked⟩ := hconsume
    refine ⟨k, gone ++ [e], [], ?_, ?_, fun _ => ?_, ?_, ?_, ?_⟩
    · rw [List.append_nil]
      exact halong.congr (by rw [hscanner]) hsource hexhausted hasked
    · rw [hnone]
      rfl
    · rw [List.append_nil]
      exact hline hx
    · rw [hnone, hexhausted, hx]
      simp
    · rw [hmid', leavesOpen_token hf]
    · have harrival : e.arrival = .ok tok := by rw [Event.arrival, hf]
      rw [hwhole, hqueue, queue_of_token ha, List.map_append, List.append_assoc,
        List.map_singleton, harrival, List.singleton_append]
  · rw [consume_of_end ha]
    exact ⟨k, gone, kept, h⟩

/-- **Wherever a stream over a text is read, it stands at a place of the text.** -/
theorem invariant_isSteady (cs : List Char) : Invariant (IsSteady cs) where
  lookahead := fun ⟨_, _, _, h⟩ => h.lookahead
  consume := fun ⟨_, _, _, h⟩ => h.consume
  forgetRequests := by
    rintro past s ⟨k, gone, kept, halong, hkept, hline, hend, hmid, hwhole⟩
    obtain ⟨hsource, hle, hrequests, hevents, hlines, hlast⟩ := halong
    exact ⟨k, gone, kept, ⟨hsource, hle, hrequests, hevents, hlines, hlast⟩, hkept, hline, hend,
      hmid, by rw [queue_forgetRequests]; exact hwhole⟩

end TokenStream

end FlatQuery
