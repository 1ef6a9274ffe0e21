import FlatQuery.Proofs.Cutting
import FlatQuery.Token.Stream

/-!
# What a stream has to give

A stream is read lazily, line by line, and keeps one token back that was looked at. To
its reader none of this shows. The reader is given one thing after the other - tokens,
and errors in the places of what is no token - and all that matters is which ones are
still to come. `TokenStream.queue` lists them, as repeated reading would find them.

The two operations on a stream are read off the queue: looking ahead shows its head and
leaves the queue alone, unless the head is an error, which is handed out and gone
(`lookahead_cases`); consuming removes the head (`consume_of_token`). Whatever is made of
the two therefore depends on the queue only.

For a stream over a text the queue is what the scanner finds in the text taken as a
whole (`queue_ofSource`): that lines come one at a time changes nothing.
-/

set_option autoImplicit false

namespace FlatQuery

/-! ## 1. Arrivals -/

/-- What a reader is given at one time: a token, or an error in the place of one. -/
abbrev Arrival := Except Error Token

/-- The arrival that the same text has so many lines further down. -/
def Arrival.delay (k : Nat) : Arrival → Arrival
  | .ok t => .ok t
  | .error e => .error (e.delay k)

/-- What an event of the scanner is to a reader. -/
def Event.arrival (e : Event) : Arrival :=
  match e.found with
  | .token t => .ok t
  | .fault f => .error (.lexical f)

theorem Arrival.delay_zero (x : Arrival) : x.delay 0 = x := by
  rcases x with e | t
  · change Except.error (e.delay 0) = _
    rw [Error.delay_zero]
  · rfl

theorem Event.arrival_delay (e : Event) (k n : Nat) :
    (e.delay k n).arrival = e.arrival.delay k := by
  obtain ⟨f, l, p⟩ := e
  rcases f with t | f <;> rfl

namespace TokenStream

/-! ## 2. Reading to the end -/

/-- One layer of reading, without the bookkeeping of its termination. -/
theorem read_eq (s : TokenStream) :
    s.read =
      match s.scanner.next with
      | (some e, scanner) =>
        match e.found with
        | .token t => .ok (.token t) { s with scanner }
        | .fault f => .fail (.lexical f) { s with scanner }
      | (none, scanner) =>
        if s.exhausted then .ok .endOfInput { s with scanner }
        else
          match s.source.readLine with
          | .line text source =>
            read { ({ s with scanner } : TokenStream).requested false with
              scanner := scanner.feed text, source }
          | .endOfInput =>
            .ok .endOfInput { ({ s with scanner } : TokenStream).requested true with
              exhausted := true }
          | .broken f =>
            .fail (.inputEncoding f) (({ s with scanner } : TokenStream).requested false) := by
  rw [read]
  rcases s.scanner.next with ⟨_ | e, scanner⟩
  · dsimp only
    split
    · rfl
    · split <;> rename_i h <;> simp only [h]
  · rfl

/-- Whether two streams have the same text before them. Where their readers stand in a
statement, and which lines were asked for, may differ. -/
def SameText (s t : TokenStream) : Prop :=
  s.scanner = t.scanner ∧ s.source = t.source ∧ s.exhausted = t.exhausted

end TokenStream

/-- Two replies that differ in nothing but their streams. -/
def Reply.Alike {α : Type} (R : TokenStream → TokenStream → Prop) : Reply α → Reply α → Prop
  | .ok a s, .ok b t => a = b ∧ R s t
  | .fail d s, .fail e t => d = e ∧ R s t
  | _, _ => False

namespace TokenStream

/-- Reading finds the same in the same text. -/
theorem read_congr {s t : TokenStream} (h : s.SameText t) :
    s.read.Alike SameText t.read := by
  fun_induction read s generalizing t with
  -- In each case the other stream asks its scanner and its source the same and is told the same.
  | case1 s e scanner hn k hf =>
    rw [read_eq t, ← h.1, hn]
    dsimp only
    rw [hf]
    exact ⟨rfl, rfl, h.2⟩
  | case2 s e scanner hn f hf =>
    rw [read_eq t, ← h.1, hn]
    dsimp only
    rw [hf]
    exact ⟨rfl, rfl, h.2⟩
  | case3 s scanner hn u =>
    rename_i hx
    rw [read_eq t, ← h.1, hn]
    dsimp only
    rw [← h.2.2, if_pos hx]
    exact ⟨rfl, rfl, h.2.1, rfl⟩
  | case4 s scanner hn u hx text source hl =>
    rename_i ih
    rw [read_eq t, ← h.1, hn]
    dsimp only
    rw [← h.2.2, if_neg hx, ← h.2.1, hl]
    exact ih ⟨rfl, rfl, rfl⟩
  | case5 s scanner hn u hx =>
    rename_i hl
    rw [read_eq t, ← h.1, hn]
    dsimp only
    rw [← h.2.2, if_neg hx, ← h.2.1, hl]
    exact ⟨rfl, rfl, rfl, rfl⟩
  | case6 s scanner hn u hx f =>
    rename_i hl
    rw [read_eq t, ← h.1, hn]
    dsimp only
    rw [← h.2.2, if_neg hx, ← h.2.1, hl]
    exact ⟨rfl, rfl, rfl, rfl⟩

/-- All that reading on and on will find. Behind an error that is not of a statement
there is nothing: it comes again whenever the stream is read. -/
def coming (s : TokenStream) : List Arrival :=
  match _h : s.read with
  | .ok (.token k) t => .ok k :: t.coming
  | .ok .endOfInput _ => []
  | .fail e t => if _he : e.isStatementError = true then .error e :: t.coming else [.error e]
termination_by s.remaining
decreasing_by
  · have hs := read_spec s
    rw [_h] at hs
    have := hs.2.2
    simp only [aheadSize] at this
    omega
  · have hs := read_spec s
    rw [_h] at hs
    exact hs.2.2.2 _he

/-- A token that is read is the first to come. -/
theorem coming_of_token {s t : TokenStream} {k : Token} (h : s.read = .ok (.token k) t) :
    s.coming = .ok k :: t.coming := by
  rw [coming]
  split <;> rename_i hr <;> rw [h] at hr <;> simp_all

/-- Where the end is read nothing comes. -/
theorem coming_of_end {s t : TokenStream} (h : s.read = .ok .endOfInput t) : s.coming = [] := by
  unfold coming
  split <;> rename_i hr <;> rw [h] at hr <;> simp_all

/-- An error that is read is the first to come, and the last if it concerns no statement. -/
theorem coming_of_fail {s t : TokenStream} {e : Error} (h : s.read = .fail e t) :
    s.coming = .error e :: if e.isStatementError then t.coming else [] := by
  rw [coming]
  split <;> rename_i hr <;> rw [h] at hr
  · simp at hr
  · simp at hr
  · injection hr with he ht
    subst he ht
    split <;> simp

/-- What comes depends on what is read next alone. -/
theorem coming_of_read_eq {s t : TokenStream} (h : s.read = t.read) : s.coming = t.coming := by
  rcases hr : t.read with ⟨k | _, u⟩ | ⟨e, u⟩
  · rw [coming_of_token (h.trans hr), coming_of_token hr]
  · rw [coming_of_end (h.trans hr), coming_of_end hr]
  · rw [coming_of_fail (h.trans hr), coming_of_fail hr]

/-- Streams over the same text have the same to come. -/
theorem coming_congr {s t : TokenStream} (h : s.SameText t) : s.coming = t.coming := by
  fun_induction coming s generalizing t with
  | case1 s k u hr ih =>
    have hc := read_congr h
    rw [hr] at hc
    rcases hq : t.read with ⟨a, v⟩ | ⟨e, v⟩ <;> rw [hq] at hc
    · obtain ⟨rfl, hv⟩ := hc
      rw [coming_of_token hq, ih hv]
    · exact hc.elim
  | case2 s u hr =>
    have hc := read_congr h
    rw [hr] at hc
    rcases hq : t.read with ⟨a, v⟩ | ⟨e, v⟩ <;> rw [hq] at hc
    · obtain ⟨rfl, hv⟩ := hc
      rw [coming_of_end hq]
    · exact hc.elim
  | case3 s e u hr he ih =>
    have hc := read_congr h
    rw [hr] at hc
    rcases hq : t.read with ⟨a, v⟩ | ⟨d, v⟩ <;> rw [hq] at hc
    · exact hc.elim
    · obtain ⟨rfl, hv⟩ := hc
      rw [coming_of_fail hq, if_pos he, ih hv]
  | case4 s e u hr he =>
    have hc := read_congr h
    rw [hr] at hc
    rcases hq : t.read with ⟨a, v⟩ | ⟨d, v⟩ <;> rw [hq] at hc
    · exact hc.elim
    · obtain ⟨rfl, hv⟩ := hc
      rw [coming_of_fail hq, if_neg he]

/-! ## 3. The queue -/

/-- What is still to come for a reader: what was looked at and is kept, and what is not
read yet. Once the end has been looked at, nothing comes any more. -/
def queue (s : TokenStream) : List Arrival :=
  match s.ahead? with
  | none => s.coming
  | some (.token k) => .ok k :: s.coming
  | some .endOfInput => []

/-- Whether a stream has the reader where another has him: as many tokens consumed, and
the last of them a semicolon or not. -/
def SamePlace (s t : TokenStream) : Prop :=
  t.consumed = s.consumed ∧ t.midStatement = s.midStatement

/-- Where nothing was looked at, the queue is what comes. -/
theorem queue_of_none {s : TokenStream} (h : s.ahead? = none) : s.queue = s.coming := by
  rw [queue, h]

/-- Reading consumes nothing. -/
theorem read_samePlace (s : TokenStream) : s.SamePlace s.read.rest := by
  fun_induction read s with
  | case1 s e scanner hn k hf => exact ⟨rfl, rfl⟩
  | case2 s e scanner hn f hf => exact ⟨rfl, rfl⟩
  | case3 s scanner hn u hx => exact ⟨rfl, rfl⟩
  | case4 s scanner hn u hx text source hl ih => exact ih
  | case5 s scanner hn u hx hl => exact ⟨rfl, rfl⟩
  | case6 s scanner hn u hx f hl => exact ⟨rfl, rfl⟩

/-- An error that is not of a statement comes again at the next reading. -/
theorem read_again {s t : TokenStream} {e : Error} (h : s.read = .fail e t)
    (he : e.isStatementError = false) : ∃ u, t.read = .fail e u := by
  fun_induction read s with
  | case1 s d scanner hn k hf => simp at h
  | case2 s d scanner hn f hf =>
    injection h with hd
    -- A lexical fault belongs to a statement.
    rw [← hd] at he
    exact Bool.noConfusion he
  | case3 s scanner hn u hx => simp at h
  | case4 s scanner hn u hx text source hl ih => exact ih h
  | case5 s scanner hn u hx hl => simp at h
  | case6 s scanner hn u hx f hl =>
    injection h with hd ht
    -- The source has not moved, so it breaks again.
    subst hd ht
    have hnext : (u.requested false).scanner.next = (none, scanner) :=
      Scanner.next_of_nil (Scanner.next_none_rest hn)
    have hx' : ¬(u.requested false).exhausted = true := hx
    have hl' : (u.requested false).source.readLine = .broken f := hl
    refine ⟨(u.requested false).requested false, ?_⟩
    rw [read_eq, hnext]
    dsimp only
    rw [if_neg hx', hl']
    rfl

/-- What has been looked at stands next. -/
theorem lookahead_of_some {s : TokenStream} {a : Lookahead} (h : s.ahead? = some a) :
    s.lookahead = .ok a s := by
  rw [lookahead, h]

/-- What is read for the first time stands next from then on. -/
theorem lookahead_of_read {s t : TokenStream} {a : Lookahead} (h : s.ahead? = none)
    (hr : s.read = .ok a t) : s.lookahead = .ok a { t with ahead? := some a } := by
  rw [lookahead, h]
  dsimp only
  rw [hr]

/-- An error is not kept, so it is raised once. -/
theorem lookahead_of_fail {s t : TokenStream} {e : Error} (h : s.ahead? = none)
    (hr : s.read = .fail e t) : s.lookahead = .fail e t := by
  rw [lookahead, h]
  dsimp only
  rw [hr]

/-- **Looking ahead shows the head of the queue.** A token or the end is kept, and the
queue is what it was. An error of a statement is handed out and gone; any other error
stays. Either way the reader has not moved. -/
theorem lookahead_cases (s : TokenStream) :
    (∃ t, s.lookahead = .ok .endOfInput t ∧ s.queue = [] ∧ t.queue = [] ∧
      t.ahead? = some .endOfInput ∧ s.SamePlace t) ∨
    (∃ k t, s.lookahead = .ok (.token k) t ∧ s.queue = .ok k :: t.coming ∧
      t.ahead? = some (.token k) ∧ s.SamePlace t) ∨
    (∃ e t, s.lookahead = .fail e t ∧ t.ahead? = none ∧ s.SamePlace t ∧
      (e.isStatementError = true ∧ s.queue = .error e :: t.queue ∨
        e.isStatementError = false ∧ s.queue = [.error e] ∧ t.queue = [.error e])) := by
  rcases ha : s.ahead? with _ | a
  · have hplace := read_samePlace s
    have hspec := read_spec s
    rw [queue_of_none ha]
    rcases hr : s.read with ⟨a, t⟩ | ⟨e, t⟩ <;> rw [hr] at hplace hspec
    · rcases a with k | _
      · refine .inr (.inl ⟨k, _, lookahead_of_read ha hr, ?_, rfl, hplace⟩)
        rw [coming_of_token hr]
        exact congrArg _ (coming_congr ⟨rfl, rfl, rfl⟩)
      · exact .inl ⟨_, lookahead_of_read ha hr, coming_of_end hr, rfl, rfl, hplace⟩
    · have hnone : t.ahead? = none := hspec.1.trans ha
      refine .inr (.inr ⟨e, t, lookahead_of_fail ha hr, hnone, hplace, ?_⟩)
      rw [queue_of_none hnone, coming_of_fail hr]
      -- Bytes that are not text stay so, and are found again each time.
      rcases he : e.isStatementError with _ | _
      · obtain ⟨u, hu⟩ := read_again hr he
        rw [coming_of_fail hu, he]
        exact .inr ⟨rfl, rfl, rfl⟩
      · exact .inl ⟨rfl, rfl⟩
  · have hplace : s.SamePlace s := ⟨rfl, rfl⟩
    rcases a with k | _
    · refine .inr (.inl ⟨k, s, lookahead_of_some ha, ?_, ha, hplace⟩)
      rw [queue, ha]
    · have hq : s.queue = [] := by rw [queue, ha]
      exact .inl ⟨s, lookahead_of_some ha, hq, hq, ha, hplace⟩

/-- A token that has been looked at is first in the queue. -/
theorem queue_of_token {s : TokenStream} {k : Token} (h : s.ahead? = some (.token k)) :
    s.queue = .ok k :: s.coming := by
  rw [queue, h]

/-- Consuming the token that stands next takes it off the queue. -/
theorem consume_of_token {s : TokenStream} {k : Token} (h : s.ahead? = some (.token k)) :
    s.consume.queue = s.coming ∧ s.consume.ahead? = none ∧
      s.consume.consumed = s.consumed + 1 ∧
      s.consume.midStatement = decide (k.text ≠ ";") := by
  rw [consume, h]
  exact ⟨coming_congr ⟨rfl, rfl, rfl⟩, rfl, rfl, rfl⟩

/-- The end is never consumed. -/
theorem consume_of_end {s : TokenStream} (h : s.ahead? = some .endOfInput) :
    s.consume = s := by
  rw [consume, h]

/-! ## 4. Streams over texts -/

/-- Whether the rest of a stream's text is a given one, all of it at hand. -/
structure HasText (s : TokenStream) (cs : List Char) : Prop where
  source_eq : ∃ position, s.source = { ready := cs, position }
  cut : EndsLine s.scanner.rest ∨ cs = []
  exhausted : s.exhausted = true → cs = []

/-- Where the lines so far hold nothing more, a stream over a text is at the end of it or
asks for its next line, which is scanned as if it stood behind the lines before it. -/
theorem read_of_hasText {s : TokenStream} {cs : List Char} {scanner : Scanner}
    (h : s.HasText cs) (hn : s.scanner.next = (none, scanner)) :
    (cs = [] ∧ ∃ t, s.read = .ok .endOfInput t) ∨
    (∃ (t : TokenStream) (ds : List Char), s.read = t.read ∧ t.HasText ds ∧
      scanner.extend cs = (t.scanner.extend ds).delay 0 scanner.position ∧
      t.remaining ≤ s.remaining ∧ t.source.size < s.source.size) := by
  obtain ⟨⟨position, hsource⟩, -, hexh⟩ := h
  have hread := read_eq s
  have hrest := Scanner.next_none_rest hn
  rw [hn] at hread
  dsimp only at hread
  by_cases hx : s.exhausted = true
  · rw [if_pos hx] at hread
    exact .inl ⟨hexh hx, _, hread⟩
  rw [if_neg hx, hsource, Source.readLine_ready] at hread
  by_cases hcs : cs = []
  · rw [if_pos hcs] at hread
    exact .inl ⟨hcs, _, hread⟩
  rw [if_neg hcs] at hread
  have hlen := Text.takeLine_length cs
  have hpos : 0 < (Text.takeLine cs).1.length :=
    List.length_pos_iff.2 fun hnil => hcs (Text.takeLine_fst_eq_nil.1 hnil)
  refine .inr ⟨_, (Text.takeLine cs).2, hread, ⟨⟨position, rfl⟩, ?_, fun ht => absurd ht hx⟩,
    ?_, ?_, ?_⟩
  · by_cases hlast : (Text.takeLine cs).1.getLast? = some '\n'
    · refine .inl fun c hc => ?_
      change c ∈ (Text.takeLine cs).1.getLast? at hc
      rw [hlast] at hc
      exact (Option.some.inj hc).symm
    -- A line that no line feed ends is the last one.
    · rw [Text.takeLine_of_unended hlast]
      exact .inr rfl
  · simp only [Scanner.extend, Scanner.delay, Scanner.feed, hrest, List.nil_append,
      Text.takeLine_append, Nat.add_zero, Nat.zero_add]
  · simp only [remaining, requested, Scanner.feed, hsource, Source.size, List.length_nil,
      Bool.toNat_false]
    omega
  · simp only [hsource, Source.size, List.length_nil, Bool.toNat_false]
    omega

/-- **Line by line or as a whole.** What is to come of a text does not depend on how much
of it has been asked for. -/
theorem coming_of_hasText {s : TokenStream} {cs : List Char} (h : s.HasText cs) :
    s.coming = (s.scanner.extend cs).events.1.map Event.arrival := by
  -- Either an event is taken off the text, or a line moves from the source to the scanner.
  induction hm : s.remaining + s.source.size using Nat.strongRecOn generalizing s cs with
  | _ m ih =>
    have hnext := Scanner.next_extend_or h.cut
    rcases hn : s.scanner.next with ⟨_ | e, scanner⟩ <;> rw [hn] at hnext
    · rw [Scanner.events_congr hnext]
      rcases read_of_hasText h hn with ⟨hcs, t, hr⟩ | ⟨t, ds, hr, ht, hd, hle, hlt⟩
      · have hrest := Scanner.next_none_rest hn
        rw [coming_of_end hr, hcs, Scanner.extend, List.append_nil,
          Scanner.events_of_none (Scanner.next_of_nil hrest)]
        rfl
      · rw [coming_of_read_eq hr, ih _ (by omega) ht rfl, hd, Scanner.events_delay,
          List.map_map]
        refine List.map_congr_left fun e _ => ?_
        rw [Function.comp_apply, Event.arrival_delay, Arrival.delay_zero]
    · have hread := read_eq s
      rw [hn] at hread
      have hlt := Scanner.next_some_length hn
      have ht : ({ s with scanner } : TokenStream).HasText cs :=
        ⟨h.source_eq, h.cut.imp (fun hc => Scanner.endsLine_next hc hn) id, h.exhausted⟩
      have hrest := ih _ (by simp only [remaining] at hm ⊢; omega) ht rfl
      rw [Scanner.events_of_some hnext, List.map_cons, ← hrest, Event.arrival]
      dsimp only at hread
      rcases hf : e.found with k | f <;> rw [hf] at hread
      · exact coming_of_token hread
      · exact coming_of_fail hread

/-- The queue of a text is what the scanner finds in it as a whole. -/
theorem queue_ofSource {cs : List Char} :
    queue { source := { ready := cs } } =
      (Scanner.feed {} cs).events.1.map Event.arrival := by
  have htext : HasText { source := { ready := cs } } cs :=
    ⟨⟨0, rfl⟩, .inl fun c hc => by simp at hc, fun h => Bool.noConfusion h⟩
  rw [queue_of_none rfl, coming_of_hasText htext]
  rfl

end TokenStream

end FlatQuery
