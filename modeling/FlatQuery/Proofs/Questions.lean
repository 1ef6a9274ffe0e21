import FlatQuery.Proofs.Composition

/-!
# Questions to a stream

The statements of the shell are read by a handful of questions about what stands next: what
it is, whether it is a given text or of a given kind, and whether to consume it. This module
lets the questions be asked in any order, and compares a stream with a plain queue that is
asked the same ones. The queue holds what a text gives when it is scanned as a whole. It has
no scanner and no source, so that nothing can be lost, come twice or come out of order.

A question does no more than to look ahead and then to consume or not (`ask_eq`). So two
operations have to be compared, and for each there is one lemma (`Shows.lookahead` and
`Shows.consume`). Any number of questions follow by induction (`Shows.askAll`).

When a stream asks for lines is not to be seen from its answers. It is read off `read`
itself, which goes for a line only where the last one holds no more (`read_fetches`).
-/

set_option autoImplicit false

namespace FlatQuery

/-! ## 1. Questions and answers -/

/-- A question about what stands next. -/
inductive Question where
  /-- What is its text? -/
  | peek
  /-- What is its kind? -/
  | peekKind
  /-- What is its text? It is consumed. -/
  | next
  /-- Has it the text and the kind, as far as these are given? -/
  | nextIs (text? kind? : Option String)
  /-- Has it the text? It is consumed if so. -/
  | nextIf (text : String)
  /-- It has to have the text, and is consumed. -/
  | expect (text : String)
  /-- It has to be of the kind of that name, and is consumed. -/
  | expectKind (kind : String)
deriving DecidableEq

/-- A function of a result is worked out where there is one. -/
theorem Parser.run_map {α β : Type} (f : α → β) (p : Parser α) (s : TokenStream) :
    (f <$> p).run s =
      match p.run s with
      | .ok a t => .ok (f a) t
      | .fail e t => .fail e t := rfl

namespace Question

/-- What a question is answered with. -/
inductive Answer where
  | text (s : String)
  | truth (b : Bool)
  | error (e : Error)
deriving DecidableEq

/-- The parser that a question is. -/
def parser : Question → Parser Answer
  | .peek => .text <$> Parser.peek
  | .peekKind => .text <$> Parser.peekKind
  | .next => .text <$> Parser.next
  | .nextIs text? kind? => .truth <$> Parser.nextIs text? kind?
  | .nextIf text => .truth <$> Parser.nextIf text
  | .expect text => .text <$> Parser.expect text
  | .expectKind kind => .text <$> Parser.expectNamed kind

/-- The answer of a stream, and the stream afterwards. -/
def ask (q : Question) (s : TokenStream) : Answer × TokenStream :=
  match q.parser.run s with
  | .ok a t => (a, t)
  | .fail e t => (.error e, t)

/-- The answers of a stream to one question after the other. -/
def askAll : List Question → TokenStream → List Answer × TokenStream
  | [], s => ([], s)
  | q :: qs, s => ((q.ask s).1 :: (askAll qs (q.ask s).2).1, (askAll qs (q.ask s).2).2)

/-- The answer to a question where a given thing stands next. -/
def reply : Question → Lookahead → Answer
  | .peek, a => .text a.text
  | .peekKind, a => .text a.kindName
  | .next, a => .text a.text
  | .nextIs text? kind?, a =>
    .truth (text?.all (· == a.text) && kind?.all (· == a.kindName))
  | .nextIf text, a => .truth (a.text = text)
  | .expect text, a =>
    if a.text = text then .text a.text else .error (.expectedText text a.text)
  | .expectKind kind, a =>
    if a.kindName = kind then .text a.text else .error (.expectedKind kind a.text)

/-- Whether a question consumes a given thing where it stands next. -/
def takes : Question → Lookahead → Bool
  | .peek, _ => false
  | .peekKind, _ => false
  | .next, _ => true
  | .nextIs _ _, _ => false
  | .nextIf text, a => a.text = text
  | .expect text, a => a.text = text
  | .expectKind kind, a => a.kindName = kind

/-- **A question looks ahead, and then consumes what it sees or leaves it.** -/
theorem ask_eq (q : Question) (s : TokenStream) :
    q.ask s =
      match s.lookahead with
      | .ok a t => (q.reply a, if q.takes a then t.consume else t)
      | .fail e t => (.error e, t) := by
  have hbind {α : Type} (f : Lookahead → Parser α) := Parser.run_lookahead_bind f s
  rcases hl : s.lookahead with ⟨a, t⟩ | ⟨e, t⟩
  · cases q <;> dsimp only [ask, parser, reply, takes] <;> rw [Parser.run_map] <;>
      simp only [Parser.peek, Parser.peekKind, Parser.next, Parser.nextIs, Parser.nextIf,
        Parser.expect, Parser.expectNamed, hbind, hl]
    case nextIf text => by_cases h : a.text = text <;> simp only [h, if_true, if_false] <;> rfl
    case expect text => by_cases h : a.text = text <;> simp only [h, if_true, if_false] <;> rfl
    case expectKind kind =>
      by_cases h : a.kindName = kind <;> simp only [h, if_true, if_false] <;> rfl
    all_goals rfl
  · cases q <;> dsimp only [ask, parser] <;> rw [Parser.run_map] <;>
      simp only [Parser.peek, Parser.peekKind, Parser.next, Parser.nextIs, Parser.nextIf,
        Parser.expect, Parser.expectNamed, hbind, hl]

/-- The lexical fault that an answer reports. -/
def Answer.fault? : Answer → Option LexicalFault
  | .error (.lexical f) => some f
  | _ => none

/-- No question finds fault with the text of a token. -/
theorem fault?_reply (q : Question) (a : Lookahead) : (q.reply a).fault? = none := by
  unfold reply
  split
  case h_6 text =>
    by_cases h : a.text = text
    · rw [if_pos h]
      rfl
    · rw [if_neg h]
      rfl
  case h_7 kind =>
    by_cases h : a.kindName = kind
    · rw [if_pos h]
      rfl
    · rw [if_neg h]
      rfl
  all_goals rfl

end Question

/-! ## 2. A plain queue -/

/-- The token that an arrival is. -/
def Arrival.token? : Arrival → Option Token
  | .ok k => some k
  | .error _ => none

/-- The lexical fault that an arrival is. -/
def Arrival.fault? : Arrival → Option LexicalFault
  | .error (.lexical f) => some f
  | _ => none

/-- A queue of tokens and errors that is looked at one ahead. -/
structure TokenQueue where
  /-- What has left the queue, in order: the tokens consumed and the errors raised. -/
  gone : List Arrival := []
  /-- What has been looked at and not consumed. -/
  kept? : Option Lookahead := none
  /-- What has not been looked at. -/
  coming : List Arrival

namespace TokenQueue

/-- What stands next, which is kept. An error is raised and has left the queue. -/
def look (q : TokenQueue) : Except Error Lookahead × TokenQueue :=
  match q.kept? with
  | some a => (.ok a, q)
  | none =>
    match q.coming with
    | [] => (.ok .endOfInput, { q with kept? := some .endOfInput })
    | .ok k :: rest =>
      (.ok (.token k), { q with kept? := some (.token k), coming := rest })
    | .error e :: rest => (.error e, { q with gone := q.gone ++ [.error e], coming := rest })

/-- The queue behind the token that is kept. The end stays where it is. -/
def consume (q : TokenQueue) : TokenQueue :=
  match q.kept? with
  | some (.token k) => { q with gone := q.gone ++ [.ok k], kept? := none }
  | _ => q

/-- The answer of a queue, and the queue afterwards. -/
def pose (question : Question) (q : TokenQueue) : Question.Answer × TokenQueue :=
  match q.look with
  | (.ok a, p) => (question.reply a, if question.takes a then p.consume else p)
  | (.error e, p) => (.error e, p)

/-- The answers of a queue to one question after the other. -/
def poseAll : List Question → TokenQueue → List Question.Answer × TokenQueue
  | [], q => ([], q)
  | x :: xs, q => ((q.pose x).1 :: (poseAll xs (q.pose x).2).1, (poseAll xs (q.pose x).2).2)

/-- What has not left the queue. -/
def left (q : TokenQueue) : List Arrival :=
  match q.kept? with
  | some (.token k) => .ok k :: q.coming
  | _ => q.coming

/-! ### Nothing is lost and nothing comes twice -/

theorem look_whole (q : TokenQueue) : q.look.2.gone ++ q.look.2.left = q.gone ++ q.left := by
  obtain ⟨gone, _ | a, coming⟩ := q
  · rcases coming with _ | ⟨e | k, rest⟩
    · rfl
    · exact List.append_assoc gone [.error e] rest
    · rfl
  · rfl

theorem consume_whole (q : TokenQueue) :
    q.consume.gone ++ q.consume.left = q.gone ++ q.left := by
  obtain ⟨gone, _ | k | _, coming⟩ := q
  · rfl
  · exact List.append_assoc gone [.ok k] coming
  · rfl

/-- A question moves what is left of a queue to what has left it, or nothing at all. -/
theorem pose_whole (question : Question) (q : TokenQueue) :
    (q.pose question).2.gone ++ (q.pose question).2.left = q.gone ++ q.left := by
  have hlook := look_whole q
  unfold pose
  rcases hq : q.look with ⟨e | a, p⟩ <;> rw [hq] at hlook
  · exact hlook
  · dsimp only
    split
    · exact (consume_whole p).trans hlook
    · exact hlook

theorem poseAll_whole (questions : List Question) (q : TokenQueue) :
    (q.poseAll questions).2.gone ++ (q.poseAll questions).2.left = q.gone ++ q.left := by
  induction questions generalizing q with
  | nil => rfl
  | cons question questions ih => exact (ih _).trans (pose_whole question q)

/-! ### Every error is raised once -/

theorem faults_consume (q : TokenQueue) :
    q.consume.gone.filterMap Arrival.fault? = q.gone.filterMap Arrival.fault? := by
  obtain ⟨gone, _ | k | _, coming⟩ := q
  · rfl
  · change (gone ++ [Except.ok k]).filterMap Arrival.fault? = _
    rw [List.filterMap_append]
    exact List.append_nil _
  · rfl

theorem faults_pose (question : Question) (q : TokenQueue) :
    (q.pose question).2.gone.filterMap Arrival.fault? =
      q.gone.filterMap Arrival.fault? ++ (q.pose question).1.fault?.toList := by
  -- Only looking ahead can come upon a fault.
  have hlook : q.look.2.gone.filterMap Arrival.fault? =
      q.gone.filterMap Arrival.fault? ++
        match q.look.1 with
        | .ok _ => []
        | .error e => (Question.Answer.error e).fault?.toList := by
    obtain ⟨gone, _ | a, coming⟩ := q
    · rcases coming with _ | ⟨e | k, rest⟩
      · exact (List.append_nil _).symm
      · change (gone ++ [Except.error e]).filterMap Arrival.fault? = _
        rw [List.filterMap_append]
        refine congrArg _ ?_
        cases e <;> rfl
      · exact (List.append_nil _).symm
    · exact (List.append_nil _).symm
  unfold pose
  rcases hq : q.look with ⟨e | a, p⟩ <;> rw [hq] at hlook
  · exact hlook
  · dsimp only at hlook ⊢
    rw [Question.fault?_reply]
    split
    · exact (faults_consume p).trans hlook
    · exact hlook

/-- The faults that were reported are those that have left the queue. -/
theorem faults_poseAll (questions : List Question) (q : TokenQueue) :
    (q.poseAll questions).2.gone.filterMap Arrival.fault? =
      q.gone.filterMap Arrival.fault? ++
        (q.poseAll questions).1.filterMap Question.Answer.fault? := by
  induction questions generalizing q with
  | nil => exact (List.append_nil _).symm
  | cons question questions ih =>
    refine (ih _).trans ?_
    rw [faults_pose, List.append_assoc]
    refine congrArg _ ?_
    change _ = ((q.pose question).1 :: _).filterMap _
    rw [List.filterMap_cons]
    rcases (q.pose question).1.fault? with _ | f <;> rfl

end TokenQueue

/-! ## 3. A stream shows a queue -/

/-- Whether a stream and a queue keep the same, have the same left, and have consumed as
many tokens. -/
structure TokenStream.Shows (s : TokenStream) (q : TokenQueue) : Prop where
  kept_eq : s.ahead? = q.kept?
  left_eq : s.queue = q.left
  consumed_eq : s.consumed = (q.gone.filterMap Arrival.token?).length
  /-- The end is kept only where nothing is left. -/
  coming_eq : q.kept? = some .endOfInput → q.coming = []
  regular : ∀ x ∈ q.left, x.IsRegular

namespace TokenStream.Shows

variable {s : TokenStream} {q : TokenQueue}

/-- A stream and a queue that look ahead see the same. -/
theorem lookahead (h : s.Shows q) :
    match s.lookahead with
    | .ok a t => q.look.1 = .ok a ∧ t.Shows q.look.2
    | .fail e t => q.look.1 = .error e ∧ t.Shows q.look.2 := by
  obtain ⟨hkept, hleft, hconsumed, hcoming, hregular⟩ := h
  obtain ⟨gone, kept?, coming⟩ := q
  dsimp only at hkept hconsumed hcoming
  rcases kept? with _ | a
  -- Nothing is kept: the head of the queue decides.
  · change s.queue = coming at hleft
    change ∀ x ∈ coming, x.IsRegular at hregular
    rcases s.lookahead_cases with
      ⟨t, hl, hq, hqt, ht, hplace⟩ | ⟨k, t, hl, hq, ht, hplace⟩ |
      ⟨e, t, hl, ht, hplace, ⟨-, hq⟩ | ⟨he, hq, -⟩⟩ <;>
      rw [hl] <;> dsimp only <;> rw [hleft] at hq <;> subst hq
    · exact ⟨rfl, ht, hqt, hplace.1.trans hconsumed, fun _ => rfl, hregular⟩
    · exact ⟨rfl, ht, queue_of_token ht, hplace.1.trans hconsumed,
        fun hend => by simp [TokenQueue.look] at hend, hregular⟩
    · refine ⟨rfl, ht, rfl, ?_, fun hend => by simp [TokenQueue.look] at hend,
        fun x hx => hregular x (List.mem_cons_of_mem _ hx)⟩
      refine (hplace.1.trans hconsumed).trans ?_
      change _ = ((gone ++ [Except.error e]).filterMap Arrival.token?).length
      rw [List.filterMap_append]
      exact congrArg _ (List.append_nil _).symm
    · have := hregular _ (List.mem_cons_self ..)
      exact absurd (he.symm.trans this) Bool.false_ne_true
  · rw [lookahead_of_some hkept]
    exact ⟨rfl, hkept, hleft, hconsumed, hcoming, hregular⟩

/-- A stream and a queue that consume what they keep have the same left. -/
theorem consume (h : s.Shows q) : s.consume.Shows q.consume := by
  obtain ⟨hkept, hleft, hconsumed, hcoming, hregular⟩ := h
  obtain ⟨gone, kept?, coming⟩ := q
  dsimp only at hkept hconsumed hcoming
  rcases kept? with _ | k | _
  · rw [TokenStream.consume, hkept]
    exact ⟨hkept, hleft, hconsumed, hcoming, hregular⟩
  · obtain ⟨hq, ha, hc, -⟩ := consume_of_token hkept
    rw [queue_of_token hkept] at hleft
    refine ⟨ha, hq.trans (List.cons.inj hleft).2, ?_,
      fun hend => by simp [TokenQueue.consume] at hend,
      fun x hx => hregular x (List.mem_cons_of_mem _ hx)⟩
    rw [hc, hconsumed]
    change _ = ((gone ++ [Except.ok k]).filterMap Arrival.token?).length
    rw [List.filterMap_append, List.length_append]
    rfl
  · rw [consume_of_end hkept]
    exact ⟨hkept, hleft, hconsumed, hcoming, hregular⟩

/-- **One question has one answer**, and leaves the same behind. -/
theorem ask (h : s.Shows q) (question : Question) :
    (question.ask s).1 = (q.pose question).1 ∧ (question.ask s).2.Shows (q.pose question).2 := by
  have hlook := h.lookahead
  rw [Question.ask_eq, TokenQueue.pose]
  rcases hq : q.look with ⟨r, p⟩
  rw [hq] at hlook
  rcases hl : s.lookahead with ⟨a, t⟩ | ⟨e, t⟩ <;> rw [hl] at hlook <;>
    obtain ⟨rfl, hshows⟩ : r = _ ∧ t.Shows p := hlook
  · refine ⟨rfl, ?_⟩
    dsimp only
    split
    · exact hshows.consume
    · exact hshows
  · exact ⟨rfl, hshows⟩

/-- **Any questions have the same answers.** -/
theorem askAll (h : s.Shows q) (questions : List Question) :
    (Question.askAll questions s).1 = (q.poseAll questions).1 ∧
      (Question.askAll questions s).2.Shows (q.poseAll questions).2 := by
  induction questions generalizing s q with
  | nil => exact ⟨rfl, h⟩
  | cons question questions ih =>
    obtain ⟨hanswer, hshows⟩ := h.ask question
    obtain ⟨hanswers, hshows'⟩ := ih hshows
    exact ⟨congr (congrArg _ hanswer) hanswers, hshows'⟩

end TokenStream.Shows

/-- A stream over a text shows the queue of what the text gives as a whole. -/
theorem TokenStream.shows_ofString (text : String) :
    (TokenStream.ofString text).Shows { coming := arrivalsOf text.toList } where
  kept_eq := rfl
  left_eq := queue_ofSource
  consumed_eq := rfl
  coming_eq h := by cases h
  regular := isRegular_arrivalsOf

/-! ## 4. Requests for lines -/

namespace TokenStream

/-- The stream after one more line has been asked for. -/
def fetch (s : TokenStream) : TokenStream :=
  let t : TokenStream := { s with scanner := s.scanner.next.2 }
  match s.source.readLine with
  | .line text source => { t.requested false with scanner := t.scanner.feed text, source }
  | .endOfInput => { t.requested true with exhausted := true }
  | .broken _ => t.requested false

/-- Whether two streams have asked for the same lines and have the same text behind them. -/
def SameLines (s t : TokenStream) : Prop :=
  t.source = s.source ∧ t.asked = s.asked ∧ t.exhausted = s.exhausted

/-- Whether a stream has asked for so many lines to get where another is: for each of them
while nothing was kept, the line before it held no more tokens or errors, and the end had not
been met. -/
structure Fetches (n : Nat) (s t : TokenStream) : Prop where
  lines : (fetch^[n] s).SameLines t
  needed : ∀ i < n, (fetch^[i] s).ahead? = none ∧ (fetch^[i] s).scanner.events.1 = [] ∧
    (fetch^[i] s).exhausted = false

theorem Fetches.zero {s t : TokenStream} (h : s.SameLines t) : s.Fetches 0 t :=
  ⟨h, fun _ hi => absurd hi (Nat.not_lt_zero _)⟩

/-- What asks for no line may follow. -/
theorem Fetches.trans_sameLines {s t u : TokenStream} {n : Nat} (h : s.Fetches n t)
    (hu : t.SameLines u) : s.Fetches n u :=
  ⟨⟨hu.1.trans h.lines.1, hu.2.1.trans h.lines.2.1, hu.2.2.trans h.lines.2.2⟩, h.needed⟩

/-- A request that is needed comes before the requests that are needed after it. -/
theorem Fetches.cons {s t : TokenStream} {n : Nat} (ha : s.ahead? = none)
    (hn : s.scanner.events.1 = []) (hx : s.exhausted = false) (h : s.fetch.Fetches n t) :
    s.Fetches (n + 1) t := by
  refine ⟨h.lines, fun i hi => ?_⟩
  rcases i with _ | i
  · exact ⟨ha, hn, hx⟩
  · exact h.needed i (Nat.lt_of_succ_lt_succ hi)

/-- **Reading asks for a line only where the last one holds no more.** -/
theorem read_fetches {s : TokenStream} (ha : s.ahead? = none) :
    ∃ n, s.Fetches n s.read.rest := by
  fun_induction read s with
  | case1 s e scanner hn k hf => exact ⟨0, .zero ⟨rfl, rfl, rfl⟩⟩
  | case2 s e scanner hn f hf => exact ⟨0, .zero ⟨rfl, rfl, rfl⟩⟩
  | case3 s scanner hn t hx => exact ⟨0, .zero ⟨rfl, rfl, rfl⟩⟩
  -- One more line is fetched, and reading goes on from there.
  | case4 s scanner hn t hx text source hl ih =>
    have hfetch : s.fetch = { t.requested false with scanner := scanner.feed text, source } := by
      rw [fetch, hl, hn]
    obtain ⟨n, hrest⟩ := ih ha
    refine ⟨n + 1, .cons ha (by rw [Scanner.events_of_none hn]) (Bool.eq_false_iff.2 hx) ?_⟩
    rw [hfetch]
    exact hrest
  | case5 s scanner hn t hx hl =>
    have hfetch : s.fetch = { t.requested true with exhausted := true } := by
      rw [fetch, hl, hn]
    refine ⟨1, .cons ha (by rw [Scanner.events_of_none hn]) (Bool.eq_false_iff.2 hx) ?_⟩
    rw [hfetch]
    exact .zero ⟨rfl, rfl, rfl⟩
  | case6 s scanner hn t hx f hl =>
    have hfetch : s.fetch = t.requested false := by
      rw [fetch, hl, hn]
    refine ⟨1, .cons ha (by rw [Scanner.events_of_none hn]) (Bool.eq_false_iff.2 hx) ?_⟩
    rw [hfetch]
    exact .zero ⟨rfl, rfl, rfl⟩

theorem sameLines_consume (s : TokenStream) : s.SameLines s.consume := by
  unfold consume
  split
  · exact ⟨rfl, rfl, rfl⟩
  · exact ⟨rfl, rfl, rfl⟩

/-- A question asks for the lines that reading asks for, if nothing is kept. -/
theorem ask_fetches (s : TokenStream) (question : Question) :
    ∃ n, s.Fetches n (question.ask s).2 := by
  have hlook : ∃ n, s.Fetches n s.lookahead.rest := by
    rcases ha : s.ahead? with _ | a
    · obtain ⟨n, hn⟩ := read_fetches ha
      rcases hr : s.read with ⟨a, t⟩ | ⟨e, t⟩ <;> rw [hr] at hn
      · rw [lookahead_of_read ha hr]
        exact ⟨n, hn.trans_sameLines ⟨rfl, rfl, rfl⟩⟩
      · rw [lookahead_of_fail ha hr]
        exact ⟨n, hn⟩
    · rw [lookahead_of_some ha]
      exact ⟨0, .zero ⟨rfl, rfl, rfl⟩⟩
  obtain ⟨n, hn⟩ := hlook
  refine ⟨n, ?_⟩
  rw [Question.ask_eq]
  rcases hl : s.lookahead with ⟨a, t⟩ | ⟨e, t⟩ <;> rw [hl] at hn
  · dsimp only
    split
    · exact hn.trans_sameLines t.sameLines_consume
    · exact hn
  · exact hn

/-! ## 5. Streams over texts -/

/-- **A question is about the head of the queue.** A token is shown, and consumed if the
question takes it; an error is raised and gone; and at the end every question sees the end,
which is kept and not counted. -/
theorem ask_of_queue {s : TokenStream} (hs : ∀ x ∈ s.queue, x.IsRegular)
    (question : Question) :
    match s.queue with
    | [] => (question.ask s).1 = question.reply .endOfInput ∧
        (question.ask s).2.ahead? = some .endOfInput ∧
        (question.ask s).2.consumed = s.consumed
    | .ok k :: rest => (question.ask s).1 = question.reply (.token k) ∧
        (question.ask s).2.queue =
          (if question.takes (.token k) then rest else .ok k :: rest) ∧
        (question.ask s).2.consumed =
          s.consumed + if question.takes (.token k) then 1 else 0
    | .error e :: rest => (question.ask s).1 = .error e ∧ (question.ask s).2.queue = rest ∧
        (question.ask s).2.consumed = s.consumed := by
  rw [Question.ask_eq]
  rcases s.lookahead_cases with
    ⟨t, hl, hq, -, ht, hplace⟩ | ⟨k, t, hl, hq, ht, hplace⟩ |
    ⟨e, t, hl, -, hplace, ⟨-, hq⟩ | ⟨he, hq, -⟩⟩ <;>
    rw [hl, hq] <;> dsimp only
  · rw [consume_of_end ht, ite_self]
    exact ⟨rfl, ht, hplace.1⟩
  · obtain ⟨hqueue, -, hconsumed, -⟩ := consume_of_token ht
    refine ⟨rfl, ?_, ?_⟩
    · split
      · exact hqueue
      · exact queue_of_token ht
    · split
      · rw [hconsumed, hplace.1]
      · exact hplace.1
  · exact ⟨rfl, rfl, hplace.1⟩
  · have hregular := hs (.error e) (hq ▸ List.mem_cons_self ..)
    exact absurd (he.symm.trans hregular) Bool.false_ne_true

/-- Where the end is kept, a question changes nothing. -/
theorem ask_of_end {s : TokenStream} (h : s.ahead? = some .endOfInput) (question : Question) :
    question.ask s = (question.reply .endOfInput, s) := by
  rw [Question.ask_eq, lookahead_of_some h]
  dsimp only
  rw [consume_of_end h, ite_self]

/-- **A stream over a text is a queue of what the text gives.** Any questions, in any order,
are answered as the queue answers them, and what it has given and what it has left are the
whole again: the tokens consumed are the first ones of the text, as many as were counted, and
each error was raised once. The next question is about what the queue has left. When that is
nothing, it is about the end, and once the end is kept nothing changes any more. A line is
asked for only while nothing is kept and the line before it holds no more. -/
theorem askAll_ofString (text : String) (questions : List Question) :
    let whole := arrivalsOf text.toList
    let answers := (Question.askAll questions (ofString text)).1
    let s := (Question.askAll questions (ofString text)).2
    let q := (TokenQueue.poseAll questions { coming := whole }).2
    answers = (TokenQueue.poseAll questions { coming := whole }).1 ∧
    s.ahead? = q.kept? ∧ s.queue = q.left ∧ q.gone ++ q.left = whole ∧
    q.gone.filterMap Arrival.token? <+: whole.filterMap Arrival.token? ∧
    s.consumed = (q.gone.filterMap Arrival.token?).length ∧
    answers.filterMap Question.Answer.fault? = q.gone.filterMap Arrival.fault? ∧
    (∀ question : Question,
      match q.left with
      | [] => (question.ask s).1 = question.reply .endOfInput ∧
          (question.ask s).2.ahead? = some .endOfInput ∧
          (question.ask s).2.consumed = s.consumed
      | .ok k :: rest => (question.ask s).1 = question.reply (.token k) ∧
          (question.ask s).2.queue =
            (if question.takes (.token k) then rest else .ok k :: rest) ∧
          (question.ask s).2.consumed =
            s.consumed + if question.takes (.token k) then 1 else 0
      | .error e :: rest => (question.ask s).1 = .error e ∧
          (question.ask s).2.queue = rest ∧ (question.ask s).2.consumed = s.consumed) ∧
    (s.ahead? = some .endOfInput →
      ∀ question : Question, question.ask s = (question.reply .endOfInput, s)) ∧
    ∀ question : Question, ∃ n, s.Fetches n (question.ask s).2 := by
  intro whole answers s q
  obtain ⟨hanswers, hshows⟩ := (shows_ofString text).askAll questions
  have hwhole : q.gone ++ q.left = whole := TokenQueue.poseAll_whole questions _
  have hfaults := TokenQueue.faults_poseAll questions { coming := whole }
  refine ⟨hanswers, hshows.kept_eq, hshows.left_eq, hwhole, ?_, hshows.consumed_eq, ?_, ?_,
    fun h => ask_of_end h, s.ask_fetches⟩
  · rw [← hwhole, List.filterMap_append]
    exact List.prefix_append ..
  · rw [hfaults, ← hanswers]
    rfl
  · have hregular : ∀ x ∈ s.queue, x.IsRegular := by
      rw [hshows.left_eq]
      exact hshows.regular
    intro question
    have hnext := ask_of_queue hregular question
    rw [hshows.left_eq] at hnext
    exact hnext

/-- Behind an illegal character and the one token of its text, a stream keeps the end. -/
theorem askAll_ofString_drained :
    let s := (Question.askAll [.peek, .nextIf "b", .next, .peek] (ofString "$ a")).2
    s.ahead? = some .endOfInput ∧
      (Question.expect "b").ask s = (.error (.expectedText "b" "*EOF*"), s) := by
  intro s
  obtain ⟨-, hkept, -, -, -, -, -, -, hend, -⟩ :=
    askAll_ofString "$ a" [.peek, .nextIf "b", .next, .peek]
  have hs : s.ahead? = some .endOfInput := hkept.trans (by decide +kernel)
  exact ⟨hs, hend hs (.expect "b")⟩

end TokenStream

end FlatQuery
