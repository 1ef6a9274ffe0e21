import FlatQuery.Proofs.Requests
import Mathlib.Data.List.Induction

/-!
# Prompts and statements

The prompt for a line is read off the last token that was consumed. What a reader takes it to
say is more, namely whether a statement is in progress. The two come apart in one place: a
statement that has begun with a fault and has had no token yet is in progress, for the rest of
it will be passed over, and the prompt is still the primary one (`primary_behind_fault`).

Everything else the prompt says is so. Behind a turn with its semicolon no line beyond that
semicolon's has been asked for (`Session.length_requests_of_turn`), so a request behind lines
with nothing after their last semicolon is made at the beginning of a turn
(`Session.exists_turn_of_request`). What is typed from there on runs as it would by itself
(`Session.prompt_of_request`).
-/

set_option autoImplicit false

namespace FlatQuery

/-! ## 1. Where a turn leaves its stream -/

/-- Where there is no statement, the end of the input is what stands next. -/
theorem Statement.lookahead_of_next?_none {c : Catalog} {s t : TokenStream}
    (h : (next? c).run s = .ok none t) : s.lookahead = .ok .endOfInput t := by
  rw [next?, Parser.run_lookahead_bind] at h
  rcases hl : s.lookahead with ⟨k | _, u⟩ | ⟨e, u⟩ <;> rw [hl] at h
  · dsimp only at h
    split at h
    · cases h
    -- A body gives a statement or fails.
    · obtain ⟨_, v, -, h⟩ := Parser.run_bind_ok h
      obtain ⟨st, w, -, h⟩ := Parser.run_bind_ok h
      injection h with h
      cases h
  · injection h with _ hut
    rw [hut]
  · cases h

theorem Statement.ahead_of_next?_none {c : Catalog} {s t : TokenStream}
    (h : (next? c).run s = .ok none t) : t.ahead? = some .endOfInput := by
  have hspec := s.lookahead_spec
  rw [lookahead_of_next?_none h] at hspec
  exact hspec.1

namespace Session

/-- **Where a turn leaves its stream.** A turn that is not the last leaves it behind the
statement, with nothing looked at unless the input ended first; so does the one to leave by.
The end of the input is met in the last turn otherwise. -/
theorem stand_of_turn {s : Session} (hs : ∀ x ∈ s.stream.queue, x.IsRegular) :
    match s.turn with
    | .going t => t.stream.queue = behindFirst s.stream.queue ∧
        (t.stream.ahead? = none ∨ ∀ x ∈ s.stream.queue, x.IsInner)
    | .ended t how =>
        how = .left ∧ t.stream.queue = behindFirst s.stream.queue ∧ t.stream.ahead? = none ∨
        how = .inputEnded ∧ t.stream.ahead? = some .endOfInput ∧
          ∀ x ∈ s.stream.queue, x.IsInner := by
  -- The session beside itself: what its statement is made of, and what is behind it.
  obtain ⟨P, habreast, hbehind, hinner⟩ := exists_abreast_self hs
  rcases Statement.next?_cases s.database.catalog habreast.inside with
    ⟨t, t', hr, -, hafter, -, -⟩ | ⟨st, t, t', hr, -, rest, rest', hafter, -, ht, -⟩ |
    ⟨e, t, t', hr, -, he, part, hpart, hwithin, -⟩
  · have hahead := Statement.ahead_of_next?_none hr
    rw [turn_of_end hr]
    exact .inr ⟨rfl, hahead, hinner hafter⟩
  · have hqueue : t.queue = behindFirst s.stream.queue := by
      rw [ht.queue_eq, ← hbehind, hafter]
      rfl
    rcases hst : st.execute s.database with e | ⟨db, lines⟩
    · obtain ⟨cmd, hlexical, hreads⟩ := reads_of_next? habreast.lexical hr
      have he := Statement.isUnplaced_of_execute hlexical hreads hst
      rw [turn_of_refused hr hst, ← habreast.before,
        recover_behind he.ofStatement (s := s.readTo t) ht.forgetRequests]
      exact ⟨(queue_readTo s t).trans hqueue, .inl ht.ahead⟩
    · rw [turn_of_done hr hst]
      rcases st.continues with _ | _
      · exact .inl ⟨rfl, (queue_readTo s t).trans hqueue, ht.ahead⟩
      · exact ⟨(queue_readTo s t).trans hqueue, .inl ht.ahead⟩
  · have hpart' : ∀ x ∈ part.map (Arrival.delay P.delay), x.IsInner := by
      intro x hx
      obtain ⟨y, hy, rfl⟩ := List.mem_map.1 hx
      exact Arrival.isInner_delay _ (hpart y hy)
    obtain ⟨u, hu, -, -, hqueue, hahead⟩ := recover_within
      ((Error.isStatementError_delay P.delay e).trans he) hpart' (s := s.readTo t)
      hwithin.forgetRequests
    rw [turn_of_fail hr, ← habreast.before, hu]
    refine ⟨hqueue.trans hbehind, ?_⟩
    -- Passing the rest of the statement may have met the end.
    rcases hafter : P.after with _ | rest
    · exact .inr (hinner hafter)
    · rw [hafter] at hahead
      exact .inl (hahead rfl)

/-- **What a turn is made of.** It reads on, perhaps carries a statement out or reports an
error, and perhaps reads on again. What holds after the first of these and is kept by each of
them holds after the turn. -/
theorem turn_induction {P : Session → Prop} {s : Session} (hstart : ∀ t, P (s.readTo t))
    (hread : ∀ u t, P u → P (u.readTo t)) (htell : ∀ u more, P u → P (u.tell more))
    (hcarryOut : ∀ u db lines, P u → P (u.carryOut db lines)) : P s.turn.session := by
  -- A statement reads, and carries out at most one command.
  have hstatement : P s.statement.2 := by
    rw [statement_eq]
    rcases (Statement.next? s.database.catalog).run s.stream with ⟨_ | st, t⟩ | ⟨e, t⟩
    · exact hstart t
    · dsimp only
      rcases st.execute s.database with e | ⟨db, lines⟩
      · exact hstart t
      · exact hcarryOut _ db lines (hstart t)
    · exact hstart t
  -- What comes behind a failure is its report, and perhaps more reading.
  have hrecover : ∀ (u : Session) (before : Nat) (e : Error), P u →
      P (u.recover before e).session := by
    intro u before e hu
    have htold := htell u [.failure e] hu
    unfold recover
    split
    · dsimp only
      split
      · unfold skip parse
        rcases Parser.skip.run (u.tell [.failure e]).stream with ⟨_, t⟩ | ⟨d, t⟩
        · exact hread _ t htold
        · exact hread _ t htold
      · exact htold
    · exact hu
  rw [turn]
  rcases hst : s.statement with ⟨e | a, u⟩ <;> rw [hst] at hstatement
  · exact hrecover u _ e hstatement
  · rcases a with _ | _ | _ <;> exact hstatement

/-- After a turn every request is in the log. -/
theorem asked_of_turn (s : Session) : s.turn.session.stream.asked = [] := by
  apply turn_induction (P := fun u => u.stream.asked = [])
  · exact fun t => rfl
  · exact fun u t _ => rfl
  · exact fun u more hu => hu
  · exact fun u db lines hu => hu

/-- A turn takes nothing back that was shown. -/
theorem log_of_turn (s : Session) : ∃ more, s.turn.session.log = more ++ s.log := by
  apply turn_induction (P := fun u => ∃ more, u.log = more ++ s.log)
  · exact fun t => ⟨t.asked.map .request, rfl⟩
  · rintro u t ⟨more, hmore⟩
    exact ⟨t.asked.map .request ++ more, by rw [readTo, hmore, List.append_assoc]⟩
  · rintro u told ⟨more, hmore⟩
    exact ⟨told.reverse ++ more, by rw [tell, hmore, List.append_assoc]⟩
  · rintro u db lines ⟨more, hmore⟩
    refine ⟨(lines.map .line).reverse ++ more, ?_⟩
    rw [carryOut, tell, hmore, List.append_assoc]

/-! ## 2. The requests of a run -/

/-- The requests for lines that a session has made, in order. -/
def requests (s : Session) : List Request := Transcript.requests s.transcript

/-- Where a turn over a text has led, the requests are those for the first lines of the text,
and for the end if that was met. -/
theorem requests_of_turn {cs : List Char} {s t : Session} (hs : s.Has (TokenStream.IsSteady cs))
    (ht : s.turn.session = t) :
    ∃ k gone kept, t.stream.Steady cs (Transcript.requests t.log) k gone kept ∧
      t.requests = requestsFor cs k t.stream.exhausted := by
  obtain ⟨k, gone, kept, hsteady⟩ := ht ▸ hs.turn (TokenStream.invariant_isSteady cs)
  refine ⟨k, gone, kept, hsteady, ?_⟩
  have hrequests := hsteady.along.requests_eq
  have hasked : t.stream.asked = [] := ht ▸ asked_of_turn s
  rw [hasked, List.nil_append, ← Transcript.requests_reverse] at hrequests
  exact hrequests

theorem has_start (db : Database) (text : String) :
    (start (.ofString text) db).Has (TokenStream.IsSteady text.toList) :=
  TokenStream.isSteady_ofString text

/-- A run takes turns up to one that is its last. -/
theorem exists_last_turn (s : Session) :
    ∃ n t u how, s.afterTurns n = some t ∧ t.turn = .ended u how ∧ s.run = (u, how) := by
  induction hm : s.stream.remaining using Nat.strongRecOn generalizing s with
  | _ m ih =>
    rcases hturn : s.turn with ⟨u, how⟩ | t
    · exact ⟨0, s, u, how, rfl, hturn, run_of_ended hturn⟩
    · obtain ⟨n, v, u, how, hv, hu, hrun⟩ := ih _ (hm ▸ turn_going hturn) t rfl
      refine ⟨n + 1, v, u, how, ?_, hu, (run_of_going hturn).trans hrun⟩
      rw [afterTurns, hturn]
      exact hv

/-- The requests of a run over a text are those for its first lines, and for the end exactly
if that is what the run ended with. -/
theorem requests_of_run (db : Database) (text : String) :
    ∃ k ≤ (Text.lines text.toList).length,
      (((runText db text).2 = .left ∧
          (runText db text).1.requests = requestsFor text.toList k false) ∨
        ((runText db text).2 = .inputEnded ∧ k = (Text.lines text.toList).length ∧
          (runText db text).1.requests = requestsFor text.toList k true)) := by
  obtain ⟨n, t, u, how, ht, hu, hrun⟩ := exists_last_turn (start (.ofString text) db)
  obtain ⟨-, hregular⟩ := queue_of_afterTurns (isRegular_start db text) ht
  have hhas := (has_start db text).afterTurns (TokenStream.invariant_isSteady _) ht
  obtain ⟨k, gone, kept, hsteady, hrequests⟩ :=
    requests_of_turn hhas (show t.turn.session = u by rw [hu]; rfl)
  have hstand := stand_of_turn hregular
  rw [hu] at hstand
  rw [runText, hrun]
  refine ⟨k, hsteady.along.count_le, ?_⟩
  rcases hstand with ⟨rfl, -, hahead⟩ | ⟨rfl, hahead, -⟩
  · have hx : u.stream.exhausted = false := hsteady.exhausted_eq (by simp [hahead])
    rw [hx] at hrequests
    exact .inl ⟨rfl, hrequests⟩
  · have hx : u.stream.exhausted = true := hsteady.at_end.2 hahead
    rw [hx] at hrequests
    exact .inr ⟨rfl, hsteady.along.at_end hx, hrequests⟩

end Session

/-! ## 3. The semicolons of a text -/

/-- Whether an event is a semicolon. -/
def Event.endsStatement (e : Event) : Bool :=
  match e.found with
  | .token k => k.text = ";"
  | .fault _ => false

theorem behindFirst_cons_of_ends {e : Event} (h : e.endsStatement = true) (q : List Arrival) :
    behindFirst (e.arrival :: q) = q := by
  unfold Event.endsStatement at h
  unfold Event.arrival
  rcases hf : e.found with k | f <;> rw [hf] at h
  · rw [behindFirst, if_pos (of_decide_eq_true h)]
  · exact Bool.noConfusion h

theorem behindFirst_cons_of_not {e : Event} (h : e.endsStatement = false) (q : List Arrival) :
    behindFirst (e.arrival :: q) = behindFirst q := by
  unfold Event.endsStatement at h
  unfold Event.arrival
  rcases hf : e.found with k | f <;> rw [hf] at h
  · rw [behindFirst, if_neg (of_decide_eq_false h)]
  · rfl

theorem not_isInner_of_ends {e : Event} (h : e.endsStatement = true) : ¬e.arrival.IsInner := by
  unfold Event.endsStatement at h
  unfold Event.arrival
  rcases hf : e.found with k | f <;> rw [hf] at h
  · exact fun hinner => hinner (of_decide_eq_true h)
  · exact Bool.noConfusion h

/-- So many statements reach to the semicolon of that number, and the one before it does not. -/
theorem exists_semicolon {es : List Event} {n : Nat} {e : Event}
    (h : (es.filter Event.endsStatement)[n]? = some e) :
    ∃ before after, es = before ++ e :: after ∧
      behindFirst^[n + 1] (es.map Event.arrival) = after.map Event.arrival ∧
      e.arrival ∈ behindFirst^[n] (es.map Event.arrival) := by
  induction es generalizing n with
  | nil => simp at h
  | cons d es ih =>
    by_cases hd : d.endsStatement = true
    · rw [List.filter_cons_of_pos hd] at h
      rcases n with _ | n
      · rw [List.getElem?_cons_zero, Option.some.injEq] at h
        subst h
        -- The semicolon asked for is behind this one.
        exact ⟨[], es, rfl, behindFirst_cons_of_ends hd _, List.mem_cons_self ..⟩
      · rw [List.getElem?_cons_succ] at h
        obtain ⟨before, after, rfl, hbehind, hmem⟩ := ih h
        refine ⟨d :: before, after, rfl, ?_, ?_⟩
        · rw [List.map_cons, Function.iterate_succ_apply, behindFirst_cons_of_ends hd, hbehind]
        · rw [List.map_cons, Function.iterate_succ_apply, behindFirst_cons_of_ends hd]
          exact hmem
    -- What is no semicolon is passed.
    · rw [List.filter_cons_of_neg hd] at h
      rw [Bool.not_eq_true] at hd
      obtain ⟨before, after, rfl, hbehind, hmem⟩ := ih h
      refine ⟨d :: before, after, rfl, ?_, ?_⟩
      · rw [List.map_cons, Function.iterate_succ_apply, behindFirst_cons_of_not hd,
          ← Function.iterate_succ_apply, hbehind]
      · rcases n with _ | n
        · exact List.mem_cons_of_mem _ hmem
        · rw [List.map_cons, Function.iterate_succ_apply, behindFirst_cons_of_not hd,
            ← Function.iterate_succ_apply]
          exact hmem

/-- What is found in the first lines of a text is on these lines. -/
theorem Text.line_le_of_mem_events (cs : List Char) (i : Nat) :
    ∀ e ∈ (Scanner.feed {} ((lines cs).take i).flatten).events.1, e.line ≤ i := by
  induction i with
  | zero =>
    intro e he
    rw [List.take_zero, List.flatten_nil, Scanner.events_of_none (Scanner.next_of_nil rfl)] at he
    exact absurd he List.not_mem_nil
  | succ i ih =>
    rcases Nat.lt_or_ge i (lines cs).length with hi | hi
    · rw [flatten_take_succ hi, Scanner.events_feed_append _ (endsLine_take hi)]
      intro e he
      rcases List.mem_append.1 he with he | he
      · exact Nat.le_succ_of_le (ih e he)
      · obtain ⟨d, hd, rfl⟩ := List.mem_map.1 he
        exact (Scanner.line_of_mem_events_line hi (Scanner.line_behind_lines hi) d hd).le
    · intro e he
      rw [List.take_of_length_le (Nat.le_succ_of_le hi)] at he
      rw [List.take_of_length_le hi] at ih
      exact Nat.le_succ_of_le (ih e he)

/-- What is found in the first lines of a text comes first in the text. -/
theorem Text.isPrefix_events_take (cs : List Char) (i : Nat) :
    (Scanner.feed {} ((lines cs).take i).flatten).events.1 <+: (Scanner.feed {} cs).events.1 := by
  rcases Nat.lt_or_ge i (lines cs).length with hi | hi
  · have happend := Scanner.events_feed_append {} (endsLine_take hi) ((lines cs).drop i).flatten
    rw [← List.flatten_append, List.take_append_drop, flatten_lines] at happend
    rw [happend]
    exact List.prefix_append ..
  · have hall : ((lines cs).take i).flatten = cs := by
      rw [List.take_of_length_le hi, flatten_lines]
    exact ⟨[], by rw [hall, List.append_nil]⟩

/-- Events that are come upon along a text are the first ones of the text. -/
theorem TokenStream.Along.isPrefix {cs : List Char} {past : List Request} {s : TokenStream}
    {k : Nat} {taken : List Event} (h : s.Along cs past k taken) :
    taken <+: (Scanner.feed {} cs).events.1 := by
  obtain ⟨n, hevents⟩ := h.events_eq
  have hprefix := Text.isPrefix_events_take cs k
  rw [hevents] at hprefix
  exact (List.prefix_append ..).trans hprefix

namespace Session

/-- A turn that has a semicolon before it, and is not the one that meets the end of the input,
leaves the stream behind the semicolon with nothing looked at. -/
theorem behind_of_turn {s t : Session} (hs : ∀ x ∈ s.stream.queue, x.IsRegular)
    (ht : s.turn = .going t ∨ s.turn = .ended t .left)
    (hsemicolon : ∃ x ∈ s.stream.queue, ¬x.IsInner) :
    t.stream.queue = behindFirst s.stream.queue ∧ t.stream.ahead? = none := by
  obtain ⟨x, hx, hsemicolon⟩ := hsemicolon
  have hstand := stand_of_turn hs
  rcases ht with ht | ht <;> rw [ht] at hstand
  · obtain ⟨hqueue, hahead⟩ := hstand
    exact ⟨hqueue, hahead.resolve_right fun hinner => hsemicolon (hinner x hx)⟩
  · rcases hstand with ⟨-, hstand⟩ | ⟨hhow, -⟩
    · exact hstand
    · cases hhow

/-- **A statement is finished before the line behind its semicolon is asked for.** After a
turn that has consumed a semicolon, as many lines have been asked for as it takes to get to
that semicolon. -/
theorem length_requests_of_turn {db : Database} {text : String} {n : Nat} {s t : Session}
    (hs : (start (.ofString text) db).afterTurns n = some s)
    (ht : s.turn = .going t ∨ s.turn = .ended t .left) {e : Event}
    (he : ((Scanner.feed {} text.toList).events.1.filter Event.endsStatement)[n]? = some e) :
    t.requests.length = e.line ∧ t.stream.exhausted = false := by
  obtain ⟨hqueue, hregular⟩ := queue_of_afterTurns (isRegular_start db text) hs
  rw [queue_start, arrivalsOf] at hqueue
  obtain ⟨before, after, hevents, hbehind, hmem⟩ := exists_semicolon he
  rw [← hqueue] at hmem
  have hinner := not_isInner_of_ends (List.mem_filter.1 (List.mem_of_getElem? he)).2
  obtain ⟨hqt, hahead⟩ := behind_of_turn hregular ht ⟨_, hmem, hinner⟩
  have hhas := (has_start db text).afterTurns (TokenStream.invariant_isSteady _) hs
  obtain ⟨k, gone, kept, hsteady, hrequests⟩ :=
    requests_of_turn hhas (show s.turn.session = t by rcases ht with ht | ht <;> rw [ht] <;> rfl)
  have hx : t.stream.exhausted = false := hsteady.exhausted_eq (by simp [hahead])
  have hkept : kept = [] := by
    have hnil := hsteady.kept_eq
    rw [hahead] at hnil
    exact List.map_eq_nil_iff.1 hnil
  -- What is behind the stream and what is before it are the text, so the semicolon is the last
  -- event behind it.
  have hgone : gone = before ++ [e] := by
    have hprefix := hsteady.along.isPrefix
    have hwhole := congrArg List.length hsteady.whole_eq
    rw [hqt, hqueue, ← Function.iterate_succ_apply' behindFirst, hbehind, arrivalsOf, hevents]
      at hwhole
    rw [hkept, List.append_nil, hevents, List.append_cons] at hprefix
    refine (List.prefix_of_prefix_length_le hprefix (List.prefix_append ..) ?_).eq_of_length ?_
    all_goals
      simp only [List.length_append, List.length_map, List.length_cons, List.length_nil]
        at hwhole ⊢
      omega
  have hk := hsteady.line_eq hx
  rw [hkept, List.append_nil, hgone, lastLine_concat] at hk
  refine ⟨?_, hx⟩
  rw [hrequests, hx, ← hk, requestsFor]
  simp

end Session

/-! ## 4. Prompts -/

/-- The events of the statement that is in progress behind some events: those behind the last
semicolon. -/
def unfinished (es : List Event) : List Event :=
  (es.reverse.takeWhile fun e => !e.endsStatement).reverse

theorem unfinished_concat (es : List Event) (e : Event) :
    unfinished (es ++ [e]) = if e.endsStatement then [] else unfinished es ++ [e] := by
  rw [unfinished, List.reverse_append, List.reverse_singleton, List.singleton_append,
    List.takeWhile_cons]
  rcases e.endsStatement with _ | _
  · rw [Bool.not_false, if_pos rfl, List.reverse_cons]
    rfl
  · rfl

/-- A statement is taken for open when there is a token in it. -/
theorem leavesOpen_eq_false_iff (es : List Event) :
    leavesOpen es = false ↔ ∀ e ∈ unfinished es, e.token? = none := by
  induction es using List.reverseRecOn with
  | nil => exact iff_of_true rfl fun e he => absurd he List.not_mem_nil
  | append_singleton es e ih =>
    rw [unfinished_concat]
    -- A token leaves the statement open unless it is its semicolon.
    rcases hf : e.found with k | f
    · have htoken : e.token? = some k := by rw [Event.token?, hf]
      have hends : e.endsStatement = decide (k.text = ";") := by rw [Event.endsStatement, hf]
      rw [leavesOpen_token hf, hends]
      by_cases hk : k.text = ";"
      · rw [decide_eq_true hk, if_pos rfl]
        exact iff_of_true (decide_eq_false (not_not_intro hk)) fun e he =>
          absurd he List.not_mem_nil
      · rw [decide_eq_false hk, if_neg Bool.false_ne_true]
        refine iff_of_false (fun h => ?_) fun h => ?_
        · rw [decide_eq_true hk] at h
          exact Bool.noConfusion h
        · have hnone := h e (List.mem_append_right _ (List.mem_singleton_self e))
          rw [htoken] at hnone
          cases hnone
    -- A fault leaves open what was open.
    · have htoken : e.token? = none := by rw [Event.token?, hf]
      have hends : e.endsStatement = false := by rw [Event.endsStatement, hf]
      rw [leavesOpen_fault hf, hends, if_neg Bool.false_ne_true, ih, List.forall_mem_append,
        List.forall_mem_singleton]
      exact ⟨fun h => ⟨h, htoken⟩, And.left⟩

theorem promptBehind_eq_primary_iff (given : List Char) :
    promptBehind given = .primary ↔
      (Scanner.feed {} given).events.2.inComment = false ∧
        ∀ e ∈ unfinished (Scanner.feed {} given).events.1, e.token? = none := by
  rw [← leavesOpen_eq_false_iff, promptBehind]
  rcases leavesOpen (Scanner.feed {} given).events.1 with _ | _ <;>
    rcases (Scanner.feed {} given).events.2.inComment with _ | _ <;> simp

/-- The request of a number is made behind as many lines. -/
theorem getElem?_requestsFor {cs : List Char} {k : Nat} {exhausted : Bool}
    (hk : k ≤ (Text.lines cs).length) (hend : exhausted = true → k = (Text.lines cs).length)
    {i : Nat} {r : Request} (h : (requestsFor cs k exhausted)[i]? = some r) :
    r.prompt = promptBehind ((Text.lines cs).take i).flatten ∧
      (r.metEnd = true ↔ i = (Text.lines cs).length) := by
  have hlength : ((List.range k).map fun i =>
      (⟨promptBehind ((Text.lines cs).take i).flatten, false⟩ : Request)).length = k := by
    rw [List.length_map, List.length_range]
  rw [requestsFor] at h
  rcases Nat.lt_or_ge i k with hi | hi
  · rw [List.getElem?_append_left (by omega), List.getElem?_map, List.getElem?_range hi] at h
    injection h with h
    rw [← h]
    exact ⟨rfl, iff_of_false Bool.false_ne_true (by omega)⟩
  · rw [List.getElem?_append_right (by omega), hlength] at h
    rcases exhausted with _ | _
    · simp at h
    · obtain rfl := hend rfl
      rw [if_pos rfl, List.getElem?_singleton] at h
      split at h
      · injection h with h
        have hi' : i = (Text.lines cs).length := by omega
        rw [← h, hi', List.take_length, Text.flatten_lines]
        exact ⟨rfl, iff_of_true rfl rfl⟩
      · cases h

namespace Session

theorem requestsFor_of_run (db : Database) (text : String) :
    ∃ k exhausted, k ≤ (Text.lines text.toList).length ∧
      (exhausted = true → k = (Text.lines text.toList).length) ∧
      (runText db text).1.requests = requestsFor text.toList k exhausted := by
  obtain ⟨k, hk, ⟨-, hrequests⟩ | ⟨-, hall, hrequests⟩⟩ := requests_of_run db text
  · exact ⟨k, false, hk, fun h => Bool.noConfusion h, hrequests⟩
  · exact ⟨k, true, hk, fun _ => hall, hrequests⟩

end Session

/-! ## 5. Where nothing is in progress -/

/-- Where the last of some events is a semicolon, so many statements as there are semicolons
reach to their end. -/
theorem iterate_behindFirst {es : List Event} (h : ∀ e ∈ es.getLast?, e.endsStatement = true)
    (q : List Arrival) :
    behindFirst^[(es.filter Event.endsStatement).length] (es.map Event.arrival ++ q) = q := by
  induction es with
  | nil => rfl
  | cons d es ih =>
    rcases es with _ | ⟨e, es⟩
    · have hd : d.endsStatement = true := h d rfl
      rw [List.filter_cons_of_pos hd]
      exact behindFirst_cons_of_ends hd q
    · have hrest := ih h
      by_cases hd : d.endsStatement = true
      · rw [List.filter_cons_of_pos hd, List.length_cons, Function.iterate_succ_apply,
          List.map_cons, List.cons_append, behindFirst_cons_of_ends hd]
        exact hrest
      · rw [List.filter_cons_of_neg hd, List.map_cons, List.cons_append]
        rw [Bool.not_eq_true] at hd
        -- There is a semicolon further on, so at least one statement is passed.
        have hlast := List.getLast?_eq_some_getLast (List.cons_ne_nil e es)
        generalize (e :: es).getLast (List.cons_ne_nil e es) = last at hlast
        have hmem : last ∈ (e :: es).filter Event.endsStatement :=
          List.mem_filter.2 ⟨List.mem_of_getLast? hlast, h last hlast⟩
        obtain ⟨n, hn⟩ := Nat.exists_eq_succ_of_ne_zero
          (List.length_pos_of_mem hmem).ne'
        rw [hn, Nat.succ_eq_add_one, Function.iterate_succ_apply] at hrest ⊢
        rw [behindFirst_cons_of_not hd]
        exact hrest

theorem endsStatement_of_unfinished {es : List Event} (h : unfinished es = []) :
    ∀ e ∈ es.getLast?, e.endsStatement = true := by
  intro e he
  obtain ⟨before, rfl⟩ := List.getLast?_eq_some_iff.1 he
  rw [unfinished_concat] at h
  by_contra hne
  rw [if_neg hne] at h
  simp at h

/-- A semicolon in the first lines of a text is the one of that number in the text. -/
theorem Text.semicolon_of_lines {cs : List Char} {i n : Nat} {e : Event}
    (h : ((Scanner.feed {} ((lines cs).take i).flatten).events.1.filter
      Event.endsStatement)[n]? = some e) :
    ((Scanner.feed {} cs).events.1.filter Event.endsStatement)[n]? = some e ∧ e.line ≤ i := by
  obtain ⟨more, hmore⟩ := (isPrefix_events_take cs i).filter Event.endsStatement
  have hmem := List.mem_of_mem_filter (List.mem_of_getElem? h)
  rw [← hmore, List.getElem?_append_left (List.getElem?_eq_some_iff.1 h).1]
  exact ⟨h, line_le_of_mem_events cs i e hmem⟩

/-- A text whose first lines leave no comment open gives what these give and, that many lines
further on, what the others give. -/
theorem Text.arrivalsOf_lines {cs : List Char} {i : Nat}
    (hcomment : (Scanner.feed {} ((lines cs).take i).flatten).events.2.inComment = false) :
    arrivalsOf cs = arrivalsOf ((lines cs).take i).flatten ++
      (arrivalsOf ((lines cs).drop i).flatten).map (Arrival.delay i) := by
  rcases Nat.lt_or_ge i (lines cs).length with hi | hi
  · have happend := arrivalsOf_append ((lines cs).drop i).flatten (endsLine_take hi) hcomment
    rw [count_take hi, ← List.flatten_append, List.take_append_drop, flatten_lines] at happend
    exact happend
  · have hnil : arrivalsOf [] = [] := by
      rw [arrivalsOf, Scanner.events_of_none (Scanner.next_of_nil rfl)]
      rfl
    rw [List.take_of_length_le hi, List.drop_of_length_le hi, flatten_lines, List.flatten_nil,
      hnil, List.map_nil, List.append_nil]

namespace Session

theorem afterTurns_succ {n : Nat} {s t : Session} (h : s.afterTurns (n + 1) = some t) :
    ∃ u, s.afterTurns n = some u ∧ u.turn = .going t := by
  induction n generalizing s with
  | zero =>
    rw [afterTurns] at h
    rcases hturn : s.turn with ⟨u, how⟩ | u <;> rw [hturn] at h
    · cases h
    · injection h with h
      exact ⟨s, rfl, by rw [← h]; exact hturn⟩
  | succ n ih =>
    rw [afterTurns] at h
    rcases hturn : s.turn with ⟨u, how⟩ | u <;> rw [hturn] at h
    · cases h
    · obtain ⟨v, hv, hvt⟩ := ih h
      refine ⟨v, ?_, hvt⟩
      rw [afterTurns, hturn]
      exact hv

/-- What gets through so many turns gets through fewer. -/
theorem exists_afterTurns_of_le {n m : Nat} {s t : Session} (h : s.afterTurns m = some t)
    (hnm : n ≤ m) : ∃ u, s.afterTurns n = some u := by
  induction m generalizing t with
  | zero =>
    obtain rfl : n = 0 := Nat.le_zero.1 hnm
    exact ⟨s, rfl⟩
  | succ m ih =>
    rcases Nat.lt_or_ge m n with hmn | hmn
    · obtain rfl : n = m + 1 := by omega
      exact ⟨t, h⟩
    · obtain ⟨u, hu, -⟩ := afterTurns_succ h
      exact ih hu hmn

section Request

variable {db : Database} {text : String} {i : Nat}
  (hi : i < (runText db text).1.requests.length)
include hi

/-- A semicolon in the lines before a request is not one to leave behind. -/
theorem length_le_of_last_turn {n : Nat} {s u : Session} {how : Ending}
    (hs : (start (.ofString text) db).afterTurns n = some s) (hu : s.turn = .ended u how)
    (hrun : runText db text = (u, how)) :
    ((Scanner.feed {} ((Text.lines text.toList).take i).flatten).events.1.filter
      Event.endsStatement).length ≤ n := by
  by_contra hlt
  rw [not_le] at hlt
  obtain ⟨hwhole, hline⟩ := Text.semicolon_of_lines (List.getElem?_eq_getElem hlt)
  obtain ⟨hqueue, hregular⟩ := queue_of_afterTurns (isRegular_start db text) hs
  have hstand := stand_of_turn hregular
  rw [hu] at hstand
  rcases hstand with ⟨rfl, -⟩ | ⟨-, -, hinner⟩
  · obtain ⟨hlength, -⟩ := length_requests_of_turn hs (.inr hu) hwhole
    rw [hrun] at hi
    change i < u.requests.length at hi
    omega
  · obtain ⟨-, -, -, -, hbefore⟩ := exists_semicolon hwhole
    rw [queue_start, arrivalsOf] at hqueue
    rw [← hqueue] at hbefore
    exact not_isInner_of_ends (List.mem_filter.1 (List.mem_of_getElem? hwhole)).2
      (hinner _ hbefore)

/-- **Where nothing is in progress, a statement begins.** A request behind lines that leave
no event behind their last semicolon and no comment open is made at the beginning of a turn,
and before that turn is what the lines from there on have to give. -/
theorem exists_turn_of_request
    (hcomment : (Scanner.feed {} ((Text.lines text.toList).take i).flatten).events.2.inComment =
      false)
    (hdone : unfinished (Scanner.feed {} ((Text.lines text.toList).take i).flatten).events.1 =
      []) :
    ∃ n t, (start (.ofString text) db).afterTurns n = some t ∧ t.requests.length ≤ i ∧
      t.stream.queue = (arrivalsOf ((Text.lines text.toList).drop i).flatten).map
        (Arrival.delay i) := by
  obtain ⟨m, s, u, how, hs, hu, hrun⟩ := exists_last_turn (start (.ofString text) db)
  obtain ⟨t, ht⟩ := exists_afterTurns_of_le hs (length_le_of_last_turn hi hs hu hrun)
  refine ⟨_, t, ht, ?_, ?_⟩
  · rcases hn : ((Scanner.feed {} ((Text.lines text.toList).take i).flatten).events.1.filter
        Event.endsStatement).length with _ | n
    · rw [hn] at ht
      injection ht with ht
      rw [← ht]
      exact Nat.zero_le i
    · rw [hn] at ht
      obtain ⟨v, hv, hvt⟩ := afterTurns_succ ht
      obtain ⟨hwhole, hline⟩ :=
        Text.semicolon_of_lines (List.getElem?_eq_getElem (by
          rw [hn]
          exact Nat.lt_succ_self n))
      obtain ⟨hlength, -⟩ := length_requests_of_turn hv (.inl hvt) hwhole
      omega
  · rw [(queue_of_afterTurns (isRegular_start db text) ht).1, queue_start,
      Text.arrivalsOf_lines hcomment]
    exact iterate_behindFirst (endsStatement_of_unfinished hdone) _

end Request

/-- What so many turns lead to is where the run goes on from. -/
theorem run_of_afterTurns {n : Nat} {s t : Session} (h : s.afterTurns n = some t) :
    s.run = t.run := by
  induction n generalizing s with
  | zero =>
    injection h with h
    rw [h]
  | succ n ih =>
    rw [afterTurns] at h
    rcases hturn : s.turn with ⟨u, how⟩ | u <;> rw [hturn] at h
    · cases h
    · rw [run_of_going hturn]
      exact ih h

/-! ## 6. What the prompts of a run say -/

/-- **What the prompt of a request says.** The prompt for the line of a number is `> ` exactly
when the lines before it leave no comment open and no token behind their last semicolon, and
only the request behind the last line meets the end. Where the lines before leave nothing at
all behind their last semicolon, a token or a fault, a statement begins with the line. What is
typed from there on is then run as a text of its own, on what the turns before have made of
the database. -/
theorem prompt_of_request {db : Database} {text : String} {i : Nat} {r : Request}
    (h : (runText db text).1.requests[i]? = some r) :
    let lines := Text.lines text.toList
    let scan := (Scanner.feed {} (lines.take i).flatten).events
    let rest := String.ofList (lines.drop i).flatten
    (r.prompt = .primary ↔
      scan.2.inComment = false ∧ ∀ e ∈ unfinished scan.1, e.token? = none) ∧
    (r.metEnd = true ↔ i = lines.length) ∧
    (scan.2.inComment = false → unfinished scan.1 = [] →
      ∃ n t, (start (.ofString text) db).afterTurns n = some t ∧ t.requests.length ≤ i ∧
        (runText db text).2 = (runText t.database rest).2 ∧
        (runText db text).1.database = (runText t.database rest).1.database ∧
        (runText db text).1.printed =
          t.printed ++ (runText t.database rest).1.printed.map (Shown.delay i)) := by
  intro lines scan rest
  obtain ⟨k, exhausted, hk, hend, hrequests⟩ := requestsFor_of_run db text
  have hbehind := h
  rw [hrequests] at hbehind
  obtain ⟨hprompt, hmet⟩ := getElem?_requestsFor hk hend hbehind
  refine ⟨?_, hmet, fun hcomment hdone => ?_⟩
  · rw [hprompt]
    exact promptBehind_eq_primary_iff _
  · have hi := (List.getElem?_eq_some_iff.1 h).1
    obtain ⟨n, t, ht, hasked, hqueue⟩ := exists_turn_of_request hi hcomment hdone
    -- From there on the text is run as if it stood alone, with its lines counted from the request.
    have hstart : t.stream.queue =
        (start (.ofString rest) t.database).stream.queue.map (Arrival.delay i) := by
      rw [hqueue, queue_start, String.toList_ofList]
    have hdatabase : t.database = (start (.ofString rest) t.database).database := rfl
    obtain ⟨hending, hagree⟩ := run_of_delay hdatabase (isRegular_start _ rest) hstart
    obtain ⟨more, hprinted, hprinted'⟩ := hagree.printed
    have halone : (runText t.database rest).1.printed = more := hprinted'
    have hrun : runText db text = t.run := run_of_afterTurns ht
    refine ⟨n, t, ht, hasked, ?_, ?_, ?_⟩
    · rw [hrun]
      exact hending
    · rw [hrun]
      exact hagree.database
    · rw [hrun, halone]
      exact hprinted

section Unterminated

/-- A line that is a fault and nothing else, and a statement in the next line. -/
def faultThenPrint : String := "'abc\nprint x;\n"

theorem run_faultThenPrint :
    (runText (.fresh .root .empty) faultThenPrint).1.requests =
      [⟨.primary, false⟩, ⟨.primary, false⟩, ⟨.primary, true⟩] ∧
    (runText (.fresh .root .empty) faultThenPrint).1.printed =
      [.failure (.lexical (.unterminatedLiteral "'abc"))] := by
  have hq : arrivalsOf faultThenPrint.toList =
      [.error (.lexical (.unterminatedLiteral "'abc")), .ok ⟨.identifier, "print"⟩,
        .ok ⟨.identifier, "x"⟩, .ok .terminator] := by
    decide +kernel
  have hqs := (queue_start (.fresh .root .empty) faultThenPrint).trans hq
  obtain ⟨u, hu⟩ := statement_of_error hqs rfl
  obtain ⟨hended, -, hprinted⟩ := run_of_failure (isRegular_start _ _) hu (by rw [hqs]; rfl)
  refine ⟨?_, hprinted⟩
  obtain ⟨k, -, ⟨hleft, -⟩ | ⟨-, hall, hrequests⟩⟩ :=
    requests_of_run (.fresh .root .empty) faultThenPrint
  · rw [runText, hended] at hleft
    cases hleft
  · rw [hrequests, hall]
    decide +kernel

/-- The second line is asked for behind a fault. -/
theorem prompt_of_request_fault :
    (runText (.fresh .root .empty) faultThenPrint).1.requests[1]? =
      some ⟨.primary, false⟩ ∧
    ∀ e ∈ unfinished (Scanner.feed {}
      ((Text.lines faultThenPrint.toList).take 1).flatten).events.1, e.token? = none := by
  have h : (runText (.fresh .root .empty) faultThenPrint).1.requests[1]? =
      some ⟨.primary, false⟩ := by
    rw [run_faultThenPrint.1]
    rfl
  exact ⟨h, ((prompt_of_request h).1.1 rfl).2⟩

/-- **A fault alone leaves the primary prompt.** Behind it a statement is in progress, and yet
the prompt is `> `. The statement that is typed there is passed over with the rest of the
faulty one: nothing is said of it. -/
theorem primary_behind_fault :
    (runText (.fresh .root .empty) faultThenPrint).1.requests[1]? =
      some ⟨.primary, false⟩ ∧
    unfinished (Scanner.feed {}
      ((Text.lines faultThenPrint.toList).take 1).flatten).events.1 ≠ [] ∧
    (runText (.fresh .root .empty) faultThenPrint).1.printed =
      [.failure (.lexical (.unterminatedLiteral "'abc"))] := by
  refine ⟨?_, by decide +kernel, run_faultThenPrint.2⟩
  rw [run_faultThenPrint.1]
  rfl

end Unterminated

end Session

end FlatQuery
