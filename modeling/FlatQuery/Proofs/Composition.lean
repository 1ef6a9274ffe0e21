import FlatQuery.Proofs.Recovery

/-!
# One text after another

A text can be cut in two wherever a line ends behind a semicolon and outside a comment. To
run the whole is to run the first part and then, unless that ended by a statement to leave,
the second part on the database that the first one left (`Session.runText_append`). What is
printed is put together in the same way. Only a message about an illegal character is not
the same, since the lines before it are counted.

The two runs of the first part, alone and with the second behind it, go abreast turn by turn
(`Session.run_of_append`). So do the two runs of the second part, the one further down and
the one of its own (`Session.run_of_delay`).
-/

set_option autoImplicit false

namespace FlatQuery

/-! ## 1. Queues -/

theorem map_delay_closing (k : Nat) (after : Option (List Arrival)) :
    (closing after).map (Arrival.delay k) = closing (after.map (List.map (Arrival.delay k))) := by
  rcases after with _ | rest
  · rfl
  · rfl

/-- What comes behind a statement is as regular as what came before. -/
theorem isRegular_after {part q : List Arrival} {after : Option (List Arrival)}
    (h : ∀ x ∈ part ++ closing after, x.IsRegular) (hq : q = after.getD []) :
    ∀ x ∈ q, x.IsRegular := by
  intro x hx
  rw [hq] at hx
  rcases after with _ | rest
  · exact absurd hx List.not_mem_nil
  · exact h x (List.mem_append_right _ (List.mem_cons_of_mem _ hx))

/-- Where the last arrival is a semicolon, the first statement is ended by one. -/
theorem eq_nil_of_last {part : List Arrival} (hpart : ∀ x ∈ part, x.IsInner)
    (hlast : ∀ x ∈ part.getLast?, x = .ok .terminator) : part = [] := by
  rcases hx : part.getLast? with _ | x
  · exact List.getLast?_eq_none_iff.1 hx
  · have hinner := hpart x (List.mem_of_getLast? hx)
    rw [hlast x hx] at hinner
    exact absurd rfl hinner

/-! ## 2. Two runs abreast -/

namespace Session

theorem run_of_ended {s t : Session} {how : Ending} (h : s.turn = .ended t how) :
    s.run = (t, how) := by
  unfold run
  split <;> rename_i ht <;> rw [h] at ht
  · injection ht with ht hhow
    rw [ht, hhow]
  · simp at ht

theorem run_of_going {s t : Session} (h : s.turn = .going t) : s.run = t.run := by
  rw [run]
  split <;> rename_i ht <;> rw [h] at ht
  · simp at ht
  · injection ht with ht
    rw [ht]

/-- **Further down a text runs as it does by itself.** -/
theorem run_of_delay {k : Nat} {s s' : Session} (hdatabase : s.database = s'.database)
    (hs' : ∀ x ∈ s'.stream.queue, x.IsRegular)
    (hq : s.stream.queue = s'.stream.queue.map (Arrival.delay k)) :
    s.run.2 = s'.run.2 ∧ Agree k s s' s.run.1 s'.run.1 := by
  -- By the turns of the first run. Behind a turn the queues stand to each other as before.
  induction hm : s.stream.remaining using Nat.strongRecOn generalizing s s' with
  | _ m ih =>
    obtain ⟨part, after, hpart, hq'⟩ := exists_part hs'
    have hqs : s.stream.queue = part.map (Arrival.delay k) ++
        closing (after.map (List.map (Arrival.delay k))) := by
      rw [hq, hq', List.map_append, map_delay_closing]
    have habreast := exists_abreast hdatabase hpart Option.isSome_map hqs hq'
      fun d hd => hs' (.ok d) hd
    rcases (turn_agree habreast).cases with
      ⟨t, t', how, ht, ht', hstep, -⟩ | ⟨t, t', ht, ht', hstep, hqt, hqt'⟩
    · rw [run_of_ended ht, run_of_ended ht']
      exact ⟨rfl, hstep⟩
    · have hrest : t.stream.queue = t'.stream.queue.map (Arrival.delay k) := by
        rw [hqt, hqt']
        rcases after with _ | rest
        · rfl
        · rfl
      have hregular := isRegular_after (hq' ▸ hs') hqt'
      obtain ⟨hending, hrun⟩ := ih _ (hm ▸ turn_going ht) hstep.database hregular hrest rfl
      rw [run_of_going ht, run_of_going ht']
      exact ⟨hending, hstep.trans hrun⟩

/-- At the end of the queue there is no statement. -/
theorem next?_of_nil {s : Session} (h : s.stream.queue = []) :
    ∃ u, (Statement.next? s.database.catalog).run s.stream = .ok none u := by
  obtain ⟨u, hl, -⟩ := TokenStream.lookahead_of_nil h
  refine ⟨u, ?_⟩
  rw [Statement.next?, Parser.run_lookahead_bind, hl]
  rfl

/-- At the end of the queue a session has nothing to do. -/
theorem turn_of_nil {s : Session} (h : s.stream.queue = []) :
    ∃ u, s.turn = .ended (s.readTo u) .inputEnded := by
  obtain ⟨u, hnext⟩ := next?_of_nil h
  exact ⟨u, turn_of_end hnext⟩

theorem run_of_nil {s : Session} (h : s.stream.queue = []) :
    s.run.2 = .inputEnded ∧ s.run.1.database = s.database ∧ s.run.1.printed = s.printed := by
  obtain ⟨u, hend⟩ := turn_of_nil h
  rw [run_of_ended hend, printed_readTo]
  exact ⟨rfl, rfl, rfl⟩

/-- **What follows a text does not matter to it.** A run over a text that ends with a
semicolon comes to the same with something behind it, and gets there unless it is left. -/
theorem run_of_append {s s' : Session} {r : List Arrival} (hdatabase : s.database = s'.database)
    (hs' : ∀ x ∈ s'.stream.queue, x.IsRegular) (hq : s.stream.queue = s'.stream.queue ++ r)
    (hlast : ∀ x ∈ s'.stream.queue.getLast?, x = .ok .terminator) :
    (s'.run.2 = .left ∧ s.run.2 = .left ∧ Agree 0 s s' s.run.1 s'.run.1) ∨
    (s'.run.2 = .inputEnded ∧
      ∃ t, s.run = t.run ∧ t.stream.queue = r ∧ Agree 0 s s' t s'.run.1) := by
  induction hm : s.stream.remaining using Nat.strongRecOn generalizing s s' with
  | _ m ih =>
    obtain ⟨part, after, hpart, hq'⟩ := exists_part hs'
    rcases after with _ | rest
    -- Nothing is left of the text: where it is alone, this is the end of the input.
    · rw [closing, List.append_nil] at hq'
      rw [hq'] at hlast
      rw [eq_nil_of_last hpart hlast] at hq'
      obtain ⟨u, hend⟩ := turn_of_nil hq'
      rw [run_of_ended hend]
      refine .inr ⟨rfl, s, rfl, ?_, hdatabase, [], ?_, ?_⟩
      · rw [hq, hq', List.nil_append]
      · rw [List.map_nil, List.append_nil]
      · rw [printed_readTo, List.append_nil]
    · have hqs : s.stream.queue =
          part.map (Arrival.delay 0) ++ closing (some (rest ++ r)) := by
        rw [hq, hq', map_delay_zero, List.append_assoc]
        rfl
      have halike : (some (rest ++ r)).isSome = (some rest).isSome := rfl
      have habreast := exists_abreast hdatabase hpart halike hqs hq' fun d hd => hs' (.ok d) hd
      rcases (turn_agree habreast).cases with
        ⟨t, t', how, ht, ht', hstep, hhow⟩ | ⟨t, t', ht, ht', hstep, hqt, hqt'⟩
      · rcases hhow with hleft | ⟨-, hnone⟩
        · rw [run_of_ended ht, run_of_ended ht']
          exact .inl ⟨hleft, hleft, hstep⟩
        · simp at hnone
      · have hregular := isRegular_after (hq' ▸ hs') hqt'
        have hlast' : ∀ x ∈ t'.stream.queue.getLast?, x = .ok .terminator := by
          intro x hx
          apply hlast x
          rw [hqt'] at hx
          rw [hq', List.getLast?_append, closing, List.getLast?_cons]
          change x ∈ rest.getLast? at hx
          rw [Option.mem_def.1 hx]
          rfl
        have hrest : t.stream.queue = t'.stream.queue ++ r := by
          rw [hqt, hqt']
          rfl
        rw [run_of_going ht, run_of_going ht']
        rcases ih _ (hm ▸ turn_going ht) hstep.database hregular hrest hlast' rfl with
          ⟨hleft', hleft, hrun⟩ | ⟨hended, v, hv, hqv, hrun⟩
        · exact .inl ⟨hleft', hleft, hstep.trans hrun⟩
        · exact .inr ⟨hended, v, hv, hqv, hstep.trans hrun⟩

/-- A statement that fails and has no semicolon but its own makes for a short run. -/
theorem run_of_failure {s u : Session} (hs : ∀ x ∈ s.stream.queue, x.IsRegular) {e : Error}
    (h : s.statement = (.error e, u)) (hq : behindFirst s.stream.queue = []) :
    s.run.2 = .inputEnded ∧ s.run.1.database = s.database ∧
      s.run.1.printed = s.printed ++ [.failure e] := by
  obtain ⟨t, ht, hqueue, hdatabase, hprinted⟩ := going_of_failure hs h
  obtain ⟨hended, hdb, hshown⟩ := run_of_nil (hqueue.trans hq)
  rw [run_of_going ht]
  exact ⟨hended, hdb.trans hdatabase, hshown.trans hprinted⟩

/-! ## 3. The turns of one run -/

/-- A session after so many turns, if it has as many before its last. -/
def afterTurns : Nat → Session → Option Session
  | 0, s => some s
  | n + 1, s =>
    match s.turn with
    | .ended _ _ => none
    | .going t => t.afterTurns n

theorem isRegular_behindFirst {q : List Arrival} (hq : ∀ x ∈ q, x.IsRegular) :
    ∀ x ∈ behindFirst q, x.IsRegular := by
  obtain ⟨part, after, hpart, rfl⟩ := exists_part hq
  exact isRegular_after hq (behindFirst_append hpart after)

/-- After so many turns, so many statements are behind, and no more. -/
theorem queue_of_afterTurns {n : Nat} {s t : Session}
    (hs : ∀ x ∈ s.stream.queue, x.IsRegular) (h : s.afterTurns n = some t) :
    t.stream.queue = behindFirst^[n] s.stream.queue ∧ ∀ x ∈ t.stream.queue, x.IsRegular := by
  induction n generalizing s with
  | zero =>
    injection h with h
    rw [← h]
    exact ⟨rfl, hs⟩
  | succ n ih =>
    unfold afterTurns at h
    rcases hturn : s.turn with ⟨u, how⟩ | u <;> rw [hturn] at h
    · simp at h
    · have hqu := queue_of_going hs hturn
      have hu : ∀ x ∈ u.stream.queue, x.IsRegular := by
        rw [hqu]
        exact isRegular_behindFirst hs
      obtain ⟨hqt, ht⟩ := ih hu h
      refine ⟨?_, ht⟩
      rw [hqt, hqu, Function.iterate_succ_apply]

/-! ## 4. Texts -/

end Session

/-- What a text has to give, taken as a whole. -/
def arrivalsOf (cs : List Char) : List Arrival :=
  (Scanner.feed {} cs).events.1.map Event.arrival

theorem isRegular_arrivalsOf {cs : List Char} : ∀ x ∈ arrivalsOf cs, x.IsRegular := by
  intro x hx
  rcases x with e | k
  · obtain ⟨event, -, hevent⟩ := List.mem_map.1 hx
    unfold Event.arrival at hevent
    split at hevent
    · simp at hevent
    · injection hevent with he
      rw [← he]
      rfl
  · rw [arrivalsOf, ← TokenStream.queue_ofSource, TokenStream.queue_of_none rfl] at hx
    exact TokenStream.coming_isLexical _ hx

/-- A text that is cut behind a line and outside a comment gives what its parts give, that
of the second part further down. -/
theorem arrivalsOf_append {cs : List Char} (ds : List Char) (hline : EndsLine cs)
    (hcomment : (Scanner.feed {} cs).events.2.inComment = false) :
    arrivalsOf (cs ++ ds) =
      arrivalsOf cs ++ (arrivalsOf ds).map (Arrival.delay (cs.count '\n')) := by
  obtain ⟨hrest, hlines⟩ := Scanner.events_end (Scanner.feed {} cs)
  have hscanner : (Scanner.feed {} cs).events.2.extend ds =
      (Scanner.feed {} ds).delay (cs.count '\n') (Scanner.feed {} cs).events.2.position := by
    rw [Scanner.extend, hrest, hcomment, hlines, List.nil_append, Scanner.delay,
      Scanner.mk.injEq]
    exact ⟨rfl, rfl, (Nat.zero_add _).symm, rfl⟩
  have hevents := Scanner.events_extend (s := Scanner.feed {} cs) hline ds
  rw [hscanner, Scanner.events_delay] at hevents
  rw [arrivalsOf, show Scanner.feed {} (cs ++ ds) = (Scanner.feed {} cs).extend ds from rfl,
    hevents, List.map_append, List.map_map, arrivalsOf, arrivalsOf, List.map_map]
  refine congrArg _ (List.map_congr_left fun e _ => ?_)
  rw [Function.comp_apply, Function.comp_apply, Event.arrival_delay]

namespace Session

/-- A run over a text, from a database. -/
def runText (db : Database) (text : String) : Session × Ending := (start (.ofString text) db).run

theorem queue_start (db : Database) (text : String) :
    (start (.ofString text) db).stream.queue = arrivalsOf text.toList :=
  TokenStream.queue_ofSource

theorem isRegular_start (db : Database) (text : String) :
    ∀ x ∈ (start (.ofString text) db).stream.queue, x.IsRegular := by
  rw [queue_start]
  exact isRegular_arrivalsOf

section Append

variable {a : String} (hline : EndsLine a.toList)
  (hcomment : (Scanner.feed {} a.toList).events.2.inComment = false)
  (hlast : ∀ e ∈ (Scanner.feed {} a.toList).events.1.getLast?, e.found = .token .terminator)
include hline hcomment hlast

/-- The run over a text with another behind it comes by where the run over the text alone
ends, with what the other text gives still before it. -/
theorem runText_append_cases (db : Database) (b : String) :
    ((runText db a).2 = .left ∧ (runText db (a ++ b)).2 = .left ∧
      Agree 0 (start (.ofString (a ++ b)) db) (start (.ofString a) db)
        (runText db (a ++ b)).1 (runText db a).1) ∨
    ((runText db a).2 = .inputEnded ∧
      ∃ t, runText db (a ++ b) = t.run ∧
        t.stream.queue = (arrivalsOf b.toList).map (Arrival.delay (a.toList.count '\n')) ∧
        Agree 0 (start (.ofString (a ++ b)) db) (start (.ofString a) db) t (runText db a).1) := by
  refine run_of_append rfl (isRegular_start db a) ?_ ?_
  · rw [queue_start, queue_start, String.toList_append, arrivalsOf_append _ hline hcomment]
  · intro x hx
    rw [queue_start, arrivalsOf, List.getLast?_map] at hx
    obtain ⟨e, he, rfl⟩ := Option.map_eq_some_iff.1 hx
    rw [Event.arrival, hlast e he]

end Append

/-- **Runs compose, because every semicolon ends one statement.** Where a text is cut behind
a line, outside a comment and behind a semicolon, a run over it is a run over its first part,
and then, if that was not left, a run over the second part on the database that the first
part leaves; only the numbers of lines in its messages count on. And in any text, so many
turns consume as many statements, each with its semicolon, whatever errors there are: an
error costs its statement one message, leaves the database alone and does not end the run,
which ends where it is left or where no semicolon is before it. -/
theorem runText_append (db : Database) {a : String} (b : String) (hline : EndsLine a.toList)
    (hcomment : (Scanner.feed {} a.toList).events.2.inComment = false)
    (hlast : ∀ e ∈ (Scanner.feed {} a.toList).events.1.getLast?, e.found = .token .terminator) :
    ((runText db a).2 = .left →
      (runText db (a ++ b)).2 = .left ∧
      (runText db (a ++ b)).1.database = (runText db a).1.database ∧
      (runText db (a ++ b)).1.printed = (runText db a).1.printed) ∧
    ((runText db a).2 ≠ .left →
      (runText db (a ++ b)).2 = (runText (runText db a).1.database b).2 ∧
      (runText db (a ++ b)).1.database = (runText (runText db a).1.database b).1.database ∧
      (runText db (a ++ b)).1.printed = (runText db a).1.printed ++
        (runText (runText db a).1.database b).1.printed.map
          (Shown.delay (a.toList.count '\n'))) ∧
    ∀ text n t, (start (.ofString text) db).afterTurns n = some t →
      t.stream.queue = behindFirst^[n] (arrivalsOf text.toList) ∧
      (∀ e u, t.statement = (.error e, u) → ∃ v, t.turn = .going v ∧
        v.database = t.database ∧ v.printed = t.printed ++ [.failure e]) ∧
      ∀ v how, t.turn = .ended v how →
        how = .left ∨ how = .inputEnded ∧ ∀ x ∈ t.stream.queue, x.IsInner := by
  refine ⟨fun hleft => ?_, fun hleft => ?_, fun text n t ht => ?_⟩
  · rcases runText_append_cases hline hcomment hlast db b with
      ⟨-, hwhole, hagree⟩ | ⟨hended, -⟩
    · exact ⟨hwhole, hagree.database, hagree.printed_eq rfl⟩
    · rw [hended] at hleft
      simp at hleft
  · rcases runText_append_cases hline hcomment hlast db b with
      ⟨hleft', -⟩ | ⟨-, t, hwhole, hqueue, hagree⟩
    · exact absurd hleft' hleft
    -- Behind the first text the second is run, with its lines counted from there.
    · have hdatabase : t.database =
          (start (.ofString b) (runText db a).1.database).database := hagree.database
      obtain ⟨hending, hrun⟩ := run_of_delay hdatabase (isRegular_start _ b)
        (hqueue.trans (by rw [queue_start]))
      obtain ⟨more, hmore, hmore'⟩ := hrun.printed
      have hsecond : (runText (runText db a).1.database b).1.printed = more := hmore'
      rw [hwhole]
      refine ⟨hending, hrun.database, ?_⟩
      rw [hmore, hagree.printed_eq rfl, hsecond]
  · obtain ⟨hqueue, hregular⟩ := queue_of_afterTurns (isRegular_start db text) ht
    rw [queue_start] at hqueue
    refine ⟨hqueue, fun e u h => ?_, fun v how h => ending_of_ended hregular h⟩
    obtain ⟨v, hturn, -, hdatabase, hprinted⟩ := going_of_failure hregular h
    exact ⟨v, hturn, hdatabase, hprinted⟩

/-- Two statements that fail, the second in its own line. -/
theorem runText_append_drop :
    (runText (.fresh .root .empty) ("drop;\n" ++ "?;\n")).1.printed =
      [.failure (.unrecognizedCommand "drop"), .failure (.lexical (.illegalCharacter '?' 2))] := by
  have ha : arrivalsOf "drop;\n".toList = [.ok ⟨.identifier, "drop"⟩, .ok .terminator] := by
    decide +kernel
  have hb : arrivalsOf "?;\n".toList =
      [.error (.lexical (.illegalCharacter '?' 1)), .ok .terminator] := by
    decide +kernel
  have hqa := (queue_start (.fresh .root .empty) "drop;\n").trans ha
  have hqb := fun db => (queue_start db "?;\n").trans hb
  obtain ⟨u, hu⟩ := statement_of_unrecognized hqa rfl
  obtain ⟨hended, -, hprinted⟩ := run_of_failure (isRegular_start _ _) hu (by rw [hqa]; rfl)
  have hsecond : ∀ db, (runText db "?;\n").1.printed =
      [.failure (.lexical (.illegalCharacter '?' 1))] := by
    intro db
    obtain ⟨v, hv⟩ := statement_of_error (hqb db) rfl
    exact (run_of_failure (isRegular_start _ _) hv (by rw [hqb]; rfl)).2.2
  -- The first text ends its line, and its last token is a semicolon.
  have hline : EndsLine "drop;\n".toList := by
    intro c hc
    rw [show "drop;\n".toList.getLast? = some '\n' by decide] at hc
    exact (Option.some.inj hc).symm
  obtain ⟨-, hgoing, -⟩ := runText_append (.fresh .root .empty) "?;\n" hline
    (by decide +kernel) (by decide +kernel)
  obtain ⟨-, -, hwhole⟩ := hgoing fun hleft => by
    rw [runText, hended] at hleft
    simp at hleft
  rw [hwhole, hsecond, runText, hprinted]
  rfl

end Session

end FlatQuery
