import FlatQuery.Proofs.Prompts

/-!
# Why a run ends

The shell is loops inside loops. A run takes turns; a turn that meets an error may pass the
rest of the statement, which is a loop that starts over at each fault on its way; every
token is fetched by a loop over lines, and found by a loop over lexemes. All of them are
given here by what one pass through their body does, which contains no loop but an inner one,
and a `Loop` carries its own reason to end: an amount that every pass which is not the last
makes smaller (`Loop.ends`).

For the loops over tokens the amount is the input that is still to be processed,
`TokenStream.pending`: the token looked at, what is left of the line, and the lines not read.
Passing a fault takes characters off the line, passing a token takes the token. For a run the
amount is the same, but a turn may fail without consuming a token, so what makes it smaller
has to be found elsewhere. It is the queue: input is never used up more slowly than arrivals
are taken off the queue (`TokenStream.invariant_paced`), and a turn that is not the last takes
one off at least (`length_behindFirst_lt`).
-/

set_option autoImplicit false

namespace FlatQuery

/-! ## 1. Loops -/

/-- What one pass through the body of a loop comes to. -/
inductive Pass (σ α : Type) where
  /-- The loop is over, with a result. -/
  | over (result : α)
  /-- There is another pass. -/
  | again (next : σ)

/-- The result where a further pass is followed by `f`. -/
def Pass.result {σ α : Type} (f : σ → α) : Pass σ α → α
  | .over a => a
  | .again t => f t

/-- A loop over a state, and why it ends. -/
structure Loop (σ α : Type) where
  /-- One pass through the body. -/
  pass : σ → Pass σ α
  /-- What the passes use up. -/
  amount : σ → Nat
  amount_lt : ∀ {s t}, pass s = .again t → amount t < amount s

namespace Loop

variable {σ α : Type} (l : Loop σ α)

/-- The result of a loop that is entered in a state. -/
def result (s : σ) : α :=
  match _h : l.pass s with
  | .over a => a
  | .again t => result t
termination_by l.amount s
decreasing_by exact l.amount_lt _h

/-- Whether a loop that is entered in a state is over after so many further passes, with a
result. -/
inductive Takes : σ → Nat → α → Prop where
  | over {s : σ} {a : α} (h : l.pass s = .over a) : Takes s 0 a
  | again {s t : σ} {n : Nat} {a : α} (h : l.pass s = .again t) (ht : Takes t n a) :
      Takes s (n + 1) a

/-- Whether a loop ends with a result, after no more further passes than there is to use up. -/
def EndsWith (s : σ) (a : α) : Prop := ∃ n ≤ l.amount s, l.Takes s n a

variable {l}

/-- A loop that is over at once ends with what it is over with. -/
theorem EndsWith.over {s : σ} {a : α} (h : l.pass s = .over a) : l.EndsWith s a :=
  ⟨0, Nat.zero_le _, .over h⟩

/-- A loop that goes on ends with what it ends with from there. -/
theorem EndsWith.again {s t : σ} {a : α} (h : l.pass s = .again t) (ht : l.EndsWith t a) :
    l.EndsWith s a := by
  obtain ⟨n, hn, htakes⟩ := ht
  have hlt := l.amount_lt h
  exact ⟨n + 1, by omega, .again h htakes⟩

/-- **A loop ends.** A function that is what one pass makes of it is the result of the loop. -/
theorem endsWith_of_eq {f : σ → α} (hf : ∀ s, f s = (l.pass s).result f) (s : σ) :
    l.EndsWith s (f s) := by
  induction hm : l.amount s using Nat.strongRecOn generalizing s with
  | _ m ih =>
    have hs := hf s
    rcases hpass : l.pass s with a | t <;> rw [hpass] at hs <;> rw [hs]
    · exact .over hpass
    · exact .again hpass (ih _ (hm ▸ l.amount_lt hpass) t rfl)

/-- The result of a loop is that of its first pass, or of the loop from there on. -/
theorem result_eq (s : σ) : l.result s = (l.pass s).result l.result := by
  rw [result]
  split <;> rename_i h <;> rw [h] <;> rfl

end Loop

/-! ## 2. Finding a token -/

namespace Scanner

/-- One pass of the search for an event: the lexeme at the front is one, or is passed over. -/
def searchPass (s : Scanner) : Pass Scanner (Option Event × Scanner) :=
  match s.rest with
  | [] => .over (none, s)
  | c :: rest =>
    let x := Lexeme.front s.inComment c rest
    match x.1.found? (c :: rest.take x.2) s.line with
    | some f => .over (some ⟨f, s.line, s.position⟩, s.behind c rest x.1 x.2)
    | none => .again (s.behind c rest x.1 x.2)

/-- The search for an event uses up the characters of the line. -/
def search : Loop Scanner (Option Event × Scanner) where
  pass := searchPass
  amount s := s.rest.length
  amount_lt := by
    intro s t h
    unfold searchPass at h
    rcases hrest : s.rest with _ | ⟨c, rest⟩ <;> rw [hrest] at h
    · cases h
    · dsimp only at h
      split at h
      · cases h
      · injection h with h
        rw [← h, List.length_cons]
        exact Nat.lt_succ_of_le (behind_rest_length ..)

/-- The search for the next event is a loop over lexemes, and ends. -/
theorem search_ends (s : Scanner) : search.EndsWith s s.next := by
  refine Loop.endsWith_of_eq (f := next) (fun s => ?_) s
  change s.next = s.searchPass.result next
  unfold searchPass
  rcases hrest : s.rest with _ | ⟨c, rest⟩
  · exact next_of_nil hrest
  · rw [next_of_cons hrest]
    dsimp only
    rcases (Lexeme.front s.inComment c rest).1.found?
      (c :: rest.take (Lexeme.front s.inComment c rest).2) s.line with _ | f <;> rfl

end Scanner

/-! ## 3. Fetching a token -/

namespace TokenStream

/-- One pass of fetching what stands next: it is on the lines so far, or there is another
line, or the end is met and nothing is left but to say so. -/
def fetchPass (s : TokenStream) : Pass TokenStream (Reply Lookahead) :=
  match s.scanner.next with
  | (some e, scanner) =>
    match e.found with
    | .token t => .over (.ok (.token t) { s with scanner })
    | .fault f => .over (.fail (.lexical f) { s with scanner })
  | (none, scanner) =>
    let t := { s with scanner }
    if t.exhausted then .over (.ok .endOfInput t)
    else
      match s.source.readLine with
      | .line text source => .again { t.requested false with scanner := scanner.feed text, source }
      | .endOfInput => .again { t.requested true with exhausted := true }
      | .broken f => .over (.fail (.inputEncoding f) (t.requested false))

/-- Fetching uses up the lines not read, and meets the end once. -/
def fetching : Loop TokenStream (Reply Lookahead) where
  pass := fetchPass
  amount s := s.source.size + endSize s.exhausted
  amount_lt := by
    intro s t h
    unfold fetchPass at h
    rcases hn : s.scanner.next with ⟨_ | e, scanner⟩ <;> rw [hn] at h <;> dsimp only at h
    · split at h
      · cases h
      rename_i hx
      rw [Bool.not_eq_true] at hx
      rcases hl : s.source.readLine with ⟨text, source⟩ | _ | f <;> rw [hl] at h
      · injection h with h
        have hline := Source.readLine_line hl
        have hpos := List.length_pos_iff.2 hline.1
        rw [← h]
        change source.size + endSize s.exhausted < _
        omega
      · injection h with h
        rw [← h, hx]
        exact Nat.lt_succ_self _
      · cases h
    · split at h <;> cases h

/-- Reading is a loop over lines, and ends. -/
theorem fetching_ends (s : TokenStream) : fetching.EndsWith s s.read := by
  refine Loop.endsWith_of_eq (f := read) (fun s => ?_) s
  change s.read = s.fetchPass.result read
  rw [read_eq, fetchPass]
  rcases hn : s.scanner.next with ⟨_ | e, scanner⟩ <;> dsimp only
  · split
    · rfl
    · rcases hl : s.source.readLine with ⟨text, source⟩ | _ | f
      · rfl
      -- The line is used up, so the pass that follows can only say that this is the end.
      · have hagain : scanner.next = (none, scanner) :=
          Scanner.next_of_nil (Scanner.next_none_rest hn)
        change _ = TokenStream.read _
        rw [read_eq]
        change _ = (match scanner.next with
          | (some e, scanner) => _
          | (none, scanner) => _)
        rw [hagain]
        rfl
      · rfl
  · rcases e.found with k | f <;> rfl

/-! ## 4. The input still to be processed -/

/-- How much input is still to be processed: the token looked at, the rest of the line, and
the lines not read. -/
def pending (s : TokenStream) : Nat :=
  aheadSize s.ahead? + s.scanner.rest.length + s.source.size

end TokenStream

/-- Whether a reply leaves no more pending than there was in a stream, and less where it is an
error of the statement. -/
def Reply.UsesUp {α : Type} (s : TokenStream) : Reply α → Prop
  | .ok _ t => t.pending ≤ s.pending
  | .fail e t => t.pending ≤ s.pending ∧ (e.isStatementError = true → t.pending < s.pending)

/-- A reply that uses up something of what is left uses up something of what there was. -/
theorem Reply.UsesUp.mono {α : Type} {r : Reply α} {s t : TokenStream} (h : r.UsesUp t)
    (hle : t.pending ≤ s.pending) : r.UsesUp s := by
  rcases r with ⟨a, u⟩ | ⟨e, u⟩
  · exact Nat.le_trans h hle
  · exact ⟨Nat.le_trans h.1 hle, fun he => Nat.lt_of_lt_of_le (h.2 he) hle⟩

namespace TokenStream

/-- Reading takes a token off what is pending, or a fault. -/
theorem pending_of_read (s : TokenStream) :
    s.read.UsesUp s ∧ ∀ a t, s.read = .ok a t → t.pending + aheadSize (some a) ≤ s.pending := by
  fun_induction read s with
  | case1 s e scanner hn k hf =>
    -- The token was taken off what the scanner had left.
    have hlt : ({ s with scanner } : TokenStream).pending < s.pending := by
      have := Scanner.next_some_length hn
      simp only [pending]
      omega
    refine ⟨Nat.le_of_lt hlt, fun a t h => ?_⟩
    injection h with ha ht
    rw [← ha, ← ht]
    exact hlt
  | case2 s e scanner hn f hf =>
    have hlt : ({ s with scanner } : TokenStream).pending < s.pending := by
      have := Scanner.next_some_length hn
      simp only [pending]
      omega
    exact ⟨⟨Nat.le_of_lt hlt, fun _ => hlt⟩, fun a t h => by cases h⟩
  | case3 s scanner hn u hx =>
    -- The scanner has nothing left, so all that is pending is with the source.
    have hle : u.pending ≤ s.pending := by
      have := Scanner.next_none_rest hn
      simp only [pending, u, this, List.length_nil]
      omega
    refine ⟨hle, fun a t h => ?_⟩
    injection h with ha ht
    rw [← ha, ← ht]
    exact hle
  | case4 s scanner hn u hx text source h ih =>
    -- A line is taken off the source and given to the scanner.
    have hle : ({ u.requested false with scanner := scanner.feed text, source } :
        TokenStream).pending ≤ s.pending := by
      have := (Source.readLine_line h).2
      simp only [pending, requested, u, Scanner.feed]
      omega
    exact ⟨ih.1.mono hle, fun a t h => Nat.le_trans (ih.2 a t h) hle⟩
  | case5 s scanner hn u hx h =>
    have hle : ({ u.requested true with exhausted := true } : TokenStream).pending ≤
        s.pending := by
      have := Scanner.next_none_rest hn
      simp only [pending, requested, u, this, List.length_nil]
      omega
    refine ⟨hle, fun a t h => ?_⟩
    injection h with ha ht
    rw [← ha, ← ht]
    exact hle
  | case6 s scanner hn u hx f h =>
    have hle : (u.requested false).pending ≤ s.pending := by
      have := Scanner.next_none_rest hn
      simp only [pending, requested, u, this, List.length_nil]
      omega
    exact ⟨⟨hle, fun he => by cases he⟩, fun a t h => by cases h⟩

/-- Looking ahead adds nothing to what is pending, and takes a fault off. -/
theorem pending_of_lookahead (s : TokenStream) : s.lookahead.UsesUp s := by
  unfold lookahead
  rcases ha : s.ahead? with _ | a
  · have hahead := read_spec s
    obtain ⟨huses, hread⟩ := pending_of_read s
    rcases hr : s.read with ⟨a, t⟩ | ⟨e, t⟩ <;> rw [hr] at hahead huses
    -- What is kept is what was taken off the line.
    · have hnone : t.ahead? = none := hahead.1.trans ha
      have hle := hread a t hr
      simp only [pending, hnone, show aheadSize none = 0 from rfl] at hle
      change ({ t with ahead? := some a } : TokenStream).pending ≤ s.pending
      simp only [pending]
      omega
    · exact huses
  · exact Nat.le_refl _

/-- A token that is consumed is no longer pending. -/
theorem pending_consume {s : TokenStream} {k : Token} (h : s.ahead? = some (.token k)) :
    s.consume.pending + 1 = s.pending := by
  rw [consume, h]
  simp only [pending, h, aheadSize]
  omega

/-- A token that is looked at and consumed is not pending any more. -/
theorem pending_consume_of_lookahead {s t : TokenStream} {k : Token}
    (h : s.lookahead = .ok (.token k) t) : t.consume.pending < s.pending := by
  have hspec := s.lookahead_spec
  have huses := s.pending_of_lookahead
  rw [h] at hspec huses
  have hconsume := pending_consume hspec.1
  have hle : t.pending ≤ s.pending := huses
  omega

end TokenStream

/-! ## 5. Passing the rest of a statement -/

namespace Parser

/-- One pass of the inner loop: what stands next is passed unless it ends the loop. -/
def passingPass (s : TokenStream) : Pass TokenStream (Reply Unit) :=
  match s.lookahead with
  | .fail e t => .over (.fail e t)
  | .ok .endOfInput t => .over (.ok () t)
  | .ok (.token k) t => if k.text = ";" then .over (.ok () t.consume) else .again t.consume

/-- Passing tokens up to the semicolon, the end, or an error. -/
def passing : Loop TokenStream (Reply Unit) where
  pass := passingPass
  amount := TokenStream.pending
  amount_lt := by
    intro s t h
    unfold passingPass at h
    rcases hl : s.lookahead with ⟨k | _, u⟩ | ⟨e, u⟩ <;> rw [hl] at h
    · dsimp only at h
      split at h
      · cases h
      · injection h with h
        exact h ▸ TokenStream.pending_consume_of_lookahead hl
    · cases h
    · cases h

theorem result_passing (s : TokenStream) :
    passing.result s = (passingPass s).result passing.result := passing.result_eq s

/-- What is passed is not pending any more, and neither is the fault that stopped it. -/
theorem pending_of_passing (s : TokenStream) : (passing.result s).UsesUp s := by
  induction hm : s.pending using Nat.strongRecOn generalizing s with
  | _ m ih =>
    subst hm
    have huses := s.pending_of_lookahead
    rw [result_passing, passingPass]
    rcases hl : s.lookahead with ⟨k | _, u⟩ | ⟨e, u⟩ <;> rw [hl] at huses
    · have hlt := TokenStream.pending_consume_of_lookahead hl
      dsimp only
      split
      · exact Nat.le_of_lt hlt
      · exact (ih _ hlt u.consume rfl).mono (Nat.le_of_lt hlt)
    · exact huses
    · exact huses

/-- One pass of the outer loop: an error of the statement starts the inner loop over. -/
def skippingPass (s : TokenStream) : Pass TokenStream (Reply Unit) :=
  match passing.result s with
  | .ok _ t => .over (.ok () t)
  | .fail e t => if e.isStatementError = true then .again t else .over (.fail e t)

/-- Passing the rest of a statement, whatever faults are in it. -/
def skipping : Loop TokenStream (Reply Unit) where
  pass := skippingPass
  amount := TokenStream.pending
  amount_lt := by
    intro s t h
    have hpassing := pending_of_passing s
    unfold skippingPass at h
    rcases hp : passing.result s with ⟨_, u⟩ | ⟨e, u⟩ <;> rw [hp] at h hpassing
    · cases h
    · dsimp only at h hpassing
      split at h
      · rename_i he
        injection h with h
        exact h ▸ hpassing.2 he
      · cases h

/-- Passing the rest of a statement is a loop over tokens, and ends. -/
theorem passing_ends (s : TokenStream) : passing.EndsWith s (passing.result s) :=
  Loop.endsWith_of_eq passing.result_eq s

/-- Both loops together are what it is to skip. -/
theorem skipping_ends (s : TokenStream) : skipping.EndsWith s (skip.run s) := by
  refine Loop.endsWith_of_eq (f := skip.run) (fun s => ?_) s
  change skip.run s = (skippingPass s).result skip.run
  induction hm : s.pending using Nat.strongRecOn generalizing s with
  | _ m ih =>
    subst hm
    rw [run_skip, skippingPass, result_passing, passingPass]
    rcases hl : s.lookahead with ⟨k | _, u⟩ | ⟨e, u⟩
    · dsimp only
      split
      · rfl
      -- The inner loop goes on behind the token, and so does skipping.
      · exact ih _ (TokenStream.pending_consume_of_lookahead hl) u.consume rfl
    · rfl
    · dsimp only [Pass.result]
      split <;> rfl

end Parser

/-! ## 6. Turns -/

namespace TokenStream

/-- Input is not used up more slowly than arrivals are taken off the queue. -/
theorem invariant_paced (k n : Nat) :
    Invariant fun _ s => s.pending + n ≤ k + s.queue.length where
  lookahead := by
    intro _ s h
    have huses := s.pending_of_lookahead
    rcases lookahead_cases s with ⟨t, hl, hq, hqt, -⟩ | ⟨d, t, hl, hq, ha, -⟩ |
      ⟨e, t, hl, -, -, hq⟩ <;> rw [hl] at huses ⊢
    · change t.pending ≤ s.pending at huses
      rw [hq] at h
      rw [Reply.rest, hqt]
      -- Nothing but what is looked at has changed.
      omega
    · change t.pending ≤ s.pending at huses
      rw [hq] at h
      rw [Reply.rest, queue_of_token ha]
      omega
    · obtain ⟨hle, hlt⟩ := huses
      rw [Reply.rest]
      rcases hq with ⟨he, hq⟩ | ⟨-, hq, hqt⟩
      -- An error that concerns a statement took something off the text.
      · have hless := hlt he
        rw [hq, List.length_cons] at h
        omega
      · rw [hq] at h
        rw [hqt]
        omega
  consume := by
    intro _ s h
    rcases ha : s.ahead? with _ | k | _
    · rwa [consume, ha]
    · have hpending := pending_consume ha
      rw [queue_of_token ha, List.length_cons] at h
      rw [(consume_of_token ha).1]
      omega
    · rwa [consume_of_end ha]
  forgetRequests := by
    intro _ s h
    rw [queue_forgetRequests]
    exact h

end TokenStream

/-- Behind the first semicolon there is no more than there was. -/
theorem length_behindFirst_le (q : List Arrival) : (behindFirst q).length ≤ q.length := by
  induction q with
  | nil => exact Nat.le_refl _
  | cons x q ih =>
    rcases x with e | k
    · exact Nat.le_succ_of_le ih
    · rw [behindFirst]
      split
      · exact Nat.le_succ _
      · exact Nat.le_succ_of_le ih

/-- Behind a statement the queue is shorter. -/
theorem length_behindFirst_lt {q : List Arrival} (h : q ≠ []) :
    (behindFirst q).length < q.length := by
  rcases q with _ | ⟨e | k, q⟩
  · exact absurd rfl h
  · exact Nat.lt_succ_of_le (length_behindFirst_le q)
  · rw [behindFirst]
    split
    · exact Nat.lt_succ_self _
    · exact Nat.lt_succ_of_le (length_behindFirst_le q)

namespace Statement

/-- Where there is no statement, nothing is left. -/
theorem queue_of_next?_none {c : Catalog} {s t : TokenStream}
    (h : (next? c).run s = .ok none t) : s.queue = [] := by
  have hl := lookahead_of_next?_none h
  rcases TokenStream.lookahead_cases s with ⟨_, -, hq, -⟩ | ⟨_, _, hl', -⟩ | ⟨_, _, hl', -⟩
  · exact hq
  · rw [hl] at hl'
    cases hl'
  · rw [hl] at hl'
    cases hl'

/-- Only a statement to leave does not go on. -/
theorem eq_exit_of_continues {st : Statement} (h : st.continues = false) : st = .exit := by
  cases st with
  | exit => rfl
  | _ => cases h

end Statement

namespace Session

/-- A statement whose first word cannot be found fails by what is found instead. -/
theorem statement_of_lookahead_fail {s : Session} {e : Error} {t : TokenStream}
    (h : s.stream.lookahead = .fail e t) : s.statement = (.error e, s.readTo t) := by
  apply statement_of_fail
  rw [Statement.next?, Parser.run_lookahead_bind, h]

/-- **How the last turn ends.** It has read the statement to leave by, or nothing was left, or
an error broke it off. -/
theorem ending_of_turn {s t : Session} {how : Ending} (h : s.turn = .ended t how) :
    (how = .left ∧
      ∃ u, (Statement.next? s.database.catalog).run s.stream = .ok (some .exit) u) ∨
    (how = .inputEnded ∧ s.stream.queue = []) ∨ ∃ e, how = .broken e := by
  rcases hr : (Statement.next? s.database.catalog).run s.stream with ⟨_ | st, u⟩ | ⟨e, u⟩
  · rw [turn_of_end hr] at h
    injection h with _ hhow
    exact .inr (.inl ⟨hhow.symm, Statement.queue_of_next?_none hr⟩)
  · rcases hst : st.execute s.database with e | ⟨db, lines⟩
    · rw [turn_of_refused hr hst] at h
      obtain ⟨d, hhow, -⟩ := ending_of_recover h
      exact .inr (.inr ⟨d, hhow⟩)
    · rw [turn_of_done hr hst] at h
      split at h
      · cases h
      · rename_i hcontinues
        injection h with _ hhow
        rw [Bool.not_eq_true] at hcontinues
        exact .inl ⟨hhow.symm, u, by rw [Statement.eq_exit_of_continues hcontinues]⟩
  · rw [turn_of_fail hr] at h
    obtain ⟨d, hhow, -⟩ := ending_of_recover h
    exact .inr (.inr ⟨d, hhow⟩)

section Regular

variable {s : Session} (hs : ∀ x ∈ s.stream.queue, x.IsRegular)
include hs

/-- **A turn that is not the last uses up input**, be it carried out, refused, or passed over
from its first fault on. -/
theorem pending_of_going {t : Session} (h : s.turn = .going t) :
    t.stream.pending < s.stream.pending := by
  have hpaced : t.stream.pending + s.stream.queue.length ≤
      s.stream.pending + t.stream.queue.length :=
    Has.going (TokenStream.invariant_paced _ _) (Nat.le_refl _) h
  have hqueue : s.stream.queue ≠ [] := by
    intro hnil
    obtain ⟨u, hended⟩ := turn_of_nil hnil
    rw [hended] at h
    cases h
  have hshorter := length_behindFirst_lt hqueue
  rw [← queue_of_going hs h] at hshorter
  omega

/-- So there are no more turns than there is input. -/
theorem pending_of_afterTurns {n : Nat} {t : Session} (h : s.afterTurns n = some t) :
    t.stream.pending + n ≤ s.stream.pending := by
  induction n generalizing t with
  | zero =>
    injection h with h
    rw [h]
    exact Nat.le_refl _
  | succ n ih =>
    obtain ⟨u, hu, hturn⟩ := afterTurns_succ h
    have hlt := pending_of_going (queue_of_afterTurns hs hu).2 hturn
    have hle := ih hu
    omega

/-- The last turn of a text has read the statement to leave by, or nothing was left. -/
theorem last_turn {t : Session} {how : Ending} (h : s.turn = .ended t how) :
    (how = .left ∧
      ∃ u, (Statement.next? s.database.catalog).run s.stream = .ok (some .exit) u) ∨
    (how = .inputEnded ∧ s.stream.queue = []) := by
  rcases ending_of_turn h with hleft | hended | ⟨e, rfl⟩
  · exact .inl hleft
  · exact .inr hended
  · exact absurd (ending_of_ended hs h) (by simp)

end Regular

/-! ## 7. The whole -/

theorem pending_start (db : Database) (text : String) :
    (start (.ofString text) db).stream.pending = text.length := by
  simp [start, TokenStream.pending, TokenStream.aheadSize, Source.ofString, Source.size,
    String.length_toList]

/-- **Every run over a text ends.** Whatever the text, the registered tables and the files are,
a run takes no more turns than the text has characters, and the last of them reads the
statement to leave by or finds nothing left. Every other turn leaves less of the text to be
processed than there was before it. So does every pass of the two loops that pass the rest of a
statement, the outer one starting over behind each fault; they end with what skipping comes
to, as the loop over lines ends with a token, an error or the end, and the loop over lexemes
with an event or the end of the line. -/
theorem runText_ends (db : Database) (text : String) :
    (∃ n ≤ text.length, ∃ s u how, (start (.ofString text) db).afterTurns n = some s ∧
      s.turn = .ended u how ∧ runText db text = (u, how) ∧
      ((how = .left ∧
          ∃ t, (Statement.next? s.database.catalog).run s.stream = .ok (some .exit) t) ∨
        (how = .inputEnded ∧ s.stream.queue = []))) ∧
    (∀ n s t, (start (.ofString text) db).afterTurns n = some s → s.turn = .going t →
      t.stream.pending < s.stream.pending) ∧
    (∀ s : TokenStream, Parser.skipping.EndsWith s (Parser.skip.run s) ∧
      ∀ t, Parser.skipping.pass s = .again t → t.pending < s.pending) ∧
    (∀ s : TokenStream, Parser.passing.EndsWith s (Parser.passing.result s) ∧
      ∀ t, Parser.passing.pass s = .again t → t.pending < s.pending) ∧
    (∀ s : TokenStream, TokenStream.fetching.EndsWith s s.read) ∧
    (∀ s : Scanner, Scanner.search.EndsWith s s.next) := by
  refine ⟨?_, ?_, ?_, ?_, TokenStream.fetching_ends, Scanner.search_ends⟩
  · obtain ⟨n, s, u, how, hs, hturn, hrun⟩ := exists_last_turn (start (.ofString text) db)
    have hregular := isRegular_start db text
    have hle := pending_of_afterTurns hregular hs
    rw [pending_start] at hle
    have hlast := last_turn (queue_of_afterTurns hregular hs).2 hturn
    exact ⟨n, by omega, s, u, how, hs, hturn, hrun, hlast⟩
  · intro n s t hs hturn
    exact pending_of_going (queue_of_afterTurns (isRegular_start db text) hs).2 hturn
  · exact fun s => ⟨Parser.skipping_ends s, fun _ => Parser.skipping.amount_lt⟩
  · exact fun s => ⟨Parser.passing_ends s, fun _ => Parser.passing.amount_lt⟩

/-- Of a literal that is not ended and a word behind it, the first turn passes both: the fault
starts the outer loop over, and the word is a pass of the inner one. -/
theorem runText_ends_unterminated :
    ∃ t u v, (start (.ofString "'a\ndrop;") (.fresh .root .empty)).turn = .going t ∧
      t.stream.pending < 8 ∧
      Parser.skipping.pass { source := .ofString "'a\ndrop;" } = .again u ∧ u.pending < 8 ∧
      Parser.passing.pass u = .again v ∧ v.pending < u.pending := by
  have hq : ({ source := .ofString "'a\ndrop;" } : TokenStream).queue =
      [.error (.lexical (.unterminatedLiteral "'a")), .ok ⟨.identifier, "drop"⟩,
        .ok .terminator] :=
    TokenStream.queue_ofSource.trans (by decide +kernel)
  obtain ⟨u, hl, hqu, -⟩ := TokenStream.lookahead_of_error hq rfl
  obtain ⟨v, hv, -⟩ := TokenStream.lookahead_of_ok hqu
  obtain ⟨-, hturns, hskipping, hpassing, -⟩ :=
    runText_ends (.fresh .root .empty) "'a\ndrop;"
  have hnext := statement_of_lookahead_fail
    (s := start (.ofString "'a\ndrop;") (.fresh .root .empty)) hl
  obtain ⟨t, ht, -⟩ := going_of_failure (isRegular_start _ _) hnext
  have hskip : Parser.skipping.pass { source := .ofString "'a\ndrop;" } = .again u := by
    change Parser.skippingPass _ = _
    rw [Parser.skippingPass, Parser.result_passing, Parser.passingPass, hl]
    rfl
  have hpass : Parser.passing.pass u = .again v.consume := by
    change Parser.passingPass u = _
    rw [Parser.passingPass, hv]
    rfl
  exact ⟨t, u, v.consume, ht, hturns 0 _ t rfl ht, hskip, (hskipping _).2 u hskip, hpass,
    (hpassing u).2 _ hpass⟩

end Session

end FlatQuery
