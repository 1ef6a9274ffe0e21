import FlatQuery.Proofs.Lexical
import FlatQuery.Statement.Grammar

/-!
# Reading two statements in lockstep

Two streams may hold the same statement and differ in everything else: in what stands
behind its semicolon, and in the line it begins on. Whoever reads a statement must not
notice. This is not plain, since a reader looks ahead, meets faults and gives up in all
sorts of places; it holds because no rule of the grammar takes the semicolon but as its
last step, and nothing is looked at behind it.

A `Pair` fixes what two such streams have behind the statement, and `Pair.Inside` says
that both still have the same part of the statement before them. Parsers come in two
sorts. A `Local` one gives the same result on both streams, or the same error, and stays
inside. A `Final` one stays inside when it fails, and when it succeeds it has consumed the
semicolon of either stream and nothing behind it. Both are closed under the ways in which
parsers are put together, so each rule of the grammar is of one sort or the other.
-/

set_option autoImplicit false

namespace FlatQuery

/-! ## 1. The place of a statement in a stream -/

/-- The token that ends a statement. -/
def Token.terminator : Token := ⟨.semicolon, ";"⟩

/-- Whether an arrival can stand within a statement: it is a token that does not end it,
or an error that belongs to it. -/
def Arrival.IsInner : Arrival → Prop
  | .ok t => t.text ≠ ";"
  | .error e => e.isStatementError = true

theorem Arrival.isInner_delay {x : Arrival} (k : Nat) (h : x.IsInner) : (x.delay k).IsInner := by
  rcases x with e | t
  · exact (Error.isStatementError_delay k e).trans h
  · exact h

/-- The arrivals from the end of a statement on: its semicolon and what follows, or nothing
where the input ends first. -/
def closing : Option (List Arrival) → List Arrival
  | none => []
  | some rest => .ok .terminator :: rest

/-- Whether a reader who had consumed `n` tokens when a statement began still has a part of
it before him. -/
structure Within (n : Nat) (part : List Arrival) (after : Option (List Arrival))
    (s : TokenStream) : Prop where
  queue_eq : s.queue = part ++ closing after
  start_le : n ≤ s.consumed
  mid : s.consumed = n ∨ s.midStatement = true

/-- Whether he has consumed it to its semicolon. -/
structure Behind (n : Nat) (rest : List Arrival) (s : TokenStream) : Prop where
  queue_eq : s.queue = rest
  start_lt : n < s.consumed
  mid : s.midStatement = false
  ahead : s.ahead? = none

/-- Two places of a statement: how many lines the first is below the second, how many
tokens were consumed before either, and what stands behind either. -/
structure Pair where
  delay : Nat
  before : Nat
  before' : Nat
  after : Option (List Arrival)
  after' : Option (List Arrival)
  alike : after.isSome = after'.isSome

/-- Both readers have the same part of the statement before them. -/
def Pair.Inside (P : Pair) (s s' : TokenStream) : Prop :=
  ∃ part : List Arrival, (∀ x ∈ part, x.IsInner) ∧
    Within P.before (part.map (Arrival.delay P.delay)) P.after s ∧
    Within P.before' part P.after' s'

/-- Both readers are behind the statement. -/
def Pair.Past (P : Pair) (s s' : TokenStream) : Prop :=
  ∃ rest rest', P.after = some rest ∧ P.after' = some rest' ∧
    Behind P.before rest s ∧ Behind P.before' rest' s'

/-- Looking ahead stays within the statement: only what stands next changes. -/
theorem Within.of_samePlace {n : Nat} {part : List Arrival} {after : Option (List Arrival)}
    {s t : TokenStream} (h : Within n part after s) (hp : s.SamePlace t) {part' : List Arrival}
    (hq : t.queue = part' ++ closing after) : Within n part' after t :=
  ⟨hq, by rw [hp.1]; exact h.start_le, by rw [hp.1, hp.2]; exact h.mid⟩

/-- A token that does not end the statement can be consumed within it. -/
theorem Within.consume {n : Nat} {part : List Arrival} {after : Option (List Arrival)}
    {s : TokenStream} {k : Token} (h : Within n (.ok k :: part) after s)
    (ha : s.ahead? = some (.token k)) (hk : k.text ≠ ";") : Within n part after s.consume := by
  obtain ⟨hq, -, hc, hm⟩ := TokenStream.consume_of_token ha
  have hs := h.queue_eq
  rw [TokenStream.queue_of_token ha] at hs
  refine ⟨hq.trans (List.cons.inj hs).2, ?_, .inr ?_⟩
  · rw [hc]
    exact Nat.le_succ_of_le h.start_le
  · rw [hm, decide_eq_true_eq]
    exact hk

/-- Consuming the semicolon leads behind the statement. -/
theorem Within.consume_terminator {n : Nat} {rest : List Arrival} {s : TokenStream}
    (h : Within n [] (some rest) s) (ha : s.ahead? = some (.token .terminator)) :
    Behind n rest s.consume := by
  obtain ⟨hq, hn, hc, hm⟩ := TokenStream.consume_of_token ha
  have hs := h.queue_eq
  rw [TokenStream.queue_of_token ha] at hs
  refine ⟨hq.trans (List.cons.inj hs).2, ?_, hm, hn⟩
  rw [hc]
  exact Nat.lt_succ_of_le h.start_le

/-! ## 2. Looking ahead within a statement -/

namespace TokenStream

/-- At the end of the queue the end of the input stands next, and goes on doing so. -/
theorem lookahead_of_nil {s : TokenStream} (h : s.queue = []) :
    ∃ t, s.lookahead = .ok .endOfInput t ∧ t.queue = [] ∧ t.ahead? = some .endOfInput ∧
      s.SamePlace t := by
  rcases lookahead_cases s with ⟨t, hl, -, hq, ha, hp⟩ | ⟨k, t, -, hq, -⟩ | ⟨e, t, -, -, -, hq⟩
  · exact ⟨t, hl, hq, ha, hp⟩
  · rw [h] at hq
    exact absurd hq (by simp)
  · rcases hq with ⟨-, hq⟩ | ⟨-, hq, -⟩ <;> rw [h] at hq <;> exact absurd hq (by simp)

/-- Where a token is first in the queue it stands next, and the queue is as it was. -/
theorem lookahead_of_ok {s : TokenStream} {k : Token} {q : List Arrival}
    (h : s.queue = .ok k :: q) :
    ∃ t, s.lookahead = .ok (.token k) t ∧ t.queue = .ok k :: q ∧
      t.ahead? = some (.token k) ∧ s.SamePlace t := by
  rcases lookahead_cases s with ⟨t, -, hq, -⟩ | ⟨d, t, hl, hq, ha, hp⟩ | ⟨e, t, -, -, -, hq⟩
  · rw [h] at hq
    exact absurd hq (by simp)
  · rw [h] at hq
    injection hq with hk hq
    injection hk with hk
    subst hk hq
    exact ⟨t, hl, queue_of_token ha, ha, hp⟩
  · rcases hq with ⟨-, hq⟩ | ⟨-, hq, -⟩ <;> rw [h] at hq <;> exact absurd hq (by simp)

/-- An error that is first in the queue is raised, and gone from the queue behind that. -/
theorem lookahead_of_error {s : TokenStream} {e : Error} {q : List Arrival}
    (h : s.queue = .error e :: q) (he : e.isStatementError = true) :
    ∃ t, s.lookahead = .fail e t ∧ t.queue = q ∧ s.SamePlace t := by
  rcases lookahead_cases s with ⟨t, -, hq, -⟩ | ⟨d, t, -, hq, -⟩ | ⟨d, t, hl, -, hp, hq⟩
  · rw [h] at hq
    exact absurd hq (by simp)
  · rw [h] at hq
    exact absurd hq (by simp)
  · rcases hq with ⟨-, hq⟩ | ⟨hd, hq, -⟩ <;> rw [h] at hq <;> injection hq with hk hq <;>
      injection hk with hk <;> subst hk
    · exact ⟨t, hl, hq.symm, hp⟩
    · rw [he] at hd
      exact Bool.noConfusion hd

end TokenStream

/-- What both readers see before them: a token that does not end the statement, its
semicolon, or the end of the input. -/
structure Pair.Shows (P : Pair) (a : Lookahead) (t t' : TokenStream) : Prop where
  inside : P.Inside t t'
  consume : a.text ≠ ";" ∧ P.Inside t.consume t'.consume ∨
    a = .token .terminator ∧ P.Past t.consume t'.consume
  at_end : a = .endOfInput → P.after = none ∧ t.queue = [] ∧ t'.queue = []

/-- **Looking ahead in lockstep.** Both readers see the same, or both are given the same
error. -/
theorem Pair.lookahead_cases {P : Pair} {s s' : TokenStream} (h : P.Inside s s') :
    (∃ a t t', s.lookahead = .ok a t ∧ s'.lookahead = .ok a t' ∧ P.Shows a t t') ∨
    (∃ e t t', s.lookahead = .fail (e.delay P.delay) t ∧ s'.lookahead = .fail e t' ∧
      e.isStatementError = true ∧ P.Inside t t') := by
  obtain ⟨part, hpart, hs, hs'⟩ := h
  rcases part with _ | ⟨e | k, part⟩
  -- Nothing of the statement is left: both are at their end, or before their semicolon.
  · have halike := P.alike
    rcases hafter : P.after with _ | rest <;> rcases hafter' : P.after' with _ | rest' <;>
      rw [hafter, hafter'] at halike
    · rw [hafter] at hs
      rw [hafter'] at hs'
      obtain ⟨t, hl, hq, ha, hp⟩ := TokenStream.lookahead_of_nil hs.queue_eq
      obtain ⟨t', hl', hq', ha', hp'⟩ := TokenStream.lookahead_of_nil hs'.queue_eq
      have hin : P.Inside t t' := by
        refine ⟨[], hpart, ?_, ?_⟩
        · rw [hafter]
          exact hs.of_samePlace hp hq
        · rw [hafter']
          exact hs'.of_samePlace hp' hq'
      refine .inl ⟨_, t, t', hl, hl', hin, .inl ⟨by decide, ?_⟩, fun _ => ⟨hafter, hq, hq'⟩⟩
      rw [TokenStream.consume_of_end ha, TokenStream.consume_of_end ha']
      exact hin
    · exact absurd halike (by simp)
    · exact absurd halike (by simp)
    -- The semicolon is shown to both, and consuming it leaves the statement in both.
    · rw [hafter] at hs
      rw [hafter'] at hs'
      obtain ⟨t, hl, hq, ha, hp⟩ := TokenStream.lookahead_of_ok hs.queue_eq
      obtain ⟨t', hl', hq', ha', hp'⟩ := TokenStream.lookahead_of_ok hs'.queue_eq
      have ht : Within P.before [] (some rest) t := hs.of_samePlace hp hq
      have ht' : Within P.before' [] (some rest') t' := hs'.of_samePlace hp' hq'
      refine .inl ⟨_, t, t', hl, hl', ⟨[], hpart, ?_, ?_⟩, .inr ⟨rfl, ?_⟩, by simp⟩
      · rw [hafter]
        exact ht
      · rw [hafter']
        exact ht'
      · exact ⟨rest, rest', hafter, hafter', ht.consume_terminator ha,
          ht'.consume_terminator ha'⟩
  -- An error that is next is raised, and gone with that.
  · have he : e.isStatementError = true := hpart _ (List.mem_cons_self ..)
    have hpart' := fun x hx => hpart x (List.mem_cons_of_mem _ hx)
    obtain ⟨t, hl, hq, hp⟩ := TokenStream.lookahead_of_error hs.queue_eq
      ((Error.isStatementError_delay P.delay e).trans he)
    obtain ⟨t', hl', hq', hp'⟩ := TokenStream.lookahead_of_error hs'.queue_eq he
    exact .inr ⟨e, t, t', hl, hl', he, part, hpart', hs.of_samePlace hp hq,
      hs'.of_samePlace hp' hq'⟩
  -- A token of the statement stays there until it is consumed.
  · have hk : k.text ≠ ";" := hpart _ (List.mem_cons_self ..)
    have hpart' := fun x hx => hpart x (List.mem_cons_of_mem _ hx)
    obtain ⟨t, hl, hq, ha, hp⟩ := TokenStream.lookahead_of_ok hs.queue_eq
    obtain ⟨t', hl', hq', ha', hp'⟩ := TokenStream.lookahead_of_ok hs'.queue_eq
    have ht : Within P.before (.ok k :: part.map (Arrival.delay P.delay)) P.after t :=
      hs.of_samePlace hp hq
    have ht' : Within P.before' (.ok k :: part) P.after' t' := hs'.of_samePlace hp' hq'
    exact .inl ⟨.token k, t, t', hl, hl', ⟨.ok k :: part, hpart, ht, ht'⟩,
      .inl ⟨hk, part, hpart', ht.consume ha hk, ht'.consume ha' hk⟩, by simp⟩

/-! ## 3. Parsers in lockstep -/

/-- Two replies that come to the same result or the same error, the streams of a result
standing to each other as `R` says. Errors leave both readers inside. -/
def Pair.Agree {α : Type} (P : Pair) (R : TokenStream → TokenStream → Prop) :
    Reply α → Reply α → Prop
  | .ok a t, .ok b t' => a = b ∧ R t t'
  | .fail d t, .fail e t' =>
    d = e.delay P.delay ∧ e.isStatementError = true ∧ P.Inside t t'
  | _, _ => False

/-- Two replies that agree are both successes, or both failures inside the statement. -/
theorem Pair.Agree.cases {α : Type} {P : Pair} {R : TokenStream → TokenStream → Prop}
    {x y : Reply α} (h : P.Agree R x y) :
    (∃ a t t', x = .ok a t ∧ y = .ok a t' ∧ R t t') ∨
    (∃ e t t', x = .fail (e.delay P.delay) t ∧ y = .fail e t' ∧ e.isStatementError = true ∧
      P.Inside t t') := by
  rcases x with ⟨a, t⟩ | ⟨d, t⟩ <;> rcases y with ⟨b, t'⟩ | ⟨e, t'⟩
  · obtain ⟨rfl, ht⟩ := h
    exact .inl ⟨a, t, t', rfl, rfl, ht⟩
  · exact h.elim
  · exact h.elim
  · obtain ⟨rfl, he, hin⟩ := h
    exact .inr ⟨e, t, t', rfl, rfl, he, hin⟩

/-- Whether an error belongs to a statement and does not depend on where the text begins.
Only lexical errors do. -/
structure Error.IsUnplaced (e : Error) : Prop where
  ofStatement : e.isStatementError = true
  delay_eq : ∀ k, e.delay k = e

theorem Error.IsUnplaced.of_eq {α : Type} {d e : Error} (hd : d.IsUnplaced)
    (h : (.error d : Except Error α) = .error e) : e.IsUnplaced := by
  injection h with h
  rw [← h]
  exact hd

namespace Parser

variable {α β : Type}

/-- Whether a parser agrees on streams that hold the same statement, and leads where `R`
says. -/
def Leads (R : Pair → TokenStream → TokenStream → Prop) (p : Parser α) : Prop :=
  ∀ (P : Pair) (s s' : TokenStream), P.Inside s s' → P.Agree (R P) (p.run s) (p.run s')

/-- A parser that stays within a statement. -/
abbrev Local (p : Parser α) : Prop := p.Leads Pair.Inside

/-- A parser that reads a statement to its end. -/
abbrev Final (p : Parser α) : Prop := p.Leads Pair.Past

theorem Local.pure (a : α) : Local (pure a : Parser α) := fun _ _ _ h => ⟨rfl, h⟩

/-- A parser may fail by an error that names no line, as it is then the same error in both texts. -/
theorem Leads.fail {R : Pair → TokenStream → TokenStream → Prop} {e : Error}
    (he : e.IsUnplaced) : Leads R (Parser.fail e : Parser α) :=
  fun P _ _ h => ⟨(he.delay_eq P.delay).symm, he.ofStatement, h⟩

/-- What is looked up in a catalog depends on no line. -/
theorem Local.ofExcept {x : Except Error α} (hx : ∀ e, x = .error e → e.IsUnplaced) :
    Local (ofExcept x) := by
  rcases x with e | a
  · exact Leads.fail (hx e rfl)
  · exact Local.pure a

/-- Behind a parser that stays within the statement another one can be put. -/
theorem Local.bind {R : Pair → TokenStream → TokenStream → Prop} {p : Parser α}
    {f : α → Parser β} (hp : p.Local) (hf : ∀ a, (f a).Leads R) : (p >>= f).Leads R := by
  intro P s s' h
  rcases (hp P s s' h).cases with ⟨a, t, t', hr, hr', ht⟩ | ⟨e, t, t', hr, hr', hfail⟩ <;>
    rw [run_bind, run_bind, hr, hr']
  · exact hf a P t t' ht
  · exact ⟨rfl, hfail⟩

/-- Behind the statement a result can be made of what was read. -/
theorem Final.map {p : Parser α} (hp : p.Final) (f : α → β) :
    Final (do let a ← p; return f a) := by
  intro P s s' h
  rcases (hp P s s' h).cases with ⟨a, t, t', hr, hr', ht⟩ | ⟨e, t, t', hr, hr', hfail⟩ <;>
    rw [run_bind, run_bind, hr, hr']
  · exact ⟨rfl, ht⟩
  · exact ⟨rfl, hfail⟩

/-- Both branches of a choice that does not depend on the stream lead to the same. -/
theorem Leads.ite {R : Pair → TokenStream → TokenStream → Prop} {c : Prop} [Decidable c]
    {p q : Parser α} (hp : p.Leads R) (hq : q.Leads R) : (if c then p else q).Leads R := by
  split
  · exact hp
  · exact hq

/-! ### Questions about the next token -/

/-- Looking ahead first hands what stands next to what comes behind. -/
theorem run_lookahead_bind (f : Lookahead → Parser α) (s : TokenStream) :
    (lookahead >>= f).run s =
      match s.lookahead with
      | .ok a t => (f a).run t
      | .fail e t => .fail e t := by
  simp only [run_bind, lookahead]
  rcases s.lookahead with ⟨a, t⟩ | ⟨e, t⟩
  · rfl
  · rfl

/-- A parser that looks ahead first is judged by what it makes of what it sees. -/
theorem leads_lookahead {R : Pair → TokenStream → TokenStream → Prop} {f : Lookahead → Parser α}
    (hf : ∀ (P : Pair) a t t', P.Shows a t t' → P.Agree (R P) ((f a).run t) ((f a).run t')) :
    (lookahead >>= f).Leads R := by
  intro P s s' h
  rw [run_lookahead_bind, run_lookahead_bind]
  rcases Pair.lookahead_cases h with ⟨a, t, t', hl, hl', ha⟩ | ⟨e, t, t', hl, hl', he, hin⟩ <;>
    rw [hl, hl']
  · exact hf P a t t' ha
  · exact ⟨rfl, he, hin⟩

/-- Asking for the kind of what stands next consumes nothing. -/
theorem local_peekKind : Local peekKind := leads_lookahead fun _ _ _ _ ha => ⟨rfl, ha.inside⟩

/-- To consume what stands next if it has some property is to stay within the statement,
where the semicolon does not have the property. -/
theorem local_take {c : Lookahead → Prop} [DecidablePred c] {f : Lookahead → α}
    {p : Lookahead → Parser α} (hc : ¬c (.token .terminator)) (hp : ∀ a, (p a).Local) :
    Local (do
      let a ← lookahead
      if c a then
        consume
        return f a
      else p a) := by
  refine leads_lookahead fun P a t t' ha => ?_
  by_cases hca : c a
  · rw [if_pos hca]
    rcases ha.consume with ⟨-, hin⟩ | ⟨rfl, -⟩
    · exact ⟨rfl, hin⟩
    · exact absurd hca hc
  · rw [if_neg hca]
    exact hp a P t t' ha.inside

/-- A word is consumed within the statement, as it is not the semicolon. -/
theorem local_nextIf {text : String} (h : text ≠ ";") : Local (nextIf text) :=
  local_take (c := fun a => a.text = text) (f := fun _ => true) (fun hc => h hc.symm)
    fun _ => Local.pure false

theorem local_expect {text : String} (h : text ≠ ";") : Local (expect text) :=
  local_take (c := fun a => a.text = text) (f := Lookahead.text) (fun hc => h hc.symm)
    fun _ => Leads.fail ⟨rfl, fun _ => rfl⟩

/-- What is expected by its kind is no semicolon, so the statement is not left. -/
theorem local_expectKind {kind : Token.Kind} (h : kind ≠ .semicolon) :
    Local (expectKind kind) := by
  refine local_take (c := fun a => a.kindName = kind.name) (f := Lookahead.text) ?_
    fun _ => Leads.fail ⟨rfl, fun _ => rfl⟩
  rcases kind with _ | _ | _ | _ | _ | _ | _ | _
  all_goals first | exact absurd rfl h | decide

/-- The semicolon is what a statement ends with. -/
theorem final_expect : Final (expect ";") := by
  refine leads_lookahead fun P a t t' ha => ?_
  rcases ha.consume with ⟨hne, -⟩ | ⟨rfl, hpast⟩
  · rw [if_neg hne]
    exact ⟨rfl, rfl, ha.inside⟩
  · rw [if_pos (show Lookahead.text (.token .terminator) = ";" from rfl)]
    exact ⟨rfl, hpast⟩

/-! ### Lists -/

/-- What holds of a list at a place holds at every place, if it follows from its holding
behind the next item. -/
theorem more_induction {separator : String} (hsep : separator ≠ Lookahead.endOfInput.text)
    {p : Parser α} {motive : TokenStream → Prop}
    (h : ∀ s, (∀ t u a, (nextIf separator).run s = .ok true t → p.run t = .ok a u →
      motive u) → motive s) (s : TokenStream) : motive s := by
  induction hm : s.remaining using Nat.strongRecOn generalizing s with
  | _ m ih =>
    refine h s fun t u a ht hu => ih _ ?_ u rfl
    have hpt := precedes_of_ok ht
    have hpu := precedes_of_ok hu
    rw [← hm]
    exact (hpt.trans hpu).remaining_lt (Nat.lt_of_lt_of_le (consumed_of_nextIf hsep ht) hpu.1)

/-- The items of a list stay within the statement, since neither they nor the separator end it. The
induction is on what remains of the stream. -/
theorem local_more {separator : String} (hsep : separator ≠ Lookahead.endOfInput.text)
    (hne : separator ≠ ";") {item : Parser α} (hitem : item.Local) :
    Local (more separator item hsep) := by
  intro P s
  refine more_induction hsep (p := item)
    (motive := fun s => ∀ s', P.Inside s s' → P.Agree P.Inside ((more separator item hsep).run s)
      ((more separator item hsep).run s')) (fun s ih s' h => ?_) s
  rw [more_eq, run_bind, run_bind]
  rcases (local_nextIf hne P s s' h).cases with
    ⟨b, t, t', hr, hr', ht⟩ | ⟨e, t, t', hr, hr', hfail⟩ <;> rw [hr, hr']
  · rcases b with _ | _
    -- There was no separator, so the list ends.
    · exact ⟨rfl, ht⟩
    · dsimp only
      rw [if_pos rfl, run_bind, run_bind]
      rcases (hitem P t t' ht).cases with
        -- An item was read, and the further ones are read from streams with less left.
        ⟨a, u, u', hu, hu', hin⟩ | ⟨e, u, u', hu, hu', hfail⟩ <;> rw [hu, hu']
      · dsimp only
        rw [run_bind, run_bind]
        rcases (ih t u a hr hu u' hin).cases with
          ⟨as, v, v', hv, hv', hin'⟩ | ⟨e, v, v', hv, hv', hfail⟩ <;> rw [hv, hv']
        · exact ⟨rfl, hin'⟩
        · exact ⟨rfl, hfail⟩
      · exact ⟨rfl, hfail⟩
  · exact ⟨rfl, hfail⟩

/-- A list with its first item is within the statement as its parts are. -/
theorem local_separated {separator : String} (hsep : separator ≠ Lookahead.endOfInput.text)
    (hne : separator ≠ ";") {item : Parser α} (hitem : item.Local) :
    Local (separated separator item hsep) :=
  hitem.bind fun _ => (local_more hsep hne hitem).bind fun _ => Local.pure _

end Parser

/-! ## 4. The rules of the grammar -/

section Lookups

variable {n m : Nat}

/-- An unknown table is named by its name alone. -/
theorem Catalog.isUnplaced_of_lookup {c : Catalog} {name : String} {e : Error}
    (h : c.lookup name = .error e) : e.IsUnplaced := by
  unfold lookup at h
  split at h
  · simp at h
  · exact .of_eq ⟨rfl, fun _ => rfl⟩ h

/-- A repeated title is named by itself. -/
theorem Table.isUnplaced_of_withTitles {name : String} {titles : List String} {e : Error}
    (h : withTitles name titles = .error e) : e.IsUnplaced := by
  unfold withTitles at h
  split at h
  · exact .of_eq ⟨rfl, fun _ => rfl⟩ h
  · simp at h

/-- The three errors about a reference name the reference, and no line. -/
theorem ColumnRef.isUnplaced_of_resolve {r : ColumnRef} {w : Workspace n m}
    {cursors : List (Fin m)} {e : Error} (h : r.resolve w cursors = .error e) :
    e.IsUnplaced := by
  unfold resolve at h
  split at h
  · simp at h
  · split at h <;> exact .of_eq ⟨rfl, fun _ => rfl⟩ h
  · exact .of_eq ⟨rfl, fun _ => rfl⟩ h

/-- The first reference that cannot be resolved names the error. -/
theorem ColumnRef.isUnplaced_of_resolveAll {rs : List ColumnRef} {w : Workspace n m}
    {cursors : List (Fin m)} {e : Error} (h : resolveAll w cursors rs = .error e) :
    e.IsUnplaced := by
  unfold resolveAll at h
  induction rs with
  | nil => simp [List.mapM_nil, pure, Except.pure] at h
  | cons r rs ih =>
    rw [List.mapM_cons] at h
    rcases hr : r.resolve w cursors with d | b <;> rw [hr] at h
    · exact (isUnplaced_of_resolve hr).of_eq h
    · rcases hrs : rs.mapM (·.resolve w cursors) with d | bs <;> rw [hrs] at h ih
      · exact ih h
      · simp [bind, Except.bind, pure, Except.pure] at h

/-- A sign that is no relation is named by itself. -/
theorem Condition.isUnplaced_of_ofSymbol {left : BoundColumn m} {symbol : String}
    {right : Operand m} {e : Error} (h : ofSymbol left symbol right = .error e) :
    e.IsUnplaced := by
  unfold ofSymbol at h
  split at h
  · simp at h
  · exact .of_eq ⟨rfl, fun _ => rfl⟩ h

end Lookups

namespace Statement

open FlatQuery.Parser

theorem local_name : Local name := local_expectKind (by decide)

theorem local_literal : Local literal :=
  (local_expectKind (by decide)).bind fun _ => Local.pure _

/-- A reference is one name, or two with a dot between them. -/
theorem local_columnRef : Local columnRef :=
  local_name.bind fun _ => (local_nextIf (by decide)).bind fun _ =>
    Leads.ite (local_name.bind fun _ => Local.pure _) (Local.pure _)

/-- The name of a table is looked up in the catalog, which is the same for both. -/
theorem local_tableName (c : Catalog) : Local (tableName c) :=
  local_name.bind fun _ => Local.ofExcept fun _ => Catalog.isUnplaced_of_lookup

/-- A reference is resolved among the sources, which are the same for both. -/
theorem local_boundColumn (sources : List Table) : Local (boundColumn sources) :=
  local_columnRef.bind fun _ => Local.ofExcept fun _ => ColumnRef.isUnplaced_of_resolve

/-- An operand is a literal or a reference, by the kind of what stands next. -/
theorem local_operand (sources : List Table) : Local (operand sources) :=
  local_peekKind.bind fun _ => Leads.ite (local_literal.bind fun _ => Local.pure _)
    ((local_boundColumn sources).bind fun _ => Local.pure _)

theorem local_condition (sources : List Table) : Local (condition sources) :=
  (local_boundColumn sources).bind fun _ => (local_expectKind (by decide)).bind fun _ =>
    (local_operand sources).bind fun _ => Local.ofExcept fun _ =>
      Condition.isUnplaced_of_ofSymbol

/-- The conditions of a where clause are separated by a word. -/
theorem local_whereClause (sources : List Table) : Local (whereClause sources) :=
  (local_nextIf (by decide)).bind fun _ =>
    Leads.ite (local_separated _ (by decide) (local_condition sources)) (Local.pure _)

/-- A query is read in the order of its rule: columns, sources, conditions. -/
theorem local_query (c : Catalog) (resultName : String) : Local (query c resultName) := by
  refine (local_separated _ (by decide) local_columnRef).bind fun refs => ?_
  refine (Local.ofExcept fun _ => Table.isUnplaced_of_withTitles).bind fun result => ?_
  refine (local_expect (by decide)).bind fun _ => ?_
  refine (local_separated _ (by decide) (local_tableName c)).bind fun entries => ?_
  refine Leads.ite (Leads.fail ⟨rfl, fun _ => rfl⟩) ?_
  refine (local_whereClause _).bind fun conditions => ?_
  exact (Local.ofExcept fun _ => ColumnRef.isUnplaced_of_resolveAll).bind fun _ => Local.pure _

/-- A definition is a list of titles or a query, by the word that stands next. -/
theorem local_definition (c : Catalog) (tableName : String) :
    Local (definition c tableName) := by
  refine (local_nextIf (by decide)).bind fun _ => Leads.ite ?_ ?_
  · refine (local_separated _ (by decide) local_name).bind fun titles => ?_
    refine (local_expect (by decide)).bind fun _ => ?_
    exact (Local.ofExcept fun _ => Table.isUnplaced_of_withTitles).bind fun _ => Local.pure _
  · refine (local_expect (by decide)).bind fun _ => ?_
    refine (local_expect (by decide)).bind fun _ => ?_
    exact (local_query c tableName).bind fun _ => Local.pure _

/-- Values stand in parentheses or not, by what stands next. -/
theorem local_values : Local values := by
  refine (local_nextIf (by decide)).bind fun _ => ?_
  refine (local_separated _ (by decide) local_literal).bind fun vs => Leads.ite ?_ (Local.pure vs)
  exact (local_expect (by decide)).bind fun _ => Local.pure vs

/-! ### Statements behind their keywords -/

/-- What is created is named and defined, and the statement ends with its semicolon. -/
theorem final_createBody (c : Catalog) : Final (createBody c) := by
  refine (local_expect (by decide)).bind fun _ => ?_
  refine local_name.bind fun tableName => ?_
  exact (local_definition c tableName).bind fun d => final_expect.map _

theorem final_insertBody (c : Catalog) : Final (insertBody c) := by
  refine (local_expect (by decide)).bind fun _ => ?_
  refine (local_tableName c).bind fun target => ?_
  refine (local_expect (by decide)).bind fun _ => ?_
  exact local_values.bind fun vs => final_expect.map _

/-- Loads, stores and prints name a table and end with their semicolon. -/
theorem final_namedBody (build : String → Statement) : Final (namedBody build) :=
  local_name.bind fun _ => final_expect.map _

theorem final_selectBody (c : Catalog) : Final (selectBody c) :=
  (local_query c selectionName).bind fun _ => final_expect.map _

theorem final_exitBody : Final exitBody := final_expect.map _

/-- **Every statement ends at its semicolon.** -/
theorem final_body {c : Catalog} {keyword : String} {p : Parser Statement}
    (h : body? c keyword = some p) : Final p := by
  unfold body? at h
  split at h
  all_goals first | injection h with h | skip
  · rw [← h]
    exact final_createBody c
  · rw [← h]
    exact final_insertBody c
  · rw [← h]
    exact final_namedBody _
  · rw [← h]
    exact final_namedBody _
  · rw [← h]
    exact final_namedBody _
  · rw [← h]
    exact final_selectBody c
  · rw [← h]
    exact final_exitBody
  · rw [← h]
    exact final_exitBody
  · simp at h

/-! ## 5. Whole statements -/

/-- **A statement in lockstep.** Two readers of one statement both find the input at its
end, or both read the statement and stand behind it, or both are given one error and still
stand inside. -/
theorem next?_cases (c : Catalog) {P : Pair} {s s' : TokenStream} (h : P.Inside s s') :
    (∃ t t', (next? c).run s = .ok none t ∧ (next? c).run s' = .ok none t' ∧
      P.after = none ∧ t.queue = [] ∧ t'.queue = []) ∨
    (∃ st t t', (next? c).run s = .ok (some st) t ∧ (next? c).run s' = .ok (some st) t' ∧
      P.Past t t') ∨
    (∃ e t t', (next? c).run s = .fail (e.delay P.delay) t ∧ (next? c).run s' = .fail e t' ∧
      e.isStatementError = true ∧ P.Inside t t') := by
  rw [next?, run_lookahead_bind, run_lookahead_bind]
  rcases Pair.lookahead_cases h with ⟨a, t, t', hl, hl', ha⟩ | ⟨e, t, t', hl, hl', he, hin⟩ <;>
    rw [hl, hl'] <;> dsimp only
  · rcases a with k | _
    · dsimp only
      rcases hbody : body? c k.text with _ | p <;> dsimp only
      · exact .inr (.inr ⟨.unrecognizedCommand k.text, t, t', rfl, rfl, rfl, ha.inside⟩)
      · have hin : P.Inside t.consume t'.consume := by
          rcases ha.consume with ⟨-, hin⟩ | ⟨hk, -⟩
          · exact hin
          -- No statement begins with a semicolon.
          · injection hk with hk
            rw [hk] at hbody
            simp [body?, Token.terminator] at hbody
        simp only [run_bind, consume]
        rcases (final_body hbody P _ _ hin).cases with
          ⟨st, u, u', hr, hr', hpast⟩ | ⟨e, u, u', hr, hr', hfail⟩ <;> rw [hr, hr']
        · exact .inr (.inl ⟨st, u, u', rfl, rfl, hpast⟩)
        · exact .inr (.inr ⟨e, u, u', rfl, rfl, hfail⟩)
    · obtain ⟨hafter, hq, hq'⟩ := ha.at_end rfl
      exact .inl ⟨t, t', rfl, rfl, hafter, hq, hq'⟩
  · exact .inr (.inr ⟨e, t, t', rfl, rfl, he, hin⟩)

end Statement

namespace Parser

/-- One layer of passing, without the bookkeeping of its termination. -/
theorem run_skip (s : TokenStream) :
    skip.run s =
      match s.lookahead with
      | .fail e t => if e.isStatementError = true then skip.run t else .fail e t
      | .ok .endOfInput t => .ok () t
      | .ok (.token k) t => if k.text = ";" then .ok () t.consume else skip.run t.consume := by
  change (readSkip s).1 = _
  unfold readSkip
  split <;> rename_i h <;> rw [show s.lookahead = _ from h] <;> dsimp only
  · split <;> rfl
  · split <;> rfl

/-- Passing the rest of a statement leads behind its semicolon, or to the end where it has
none, whatever faults are on the way. Nothing is looked at behind the semicolon. -/
theorem skip_of_queue {part : List Arrival} {after : Option (List Arrival)} {s : TokenStream}
    (hpart : ∀ x ∈ part, x.IsInner) (hq : s.queue = part ++ closing after) :
    ∃ t, skip.run s = .ok () t ∧ t.queue = after.getD [] ∧
      (after.isSome = true → t.ahead? = none) := by
  induction part generalizing s with
  | nil =>
    rw [run_skip]
    -- Nothing but the semicolon is left to pass, or not even that.
    rcases after with _ | rest
    · obtain ⟨t, hl, hq, -, -⟩ := TokenStream.lookahead_of_nil hq
      rw [hl]
      exact ⟨t, rfl, hq, fun h => Bool.noConfusion h⟩
    · obtain ⟨t, hl, hq, ha, -⟩ := TokenStream.lookahead_of_ok hq
      rw [hl]
      dsimp only
      rw [if_pos (show Token.terminator.text = ";" from rfl)]
      refine ⟨_, rfl, ?_, fun _ => (TokenStream.consume_of_token ha).2.1⟩
      rw [(TokenStream.consume_of_token ha).1]
      rw [TokenStream.queue_of_token ha] at hq
      exact (List.cons.inj hq).2
  | cons x part ih =>
    have hx := hpart x (List.mem_cons_self ..)
    have hpart' := fun y hy => hpart y (List.mem_cons_of_mem _ hy)
    rw [run_skip]
    rcases x with e | k
    -- An error of the text is passed like a token.
    · obtain ⟨t, hl, hq, -⟩ := TokenStream.lookahead_of_error hq hx
      rw [hl]
      dsimp only
      rw [if_pos (show e.isStatementError = true from hx)]
      exact ih hpart' hq
    · obtain ⟨t, hl, hq, ha, -⟩ := TokenStream.lookahead_of_ok hq
      rw [hl]
      dsimp only
      rw [if_neg (show k.text ≠ ";" from hx)]
      apply ih hpart'
      rw [(TokenStream.consume_of_token ha).1]
      rw [TokenStream.queue_of_token ha] at hq
      exact (List.cons.inj hq).2

end Parser

end FlatQuery
