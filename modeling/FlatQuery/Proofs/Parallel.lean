import FlatQuery.Proofs.Invariance

/-!
# Runs side by side

Whatever is read from a stream is read by two operations, looking ahead and consuming. So a
relation between two streams that these two keep, the results being equal, is kept by every
parser of the shell (`Statement.parallel_next?`, `Parser.parallel_skip`), by every turn of two
sessions with one database, and by their runs (`Session.Parallel.run`). The relation is free.
It may say that the streams take their lines from different kinds of sources, or say of a
single stream, put beside itself, what is true of it all the time.

A session moves the requests of its stream into its log after each piece of reading. The
relation is therefore given the requests in the log as well, so that it can speak of all
requests that were ever made.
-/

set_option autoImplicit false

namespace FlatQuery

/-- Two replies that are alike are both successes with one value, or both failures with one error.
-/
theorem Reply.Alike.cases {α : Type} {R : TokenStream → TokenStream → Prop} {x y : Reply α}
    (h : x.Alike R y) :
    (∃ a t t', x = .ok a t ∧ y = .ok a t' ∧ R t t') ∨
    (∃ e t t', x = .fail e t ∧ y = .fail e t' ∧ R t t') := by
  rcases x with ⟨a, t⟩ | ⟨d, t⟩ <;> rcases y with ⟨b, t'⟩ | ⟨e, t'⟩
  · obtain ⟨rfl, ht⟩ := h
    exact .inl ⟨a, t, t', rfl, rfl, ht⟩
  · exact h.elim
  · exact h.elim
  · obtain ⟨rfl, ht⟩ := h
    exact .inr ⟨d, t, t', rfl, rfl, ht⟩

/-! ## 1. Parsers -/

/-- Whether a relation between streams is kept by looking ahead and by consuming. -/
structure TokenStream.Kept (R : TokenStream → TokenStream → Prop) : Prop where
  lookahead : ∀ {s s'}, R s s' → s.lookahead.Alike R s'.lookahead
  consume : ∀ {s s'}, R s s' → R s.consume s'.consume

namespace Parser

variable {α β : Type} {R : TokenStream → TokenStream → Prop}

/-- Whether a parser comes to the same on related streams, and leaves them related. -/
def Parallel (R : TokenStream → TokenStream → Prop) (p : Parser α) : Prop :=
  ∀ s s', R s s' → (p.run s).Alike R (p.run s')

theorem Parallel.pure (a : α) : Parallel R (pure a : Parser α) := fun _ _ h => ⟨rfl, h⟩

theorem Parallel.fail (e : Error) : Parallel R (Parser.fail e : Parser α) :=
  fun _ _ h => ⟨rfl, h⟩

/-- What is looked up does not touch the streams. -/
theorem Parallel.ofExcept (x : Except Error α) : Parallel R (ofExcept x) := by
  rcases x with e | a
  · exact .fail e
  · exact .pure a

/-- What comes behind starts from streams that are related. -/
theorem Parallel.bind {p : Parser α} {f : α → Parser β} (hp : p.Parallel R)
    (hf : ∀ a, (f a).Parallel R) : (p >>= f).Parallel R := by
  intro s s' h
  rw [run_bind, run_bind]
  rcases (hp s s' h).cases with ⟨a, t, t', hr, hr', ht⟩ | ⟨e, t, t', hr, hr', ht⟩ <;>
    rw [hr, hr']
  · exact hf a t t' ht
  · exact ⟨rfl, ht⟩

/-- Both branches of a choice that does not depend on the streams are parallel. -/
theorem Parallel.ite {c : Prop} [Decidable c] {p q : Parser α} (hp : p.Parallel R)
    (hq : q.Parallel R) : (if c then p else q).Parallel R := by
  split
  · exact hp
  · exact hq

variable (hR : TokenStream.Kept R)
include hR

/-- Looking ahead is the first of the two operations that a relation has to be kept by. -/
theorem parallel_lookahead : Parallel R lookahead := fun _ _ => hR.lookahead

/-- Consuming is the second of them. -/
theorem parallel_consume : Parallel R consume := fun _ _ h => ⟨rfl, hR.consume h⟩

theorem parallel_peekKind : Parallel R peekKind :=
  (parallel_lookahead hR).bind fun _ => .pure _

/-- To consume what stands next if it has some property, and do something else if not. -/
theorem parallel_take {c : Lookahead → Prop} [DecidablePred c] {f : Lookahead → α}
    {p : Lookahead → Parser α} (hp : ∀ a, (p a).Parallel R) :
    Parallel R (do
      let a ← lookahead
      if c a then
        consume
        return f a
      else p a) :=
  (parallel_lookahead hR).bind fun a =>
    .ite ((parallel_consume hR).bind fun _ => .pure _) (hp a)

/-- A word is compared with what stands next, which is the same in both. -/
theorem parallel_nextIf (text : String) : Parallel R (nextIf text) :=
  parallel_take hR fun _ => .pure _

/-- Where another word stands next than was expected, it is the same in both. -/
theorem parallel_expect (text : String) : Parallel R (expect text) :=
  parallel_take hR fun _ => .fail _

theorem parallel_expectKind (kind : Token.Kind) : Parallel R (expectKind kind) :=
  parallel_take hR fun _ => .fail _

/-- The items of a list are read in step. The induction is on what remains of the first stream. -/
theorem parallel_more {separator : String} (hsep : separator ≠ Lookahead.endOfInput.text)
    {item : Parser α} (hitem : item.Parallel R) : (more separator item hsep).Parallel R := by
  intro s
  refine more_induction hsep (p := item)
    (motive := fun s => ∀ s', R s s' → ((more separator item hsep).run s).Alike R
      ((more separator item hsep).run s')) (fun s ih s' h => ?_) s
  rw [more_eq, run_bind, run_bind]
  rcases (parallel_nextIf hR separator s s' h).cases with
    ⟨b, t, t', hr, hr', ht⟩ | ⟨e, t, t', hr, hr', ht⟩ <;> rw [hr, hr']
  · rcases b with _ | _
    · exact ⟨rfl, ht⟩
    · dsimp only
      rw [if_pos rfl, run_bind, run_bind]
      rcases (hitem t t' ht).cases with
        ⟨a, u, u', hu, hu', huu⟩ | ⟨e, u, u', hu, hu', huu⟩ <;> rw [hu, hu']
      · dsimp only
        rw [run_bind, run_bind]
        rcases (ih t u a hr hu u' huu).cases with
          ⟨as, v, v', hv, hv', hvv⟩ | ⟨e, v, v', hv, hv', hvv⟩ <;> rw [hv, hv']
        · exact ⟨rfl, hvv⟩
        · exact ⟨rfl, hvv⟩
      · exact ⟨rfl, huu⟩
  · exact ⟨rfl, ht⟩

/-- A list is an item, and then more of them. -/
theorem parallel_separated {separator : String} (hsep : separator ≠ Lookahead.endOfInput.text)
    {item : Parser α} (hitem : item.Parallel R) : (separated separator item hsep).Parallel R :=
  hitem.bind fun _ => (parallel_more hR hsep hitem).bind fun _ => .pure _

/-- The rest of a statement is passed in step, errors of the text included. -/
theorem parallel_skip : Parallel R skip := by
  intro s
  induction hm : s.remaining using Nat.strongRecOn generalizing s with
  | _ m ih =>
    intro s' h
    have hspec := s.lookahead_spec
    rw [run_skip, run_skip]
    rcases (hR.lookahead h).cases with ⟨a, t, t', hl, hl', ht⟩ | ⟨e, t, t', hl, hl', ht⟩ <;>
      rw [hl] at hspec <;> rw [hl, hl'] <;> dsimp only at hspec ⊢
    · rcases a with k | _
      · dsimp only
        split
        · exact ⟨rfl, hR.consume ht⟩
        -- Passing a token leaves less than there was.
        · have hlt : t.consume.remaining < t.remaining :=
            t.precedes_consume.remaining_lt (by
              rw [TokenStream.consumed_consume hspec.1]
              omega)
          exact ih _ (by omega) t.consume rfl _ (hR.consume ht)
      · exact ⟨rfl, ht⟩
    · split
      · rename_i he
        exact ih _ (hm ▸ hspec.2.2 he) t rfl _ ht
      · exact ⟨rfl, ht⟩

end Parser

/-! ## 2. The rules of the grammar -/

namespace Statement

open FlatQuery.Parser

variable {R : TokenStream → TokenStream → Prop} (hR : TokenStream.Kept R)
include hR

theorem parallel_name : Parallel R name := parallel_expectKind hR _

theorem parallel_literal : Parallel R literal :=
  (parallel_expectKind hR _).bind fun _ => .pure _

/-- A reference is one name, or two with a dot between them. -/
theorem parallel_columnRef : Parallel R columnRef :=
  (parallel_name hR).bind fun _ => (parallel_nextIf hR _).bind fun _ =>
    .ite ((parallel_name hR).bind fun _ => .pure _) (.pure _)

/-- The name is the same in both, and so is what it is looked up in. -/
theorem parallel_tableName (c : Catalog) : Parallel R (tableName c) :=
  (parallel_name hR).bind fun _ => .ofExcept _

theorem parallel_boundColumn (sources : List Table) : Parallel R (boundColumn sources) :=
  (parallel_columnRef hR).bind fun _ => .ofExcept _

/-- An operand is a literal or a reference, by the kind of what stands next. -/
theorem parallel_operand (sources : List Table) : Parallel R (operand sources) :=
  (parallel_peekKind hR).bind fun _ => .ite ((parallel_literal hR).bind fun _ => .pure _)
    ((parallel_boundColumn hR sources).bind fun _ => .pure _)

theorem parallel_condition (sources : List Table) : Parallel R (condition sources) :=
  (parallel_boundColumn hR sources).bind fun _ => (parallel_expectKind hR _).bind fun _ =>
    (parallel_operand hR sources).bind fun _ => .ofExcept _

theorem parallel_whereClause (sources : List Table) : Parallel R (whereClause sources) :=
  (parallel_nextIf hR _).bind fun _ =>
    .ite (parallel_separated hR _ (parallel_condition hR sources)) (.pure _)

/-- A query is read in the order of its rule: columns, sources, conditions. -/
theorem parallel_query (c : Catalog) (resultName : String) :
    Parallel R (query c resultName) := by
  refine (parallel_separated hR _ (parallel_columnRef hR)).bind fun refs => ?_
  refine Parallel.bind (.ofExcept _) fun result => (parallel_expect hR _).bind fun _ => ?_
  refine (parallel_separated hR _ (parallel_tableName hR c)).bind fun entries => ?_
  refine .ite (.fail _) ((parallel_whereClause hR _).bind fun conditions => ?_)
  exact Parallel.bind (.ofExcept _) fun _ => .pure _

/-- A definition is a list of titles or a query, by the word that stands next. -/
theorem parallel_definition (c : Catalog) (tableName : String) :
    Parallel R (definition c tableName) := by
  refine (parallel_nextIf hR _).bind fun _ => .ite ?_ ?_
  · refine (parallel_separated hR _ (parallel_name hR)).bind fun titles => ?_
    exact (parallel_expect hR _).bind fun _ => Parallel.bind (.ofExcept _) fun _ => .pure _
  · refine (parallel_expect hR _).bind fun _ => (parallel_expect hR _).bind fun _ => ?_
    exact (parallel_query hR c tableName).bind fun _ => .pure _

/-- Values stand in parentheses or not, by what stands next. -/
theorem parallel_values : Parallel R values := by
  refine (parallel_nextIf hR _).bind fun _ => ?_
  refine (parallel_separated hR _ (parallel_literal hR)).bind fun vs => .ite ?_ (.pure vs)
  exact (parallel_expect hR _).bind fun _ => .pure vs

/-- The keyword decides which body is read, and each of them is parallel. -/
theorem parallel_body {c : Catalog} {keyword : String} {p : Parser Statement}
    (h : body? c keyword = some p) : Parallel R p := by
  have hnamed (build : String → Statement) : Parallel R (namedBody build) :=
    (parallel_name hR).bind fun _ => (parallel_expect hR _).bind fun _ => .pure _
  have hexit : Parallel R exitBody := (parallel_expect hR _).bind fun _ => .pure _
  unfold body? at h
  split at h
  all_goals first | injection h with h; rw [← h] | cases h
  · refine (parallel_expect hR _).bind fun _ => (parallel_name hR).bind fun tableName => ?_
    exact (parallel_definition hR c tableName).bind fun _ =>
      (parallel_expect hR _).bind fun _ => .pure _
  · refine (parallel_expect hR _).bind fun _ => (parallel_tableName hR c).bind fun _ => ?_
    refine (parallel_expect hR _).bind fun _ => (parallel_values hR).bind fun _ => ?_
    exact (parallel_expect hR _).bind fun _ => .pure _
  · exact hnamed _
  · exact hnamed _
  · exact hnamed _
  · exact (parallel_query hR c selectionName).bind fun _ =>
      (parallel_expect hR _).bind fun _ => .pure _
  · exact hexit
  · exact hexit

/-- **Statements are read side by side.** -/
theorem parallel_next? (c : Catalog) : Parallel R (next? c) := by
  refine (parallel_lookahead hR).bind fun a => ?_
  rcases a with k | _
  · dsimp only
    rcases hbody : body? c k.text with _ | p
    · exact .fail _
    · exact (parallel_consume hR).bind fun _ => (parallel_body hR hbody).bind fun _ => .pure _
  · exact .pure none

end Statement

/-! ## 3. Sessions -/

/-- The request that an item of a transcript is, if it is one. -/
def Shown.request? : Shown → Option Request
  | .request r => some r
  | _ => none

/-- The requests in a transcript. -/
def Transcript.requests (t : Transcript) : List Request := t.filterMap Shown.request?

theorem Transcript.requests_append (t u : Transcript) :
    requests (t ++ u) = requests t ++ requests u := List.filterMap_append

/-- A transcript of requests alone is those requests. -/
theorem Transcript.requests_map (rs : List Request) : requests (rs.map .request) = rs := by
  rw [requests, List.filterMap_map]
  exact List.filterMap_some

/-- Lines that are shown are no requests. -/
theorem Transcript.requests_lines (lines : List String) : requests (lines.map .line) = [] := by
  rw [requests, List.filterMap_map, List.filterMap_eq_nil_iff]
  exact fun _ _ => rfl

theorem Transcript.requests_reverse (t : Transcript) :
    requests t.reverse = t.requests.reverse := List.filterMap_reverse

/-- Whether a relation between streams, which may depend on the requests that were put on
record before, is kept by reading and by putting further requests on record, and tells no
streams apart that a session tells apart. -/
structure TokenStream.Simulation (R : List Request → TokenStream → TokenStream → Prop) :
    Prop where
  kept : ∀ past, Kept (R past)
  forgetRequests : ∀ {past s s'}, R past s s' →
    R (s.asked ++ past) s.forgetRequests s'.forgetRequests
  asked_eq : ∀ {past s s'}, R past s s' → s.asked = s'.asked
  samePlace : ∀ {past s s'}, R past s s' → s.SamePlace s'

namespace Session

/-- Whether two sessions have related streams, and else are the same. -/
structure Parallel (R : List Request → TokenStream → TokenStream → Prop) (s s' : Session) :
    Prop where
  stream : R (Transcript.requests s.log) s.stream s'.stream
  database : s.database = s'.database
  log : s.log = s'.log

variable {R : List Request → TokenStream → TokenStream → Prop}

/-- What is told leaves sessions side by side, if no request is in it. -/
theorem Parallel.tell {s s' : Session} (h : Parallel R s s') {more : Transcript}
    (hmore : more.requests = []) : Parallel R (s.tell more) (s'.tell more) := by
  have hrequests : Transcript.requests (s.tell more).log = Transcript.requests s.log := by
    rw [Session.tell, Transcript.requests_append, Transcript.requests_reverse, hmore]
    rfl
  refine ⟨?_, h.database, ?_⟩
  · rw [hrequests]
    exact h.stream
  · rw [Session.tell, Session.tell, h.log]

/-- A statement that is carried out leaves sessions side by side. -/
theorem Parallel.carryOut {s s' : Session} (h : Parallel R s s') (db : Database)
    (lines : List String) : Parallel R (s.carryOut db lines) (s'.carryOut db lines) := by
  have hdatabase : Parallel R { s with database := db } { s' with database := db } :=
    ⟨h.stream, rfl, h.log⟩
  exact hdatabase.tell (Transcript.requests_lines lines)

variable (hR : TokenStream.Simulation R)
include hR

/-- Sessions that have read on in step have asked for the same number of lines. -/
theorem Parallel.readTo {s s' : Session} (h : Parallel R s s') {t t' : TokenStream}
    (ht : R (Transcript.requests s.log) t t') : Parallel R (s.readTo t) (s'.readTo t') := by
  refine ⟨?_, h.database, ?_⟩
  · have hforget := hR.forgetRequests ht
    rwa [Session.readTo, Transcript.requests_append, Transcript.requests_map]
  · rw [Session.readTo, Session.readTo, hR.asked_eq ht, h.log]

/-- What is read of two sessions is the same, and leaves them side by side. -/
theorem Parallel.parse {α : Type} {s s' : Session} (h : Parallel R s s') {p : Parser α}
    (hp : ∀ past, p.Parallel (R past)) :
    (s.parse p).1 = (s'.parse p).1 ∧ Parallel R (s.parse p).2 (s'.parse p).2 := by
  unfold Session.parse
  rcases (hp _ _ _ h.stream).cases with ⟨a, t, t', hr, hr', ht⟩ | ⟨e, t, t', hr, hr', ht⟩ <;>
    rw [hr, hr']
  · exact ⟨rfl, h.readTo hR ht⟩
  · exact ⟨rfl, h.readTo hR ht⟩

/-- A statement that is read in step is carried out on one database. -/
theorem Parallel.statement {s s' : Session} (h : Parallel R s s') :
    s.statement.1 = s'.statement.1 ∧ Parallel R s.statement.2 s'.statement.2 := by
  have hnext := Statement.parallel_next? (hR.kept (Transcript.requests s.log))
    s.database.catalog _ _ h.stream
  rw [statement_eq, statement_eq, ← h.database]
  rcases hnext.cases with ⟨st?, t, t', hr, hr', ht⟩ | ⟨e, t, t', hr, hr', ht⟩ <;>
    rw [hr, hr']
  · have hread := h.readTo hR ht
    rcases st? with _ | st
    · exact ⟨rfl, hread⟩
    · dsimp only
      rcases st.execute s.database with e | ⟨db, lines⟩
      · exact ⟨rfl, hread⟩
      · exact ⟨rfl, hread.carryOut db lines⟩
  · exact ⟨rfl, h.readTo hR ht⟩

omit hR in
/-- Whether two turns come to the same and leave their sessions side by side. -/
def Progress.Parallel (R : List Request → TokenStream → TokenStream → Prop) :
    Progress → Progress → Prop
  | .ended t how, .ended t' how' => how = how' ∧ Session.Parallel R t t'
  | .going t, .going t' => Session.Parallel R t t'
  | _, _ => False

omit hR in
/-- Two turns that are parallel both end their sessions, and in the same way, or both go on. -/
theorem Progress.Parallel.cases {x y : Progress} (h : Progress.Parallel R x y) :
    (∃ t t' how, x = .ended t how ∧ y = .ended t' how ∧ Session.Parallel R t t') ∨
    (∃ t t', x = .going t ∧ y = .going t' ∧ Session.Parallel R t t') := by
  rcases x with ⟨t, how⟩ | t <;> rcases y with ⟨t', how'⟩ | t'
  · obtain ⟨rfl, ht⟩ := h
    exact .inl ⟨t, t', how, rfl, rfl, ht⟩
  · exact h.elim
  · exact h.elim
  · exact .inr ⟨t, t', rfl, rfl, h⟩

/-- What was consumed is the same in both, so both pass the rest of the statement or neither. -/
theorem Parallel.recover {s s' : Session} (h : Parallel R s s') (before : Nat) (e : Error) :
    Progress.Parallel R (s.recover before e) (s'.recover before e) := by
  have htold : Parallel R (s.tell [.failure e]) (s'.tell [.failure e]) := h.tell rfl
  -- Reports do not touch the streams, so both have consumed as much.
  obtain ⟨hconsumed, hmid⟩ := hR.samePlace htold.stream
  have hstart : (s'.tell [.failure e]).stream.atStatementStart =
      (s.tell [.failure e]).stream.atStatementStart := congrArg Bool.not hmid
  rw [Session.recover, Session.recover]
  by_cases he : e.isStatementError = true
  · rw [if_pos he, if_pos he]
    dsimp only
    rw [hconsumed, hstart]
    split
    · obtain ⟨hresult, hskipped⟩ := htold.parse hR
        (p := Parser.skip) fun past => Parser.parallel_skip (hR.kept past)
      rw [skip, skip]
      rcases hs : (s.tell [.failure e]).parse Parser.skip with ⟨x, t⟩
      rcases hs' : (s'.tell [.failure e]).parse Parser.skip with ⟨y, t'⟩
      rw [hs, hs'] at hresult hskipped
      obtain rfl : x = y := hresult
      rcases x with d | _
      · exact ⟨rfl, hskipped⟩
      · exact hskipped
    · exact htold
  · rw [if_neg he, if_neg he]
    exact ⟨rfl, h⟩

/-- **Turns are taken side by side.** -/
theorem Parallel.turn {s s' : Session} (h : Parallel R s s') :
    Progress.Parallel R s.turn s'.turn := by
  obtain ⟨hresult, hsessions⟩ := h.statement hR
  obtain ⟨hconsumed, -⟩ := hR.samePlace h.stream
  rw [Session.turn, Session.turn]
  rcases hs : s.statement with ⟨x, t⟩
  rcases hs' : s'.statement with ⟨y, t'⟩
  rw [hs, hs'] at hresult hsessions
  obtain rfl : x = y := hresult
  rcases x with e | _ | _ | _
  · rw [hconsumed]
    exact hsessions.recover hR _ e
  · exact hsessions
  · exact ⟨rfl, hsessions⟩
  · exact ⟨rfl, hsessions⟩

/-- **Two runs side by side come to the same.** They end for one reason, with one database,
and have shown the same. -/
theorem Parallel.run {s s' : Session} (h : Parallel R s s') :
    s.run.2 = s'.run.2 ∧ Parallel R s.run.1 s'.run.1 := by
  induction hm : s.stream.remaining using Nat.strongRecOn generalizing s s' with
  | _ m ih =>
    rcases (h.turn hR).cases with ⟨t, t', how, ht, ht', hstep⟩ | ⟨t, t', ht, ht', hstep⟩
    · rw [run_of_ended ht, run_of_ended ht']
      exact ⟨rfl, hstep⟩
    · rw [run_of_going ht, run_of_going ht']
      exact ih _ (hm ▸ turn_going ht) hstep rfl

/-- As long as one of them goes on, so does the other. -/
theorem Parallel.afterTurns {n : Nat} {s s' t' : Session} (h : Parallel R s s')
    (ht' : s'.afterTurns n = some t') : ∃ t, s.afterTurns n = some t ∧ Parallel R t t' := by
  induction n generalizing s s' with
  | zero =>
    injection ht' with ht'
    exact ⟨s, rfl, ht' ▸ h⟩
  | succ n ih =>
    rw [Session.afterTurns] at ht'
    rcases (h.turn hR).cases with ⟨u, u', how, hu, hu', -⟩ | ⟨u, u', hu, hu', hstep⟩ <;>
      rw [hu'] at ht'
    · cases ht'
    · obtain ⟨t, ht, hrest⟩ := ih hstep ht'
      refine ⟨t, ?_, hrest⟩
      rw [Session.afterTurns, hu]
      exact ht

/-- Turn by turn they come to the same deeds. -/
theorem Parallel.deeds {s s' : Session} (h : Parallel R s s') : s.deeds = s'.deeds := by
  induction hm : s.stream.remaining using Nat.strongRecOn generalizing s s' with
  | _ m ih =>
    have hdeed : s.deed? = s'.deed? := by
      unfold deed?
      rw [← h.database]
      rcases (Statement.parallel_next? (hR.kept _) s.database.catalog _ _ h.stream).cases with
        ⟨st?, t, t', hr, hr', -⟩ | ⟨e, t, t', hr, hr', -⟩ <;> rw [hr, hr']
      rcases st? with _ | st
      · rfl
      · rfl
    rw [Session.deeds, Session.deeds, hdeed]
    rcases (h.turn hR).cases with ⟨t, t', how, ht, ht', -⟩ | ⟨t, t', ht, ht', hstep⟩ <;>
      rw [ht, ht']
    exact congrArg _ (ih _ (hm ▸ turn_going ht) hstep rfl)

end Session

/-! ## 4. One session beside itself -/

/-- Whether a property of streams, which may depend on the requests that were put on record
before, is kept by reading and by putting further requests on record. -/
structure TokenStream.Invariant (I : List Request → TokenStream → Prop) : Prop where
  lookahead : ∀ {past s}, I past s → I past s.lookahead.rest
  consume : ∀ {past s}, I past s → I past s.consume
  forgetRequests : ∀ {past s}, I past s → I (s.asked ++ past) s.forgetRequests

/-- A property that is kept is a relation of streams to themselves that is kept. -/
theorem TokenStream.Invariant.simulation {I : List Request → TokenStream → Prop}
    (hI : Invariant I) : Simulation fun past s s' => s = s' ∧ I past s where
  kept past := by
    refine ⟨?_, ?_⟩
    · rintro s _ ⟨rfl, h⟩
      have hrest := hI.lookahead h
      rcases hl : s.lookahead with ⟨a, t⟩ | ⟨e, t⟩ <;> rw [hl] at hrest
      · exact ⟨rfl, rfl, hrest⟩
      · exact ⟨rfl, rfl, hrest⟩
    · rintro s _ ⟨rfl, h⟩
      exact ⟨rfl, hI.consume h⟩
  forgetRequests := by
    rintro past s _ ⟨rfl, h⟩
    exact ⟨rfl, hI.forgetRequests h⟩
  asked_eq := by
    rintro past s _ ⟨rfl, -⟩
    rfl
  samePlace := by
    rintro past s _ ⟨rfl, -⟩
    exact ⟨rfl, rfl⟩

namespace Session

/-- Whether a property holds of the stream of a session, given the requests in its log. -/
def Has (I : List Request → TokenStream → Prop) (s : Session) : Prop :=
  I (Transcript.requests s.log) s.stream

variable {I : List Request → TokenStream → Prop} (hI : TokenStream.Invariant I)
include hI

omit hI in
/-- A session with an invariant is beside itself. -/
theorem Has.parallel {s : Session} (h : s.Has I) :
    Parallel (fun past s s' => s = s' ∧ I past s) s s := ⟨⟨rfl, h⟩, rfl, rfl⟩

/-- What is kept by reading is kept by a statement. -/
theorem Has.statement {s : Session} (h : s.Has I) : s.statement.2.Has I :=
  (h.parallel.statement hI.simulation).2.stream.2

/-- **What is kept by reading is kept by a turn.** -/
theorem Has.turn {s : Session} (h : s.Has I) : s.turn.session.Has I := by
  rcases (h.parallel.turn hI.simulation).cases with
    ⟨t, t', how, ht, -, htt⟩ | ⟨t, t', ht, -, htt⟩ <;>
    rw [ht] <;> exact htt.stream.2

/-- Where a turn goes on, the invariant goes on with it. -/
theorem Has.going {s t : Session} (h : s.Has I) (ht : s.turn = .going t) : t.Has I := by
  have hturn := h.turn hI
  rwa [ht] at hturn

/-- What is kept by reading is kept to the end of a run. -/
theorem Has.run {s : Session} (h : s.Has I) : s.run.1.Has I := by
  refine run_induction (I := Has I) (F := fun r => r.1.Has I) (fun s t hs ht => hs.going hI ht)
    (fun s t how hs ht => ?_) h
  have hturn := hs.turn hI
  rwa [ht] at hturn

/-- What is kept by reading is kept over any number of turns. -/
theorem Has.afterTurns {n : Nat} {s t : Session} (h : s.Has I) (ht : s.afterTurns n = some t) :
    t.Has I := by
  induction n generalizing s with
  | zero =>
    injection ht with ht
    exact ht ▸ h
  | succ n ih =>
    unfold Session.afterTurns at ht
    rcases hturn : s.turn with ⟨u, how⟩ | u <;> rw [hturn] at ht
    · simp at ht
    · exact ih (h.going hI hturn) ht

end Session

end FlatQuery
