import FlatQuery.Proofs.Acceptance
import FlatQuery.Proofs.Composition

/-!
# What holds all along a run

There are three things a turn can come to: it meets the end of the input, it carries out a
command, or it reports an error. `Session.turn_cases` says for each of them what the turn
leaves behind. Whatever holds of all databases or errors of a run is proved by these cases
for one turn, and then for the run by `run_induction`.

So a property of databases that no command spoils is one that no run spoils, wherever the
run is stopped (`run_keeps` and `afterTurns_keeps`).
-/

set_option autoImplicit false

namespace FlatQuery

open FlatQuery.Phrase

/-! ## 1. The words of a text -/

/-- The value of a literal stays within a line. -/
theorem Token.IsLexical.notMem_literalValue {v : String}
    (h : Token.IsLexical ⟨.literal, v⟩) : '\n' ∉ (Statement.literalValue v).toList := by
  obtain ⟨body, rfl : v = _, hbody⟩ := h
  rw [Statement.literalValue, String.toList_ofList, String.toList_ofList]
  intro hmem
  have hmem := Text.mem_of_mem_trim hmem
  rw [List.drop_one, List.tail_cons, List.dropLast_concat] at hmem
  exact absurd (hbody _ hmem) (by decide)

/-! ## 2. What a statement does to the database -/

theorem exists_of_bind_eq_ok {α β : Type} {x : Except Error α} {f : α → Except Error β} {b : β}
    (h : x >>= f = .ok b) : ∃ a, x = .ok a ∧ f a = .ok b := by
  rcases x with e | a
  · cases h
  · exact ⟨a, rfl, h⟩

/-- A statement registers a table, changes one, loads or stores one, or leaves the database
as it is. -/
theorem Statement.execute_spec {db db' : Database} {st : Statement} {lines : List String}
    (h : st.execute db = .ok (db', lines)) :
    match st with
    | .create name d =>
      ∃ t, d.table = .ok t ∧ db' = { db with catalog := db.catalog.put name t }
    | .insert target values =>
      ∃ t isNew, target.table.add values = .ok (t, isNew) ∧
        db' = { db with catalog := db.catalog.update target.identity t }
    | .load name => db.load name = .ok db'
    | .store name => db.store name = .ok db'
    | _ => db' = db := by
  rcases st with ⟨name, d⟩ | ⟨target, values⟩ | name | name | name | q | _
  · obtain ⟨t, ht, h⟩ := exists_of_bind_eq_ok h
    injection h with h
    exact ⟨t, ht, (Prod.mk.inj h).1.symm⟩
  · rw [execute] at h
    split at h
    · cases h
    · obtain ⟨⟨t, isNew⟩, ht, h⟩ := exists_of_bind_eq_ok h
      injection h with h
      exact ⟨t, isNew, ht, (Prod.mk.inj h).1.symm⟩
  · obtain ⟨u, hu, h⟩ := exists_of_bind_eq_ok h
    injection h with h
    exact (Prod.mk.inj h).1 ▸ hu
  · obtain ⟨u, hu, h⟩ := exists_of_bind_eq_ok h
    injection h with h
    exact (Prod.mk.inj h).1 ▸ hu
  · obtain ⟨_, -, h⟩ := exists_of_bind_eq_ok h
    injection h with h
    exact (Prod.mk.inj h).1.symm
  · obtain ⟨_, -, h⟩ := exists_of_bind_eq_ok h
    injection h with h
    exact (Prod.mk.inj h).1.symm
  · injection h with h
    exact (Prod.mk.inj h).1.symm

namespace Session

/-! ## 3. Turns -/

/-- Whether an error is one that the next statement comes to: in reading it, or in carrying
it out. -/
def FailsBy (s : Session) (e : Error) : Prop :=
  (∃ t, (Statement.next? s.database.catalog).run s.stream = .fail e t) ∨
    ∃ (cmd : Command) (st : Statement), cmd.IsLexical ∧ cmd.Reads s.database.catalog st ∧
      st.execute s.database = .error e

/-- What a statement comes to, if to an error, it fails by. -/
theorem failsBy_of_statement {s u : Session} (hs : s.stream.IsLexical) {e : Error}
    (h : s.statement = (.error e, u)) : s.FailsBy e := by
  rw [statement_eq] at h
  rcases hr : (Statement.next? s.database.catalog).run s.stream with ⟨_ | st, t⟩ | ⟨d, t⟩ <;>
    rw [hr] at h
  · cases h
  · obtain ⟨cmd, hlexical, hreads⟩ := reads_of_next? hs hr
    dsimp only at h
    rcases hst : st.execute s.database with d | ⟨db, lines⟩ <;> rw [hst] at h
    · injection h with h
      injection h with h
      exact .inr ⟨cmd, st, hlexical, hreads, h ▸ hst⟩
    · cases h
  · injection h with h
    injection h with h
    exact .inl ⟨t, h ▸ hr⟩

section Regular

variable {s : Session} (hs : ∀ x ∈ s.stream.queue, x.IsRegular)
include hs

/-- **What a turn comes to.** It ends the session at the end of the input, or carries out a
command, or reports an error and goes on. Only a command changes the database. -/
theorem turn_cases :
    (∃ t, s.turn = .ended t .inputEnded ∧ t.database = s.database ∧ t.printed = s.printed) ∨
    (∃ (cmd : Command) (st : Statement) (lines : List String), cmd.IsLexical ∧
      cmd.Reads s.database.catalog st ∧
      st.execute s.database = .ok (s.turn.session.database, lines) ∧
      s.turn.session.printed = s.printed ++ lines.map .line ∧
      ∀ t how, s.turn = .ended t how → how = .left) ∨
    (∃ e t, s.turn = .going t ∧ s.FailsBy e ∧ t.database = s.database ∧
      t.printed = s.printed ++ [.failure e]) := by
  have hstream : s.stream.IsLexical := fun k hk => hs (.ok k) hk
  -- Whatever a statement fails by, the session goes on.
  have hfails {e : Error} {u : Session} (h : s.statement = (.error e, u)) :
      ∃ e t, s.turn = .going t ∧ s.FailsBy e ∧ t.database = s.database ∧
        t.printed = s.printed ++ [.failure e] := by
    obtain ⟨t, hturn, -, hdatabase, hprinted⟩ := going_of_failure hs h
    exact ⟨e, t, hturn, failsBy_of_statement hstream h, hdatabase, hprinted⟩
  rcases hr : (Statement.next? s.database.catalog).run s.stream with ⟨_ | st, t⟩ | ⟨e, t⟩
  · exact .inl ⟨s.readTo t, turn_of_end hr, rfl, printed_readTo s t⟩
  -- A statement was read, and is a command of the language.
  · obtain ⟨cmd, hlexical, hreads⟩ := reads_of_next? hstream hr
    rcases hst : st.execute s.database with e | ⟨db, lines⟩
    · exact .inr (.inr (hfails (statement_of_refused hr hst)))
    · have hprinted : ((s.readTo t).carryOut db lines).printed =
          s.printed ++ lines.map .line := by
        rw [printed_carryOut, printed_readTo]
      refine .inr (.inl ⟨cmd, st, lines, hlexical, hreads, ?_⟩)
      rw [turn_of_done hr hst]
      rcases st.continues with _ | _
      · refine ⟨hst, hprinted, fun u how hu => ?_⟩
        injection hu with _ hhow
        exact hhow.symm
      · exact ⟨hst, hprinted, fun u how hu => by cases hu⟩
  · exact .inr (.inr (hfails (statement_of_fail hr)))

/-- What is still to come after a turn was to come before it. -/
theorem mem_of_going {t : Session} (h : s.turn = .going t) :
    ∀ x ∈ t.stream.queue, x ∈ s.stream.queue := by
  obtain ⟨part, after, hpart, hq⟩ := exists_part hs
  rw [queue_of_going hs h, hq, behindFirst_append hpart]
  intro x hx
  rcases after with _ | rest
  · exact absurd hx List.not_mem_nil
  · exact List.mem_append_right _ (List.mem_cons_of_mem _ hx)

theorem isRegular_of_going {t : Session} (h : s.turn = .going t) :
    ∀ x ∈ t.stream.queue, x.IsRegular :=
  fun x hx => hs x (mem_of_going hs h x hx)

end Regular

/-! ## 4. Runs -/

/-- **What a run ends with**, where `I` holds before every turn and makes the last turn end
with `F`. -/
theorem run_induction {I : Session → Prop} {F : Session × Ending → Prop}
    (hgoing : ∀ s t, I s → s.turn = .going t → I t)
    (hended : ∀ s t how, I s → s.turn = .ended t how → F (t, how)) {s : Session} (hs : I s) :
    F s.run := by
  induction hm : s.stream.remaining using Nat.strongRecOn generalizing s with
  | _ m ih =>
    rcases hturn : s.turn with ⟨t, how⟩ | t
    · rw [run_of_ended hturn]
      exact hended s t how hs hturn
    · rw [run_of_going hturn]
      exact ih _ (hm ▸ turn_going hturn) (hgoing s t hs hturn) rfl

/-- A run over what a text gives comes to its end, and no error breaks it off. -/
theorem ending_of_run {s : Session} (hs : ∀ x ∈ s.stream.queue, x.IsRegular) :
    s.run.2 = .left ∨ s.run.2 = .inputEnded :=
  run_induction (I := fun t => ∀ x ∈ t.stream.queue, x.IsRegular)
    (F := fun r => r.2 = .left ∨ r.2 = .inputEnded)
    (fun _ _ ht hu => isRegular_of_going ht hu)
    (fun _ _ _ ht hu => (ending_of_ended ht hu).imp id And.left) hs

end Session

/-- Whether no command spoils a property of databases. -/
def Database.KeptByCommands (P : Database → Prop) : Prop :=
  ∀ (db db' : Database) (cmd : Command) (st : Statement) (lines : List String), P db →
    cmd.IsLexical → cmd.Reads db.catalog st → st.execute db = .ok (db', lines) → P db'

namespace Session

section Keeps

variable {P : Database → Prop} (hP : Database.KeptByCommands P)
include hP

theorem turn_keeps {s : Session} (hs : ∀ x ∈ s.stream.queue, x.IsRegular)
    (h : P s.database) : P s.turn.session.database := by
  rcases turn_cases hs with
    ⟨t, hturn, hdatabase, -⟩ | ⟨cmd, st, lines, hlexical, hreads, hst, -⟩ |
    ⟨e, t, hturn, -, hdatabase, -⟩
  · rw [hturn]
    exact hdatabase ▸ h
  · exact hP _ _ cmd st lines h hlexical hreads hst
  · rw [hturn]
    exact hdatabase ▸ h

/-- A property that no command spoils holds at the end of a run if it holds at its
beginning. -/
theorem run_keeps {s : Session} (hs : ∀ x ∈ s.stream.queue, x.IsRegular)
    (h : P s.database) : P s.run.1.database := by
  refine run_induction (I := fun s => (∀ x ∈ s.stream.queue, x.IsRegular) ∧ P s.database)
    (F := fun r => P r.1.database) ?_ ?_ ⟨hs, h⟩
  · rintro s t ⟨hs, h⟩ hturn
    have hkeeps := turn_keeps hP hs h
    rw [hturn] at hkeeps
    exact ⟨isRegular_of_going hs hturn, hkeeps⟩
  · rintro s t how ⟨hs, h⟩ hturn
    have hkeeps := turn_keeps hP hs h
    rw [hturn] at hkeeps
    exact hkeeps

/-- So it does wherever the run is broken off. -/
theorem afterTurns_keeps {n : Nat} {s t : Session} (hs : ∀ x ∈ s.stream.queue, x.IsRegular)
    (h : P s.database) (ht : s.afterTurns n = some t) : P t.database := by
  induction n generalizing s with
  | zero =>
    injection ht with ht
    exact ht ▸ h
  | succ n ih =>
    unfold afterTurns at ht
    have hkeeps := turn_keeps hP hs h
    rcases hturn : s.turn with ⟨u, how⟩ | u <;> rw [hturn] at ht hkeeps
    · simp at ht
    · exact ih (isRegular_of_going hs hturn) hkeeps ht

end Keeps

end Session

end FlatQuery
