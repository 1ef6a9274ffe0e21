import FlatQuery.Proofs.Parallel
import FlatQuery.Proofs.Reload

/-!
# Scripts that are left alone

A script is a file, and while it runs its statements may store tables into files. So the file
is looked at again behind every turn, and what has not been read of it is as it is then. As
long as no table is stored into the script's own file this changes nothing. A source has before
it what its file holds behind the position of the source
(`TokenStream.invariant_readsAlong`); a turn that stores a table changes the file of that table
and no other (`Session.files_of_turn`), and moves no path to another place
(`FileSystem.locate_of_put`). A script that is left alone therefore runs like any other text
(`Session.runScript_of_leaves`).

Which tables a run stores is read off its deeds, the list of what its turns come to. So the
condition is about the run itself and not about the words of its text.
-/

set_option autoImplicit false

namespace FlatQuery

/-! ## 1. Reading along a file -/

namespace Source

variable {content : Bytes} {s t : Source}

theorem unread_of_readBlock (hs : s.unread = content.drop s.position)
    (h : s.readBlock = .ok t) : t.unread = content.drop t.position := by
  have hskip : content.drop (s.position + (s.unread.take blockSize).length) =
      s.unread.drop blockSize := by
    rw [← List.drop_drop, ← hs, List.length_take]
    -- The last block may be short, and then nothing is left behind it.
    by_cases hlength : blockSize ≤ s.unread.length
    · rw [Nat.min_eq_left hlength]
    · rw [Nat.min_eq_right (by omega), List.drop_length, List.drop_of_length_le (by omega)]
  unfold readBlock at h
  dsimp only at h
  rcases hdecode : Text.Utf8.decodeBlock (s.carried ++ s.unread.take blockSize) with
    f | ⟨cs, carried⟩ <;> rw [hdecode] at h
  · cases h
  · injection h with h
    rw [← h]
    exact hskip.symm

/-- Wherever a source has got to in a file, the rest of the file is before it. -/
theorem unread_of_readLine {text : List Char} (hs : s.unread = content.drop s.position)
    (h : s.readLine = .line text t) : t.unread = content.drop t.position := by
  fun_induction readLine s with
  | case1 s cut hcut =>
    injection h with _ h
    rw [← h]
    exact hs
  | case2 s cut hcut hu =>
    unfold lastLine at h
    split at h
    · cases h
    · split at h
      · cases h
      · dsimp only at h
        split at h
        · cases h
        · injection h with _ h
          rw [← h]
          exact hs
  | case3 s cut hcut hu f hb => cases h
  | case4 s cut hcut hu u hb ih => exact ih (unread_of_readBlock hs hb) h

end Source

namespace TokenStream

/-- Whether a stream has before it what the file of a content holds behind its position. -/
def ReadsAlong (content : Bytes) (s : TokenStream) : Prop :=
  s.source.unread = content.drop s.source.position

theorem ReadsAlong.read {content : Bytes} {s : TokenStream} (h : s.ReadsAlong content) :
    s.read.rest.ReadsAlong content := by
  fun_induction TokenStream.read s with
  | case1 s e scanner hn tok hf => exact h
  | case2 s e scanner hn f hf => exact h
  | case3 s scanner hn t hx => exact h
  | case4 s scanner hn t hx text source hl ih => exact ih (Source.unread_of_readLine h hl)
  | case5 s scanner hn t hx hl => exact h
  | case6 s scanner hn t hx f hl => exact h

/-- **A stream goes on reading along its file.** -/
theorem invariant_readsAlong (content : Bytes) :
    Invariant fun _ s => s.ReadsAlong content where
  lookahead := by
    intro past s h
    have hread := h.read
    rcases ha : s.ahead? with _ | a
    · rcases hr : s.read with ⟨a, t⟩ | ⟨e, t⟩ <;> rw [hr] at hread
      · rw [lookahead_of_read ha hr]
        exact hread
      · rw [lookahead_of_fail ha hr]
        exact hread
    · rw [lookahead_of_some ha]
      exact h
  consume := by
    intro past s h
    unfold TokenStream.consume
    split
    · exact h
    · exact h
  forgetRequests := fun h => h

end TokenStream

/-! ## 2. What a turn writes -/

namespace Session

/-- What a session comes to later on it comes to. -/
theorem mem_deeds_of_going {s t : Session} (h : s.turn = .going t) {d : Deed}
    (hd : d ∈ t.deeds) : d ∈ s.deeds := by
  rw [deeds, h]
  exact List.mem_append_right _ hd

theorem mem_deeds_of_deed? {s : Session} {d : Deed} (h : s.deed? = some d) : d ∈ s.deeds := by
  rw [deeds, h]
  exact List.mem_append_left _ (List.mem_singleton_self d)

/-- **A turn writes no file but that of a table it stores.** -/
theorem files_of_turn (s : Session) :
    s.turn.session.database.directory = s.database.directory ∧
    (s.turn.session.database.files = s.database.files ∨
      ∃ name place content, .done (.store name) ∈ s.deeds ∧
        s.database.files.locate (s.database.pathOf name) = .ok place ∧ place ≠ [] ∧
        s.turn.session.database.files = s.database.files.put place (.file content)) := by
  have hseen := congrArg Prod.fst (turn_seen s)
  change s.turn.session.database = _ at hseen
  rcases hdeed : s.deed? with _ | st | e <;> rw [hdeed] at hseen
  · rw [hseen]
    exact ⟨rfl, .inl rfl⟩
  · change _ = (Deed.account s.seen (.done st)).1 at hseen
    rw [Deed.account, show s.seen.1 = s.database from rfl] at hseen
    rcases hst : st.execute s.database with e | ⟨db, lines⟩ <;> rw [hst] at hseen
    · rw [hseen]
      exact ⟨rfl, .inl rfl⟩
    · change _ = db at hseen
      rw [hseen]
      have hspec := Statement.execute_spec hst
      -- Of all statements that are carried out only a store touches a file.
      rcases st with ⟨name, d⟩ | ⟨target, values⟩ | name | name | name | q | _
      · obtain ⟨t, -, rfl⟩ := hspec
        exact ⟨rfl, .inl rfl⟩
      · obtain ⟨t, isNew, -, rfl⟩ := hspec
        exact ⟨rfl, .inl rfl⟩
      · obtain ⟨t, -, rfl⟩ := Database.load_spec hspec
        exact ⟨rfl, .inl rfl⟩
      · obtain ⟨entry, -, hwrite⟩ := Database.store_spec hspec
        obtain ⟨-, files, hfiles, rfl⟩ := Database.writeTable_spec hwrite
        obtain ⟨place, hlocate, hplace, -, rfl⟩ := FileSystem.writeFile_spec hfiles
        exact ⟨rfl, .inr ⟨name, place, _, mem_deeds_of_deed? hdeed, hlocate, hplace, rfl⟩⟩
      · rw [hspec]
        exact ⟨rfl, .inl rfl⟩
      · rw [hspec]
        exact ⟨rfl, .inl rfl⟩
      · rw [hspec]
        exact ⟨rfl, .inl rfl⟩
  · change _ = s.database at hseen
    rw [hseen]
    exact ⟨rfl, .inl rfl⟩

/-! ## 3. Running a script -/

/-- Whether a session reads a script, the file at a place with a content, and stores no table
into it. -/
structure Leaves (place : List String) (content : Bytes) (s : Session) : Prop where
  file : s.database.files.node? place = some (.file content)
  reads : s.Has fun _ t => t.ReadsAlong content
  stores : ∀ name, .done (.store name) ∈ s.deeds →
    s.database.files.locate (s.database.pathOf name) ≠ .ok place

variable {place : List String} {content : Bytes} {s : Session}

/-- **What a turn stores elsewhere leaves the script alone.** -/
theorem Leaves.going {t : Session} (h : s.Leaves place content) (ht : s.turn = .going t) :
    t.Leaves place content := by
  obtain ⟨hfile, hreads, hstores⟩ := h
  obtain ⟨hdirectory, hfiles⟩ := files_of_turn s
  have hgoing := hreads.going (TokenStream.invariant_readsAlong content) ht
  rw [ht] at hdirectory hfiles
  change t.database.directory = _ at hdirectory
  have hpath (name : String) : t.database.pathOf name = s.database.pathOf name := by
    rw [Database.pathOf, Database.pathOf, hdirectory]
  rcases hfiles with hfiles | ⟨stored, place', content', hmem, hlocate, hplace, hfiles⟩
  · change t.database.files = _ at hfiles
    refine ⟨?_, hgoing, fun name hname => ?_⟩
    · rw [hfiles]
      exact hfile
    · rw [hfiles, hpath]
      exact hstores name (mem_deeds_of_going ht hname)
  · change t.database.files = _ at hfiles
    refine ⟨?_, hgoing, fun name hname hto => ?_⟩
    -- The file that was written is not the script, and no path leads to the script now that
    -- did not before.
    · have hne : place ≠ place' := fun heq => hstores stored hmem (heq ▸ hlocate)
      rw [hfiles, FileSystem.node?_put hplace, if_neg hne]
      exact hfile
    · rw [hfiles, hpath] at hto
      exact hstores name (mem_deeds_of_going ht hname) (FileSystem.locate_of_put hplace _ hto)

/-- **A script that is left alone runs like any other text.** -/
theorem runScript_of_leaves (h : s.Leaves place content) (k : Nat) :
    s.runScript place k = s.run :=
  runScript_eq_run (Leaves place content)
    (fun _ ht => readOn_eq_self ht.file ht.reads) (fun _ _ ht hu => ht.going hu) k h

end Session

end FlatQuery
