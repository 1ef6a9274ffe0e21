import FlatQuery.Proofs.Rearranging
import FlatQuery.Proofs.Visiting

/-!
# What a reference is bound to

What a reference means among some cursors is a matter of counting: the cursors are listed that
are over a table of the name the reference gives, if it gives one, and with a column of its
title (`ColumnRef.suppliers`), and the reference means something where this list has one member.
It is places of the list that are counted. Two cursors over one table, or over two tables of one
name, are two members, and so is a cursor that is listed twice.

Resolution does not count. It binds the reference under every cursor that can supply it and looks
at how many columns come of that, so the first step is that both lists go together
(`map_cursor_filterMap_bind?`). The number of the column is then the only one there is, since no
title of a table repeats, and that is why the column keeps its meaning wherever its cursor goes:
a row has one value under each title (`Denotes.value_eq`).
-/

set_option autoImplicit false

namespace FlatQuery

/-- A list of evaluations fails with an error exactly when the first of them that fails does. -/
theorem mapM_eq_error_iff {α β : Type} {f : α → Except Error β} {xs : List α} {e : Error} :
    xs.mapM f = .error e ↔ ∃ before x after, xs = before ++ x :: after ∧
      (∀ b ∈ before, ∃ y, f b = .ok y) ∧ f x = .error e := by
  refine ⟨mapM_eq_error, ?_⟩
  rintro ⟨before, x, after, rfl, hbefore, hx⟩
  induction before with
  | nil =>
    rw [List.nil_append, List.mapM_cons, hx]
    rfl
  | cons b before ih =>
    obtain ⟨⟨y, hy⟩, hrest⟩ := List.forall_mem_cons.1 hbefore
    rw [List.cons_append, List.mapM_cons, hy, ih hrest]
    rfl

namespace ColumnRef

variable {n m : Nat}

/-! ## 1. One cursor -/

theorem admits_iff {r : ColumnRef} {t : Table} :
    r.admits t = true ↔ ∀ q, r.table? = some q → t.name = q := by
  unfold admits
  rcases r.table? with _ | q
  · simp
  · simp

/-- Whether a bound column is of the title that a reference gives, and of no other number. -/
structure Denotes (r : ColumnRef) (w : Workspace n m) (b : BoundColumn m) : Prop where
  name_eq : b.name = r.name
  index_eq : ∃ k : Nat, b.index = k ∧
    ∀ l, (w.tableUnder b.cursor).titles[l]? = some r.name ↔ l = k

/-- Under one cursor a reference has one meaning at most. -/
theorem Denotes.unique {r : ColumnRef} {w : Workspace n m} {b c : BoundColumn m}
    (hb : r.Denotes w b) (hc : r.Denotes w c) (hcursor : b.cursor = c.cursor) : b = c := by
  obtain ⟨hname, k, hk, htitle⟩ := hb
  obtain ⟨hname', l, hl, htitle'⟩ := hc
  obtain ⟨cursor, index, name⟩ := b
  obtain ⟨cursor', index', name'⟩ := c
  dsimp only at *
  subst hcursor
  have hkl : k = l := (htitle' k).1 ((htitle k).2 rfl)
  rw [hname, hname', hk, hl, hkl]

theorem denotes_of_bind? {r : ColumnRef} {w : Workspace n m} {c : Fin m} {b : BoundColumn m}
    (h : r.bind? w c = some b) : r.Denotes w b := by
  obtain ⟨hcursor, k, hk, htitle⟩ := bind?_eq_some h
  refine ⟨?_, k, hk, fun l => ?_⟩
  · unfold bind? at h
    split at h
    · obtain ⟨k, -, rfl⟩ := Option.map_eq_some_iff.1 h
      rfl
    · cases h
  · rw [hcursor]
    constructor
    · -- A title stands at one place only.
      intro hl
      obtain ⟨hlt, -⟩ := List.getElem?_eq_some_iff.1 hl
      exact (List.getElem?_inj hlt (Table.titles_nodup _)).1 (hl.trans htitle.symm)
    · intro hl
      rw [hl]
      exact htitle

/-- **The value of a column is that of its title**, in whatever row its cursor has come to
stand on. -/
theorem Denotes.value_eq {r : ColumnRef} {w v : Workspace n m} {b : BoundColumn m}
    (h : r.Denotes w b)
    (htitles : (v.tableUnder b.cursor).titles = (w.tableUnder b.cursor).titles) {row : Row}
    (hrow : v.row? b.cursor = some row) :
    ∃ x, ((v.tableUnder b.cursor).titles.zip row).lookup r.name = some x ∧ b.value v = .ok x := by
  obtain ⟨-, k, hk, htitle⟩ := h
  have hat : (v.tableUnder b.cursor).titles[k]? = some r.name := by
    rw [htitles, htitle]
  have hlt : k < row.length := by
    rw [Workspace.length_of_row? hrow]
    exact (List.getElem?_eq_some_iff.1 hat).1
  refine ⟨row[k], ?_, ?_⟩
  · rw [lookup_zip (Table.titles_nodup _) hat, List.getElem?_eq_getElem hlt]
  · have hget : signedGet? row b.index = some row[k] := by
      rw [hk]
      exact List.getElem?_eq_getElem hlt
    rw [BoundColumn.value, Workspace.value, hrow]
    dsimp only
    rw [Row.field, hget]

/-! ## 2. Several cursors -/

/-- The members of a list of cursors that can supply a reference. -/
def suppliers (r : ColumnRef) (w : Workspace n m) (cs : List (Fin m)) : List (Fin m) :=
  cs.filter fun c => r.Matches (w.tableUnder c)

/-- The columns that resolution finds are one for each cursor that can supply it. -/
theorem map_cursor_filterMap_bind? (r : ColumnRef) (w : Workspace n m) (cs : List (Fin m)) :
    (cs.filterMap (r.bind? w)).map BoundColumn.cursor = r.suppliers w cs := by
  unfold suppliers
  induction cs with
  | nil => rfl
  | cons c cs ih =>
    rcases hc : r.bind? w c with _ | b
    · have hnot : ¬ r.Matches (w.tableUnder c) := by
        rw [← bind?_isSome, hc]
        exact Bool.false_ne_true
      rw [List.filterMap_cons_none hc, ih, List.filter_cons_of_neg (by simpa using hnot)]
    · have hmatches : r.Matches (w.tableUnder c) := by
        rw [← bind?_isSome, hc]
        rfl
      rw [List.filterMap_cons_some hc, List.map_cons, ih, (bind?_eq_some hc).1,
        List.filter_cons_of_pos (by simpa using hmatches)]

/-- **A reference is bound to the only cursor that can supply it.** -/
theorem resolve_eq_ok_iff_suppliers {r : ColumnRef} {w : Workspace n m} {cs : List (Fin m)}
    {b : BoundColumn m} :
    r.resolve w cs = .ok b ↔ r.suppliers w cs = [b.cursor] ∧ r.Denotes w b := by
  have hfound : ∀ d ∈ cs.filterMap (r.bind? w), r.Denotes w d := by
    intro d hd
    obtain ⟨c, -, hc⟩ := List.mem_filterMap.1 hd
    exact denotes_of_bind? hc
  rw [resolve_eq_ok_iff, ← map_cursor_filterMap_bind?]
  constructor
  · intro h
    rw [h] at hfound ⊢
    exact ⟨rfl, hfound b (List.mem_singleton.2 rfl)⟩
  · rintro ⟨hcursors, hb⟩
    obtain ⟨d, hd, hcursor⟩ := List.map_eq_singleton_iff.1 hcursors
    rw [hd] at hfound ⊢
    rw [(hfound d (List.mem_singleton.2 rfl)).unique hb hcursor]

/-- Whether a reference fails among some cursors with an error of a text. Where nothing supplies
it, its qualifier is at fault if there is one that no cursor's table has as its name. -/
inductive Misses (r : ColumnRef) (w : Workspace n m) (cs : List (Fin m)) : String → Prop where
  | ambiguous (several : 2 ≤ (r.suppliers w cs).length) :
      Misses r w cs s!"ambiguous column: {r.toString}"
  | unknownTable {q : String} (qualified : r.table? = some q)
      (foreign : ∀ c ∈ cs, (w.tableUnder c).name ≠ q) :
      Misses r w cs s!"unknown table in column reference: {r.toString}"
  | unknownColumn (nowhere : r.suppliers w cs = [])
      (known : ∀ q, r.table? = some q → ∃ c ∈ cs, (w.tableUnder c).name = q) :
      Misses r w cs s!"unknown column: {r.toString}"

theorem isForeign_iff {r : ColumnRef} {w : Workspace n m} {cs : List (Fin m)} :
    r.isForeign w cs = true ↔
      ∃ q, r.table? = some q ∧ ∀ c ∈ cs, (w.tableUnder c).name ≠ q := by
  unfold isForeign admits
  rcases r.table? with _ | q
  · simp
  · simp

/-- A table that a qualifier does not name supplies nothing. -/
theorem suppliers_of_foreign {r : ColumnRef} {w : Workspace n m} {cs : List (Fin m)} {q : String}
    (hq : r.table? = some q) (hforeign : ∀ c ∈ cs, (w.tableUnder c).name ≠ q) :
    r.suppliers w cs = [] := by
  refine List.filter_eq_nil_iff.2 fun c hc hmatches => hforeign c hc ?_
  exact admits_iff.1 (of_decide_eq_true hmatches).1 q hq

/-- Resolution fails where several cursors can supply the reference, and where none can. -/
theorem resolve_eq_error_iff {r : ColumnRef} {w : Workspace n m} {cs : List (Fin m)} {e : Error} :
    r.resolve w cs = .error e ↔
      (2 ≤ (r.suppliers w cs).length ∧ e = .ambiguousColumn r) ∨
      (r.suppliers w cs = [] ∧ r.isForeign w cs = true ∧ e = .unknownTableInReference r) ∨
      (r.suppliers w cs = [] ∧ r.isForeign w cs = false ∧ e = .unknownColumn r) := by
  rw [← map_cursor_filterMap_bind?]
  unfold resolve
  rcases cs.filterMap (r.bind? w) with _ | ⟨b, _ | ⟨c, rest⟩⟩
  · dsimp only
    rcases r.isForeign w cs with _ | _
    · simp [eq_comm]
    · simp [eq_comm]
  · simp
  · constructor
    · intro h
      exact .inl ⟨by simp, (Except.error.inj h).symm⟩
    · rintro (⟨-, rfl⟩ | ⟨hnone, -⟩ | ⟨hnone, -⟩)
      · rfl
      · cases hnone
      · cases hnone

theorem resolve_error_iff {r : ColumnRef} {w : Workspace n m} {cs : List (Fin m)} {text : String} :
    (∃ e, r.resolve w cs = .error e ∧ e.message = text) ↔ r.Misses w cs text := by
  simp only [resolve_eq_error_iff]
  constructor
  · rintro ⟨e, ⟨hseveral, rfl⟩ | ⟨-, hforeign, rfl⟩ | ⟨hnone, hknown, rfl⟩, rfl⟩
    · exact .ambiguous hseveral
    · obtain ⟨q, hq, hothers⟩ := isForeign_iff.1 hforeign
      exact .unknownTable hq hothers
    · refine .unknownColumn hnone fun q hq => ?_
      by_contra hno
      rw [isForeign_iff.2 ⟨q, hq, fun c hc hname => hno ⟨c, hc, hname⟩⟩] at hknown
      cases hknown
  · rintro (hseveral | ⟨hq, hothers⟩ | ⟨hnone, hknown⟩)
    · exact ⟨_, .inl ⟨hseveral, rfl⟩, rfl⟩
    · exact ⟨_, .inr (.inl
        ⟨suppliers_of_foreign hq hothers, isForeign_iff.2 ⟨_, hq, hothers⟩, rfl⟩), rfl⟩
    · refine ⟨_, .inr (.inr ⟨hnone, ?_, rfl⟩), rfl⟩
      refine Bool.eq_false_iff.2 fun hforeign => ?_
      obtain ⟨q, hq, hothers⟩ := isForeign_iff.1 hforeign
      obtain ⟨c, hc, hname⟩ := hknown q hq
      exact hothers c hc hname

theorem resolve_congr (r : ColumnRef) {v w : Workspace n m} (cs : List (Fin m))
    (h : ∀ c, v.tableUnder c = w.tableUnder c) : r.resolve v cs = r.resolve w cs := by
  have hbind : r.bind? v = r.bind? w := by
    funext c
    rw [bind?, bind?, h c]
  have hforeign : r.isForeign v cs = r.isForeign w cs := by
    unfold isForeign
    simp only [h]
  rw [resolve, resolve, hbind, hforeign]

/-! ## 3. Resolution -/

/-- **Resolution is exact, and no position plays a part in it.** A reference is bound where one
member of the list can supply it, and then to that cursor, at the one number whose title is the
reference's; where several can it is ambiguous, and where none can, what is told to be unknown is
its qualifier or its column. On which rows the cursors stand makes no difference. What a reference
is bound to has the value under its title in every row that the cursor comes to stand on, as long
as the table has these titles. Of several references all are bound, in their order, or the first
that fails is told. -/
theorem resolve_exact (w : Workspace n m) (cs : List (Fin m)) :
    (∀ r : ColumnRef,
      ((∃ b, r.resolve w cs = .ok b) ↔ (r.suppliers w cs).length = 1) ∧
      (∀ b, r.resolve w cs = .ok b ↔ r.suppliers w cs = [b.cursor] ∧ r.Denotes w b) ∧
      (∀ text, (∃ e, r.resolve w cs = .error e ∧ e.message = text) ↔ r.Misses w cs text) ∧
      (∀ v : Workspace n m, (∀ c, v.tableUnder c = w.tableUnder c) →
        r.resolve v cs = r.resolve w cs) ∧
      ∀ b, r.resolve w cs = .ok b → ∀ v : Workspace n m,
        (v.tableUnder b.cursor).titles = (w.tableUnder b.cursor).titles →
        ∀ row, v.row? b.cursor = some row →
          ∃ x, ((v.tableUnder b.cursor).titles.zip row).lookup r.name = some x ∧
            b.value v = .ok x) ∧
    ∀ rs : List ColumnRef,
      (∀ bs, resolveAll w cs rs = .ok bs ↔
        List.Forall₂ (fun r b => r.resolve w cs = .ok b) rs bs) ∧
      ∀ e, resolveAll w cs rs = .error e ↔ ∃ before r after, rs = before ++ r :: after ∧
        (∀ s ∈ before, ∃ b, s.resolve w cs = .ok b) ∧ r.resolve w cs = .error e := by
  refine ⟨fun r => ⟨?_, fun b => resolve_eq_ok_iff_suppliers, fun text => resolve_error_iff,
      fun v h => resolve_congr r cs h, ?_⟩,
    fun rs => ⟨fun bs => Statement.mapM_eq_ok_iff, fun e => mapM_eq_error_iff⟩⟩
  · constructor
    · rintro ⟨b, hb⟩
      rw [(resolve_eq_ok_iff_suppliers.1 hb).1]
      rfl
    · intro hone
      rw [← map_cursor_filterMap_bind?, List.length_map] at hone
      obtain ⟨b, hb⟩ := List.length_eq_one_iff.1 hone
      exact ⟨b, resolve_eq_ok_iff.2 hb⟩
  · intro b hb v htitles row hrow
    exact (resolve_eq_ok_iff_suppliers.1 hb).2.value_eq htitles hrow

/-- Of two cursors over one table either supplies its column, and only one that is listed alone
is meant by it. It is followed to its second row. The empty qualifier names no table here. -/
theorem resolve_exact_pair :
    let w := Workspace.ofTables [Session.pairTable, Session.pairTable]
    (⟨"a", some "t"⟩ : ColumnRef).resolve w [1] = .ok ⟨1, 0, "a"⟩ ∧
      (⟨1, 0, "a"⟩ : BoundColumn 2).value (w.moveTo 1 1) = .ok "y" ∧
      (∃ e, (⟨"a", none⟩ : ColumnRef).resolve w [0, 1] = .error e ∧
        e.message = "ambiguous column: a") ∧
      ∃ e, (⟨"a", some ""⟩ : ColumnRef).resolve w [0, 1] = .error e ∧
        e.message = "unknown table in column reference: .a" := by
  intro w
  have hbound : (⟨"a", some "t"⟩ : ColumnRef).resolve w [1] = .ok ⟨1, 0, "a"⟩ := by
    decide +kernel
  obtain ⟨-, -, -, -, hvalue⟩ := (resolve_exact w [1]).1 ⟨"a", some "t"⟩
  obtain ⟨x, hlookup, hx⟩ := hvalue _ hbound (w.moveTo 1 1) (by decide +kernel) ["y"]
    (by decide +kernel)
  have hy : x = "y" := Option.some.inj (hlookup.symm.trans (by decide +kernel))
  obtain ⟨-, -, hambiguous, -⟩ := (resolve_exact w [0, 1]).1 ⟨"a", none⟩
  obtain ⟨-, -, hforeign, -⟩ := (resolve_exact w [0, 1]).1 ⟨"a", some ""⟩
  exact ⟨hbound, hy ▸ hx, (hambiguous _).2 (.ambiguous (by decide +kernel)),
    (hforeign _).2 (.unknownTable (q := "") rfl (by decide +kernel))⟩

end ColumnRef

end FlatQuery
