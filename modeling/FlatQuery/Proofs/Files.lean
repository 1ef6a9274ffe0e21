import FlatQuery.Database.Basic

/-!
# Which tables can be loaded and stored

A table can be loaded when its file is there, is text, and is a table's: its first line has
no title twice and every further line has as many values as the first
(`Database.load_isOk_iff`). It can be stored when it is registered and its path leads to a
place that is no directory (`Database.store_isOk_iff`).
-/

set_option autoImplicit false

namespace FlatQuery

/-! ## 1. Tables in files -/

namespace Table

theorem withTitles_spec {name : String} {titles : List String} {t : Table}
    (h : withTitles name titles = .ok t) : t.name = name ∧ t.titles = titles ∧ t.rows = [] := by
  unfold withTitles at h
  split at h
  · simp at h
  · injection h with h
    rw [← h]
    exact ⟨rfl, rfl, rfl⟩

theorem withTitles_isOk_iff {name : String} {titles : List String} :
    (∃ t, withTitles name titles = .ok t) ↔ titles.Nodup := by
  have hnone : firstRepeat? [] titles = none ↔ titles.Nodup := by
    rw [firstRepeat?_eq_none]
    exact and_iff_left fun _ _ => List.not_mem_nil
  rw [← hnone, withTitles]
  split
  · rename_i h
    simp [h]
  · rename_i h
    simp [h]

theorem addLines_isOk_iff {t : Table} {file : String} {number : Nat} {lines : List (List Char)} :
    (∃ u, t.addLines file number lines = .ok u) ↔
      ∀ line ∈ lines, (decodeLine line).length = t.titles.length := by
  induction lines generalizing t number with
  | nil => exact ⟨fun _ _ hl => absurd hl List.not_mem_nil, fun _ => ⟨t, rfl⟩⟩
  | cons line lines ih =>
    rw [addLines, List.forall_mem_cons]
    by_cases hw : (decodeLine line).length = t.titles.length
    · rw [dif_pos hw, ih, insert_titles]
      exact (and_iff_right hw).symm
    · rw [dif_neg hw]
      exact ⟨fun ⟨u, hu⟩ => by simp at hu, fun h => absurd h.1 hw⟩

/-- Whether a content is that of a table's file. -/
def WellFormed (content : String) : Prop :=
  ∃ header lines, fileLines content = header :: lines ∧ (decodeLine header).Nodup ∧
    ∀ line ∈ lines, (decodeLine line).length = (decodeLine header).length

theorem decode_isOk_iff {name content : String} :
    (∃ t, decode name content = .ok t) ↔ WellFormed content := by
  unfold decode WellFormed
  rcases fileLines content with _ | ⟨header, lines⟩
  · simp
  · dsimp only
    constructor
    · rintro ⟨u, hu⟩
      rcases ht : withTitles name (decodeLine header) with e | t <;> rw [ht] at hu
      · simp [bind, Except.bind] at hu
      · obtain ⟨-, htitles, -⟩ := withTitles_spec ht
        refine ⟨header, lines, rfl, withTitles_isOk_iff.1 ⟨t, ht⟩, ?_⟩
        rw [← htitles]
        exact addLines_isOk_iff.1 ⟨u, hu⟩
    · rintro ⟨header', lines', heq, hnodup, hlines⟩
      injection heq with h₁ h₂
      subst h₁ h₂
      obtain ⟨t, ht⟩ := withTitles_isOk_iff.2 hnodup
      obtain ⟨-, htitles, -⟩ := withTitles_spec ht
      rw [← htitles] at hlines
      rw [ht]
      exact addLines_isOk_iff.2 hlines

end Table

/-! ## 2. Files in directories -/

theorem Catalog.lookup_eq_ok_iff {c : Catalog} {name : String} {e : Catalog.Entry} :
    c.lookup name = .ok e ↔ c.find? name = some e := by
  unfold lookup
  split
  · rename_i h
    rw [h]
    simp
  · rename_i h
    rw [h]
    simp

theorem Catalog.lookup_isOk_iff {c : Catalog} {name : String} :
    (∃ e, c.lookup name = .ok e) ↔ name ∈ c.names := by
  rw [names, List.mem_map]
  constructor
  · rintro ⟨e, he⟩
    rw [lookup_eq_ok_iff, find?] at he
    exact ⟨e, List.mem_of_find?_eq_some he, by simpa using List.find?_some he⟩
  · rintro ⟨e, he, hname⟩
    rcases hfind : c.find? name with _ | d
    · rw [find?, List.find?_eq_none] at hfind
      exact absurd (hfind e he) (by simpa using hname)
    · exact ⟨d, lookup_eq_ok_iff.2 hfind⟩

/-- An entry that was set is the one of its name. -/
theorem Catalog.find?_set (c : Catalog) (e : Catalog.Entry) : (c.set e).find? e.name = some e := by
  unfold set find?
  split
  -- Every entry of the name is replaced, and there is one.
  · rename_i hany
    have hsame : ((fun d : Entry => decide (d.name = e.name)) ∘
        fun d => if d.name = e.name then e else d) = fun d => decide (d.name = e.name) := by
      funext d
      by_cases hd : d.name = e.name
      · simp [hd]
      · simp [hd]
    obtain ⟨d, hd⟩ : ∃ d, c.entries.find? (fun d => d.name = e.name) = some d := by
      rw [← Option.isSome_iff_exists, List.find?_isSome]
      exact List.any_eq_true.1 hany
    have hname : d.name = e.name := by simpa using List.find?_some hd
    dsimp only
    rw [List.find?_map, hsame, hd, Option.map_some, if_pos hname]
  · rename_i hany
    have hnone : c.entries.find? (fun d => d.name = e.name) = none := by
      rw [List.find?_eq_none]
      exact fun d hd hname => hany (List.any_eq_true.2 ⟨d, hd, hname⟩)
    dsimp only
    rw [List.find?_append, hnone, Option.none_or, List.find?_singleton]
    simp

/-- A table that was registered is the one of its name. -/
theorem Catalog.lookup_put (c : Catalog) (name : String) (t : Table) :
    (c.put name t).lookup name = .ok ⟨name, c.freshIdentity, t⟩ :=
  lookup_eq_ok_iff.2 (find?_set c ⟨name, c.freshIdentity, t⟩)

namespace Database

/-- Whether the file of a name can be read and holds a table. -/
def Readable (db : Database) (name : String) : Prop :=
  (db.pathOf name).holdsNull = false ∧
    ∃ content text, db.files.readFile (db.pathOf name) = .ok content ∧
      textOf content = .ok text ∧ Table.WellFormed text

/-- Whether the file of a name can be written. -/
def Writable (db : Database) (name : String) : Prop :=
  (db.pathOf name).holdsNull = false ∧
    ∃ place, db.files.locate (db.pathOf name) = .ok place ∧
      db.files.node? place ≠ some .directory

theorem readTable_isOk_iff {db : Database} {name : String} :
    (∃ t, db.readTable name = .ok t) ↔ db.Readable name := by
  unfold readTable Readable
  rcases (db.pathOf name).holdsNull with _ | _
  · rw [if_neg Bool.false_ne_true]
    rcases db.files.readFile (db.pathOf name) with e | content
    · rcases e with _ | _ | _ | _ <;> simp
    · dsimp only
      rcases htext : textOf content with f | text
      · simp [htext]
      · dsimp only
        rw [Table.decode_isOk_iff]
        simp [htext]
  · simp

theorem load_isOk_iff {db : Database} {name : String} :
    (∃ db', db.load name = .ok db') ↔ db.Readable name := by
  rw [← readTable_isOk_iff, load]
  rcases db.readTable name with e | t
  · simp
  · simp

theorem store_isOk_iff {db : Database} {name : String} :
    (∃ db', db.store name = .ok db') ↔ name ∈ db.catalog.names ∧ db.Writable name := by
  rw [← Catalog.lookup_isOk_iff, store, Writable]
  rcases db.catalog.lookup name with e | entry
  · simp
  · dsimp only
    unfold writeTable FileSystem.writeFile
    rcases (db.pathOf name).holdsNull with _ | _
    · rcases db.files.locate (db.pathOf name) with e | place
      · simp
      · dsimp only
        rcases hnode : db.files.node? place with _ | ⟨content⟩ | _ <;> simp [hnode]
    · simp

end Database

end FlatQuery
