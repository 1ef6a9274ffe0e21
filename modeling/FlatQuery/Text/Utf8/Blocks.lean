import FlatQuery.Text.Utf8.RoundTrip

/-!
# Text that arrives in blocks

A text that is written as bytes may be cut anywhere. What is read of the bytes before the cut
are the characters that are complete there, and the bytes of the one that the cut goes
through are kept back (`decodeBlock_of_prefix`). So no block is taken for a fault, and with
what follows the kept bytes are text again.

Reading goes on where it has stopped (`read_append`). A block is therefore read as the
beginning of the whole, and the cut is all that remains to be looked at.
-/

set_option autoImplicit false

namespace FlatQuery.Text.Utf8

/-! ## 1. Reading on -/

/-- The bytes of an open character. -/
def Open.bytes : Option Open → Bytes
  | none => []
  | some o => o.seen

/-- **Reading goes on where it has stopped**, unless that was at a fault. -/
theorem read_append (o : Option Open) (pos : Nat) (bs more : Bytes) :
    read o pos (bs ++ more) =
      match read o pos bs with
      | (cs, .complete) =>
        (cs ++ (read none (pos + bs.length) more).1, (read none (pos + bs.length) more).2)
      | (cs, .within o') =>
        (cs ++ (read (some o') (pos + bs.length) more).1,
          (read (some o') (pos + bs.length) more).2)
      | (cs, .faulty f) => (cs, .faulty f) := by
  fun_induction read o pos bs with
  | case1 => rfl
  | case2 o pos => rfl
  -- The position behind the first byte is the same whether it is counted to the front or to the
  -- rest.
  | case3 pos b bs c hl cs e hr ih =>
    have hlength : pos + (b :: bs).length = pos + 1 + bs.length := by
      rw [List.length_cons]
      omega
    rw [hr] at ih
    rw [List.cons_append, read, hl, hlength]
    dsimp only
    rw [ih]
    rcases e with _ | o | f
    · rfl
    · rfl
    · rfl
  | case4 pos b bs o hl ih =>
    have hlength : pos + (b :: bs).length = pos + 1 + bs.length := by
      rw [List.length_cons]
      omega
    rw [List.cons_append, read, hl, hlength]
    exact ih
  | case5 pos b bs hl =>
    rw [List.cons_append, read, hl]
  | case6 o pos b bs hb value hm cs e hr ih =>
    have hlength : pos + (b :: bs).length = pos + 1 + bs.length := by
      rw [List.length_cons]
      omega
    rw [hr] at ih
    rw [List.cons_append, read, if_pos hb, hm, hlength]
    dsimp only
    rw [ih]
    rcases e with _ | o | f
    · rfl
    · rfl
    · rfl
  | case7 o pos b bs hb value k hm ih =>
    have hlength : pos + (b :: bs).length = pos + 1 + bs.length := by
      rw [List.length_cons]
      omega
    rw [List.cons_append, read, if_pos hb, hm, hlength]
    exact ih
  | case8 o pos b bs hb =>
    rw [List.cons_append, read, if_neg hb]

/-- Where no character was completed, all bytes belong to the one that is open. -/
theorem seen_of_within {o : Option Open} {pos : Nat} {bs : Bytes} {o' : Open}
    (h : read o pos bs = ([], .within o')) : o'.seen = Open.bytes o ++ bs := by
  fun_induction read o pos bs with
  | case1 => cases h
  | case2 o pos =>
    cases h
    exact (List.append_nil _).symm
  | case3 pos b bs c hl cs e hr ih => cases h
  | case4 pos b bs o hl ih =>
    rw [ih h]
    change o.seen ++ bs = _
    rw [seen_of_lead hl]
    rfl
  | case5 pos b bs hl => cases h
  | case6 o pos b bs hb value hm cs e hr ih => cases h
  | case7 o pos b bs hb value k hm ih =>
    rw [ih h]
    change (o.seen ++ [b]) ++ bs = o.seen ++ b :: bs
    rw [List.append_assoc, List.singleton_append]
  | case8 o pos b bs hb => cases h

/-- Bytes that are complete and hold no character are no bytes. -/
theorem eq_nil_of_complete {o : Option Open} {pos : Nat} {bs : Bytes}
    (h : read o pos bs = ([], .complete)) : o = none ∧ bs = [] := by
  fun_induction read o pos bs with
  | case1 => exact ⟨rfl, rfl⟩
  | case2 o pos => cases h
  | case3 pos b bs c hl cs e hr ih => cases h
  | case4 pos b bs o hl ih => exact absurd (ih h).1 (Option.some_ne_none o)
  | case5 pos b bs hl => cases h
  | case6 o pos b bs hb value hm cs e hr ih => cases h
  | case7 o pos b bs hb value k hm ih => exact absurd (ih h).1 (Option.some_ne_none _)
  | case8 o pos b bs hb => cases h

/-! ## 2. Cutting through a character -/

/-- Whether some bytes are the first ones of a character's, but not all. -/
def BreaksOff (c : Char) (bs : Bytes) : Prop :=
  ∃ more, more ≠ [] ∧ bs ++ more = String.utf8EncodeChar c

/-- Of a character that is broken off nothing is read, and all bytes are kept. -/
theorem read_of_breaksOff {c : Char} {bs : Bytes} (h : BreaksOff c bs) (pos : Nat) :
    (bs = [] ∧ read none pos bs = ([], .complete)) ∨
      ∃ o : Open, read none pos bs = ([], .within o) ∧ o.seen = bs := by
  obtain ⟨more, hmore, hbytes⟩ := h
  have hwhole : read none pos (bs ++ more) = ([c], .complete) := by
    have hchar := read_utf8EncodeChar c pos []
    rw [List.append_nil] at hchar
    rw [hbytes, hchar]
    rfl
  rw [read_append] at hwhole
  rcases hr : read none pos bs with ⟨cs, _ | o | f⟩ <;> rw [hr] at hwhole <;>
    rw [Prod.mk.injEq] at hwhole
  · rcases List.append_eq_singleton_iff.1 hwhole.1 with ⟨rfl, -⟩ | ⟨-, hnil⟩
    · exact .inl ⟨(eq_nil_of_complete hr).2, rfl⟩
    · -- The character would be complete before its last byte.
      exact absurd (eq_nil_of_complete (Prod.ext hnil hwhole.2)).2 hmore
  · rcases List.append_eq_singleton_iff.1 hwhole.1 with ⟨rfl, -⟩ | ⟨-, hnil⟩
    · exact .inr ⟨o, rfl, seen_of_within hr⟩
    · exact absurd (eq_nil_of_complete (Prod.ext hnil hwhole.2)).1 (Option.some_ne_none o)
  · cases hwhole.2

/-- **Where a text is cut.** The bytes before a cut are those of some first characters of the
text and those of the next one that it breaks off, if it goes through one. -/
theorem exists_cut {cs : List Char} {bs : Bytes} (h : bs <+: encode cs) :
    ∃ before behind kept, cs = before ++ behind ∧ bs = encode before ++ kept ∧
      (kept = [] ∨ ∃ c tail, behind = c :: tail ∧ BreaksOff c kept) := by
  induction cs generalizing bs with
  | nil => exact ⟨[], [], [], rfl, List.prefix_nil.1 h, .inl rfl⟩
  | cons c cs ih =>
    have hencode : encode (c :: cs) = String.utf8EncodeChar c ++ encode cs := rfl
    obtain ⟨rest, hrest⟩ := h
    rw [hencode] at hrest
    rcases List.append_eq_append_iff.1 hrest with ⟨more, hmore, -⟩ | ⟨kept, rfl, hkept⟩
    · by_cases hnil : more = []
      · refine ⟨[c], cs, [], rfl, ?_, .inl rfl⟩
        rw [hnil, List.append_nil] at hmore
        rw [← hmore]
        simp [encode]
      · exact ⟨[], c :: cs, bs, rfl, rfl, .inr ⟨c, cs, rfl, more, hnil, hmore.symm⟩⟩
    · obtain ⟨before, behind, kept', rfl, rfl, hcut⟩ := ih ⟨rest, hkept.symm⟩
      refine ⟨c :: before, behind, kept', rfl, ?_, hcut⟩
      rw [← List.append_assoc]
      rfl

/-- What is at hand of a text that was cut: the characters before the cut, and the bytes that
are kept of the one behind it. -/
theorem decodeBlock_of_prefix {cs : List Char} {bs : Bytes} (h : bs <+: encode cs) :
    ∃ before behind kept, cs = before ++ behind ∧ bs = encode before ++ kept ∧
      (kept = [] ∨ ∃ c tail, behind = c :: tail ∧ BreaksOff c kept) ∧
      decodeBlock bs = .ok (before, kept) := by
  obtain ⟨before, behind, kept, rfl, rfl, hcut⟩ := exists_cut h
  refine ⟨before, behind, kept, rfl, rfl, hcut, ?_⟩
  rw [decodeBlock, read_encode]
  rcases hcut with rfl | ⟨c, tail, rfl, hbreaks⟩
  · simp [read]
  · rcases read_of_breaksOff hbreaks (0 + (encode before).length) with ⟨rfl, hr⟩ | ⟨o, hr, ho⟩ <;>
      rw [hr]
    · simp
    · simp [ho]

/-! ## 3. Bytes that need not be text -/

/-- Whether some bytes are a text, wherever they stand. -/
def IsText (bs : Bytes) : Prop := ∃ cs, ∀ pos, read none pos bs = (cs, .complete)

/-- Whether some bytes are what is kept at a stop: nothing, the bytes of the character that is
open, or all bytes from the fault on, those before it being of a number. -/
def Ending.Keeps (e : Ending) (kept : Bytes) (before : Nat) : Prop :=
  match e with
  | .complete => kept = []
  | .within o => kept = o.seen
  | .faulty f => f.position = before

/-- **Where reading stops.** The bytes before a stop are those of whole characters, and then
those that are kept. -/
theorem exists_stop {o : Option Open} {pos : Nat} (bs : Bytes)
    (ho : ∀ q, read none q (Open.bytes o) = read o q []) (hpos : Open.size o ≤ pos) :
    ∃ before kept, Open.bytes o ++ bs = before ++ kept ∧
      (∀ q, read none q before = ((read o pos bs).1, .complete)) ∧
      (read o pos bs).2.Keeps kept (pos - Open.size o + before.length) := by
  fun_induction read o pos bs with
  | case1 => exact ⟨[], [], rfl, fun _ => rfl, rfl⟩
  | case2 o pos => exact ⟨[], o.seen, List.append_nil _, fun _ => rfl, rfl⟩
  -- A character of one byte stands before the stop, and the stop is that of the rest.
  | case3 pos b bs c hl cs e hr ih =>
    obtain ⟨before, kept, hsplit, hbefore, hkeeps⟩ := ih (fun _ => rfl) (Nat.zero_le _)
    rw [hr] at hbefore hkeeps
    refine ⟨b :: before, kept, congrArg (b :: ·) hsplit, fun q => ?_, ?_⟩
    · rw [read, hl]
      dsimp only
      rw [hbefore]
    · rcases e with _ | o | f
      · exact hkeeps
      · exact hkeeps
      · change f.position = pos + (before.length + 1)
        rw [show f.position = pos + 1 + before.length from hkeeps]
        omega
  -- A byte that opens a character is kept, as long as the character is.
  | case4 pos b bs o hl ih =>
    have hbytes : Open.bytes (some o) = [b] := seen_of_lead hl
    have hsize : Open.size (some o) = 1 := length_seen_of_lead hl
    have hopen : ∀ q, read none q (Open.bytes (some o)) = read (some o) q [] := by
      intro q
      simp only [hbytes, read, hl]
    obtain ⟨before, kept, hsplit, hbefore, hkeeps⟩ := ih hopen (by omega)
    rw [hbytes] at hsplit
    rw [hsize] at hkeeps
    exact ⟨before, kept, hsplit, hbefore, hkeeps⟩
  | case5 pos b bs hl => exact ⟨[], b :: bs, rfl, fun _ => rfl, rfl⟩
  -- The last byte of a character closes it, and then all its bytes stand before the stop.
  | case6 o pos b bs hb value hm cs e hr ih =>
    obtain ⟨before, kept, hsplit, hbefore, hkeeps⟩ := ih (fun _ => rfl) (Nat.zero_le _)
    rw [hr] at hbefore hkeeps
    refine ⟨o.seen ++ b :: before, kept, ?_, fun q => ?_, ?_⟩
    · rw [List.append_assoc]
      exact congrArg (fun x => o.seen ++ b :: x) hsplit
    · rw [read_append, show read none q o.seen = ([], .within o) from ho q]
      simp only [read, if_pos hb, hm, hbefore]
      rfl
    · rcases e with _ | o' | f
      · exact hkeeps
      · exact hkeeps
      · change f.position = pos - o.seen.length + (o.seen ++ b :: before).length
        rw [show f.position = pos + 1 + before.length from hkeeps, List.length_append,
          List.length_cons]
        change o.seen.length ≤ pos at hpos
        omega
  -- A byte that goes on with a character is kept with those before it.
  | case7 o pos b bs hb value k hm ih =>
    have hopen : ∀ q, read none q (o.seen ++ [b]) =
        read (some ⟨k, 0x80, 0xbf, value, o.seen ++ [b]⟩) q [] := by
      intro q
      rw [read_append, show read none q o.seen = ([], .within o) from ho q]
      simp only [read, if_pos hb, hm]
      rfl
    change o.seen.length ≤ pos at hpos
    have hsize : (o.seen ++ [b]).length = o.seen.length + 1 := by simp
    obtain ⟨before, kept, hsplit, hbefore, hkeeps⟩ := ih hopen (by
      rw [Open.size, hsize]
      omega)
    rw [Open.size, hsize, Nat.add_sub_add_right] at hkeeps
    refine ⟨before, kept, ?_, hbefore, hkeeps⟩
    rw [← hsplit]
    exact (List.append_assoc o.seen [b] bs).symm
  | case8 o pos b bs hb => exact ⟨[], o.seen ++ b :: bs, rfl, fun _ => rfl, rfl⟩

/-- What a block keeps stands behind whole characters. -/
theorem exists_of_decodeBlock {bs kept : Bytes} {cs : List Char}
    (h : decodeBlock bs = .ok (cs, kept)) :
    ∃ before, bs = before ++ kept ∧ ∀ q, read none q before = (cs, .complete) := by
  obtain ⟨before, kept', hsplit, hbefore, hkeeps⟩ :=
    @exists_stop none 0 bs (fun _ => rfl) (Nat.le_refl 0)
  change bs = before ++ kept' at hsplit
  unfold decodeBlock at h
  rcases hr : read none 0 bs with ⟨ds, _ | o | f⟩ <;> rw [hr] at h hbefore hkeeps
  · injection h with h
    obtain ⟨rfl, rfl⟩ := Prod.mk.inj h
    obtain rfl : kept' = [] := hkeeps
    exact ⟨before, hsplit, hbefore⟩
  · injection h with h
    obtain ⟨rfl, rfl⟩ := Prod.mk.inj h
    obtain rfl : kept' = o.seen := hkeeps
    exact ⟨before, hsplit, hbefore⟩
  -- A surrogate that is cut off is kept whole.
  · dsimp only at h
    split at h
    · injection h with h
      obtain ⟨rfl, rfl⟩ := Prod.mk.inj h
      refine ⟨before, ?_, hbefore⟩
      have hposition : f.position = before.length := by
        rw [show f.position = 0 - 0 + before.length from hkeeps]
        omega
      rw [hposition, hsplit, List.drop_left, ← hsplit]
    · cases h

/-- Reading that is complete is so from every position. -/
theorem isText_iff (pos : Nat) {bs : Bytes} : IsText bs ↔ (read none pos bs).2 = .complete := by
  constructor
  · rintro ⟨cs, h⟩
    rw [h]
  · intro h
    obtain ⟨before, kept, hsplit, hbefore, hkeeps⟩ :=
      @exists_stop none pos bs (fun _ => rfl) (Nat.zero_le _)
    rw [h] at hkeeps
    obtain rfl : kept = [] := hkeeps
    rw [List.append_nil] at hsplit
    obtain rfl : bs = before := hsplit
    exact ⟨_, hbefore⟩

theorem isText_iff_decode {bs : Bytes} : IsText bs ↔ ∃ cs, decode bs = .ok cs := by
  rw [isText_iff 0, decode]
  rcases read none 0 bs with ⟨cs, _ | o | f⟩
  · simp
  · simp
  · simp

/-- **What a block keeps decides.** With the bytes behind it a block is text exactly when what
it keeps is text with them. -/
theorem isText_of_decodeBlock {bs kept : Bytes} {cs : List Char}
    (h : decodeBlock bs = .ok (cs, kept)) (more : Bytes) :
    IsText (bs ++ more) ↔ IsText (kept ++ more) := by
  obtain ⟨before, rfl, hbefore⟩ := exists_of_decodeBlock h
  rw [List.append_assoc, isText_iff 0, read_append, hbefore, isText_iff (0 + before.length)]

/-- A block that is found not to be text is none, whatever follows. -/
theorem not_isText_of_decodeBlock {bs : Bytes} {f : Fault} (h : decodeBlock bs = .error f)
    (more : Bytes) : ¬IsText (bs ++ more) := by
  rw [isText_iff 0, read_append]
  unfold decodeBlock at h
  rcases hr : read none 0 bs with ⟨cs, _ | o | f'⟩ <;> rw [hr] at h
  · cases h
  · cases h
  · simp

end FlatQuery.Text.Utf8
