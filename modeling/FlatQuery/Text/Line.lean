/-!
# Lines

Two readings of a text as lines meet in this library. Command text is asked for
one line at a time, and only a line feed ends a line there. Text that comes from
a file is first brought to that form: a carriage return, alone or with the line
feed after it, becomes one line feed. Where the text comes in blocks, a carriage
return at the end of one is held back until it is seen what follows it.
-/

set_option autoImplicit false

namespace FlatQuery.Text

/-! ## 1. One line at a time -/

/-- The first line of a text, with the line feed that ends it, and the text after it. -/
def takeLine : List Char → List Char × List Char
  | [] => ([], [])
  | c :: cs =>
    if c = '\n' then ([c], cs)
    else
      let (line, rest) := takeLine cs
      (c :: line, rest)

/-- Taking a line loses nothing. -/
theorem takeLine_append (cs : List Char) : (takeLine cs).1 ++ (takeLine cs).2 = cs := by
  induction cs with
  | nil => rfl
  | cons c cs ih =>
    by_cases h : c = '\n'
    · simp [takeLine, h]
    · simpa [takeLine, h] using ih

/-- Only the empty text has no first line. -/
theorem takeLine_fst_eq_nil {cs : List Char} : (takeLine cs).1 = [] ↔ cs = [] := by
  cases cs with
  | nil => simp [takeLine]
  | cons c cs => by_cases h : c = '\n' <;> simp [takeLine, h]

theorem takeLine_length (cs : List Char) :
    (takeLine cs).1.length + (takeLine cs).2.length = cs.length := by
  rw [← List.length_append, takeLine_append]

/-- A first line that no line feed ends is the whole text. -/
theorem takeLine_of_unended {cs : List Char} (h : (takeLine cs).1.getLast? ≠ some '\n') :
    takeLine cs = (cs, []) := by
  induction cs with
  | nil => rfl
  | cons c cs ih =>
    by_cases hc : c = '\n'
    · simp [takeLine, hc] at h
    · simp only [takeLine, hc, if_false] at h ⊢
      by_cases hn : (takeLine cs).1 = []
      · rw [takeLine_fst_eq_nil] at hn
        simp [hn, takeLine]
      · rw [List.getLast?_cons_of_ne_nil hn] at h
        rw [ih h]

/-! ## 2. Line ends of files -/

/-- A text with every carriage return, and every carriage return with the line feed
after it, written as one line feed. -/
def unifyLineEnds : List Char → List Char
  | [] => []
  | '\r' :: '\n' :: cs => '\n' :: unifyLineEnds cs
  | c :: cs => (if c = '\r' then '\n' else c) :: unifyLineEnds cs

theorem length_unifyLineEnds (cs : List Char) : (unifyLineEnds cs).length ≤ cs.length := by
  fun_induction unifyLineEnds cs with
  | case1 => exact Nat.le_refl _
  | case2 cs ih =>
    simp only [List.length_cons]
    omega
  | case3 c cs _ ih =>
    simp only [List.length_cons]
    omega

/-- A text without carriage returns is in that form already. -/
theorem unifyLineEnds_of_notMem {cs : List Char} (h : '\r' ∉ cs) : unifyLineEnds cs = cs := by
  fun_induction unifyLineEnds cs with
  | case1 => rfl
  | case2 cs ih => simp at h
  | case3 c cs _ ih =>
    simp only [List.mem_cons, not_or] at h
    simp [ih h.2, Ne.symm h.1]

/-! ## 3. Line ends of blocks -/

/-- A block of a text in that form, given whether a carriage return was held back before
it; and whether one is held back behind it. An empty block decides nothing. -/
def unifyBlock (held : Bool) (block : List Char) : List Char × Bool :=
  let cs := if held && !block.isEmpty then '\r' :: block else block
  if cs.getLast? = some '\r' then (unifyLineEnds cs.dropLast, true)
  else (unifyLineEnds cs, held && block.isEmpty)

/-- What comes out of a block and what is held back is no more than what went in. -/
theorem length_unifyBlock (held : Bool) (block : List Char) :
    (unifyBlock held block).1.length + (unifyBlock held block).2.toNat ≤
      block.length + held.toNat := by
  have hcs : (if held && !block.isEmpty then '\r' :: block else block).length +
      (held && block.isEmpty).toNat = block.length + held.toNat := by
    cases held <;> cases block <;> simp
  unfold unifyBlock
  generalize (if held && !block.isEmpty then '\r' :: block else block) = cs at hcs
  dsimp only
  split
  · rename_i hlast
    have := length_unifyLineEnds cs.dropLast
    have hne : cs ≠ [] := by
      rintro rfl
      simp at hlast
    have := List.length_pos_iff.2 hne
    simp only [List.length_dropLast, Bool.toNat_true] at *
    omega
  · have := length_unifyLineEnds cs
    dsimp only
    omega

end FlatQuery.Text
