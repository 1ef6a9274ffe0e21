import FlatQuery.Text.Line
import FlatQuery.Text.Utf8

/-!
# Sources of command text

A source is text that is asked for one line at a time. It may be given as characters,
all of which are at hand, as the bytes of a file, or as what comes in on standard input.
Bytes of a file are read in blocks, and a block is read only when no complete line is
left of the blocks before it. This shows in two ways. Bytes that are not text are found
when their block is read, after the lines before it have been given out. And a file that
is written while its lines are asked for is read on as it stands then, from the byte at
which reading has arrived: `readOn` is that step.

Standard input comes in pieces: a line at a time from a terminal, a block at a time from
a file, and as it is sent from another program. Nothing that a reader does changes it, so
its characters can be told beforehand: those of all pieces before the first that is found
not to be text. The complete lines among them are given out, and then the fault is met.

Giving out a line leaves less in the source, whatever the block sizes: `size` counts the
characters at hand, the bytes not read and what is held back between the two.
-/

set_option autoImplicit false

namespace FlatQuery

/-- Text that has not been given out yet. -/
structure Source where
  /-- The characters at hand. -/
  ready : List Char
  /-- The bytes of a character that the last block broke off. -/
  carried : Bytes := []
  /-- Whether the last block ended with a carriage return, whose line feed may follow. -/
  held : Bool := false
  /-- How many bytes have been read. -/
  position : Nat := 0
  /-- The bytes that have not been read. -/
  unread : Bytes := []
  /-- What is wrong with the bytes behind all these, if that is known beforehand. -/
  fault? : Option Text.Utf8.Fault := none
deriving DecidableEq

namespace Source

/-! ## 1. Making a source -/

/-- The source of a text. -/
def ofString (s : String) : Source := { ready := s.toList }

/-- The characters of bytes that come in pieces, behind bytes that a piece before them broke
off, and what is wrong with the first piece that is found not to be text. -/
def charactersOf (carried : Bytes) : List Bytes → List Char × Option Text.Utf8.Fault
  | [] =>
    match Text.Utf8.decode carried with
    | .error f => ([], some f)
    | .ok cs => (cs, none)
  | piece :: pieces =>
    match Text.Utf8.decodeBlock (carried ++ piece) with
    | .error f => ([], some f)
    | .ok (cs, carried) =>
      let behind := charactersOf carried pieces
      (cs ++ behind.1, behind.2)

/-- The source of what is typed, or else comes in on standard input, in these pieces. Only a
line feed ends a line, and where all is text the last line is ended too. -/
def typed (pieces : List Bytes) : Source :=
  match charactersOf [] pieces with
  | (cs, some f) => { ready := cs, fault? := some f }
  | (cs, none) => { ready := if cs = [] ∨ cs.getLast? = some '\n' then cs else cs ++ ['\n'] }

/-- The source of the content of a file. -/
def ofBytes (content : Bytes) : Source := { ready := [], unread := content }

/-- The source when its file has come to have another content. What has been read stays
read. -/
def readOn (s : Source) (content : Bytes) : Source :=
  { s with unread := content.drop s.position }

/-! ## 2. Asking for a line -/

/-- What a source gives when it is asked for a line. -/
inductive Answer where
  /-- A line and the source behind it. -/
  | line (text : List Char) (rest : Source)
  /-- The end. -/
  | endOfInput
  /-- Bytes that are not text, before the line was complete. -/
  | broken (f : Text.Utf8.Fault)

/-- The number of bytes in a block. -/
def blockSize : Nat := 8192

/-- The source with one more block read, or the bytes in it that are not text. -/
def readBlock (s : Source) : Except Text.Utf8.Fault Source :=
  let block := s.unread.take blockSize
  match Text.Utf8.decodeBlock (s.carried ++ block) with
  | .error f => .error f
  | .ok (cs, carried) =>
    let (cs, held) := Text.unifyBlock s.held cs
    .ok {
      ready := s.ready ++ cs
      carried, held
      position := s.position + block.length
      unread := s.unread.drop blockSize
      fault? := s.fault? }

/-- The answer where no block is left. What was held back has to be text by itself, and the
last line need not be ended. -/
def lastLine (s : Source) : Answer :=
  match s.fault? with
  | some f => .broken f
  | none =>
    match Text.Utf8.decode s.carried with
    | .error f => .broken f
    | .ok cs =>
      let line := s.ready ++ cs ++ List.replicate s.held.toNat '\n'
      if line = [] then .endOfInput
      else .line line { s with ready := [], carried := [], held := false }

/-- How much there is in a source. -/
def size (s : Source) : Nat :=
  s.ready.length + s.carried.length + s.held.toNat + s.unread.length

theorem readBlock_unread {s t : Source} (h : s.readBlock = .ok t) :
    t.unread = s.unread.drop blockSize := by
  simp only [readBlock] at h
  split at h
  · simp at h
  · simp only [Except.ok.injEq] at h
    rw [← h]

/-- Reading a block makes no more of a source than there is in it. -/
theorem size_readBlock {s t : Source} (h : s.readBlock = .ok t) : t.size ≤ s.size := by
  simp only [readBlock] at h
  split at h
  · simp at h
  · rename_i cs carried hd
    have hb := Text.Utf8.length_decodeBlock hd
    have hu := Text.length_unifyBlock s.held cs
    simp only [Except.ok.injEq] at h
    simp only [List.length_append, List.length_take] at hb
    simp only [← h, size, List.length_append, List.length_drop]
    omega

/-- Asks for a line. -/
def readLine (s : Source) : Answer :=
  let cut := Text.takeLine s.ready
  if cut.1.getLast? = some '\n' then .line cut.1 { s with ready := cut.2 }
  else if _h : s.unread = [] then s.lastLine
  else
    match _hb : s.readBlock with
    | .error f => .broken f
    | .ok t => t.readLine
termination_by s.unread.length
decreasing_by
  have := List.length_pos_iff.2 _h
  rw [readBlock_unread _hb, List.length_drop, blockSize]
  omega

/-- A line is not empty, and with the rest it is no more than there was. -/
theorem readLine_line {s rest : Source} {text : List Char} (h : s.readLine = .line text rest) :
    text ≠ [] ∧ text.length + rest.size ≤ s.size := by
  fun_induction readLine s with
  -- A complete line was at hand.
  | case1 s cut hcut =>
    have := Text.takeLine_length s.ready
    simp only [Answer.line.injEq] at h
    obtain ⟨rfl, rfl⟩ := h
    refine ⟨?_, ?_⟩
    · intro hnil
      rw [hnil] at hcut
      simp at hcut
    · simp only [size, cut]
      omega
  | case2 s cut hcut hu =>
    -- Behind the last block a line may be left that is not ended.
    simp only [lastLine] at h
    split at h
    · simp at h
    · split at h
      · simp at h
      · rename_i cs hd
        have := Text.Utf8.length_decode hd
        split at h
        · simp at h
        · rename_i hne
          simp only [Answer.line.injEq] at h
          obtain ⟨rfl, rfl⟩ := h
          refine ⟨hne, ?_⟩
          simp only [size, List.length_append, List.length_replicate, List.length_nil,
            Bool.toNat_false]
          omega
  | case3 s cut hcut hu f hb => simp at h
  -- A block has no more characters than bytes, so the source has not become larger.
  | case4 s cut hcut hu t hb ih =>
    have := size_readBlock hb
    have := ih h
    exact ⟨this.1, by omega⟩

/-! ## 3. Sources of characters -/

/-- A source whose characters are all at hand gives one line after the other. -/
theorem readLine_ready (cs : List Char) (position : Nat) :
    readLine { ready := cs, position } =
      if cs = [] then .endOfInput
      else .line (Text.takeLine cs).1 { ready := (Text.takeLine cs).2, position } := by
  rw [readLine]
  by_cases hcs : cs = []
  · subst hcs
    rfl
  · split
    · simp
    · rename_i hlast
      have := Text.takeLine_of_unended hlast
      simp [lastLine, Text.Utf8.decode, Text.Utf8.read, hcs, this]

end Source

end FlatQuery
