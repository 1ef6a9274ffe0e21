import FlatQuery.Text.Hexadecimal

/-!
# UTF-8

Files are bytes. This module reads bytes as text and says precisely where and why
they are not text. A character is one lead byte and up to three continuation
bytes; four lead bytes narrow the range of their first continuation, which is
what keeps the encoding free of long forms, of surrogates and of values above the
last code point.

The reader is a machine that takes one byte at a time. Between characters it owes
nothing; inside one it remembers the bytes it has seen, and these are exactly what
a fault reports: the sequence up to the byte that does not continue it. They are also
what is carried over where a text arrives in blocks and a character straddles two of
them.
-/

set_option autoImplicit false

namespace FlatQuery

/-- The content of a file. -/
abbrev Bytes := List UInt8

namespace Text.Utf8

/-! ## 1. Faults -/

/-- Why some bytes are not text. -/
inductive Reason where
  /-- A byte that begins no character. -/
  | invalidStart
  /-- A character broken off by a byte that does not continue it. -/
  | invalidContinuation
  /-- A character broken off by the end of the bytes. -/
  | unexpectedEnd
deriving DecidableEq

/-- The wording of a reason. -/
def Reason.message : Reason → String
  | .invalidStart => "invalid start byte"
  | .invalidContinuation => "invalid continuation byte"
  | .unexpectedEnd => "unexpected end of data"

/-- A place where bytes are not text: the offset of the first bad byte, the bad bytes
and the reason. -/
structure Fault where
  /-- The offset of the first bad byte. -/
  position : Nat
  /-- The bad bytes: a lead byte and the continuations that fit it. -/
  bytes : Bytes
  /-- Why they are bad. -/
  reason : Reason
deriving DecidableEq

/-- A byte in two hexadecimal digits. -/
def hexByte (b : UInt8) : String := String.ofList (hexDigits 2 b.toNat)

/-- The wording of a fault: a single byte is named, several are given by their range. -/
def Fault.message (f : Fault) : String :=
  match f.bytes with
  | [b] =>
    s!"'utf-8' codec can't decode byte 0x{hexByte b} in position {f.position}: {f.reason.message}"
  | bs =>
    let last := f.position + bs.length - 1
    s!"'utf-8' codec can't decode bytes in position {f.position}-{last}: {f.reason.message}"

/-! ## 2. The machine -/

/-- A character that has begun: how many bytes it still owes, the range of the next
one, the bits so far and the bytes so far. -/
structure Open where
  /-- How many continuation bytes are owed after the next one. -/
  more : Nat
  /-- The least byte that may come next. -/
  low : UInt8
  /-- The greatest byte that may come next. -/
  high : UInt8
  /-- The code point read so far. -/
  value : Nat
  /-- The bytes read so far. -/
  seen : Bytes
deriving DecidableEq

/-- What a byte does where a character has to begin. -/
inductive Lead where
  /-- It is a character by itself. -/
  | single (c : Char)
  /-- It opens a character of several bytes. -/
  | opening (o : Open)
  /-- It begins nothing. -/
  | invalid

/-- The role of a byte between characters. -/
def lead (b : UInt8) : Lead :=
  let n := b.toNat
  if n ≤ 0x7f then .single (Char.ofNat n)
  -- Below 0xc0 stand the continuations, and 0xc0 and 0xc1 could only begin long forms.
  else if n < 0xc2 then .invalid
  else if n ≤ 0xdf then .opening ⟨0, 0x80, 0xbf, n - 0xc0, [b]⟩
  -- The range of the next byte leaves out long forms,
  else if n = 0xe0 then .opening ⟨1, 0xa0, 0xbf, 0, [b]⟩
  -- surrogates,
  else if n = 0xed then .opening ⟨1, 0x80, 0x9f, 0xd, [b]⟩
  else if n ≤ 0xef then .opening ⟨1, 0x80, 0xbf, n - 0xe0, [b]⟩
  -- long forms again,
  else if n = 0xf0 then .opening ⟨2, 0x90, 0xbf, 0, [b]⟩
  else if n ≤ 0xf3 then .opening ⟨2, 0x80, 0xbf, n - 0xf0, [b]⟩
  -- and what is above the last code point.
  else if n = 0xf4 then .opening ⟨2, 0x80, 0x8f, 4, [b]⟩
  else .invalid

/-- Where reading stops. -/
inductive Ending where
  /-- Between characters. -/
  | complete
  /-- Inside a character, whose other bytes may still come. -/
  | within (o : Open)
  /-- At bytes that are not text. -/
  | faulty (f : Fault)

/-- Reads bytes from a position and a state of the machine: the characters before the
stop, and the stop. -/
def read : Option Open → Nat → Bytes → List Char × Ending
  | none, _, [] => ([], .complete)
  | some o, _, [] => ([], .within o)
  | none, pos, b :: bs =>
    match lead b with
    | .single c =>
      let (cs, e) := read none (pos + 1) bs
      (c :: cs, e)
    | .opening o => read (some o) (pos + 1) bs
    | .invalid => ([], .faulty ⟨pos, [b], .invalidStart⟩)
  | some o, pos, b :: bs =>
    if o.low ≤ b ∧ b ≤ o.high then
      let value := o.value * 64 + (b.toNat - 0x80)
      match o.more with
      | 0 =>
        let (cs, e) := read none (pos + 1) bs
        (Char.ofNat value :: cs, e)
      | k + 1 => read (some ⟨k, 0x80, 0xbf, value, o.seen ++ [b]⟩) (pos + 1) bs
    -- The byte that does not fit is no part of the fault: it may begin a character.
    else ([], .faulty ⟨pos - o.seen.length, o.seen, .invalidContinuation⟩)

/-- The fault of a character that the end of the bytes breaks off, the position being
that of the end. -/
def Open.fault (o : Open) (pos : Nat) : Fault :=
  ⟨pos - o.seen.length, o.seen, .unexpectedEnd⟩

/-! ## 3. Whole texts -/

/-- The text of some bytes, or the first place where they are not text. -/
def decode (bs : Bytes) : Except Fault (List Char) :=
  match read none 0 bs with
  | (cs, .complete) => .ok cs
  | (_, .within o) => .error (o.fault bs.length)
  | (_, .faulty f) => .error f

/-- The bytes of a text. -/
def encode (cs : List Char) : Bytes := cs.flatMap String.utf8EncodeChar

/-! ## 4. Texts that arrive in blocks -/

/-- Whether a fault is a surrogate that the end of the bytes cuts off behind its second
byte. It is a fault already, but a reader that hopes for more bytes leaves it to them. -/
def Fault.isCutSurrogate (f : Fault) (bs : Bytes) : Bool :=
  f.position + 2 == bs.length && f.bytes == [0xed] &&
    bs.getLast?.any fun b => 0xa0 ≤ b && b ≤ 0xbf

/-- The characters of a block of bytes, and the bytes of a character that the block breaks
off, which are carried into the next one. The bytes given are those carried into this
block and those of the block itself, and the position of a fault counts from the first of
them. -/
def decodeBlock (bs : Bytes) : Except Fault (List Char × Bytes) :=
  match read none 0 bs with
  | (cs, .complete) => .ok (cs, [])
  | (cs, .within o) => .ok (cs, o.seen)
  | (cs, .faulty f) => if f.isCutSurrogate bs then .ok (cs, bs.drop f.position) else .error f

/-! ### No more characters than bytes -/

/-- How many bytes an open character has taken. -/
def Open.size : Option Open → Nat
  | none => 0
  | some o => o.seen.length

/-- How many bytes a stop keeps back. -/
def Ending.size : Ending → Nat
  | .within o => o.seen.length
  | _ => 0

theorem seen_of_lead {b : UInt8} {o : Open} (h : lead b = .opening o) : o.seen = [b] := by
  revert h
  unfold lead
  dsimp only
  repeat' split
  all_goals simp
  all_goals rintro rfl; rfl

theorem length_seen_of_lead {b : UInt8} {o : Open} (h : lead b = .opening o) :
    o.seen.length = 1 := by
  rw [seen_of_lead h]
  rfl

/-- Every character takes a byte at least, and those of an open character come on top. -/
theorem length_read (o : Option Open) (pos : Nat) (bs : Bytes) :
    (read o pos bs).1.length + (read o pos bs).2.size ≤ Open.size o + bs.length := by
  fun_induction read o pos bs with
  | case1 => simp [Ending.size]
  | case2 o pos => simp [Ending.size, Open.size]
  | case3 pos b bs c hl cs e hr ih =>
    rw [hr] at ih
    simp only [Open.size, List.length_cons] at ih ⊢
    omega
  | case4 pos b bs o hl ih =>
    have := length_seen_of_lead hl
    simp only [Open.size, List.length_cons] at ih ⊢
    omega
  | case5 pos b bs hl => simp [Ending.size]
  | case6 pos b bs o hb value hm cs e hr ih =>
    rw [hr] at ih
    simp only [Open.size, List.length_cons] at ih ⊢
    omega
  | case7 pos b bs o hb value k hm ih =>
    simp only [Open.size, List.length_cons, List.length_append, List.length_nil] at ih ⊢
    omega
  | case8 pos b bs o hb => simp [Ending.size]

/-- The characters before a fault take the bytes before it. -/
theorem length_read_faulty (o : Option Open) (pos : Nat) (bs : Bytes) (f : Fault)
    (hpos : Open.size o ≤ pos) (h : (read o pos bs).2 = .faulty f) :
    (read o pos bs).1.length + pos ≤ f.position + Open.size o := by
  fun_induction read o pos bs with
  | case1 => simp at h
  | case2 o pos => simp at h
  | case3 pos b bs c hl cs e hr ih =>
    rw [hr] at ih
    have := ih (by simp [Open.size]) h
    simp only [Open.size, List.length_cons] at this ⊢
    omega
  -- A character that is opened was counted with the bytes before.
  | case4 pos b bs o hl ih =>
    have := length_seen_of_lead hl
    have := ih (by simp only [Open.size]; omega) h
    simp only [Open.size] at this ⊢
    omega
  | case5 pos b bs hl =>
    simp only [Ending.faulty.injEq] at h
    simp [← h]
  | case6 pos b bs o hb value hm cs e hr ih =>
    rw [hr] at ih
    have := ih (by simp [Open.size]) h
    simp only [Open.size, List.length_cons] at this hpos ⊢
    omega
  | case7 pos b bs o hb value k hm ih =>
    simp only [Open.size] at hpos
    have := ih (by
      simp only [Open.size, List.length_append, List.length_cons, List.length_nil]
      omega) h
    simp only [Open.size, List.length_cons, List.length_append, List.length_nil] at this ⊢
    omega
  | case8 pos b bs o hb =>
    simp only [Ending.faulty.injEq] at h
    simp only [Open.size] at hpos
    simp only [← h, Open.size, List.length_nil]
    omega

theorem length_decodeBlock {bs : Bytes} {cs : List Char} {carried : Bytes}
    (h : decodeBlock bs = .ok (cs, carried)) : cs.length + carried.length ≤ bs.length := by
  have hl := length_read none 0 bs
  have hf := length_read_faulty none 0 bs
  unfold decodeBlock at h
  cases hr : read none 0 bs with
  | mk ds e =>
    rw [hr] at hl hf h
    cases e with
    | complete =>
      simp only [Except.ok.injEq, Prod.mk.injEq] at h
      simp only [Ending.size, Open.size] at hl
      rw [← h.1, ← h.2, List.length_nil]
      omega
    | within o =>
      simp only [Except.ok.injEq, Prod.mk.injEq] at h
      simp only [Ending.size, Open.size] at hl
      rw [← h.1, ← h.2]
      omega
    | faulty f =>
      simp only at h
      split at h
      -- The bytes of a cut surrogate are kept, and the fault stands where they begin.
      · rename_i hc
        simp only [Except.ok.injEq, Prod.mk.injEq] at h
        have hp := hf f (by simp [Open.size]) rfl
        simp only [Fault.isCutSurrogate, Bool.and_eq_true, beq_iff_eq] at hc
        simp only [Open.size] at hp
        rw [← h.1, ← h.2, List.length_drop]
        omega
      · simp at h

theorem length_decode {bs : Bytes} {cs : List Char} (h : decode bs = .ok cs) :
    cs.length ≤ bs.length := by
  have hl := length_read none 0 bs
  unfold decode at h
  cases hr : read none 0 bs with
  | mk ds e =>
    rw [hr] at hl h
    cases e with
    | complete =>
      simp only [Except.ok.injEq] at h
      simp only [Open.size] at hl
      rw [← h]
      omega
    | within o => simp at h
    | faulty f => simp at h

end Text.Utf8

end FlatQuery
