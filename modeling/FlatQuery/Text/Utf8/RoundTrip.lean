import FlatQuery.Text.Utf8

/-!
# Text survives being written as bytes

Every text comes back from its bytes (`decode_encode`). The argument goes character by
character. A lead byte says how many bytes follow and narrows the first of them; the
bytes written for a character keep within these bounds because the character is a code
point and no surrogate; and the six bits that each byte adds put the code point
together again.
-/

set_option autoImplicit false

namespace FlatQuery.Text.Utf8

/-! ## 1. One byte -/

private theorem toNat_ofNat {n : Nat} (h : n < 256) : (UInt8.ofNat n).toNat = n := by
  simp [UInt8.toNat_ofNat', Nat.mod_eq_of_lt h]

/-- A continuation byte that closes a character. -/
theorem read_last {o : Open} {pos k : Nat} {bs : Bytes} (hm : o.more = 0)
    (hl : o.low.toNat ≤ 128 + k) (hh : 128 + k ≤ o.high.toNat) (hk : k < 64) :
    read (some o) pos (UInt8.ofNat (k + 128) :: bs) =
      (Char.ofNat (o.value * 64 + k) :: (read none (pos + 1) bs).1,
        (read none (pos + 1) bs).2) := by
  have h : (UInt8.ofNat (k + 128)).toNat = k + 128 := toNat_ofNat (by omega)
  have h₁ : o.low ≤ UInt8.ofNat (k + 128) := by
    rw [UInt8.le_iff_toNat_le, h]
    omega
  have h₂ : UInt8.ofNat (k + 128) ≤ o.high := by
    rw [UInt8.le_iff_toNat_le, h]
    omega
  rw [read, if_pos ⟨h₁, h₂⟩, hm, h]
  simp

/-- A continuation byte with others to come. -/
theorem read_more {o : Open} {pos k more : Nat} {bs : Bytes} (hm : o.more = more + 1)
    (hl : o.low.toNat ≤ 128 + k) (hh : 128 + k ≤ o.high.toNat) (hk : k < 64) :
    read (some o) pos (UInt8.ofNat (k + 128) :: bs) =
      read (some ⟨more, 0x80, 0xbf, o.value * 64 + k, o.seen ++ [UInt8.ofNat (k + 128)]⟩)
        (pos + 1) bs := by
  have h : (UInt8.ofNat (k + 128)).toNat = k + 128 := toNat_ofNat (by omega)
  have h₁ : o.low ≤ UInt8.ofNat (k + 128) := by
    rw [UInt8.le_iff_toNat_le, h]
    omega
  have h₂ : UInt8.ofNat (k + 128) ≤ o.high := by
    rw [UInt8.le_iff_toNat_le, h]
    omega
  rw [read, if_pos ⟨h₁, h₂⟩, hm, h]
  simp

/-! ## 2. One character -/

/-- The bytes of a character are read as that character. -/
theorem read_utf8EncodeChar (c : Char) (pos : Nat) (bs : Bytes) :
    read none pos (String.utf8EncodeChar c ++ bs) =
      let next := read none (pos + (String.utf8EncodeChar c).length) bs
      (c :: next.1, next.2) := by
  have hv := c.valid
  simp only [UInt32.isValidChar, Nat.isValidChar] at hv
  have hc : Char.ofNat c.val.toNat = c := Char.ofNat_toNat c
  unfold String.utf8EncodeChar
  generalize hn : c.val.toNat = n at hv hc
  simp only
  split
  · -- one byte
    have h := toNat_ofNat (n := n) (by omega)
    simp only [List.cons_append, List.nil_append, read, lead, h]
    simp [*]
  split
  · -- two bytes
    have h := toNat_ofNat (n := n / 64 % 32 + 192) (by omega)
    simp only [List.cons_append, List.nil_append]
    rw [read, lead, h]
    simp only
    rw [if_neg (by omega), if_neg (by omega), if_pos (by omega)]
    simp only
    rw [read_last rfl (by simp) (by simp; omega) (by omega)]
    simp only
    rw [show (n / 64 % 32 + 192 - 0xc0) * 64 + n % 64 = n by omega, hc]
    simp
  split
  · -- three bytes
    have h := toNat_ofNat (n := n / 4096 % 16 + 224) (by omega)
    simp only [List.cons_append, List.nil_append]
    rw [read, lead, h]
    simp only
    rw [if_neg (by omega), if_neg (by omega), if_neg (by omega)]
    -- The first continuation byte is narrowed behind the least lead byte,
    by_cases he0 : n / 4096 % 16 + 224 = 0xe0
    · rw [if_pos he0]
      simp only
      rw [read_more rfl (by simp; omega) (by simp; omega) (by omega),
        read_last rfl (by simp) (by simp; omega) (by omega)]
      simp only
      rw [show (0 * 64 + n / 64 % 64) * 64 + n % 64 = n by omega, hc]
      simp
    -- and behind the one that would otherwise lead to surrogates.
    by_cases hed : n / 4096 % 16 + 224 = 0xed
    · rw [if_neg he0, if_pos hed]
      simp only
      rw [read_more rfl (by simp) (by simp; omega) (by omega),
        read_last rfl (by simp) (by simp; omega) (by omega)]
      simp only
      rw [show (0xd * 64 + n / 64 % 64) * 64 + n % 64 = n by omega, hc]
      simp
    rw [if_neg he0, if_neg hed, if_pos (by omega)]
    simp only
    rw [read_more rfl (by simp) (by simp; omega) (by omega),
      read_last rfl (by simp) (by simp; omega) (by omega)]
    simp only
    rw [show ((n / 4096 % 16 + 224 - 0xe0) * 64 + n / 64 % 64) * 64 + n % 64 = n by omega, hc]
    simp
  · -- four bytes
    have h := toNat_ofNat (n := n / 262144 % 8 + 240) (by omega)
    simp only [List.cons_append, List.nil_append]
    rw [read, lead, h]
    simp only
    rw [if_neg (by omega), if_neg (by omega), if_neg (by omega), if_neg (by omega),
      if_neg (by omega), if_neg (by omega)]
    -- The same goes for the least lead byte here,
    by_cases hf0 : n / 262144 % 8 + 240 = 0xf0
    · rw [if_pos hf0]
      simp only
      rw [read_more rfl (by simp; omega) (by simp; omega) (by omega),
        read_more rfl (by simp) (by simp; omega) (by omega),
        read_last rfl (by simp) (by simp; omega) (by omega)]
      simp only
      rw [show ((0 * 64 + n / 4096 % 64) * 64 + n / 64 % 64) * 64 + n % 64 = n by omega, hc]
      simp
    -- and for the greatest, which is what the other two cases leave.
    by_cases hf3 : n / 262144 % 8 + 240 ≤ 0xf3
    · rw [if_neg hf0, if_pos hf3]
      simp only
      rw [read_more rfl (by simp) (by simp; omega) (by omega),
        read_more rfl (by simp) (by simp; omega) (by omega),
        read_last rfl (by simp) (by simp; omega) (by omega)]
      simp only
      rw [show (((n / 262144 % 8 + 240 - 0xf0) * 64 + n / 4096 % 64) * 64 + n / 64 % 64) * 64 +
        n % 64 = n by omega, hc]
      simp
    rw [if_neg hf0, if_neg hf3, if_pos (by omega)]
    simp only
    rw [read_more rfl (by simp) (by simp; omega) (by omega),
      read_more rfl (by simp) (by simp; omega) (by omega),
      read_last rfl (by simp) (by simp; omega) (by omega)]
    simp only
    rw [show ((4 * 64 + n / 4096 % 64) * 64 + n / 64 % 64) * 64 + n % 64 = n by omega, hc]
    simp

/-! ## 3. Texts -/

/-- The bytes of a text, with more behind them, are read as that text first. -/
theorem read_encode (cs : List Char) (pos : Nat) (bs : Bytes) :
    read none pos (encode cs ++ bs) =
      let next := read none (pos + (encode cs).length) bs
      (cs ++ next.1, next.2) := by
  induction cs generalizing pos with
  | nil => simp [encode]
  | cons c cs ih =>
    rw [show encode (c :: cs) = String.utf8EncodeChar c ++ encode cs from rfl, List.append_assoc,
      read_utf8EncodeChar, ih]
    simp [Nat.add_assoc]

/-- Every text comes back from its bytes. -/
theorem decode_encode (cs : List Char) : decode (encode cs) = .ok cs := by
  have h := read_encode cs 0 []
  rw [List.append_nil] at h
  rw [decode, h]
  simp [read]
end FlatQuery.Text.Utf8
