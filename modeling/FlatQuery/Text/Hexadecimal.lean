/-!
# Hexadecimal numbers of a fixed width

Bytes and code points are shown in base sixteen, with lower-case digits and as many
of them as the place calls for.
-/

set_option autoImplicit false

namespace FlatQuery.Text

/-- The last `k` digits of a number in base sixteen. -/
def hexDigits : Nat → Nat → List Char
  | 0, _ => []
  | k + 1, n =>
    let d := n % 16
    hexDigits k (n / 16) ++ [if d < 10 then Char.ofNat (d + 48) else Char.ofNat (d + 87)]

theorem length_hexDigits (k n : Nat) : (hexDigits k n).length = k := by
  induction k generalizing n with
  | zero => rfl
  | succ k ih => simp [hexDigits, ih]

end FlatQuery.Text
