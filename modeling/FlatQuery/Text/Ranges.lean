/-!
# Classes of characters

The character database gives a class of characters as ranges of code points. Here a class
is a list of such ranges, and a character is in it if it is in one of them.
-/

set_option autoImplicit false

namespace FlatQuery.Text

/-- Whether a character is in one of some ranges of code points, ends included. -/
def inRanges (ranges : List (Nat × Nat)) (c : Char) : Bool :=
  ranges.any fun (first, last) => first ≤ c.toNat && c.toNat ≤ last

end FlatQuery.Text
