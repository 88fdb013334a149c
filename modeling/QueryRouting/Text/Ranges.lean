/-!
Sets of code points as lists of closed ranges.
-/

namespace QueryRouting.Text

/-- Pairs of a first and a last code point. -/
abbrev Ranges := List (Nat × Nat)

namespace Ranges

def contains (ranges : Ranges) (c : Char) : Bool :=
  ranges.any fun (first, last) => first ≤ c.toNat && c.toNat ≤ last

end Ranges

end QueryRouting.Text
