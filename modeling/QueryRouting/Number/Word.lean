/-!
Integers of a fixed number of bits.
-/

namespace QueryRouting.Word

/-- How many values so many bits have. -/
def size (bits : Nat) : Nat :=
  Nat.pow 2 bits

/-- The largest natural of so many bits. -/
def max (bits : Nat) : Nat :=
  size bits - 1

/-- The integers of 64 bits in two's complement. -/
def isInt64 (n : Int) : Bool :=
  -(size 63 : Int) ≤ n && n < size 63

end QueryRouting.Word
