import QueryRouting.Number.Word

/-!
Finite binary64 numbers, and rounding a quotient of naturals to the nearest of them.
-/

namespace QueryRouting

/-- How many doubles have one exponent. -/
def Double.binade : Nat :=
  Word.size 52

/--
A finite binary64 number: its sign, and the place of its magnitude among the non-negative doubles
in ascending order, which is also its bit pattern without the sign.
-/
structure Double where
  negative : Bool
  rank : Nat
  finite : rank < 0x7ff * Double.binade
  deriving DecidableEq, Repr

namespace Double

def zero (negative : Bool) : Double :=
  ⟨negative, 0, by decide⟩

/-- The magnitude is `significand * 2 ^ exponent`. -/
def significand (x : Double) : Nat :=
  if x.rank < binade then x.rank else binade + x.rank % binade

def exponent (x : Double) : Int :=
  if x.rank < binade then -1074 else (x.rank / binade : Nat) - 1075

def isZero (x : Double) : Bool :=
  x.rank == 0

def neg (x : Double) : Double :=
  { x with negative := !x.negative }

end Double

/-- `num / den` rounded to an integer, a half to the even neighbour. -/
def roundHalfEven (num den : Nat) : Nat :=
  let q := num / den
  let twice := 2 * (num % den)
  if twice < den then q
  else if den < twice then q + 1
  else q + q % 2

/-- `num / den * 2 ^ shift` as a quotient of naturals. -/
def scaleByPowerOfTwo (num den : Nat) (shift : Int) : Nat × Nat :=
  if 0 ≤ shift then (num * Nat.pow 2 shift.toNat, den)
  else (num, den * Nat.pow 2 (-shift).toNat)

/-- The exponent of the leading bit of `num / den`, a positive quotient. -/
def leadingBit (num den : Nat) : Int :=
  let guess : Int := (Nat.log2 num : Int) - Nat.log2 den
  let (n, d) := scaleByPowerOfTwo num den (-guess)
  if n < d then guess - 1 else guess

namespace Double

/-- The largest exponent for which `num / den` has at least 53 bits before the point, or `-1074`. -/
def gridExponent (num den : Nat) : Int :=
  max (-1074) (leadingBit num den - 52)

/-- The double nearest to `num / den`, of two the even one; `none` past the largest. -/
def ofRatio (negative : Bool) (num den : Nat) : Option Double :=
  if num = 0 then some (zero negative)
  else
    let e := gridExponent num den
    let (n, d) := scaleByPowerOfTwo num den (-e)
    let rank := (e + 1074).toNat * binade + roundHalfEven n d
    if h : rank < 0x7ff * Double.binade then some ⟨negative, rank, h⟩ else none

def ofNat? (n : Nat) : Option Double :=
  ofRatio false n 1

/-- The magnitude as a quotient of naturals. -/
def ratio (x : Double) : Nat × Nat :=
  scaleByPowerOfTwo x.significand 1 x.exponent

def mul? (x y : Double) : Option Double :=
  ofRatio (x.negative != y.negative) (x.ratio.1 * y.ratio.1) (x.ratio.2 * y.ratio.2)

/-- Division; a zero divisor gives `none`. -/
def div? (x y : Double) : Option Double :=
  if y.isZero then none
  else ofRatio (x.negative != y.negative) (x.ratio.1 * y.ratio.2) (x.ratio.2 * y.ratio.1)

end Double

end QueryRouting
