import QueryRouting.Number.Double

/-!
Binary numbers with 64 significant bits and an exponent of any size.

A number is scaled by a power of ten in steps, and each product is rounded, so that the last bits of
the result depend on the steps.
-/

namespace QueryRouting

/-- The number `significand * 2 ^ exponent`. -/
structure Extended where
  significand : Nat
  exponent : Int
  deriving DecidableEq, Repr

namespace Extended

/-- The number nearest to `num / den`, of two the even one. -/
def ofRatio (num den : Nat) : Extended :=
  if num = 0 then ⟨0, 0⟩
  else
    let e := leadingBit num den - 63
    let (n, d) := scaleByPowerOfTwo num den (-e)
    ⟨roundHalfEven n d, e⟩

def ofNat (n : Nat) : Extended :=
  ofRatio n 1

def mul (x y : Extended) : Extended :=
  let product := ofNat (x.significand * y.significand)
  { product with exponent := product.exponent + x.exponent + y.exponent }

/-- The number nearest to `10 ^ e`. -/
def powerOfTen (e : Int) : Extended :=
  if 0 ≤ e then ofNat (Nat.pow 10 e.toNat) else ofRatio 1 (Nat.pow 10 (-e).toNat)

def mulTimes (x factor : Extended) (n : Nat) : Extended :=
  Nat.repeat (mul · factor) n x

/-- Scales by `10 ^ e`: first by hundreds of places, then by tens, then by single ones. -/
def scale (x : Extended) (e : Int) : Extended :=
  let places := e.natAbs
  let x := x.mulTimes (powerOfTen (100 * e.sign)) (places / 100)
  let x := x.mulTimes (powerOfTen (10 * e.sign)) (places % 100 / 10)
  x.mulTimes (powerOfTen e.sign) (places % 10)

/-- The double nearest to the number; `none` past the largest. -/
def toDouble? (negative : Bool) (x : Extended) : Option Double :=
  let (num, den) := scaleByPowerOfTwo x.significand 1 x.exponent
  Double.ofRatio negative num den

end Extended

end QueryRouting
