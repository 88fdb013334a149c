import QueryRouting.Number.Double
import QueryRouting.Text.Numeral

/-!
Decimals as they are written, and the doubles nearest to them.
-/

namespace QueryRouting

namespace Double

/-- Decimals that lie past these places are no doubles, or zero. -/
def placeBound : Nat := 400

/-- The double nearest to `digits * 10 ^ exponent`; `none` past the largest. -/
def ofDecimal (negative : Bool) (digits : Nat) (exponent : Int) : Option Double :=
  -- Two powers of ten around the decimal, from the number of its bits alone.
  let least : Int := exponent + (3 * (Nat.log2 digits / 10) : Nat)
  let bound : Int := exponent + (Nat.log2 digits / 3 + 1 : Nat)
  if digits = 0 then some (zero negative)
  else if bound < -placeBound then some (zero negative)
  else if placeBound < least then none
  else if 0 ≤ exponent then ofRatio negative (digits * Nat.pow 10 exponent.toNat) 1
  else ofRatio negative digits (Nat.pow 10 (-exponent).toNat)

end Double

namespace Number

open Text

def sign : List Char → Bool × List Char
  | '-' :: rest => (true, rest)
  | '+' :: rest => (false, rest)
  | cs => (false, cs)

/-- The exponent of a literal after its mantissa; nothing else may follow. -/
def exponent? : List Char → Option Int
  | [] => some 0
  | c :: rest =>
    if c = 'e' ∨ c = 'E' then
      let (negative, digits) := sign rest
      (Numeral.natural? digits).map fun (n : Nat) => if negative then -(n : Int) else n
    else none

/-- A decimal as written: digits before and behind the point, and the exponent. -/
structure Literal where
  negative : Bool
  whole : List Char
  fraction : List Char
  exponent : Int
  deriving DecidableEq, Repr

namespace Literal

/--
Reads an optional sign, digits with an optional point before, among or after them, and an optional
exponent.
-/
def ofChars? (cs : List Char) : Option Literal := do
  let (negative, cs) := sign cs
  let whole := cs.takeWhile Char.isDigit
  let (fraction, rest) := match cs.dropWhile Char.isDigit with
    | '.' :: rest => (rest.takeWhile Char.isDigit, rest.dropWhile Char.isDigit)
    | rest => ([], rest)
  if whole.isEmpty && fraction.isEmpty then none
  else return ⟨negative, whole, fraction, ← exponent? rest⟩

/-- The double nearest to a literal; `none` past the largest. -/
def nearest? (literal : Literal) : Option Double :=
  Double.ofDecimal literal.negative (Numeral.value (literal.whole ++ literal.fraction))
    (literal.exponent - literal.fraction.length)

end Literal

/-- The double nearest to a decimal in text. Infinities and NaN are no finite number. -/
def nearest? (cs : List Char) : Option Double :=
  (Literal.ofChars? cs).bind Literal.nearest?

end Number

end QueryRouting
