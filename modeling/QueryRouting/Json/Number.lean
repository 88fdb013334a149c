import QueryRouting.Json.Basic
import QueryRouting.Number.Word
import QueryRouting.Text.Numeral

/-!
What a number in JSON text denotes.

An integer from `-2^63` to `2^64 - 1` is exact. Every other number is a double: its leading digits
are kept as long as they fit into 64 bits, rounded to a double, and then multiplied or divided by
the double nearest to a power of ten. So there may be two roundings, and a number past the largest
double denotes nothing.
-/

namespace QueryRouting.Json

open Text

/-- A number as written: digits of the whole part, of the fraction and of the exponent. -/
structure NumberText where
  negative : Bool
  whole : List Char
  fraction : Option (List Char)
  /-- Whether the exponent is negative, and its digits. -/
  exponent : Option (Bool × List Char)
  deriving DecidableEq, Repr

/-- Appends digits to `n` as long as it stays below `2^64`, and gives the digits left over. -/
def accumulate (n : Nat) : List Char → Nat × List Char
  | [] => (n, [])
  | c :: rest =>
    if 10 * n + Numeral.digitValue c < Word.size 64 then
      accumulate (10 * n + Numeral.digitValue c) rest
    else (n, c :: rest)

/-- The double nearest to `10 ^ e`. -/
def powerOfTen? (e : Nat) : Option Double :=
  Double.ofRatio false (Nat.pow 10 e) 1

/-- Divides by `10 ^ 308` as often as the exponent lies below `-308`; zero stays zero. -/
def scaleDown (x : Double) (e : Nat) : Option Double :=
  if e ≤ 308 then do x.div? (← powerOfTen? e)
  else if x.isZero then some x
  else do scaleDown (← x.div? (← powerOfTen? 308)) (e - 308)
termination_by e

/-- `significand * 10 ^ exponent` as a double. -/
def scale (significand : Nat) (exponent : Int) : Option Double := do
  let x ← Double.ofNat? significand
  if exponent < 0 then scaleDown x (-exponent).toNat
  else if exponent ≤ 308 then x.mul? (← powerOfTen? exponent.toNat)
  else if x.isZero then some x
  else none

/-- Exponents are counted in 32 bits and stop at the ends of that range. -/
def saturate (e : Int) : Int :=
  max (-(Word.size 31 : Int)) (min (Word.max 31) e)

/-- The exponent as written lies outside 32 bits. -/
def exponentOverflows (digits : List Char) : Bool :=
  Word.size 31 ≤ Numeral.value digits

/-- The magnitude of a number that is no exact integer. -/
def NumberText.magnitude? (t : NumberText) : Option Double :=
  let (n, dropped) := accumulate 0 t.whole
  let (significand, rest) := accumulate n (t.fraction.getD [])
  let start : Int := dropped.length - ((t.fraction.getD []).length - rest.length : Nat)
  match t.exponent with
  | none => scale significand start
  | some (negative, digits) =>
    if exponentOverflows digits then
      if significand = 0 ∨ negative then some (Double.zero false) else none
    else
      let written : Int := Numeral.value digits
      scale significand (saturate (if negative then start - written else start + written))

def NumberText.value? (t : NumberText) : Option Json :=
  let n := Numeral.value t.whole
  if t.fraction.isNone && t.exponent.isNone && n < Word.size 64 && !t.negative then some (.int n)
  else if t.fraction.isNone && t.exponent.isNone && 0 < n && n ≤ Word.size 63 && t.negative then
    some (.int (-(n : Int)))
  else t.magnitude?.map fun x => .double (if t.negative then x.neg else x)

end QueryRouting.Json
