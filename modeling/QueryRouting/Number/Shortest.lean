import QueryRouting.Number.Double

/-!
The shortest decimal that reads back as a given double.
-/

namespace QueryRouting

/-- The positive decimal `digits * 10 ^ exponent`. -/
structure Decimal where
  digits : Nat
  exponent : Int
  deriving DecidableEq, Repr

namespace Decimal

/-- `num / den` in units of `10 ^ exponent`, as a quotient of naturals. -/
def inUnits (num den : Nat) (exponent : Int) : Nat × Nat :=
  if 0 ≤ exponent then (num, den * Nat.pow 10 exponent.toNat)
  else (num * Nat.pow 10 (-exponent).toNat, den)

/-- The exponent of the leading digit of `num / den`, a positive quotient. -/
def leadingExponent (num den : Nat) : Int :=
  let guess : Int := ((Nat.log2 num : Int) - Nat.log2 den) * 30103 / 100000
  let atLeast (e : Int) : Bool :=
    let (n, d) := inUnits num den e
    d ≤ n
  if atLeast (guess + 1) then guess + 1 else if atLeast guess then guess else guess - 1

end Decimal

namespace Double

/--
The open interval of reals that round to a positive double, with whether its ends do so too, in
units of a quarter of the spacing above it.
-/
structure RoundingInterval where
  low : Nat
  middle : Nat
  high : Nat
  /-- One unit is `2 ^ exponent`. -/
  exponent : Int
  closed : Bool

/-- Below a power of two the spacing is half of that above it. -/
def roundingInterval (x : Double) : RoundingInterval :=
  let m := x.significand
  let narrow := x.rank % binade = 0 ∧ binade < x.rank
  { low := 4 * m - (if narrow then 1 else 2)
    middle := 4 * m
    high := 4 * m + 2
    exponent := x.exponent - 2
    closed := m % 2 = 0 }

/-- Whether `digits * 10 ^ exponent` lies in the interval. -/
def RoundingInterval.contains (i : RoundingInterval) (x : Decimal) : Bool :=
  let (ten, tenDen) := Decimal.inUnits 1 1 (-x.exponent)
  let (two, twoDen) := scaleByPowerOfTwo 1 1 i.exponent
  let value := x.digits * ten * twoDen
  let low := i.low * two * tenDen
  let high := i.high * two * tenDen
  if i.closed then low ≤ value && value ≤ high else low < value && value < high

/--
The point of the grid of step `10 ^ exponent` that lies in the interval and is nearest to its
middle. Only the two neighbours of the middle can be; of two at equal distance the even one is
taken.
-/
def RoundingInterval.onGrid? (i : RoundingInterval) (exponent : Int) : Option Decimal :=
  let (num, den) := scaleByPowerOfTwo i.middle 1 i.exponent
  let (n, d) := Decimal.inUnits num den exponent
  let below : Decimal := ⟨n / d, exponent⟩
  let above : Decimal := ⟨n / d + 1, exponent⟩
  match i.contains below, i.contains above with
  | true, true =>
    let twice := 2 * (n % d)
    if twice < d ∨ (twice = d ∧ (n / d) % 2 = 0) then some below else some above
  | true, false => some below
  | false, true => some above
  | false, false => none

/-- The fewest digits that read back, seventeen at most. -/
def shortest (x : Double) : Decimal :=
  let i := x.roundingInterval
  let (num, den) := x.ratio
  let lead := Decimal.leadingExponent num den
  ((List.range 17).findSome? fun (k : Nat) => i.onGrid? (lead - k)).getD ⟨x.significand, x.exponent⟩

end Double

structure NumberFormat where
  /-- The exponents of the leading digit that are written positionally, first and last. -/
  positionalFrom : Int
  positionalTo : Int
  /-- What a positive exponent begins with. -/
  positiveExponent : String

namespace NumberFormat

def zeros (n : Nat) : String :=
  String.ofList (List.replicate n '0')

/-- The digits of a shortest decimal, none of them a trailing zero, and the leading exponent. -/
def normalize (x : Decimal) : List Char × Int :=
  let digits := Nat.toDigits 10 x.digits
  let lead := x.exponent + digits.length - 1
  let kept := (digits.reverse.dropWhile (· == '0')).reverse
  (kept, lead)

def positional (digits : List Char) (lead : Int) : String :=
  if lead < 0 then "0." ++ zeros (-lead - 1).toNat ++ String.ofList digits
  else
    let whole := lead.toNat + 1
    if digits.length ≤ whole then
      String.ofList digits ++ zeros (whole - digits.length) ++ ".0"
    else String.ofList (digits.take whole) ++ "." ++ String.ofList (digits.drop whole)

def scientific (format : NumberFormat) (digits : List Char) (lead : Int) : String :=
  let mantissa := match digits with
    | [d] => String.ofList [d]
    | d :: rest => String.ofList (d :: '.' :: rest)
    | [] => "0"
  let mark := if lead < 0 then "e-" else "e" ++ format.positiveExponent
  mantissa ++ mark ++ toString lead.natAbs

/-- A double always shows a point or an exponent. -/
def write (format : NumberFormat) (x : Double) : String :=
  let sign := if x.negative then "-" else ""
  if x.isZero then sign ++ "0.0"
  else
    let (digits, lead) := normalize x.shortest
    sign ++
      if format.positionalFrom ≤ lead ∧ lead ≤ format.positionalTo then positional digits lead
      else format.scientific digits lead

end NumberFormat

end QueryRouting
