import QueryRouting.Backend.Sqlite.Cell
import QueryRouting.Number.Extended
import QueryRouting.Number.Literal

/-!
What a number in a statement denotes.

Digits without a point or exponent are an integer, if it has no more than 64 bits. Every other
number is real: its leading digits, as many as surely fit into 64 bits, are scaled by a power of ten
with 64 significant bits. So a real number is close to the decimal but not always nearest.
-/

namespace QueryRouting.Sqlite

/-- A number without a sign, and whether it is digits alone. -/
structure Numeral where
  literal : Number.Literal
  isInteger : Bool
  deriving DecidableEq, Repr

namespace Numeral

def ofChars? (cs : List Char) : Option Numeral :=
  (Number.Literal.ofChars? cs).map fun literal => ⟨literal, Text.Numeral.isNumeral cs⟩

/-- Digits are appended to naturals below this. -/
def digitBound : Nat :=
  (Word.max 64 - 9) / 10

/-- Appends digits to `n` while it lies below the bound, and gives the digits left over. -/
def accumulate (n : Nat) : List Char → Nat × List Char
  | [] => (n, [])
  | c :: rest =>
    if n < digitBound then accumulate (10 * n + Text.Numeral.digitValue c) rest else (n, c :: rest)

/-- Moves places from a positive exponent into the significand while it stays within 64 bits. -/
def raise (n : Nat) : Nat → Nat × Nat
  | 0 => (n, 0)
  | e + 1 => if n < Word.max 64 / 10 then raise (10 * n) e else (n, e + 1)

/-- Moves trailing zeros of the significand into a negative exponent. -/
def lower (n : Nat) : Nat → Nat × Nat
  | 0 => (n, 0)
  | e + 1 => if n % 10 = 0 then lower (n / 10) e else (n, e + 1)

/-- An exponent counts up to this. -/
def exponentBound : Int := 10000

/-- The leading digits and their power of ten. -/
def significant (t : Numeral) : Nat × Int :=
  let (n, dropped) := accumulate 0 t.literal.whole
  let (n, ignored) := accumulate n t.literal.fraction
  let written := max (-exponentBound) (min exponentBound t.literal.exponent)
  (n, written + dropped.length - (t.literal.fraction.length - ignored.length : Nat))

/-- The magnitude of a number that is not zero. -/
def magnitude (t : Numeral) : Extended :=
  let (n, e) := t.significant
  if 0 ≤ e then
    let (n, e) := raise n e.toNat
    (Extended.ofNat n).scale e
  else
    let (n, e) := lower n (-e).toNat
    (Extended.ofNat n).scale (-(e : Int))

/-- The number as a double; `none` past the largest. -/
def real? (negative : Bool) (t : Numeral) : Option Double :=
  if t.significant.1 = 0 then some (Double.zero negative) else t.magnitude.toDouble? negative

def integer (negative : Bool) (t : Numeral) : Int :=
  let n : Int := Text.Numeral.value t.literal.whole
  if negative then -n else n

/-- The value of a number behind an optional minus sign. Past all doubles it is null. -/
def cell (negative : Bool) (t : Numeral) : Cell :=
  if t.isInteger && Word.isInt64 (t.integer negative) then .integer (t.integer negative)
  else
    match t.real? negative with
    | some x => .real x
    | none => .null

end Numeral

end QueryRouting.Sqlite
