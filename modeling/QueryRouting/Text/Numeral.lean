import QueryRouting.Number.Word

/-!
Numerals in ASCII digits: their value, and reading decimal ones into a fixed range.
-/

namespace QueryRouting.Text.Numeral

def digitValue (c : Char) : Nat :=
  c.toNat - '0'.toNat

/-- The value of a run of digits, most significant first. -/
def value (digits : List Char) : Nat :=
  digits.foldl (fun n c => 10 * n + digitValue c) 0

/-- The value of a hexadecimal digit, in either case. -/
def hexValue? (c : Char) : Option Nat :=
  if c.isDigit then some (digitValue c)
  else if 'a' ≤ c ∧ c ≤ 'f' then some (c.toNat - 'a'.toNat + 10)
  else if 'A' ≤ c ∧ c ≤ 'F' then some (c.toNat - 'A'.toNat + 10)
  else none

/-- A digit in a base up to sixteen. -/
def isDigitIn (base : Nat) (c : Char) : Bool :=
  (hexValue? c).any (· < base)

/-- The value of a run of digits in a base up to sixteen. -/
def valueIn (base : Nat) (digits : List Char) : Nat :=
  digits.foldl (fun n c => base * n + (hexValue? c).getD 0) 0

def isNumeral (cs : List Char) : Bool :=
  !cs.isEmpty && cs.all Char.isDigit

/-- A numeral of any length, without a sign. -/
def natural? (cs : List Char) : Option Nat :=
  if isNumeral cs then some (value cs) else none

/-- A numeral with an optional `+`, at most `max`. -/
def unsigned? (max : Nat) (cs : List Char) : Option Nat :=
  let digits := match cs with
    | '+' :: rest => rest
    | _ => cs
  (natural? digits).filter (· ≤ max)

/-- Why a text is no 64-bit integer. -/
inductive Refusal
  | empty
  | invalidDigit
  | tooLarge
  | tooSmall
  deriving DecidableEq, Repr

def Refusal.message : Refusal → String
  | .empty => "cannot parse integer from empty string"
  | .invalidDigit => "invalid digit found in string"
  | .tooLarge => "number too large to fit in target type"
  | .tooSmall => "number too small to fit in target type"

/--
Reads digits from the left, adding each to `n`, which stays at most `max`.
The first offence is reported: a character that is no digit, or a digit that leads past `max`.
-/
def bounded (max : Nat) (overflow : Refusal) : Nat → List Char → Except Refusal Nat
  | n, [] => .ok n
  | n, c :: rest =>
    if !c.isDigit then .error .invalidDigit
    else if 10 * n + digitValue c ≤ max then bounded max overflow (10 * n + digitValue c) rest
    else .error overflow

/-- An integer with an optional sign, within 64 bits in two's complement. -/
def int64 (cs : List Char) : Except Refusal Int :=
  match cs with
  | [] => .error .empty
  | ['+'] | ['-'] => .error .invalidDigit
  | '-' :: digits => (bounded (Word.size 63) .tooSmall 0 digits).map fun (n : Nat) => -(n : Int)
  | '+' :: digits => (bounded (Word.max 63) .tooLarge 0 digits).map Int.ofNat
  | digits => (bounded (Word.max 63) .tooLarge 0 digits).map Int.ofNat

end QueryRouting.Text.Numeral
