import QueryRouting.Json.Basic
import QueryRouting.Number.Literal
import QueryRouting.Number.Word
import QueryRouting.Text.Pieces

/-!
Scalars of TOML that are written without quotes: booleans, numbers, dates and times.

Each is read from a lexeme that it has to fill. A float that is not finite becomes null, and a date
or time an object that holds its RFC 3339 text.
-/

namespace QueryRouting.Toml

open Text

/-- Digits with single underscores between them. -/
def isDigitRun (isDigit : Char → Bool) (cs : List Char) : Bool :=
  (pieces '_' cs).all fun piece => !piece.isEmpty && piece.all isDigit

def withoutUnderscores (cs : List Char) : List Char :=
  cs.filter (· != '_')

/-- A decimal integer without its sign; it has no leading zero. -/
def isDecimalRun (cs : List Char) : Bool :=
  isDigitRun Char.isDigit cs && (cs.length ≤ 1 || cs.head? != some '0')

def decimalInteger? (cs : List Char) : Option Int :=
  let (negative, digits) := Number.sign cs
  if isDecimalRun digits then
    let n : Int := Numeral.value (withoutUnderscores digits)
    let n := if negative then -n else n
    if Word.isInt64 n then some n else none
  else none

def basedInteger? (base : Nat) (digits : List Char) : Option Int :=
  if isDigitRun (Numeral.isDigitIn base) digits then
    let n : Int := Numeral.valueIn base (withoutUnderscores digits)
    if Word.isInt64 n then some n else none
  else none

def integer? : List Char → Option Int
  | '0' :: 'x' :: digits => basedInteger? 16 digits
  | '0' :: 'o' :: digits => basedInteger? 8 digits
  | '0' :: 'b' :: digits => basedInteger? 2 digits
  | cs => decimalInteger? cs

/-- A mark and digits behind it; without the mark there is nothing. -/
def isFraction : List Char → Bool
  | '.' :: digits => isDigitRun Char.isDigit digits
  | cs => cs.isEmpty

def isExponent : List Char → Bool
  | c :: rest => (c == 'e' || c == 'E') && isDigitRun Char.isDigit (Number.sign rest).2
  | [] => true

def isExponentMark (c : Char) : Bool :=
  c == 'e' || c == 'E'

/-- A whole part, with a fraction or an exponent or both. A positive one may not be too large. -/
def decimalFloat? (cs : List Char) : Option (Option Double) :=
  let (negative, magnitude) := Number.sign cs
  let mantissa := magnitude.takeWhile (!isExponentMark ·)
  let exponent := magnitude.dropWhile (!isExponentMark ·)
  let whole := mantissa.takeWhile (· != '.')
  let fraction := mantissa.dropWhile (· != '.')
  if isDecimalRun whole && isFraction fraction && isExponent exponent
      && !(fraction.isEmpty && exponent.isEmpty) then
    match Number.nearest? (withoutUnderscores cs) with
    | some x => some (some x)
    | none => if negative then some none else none
  else none

def isSpecialFloat (cs : List Char) : Bool :=
  let name := (Number.sign cs).2
  name == "inf".toList || name == "nan".toList

/-- A number of exactly so many digits, between bounds. -/
def fixed? (width low high : Nat) (cs : List Char) : Option Nat :=
  if cs.length = width then (Numeral.natural? cs).filter fun n => low ≤ n && n ≤ high else none

def isLeapYear (year : Nat) : Bool :=
  year % 4 == 0 && (year % 100 != 0 || year % 400 == 0)

def daysInMonth (year month : Nat) : Nat :=
  if month = 2 then (if isLeapYear year then 29 else 28)
  else if month = 4 ∨ month = 6 ∨ month = 9 ∨ month = 11 then 30
  else 31

/-- The text of a date, if the lexeme is one. -/
def date? (cs : List Char) : Option (List Char) :=
  match pieces '-' cs with
  | [year, month, day] => do
    let y ← fixed? 4 0 9999 year
    let m ← fixed? 2 1 12 month
    let d ← fixed? 2 1 31 day
    if d ≤ daysInMonth y m then some cs else none
  | _ => none

/-- Nine digits of a fraction are kept, without trailing zeros. -/
def fractionText (digits : List Char) : List Char :=
  match ((digits.take 9).reverse.dropWhile (· == '0')).reverse with
  | [] => []
  | kept => '.' :: kept

/-- The text of a time of day. Seconds may not be left out. -/
def time? (cs : List Char) : Option (List Char) :=
  let clock := cs.takeWhile (· != '.')
  match pieces ':' clock with
  | [hour, minute, second] => do
    let _ ← fixed? 2 0 23 hour
    let _ ← fixed? 2 0 59 minute
    let _ ← fixed? 2 0 60 second
    match cs.dropWhile (· != '.') with
    | [] => some clock
    | _ :: digits => if Numeral.isNumeral digits then some (clock ++ fractionText digits) else none
  | _ => none

/-- The text of an offset from UTC; a zero one has a plus sign. -/
def offset? : List Char → Option (List Char)
  | ['Z'] | ['z'] => some ['Z']
  | sign :: cs =>
    match pieces ':' cs with
    | [hour, minute] => do
      let h ← fixed? 2 0 23 hour
      let m ← fixed? 2 0 59 minute
      if sign = '+' ∨ sign = '-' then
        some ((if h = 0 ∧ m = 0 then '+' else sign) :: cs)
      else none
    | _ => none
  | [] => none

def isOffsetStart (c : Char) : Bool :=
  c == 'Z' || c == 'z' || c == '+' || c == '-'

/-- A time that an offset may follow. -/
def timeWithOffset? (cs : List Char) : Option (List Char) := do
  let time ← time? (cs.takeWhile (!isOffsetStart ·))
  match cs.dropWhile (!isOffsetStart ·) with
  | [] => some time
  | offset => return time ++ (← offset? offset)

/-- A date and time; blanks between them are single spaces. -/
def dateTime? (cs : List Char) : Option (List Char) := do
  let date ← date? (cs.take 10)
  match cs.drop 10 with
  | [] => some date
  | delimiter :: time =>
    if delimiter = 'T' ∨ delimiter = 't' ∨ delimiter = ' ' then
      return date ++ 'T' :: (← timeWithOffset? time)
    else none

def momentKey : String := "$__toml_private_datetime"

def moment? (cs : List Char) : Option Json :=
  ((dateTime? cs).or (time? cs)).map fun text =>
    .obj [(momentKey, .str (String.ofList text))]

def scalar? (cs : List Char) : Option Json :=
  if cs = "true".toList then some (.bool true)
  else if cs = "false".toList then some (.bool false)
  else if isSpecialFloat cs then some .null
  else
    ((moment? cs).or ((decimalFloat? cs).map (Json.ofOption .double))).or ((integer? cs).map .int)

end QueryRouting.Toml
