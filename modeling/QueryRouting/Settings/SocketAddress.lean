import QueryRouting.Number.Word
import QueryRouting.Text.Numeral

/-!
Socket addresses: an IPv4 address, or an IPv6 address in brackets, and a port.
-/

namespace QueryRouting

inductive SocketAddress
  | v4 (octets : List Nat) (port : Nat)
  | v6 (groups : List Nat) (scope port : Nat)
  deriving DecidableEq, Repr

namespace SocketAddress

/-- A decimal number up to `max`; leading zeros are allowed. -/
def number (max : Nat) (cs : List Char) : Option (Nat × List Char) :=
  ((Text.Numeral.natural? (cs.takeWhile Char.isDigit)).filter (· ≤ max)).map
    (·, cs.dropWhile Char.isDigit)

/-- Up to three digits without a leading zero, at most 255. -/
def octet (cs : List Char) : Option (Nat × List Char) :=
  let digits := cs.takeWhile Char.isDigit
  if 3 < digits.length ∨ (digits.head? = some '0' ∧ 1 < digits.length) then none
  else number 255 cs

def expect (c : Char) : List Char → Option (List Char)
  | d :: rest => if c = d then some rest else none
  | [] => none

def ipv4 (cs : List Char) : Option (List Nat × List Char) := do
  let (a, cs) ← octet cs
  let (b, cs) ← octet (← expect '.' cs)
  let (c, cs) ← octet (← expect '.' cs)
  let (d, cs) ← octet (← expect '.' cs)
  return ([a, b, c, d], cs)

/-- Up to four hexadecimal digits. -/
def group (cs : List Char) : Option (Nat × List Char) :=
  let digits := cs.takeWhile (Text.Numeral.isDigitIn 16)
  if digits.isEmpty ∨ 4 < digits.length then none
  else some (Text.Numeral.valueIn 16 digits, cs.dropWhile (Text.Numeral.isDigitIn 16))

/-- What a run of groups ends with. -/
structure GroupRun where
  groups : List Nat
  /-- Whether the last two groups are an IPv4 address. -/
  endsInIpv4 : Bool
  rest : List Char

/-- The two groups of an IPv4 address. -/
def groupsOfOctets : List Nat → List Nat
  | [a, b, c, d] => [256 * a + b, 256 * c + d]
  | _ => []

/-- Groups with colons between, up to a number of them; the last two may be an IPv4 address. -/
def groups (first : Bool) : Nat → List Char → GroupRun
  | 0, cs => ⟨[], false, cs⟩
  | left + 1, cs =>
    match if first then some cs else expect ':' cs with
    | none => ⟨[], false, cs⟩
    | some after =>
      match if 0 < left then ipv4 after else none with
      | some (octets, rest) => ⟨groupsOfOctets octets, true, rest⟩
      | none =>
        match group after with
        | none => ⟨[], false, cs⟩
        | some (g, rest) =>
          let run := groups false left rest
          { run with groups := g :: run.groups }

/-- Eight groups; `::` stands for one or more that are zero, and comes before any IPv4 address. -/
def ipv6 (cs : List Char) : Option (List Nat × List Char) :=
  let head := groups true 8 cs
  if head.groups.length = 8 then some (head.groups, head.rest)
  else if head.endsInIpv4 then none
  else do
    let rest ← expect ':' (← expect ':' head.rest)
    let tail := groups true (7 - head.groups.length) rest
    let zeros := List.replicate (8 - head.groups.length - tail.groups.length) 0
    return (head.groups ++ zeros ++ tail.groups, tail.rest)

def scope (cs : List Char) : Option (Nat × List Char) :=
  match cs with
  | '%' :: rest => number (Word.max 32) rest
  | _ => some (0, cs)

def port (cs : List Char) : Option Nat := do
  let (n, rest) ← number (Word.max 16) (← expect ':' cs)
  if rest.isEmpty then some n else none

def parse? (s : String) : Option SocketAddress :=
  match s.toList with
  | '[' :: cs => do
    let (groups, cs) ← ipv6 cs
    let (scope, cs) ← scope cs
    return .v6 groups scope (← port (← expect ']' cs))
  | cs => do
    let (octets, cs) ← ipv4 cs
    return .v4 octets (← port cs)

end SocketAddress

end QueryRouting
