import QueryRouting.Text.Bytes

/-!
Percent-encoded bytes.
-/

namespace QueryRouting.Percent

def hexValue? (b : UInt8) : Option UInt8 :=
  if 0x30 ≤ b ∧ b ≤ 0x39 then some (b - 0x30)
  else if 0x41 ≤ b ∧ b ≤ 0x46 then some (b - 0x41 + 10)
  else if 0x61 ≤ b ∧ b ≤ 0x66 then some (b - 0x61 + 10)
  else none

/-- The byte that `%` stands for before these two. -/
def pair? (high low : UInt8) : Option UInt8 := do
  return (← hexValue? high) * 16 + (← hexValue? low)

/-- A `%` without two hexadecimal digits after it stands for itself. -/
def decode : Bytes → Bytes
  | c :: high :: low :: rest =>
    if c = 0x25 then
      match pair? high low with
      | some b => b :: decode rest
      | none => c :: decode (high :: low :: rest)
    else c :: decode (high :: low :: rest)
  | c :: rest => c :: decode rest
  | [] => []

/-- The text of a percent-encoded part of a path, if it is UTF-8. -/
def decodeText? (s : String) : Option String :=
  Bytes.toString? (decode (Bytes.ofString s))

end QueryRouting.Percent
