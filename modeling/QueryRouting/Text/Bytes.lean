/-!
Bytes, and the text they hold in UTF-8.
-/

namespace QueryRouting

abbrev Bytes := List UInt8

namespace Bytes

def ofString (s : String) : Bytes :=
  s.toUTF8.toList

/-- The text whose UTF-8 form these bytes are. -/
def toString? (bytes : Bytes) : Option String :=
  String.fromUTF8? ⟨bytes.toArray⟩

/-- What a lead byte announces: its own bits, how many bytes follow, and the bounds of the next. -/
structure Lead where
  bits : Nat
  following : Nat
  low : UInt8
  high : UInt8

def lead? (b : UInt8) : Option Lead :=
  if b < 0x80 then some ⟨b.toNat, 0, 0x80, 0xbf⟩
  else if 0xc2 ≤ b ∧ b < 0xe0 then some ⟨b.toNat - 0xc0, 1, 0x80, 0xbf⟩
  else if b = 0xe0 then some ⟨0, 2, 0xa0, 0xbf⟩
  else if b = 0xed then some ⟨0xd, 2, 0x80, 0x9f⟩
  else if 0xe1 ≤ b ∧ b < 0xf0 then some ⟨b.toNat - 0xe0, 2, 0x80, 0xbf⟩
  else if b = 0xf0 then some ⟨0, 3, 0x90, 0xbf⟩
  else if 0xf1 ≤ b ∧ b < 0xf4 then some ⟨b.toNat - 0xf0, 3, 0x80, 0xbf⟩
  else if b = 0xf4 then some ⟨4, 3, 0x80, 0x8f⟩
  else none

/-- Reads the bytes that follow a lead byte, as far as they fit. -/
def continuation (low high : UInt8) (bits : Nat) : Nat → Bytes → Option Nat × Bytes
  | 0, rest => (some bits, rest)
  | n + 1, b :: rest =>
    if low ≤ b ∧ b ≤ high then continuation 0x80 0xbf (bits * 64 + b.toNat % 64) n rest
    else (none, b :: rest)
  | _ + 1, [] => (none, [])

theorem length_continuation (low high : UInt8) (bits n : Nat) (bytes : Bytes) :
    (continuation low high bits n bytes).2.length ≤ bytes.length := by
  fun_induction continuation low high bits n bytes with
  | case1 => simp
  | case2 low high bits n b rest _ ih =>
    simp
    omega
  | case3 => simp
  | case4 => simp

/-- Each longest start of a character that is broken off becomes one U+FFFD. -/
def lossyChars : Bytes → List Char
  | [] => []
  | b :: rest =>
    match lead? b with
    | none => '\ufffd' :: lossyChars rest
    | some lead =>
      let read := continuation lead.low lead.high lead.bits lead.following rest
      have := length_continuation lead.low lead.high lead.bits lead.following rest
      (read.1.map Char.ofNat).getD '\ufffd' :: lossyChars read.2
termination_by bytes => bytes.length

def toStringLossy (bytes : Bytes) : String :=
  String.ofList (lossyChars bytes)

end Bytes

end QueryRouting
