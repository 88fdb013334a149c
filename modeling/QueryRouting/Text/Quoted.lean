import QueryRouting.Text.Extender
import QueryRouting.Text.Invisible

/-!
Text in double quotes, as type and argument descriptions show it.
-/

namespace QueryRouting.Text.Quoted

/-- A code point in lower-case hexadecimal, without leading zeros. -/
def hexDigits (n : Nat) : List Char :=
  Nat.toDigits 16 n

/-- Whether a character would not be seen where it stands, as it has no form of its own. -/
def isHidden (c : Char) : Bool :=
  invisibleRanges.contains c || extenderRanges.contains c

/-- Hidden characters other than the four with a letter of their own are shown by code point. -/
def escape (c : Char) : List Char :=
  match c with
  | '"' => ['\\', '"']
  | '\\' => ['\\', '\\']
  | '\n' => ['\\', 'n']
  | '\r' => ['\\', 'r']
  | '\t' => ['\\', 't']
  | '\x00' => ['\\', '0']
  | _ =>
    if isHidden c then ['\\', 'u', '\x7b'] ++ hexDigits c.toNat ++ ['\x7d'] else [c]

def quote (s : String) : String :=
  String.ofList ('"' :: s.toList.flatMap escape ++ ['"'])

end QueryRouting.Text.Quoted
