import QueryRouting.Json.Basic
import QueryRouting.Number.Shortest

/-!
Compact JSON text: no spaces, fields in key order, doubles by the shortest decimal that reads back.
-/

namespace QueryRouting.Json

/-- Positional from `0.00001` up to sixteen digits before the point; a positive exponent has its
sign. -/
def numberFormat : NumberFormat :=
  ⟨-5, 15, "+"⟩

def hexDigit (n : Nat) : Char :=
  Nat.digitChar (n % 16)

/-- Only quote, backslash and the controls below U+0020 are escaped. -/
def escape (c : Char) : List Char :=
  match c with
  | '"' => ['\\', '"']
  | '\\' => ['\\', '\\']
  | '\x08' => ['\\', 'b']
  | '\x0c' => ['\\', 'f']
  | '\n' => ['\\', 'n']
  | '\r' => ['\\', 'r']
  | '\t' => ['\\', 't']
  | _ =>
    if c.toNat < 0x20 then
      ['\\', 'u', '0', '0', hexDigit (c.toNat / 16), hexDigit c.toNat]
    else [c]

def quote (s : String) : String :=
  String.ofList ('"' :: s.toList.flatMap escape ++ ['"'])

mutual

def text : Json → String
  | .null => "null"
  | .bool true => "true"
  | .bool false => "false"
  | .int n => toString n
  | .double x => numberFormat.write x
  | .str s => quote s
  | .arr items => "[" ++ textItems items ++ "]"
  | .obj fields => "\x7b" ++ textFields fields ++ "\x7d"

def textItems : List Json → String
  | [] => ""
  | [v] => text v
  | v :: rest => text v ++ "," ++ textItems rest

def textFields : List (String × Json) → String
  | [] => ""
  | [(k, v)] => quote k ++ ":" ++ text v
  | (k, v) :: rest => quote k ++ ":" ++ text v ++ "," ++ textFields rest

end

end QueryRouting.Json
