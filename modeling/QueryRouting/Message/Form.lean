import QueryRouting.Json.Basic
import QueryRouting.Message.Percent
import QueryRouting.Text.Pieces

/-!
Url-encoded pairs, of a query string as of a form body, and the JSON object that groups them.
-/

namespace QueryRouting.Form

/-- A `+` is a space; malformed UTF-8 is replaced. -/
def decodeText (bytes : Bytes) : String :=
  Bytes.toStringLossy (Percent.decode (bytes.map fun b => if b = 0x2b then 0x20 else b))

/-- A pair is divided at its first `=`; without one the value is empty. -/
def pair (piece : Bytes) : String × String :=
  (decodeText (piece.takeWhile (· != 0x3d)), decodeText ((piece.dropWhile (· != 0x3d)).drop 1))

/-- Pairs are separated by `&`; empty pieces are no pairs. -/
def pairs (bytes : Bytes) : List (String × String) :=
  ((Text.pieces 0x26 bytes).filter fun piece => !piece.isEmpty).map pair

/-- Adds a value to those of its key, in front. -/
def addPair (entries : Keyed (List String)) (key value : String) : Keyed (List String) :=
  entries.insert key (value :: (entries.find? key).getD [])

/-- The values of each key, the latest one first. -/
def collect (pairs : List (String × String)) : Keyed (List String) :=
  pairs.foldl (fun entries (key, value) => addPair entries key value) []

/-- A single value is a string, and several are an array. -/
def ofValues : List String → Json
  | [value] => .str value
  | values => .arr (values.map .str)

/-- The object of all keys, the values of each one in order. -/
def group (pairs : List (String × String)) : Json :=
  .obj ((collect pairs).map fun (key, values) => (key, ofValues values.reverse))

def toJson (bytes : Bytes) : Json :=
  group (pairs bytes)

end QueryRouting.Form
