import QueryRouting.Keyed
import QueryRouting.Number.Double

/-!
JSON values. An object lists its fields by ascending key, each key once.
-/

namespace QueryRouting

inductive Json
  | null
  | bool (value : Bool)
  | int (value : Int)
  | double (value : Double)
  | str (value : String)
  | arr (items : List Json)
  | obj (fields : List (String × Json))
  deriving Inhabited

namespace Json

def ofPairs (pairs : List (String × Json)) : Json :=
  .obj (Keyed.ofList pairs)

def empty : Json :=
  .obj []

def ofNat (n : Nat) : Json :=
  .int n

def ofOption (f : α → Json) : Option α → Json
  | some a => f a
  | none => .null

/-- A field of an object; no other value has fields. -/
def field? (v : Json) (key : String) : Option Json :=
  match v with
  | .obj fields => Keyed.find? key fields
  | _ => none

/-- Sets one key. A value that is no object is first replaced by the empty object. -/
def setField (v : Json) (key : String) (value : Json) : Json :=
  match v with
  | .obj fields => .obj (Keyed.insert key value fields)
  | _ => .obj [(key, value)]

def string? : Json → Option String
  | .str s => some s
  | _ => none

end Json

end QueryRouting
