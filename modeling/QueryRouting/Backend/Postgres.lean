import QueryRouting.Json.Reader
import QueryRouting.Number.Literal
import QueryRouting.Text.Blank

/-!
Turning strings into the kind of value that a Postgres parameter has.
-/

namespace QueryRouting.Postgres

open Text

/-- The parameter types that a string is converted for. -/
inductive Family
  | integer
  | real
  | boolean
  | json
  deriving DecidableEq, Repr

def family? : String → Option Family
  | "INT2" | "INT4" | "INT8" => some .integer
  | "FLOAT4" | "FLOAT8" | "NUMERIC" => some .real
  | "BOOL" => some .boolean
  | "JSON" | "JSONB" => some .json
  | _ => none

def trueWords : List String := ["true", "t", "1", "yes", "on"]

def falseWords : List String := ["false", "f", "0", "no", "off"]

def boolean? (cs : List Char) : Option Bool :=
  let word := String.ofList (cs.map Char.toLower)
  if trueWords.contains word then some true
  else if falseWords.contains word then some false
  else none

/-- What a text says in a family. Only JSON text is taken with the blanks around it. -/
def Family.read? (family : Family) (cs : List Char) : Option Json :=
  match family with
  | .integer => (Numeral.int64 (trim cs)).toOption.map .int
  | .real => (Number.nearest? (trim cs)).map .double
  | .boolean => (boolean? (trim cs)).map .bool
  | .json => Json.parse? cs

/-- Text that says nothing in the family of its type stays as it is. -/
def coerceText (text type : String) : Json :=
  ((family? type).bind (·.read? text.toList)).getD (.str text)

def coerce (value : Json) (type : Option String) : Json :=
  match value, type with
  | .str text, some type => coerceText text type
  | value, _ => value

/-- Converts each value by the type at its position; values past the types stay. -/
def coerceAll : List Json → List String → List Json
  | [], _ => []
  | value :: values, types => coerce value types.head? :: coerceAll values types.tail

end QueryRouting.Postgres
