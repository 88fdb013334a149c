import QueryRouting.Json.Basic

/-!
JSON text inside a JSON value: an object whose first key is the mark stands for the value of the
text under it.
-/

namespace QueryRouting.Json

def embeddedKey : String := "$serde_json::private::RawValue"

/-- The members of an object in the order in which they are written. -/
abbrev Members := List (String × Json)

def isEmbedding (members : Members) : Bool :=
  members.head?.any (·.1 == embeddedKey)

/-- The text that members embed. Members behind it are refused, unless a surplus is ignored. -/
def embeddedText? (surplus : Bool) : Members → Option String
  | (_, .str text) :: rest => if surplus || rest.isEmpty then some text else none
  | _ => none

/-- The value of an object with these members, given how text is read. -/
def ofMembers? (read : List Char → Option Json) (members : Members) : Option Json :=
  if isEmbedding members then (embeddedText? false members).bind (read ·.toList)
  else some (ofPairs members)

end QueryRouting.Json
