import QueryRouting.Json.Basic
import QueryRouting.Query.Failure
import QueryRouting.Text.Numeral
import QueryRouting.Text.Pieces

/-!
Queries as a backend receives them: text with neutral placeholders, values, and parameter types.
-/

namespace QueryRouting

/-- A declared parameter type; without parentheses it has no argument list at all. -/
structure ParameterType where
  name : String
  args : Option (List Nat)
  deriving DecidableEq, Repr

structure Descriptor where
  text : String
  values : List Json
  types : List (Option ParameterType)

/-- The neutral placeholder of a position, counted from one. -/
def placeholder (position : Nat) : List Char :=
  '?' :: 'v' :: Text.decimal position ++ ['?']

end QueryRouting
