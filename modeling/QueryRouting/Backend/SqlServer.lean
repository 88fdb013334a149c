import QueryRouting.Backend.TypeRegistry
import QueryRouting.Query.Placeholder

/-!
Requests to a SQL Server client: text with `@vN` parameters, and a named input for each.
-/

namespace QueryRouting.SqlServer

/-- A named value; without a type the client infers one. -/
structure Input where
  name : String
  type : Option SqlType
  value : Json

structure Request where
  sql : String
  inputs : List Input

def mark : String := "@v"

/-- An annotation without arguments builds the type with its defaults. -/
def inputType (registry : TypeRegistry) : Option ParameterType → Except ExecError (Option SqlType)
  | none => .ok none
  | some type => (registry.construct type.name (type.args.getD [])).map some

/-- Inputs for values with their declared types, the first one at the given position. -/
def inputsFrom (registry : TypeRegistry) (position : Nat) :
    List (Json × Option ParameterType) → Except ExecError (List Input)
  | [] => .ok []
  | (value, declared) :: rest => do
    let type ← inputType registry declared
    let others ← inputsFrom registry (position + 1) rest
    return ⟨"v" ++ String.ofList (Text.decimal position), type, value⟩ :: others

/-- The request for a query; the first type that cannot be built is reported. -/
def request (registry : TypeRegistry) (query : Descriptor) : Except ExecError Request := do
  let inputs ← inputsFrom registry 1 (query.values.zip query.types)
  return ⟨Placeholder.numbered query.text mark, inputs⟩

end QueryRouting.SqlServer
