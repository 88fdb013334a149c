import QueryRouting.Backend.SqlServer

/-!
Executors: what runs a query, and how its run looks from outside.
-/

namespace QueryRouting

structure Execution where
  result : Except ExecError Json
  /-- How many turns pass between its start and its end. -/
  delay : Nat
  /-- The requests handed to a client meanwhile. -/
  sent : List SqlServer.Request

def Execution.ofResult (result : Except ExecError Json) : Execution :=
  ⟨result, 0, []⟩

/-- An executor's runs depend on the query alone. -/
structure Executor where
  backend : String
  execute : Descriptor → Execution

namespace Executor

def custom (execute : Descriptor → Execution) : Executor :=
  ⟨"custom", execute⟩

/-- The client gets a request for each query whose types can all be built, and no other. -/
def sqlServer (registry : TypeRegistry) (client : SqlServer.Request → Except String Json) :
    Executor where
  backend := "mssql"
  execute query :=
    match SqlServer.request registry query with
    | .error e => Execution.ofResult (.error e)
    | .ok request => ⟨(client request).mapError .driver, 0, [request]⟩

end Executor

end QueryRouting
