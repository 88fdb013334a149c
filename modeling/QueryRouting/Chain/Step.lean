import QueryRouting.Backend.Executor
import QueryRouting.Chain.Context
import QueryRouting.Chain.Failure
import QueryRouting.Query.Template

/-!
Steps: functions on the context that tell how the chain goes on, and what they did on the way.
-/

namespace QueryRouting

/-- How a chain goes on after a step. -/
inductive Flow
  | next
  /-- Ends the chain. -/
  | halt
  /-- Skips what is left of the current route. -/
  | skipRoute
  /-- Ends the chain and forwards the request. -/
  | exitRouter
  deriving DecidableEq, Repr

/-- What an observer sees of a run. -/
inductive Event
  | started (backend : String) (query : Descriptor)
  /-- A SQL Server client got a request. -/
  | sent (request : SqlServer.Request)
  | finished (backend : String) (query : Descriptor) (succeeded : Bool)
  /-- A value that a custom step leaves for the observer. -/
  | note (value : Json)

/-- The outcome of one step or of several. -/
structure StepRun where
  context : Context
  outcome : Except StepError Flow
  events : List Event

abbrev Step := Context → StepRun

namespace StepRun

def done (cx : Context) (flow : Flow) : StepRun :=
  ⟨cx, .ok flow, []⟩

def failed (cx : Context) (e : StepError) : StepRun :=
  ⟨cx, .error e, []⟩

/-- The run with events that came before it. -/
def after (run : StepRun) (earlier : List Event) : StepRun :=
  { run with events := earlier ++ run.events }

end StepRun

namespace Execution

def succeeded (execution : Execution) : Bool :=
  match execution.result with
  | .ok _ => true
  | .error _ => false

def startEvents (execution : Execution) (backend : String) (query : Descriptor) : List Event :=
  .started backend query :: execution.sent.map .sent

def endEvent (execution : Execution) (backend : String) (query : Descriptor) : Event :=
  .finished backend query execution.succeeded

end Execution

namespace Step

def clear : Step := fun cx =>
  .done cx.clearResult .next

def setStatus (status : Status) : Step := fun cx =>
  .done { cx with response := cx.response.setStatus status } .next

/-- Runs the query of a template and stores its result. A failure leaves the context as it was. -/
def query (executor : Executor) (template : String) : Step := fun cx =>
  match (Template.ofString template).describe cx.lookup with
  | .error e => .failed cx (.template e)
  | .ok query =>
    let execution := executor.execute query
    let events := execution.startEvents executor.backend query
      ++ [execution.endEvent executor.backend query]
    match execution.result with
    | .ok v => ⟨cx.setResult v, .ok .next, events⟩
    | .error e => ⟨cx, .error (.execute e), events⟩

end Step

end QueryRouting
