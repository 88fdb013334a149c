import QueryRouting.Message.Request
import QueryRouting.Route.Table

/-!
From a request to its response: building the context, running the chain, and deciding what the
client gets.
-/

namespace QueryRouting

/-- How a request left the router. -/
inductive Departure
  | error
  | sent
  | forwarded
  | result
  deriving DecidableEq, Repr

/-- A response, how its request left the router if it got there, and what happened meanwhile. -/
structure Exchange where
  response : Response
  departure : Option Departure
  events : List Event

/-- Turns the failure of a chain into a response. -/
abbrev ErrorHandler := StepError → Context → Response

/-- Answers requests that no route does. -/
abbrev Fallback := Request → Response

namespace ErrorHandler

def statusOf : StepError → Status
  | .body _ => Status.badRequest
  | .payloadTooLarge _ => Status.payloadTooLarge
  | _ => Status.internalServerError

/-- Keeps a response that was sent; otherwise answers with a status alone. -/
def default : ErrorHandler := fun e cx =>
  cx.response.sent.getD (Response.empty (statusOf e))

end ErrorHandler

namespace StepError

def ofBody : BodyError → StepError
  | .broken text => .body text
  | .malformed text => .body text
  | .tooLarge limit => .payloadTooLarge limit

end StepError

namespace Context

/-- The context of a request before its body is read. -/
def ofRequest (request : Request) (params : List (String × String)) (fresh : String) : Context :=
  ofView
    { RequestView.ofTarget request.method request.target.path with
      headers := request.headers
      query := Form.toJson (Bytes.ofString (request.target.query.getD ""))
      params := Json.ofPairs (params.map fun (name, value) => (name, .str value)) }
    (Request.idOf request.headers fresh)

def setBody (cx : Context) (body : Json) : Context :=
  { cx with request := { cx.request with body } }

/-- The response of the result slot: a string as text, another value as JSON. -/
def renderResult (cx : Context) : Response :=
  match cx.result with
  | none => cx.response.render (Response.empty Status.ok)
  | some (.str s) => cx.response.render (Response.ofText s)
  | some v => cx.response.render (Response.ofJson v)

end Context

/-- Who answers when a request is not for a route. -/
structure Collaborators where
  handler : ErrorHandler
  fallback : Option Fallback

namespace Collaborators

/-- The answer of the fallback to the request as it came in. -/
def forward (c : Collaborators) (request : Request) : Response :=
  match c.fallback with
  | some fallback => fallback request
  | none => Response.empty Status.notFound

/-- Decides what the client gets after a chain has ended. -/
def finalize (c : Collaborators) (request : Request) (run : StepRun) : Response × Departure :=
  match run.outcome with
  | .error e => (c.handler e run.context, .error)
  | .ok flow =>
    match run.context.response.sent with
    | some response => (response, .sent)
    | none =>
      if flow = .exitRouter ∨ !run.context.matched then (c.forward request, .forwarded)
      else (run.context.renderResult, .result)

end Collaborators

/-- Reads and parses the body, then runs a chain. A bad body fails before any step. -/
def runWithBody (limit : Nat) (request : Request) (cx : Context) (chain : Step) : Bytes × StepRun :=
  match Body.read limit request.body with
  | .error e => ([], .failed cx (.ofBody e))
  | .ok bytes =>
    match Body.parse request.headers bytes with
    | .error e => (bytes, .failed cx (.ofBody e))
    | .ok body => (bytes, chain (cx.setBody body))

def exchange (c : Collaborators) (limit : Nat) (chain : Step) (params : List (String × String))
    (fresh : String) (request : Request) : Exchange :=
  let (bytes, run) := runWithBody limit request (Context.ofRequest request params fresh) chain
  let (response, departure) := c.finalize { request with body := [.chunk bytes] } run
  ⟨response, some departure, run.events⟩

end QueryRouting
