import QueryRouting.Json.Path
import QueryRouting.Message.Method
import QueryRouting.Message.Response
import QueryRouting.Query.Failure
import QueryRouting.Text.Pieces

/-!
What the steps of a chain share for one request: a view of the request, the response under
construction, and the result slot.
-/

namespace QueryRouting

/-- The request as steps see it. `locals` holds what steps attach. -/
structure RequestView where
  method : Method
  path : String
  headers : Headers
  params : Json
  query : Json
  body : Json
  locals : Keyed Json

namespace RequestView

def ofTarget (method : Method) (path : String) : RequestView :=
  ⟨method, path, Headers.empty, Json.empty, Json.empty, .null, []⟩

/-- A path parameter, if it is a string. -/
def param? (view : RequestView) (name : String) : Option String :=
  (view.params.field? name).bind Json.string?

def setParam (view : RequestView) (name : String) (value : Json) : RequestView :=
  { view with params := view.params.setField name value }

def setQuery (view : RequestView) (name : String) (value : Json) : RequestView :=
  { view with query := view.query.setField name value }

def setLocal (view : RequestView) (name : String) (value : Json) : RequestView :=
  { view with locals := view.locals.insert name value }

end RequestView

/-- Status and headers set so far, and the response that was sent, if one was. -/
structure ResponseState where
  status : Status
  headers : Headers
  sent : Option Response

namespace ResponseState

def initial : ResponseState :=
  ⟨Status.ok, Headers.empty, none⟩

def setStatus (state : ResponseState) (status : Status) : ResponseState :=
  { state with status }

def insertHeader (state : ResponseState) (name : String) (value : Bytes) : ResponseState :=
  { state with headers := state.headers.insert name value }

def appendHeader (state : ResponseState) (name : String) (value : Bytes) : ResponseState :=
  { state with headers := state.headers.append name value }

/--
Completes a response: its own status stays unless it is 200, and each header set so far replaces
the one of its name.
-/
def render (state : ResponseState) (response : Response) : Response :=
  { response with
    status := if response.status = Status.ok then state.status else response.status
    headers := state.headers.entries.foldl (fun headers (name, value) => headers.insert name value)
      response.headers }

/-- Sends a response. Only the first one counts. -/
def send (state : ResponseState) (response : Response) : ResponseState :=
  match state.sent with
  | some _ => state
  | none => { state with sent := some (state.render response) }

def isSent (state : ResponseState) : Bool :=
  state.sent.isSome

end ResponseState

structure Context where
  request : RequestView
  response : ResponseState
  /-- The result slot. -/
  result : Option Json
  /-- Whether a route has begun. -/
  matched : Bool
  requestId : String

namespace Context

def ofView (request : RequestView) (requestId : String) : Context :=
  ⟨request, ResponseState.initial, none, false, requestId⟩

def setResult (cx : Context) (v : Json) : Context :=
  { cx with result := some v }

def clearResult (cx : Context) : Context :=
  { cx with result := none }

def markMatched (cx : Context) : Context :=
  { cx with matched := true }

/-- Header values that are visible text, by name. -/
def headerFields (headers : Headers) : Json :=
  Json.ofPairs (headers.entries.filterMap fun (name, value) =>
    (Headers.visible? value).map fun text => (name, .str text))

/-- What the first segment of a path selects. -/
def root? (cx : Context) : String → Option Json
  | "params" => some cx.request.params
  | "query" => some cx.request.query
  | "body" => some cx.request.body
  | "headers" => some (headerFields cx.request.headers)
  | "method" => some (.str cx.request.method.name)
  | "path" => some (.str cx.request.path)
  | "data" => cx.result
  | name => cx.request.locals.find? name

/-- The segments of a dotted path; empty ones count. -/
def segments (path : String) : List String :=
  (Text.pieces '.' path.toList).map String.ofList

/-- The value at the end of segments, or the one that leads nowhere. -/
def resolve (cx : Context) : List String → Except String Json
  | [] => .error ""
  | first :: rest =>
    match cx.root? first with
    | some v => v.walk rest
    | none => .error first

def lookup (cx : Context) (path : String) : Except ResolveError Json :=
  (cx.resolve (segments path)).mapError fun segment => ⟨path, segment⟩

end Context

end QueryRouting
