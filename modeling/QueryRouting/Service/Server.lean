import QueryRouting.Settings.Schema

/-!
What a server puts around a router: request ids, and a limit on the length of bodies.
-/

namespace QueryRouting.Server

/-- Gives an id to a request that has no id header, even an empty one. -/
def identify (fresh : String) (request : Request) : Request :=
  if request.headers.contains Request.idHeader then request
  else { request with headers := request.headers.insert Request.idHeader (Bytes.ofString fresh) }

/-- Copies the id of a request to a response that has none. -/
def propagate (request : Request) (response : Response) : Response :=
  match request.headers.get? Request.idHeader with
  | some id =>
    if response.headers.contains Request.idHeader then response
    else { response with headers := response.headers.insert Request.idHeader id }
  | none => response

def withRequestId (inner : Service) : Service := fun fresh request =>
  let request := identify fresh request
  let answer := inner fresh request
  { answer with response := propagate request answer.response }

/-- The length that a request announces for its body. -/
def contentLength? (headers : Headers) : Option Nat :=
  (headers.text? "content-length").bind fun text =>
    Text.Numeral.unsigned? (Word.max 64) text.toList

/-- A stream that fails at the chunk with which it would pass the limit. -/
def limitStream (limit : Nat) : List BodyEvent → List BodyEvent
  | [] => []
  | .failure text :: rest => .failure text :: rest
  | .chunk bytes :: rest =>
    if limit < bytes.length then [.failure "length limit exceeded"]
    else .chunk bytes :: limitStream (limit - bytes.length) rest

def tooLong (method : Method) : Exchange :=
  let response := (Response.ofText "length limit exceeded").withStatus Status.payloadTooLarge
  ⟨Router.stripBody method response, none, []⟩

/-- Refuses an announced length above the limit, and cuts the stream at the smaller of the two. -/
def withBodyLimit (limit : Nat) (inner : Service) : Service := fun fresh request =>
  match contentLength? request.headers with
  | some length =>
    if limit < length then tooLong request.method
    else inner fresh { request with body := limitStream (min limit length) request.body }
  | none => inner fresh { request with body := limitStream limit request.body }

/-- The layers of a server around a service; ids are given before lengths are checked. -/
def wrap (config : ServerConfig) (inner : Service) : Service :=
  let limited := withBodyLimit config.bodyLimitBytes inner
  if config.requestId then withRequestId limited else limited

end QueryRouting.Server
