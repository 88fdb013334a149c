import QueryRouting.Json.Printer
import QueryRouting.Message.Headers
import QueryRouting.Message.Status

/-!
Responses, and the ones that a body of a given kind makes.
-/

namespace QueryRouting

structure Response where
  status : Status
  headers : Headers
  body : Bytes
  deriving DecidableEq, Repr

namespace Response

def contentType (value : String) : Headers :=
  Headers.empty.append "content-type" (Bytes.ofString value)

def empty (status : Status) : Response :=
  ⟨status, Headers.empty, []⟩

def ofText (s : String) : Response :=
  ⟨Status.ok, contentType "text/plain; charset=utf-8", Bytes.ofString s⟩

def ofJson (v : Json) : Response :=
  ⟨Status.ok, contentType "application/json", Bytes.ofString v.text⟩

def withStatus (response : Response) (status : Status) : Response :=
  { response with status }

end Response

end QueryRouting
