import QueryRouting.Json.Reader
import QueryRouting.Message.Form
import QueryRouting.Message.Headers
import QueryRouting.Message.Method
import QueryRouting.Message.Target
import QueryRouting.Text.Blank

/-!
Requests: buffering a body that arrives in chunks, and reading it by its content type.
-/

namespace QueryRouting

/-- What a body stream yields next. After a failure it yields nothing more that counts. -/
inductive BodyEvent
  | chunk (bytes : Bytes)
  | failure (text : String)
  deriving DecidableEq, Repr

structure Request where
  method : Method
  target : Target
  headers : Headers
  body : List BodyEvent
  deriving DecidableEq, Repr

inductive BodyError
  | broken (text : String)
  | malformed (text : String)
  | tooLarge (limit : Nat)
  deriving DecidableEq, Repr

namespace Body

/-- Appends chunks to what is buffered, which stays within the limit. -/
def readOnto (limit : Nat) (buffered : Bytes) : List BodyEvent → Except BodyError Bytes
  | [] => .ok buffered
  | .failure text :: _ => .error (.broken text)
  | .chunk bytes :: rest =>
    if limit < buffered.length + bytes.length then .error (.tooLarge limit)
    else readOnto limit (buffered ++ bytes) rest

def read (limit : Nat) (events : List BodyEvent) : Except BodyError Bytes :=
  readOnto limit [] events

inductive Format
  | json
  | form
  | text
  deriving DecidableEq, Repr

/-- The media type of a content type, in lower case and without parameters. -/
def mediaType (contentType : String) : List Char :=
  Text.trim ((contentType.toList.map Char.toLower).takeWhile (· != ';'))

/-- The first content type decides; one that is not visible counts as empty. -/
def format (headers : Headers) : Format :=
  let media := mediaType ((headers.text? "content-type").getD "")
  if media = "application/json".toList ∨ "+json".toList.isSuffixOf media then .json
  else if media = "application/x-www-form-urlencoded".toList then .form
  else .text

/-- The JSON value of a body. An empty one is null, and so is one that is no text. -/
def parse (headers : Headers) (bytes : Bytes) : Except BodyError Json :=
  if bytes.isEmpty then .ok .null
  else
    match format headers with
    | .json =>
      match (Bytes.toString? bytes).bind fun s => Json.parse? s.toList with
      | some v => .ok v
      | none => .error (.malformed "malformed JSON")
    | .form => .ok (Form.toJson bytes)
    | .text => .ok (Json.ofOption .str (Bytes.toString? bytes))

end Body

namespace Request

def idHeader : String := "x-request-id"

/-- The id that the headers carry, or a fresh one. -/
def idOf (headers : Headers) (fresh : String) : String :=
  match headers.text? idHeader with
  | some id => if id.isEmpty then fresh else id
  | none => fresh

end Request

end QueryRouting
