import QueryRouting.Json.Embedded
import QueryRouting.Json.Token

/-!
Reading JSON text, one token at a time, over the stack of arrays and objects that are open.
-/

namespace QueryRouting.Json

/-- An array or object that is not yet closed, its members in reverse. -/
inductive Frame
  | arr (items : List Json)
  | obj (members : Members) (key : String)

/-- What the text read so far leaves to be read. -/
inductive Awaiting
  | value
  /-- After `[`: a value or the end. -/
  | firstItem
  /-- After an opening brace: a key or the end. The pairs before it are none. -/
  | firstKey
  /-- After a comma in an object. -/
  | key (members : Members)
  | colon (members : Members) (key : String)
  /-- After a member of the innermost frame: a comma or the end. -/
  | separator (value : Json)

structure ReaderState where
  frames : List Frame
  awaiting : Awaiting

/-- Arrays and objects may be nested this deep. -/
def maxDepth : Nat := 127

namespace ReaderState

def start : ReaderState :=
  ⟨[], .value⟩

def beginValue (frames : List Frame) : Token → Option ReaderState
  | .arrayOpen => if frames.length < maxDepth then some ⟨frames, .firstItem⟩ else none
  | .objectOpen => if frames.length < maxDepth then some ⟨frames, .firstKey⟩ else none
  | .str s => some ⟨frames, .separator (.str s)⟩
  | .scalar v => some ⟨frames, .separator v⟩
  | _ => none

/-- Takes one token, given how embedded text is read. -/
def step (embedded : List Char → Option Json) (state : ReaderState) (token : Token) :
    Option ReaderState :=
  match state.awaiting, token with
  | .value, _ => beginValue state.frames token
  | .firstItem, .arrayClose => some ⟨state.frames, .separator (.arr [])⟩
  | .firstItem, _ => beginValue (.arr [] :: state.frames) token
  | .firstKey, .objectClose => some ⟨state.frames, .separator (.obj [])⟩
  | .firstKey, .str key => some ⟨state.frames, .colon [] key⟩
  | .key members, .str key => some ⟨state.frames, .colon members key⟩
  | .colon members key, .colon => some ⟨.obj members key :: state.frames, .value⟩
  | .separator value, .comma =>
    match state.frames with
    | .arr items :: frames => some ⟨.arr (value :: items) :: frames, .value⟩
    | .obj members key :: frames => some ⟨frames, .key ((key, value) :: members)⟩
    | [] => none
  | .separator value, .arrayClose =>
    match state.frames with
    | .arr items :: frames => some ⟨frames, .separator (.arr (value :: items).reverse)⟩
    | _ => none
  | .separator value, .objectClose =>
    match state.frames with
    | .obj members key :: frames =>
      (ofMembers? embedded ((key, value) :: members).reverse).map fun v => ⟨frames, .separator v⟩
    | _ => none
  | _, _ => none

def result? : ReaderState → Option Json
  | ⟨[], .separator value⟩ => some value
  | _ => none

end ReaderState

/-- Reads text in which embedded text is nested less deep than the bound. -/
def parseNested? : Nat → List Char → Option Json
  | 0 => fun _ => none
  | depth + 1 => fun text =>
    (Token.foldM? (ReaderState.step (parseNested? depth)) .start text).bind ReaderState.result?

/--
The value that the text of one JSON value denotes. Embedded text is shorter than the text around
it, and this bounds how deep it is nested.
-/
def parse? (text : List Char) : Option Json :=
  parseNested? (text.length + 1) text

mutual

/--
The value of a JSON tree whose objects list their members as they are written: embedded text is
read, and all other objects get their keys in order.
-/
def resolve? (surplus : Bool) : Json → Option Json
  | .arr items => (resolveItems? surplus items).map .arr
  | .obj members =>
    if isEmbedding members then (embeddedText? surplus members).bind (parse? ·.toList)
    else (resolveMembers? surplus members).map ofPairs
  | v => some v

def resolveItems? (surplus : Bool) : List Json → Option (List Json)
  | [] => some []
  | v :: rest => do return (← resolve? surplus v) :: (← resolveItems? surplus rest)

def resolveMembers? (surplus : Bool) : Members → Option Members
  | [] => some []
  | (key, v) :: rest => do
    return (key, ← resolve? surplus v) :: (← resolveMembers? surplus rest)

end

end QueryRouting.Json
