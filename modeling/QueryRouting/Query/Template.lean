import QueryRouting.Query.Reference

/-!
Query templates: literal text with references in it.

A reference opens with a colon at the start of the template or after a character other than a
colon. The leftmost reference is taken first, and the search goes on behind it.
-/

namespace QueryRouting

/-- The literal text before the first reference, and each reference with the literal text after. -/
structure Template where
  head : List Char
  tail : List (Reference × List Char)
  deriving DecidableEq, Repr

namespace Template

def prepend (c : Char) (t : Template) : Template :=
  { t with head := c :: t.head }

def prependReference (r : Reference) (t : Template) : Template :=
  ⟨[], (r, t.head) :: t.tail⟩

/-- Divides text; `fresh` tells whether a colon here may open a reference. -/
def scan (fresh : Bool) : List Char → Template
  | [] => ⟨[], []⟩
  | c :: rest =>
    if c = ':' ∧ fresh then
      match h : Reference.read rest with
      | some (r, after) =>
        have := Reference.length_read h
        prependReference r (scan false after)
      | none => prepend c (scan false rest)
    else prepend c (scan (c != ':') rest)
termination_by cs => cs.length

def ofString (s : String) : Template :=
  scan true s.toList

def references (t : Template) : List Reference :=
  t.tail.map (·.1)

/-- References with the literal text after each, the first one at the given position. -/
def renderFrom (position : Nat) : List (Reference × List Char) → List Char
  | [] => []
  | (_, literal) :: rest => placeholder position ++ literal ++ renderFrom (position + 1) rest

/-- The text with the i-th reference replaced by the i-th placeholder. It depends on no value. -/
def text (t : Template) : String :=
  String.ofList (t.head ++ renderFrom 1 t.tail)

/-- A reference's value and declared type; the value is looked up first. -/
def bindReference (lookup : String → Except ResolveError Json) (r : Reference) :
    Except TemplateError (Json × Option ParameterType) := do
  let value ← (lookup (String.ofList r.path)).mapError .resolve
  match r.note with
  | none => return (value, none)
  | some note => return (value, some (← note.decode))

def bindReferences (lookup : String → Except ResolveError Json) :
    List Reference → Except TemplateError (List (Json × Option ParameterType))
  | [] => .ok []
  | r :: rest => do
    let bound ← bindReference lookup r
    let others ← bindReferences lookup rest
    return bound :: others

/-- The query of a template; the first reference that fails decides the error. -/
def describe (t : Template) (lookup : String → Except ResolveError Json) :
    Except TemplateError Descriptor := do
  let bound ← bindReferences lookup t.references
  return ⟨t.text, bound.map (·.1), bound.map (·.2)⟩

end Template

end QueryRouting
