/-!
Why a template gives no query.
-/

namespace QueryRouting

/-- A dotted path that leads nowhere, with the segment at which it ends. -/
structure ResolveError where
  path : String
  segment : String
  deriving DecidableEq, Repr

def ResolveError.message (e : ResolveError) : String :=
  "reference \x60" ++ e.path ++ "\x60 is undefined at \x60" ++ e.segment ++ "\x60"

inductive TemplateError
  | resolve (e : ResolveError)
  /-- An argument of the type is too large; `raw` is the argument as written. -/
  | typeArgument (type raw : String)
  deriving DecidableEq, Repr

def TemplateError.message : TemplateError → String
  | .resolve e => e.message
  | .typeArgument type raw =>
    "type argument \x60" ++ raw ++ "\x60 of \x60" ++ type ++ "\x60 is out of range"

end QueryRouting
