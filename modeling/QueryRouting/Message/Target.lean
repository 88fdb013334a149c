/-!
Request targets.
-/

namespace QueryRouting

/--
A request target without its fragment. The origin is `scheme://authority`, empty when the target is
a path alone; in the authority form there is an origin and no path.
-/
structure Target where
  origin : String
  path : String
  query : Option String
  deriving DecidableEq, Repr

namespace Target

def text (target : Target) : String :=
  target.origin ++ target.path ++
    match target.query with
    | some query => "?" ++ query
    | none => ""

/-- Divides a text at the first character that passes. -/
def cut (p : Char → Bool) (cs : List Char) : List Char × List Char :=
  (cs.takeWhile (!p ·), cs.dropWhile (!p ·))

def ofPathAndQuery (origin : String) (emptyPath : String) (cs : List Char) : Target :=
  let (path, rest) := cut (· == '?') cs
  { origin
    path := if path.isEmpty then emptyPath else String.ofList path
    query := match rest with
      | _ :: query => some (String.ofList query)
      | [] => none }

/-- The scheme of an absolute target, and what follows `://`. -/
def scheme? (cs : List Char) : Option (List Char × List Char) :=
  match cut (· == ':') cs with
  | (scheme, ':' :: '/' :: '/' :: rest) =>
    if scheme.all fun c => c.isAlphanum || c == '+' || c == '-' || c == '.' then
      some (scheme, rest)
    else none
  | _ => none

/-- `http` and `https` are written in lower case. -/
def normalScheme (scheme : List Char) : List Char :=
  let lower := scheme.map Char.toLower
  if lower = "http".toList ∨ lower = "https".toList then lower else scheme

def ofString (s : String) : Target :=
  let cs := s.toList.takeWhile (· != '#')
  match cs with
  | '/' :: _ => ofPathAndQuery "" "/" cs
  | ['*'] => ⟨"", "*", none⟩
  | _ =>
    match scheme? cs with
    | some (scheme, rest) =>
      let (authority, rest) := cut (fun c => c == '/' || c == '?') rest
      ofPathAndQuery (String.ofList (normalScheme scheme ++ "://".toList ++ authority)) "/" rest
    | none => ⟨String.ofList cs, "", none⟩

end Target

end QueryRouting
