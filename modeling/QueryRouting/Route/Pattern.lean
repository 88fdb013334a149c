import QueryRouting.Chain.Failure
import QueryRouting.Text.Pieces

/-!
Path patterns: literal text, parameters for one segment, and a wildcard for the rest.

Of several patterns that match a path, the one wins that has literal text where the others first
differ from it, or else a parameter rather than a wildcard.
-/

namespace QueryRouting

def checkPath (path : String) : Except BindError Unit :=
  let segments := Text.pieces '/' path.toList
  if path.isEmpty then .error (.invalidPath path .empty)
  else if path.toList.head? ≠ some '/' then .error (.invalidPath path .noLeadingSlash)
  else if segments.any (·.head? = some ':') then .error (.invalidPath path .colonSegment)
  else if segments.any (·.head? = some '*') then .error (.invalidPath path .starSegment)
  else .ok ()

inductive PatternPart
  | literal (c : Char)
  /-- One segment; it may be empty only in the middle of a path. -/
  | parameter (name : String)
  /-- The rest of the path, not empty. -/
  | wildcard (name : String)
  deriving DecidableEq, Repr

abbrev Pattern := List PatternPart

namespace Pattern

/-- A character of a pattern, and whether it is a brace that was written twice. -/
structure Mark where
  char : Char
  escaped : Bool
  deriving DecidableEq, Repr

/-- A brace written twice is a literal brace. -/
def marks : List Char → List Mark
  | '\x7b' :: '\x7b' :: rest => ⟨'\x7b', true⟩ :: marks rest
  | '\x7d' :: '\x7d' :: rest => ⟨'\x7d', true⟩ :: marks rest
  | c :: rest => ⟨c, false⟩ :: marks rest
  | [] => []

def Mark.opens (m : Mark) : Bool :=
  m.char == '\x7b' && !m.escaped

def Mark.closes (m : Mark) : Bool :=
  m.char == '\x7d' && !m.escaped

/-- The part of a name between braces; a leading `*` makes it a wildcard. -/
def partOfName (first : Char) (rest : List Char) : Option PatternPart :=
  if first = '\x7d' ∨ rest.any (fun c => c == '*' || c == '/') then none
  else if first = '*' then
    if rest.isEmpty then none else some (.wildcard (String.ofList rest))
  else some (.parameter (String.ofList (first :: rest)))

/-- A parameter fills its segment to the end, and a wildcard the path. -/
def mayFollow (part : PatternPart) (rest : List Mark) : Bool :=
  match part, rest with
  | _, [] => true
  | .parameter _, next :: _ => next.char == '/'
  | _, _ :: _ => false

/-- The name and closing brace after an opening one, and what follows. -/
def readPart : List Mark → Option (PatternPart × List Mark)
  | [] => none
  | first :: rest =>
    match rest.dropWhile (!·.closes) with
    | [] => none
    | _ :: after =>
      (partOfName first.char ((rest.takeWhile (!·.closes)).map (·.char))).bind fun part =>
        if mayFollow part after then some (part, after) else none

theorem length_readPart {ms after : List Mark} {part : PatternPart}
    (h : readPart ms = some (part, after)) : after.length < ms.length := by
  unfold readPart at h
  split at h
  · simp at h
  · rename_i first rest
    have hd := (List.dropWhile_sublist (!·.closes) (l := rest)).length_le
    split at h
    · simp at h
    · rename_i hr
      simp only [Option.bind_eq_some_iff] at h
      obtain ⟨p, -, h⟩ := h
      split at h
      · simp only [Option.some.injEq, Prod.mk.injEq] at h
        simp [hr] at hd
        simp [← h.2]
        omega
      · simp at h

def ofMarks (ms : List Mark) : Option Pattern :=
  match ms with
  | [] => some []
  | m :: rest =>
    if m.closes then none
    else if m.opens then
      match h : readPart rest with
      | none => none
      | some (part, after) =>
        have := length_readPart h
        (ofMarks after).map (part :: ·)
    else (ofMarks rest).map (.literal m.char :: ·)
termination_by ms.length

def isParameter : PatternPart → Bool
  | .parameter _ => true
  | _ => false

/-- A pattern has fewer parameters than this. -/
def parameterBound : Nat := 26

/-- The pattern of a path; `none` if its braces are malformed or it has too many parameters. -/
def ofString? (path : String) : Option Pattern :=
  (ofMarks (marks path.toList)).filter fun p => p.countP isParameter < parameterBound

/-- What a pattern captures of a path, by name. -/
def capture : Pattern → List Char → Option (List (String × String))
  | [], [] => some []
  | .literal c :: rest, d :: path => if c = d then capture rest path else none
  | .parameter name :: rest, c :: path =>
    (capture rest ((c :: path).dropWhile (· != '/'))).map
      ((name, String.ofList ((c :: path).takeWhile (· != '/'))) :: ·)
  | [.wildcard name], c :: path => some [(name, String.ofList (c :: path))]
  | _, _ => none

/-- Whether the first of two patterns for the same path wins. -/
def precedes : Pattern → Pattern → Bool
  | .literal _ :: p, .literal _ :: q => precedes p q
  | .parameter _ :: p, .parameter _ :: q => precedes p q
  | .literal _ :: _, _ => true
  | .parameter _ :: _, .wildcard _ :: _ => true
  | _, _ => false

/--
Whether two patterns cannot be told apart: they are alike but for names, or at the same place one
has a wildcard and the other a parameter or a wildcard.
-/
def conflicts : Pattern → Pattern → Bool
  | [], [] => true
  | .literal c :: p, .literal d :: q => c == d && conflicts p q
  | .parameter _ :: p, .parameter _ :: q => conflicts p q
  | .wildcard _ :: _, .wildcard _ :: _ => true
  | .wildcard _ :: _, .parameter _ :: _ => true
  | .parameter _ :: _, .wildcard _ :: _ => true
  | _, _ => false

end Pattern

end QueryRouting
