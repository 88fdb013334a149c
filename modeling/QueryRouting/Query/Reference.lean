import QueryRouting.Query.Descriptor
import QueryRouting.Text.Blank

/-!
References: `:path:`, with an optional type annotation in braces before the path.
-/

namespace QueryRouting

/-- A type annotation: a type word, and the digits of each argument if there are parentheses. -/
structure TypeNote where
  name : List Char
  args : Option (List (List Char))
  deriving DecidableEq, Repr

structure Reference where
  note : Option TypeNote
  path : List Char
  deriving DecidableEq, Repr

namespace Reference

open Text

/-- ASCII letters, digits and the underscore. -/
def isWordChar (c : Char) : Bool :=
  c.isAlphanum || c == '_'

def isWord (cs : List Char) : Bool :=
  !cs.isEmpty && cs.all isWordChar

/-- Words joined by points. -/
def isPath (cs : List Char) : Bool :=
  (pieces '.' cs).all isWord

def isPathChar (c : Char) : Bool :=
  isWordChar c || c == '.'

/-- A path and its closing colon. -/
def readPath (cs : List Char) : Option (List Char × List Char) :=
  match cs.dropWhile isPathChar with
  | ':' :: rest =>
    if isPath (cs.takeWhile isPathChar) then some (cs.takeWhile isPathChar, rest) else none
  | _ => none

/-- What stands between the parentheses: numerals between commas, with white space around each. -/
def readArgs (inside : List Char) : Option (List (List Char)) :=
  if inside.all isBlank then some []
  else
    let args := (pieces ',' inside).map trim
    if args.all Numeral.isNumeral then some args else none

/-- A type annotation after its opening brace, up to and with the closing one. -/
def readNote (cs : List Char) : Option (TypeNote × List Char) :=
  if (cs.takeWhile isWordChar).isEmpty then none
  else
    match cs.dropWhile isWordChar with
    | '\x7d' :: rest => some (⟨cs.takeWhile isWordChar, none⟩, rest)
    | '(' :: inside =>
      match inside.dropWhile (· != ')') with
      | ')' :: '\x7d' :: rest =>
        (readArgs (inside.takeWhile (· != ')'))).map fun args =>
          (⟨cs.takeWhile isWordChar, some args⟩, rest)
      | _ => none
    | _ => none

/-- A reference after its opening colon, and what follows its closing one. -/
def read (cs : List Char) : Option (Reference × List Char) :=
  match cs with
  | '\x7b' :: inside =>
    (readNote inside).bind fun (note, rest) =>
      (readPath rest).map fun (path, rest) => (⟨some note, path⟩, rest)
  | _ => (readPath cs).map fun (path, rest) => (⟨none, path⟩, rest)

theorem length_dropWhile_le (p : α → Bool) (l : List α) : (l.dropWhile p).length ≤ l.length :=
  (List.dropWhile_sublist p).length_le

theorem length_readPath {cs path rest : List Char} (h : readPath cs = some (path, rest)) :
    rest.length < cs.length := by
  unfold readPath at h
  split at h
  · rename_i r hr
    split at h
    · simp only [Option.some.injEq, Prod.mk.injEq] at h
      have := length_dropWhile_le isPathChar cs
      simp [hr] at this
      rw [← h.2]
      omega
    · simp at h
  · simp at h

theorem length_readNote {cs rest : List Char} {note : TypeNote}
    (h : readNote cs = some (note, rest)) : rest.length < cs.length := by
  unfold readNote at h
  have hd := length_dropWhile_le isWordChar cs
  split at h
  · simp at h
  · split at h
    · rename_i r hr
      simp only [Option.some.injEq, Prod.mk.injEq] at h
      simp [hr] at hd
      rw [← h.2]
      omega
    · rename_i inside hi
      have hp := length_dropWhile_le (· != ')') inside
      split at h
      · rename_i r hr
        simp only [Option.map_eq_some_iff, Prod.mk.injEq] at h
        obtain ⟨_, _, _, rfl⟩ := h
        simp [hi] at hd
        simp [hr] at hp
        omega
      · simp at h
    · simp at h

theorem length_read {cs rest : List Char} {r : Reference} (h : read cs = some (r, rest)) :
    rest.length < cs.length := by
  unfold read at h
  split at h
  · simp only [Option.bind_eq_some_iff, Option.map_eq_some_iff, Prod.exists, Prod.mk.injEq] at h
    obtain ⟨_, _, hn, _, _, hp, _, rfl⟩ := h
    have := length_readNote hn
    have := length_readPath hp
    simp
    omega
  · simp only [Option.map_eq_some_iff, Prod.exists, Prod.mk.injEq] at h
    obtain ⟨_, _, hp, _, rfl⟩ := h
    exact length_readPath hp

end Reference

namespace TypeNote

/-- Arguments are below `2^32`. -/
def argumentBound : Nat := Word.size 32

def decodeArg (name : List Char) (digits : List Char) : Except TemplateError Nat :=
  if Text.Numeral.value digits < argumentBound then .ok (Text.Numeral.value digits)
  else .error (.typeArgument (String.ofList name) (String.ofList digits))

def decodeArgs (name : List Char) : List (List Char) → Except TemplateError (List Nat)
  | [] => .ok []
  | digits :: rest => do
    let arg ← decodeArg name digits
    let args ← decodeArgs name rest
    return arg :: args

/-- The parameter type that an annotation declares; the first argument out of range is reported. -/
def decode (note : TypeNote) : Except TemplateError ParameterType :=
  match note.args with
  | none => .ok ⟨String.ofList note.name, none⟩
  | some args => do return ⟨String.ofList note.name, some (← decodeArgs note.name args)⟩

end TypeNote

end QueryRouting
