import QueryRouting.Text.Bytes

/-!
Header fields. Names are in lower case; the values of one name keep their order.
-/

namespace QueryRouting

structure Headers where
  entries : List (String × Bytes)
  deriving DecidableEq, Repr

namespace Headers

def empty : Headers := ⟨[]⟩

def lower (name : String) : String :=
  String.ofList (name.toList.map Char.toLower)

def values (headers : Headers) (name : String) : List Bytes :=
  (headers.entries.filter (·.1 = name)).map (·.2)

def get? (headers : Headers) (name : String) : Option Bytes :=
  (headers.values name).head?

def contains (headers : Headers) (name : String) : Bool :=
  headers.entries.any (·.1 = name)

def append (headers : Headers) (name : String) (value : Bytes) : Headers :=
  ⟨headers.entries ++ [(name, value)]⟩

def remove (headers : Headers) (name : String) : Headers :=
  ⟨headers.entries.filter (·.1 ≠ name)⟩

/-- Replaces all values of a name by one. -/
def insert (headers : Headers) (name : String) (value : Bytes) : Headers :=
  (headers.remove name).append name value

def ofList (entries : List (String × Bytes)) : Headers :=
  entries.foldl (fun headers (name, value) => headers.append (lower name) value) empty

/-- A value as text, if it is visible ASCII, blanks and tabs. -/
def visible? (value : Bytes) : Option String :=
  if value.all fun b => b = 0x9 || (0x20 ≤ b && b ≤ 0x7e) then
    some (String.ofList (value.map fun b => Char.ofNat b.toNat))
  else none

/-- The first value of a name as text; `none` when it is absent or not visible. -/
def text? (headers : Headers) (name : String) : Option String :=
  (headers.get? name).bind visible?

end Headers

end QueryRouting
