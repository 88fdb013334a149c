import QueryRouting.Json.Basic
import QueryRouting.Number.Word
import QueryRouting.Text.Numeral

/-!
Walking into a JSON value along the segments of a dotted path.
-/

namespace QueryRouting.Json

/-- Array positions are numerals with an optional `+` within 64 bits. -/
def position? (segment : String) : Option Nat :=
  Text.Numeral.unsigned? (Word.max 64) segment.toList

/-- One step: an object by key, an array by position. -/
def child? (v : Json) (segment : String) : Option Json :=
  match v with
  | .obj fields => Keyed.find? segment fields
  | .arr items => (position? segment).bind fun i => items[i]?
  | _ => none

/-- The value at the end of a path, or the segment that leads nowhere. -/
def walk (v : Json) : List String → Except String Json
  | [] => .ok v
  | segment :: rest =>
    match v.child? segment with
    | some next => next.walk rest
    | none => .error segment

theorem walk_append (v : Json) (p q : List String) :
    v.walk (p ++ q) = (v.walk p).bind fun w => w.walk q := by
  induction p generalizing v with
  | nil => rfl
  | cons segment rest ih =>
    simp only [List.cons_append, walk]
    split
    · exact ih _
    · rfl

end QueryRouting.Json
