import QueryRouting.Query.Descriptor

/-!
Replacing neutral placeholders by a backend's parameter syntax.
-/

namespace QueryRouting.Placeholder

/-- The digits of a placeholder after its opening `?`, and what follows it. -/
def read (cs : List Char) : Option (List Char × List Char) :=
  match cs with
  | 'v' :: rest =>
    match rest.dropWhile Char.isDigit with
    | '?' :: after =>
      if (rest.takeWhile Char.isDigit).isEmpty then none
      else some (rest.takeWhile Char.isDigit, after)
    | _ => none
  | _ => none

theorem length_read {cs digits rest : List Char} (h : read cs = some (digits, rest)) :
    rest.length < cs.length := by
  unfold read at h
  split at h
  · rename_i r
    have hd := (List.dropWhile_sublist Char.isDigit (l := r)).length_le
    split at h
    · rename_i hr
      split at h
      · simp at h
      · simp only [Option.some.injEq, Prod.mk.injEq] at h
        simp [hr] at hd
        simp [← h.2]
        omega
    · simp at h
  · simp at h

/-- Replaces each placeholder, from left to right, by what its digits become. -/
def replace (f : List Char → List Char) : List Char → List Char
  | [] => []
  | c :: rest =>
    if c = '?' then
      match h : read rest with
      | some (digits, after) =>
        have := length_read h
        f digits ++ replace f after
      | none => c :: replace f rest
    else c :: replace f rest
termination_by cs => cs.length

/-- Named parameters: the mark and the digits as written. -/
def numbered (text mark : String) : String :=
  String.ofList (replace (mark.toList ++ ·) text.toList)

/-- Parameters by position alone. -/
def positional (text : String) : String :=
  String.ofList (replace (fun _ => ['?']) text.toList)

end QueryRouting.Placeholder
