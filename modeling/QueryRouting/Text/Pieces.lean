/-!
Dividing a list at a separator, and the digits of a natural.
-/

namespace QueryRouting.Text

/-- The pieces between the separators; none is dropped, so there is one piece at least. -/
def pieces [DecidableEq α] (separator : α) : List α → List (List α)
  | [] => [[]]
  | a :: rest =>
    if a = separator then [] :: pieces separator rest
    else match pieces separator rest with
      | piece :: others => (a :: piece) :: others
      | [] => [[a]]

theorem pieces_ne_nil [DecidableEq α] (separator : α) (l : List α) : pieces separator l ≠ [] := by
  cases l with
  | nil => simp [pieces]
  | cons a rest =>
    rw [pieces]
    split
    · simp
    · split <;> simp

/-- The number in decimal digits, without leading zeros. -/
def decimal (n : Nat) : List Char :=
  Nat.toDigits 10 n

end QueryRouting.Text
