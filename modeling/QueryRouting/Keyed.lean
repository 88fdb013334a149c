/-!
Entries by ascending key, each key once. Keys are ordered by code point.
-/

namespace QueryRouting

abbrev Keyed (α : Type u) := List (String × α)

namespace Keyed

variable {α : Type u}

def find? (key : String) : Keyed α → Option α
  | [] => none
  | (k, v) :: rest => if k = key then some v else find? key rest

/-- Sets the value of a key. Keys ascend by code point. -/
def insert (key : String) (value : α) : Keyed α → Keyed α
  | [] => [(key, value)]
  | (k, v) :: rest =>
    if key = k then (key, value) :: rest
    else if key < k then (key, value) :: (k, v) :: rest
    else (k, v) :: insert key value rest

/-- The entries of all other keys. -/
def remove (key : String) (entries : Keyed α) : Keyed α :=
  entries.filter (·.1 ≠ key)

/-- The entries with these pairs; a repeated key keeps its last value. -/
def ofList (pairs : List (String × α)) : Keyed α :=
  pairs.foldl (fun entries (key, value) => insert key value entries) []

@[simp] theorem find?_nil (key : String) : find? key ([] : Keyed α) = none := rfl

@[simp] theorem find?_insert_self (key : String) (value : α) (entries : Keyed α) :
    (insert key value entries).find? key = some value := by
  induction entries with
  | nil => simp [insert, find?]
  | cons entry rest ih =>
    obtain ⟨k, v⟩ := entry
    by_cases h : key = k
    · simp [insert, find?, h]
    · by_cases hlt : key < k
      · simp [insert, find?, h, hlt]
      · simp [insert, find?, h, hlt, Ne.symm h, ih]

theorem find?_insert_of_ne {key other : String} (h : other ≠ key) (value : α)
    (entries : Keyed α) : (insert key value entries).find? other = entries.find? other := by
  induction entries with
  | nil => simp [insert, find?, Ne.symm h]
  | cons entry rest ih =>
    obtain ⟨k, v⟩ := entry
    by_cases hk : key = k
    · subst hk
      simp [insert, find?, Ne.symm h]
    · by_cases hlt : key < k
      · simp [insert, find?, hk, hlt, Ne.symm h]
      · simp [insert, find?, hk, hlt, ih]

theorem find?_remove_of_ne {key other : String} (h : other ≠ key) (entries : Keyed α) :
    (entries.remove key).find? other = entries.find? other := by
  induction entries with
  | nil => rfl
  | cons entry rest ih =>
    obtain ⟨k, v⟩ := entry
    by_cases hk : k = key
    · subst hk
      have hr : remove k ((k, v) :: rest) = remove k rest := by simp [remove]
      rw [hr, ih, find?, if_neg (Ne.symm h)]
    · have hr : remove key ((k, v) :: rest) = (k, v) :: remove key rest := by simp [remove, hk]
      rw [hr, find?, find?, ih]

end Keyed

end QueryRouting
