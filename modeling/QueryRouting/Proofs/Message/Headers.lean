import QueryRouting.Message.Headers
import QueryRouting.Proofs.Text.Bytes

namespace QueryRouting.Headers

variable {headers : Headers} {name other : String} {value : Bytes}

/-- Inserts fields in their order. -/
def insertAll (headers : Headers) (fields : List (String × Bytes)) : Headers :=
  fields.foldl (fun headers (name, value) => headers.insert name value) headers

theorem values_append_self :
    (headers.append name value).values name = headers.values name ++ [value] := by
  simp [append, values]

theorem values_append_of_ne (h : other ≠ name) :
    (headers.append name value).values other = headers.values other := by
  simp [append, values, Ne.symm h]

theorem values_remove_self : (headers.remove name).values name = [] := by
  simp [remove, values, List.filter_filter]

theorem values_remove_of_ne (h : other ≠ name) :
    (headers.remove name).values other = headers.values other := by
  rw [values, values, remove, List.filter_filter]
  congr 1
  apply List.filter_congr
  intro field _
  by_cases hf : field.1 = other
  · simp [hf, h]
  · simp [hf]

theorem values_insert_self : (headers.insert name value).values name = [value] := by
  rw [insert, values_append_self, values_remove_self, List.nil_append]

theorem values_insert_of_ne (h : other ≠ name) :
    (headers.insert name value).values other = headers.values other := by
  rw [insert, values_append_of_ne h, values_remove_of_ne h]

theorem text?_insert_of_ne (h : other ≠ name) :
    (headers.insert name value).text? other = headers.text? other := by
  rw [text?, get?, values_insert_of_ne h, text?, get?]

theorem values_insertAll (headers : Headers) (fields : List (String × Bytes)) (name : String) :
    (headers.insertAll fields).values name =
      match ((⟨fields⟩ : Headers).values name).getLast? with
      | some value => [value]
      | none => headers.values name := by
  induction fields generalizing headers with
  | nil => rfl
  | cons field rest ih =>
    obtain ⟨key, value⟩ := field
    have hi : headers.insertAll ((key, value) :: rest) =
        (headers.insert key value).insertAll rest := rfl
    rw [hi, ih]
    by_cases hk : key = name
    · subst hk
      have hv : (⟨(key, value) :: rest⟩ : Headers).values key =
          value :: (⟨rest⟩ : Headers).values key := by simp [values]
      rw [hv, List.getLast?_cons, values_insert_self]
      cases ((⟨rest⟩ : Headers).values key).getLast? <;> rfl
    · have hv : (⟨(key, value) :: rest⟩ : Headers).values name =
          (⟨rest⟩ : Headers).values name := by simp [values, hk]
      rw [hv, values_insert_of_ne (Ne.symm hk)]

theorem contains_iff : headers.contains name = true ↔ ∃ value, headers.get? name = some value := by
  rw [contains, List.any_eq_true, ← Option.isSome_iff_exists, get?, values, List.head?_map,
    Option.isSome_map, List.head?_filter, List.find?_isSome]

theorem ofString_of_visible? {text : String} (h : visible? value = some text) :
    Bytes.ofString text = value := by
  rw [visible?, Option.ite_none_right_eq_some, Option.some.injEq] at h
  obtain ⟨hall, rfl⟩ := h
  apply Bytes.ofString_of_ascii
  intro b hb
  have hvisible := List.all_eq_true.1 hall b hb
  simp only [Bool.or_eq_true, Bool.and_eq_true, decide_eq_true_eq] at hvisible
  cases hvisible with
  | inl he =>
    rw [he]
    decide
  | inr hle =>
    have hle := UInt8.le_iff_toNat_le.1 hle.2
    exact Nat.lt_of_le_of_lt hle (by decide)

end QueryRouting.Headers
