import Mathlib.Data.List.Induction
import QueryRouting.Proofs.Keyed
import QueryRouting.Route.Exchange

namespace QueryRouting.Form

/-- The values of a key in their order. -/
def valuesOf (key : String) (pairs : List (String × String)) : List String :=
  (pairs.filter (·.1 = key)).map (·.2)

/-- The texts that a value holds: itself, or its items. -/
def texts : Json → List String
  | .str s => [s]
  | .arr items => items.filterMap Json.string?
  | _ => []

/-- The fields of an object that keeps all pairs. -/
structure Groups (pairs : List (String × String)) (fields : Keyed Json) : Prop where
  ascending : fields.Ascending
  keys : ∀ key, key ∈ fields.map (·.1) ↔ key ∈ pairs.map (·.1)
  alone : ∀ key value, valuesOf key pairs = [value] → fields.find? key = some (.str value)
  several : ∀ key, 2 ≤ (valuesOf key pairs).length →
    fields.find? key = some (.arr ((valuesOf key pairs).map .str))
  kept : (fields.flatMap fun field => (texts field.2).map (field.1, ·)).Perm pairs

/--
Adds a pair to an object in place: the second value of a key makes its first one an array, and an
array takes every further one.
-/
def place (fields : Keyed Json) (key value : String) : Keyed Json :=
  match fields.find? key with
  | some (.arr items) => fields.insert key (.arr (items ++ [.str value]))
  | some first => fields.insert key (.arr [first, .str value])
  | none => fields.insert key (.str value)

def placeAll (pairs : List (String × String)) : Keyed Json :=
  pairs.foldl (fun fields (key, value) => place fields key value) []

section Values

variable {key other value : String} {pairs : List (String × String)}

theorem valuesOf_concat_self :
    valuesOf key (pairs ++ [(key, value)]) = valuesOf key pairs ++ [value] := by
  simp [valuesOf]

theorem valuesOf_concat_of_ne (h : other ≠ key) :
    valuesOf key (pairs ++ [(other, value)]) = valuesOf key pairs := by
  simp [valuesOf, h]

theorem valuesOf_eq_nil_iff : valuesOf key pairs = [] ↔ key ∉ pairs.map (·.1) := by
  rw [valuesOf, List.map_eq_nil_iff, List.filter_eq_nil_iff, List.mem_map]
  simp only [decide_eq_true_iff, not_exists, not_and]

theorem map_valuesOf : (valuesOf key pairs).map (key, ·) = pairs.filter (·.1 = key) := by
  rw [valuesOf, List.map_map]
  apply (List.map_congr_left ?_).trans (List.map_id _)
  intro pair hm
  have hk : pair.1 = key := of_decide_eq_true (List.mem_filter.1 hm).2
  exact Prod.ext hk.symm rfl

end Values

theorem collect_concat (pairs : List (String × String)) (key value : String) :
    collect (pairs ++ [(key, value)]) = addPair (collect pairs) key value := by
  rw [collect, List.foldl_concat]
  rfl

theorem placeAll_concat (pairs : List (String × String)) (key value : String) :
    placeAll (pairs ++ [(key, value)]) = place (placeAll pairs) key value := by
  rw [placeAll, List.foldl_concat]
  rfl

theorem ascending_collect (pairs : List (String × String)) : (collect pairs).Ascending := by
  induction pairs using List.reverseRecOn with
  | nil => exact List.Pairwise.nil
  | append_singleton pairs pair ih =>
    rw [collect_concat]
    exact ih.insert _ _

theorem find?_collect (key : String) (pairs : List (String × String)) :
    (collect pairs).find? key =
      if valuesOf key pairs = [] then none else some (valuesOf key pairs).reverse := by
  induction pairs using List.reverseRecOn with
  | nil => rfl
  | append_singleton pairs pair ih =>
    obtain ⟨k, v⟩ := pair
    rw [collect_concat, addPair]
    by_cases hk : k = key
    · subst hk
      rw [Keyed.find?_insert_self, ih, valuesOf_concat_self]
      by_cases hn : valuesOf k pairs = []
      · simp [hn]
      · simp [hn]
    · rw [Keyed.find?_insert_of_ne (Ne.symm hk), ih, valuesOf_concat_of_ne hk]

/-- What becomes of values that were collected in front of each other. -/
def ofCollected (values : List String) : Json :=
  ofValues values.reverse

def shape (entries : Keyed (List String)) : Keyed Json :=
  entries.map fun entry => (entry.1, ofCollected entry.2)

theorem shape_insert (key : String) (values : List String) (entries : Keyed (List String)) :
    shape (entries.insert key values) = (shape entries).insert key (ofCollected values) :=
  (Keyed.insert_map ofCollected key values entries).symm

theorem find?_shape (key : String) (pairs : List (String × String)) :
    (shape (collect pairs)).find? key =
      if valuesOf key pairs = [] then none else some (ofValues (valuesOf key pairs)) := by
  rw [shape, Keyed.find?_map ofCollected, find?_collect]
  by_cases hn : valuesOf key pairs = []
  · simp [hn]
  · simp [hn, ofCollected]

theorem ofValues_of_several {values : List String} (h : 2 ≤ values.length) :
    ofValues values = .arr (values.map .str) := by
  match values, h with
  | _ :: _ :: _, _ => rfl

theorem texts_ofValues (values : List String) : texts (ofValues values) = values := by
  have hall (values : List String) : (values.map Json.str).filterMap Json.string? = values := by
    rw [List.filterMap_map]
    exact List.filterMap_some
  match values with
  | [] => rfl
  | [_] => rfl
  | v :: w :: rest => exact hall (v :: w :: rest)

theorem placeAll_eq (pairs : List (String × String)) : placeAll pairs = shape (collect pairs) := by
  induction pairs using List.reverseRecOn with
  | nil => rfl
  | append_singleton pairs pair ih =>
    obtain ⟨k, v⟩ := pair
    have hfind := find?_shape k pairs
    have hvalues := find?_collect k pairs
    rw [placeAll_concat, collect_concat, ih, place, hfind, addPair, hvalues, shape_insert]
    match valuesOf k pairs with
    | [] => rfl
    | [_] => rfl
    | w :: x :: rest => simp [ofCollected, ofValues]

theorem groups_shape (pairs : List (String × String)) : Groups pairs (shape (collect pairs)) := by
  have hasc : (shape (collect pairs)).Ascending := (ascending_collect pairs).map ofCollected
  have hkeys (key : String) :
      key ∈ (shape (collect pairs)).map (·.1) ↔ key ∈ pairs.map (·.1) := by
    rw [← Keyed.exists_find?_iff, find?_shape, ← not_iff_not, ← valuesOf_eq_nil_iff]
    by_cases hn : valuesOf key pairs = []
    · simp [hn]
    · simp [hn]
  refine ⟨hasc, hkeys, ?_, ?_, ?_⟩
  · intro key value h
    rw [find?_shape, h]
    rfl
  · intro key h
    have hne : valuesOf key pairs ≠ [] := List.ne_nil_of_length_pos (by omega)
    rw [find?_shape, if_neg hne, ofValues_of_several h]
  · have hfield : ∀ field ∈ shape (collect pairs),
        (texts field.2).map (field.1, ·) = pairs.filter (·.1 = field.1) := by
      intro field hm
      have hf := (Keyed.find?_eq_some_iff_mem hasc.nodup).2 hm
      rw [find?_shape, Option.ite_none_left_eq_some, Option.some_inj] at hf
      rw [← hf.2, texts_ofValues, map_valuesOf]
    rw [List.flatMap_congr hfield]
    have hmap :=
      List.flatMap_map (·.1) (fun key => pairs.filter (·.1 = key)) (shape (collect pairs))
    rw [← hmap]
    apply Keyed.flatMap_filter_perm hasc.nodup
    intro pair hm
    exact (hkeys pair.1).2 (List.mem_map_of_mem hm)

theorem parse_form {headers : Headers} (h : Body.format headers = .form) (bytes : Bytes) :
    Body.parse headers bytes = .ok (if bytes = [] then .null else toJson bytes) := by
  cases bytes with
  | nil => rfl
  | cons byte bytes => simp [Body.parse, h]

/--
Bytes give one object, whose fields keep all their pairs, as the query string of a request and as a
form body; the empty body is null.
-/
theorem toJson_groups (bytes : Bytes) :
    ∃ fields, toJson bytes = .obj fields ∧ Groups (pairs bytes) fields ∧
      placeAll (pairs bytes) = fields ∧
      (∀ (request : Request) (params : List (String × String)) (fresh : String),
        Bytes.ofString (request.target.query.getD "") = bytes →
          (Context.ofRequest request params fresh).request.query = .obj fields) ∧
      ∀ headers, Body.format headers = .form →
        Body.parse headers bytes = .ok (if bytes = [] then .null else .obj fields) := by
  refine ⟨shape (collect (pairs bytes)), rfl, groups_shape _, placeAll_eq _, ?_, ?_⟩
  · intro request params fresh h
    rw [← h]
    rfl
  · intro headers h
    exact parse_form h bytes

example : group [("tag", "a"), ("q", ""), ("tag", "b")] =
    .obj [("q", .str ""), ("tag", .arr [.str "a", .str "b"])] := by cbv

/-- A form that arrives without query and body. -/
def emptyForm : Request where
  method := ⟨"POST"⟩
  target := .ofString "/"
  headers := .ofList [("Content-Type", Bytes.ofString "application/x-www-form-urlencoded")]
  body := []

/-- No bytes are an empty object as a query string, but null as a form body. -/
theorem not_query_eq_body_of_empty : ¬ ∀ (request : Request) (params : List (String × String))
    (fresh : String), Body.format request.headers = .form →
      Body.parse request.headers (Bytes.ofString (request.target.query.getD "")) =
        .ok (Context.ofRequest request params fresh).request.query := by
  intro h
  have hf : Body.format emptyForm.headers = .form := by decide +kernel
  have hbytes : Bytes.ofString (emptyForm.target.query.getD "") = [] := by decide +kernel
  have he := h emptyForm [] "" hf
  rw [hbytes] at he
  cases he

end QueryRouting.Form
