import QueryRouting.Json.Path
import QueryRouting.Proofs.Keyed
import QueryRouting.Proofs.Text.Numeral

namespace QueryRouting.Json

open Text

/-- A position as it may be written: digits with an optional `+` before them, within 64 bits. -/
def Denotes (segment : String) (i : Nat) : Prop :=
  ∃ digits, Numeral.isNumeral digits ∧
    (segment.toList = digits ∨ segment.toList = '+' :: digits) ∧
    Numeral.value digits = i ∧ i < 18446744073709551616

/-- The value that a segment leads to: the one of this very key, or the one at this position. -/
inductive Child : Json → String → Json → Prop
  | field {before after : Keyed Json} {key : String} {v : Json}
      (h : ∀ entry ∈ before, entry.1 ≠ key) : Child (.obj (before ++ (key, v) :: after)) key v
  | item {items : List Json} {segment : String} {i : Nat} {v : Json} (hi : Denotes segment i)
      (hv : items[i]? = some v) : Child (.arr items) segment v

inductive Reaches : Json → List String → Json → Prop
  | here {v : Json} : Reaches v [] v
  | step {v next w : Json} {segment : String} {rest : List String} (h : Child v segment next)
      (hr : Reaches next rest w) : Reaches v (segment :: rest) w

theorem position?_eq_some_iff {segment : String} {i : Nat} :
    position? segment = some i ↔ Denotes segment i := by
  have hmax : i ≤ Word.max 64 ↔ i < 18446744073709551616 := Nat.le_sub_one_iff_lt (by decide)
  rw [position?, Numeral.unsigned?_eq_some_iff, hmax]
  rfl

theorem child?_eq_some_iff {v w : Json} {segment : String} :
    v.child? segment = some w ↔ Child v segment w := by
  cases v with
  | obj fields =>
    rw [child?, Keyed.find?_eq_some_iff]
    constructor
    · rintro ⟨before, after, rfl, hb⟩
      exact .field hb
    · rintro ⟨hb⟩
      exact ⟨_, _, rfl, hb⟩
  | arr items =>
    rw [child?, Option.bind_eq_some_iff]
    simp only [position?_eq_some_iff]
    constructor
    · rintro ⟨i, hi, hw⟩
      exact .item hi hw
    · intro h
      cases h with
      | item hi hw => exact ⟨_, hi, hw⟩
  | null | bool _ | int _ | double _ | str _ =>
    constructor
    · intro h
      cases h
    · intro h
      cases h

theorem child?_eq_none_iff {v : Json} {segment : String} :
    v.child? segment = none ↔ ∀ w, ¬ Child v segment w := by
  simp only [Option.eq_none_iff_forall_ne_some, ne_eq, child?_eq_some_iff]

theorem walk_cons_of_child {v next : Json} {segment : String} (h : Child v segment next)
    (rest : List String) : v.walk (segment :: rest) = next.walk rest := by
  rw [walk, child?_eq_some_iff.2 h]

theorem walk_cons_of_childless {v : Json} {segment : String} (h : ∀ w, ¬ Child v segment w)
    (rest : List String) : v.walk (segment :: rest) = .error segment := by
  rw [walk, child?_eq_none_iff.2 h]

theorem child_or_childless (v : Json) (segment : String) :
    (∃ next, Child v segment next) ∨ ∀ w, ¬ Child v segment w := by
  cases h : v.child? segment with
  | some next => exact .inl ⟨next, child?_eq_some_iff.1 h⟩
  | none => exact .inr (child?_eq_none_iff.1 h)

theorem walk_eq_ok_iff {v w : Json} {path : List String} :
    v.walk path = .ok w ↔ Reaches v path w := by
  constructor
  · intro h
    induction path generalizing v with
    | nil =>
      cases h
      exact .here
    | cons segment rest ih =>
      rcases child_or_childless v segment with ⟨next, hc⟩ | hn
      · rw [walk_cons_of_child hc] at h
        exact .step hc (ih h)
      · rw [walk_cons_of_childless hn] at h
        cases h
  · intro h
    induction h with
    | here => rfl
    | step hc _ ih => rw [walk_cons_of_child hc, ih]

theorem walk_eq_error_iff {v : Json} {path : List String} {segment : String} :
    v.walk path = .error segment ↔ ∃ before after last, path = before ++ segment :: after ∧
      Reaches v before last ∧ ∀ w, ¬ Child last segment w := by
  constructor
  · intro h
    induction path generalizing v with
    | nil => cases h
    | cons first rest ih =>
      rcases child_or_childless v first with ⟨next, hc⟩ | hn
      · rw [walk_cons_of_child hc] at h
        obtain ⟨before, after, last, rfl, hr, hl⟩ := ih h
        exact ⟨first :: before, after, last, rfl, .step hc hr, hl⟩
      · rw [walk_cons_of_childless hn] at h
        cases h
        exact ⟨[], rest, v, rfl, .here, hn⟩
  · rintro ⟨before, after, last, rfl, hr, hl⟩
    rw [walk_append, walk_eq_ok_iff.2 hr]
    exact walk_cons_of_childless hl after

end QueryRouting.Json
