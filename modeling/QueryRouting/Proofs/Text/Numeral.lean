import Mathlib.Algebra.Group.Int.Defs
import QueryRouting.Proofs.Text.Pieces
import QueryRouting.Text.Numeral
import QueryRouting.Text.Pieces

namespace QueryRouting.Text.Numeral

theorem isNumeral_iff {cs : List Char} :
    isNumeral cs ↔ cs ≠ [] ∧ ∀ c ∈ cs, c.isDigit := by
  simp [isNumeral]

theorem isNumeral_decimal (n : Nat) : isNumeral (decimal n) :=
  isNumeral_iff.2 ⟨Nat.toDigits_ne_nil,
    fun _ hc => Nat.isDigit_of_mem_toDigits (by decide) (by decide) hc⟩

theorem value_decimal (n : Nat) : value (decimal n) = n :=
  Nat.ofDigitChars_ten_toDigits

theorem map_value_decimal (ns : List Nat) : (ns.map decimal).map value = ns := by
  rw [List.map_map]
  exact List.map_id'' value_decimal ns

theorem notMem_of_isNumeral {digits : List Char} {c : Char} (h : isNumeral digits)
    (hc : c.isDigit = false) : c ∉ digits := by
  intro hm
  exact Bool.false_ne_true (hc.symm.trans ((isNumeral_iff.1 h).2 c hm))

/-- An unsigned number is a numeral, maybe behind a `+`, of a value within the bound. -/
theorem unsigned?_eq_some_iff {max n : Nat} {cs : List Char} :
    unsigned? max cs = some n ↔ ∃ digits, isNumeral digits ∧ (cs = digits ∨ cs = '+' :: digits) ∧
      value digits = n ∧ n ≤ max := by
  have hread (digits : List Char) : (natural? digits).filter (· ≤ max) = some n ↔
      isNumeral digits ∧ value digits = n ∧ n ≤ max := by
    rw [Option.filter_eq_some_iff, natural?, Option.ite_none_right_eq_some, Option.some_inj,
      decide_eq_true_iff, and_assoc]
  unfold unsigned?
  split
  · rename_i rest
    rw [hread]
    constructor
    · rintro ⟨hd, hv⟩
      exact ⟨rest, hd, .inr rfl, hv⟩
    · rintro ⟨digits, hd, rfl | hs, hv⟩
      · exact absurd List.mem_cons_self (notMem_of_isNumeral hd rfl)
      · obtain ⟨-, rfl⟩ := List.cons.inj hs
        exact ⟨hd, hv⟩
  · rename_i hplus
    rw [hread]
    constructor
    · rintro ⟨hd, hv⟩
      exact ⟨cs, hd, .inl rfl, hv⟩
    · rintro ⟨digits, hd, rfl | hs, hv⟩
      · exact ⟨hd, hv⟩
      · exact absurd hs (hplus digits)

/-- A sign, which may be left out, and whether it is a minus. -/
inductive IsSign : List Char → Bool → Prop
  | absent : IsSign [] false
  | plus : IsSign ['+'] false
  | minus : IsSign ['-'] true

/-- A numeral behind a sign, and its value. -/
inductive Signed : List Char → Int → Prop
  | intro {sign digits : List Char} {negative : Bool} (hs : IsSign sign negative)
    (hd : isNumeral digits) :
    Signed (sign ++ digits) (if negative then -(value digits : Int) else value digits)

theorem isBlank_of_isNumeral {digits : List Char} (h : isNumeral digits) :
    ∀ c ∈ digits, isBlank c = false :=
  fun c hc => isBlank_of_isDigit ((isNumeral_iff.1 h).2 c hc)

theorem IsSign.isBlank {sign : List Char} {negative : Bool} (h : IsSign sign negative) :
    ∀ c ∈ sign, isBlank c = false := by
  cases h with
  | absent => exact List.forall_mem_nil _
  | plus => exact List.forall_mem_singleton.2 rfl
  | minus => exact List.forall_mem_singleton.2 rfl

theorem Signed.isBlank {cs : List Char} {n : Int} (h : Signed cs n) :
    ∀ c ∈ cs, isBlank c = false := by
  obtain ⟨hs, hd⟩ := h
  exact List.forall_mem_append.2 ⟨hs.isBlank, isBlank_of_isNumeral hd⟩

section Signed

variable {cs digits : List Char} {n : Int}

theorem signed_iff : Signed cs n ↔
    (isNumeral cs ∧ n = value cs) ∨
      (∃ digits, cs = '+' :: digits ∧ isNumeral digits ∧ n = value digits) ∨
      ∃ digits, cs = '-' :: digits ∧ isNumeral digits ∧ n = -(value digits : Int) := by
  constructor
  · intro h
    cases h with
    | @intro sign digits negative hs hd =>
      cases hs with
      | absent => exact .inl ⟨hd, rfl⟩
      | plus => exact .inr (.inl ⟨digits, rfl, hd, rfl⟩)
      | minus => exact .inr (.inr ⟨digits, rfl, hd, rfl⟩)
  · rintro (⟨hd, rfl⟩ | ⟨digits, rfl, hd, rfl⟩ | ⟨digits, rfl, hd, rfl⟩)
    · exact .intro .absent hd
    · exact .intro .plus hd
    · exact .intro .minus hd

theorem not_isNumeral_cons {c : Char} (hc : c.isDigit = false) : ¬ isNumeral (c :: digits) := by
  intro h
  exact notMem_of_isNumeral h hc List.mem_cons_self

theorem signed_plus_iff : Signed ('+' :: digits) n ↔ isNumeral digits ∧ n = value digits := by
  have h : ¬ isNumeral ('+' :: digits) := not_isNumeral_cons rfl
  simp [signed_iff, h]

theorem signed_minus_iff :
    Signed ('-' :: digits) n ↔ isNumeral digits ∧ n = -(value digits : Int) := by
  have h : ¬ isNumeral ('-' :: digits) := not_isNumeral_cons rfl
  simp [signed_iff, h]

theorem signed_iff_of_unsigned (hplus : ∀ digits, cs ≠ '+' :: digits)
    (hminus : ∀ digits, cs ≠ '-' :: digits) : Signed cs n ↔ isNumeral cs ∧ n = value cs := by
  simp [signed_iff, hplus, hminus]

end Signed

/-- The value of digits that follow those of `n`. -/
def valueFrom (n : Nat) (digits : List Char) : Nat :=
  digits.foldl (fun n c => 10 * n + digitValue c) n

theorem le_valueFrom (n : Nat) (digits : List Char) : n ≤ valueFrom n digits := by
  induction digits generalizing n with
  | nil => exact Nat.le_refl n
  | cons c rest ih =>
    have h := ih (10 * n + digitValue c)
    rw [valueFrom, List.foldl_cons, ← valueFrom]
    omega

/-- Digits are read unless their value leads past the bound; no part of them leads further. -/
theorem bounded_eq_ok_iff {max n m : Nat} {overflow : Refusal} {digits : List Char} (hn : n ≤ max) :
    bounded max overflow n digits = .ok m ↔
      (∀ c ∈ digits, c.isDigit) ∧ valueFrom n digits = m ∧ m ≤ max := by
  induction digits generalizing n with
  | nil =>
    rw [bounded, Except.ok.injEq]
    constructor
    · rintro rfl
      exact ⟨List.forall_mem_nil _, rfl, hn⟩
    · rintro ⟨-, rfl, -⟩
      rfl
  | cons c rest ih =>
    rw [bounded, List.forall_mem_cons, valueFrom, List.foldl_cons, ← valueFrom]
    by_cases hc : c.isDigit = true
    · rw [if_neg (by simp [hc])]
      by_cases hb : 10 * n + digitValue c ≤ max
      · rw [if_pos hb, ih hb]
        simp only [hc, true_and]
      · rw [if_neg hb]
        have hle := le_valueFrom (10 * n + digitValue c) rest
        constructor
        · intro h
          cases h
        · rintro ⟨-, rfl, hm⟩
          omega
    · rw [if_pos (by simp [hc])]
      constructor
      · intro h
        cases h
      · rintro ⟨⟨h, -⟩, -⟩
        exact absurd h hc

theorem map_bounded_eq_ok_iff {max : Nat} {overflow : Refusal} {digits : List Char} {f : Nat → Int}
    {n : Int} (hd : digits ≠ []) :
    (bounded max overflow 0 digits).map f = .ok n ↔
      isNumeral digits ∧ f (value digits) = n ∧ value digits ≤ max := by
  have hread {m : Nat} : bounded max overflow 0 digits = .ok m ↔
      isNumeral digits ∧ value digits = m ∧ m ≤ max := by
    rw [bounded_eq_ok_iff (Nat.zero_le max), isNumeral_iff, and_iff_right hd]
    rfl
  constructor
  · intro h
    cases hb : bounded max overflow 0 digits with
    | error e =>
      rw [hb] at h
      cases h
    | ok m =>
      obtain ⟨hn, rfl, hm⟩ := hread.1 hb
      rw [hb] at h
      exact ⟨hn, Except.ok.inj h, hm⟩
  · rintro ⟨hn, rfl, hm⟩
    rw [hread.2 ⟨hn, rfl, hm⟩]
    rfl

theorem int64_eq_ok_iff {cs : List Char} {n : Int} :
    int64 cs = .ok n ↔ Signed cs n ∧ -2 ^ 63 ≤ n ∧ n < 2 ^ 63 := by
  have hsize : Word.size 63 = 2 ^ 63 := rfl
  have hmax : Word.max 63 = 2 ^ 63 - 1 := rfl
  have hnegative {digits : List Char} :
      isNumeral digits ∧ -(value digits : Int) = n ∧ value digits ≤ 2 ^ 63 ↔
        (isNumeral digits ∧ n = -(value digits : Int)) ∧ -2 ^ 63 ≤ n ∧ n < 2 ^ 63 := by
    constructor
    · rintro ⟨hd, rfl, hb⟩
      exact ⟨⟨hd, rfl⟩, by omega⟩
    · rintro ⟨⟨hd, rfl⟩, hb⟩
      exact ⟨hd, rfl, by omega⟩
  have hnatural {digits : List Char} :
      isNumeral digits ∧ Int.ofNat (value digits) = n ∧ value digits ≤ 2 ^ 63 - 1 ↔
        (isNumeral digits ∧ n = value digits) ∧ -2 ^ 63 ≤ n ∧ n < 2 ^ 63 := by
    rw [Int.ofNat_eq_natCast]
    constructor
    · rintro ⟨hd, rfl, hb⟩
      exact ⟨⟨hd, rfl⟩, by omega⟩
    · rintro ⟨⟨hd, rfl⟩, hb⟩
      exact ⟨hd, rfl, by omega⟩
  unfold int64
  split
  · simp [signed_iff, isNumeral]
  · simp [signed_plus_iff, isNumeral]
  · simp [signed_minus_iff, isNumeral]
  · rename_i hne
    rw [map_bounded_eq_ok_iff hne, hsize, signed_minus_iff, hnegative]
  · rename_i hne
    rw [map_bounded_eq_ok_iff hne, hmax, signed_plus_iff, hnatural]
  · rename_i hne _ _ hminus hplus
    rw [map_bounded_eq_ok_iff hne, hmax, signed_iff_of_unsigned hplus hminus, hnatural]

end QueryRouting.Text.Numeral
