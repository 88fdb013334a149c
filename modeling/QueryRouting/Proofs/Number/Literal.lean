import QueryRouting.Number.Literal
import QueryRouting.Proofs.Number.Rounding
import QueryRouting.Proofs.Text.Numeral
import QueryRouting.Proofs.Text.Pieces

namespace QueryRouting

namespace Double

section Decimal

variable {digits : Nat} {exponent : Int} {negative : Bool}

theorem lt_ten_pow_log2 (digits : Nat) : digits < 10 ^ (Nat.log2 digits / 3 + 1) := by
  calc digits < 2 ^ (Nat.log2 digits + 1) := Nat.lt_log2_self
    _ ≤ 2 ^ (3 * (Nat.log2 digits / 3 + 1)) := Nat.pow_le_pow_right two_pos (by omega)
    _ = 8 ^ (Nat.log2 digits / 3 + 1) := Nat.pow_mul 2 3 _
    _ ≤ 10 ^ (Nat.log2 digits / 3 + 1) := Nat.pow_le_pow_left (by norm_num) _

theorem ten_pow_log2_le (hd : digits ≠ 0) : 10 ^ (3 * (Nat.log2 digits / 10)) ≤ digits := by
  calc 10 ^ (3 * (Nat.log2 digits / 10)) = 1000 ^ (Nat.log2 digits / 10) := Nat.pow_mul 10 3 _
    _ ≤ 1024 ^ (Nat.log2 digits / 10) := Nat.pow_le_pow_left (by norm_num) _
    _ = 2 ^ (10 * (Nat.log2 digits / 10)) := (Nat.pow_mul 2 10 _).symm
    _ ≤ 2 ^ Nat.log2 digits := Nat.pow_le_pow_right two_pos (by omega)
    _ ≤ digits := Nat.log2_self_le hd

theorem limit_le_ten_pow : limit ≤ 10 ^ (400 : Int) := by
  calc limit ≤ 2 ^ (1024 : Int) := limit_between.2
    _ ≤ 2 ^ (1200 : Int) := zpow_le_zpow_right₀ one_le_two (by norm_num)
    _ = (2 ^ 3) ^ 400 := by
        rw [← pow_mul]
        rfl
    _ ≤ 10 ^ 400 := pow_le_pow_left₀ (by norm_num) (by norm_num) _
    _ = 10 ^ (400 : Int) := rfl

theorem one_le_limit : 1 ≤ limit :=
  (one_le_zpow₀ one_le_two (by norm_num)).trans limit_between.1

theorem ofDecimal_eq_none_iff :
    ofDecimal negative digits exponent = none ↔ limit ≤ digits * 10 ^ exponent := by
  have hone : (1 : ℚ) ≤ 10 := by norm_num
  have hten : (0 : ℚ) < 10 := by norm_num
  have hplaces : (placeBound : Int) = 400 := rfl
  have hplace (e : Nat) : (10 : ℚ) ^ (exponent + e) = (10 ^ e : Nat) * 10 ^ exponent := by
    rw [zpow_add₀ hten.ne', zpow_natCast, mul_comm, Nat.cast_pow, Nat.cast_ofNat]
  unfold ofDecimal
  dsimp only
  split_ifs with hzero hlow hhigh hexp
  · rw [hzero, Nat.cast_zero, zero_mul]
    exact iff_of_false nofun (not_le.2 limit_pos)
  · refine iff_of_false nofun (not_le.2 ?_)
    calc (digits : ℚ) * 10 ^ exponent
        < (10 ^ (Nat.log2 digits / 3 + 1) : Nat) * 10 ^ exponent :=
          mul_lt_mul_of_pos_right (Nat.cast_lt.2 (lt_ten_pow_log2 digits)) (zpow_pos hten _)
      _ = 10 ^ (exponent + (Nat.log2 digits / 3 + 1 : Nat)) := (hplace _).symm
      _ ≤ 10 ^ (0 : Int) := zpow_le_zpow_right₀ hone (by omega)
      _ ≤ limit := one_le_limit
  · refine iff_of_true rfl ?_
    calc limit ≤ 10 ^ (400 : Int) := limit_le_ten_pow
      _ ≤ 10 ^ (exponent + (3 * (Nat.log2 digits / 10) : Nat)) :=
          zpow_le_zpow_right₀ hone (by omega)
      _ = (10 ^ (3 * (Nat.log2 digits / 10)) : Nat) * 10 ^ exponent := hplace _
      _ ≤ digits * 10 ^ exponent :=
          mul_le_mul_of_nonneg_right (Nat.cast_le.2 (ten_pow_log2_le hzero)) (zpow_pos hten _).le
  · obtain ⟨e, rfl⟩ := Int.eq_ofNat_of_zero_le hexp
    rw [ofRatio_eq_none_iff one_pos, Nat.cast_one, div_one, Nat.cast_mul, Int.toNat_natCast,
      Nat.pow_eq, Nat.cast_pow, Nat.cast_ofNat, zpow_natCast]
  · obtain ⟨e, he⟩ := Int.eq_ofNat_of_zero_le (Int.neg_nonneg.2 (not_le.1 hexp).le)
    have hexponent : exponent = -(e : Int) := by omega
    have hpos : 0 < Nat.pow 10 (-exponent).toNat := Nat.pow_pos (by norm_num)
    rw [ofRatio_eq_none_iff hpos, he, Int.toNat_natCast, hexponent,
      Nat.pow_eq, Nat.cast_pow, Nat.cast_ofNat, zpow_neg, zpow_natCast, div_eq_mul_inv]

end Decimal

end Double

namespace Number

open Text

/-- Digits with a point before, among or after them, or none. -/
inductive IsMantissa : List Char → List Char → List Char → Prop
  | whole {digits : List Char} (hd : Numeral.isNumeral digits) : IsMantissa digits digits []
  | point {whole fraction : List Char} (hw : ∀ c ∈ whole, c.isDigit)
    (hf : ∀ c ∈ fraction, c.isDigit) (hne : whole ++ fraction ≠ []) :
    IsMantissa (whole ++ '.' :: fraction) whole fraction

inductive IsExponent : List Char → Int → Prop
  | absent : IsExponent [] 0
  | marked {mark : Char} {cs : List Char} {n : Int} (hm : mark = 'e' ∨ mark = 'E')
    (hn : Numeral.Signed cs n) : IsExponent (mark :: cs) n

/-- A decimal as it may be written. -/
inductive Literal.Written : List Char → Literal → Prop
  | intro {sign mantissa exponent whole fraction : List Char} {negative : Bool} {n : Int}
    (hs : Numeral.IsSign sign negative) (hm : IsMantissa mantissa whole fraction)
    (he : IsExponent exponent n) :
    Literal.Written (sign ++ (mantissa ++ exponent)) ⟨negative, whole, fraction, n⟩

section Reading

variable {cs mantissa rest whole fraction : List Char} {n : Int}

theorem sign_cases (cs : List Char) :
    (∃ rest, cs = '-' :: rest ∧ sign cs = (true, rest)) ∨
      (∃ rest, cs = '+' :: rest ∧ sign cs = (false, rest)) ∨
      (∀ rest, cs ≠ '-' :: rest) ∧ (∀ rest, cs ≠ '+' :: rest) ∧ sign cs = (false, cs) := by
  unfold sign
  split
  · rename_i rest
    exact .inl ⟨rest, rfl, rfl⟩
  · rename_i rest
    exact .inr (.inl ⟨rest, rfl, rfl⟩)
  · rename_i hminus hplus
    exact .inr (.inr ⟨hminus, hplus, rfl⟩)

theorem natural?_map_eq_some_iff {digits : List Char} {f : Nat → Int} :
    (Numeral.natural? digits).map f = some n ↔
      Numeral.isNumeral digits ∧ n = f (Numeral.value digits) := by
  rw [Numeral.natural?]
  split
  · rename_i h
    rw [Option.map_some, Option.some_inj, eq_comm]
    exact (and_iff_right h).symm
  · rename_i h
    simp [h]

theorem exponent?_eq_some_iff : exponent? cs = some n ↔ IsExponent cs n := by
  cases cs with
  | nil =>
    rw [exponent?, Option.some_inj]
    constructor
    · rintro rfl
      exact .absent
    · rintro ⟨⟩
      rfl
  | cons c rest =>
    have hmarked : IsExponent (c :: rest) n ↔ (c = 'e' ∨ c = 'E') ∧ Numeral.Signed rest n := by
      constructor
      · rintro (_ | ⟨hm, hn⟩)
        exact ⟨hm, hn⟩
      · rintro ⟨hm, hn⟩
        exact .marked hm hn
    rw [hmarked, exponent?]
    by_cases hc : c = 'e' ∨ c = 'E'
    · rw [if_pos hc, and_iff_right hc]
      obtain ⟨digits, rfl, hs⟩ | ⟨digits, rfl, hs⟩ | ⟨hminus, hplus, hs⟩ := sign_cases rest
      · rw [hs, Numeral.signed_minus_iff]
        exact natural?_map_eq_some_iff
      · rw [hs, Numeral.signed_plus_iff]
        exact natural?_map_eq_some_iff
      · rw [hs, Numeral.signed_iff_of_unsigned hplus hminus]
        exact natural?_map_eq_some_iff
    · rw [if_neg hc]
      simp [hc]

/-- The digits before and behind the point, and what follows them. -/
def splitMantissa (cs : List Char) : List Char × List Char × List Char :=
  match cs.dropWhile Char.isDigit with
  | '.' :: rest =>
    (cs.takeWhile Char.isDigit, rest.takeWhile Char.isDigit, rest.dropWhile Char.isDigit)
  | rest => (cs.takeWhile Char.isDigit, [], rest)

theorem ofChars?_eq {body : List Char} {negative : Bool} (hs : sign cs = (negative, body))
    (hm : splitMantissa body = (whole, fraction, rest)) :
    Literal.ofChars? cs =
      if whole ++ fraction = [] then none
      else (exponent? rest).map (⟨negative, whole, fraction, ·⟩) := by
  have hempty : (whole.isEmpty && fraction.isEmpty) = true ↔ whole ++ fraction = [] := by
    rw [Bool.and_eq_true, List.isEmpty_iff, List.isEmpty_iff, List.append_eq_nil_iff]
  unfold Literal.ofChars?
  rw [hs]
  unfold splitMantissa at hm
  split at hm
  all_goals
    rename_i h
    cases hm
    simp only [h, hempty, Option.map_eq_bind]
    rfl

theorem exists_mantissa {cs : List Char} (h : splitMantissa cs = (whole, fraction, rest))
    (hne : whole ++ fraction ≠ []) :
    ∃ mantissa, cs = mantissa ++ rest ∧ IsMantissa mantissa whole fraction := by
  have htake (cs : List Char) : ∀ c ∈ cs.takeWhile Char.isDigit, c.isDigit :=
    List.all_eq_true.1 List.all_takeWhile
  have hcs := List.takeWhile_append_dropWhile (p := Char.isDigit) (l := cs)
  unfold splitMantissa at h
  split at h
  · rename_i after hdrop
    cases h
    rw [hdrop] at hcs
    refine ⟨_, ?_, .point (htake cs) (htake after) hne⟩
    rw [List.append_assoc, List.cons_append, List.takeWhile_append_dropWhile, hcs]
  · cases h
    rw [List.append_nil] at hne
    exact ⟨_, hcs.symm, .whole (Numeral.isNumeral_iff.2 ⟨hne, htake cs⟩)⟩

theorem splitMantissa_append (hm : IsMantissa mantissa whole fraction)
    (hrest : ∀ c ∈ rest.head?, c.isDigit = false ∧ c ≠ '.') :
    splitMantissa (mantissa ++ rest) = (whole, fraction, rest) := by
  have hafter : ∀ c ∈ rest.head?, c.isDigit = false := fun c hc => (hrest c hc).1
  cases hm with
  | whole hd =>
    obtain ⟨htake, hdrop⟩ := takeWhile_dropWhile_append (Numeral.isNumeral_iff.1 hd).2 hafter
    unfold splitMantissa
    rw [htake, hdrop]
    split
    · exact absurd rfl (hrest '.' rfl).2
    · rfl
  | point hw hf hne =>
    have hpoint : ∀ c ∈ ('.' :: (fraction ++ rest)).head?, c.isDigit = false := by
      rintro c ⟨⟩
      rfl
    obtain ⟨htake, hdrop⟩ := takeWhile_dropWhile_append hw hpoint
    obtain ⟨htake', hdrop'⟩ := takeWhile_dropWhile_append hf hafter
    unfold splitMantissa
    rw [List.append_assoc, List.cons_append]
    simp only [htake, hdrop, htake', hdrop']

theorem IsExponent.head (h : IsExponent cs n) :
    ∀ c ∈ cs.head?, c.isDigit = false ∧ c ≠ '.' := by
  rintro c hc
  cases h with
  | absent => cases hc
  | marked hm _ =>
    cases hc
    rcases hm with rfl | rfl <;> exact ⟨rfl, by decide⟩

theorem exists_sign (cs : List Char) :
    ∃ sign negative body, Numeral.IsSign sign negative ∧ cs = sign ++ body ∧
      Number.sign cs = (negative, body) := by
  obtain ⟨body, rfl, hs⟩ | ⟨body, rfl, hs⟩ | ⟨-, -, hs⟩ := sign_cases cs
  · exact ⟨_, _, _, .minus, rfl, hs⟩
  · exact ⟨_, _, _, .plus, rfl, hs⟩
  · exact ⟨_, _, _, .absent, rfl, hs⟩

theorem sign_append {sign body : List Char} {negative : Bool} (hs : Numeral.IsSign sign negative)
    (hb : ∀ c ∈ body.head?, c ≠ '-' ∧ c ≠ '+') :
    Number.sign (sign ++ body) = (negative, body) := by
  cases hs with
  | absent =>
    rw [List.nil_append]
    obtain ⟨rest, rfl, -⟩ | ⟨rest, rfl, -⟩ | ⟨-, -, h⟩ := sign_cases body
    · exact absurd rfl (hb _ rfl).1
    · exact absurd rfl (hb _ rfl).2
    · exact h
  | plus => rfl
  | minus => rfl

theorem IsMantissa.digits_ne_nil (h : IsMantissa mantissa whole fraction) :
    whole ++ fraction ≠ [] := by
  cases h with
  | whole hd =>
    rw [List.append_nil]
    exact (Numeral.isNumeral_iff.1 hd).1
  | point _ _ hne => exact hne

theorem IsMantissa.head (h : IsMantissa mantissa whole fraction) (rest : List Char) :
    ∀ c ∈ (mantissa ++ rest).head?, c ≠ '-' ∧ c ≠ '+' := by
  have hdigit {c : Char} (hc : c.isDigit) : c ≠ '-' ∧ c ≠ '+' := by
    constructor <;> rintro rfl <;> exact absurd hc (by decide)
  intro c hc
  cases h with
  | whole hd =>
    obtain ⟨hne, hall⟩ := Numeral.isNumeral_iff.1 hd
    rw [List.head?_append_of_ne_nil _ hne] at hc
    exact hdigit (hall c (List.mem_of_mem_head? hc))
  | @point whole fraction hw hf hne =>
    cases whole with
    | nil =>
      cases hc
      decide
    | cons =>
      cases hc
      exact hdigit (hw _ List.mem_cons_self)

/-- Exactly the decimals are read, and each as what it says. -/
theorem ofChars?_eq_some_iff {literal : Literal} :
    Literal.ofChars? cs = some literal ↔ Literal.Written cs literal := by
  constructor
  · intro h
    obtain ⟨sign, negative, body, hs, rfl, he⟩ := exists_sign cs
    obtain ⟨⟨whole, fraction, rest⟩, hm⟩ : ∃ split, splitMantissa body = split := ⟨_, rfl⟩
    rw [ofChars?_eq he hm, Option.ite_none_left_eq_some, Option.map_eq_some_iff] at h
    obtain ⟨hne, n, hn, rfl⟩ := h
    obtain ⟨mantissa, rfl, hmantissa⟩ := exists_mantissa hm hne
    exact .intro hs hmantissa (exponent?_eq_some_iff.1 hn)
  · rintro ⟨hs, hm, he⟩
    rw [ofChars?_eq (sign_append hs (hm.head _)) (splitMantissa_append hm he.head),
      if_neg hm.digits_ne_nil, exponent?_eq_some_iff.2 he]
    rfl

end Reading

/-- What a decimal denotes without its sign. -/
def Literal.magnitude (literal : Literal) : ℚ :=
  Numeral.value (literal.whole ++ literal.fraction) *
    10 ^ (literal.exponent - literal.fraction.length)

theorem Literal.exists_nearest?_iff {literal : Literal} :
    (∃ x, literal.nearest? = some x) ↔ literal.magnitude < Double.limit := by
  rw [← not_le, Literal.magnitude, ← Double.ofDecimal_eq_none_iff, ← Option.ne_none_iff_exists']
  rfl

theorem IsMantissa.isBlank {mantissa whole fraction : List Char}
    (h : IsMantissa mantissa whole fraction) : ∀ c ∈ mantissa, isBlank c = false := by
  cases h with
  | whole hd => exact Numeral.isBlank_of_isNumeral hd
  | point hw hf _ =>
    apply List.forall_mem_append.2 ⟨fun c hc => isBlank_of_isDigit (hw c hc), ?_⟩
    exact List.forall_mem_cons.2 ⟨by decide, fun c hc => isBlank_of_isDigit (hf c hc)⟩

theorem IsExponent.isBlank {cs : List Char} {n : Int} (h : IsExponent cs n) :
    ∀ c ∈ cs, isBlank c = false := by
  cases h with
  | absent => exact List.forall_mem_nil _
  | marked hm hn =>
    apply List.forall_mem_cons.2 ⟨?_, hn.isBlank⟩
    rcases hm with rfl | rfl <;> decide

theorem Literal.Written.isBlank {cs : List Char} {literal : Literal} (h : Written cs literal) :
    ∀ c ∈ cs, isBlank c = false := by
  obtain ⟨hs, hm, he⟩ := h
  exact List.forall_mem_append.2 ⟨hs.isBlank, List.forall_mem_append.2 ⟨hm.isBlank, he.isBlank⟩⟩

end Number

end QueryRouting
