import Mathlib.Algebra.Order.Field.Basic
import Mathlib.Algebra.Order.Field.Power
import Mathlib.Data.Rat.Cast.Order
import Mathlib.Tactic.FieldSimp
import Mathlib.Tactic.Linarith
import Mathlib.Tactic.Ring
import QueryRouting.Number.Double

namespace QueryRouting

section Rounding

variable {num den k : Nat}

theorem le_roundHalfEven (hd : 0 < den) (h : k * den ≤ num) : k ≤ roundHalfEven num den := by
  have hq : k ≤ num / den := (Nat.le_div_iff_mul_le hd).2 h
  unfold roundHalfEven
  dsimp only
  split
  · exact hq
  · split
    · omega
    · omega

theorem roundHalfEven_le (hd : 0 < den) (h : num ≤ k * den) : roundHalfEven num den ≤ k := by
  have hq : num / den ≤ k := Nat.div_le_of_le_mul (by rwa [Nat.mul_comm])
  have hn := Nat.div_add_mod num den
  unfold roundHalfEven
  dsimp only
  by_cases he : num / den = k
  · -- Nothing is left over, so there is nothing to round.
    have hr : num % den = 0 := by
      rw [he, Nat.mul_comm] at hn
      omega
    rw [hr, if_pos (by omega)]
    exact hq
  · split
    · exact hq
    · split <;> omega

/-- Below an odd number everything is rounded to it that is nearer than the next one. -/
theorem roundHalfEven_le_iff_of_odd (hd : 0 < den) (hk : k % 2 = 1) :
    roundHalfEven num den ≤ k ↔ 2 * num < (2 * k + 1) * den := by
  have hn := Nat.div_add_mod num den
  have hr := Nat.mod_lt num hd
  have hexpand : (2 * k + 1) * den = 2 * (den * k) + den := by ring
  rw [hexpand]
  rcases Nat.lt_trichotomy (num / den) k with hq | hq | hq
  · have hm : den * (num / den) + den ≤ den * k := Nat.mul_le_mul_left den hq
    refine iff_of_true (roundHalfEven_le hd ?_) (by omega)
    rw [Nat.mul_comm]
    omega
  · unfold roundHalfEven
    dsimp only
    rw [hq] at hn ⊢
    have he : 2 * num < 2 * (den * k) + den ↔ 2 * (num % den) < den := by omega
    rw [he]
    split
    · omega
    · split <;> omega
  · have hm : den * k + den ≤ den * (num / den) := Nat.mul_le_mul_left den hq
    have hle : k + 1 ≤ roundHalfEven num den := by
      apply le_roundHalfEven hd
      rw [Nat.mul_comm, Nat.mul_add_one]
      omega
    exact iff_of_false (by omega) (by omega)

end Rounding

section Scaling

variable {num den : Nat}

theorem scaleByPowerOfTwo_pos (hd : 0 < den) (shift : Int) :
    0 < (scaleByPowerOfTwo num den shift).2 := by
  unfold scaleByPowerOfTwo
  split
  · exact hd
  · exact Nat.mul_pos hd (Nat.two_pow_pos _)

theorem scaleByPowerOfTwo_ratio (shift : Int) :
    ((scaleByPowerOfTwo num den shift).1 : ℚ) / (scaleByPowerOfTwo num den shift).2 =
      num / den * 2 ^ shift := by
  unfold scaleByPowerOfTwo
  split
  · rename_i h
    obtain ⟨s, rfl⟩ := Int.eq_ofNat_of_zero_le h
    rw [Int.toNat_natCast, Nat.pow_eq, Nat.cast_mul, Nat.cast_pow, Nat.cast_ofNat, zpow_natCast,
      div_mul_eq_mul_div]
  · rename_i h
    obtain ⟨s, hs⟩ := Int.eq_ofNat_of_zero_le (Int.neg_nonneg.2 (Int.le_of_lt (Int.not_le.1 h)))
    have hshift : shift = -(s : Int) := by omega
    rw [hs, Int.toNat_natCast, hshift, Nat.pow_eq, Nat.cast_mul, Nat.cast_pow, Nat.cast_ofNat,
      zpow_neg, zpow_natCast, div_mul_eq_div_div, div_eq_mul_inv (_ / _)]

theorem two_zpow_log2_le (hn : 0 < num) : (2 : ℚ) ^ (Nat.log2 num : Int) ≤ num := by
  rw [zpow_natCast]
  exact_mod_cast Nat.log2_self_le (Nat.pos_iff_ne_zero.1 hn)

theorem lt_two_zpow_log2 (num : Nat) : (num : ℚ) < 2 ^ (Nat.log2 num + 1 : Int) := by
  exact_mod_cast Nat.lt_log2_self

theorem scaleByPowerOfTwo_lt_iff (hd : 0 < den) (shift : Int) (c : ℚ) :
    ((scaleByPowerOfTwo num den (-shift)).1 : ℚ) < c * (scaleByPowerOfTwo num den (-shift)).2 ↔
      (num : ℚ) / den < c * 2 ^ shift := by
  have hpos : (0 : ℚ) < (scaleByPowerOfTwo num den (-shift)).2 := by
    exact_mod_cast scaleByPowerOfTwo_pos hd (-shift)
  rw [← div_lt_iff₀ hpos, scaleByPowerOfTwo_ratio, zpow_neg, ← div_eq_mul_inv,
    div_lt_iff₀ (zpow_pos two_pos shift)]

/-- A quotient lies between the powers of two at its leading bit and above it. -/
theorem leadingBit_spec (hn : 0 < num) (hd : 0 < den) :
    (2 : ℚ) ^ leadingBit num den ≤ num / den ∧
      (num : ℚ) / den < 2 ^ (leadingBit num den + 1) := by
  have hden : (0 : ℚ) < den := by exact_mod_cast hd
  have htwo (e : Int) : (0 : ℚ) < 2 ^ e := zpow_pos two_pos e
  have hlow : (2 : ℚ) ^ ((Nat.log2 num : Int) - Nat.log2 den - 1) ≤ num / den := by
    rw [le_div_iff₀ hden]
    calc (2 : ℚ) ^ ((Nat.log2 num : Int) - Nat.log2 den - 1) * den
        ≤ 2 ^ ((Nat.log2 num : Int) - Nat.log2 den - 1) * 2 ^ (Nat.log2 den + 1 : Int) :=
          mul_le_mul_of_nonneg_left (lt_two_zpow_log2 den).le (htwo _).le
      _ = 2 ^ (Nat.log2 num : Int) := by
          rw [← zpow_add₀ two_ne_zero]
          congr 1
          ring
      _ ≤ num := two_zpow_log2_le hn
  have hhigh : (num : ℚ) / den < 2 ^ ((Nat.log2 num : Int) - Nat.log2 den + 1) := by
    rw [div_lt_iff₀ hden]
    calc (num : ℚ) < 2 ^ (Nat.log2 num + 1 : Int) := lt_two_zpow_log2 num
      _ = 2 ^ ((Nat.log2 num : Int) - Nat.log2 den + 1) * 2 ^ (Nat.log2 den : Int) := by
          rw [← zpow_add₀ two_ne_zero]
          congr 1
          ring
      _ ≤ 2 ^ ((Nat.log2 num : Int) - Nat.log2 den + 1) * den :=
          mul_le_mul_of_nonneg_left (two_zpow_log2_le hd) (htwo _).le
  have hguess := @scaleByPowerOfTwo_lt_iff num den hd ((Nat.log2 num : Int) - Nat.log2 den) 1
  rw [one_mul, one_mul, Nat.cast_lt] at hguess
  unfold leadingBit
  dsimp only
  split
  · rename_i h
    rw [sub_add_cancel]
    exact ⟨hlow, hguess.1 h⟩
  · rename_i h
    rw [hguess, not_lt] at h
    exact ⟨h, hhigh⟩

end Scaling

namespace Double

/-- Halfway from the largest double to the next power of two. -/
def limit : ℚ :=
  (2 ^ 54 - 1) * 2 ^ 970

theorem limit_pos : 0 < limit :=
  mul_pos (by norm_num) (pow_pos two_pos _)

theorem limit_between : (2 : ℚ) ^ (1023 : Int) ≤ limit ∧ limit ≤ 2 ^ (1024 : Int) := by
  have hpos : (0 : ℚ) ≤ 2 ^ 970 := (pow_pos two_pos _).le
  have hlow : (2 : ℚ) ^ (1023 : Int) = 2 ^ 53 * 2 ^ 970 := by
    rw [← pow_add]
    rfl
  have hhigh : (2 : ℚ) ^ (1024 : Int) = 2 ^ 54 * 2 ^ 970 := by
    rw [← pow_add]
    rfl
  rw [hlow, hhigh, limit]
  exact ⟨mul_le_mul_of_nonneg_right (by norm_num) hpos,
    mul_le_mul_of_nonneg_right (by norm_num) hpos⟩

section Overflow

variable {num den : Nat} {negative : Bool}

/-- What the rank of the nearest double would be, if it is one. -/
def rankOf (num den : Nat) : Nat :=
  let (n, d) := scaleByPowerOfTwo num den (-gridExponent num den)
  (gridExponent num den + 1074).toNat * binade + roundHalfEven n d

theorem ofRatio_eq_none_iff_rankOf (hn : 0 < num) :
    ofRatio negative num den = none ↔ 0x7ff * binade ≤ rankOf num den := by
  unfold ofRatio rankOf
  rw [if_neg (Nat.pos_iff_ne_zero.1 hn)]
  dsimp only
  split
  · rename_i h
    simp only [reduceCtorEq, false_iff, not_le]
    exact h
  · rename_i h
    simp only [true_iff]
    exact not_lt.1 h

theorem roundHalfEven_scaled_le (hn : 0 < num) (hd : 0 < den) :
    roundHalfEven (scaleByPowerOfTwo num den (-gridExponent num den)).1
      (scaleByPowerOfTwo num den (-gridExponent num den)).2 ≤ 2 ^ 53 := by
  apply roundHalfEven_le (scaleByPowerOfTwo_pos hd _)
  apply Nat.le_of_lt
  rw [← Nat.cast_lt (α := ℚ), Nat.cast_mul, Nat.cast_pow, Nat.cast_ofNat,
    scaleByPowerOfTwo_lt_iff hd]
  apply (leadingBit_spec hn hd).2.trans_le
  rw [← zpow_natCast, ← zpow_add₀ two_ne_zero]
  apply zpow_le_zpow_right₀ one_le_two
  rw [gridExponent]
  omega

theorem le_roundHalfEven_scaled (hn : 0 < num) (hd : 0 < den) (h : -1022 ≤ leadingBit num den) :
    2 ^ 52 ≤ roundHalfEven (scaleByPowerOfTwo num den (-gridExponent num den)).1
      (scaleByPowerOfTwo num den (-gridExponent num den)).2 := by
  apply le_roundHalfEven (scaleByPowerOfTwo_pos hd _)
  rw [← Nat.not_lt, ← Nat.cast_lt (α := ℚ), Nat.cast_mul, Nat.cast_pow, Nat.cast_ofNat,
    scaleByPowerOfTwo_lt_iff hd, not_lt]
  apply le_trans _ (leadingBit_spec hn hd).1
  rw [← zpow_natCast, ← zpow_add₀ two_ne_zero]
  apply zpow_le_zpow_right₀ one_le_two
  rw [gridExponent]
  omega

theorem rankOf_lt_of_small (hn : 0 < num) (hd : 0 < den) (h : leadingBit num den ≤ 1022) :
    rankOf num den < 0x7ff * binade := by
  have hr := roundHalfEven_scaled_le hn hd
  have hg : (gridExponent num den + 1074).toNat ≤ 2044 := by
    rw [gridExponent]
    omega
  have hbinade : binade = 2 ^ 52 := rfl
  rw [rankOf, hbinade]
  dsimp only
  omega

theorem le_rankOf_of_large (hn : 0 < num) (hd : 0 < den) (h : 1024 ≤ leadingBit num den) :
    0x7ff * binade ≤ rankOf num den := by
  have hr := le_roundHalfEven_scaled hn hd (by omega)
  have hg : 2046 ≤ (gridExponent num den + 1074).toNat := by
    rw [gridExponent]
    omega
  have hbinade : binade = 2 ^ 52 := rfl
  rw [rankOf, hbinade]
  dsimp only
  omega

theorem le_rankOf_iff_of_last (hd : 0 < den) (h : leadingBit num den = 1023) :
    0x7ff * binade ≤ rankOf num den ↔ limit ≤ num / den := by
  have hg : gridExponent num den = 971 := by
    rw [gridExponent, h]
    rfl
  have hbinade : binade = 2 ^ 52 := rfl
  have hlimit : (2 ^ 54 - 1) / 2 * 2 ^ (971 : Int) = limit := by
    have hpower : (2 : ℚ) ^ (971 : Int) = 2 * 2 ^ 970 := by
      rw [← pow_succ']
      rfl
    rw [hpower, limit, ← mul_assoc, div_mul_cancel₀ _ two_ne_zero]
  have hround : roundHalfEven (scaleByPowerOfTwo num den (-971)).1
      (scaleByPowerOfTwo num den (-971)).2 ≤ 2 ^ 53 - 1 ↔ (num : ℚ) / den < limit := by
    rw [roundHalfEven_le_iff_of_odd (scaleByPowerOfTwo_pos hd _) (by norm_num), ← hlimit,
      ← scaleByPowerOfTwo_lt_iff hd, ← Nat.cast_lt (α := ℚ)]
    push_cast
    constructor <;> intro h <;> linarith
  rw [← not_lt (a := (num : ℚ) / den), ← hround, rankOf, hbinade, hg]
  dsimp only
  omega

theorem ofRatio_eq_none_iff (hd : 0 < den) :
    ofRatio negative num den = none ↔ limit ≤ num / den := by
  rcases Nat.eq_zero_or_pos num with rfl | hn
  · rw [ofRatio, if_pos rfl, Nat.cast_zero, zero_div]
    exact iff_of_false nofun (not_le.2 limit_pos)
  rw [ofRatio_eq_none_iff_rankOf hn]
  obtain ⟨hlow, hhigh⟩ := leadingBit_spec hn hd
  rcases lt_trichotomy (leadingBit num den) 1023 with h | h | h
  · refine iff_of_false (not_le.2 (rankOf_lt_of_small hn hd (by omega))) (not_le.2 ?_)
    calc (num : ℚ) / den < 2 ^ (leadingBit num den + 1) := hhigh
      _ ≤ 2 ^ (1023 : Int) := zpow_le_zpow_right₀ one_le_two (by omega)
      _ ≤ limit := limit_between.1
  · exact le_rankOf_iff_of_last hd h
  · refine iff_of_true (le_rankOf_of_large hn hd (by omega)) ?_
    calc limit ≤ 2 ^ (1024 : Int) := limit_between.2
      _ ≤ 2 ^ leadingBit num den := zpow_le_zpow_right₀ one_le_two (by omega)
      _ ≤ num / den := hlow

end Overflow

end Double

end QueryRouting
