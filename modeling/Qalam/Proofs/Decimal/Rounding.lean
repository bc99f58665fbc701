/-
# Numbers have one form

The number that a quotient is rounded to is written with a mantissa and an exponent in one way only:
the mantissa has 53 binary digits, or it has fewer and the exponent is the least one. Zero has the
exponent zero.
-/

import Mathlib.Algebra.Order.Field.Power
import Mathlib.Data.Rat.Cast.Order
import Mathlib.Tactic.Positivity
import Mathlib.Tactic.Ring
import Qalam.Decimal.Binary64

namespace Qalam.Binary64

/-! ## Scaled quotients -/

theorem scale_pos {denominator : Nat} (positive : 0 < denominator) (numerator : Nat) (power : Int) :
    0 < (scale numerator denominator power).2 := by
  unfold scale
  split
  · exact positive
  · exact Nat.mul_pos positive (Nat.two_pow_pos _)

/-- A quotient, scaled by a power of two. -/
theorem scale_value (numerator denominator : Nat) (power : Int) :
    ((scale numerator denominator power).1 : ℚ) / (scale numerator denominator power).2 =
      numerator / denominator * 2 ^ power := by
  unfold scale
  split
  · rename_i positive
    obtain ⟨n, rfl⟩ := Int.eq_ofNat_of_zero_le positive
    simp only [Int.toNat_natCast, Nat.pow_eq, Nat.cast_mul, Nat.cast_pow, Nat.cast_ofNat,
      zpow_natCast]
    ring
  · rename_i negative
    obtain ⟨n, rfl⟩ : ∃ n : Nat, power = -(n : Int) := ⟨(-power).toNat, by omega⟩
    simp only [neg_neg, Int.toNat_natCast, Nat.pow_eq, Nat.cast_mul, Nat.cast_pow, Nat.cast_ofNat,
      zpow_neg, zpow_natCast]
    rw [div_mul_eq_div_div, div_eq_mul_inv]

/-- Whole numbers below a scaled quotient. -/
theorem mul_le_scale_iff {denominator : Nat} (positive : 0 < denominator) (numerator : Nat)
    (power : Int) (k : Nat) :
    k * (scale numerator denominator power).2 ≤ (scale numerator denominator power).1 ↔
      (k : ℚ) ≤ numerator / denominator * 2 ^ power := by
  have unit : (0 : ℚ) < (scale numerator denominator power).2 := by
    exact_mod_cast scale_pos positive numerator power
  rw [← scale_value, le_div_iff₀ unit]
  exact_mod_cast Iff.rfl

/-- A positive quotient between powers of two. -/
theorem quotient_bounds {numerator denominator : Nat} (some : 0 < numerator)
    (positive : 0 < denominator) :
    (2 : ℚ) ^ ((numerator.log2 : Int) - denominator.log2 - 1) < numerator / denominator ∧
      (numerator : ℚ) / denominator < 2 ^ ((numerator.log2 : Int) - denominator.log2 + 1) := by
  have bounds : ∀ {n : Nat}, 0 < n →
      (2 : ℚ) ^ (n.log2 : Int) ≤ n ∧ (n : ℚ) < 2 ^ (n.log2 + 1 : Int) := by
    intro n positive
    have low := Nat.log2_self_le (Nat.ne_of_gt positive)
    have high := @Nat.lt_log2_self n
    constructor
    · rw [zpow_natCast]
      exact_mod_cast low
    · exact_mod_cast high
  obtain ⟨low, high⟩ := bounds some
  obtain ⟨low', high'⟩ := bounds positive
  have positive' : (0 : ℚ) < denominator := by exact_mod_cast positive
  constructor
  · rw [lt_div_iff₀ positive']
    calc (2 : ℚ) ^ ((numerator.log2 : Int) - denominator.log2 - 1) * denominator
        < 2 ^ ((numerator.log2 : Int) - denominator.log2 - 1) * 2 ^ (denominator.log2 + 1 : Int) :=
          mul_lt_mul_of_pos_left high' (by positivity)
      _ = 2 ^ (numerator.log2 : Int) := by
          rw [← zpow_add₀ (by norm_num)]
          congr 1
          ring
      _ ≤ numerator := low
  · rw [div_lt_iff₀ positive']
    calc (numerator : ℚ) < 2 ^ (numerator.log2 + 1 : Int) := high
      _ = 2 ^ ((numerator.log2 : Int) - denominator.log2 + 1) * 2 ^ (denominator.log2 : Int) := by
          rw [← zpow_add₀ (by norm_num)]
          congr 1
          ring
      _ ≤ 2 ^ ((numerator.log2 : Int) - denominator.log2 + 1) * denominator :=
          mul_le_mul_of_nonneg_left low' (by positivity)

/-! ## Powers of two -/

theorem lt_shift {r : ℚ} {i j k : Int} (below : r < 2 ^ i) (sum : i + j = k) :
    r * 2 ^ j < 2 ^ k := by
  rw [← sum, zpow_add₀ (by norm_num)]
  exact mul_lt_mul_of_pos_right below (by positivity)

theorem shift_le {r : ℚ} {i j k : Int} (above : 2 ^ i ≤ r) (sum : i + j = k) :
    2 ^ k ≤ r * 2 ^ j := by
  rw [← sum, zpow_add₀ (by norm_num)]
  exact mul_le_mul_of_nonneg_right above (by positivity)

theorem cast_leastNormal : (leastNormal : ℚ) = 2 ^ (52 : Int) := by
  norm_num [leastNormal]

theorem cast_twice_leastNormal : ((2 * leastNormal : Nat) : ℚ) = 2 ^ (53 : Int) := by
  norm_num [leastNormal]

/-! ## Rounding -/

theorem le_roundQuotient (numerator denominator : Nat) :
    numerator / denominator ≤ roundQuotient numerator denominator := by
  simp only [roundQuotient]
  split_ifs <;> omega

theorem roundQuotient_le (numerator denominator : Nat) :
    roundQuotient numerator denominator ≤ numerator / denominator + 1 := by
  simp only [roundQuotient]
  split_ifs <;> omega

/-- The exponent leaves 53 binary digits before the point, or fewer if it is the least one. -/
theorem exponentOf_spec {numerator denominator : Nat} (some : 0 < numerator)
    (positive : 0 < denominator) :
    -1074 ≤ exponentOf numerator denominator ∧
      (numerator : ℚ) / denominator * 2 ^ (-exponentOf numerator denominator) < 2 ^ (53 : Int) ∧
      (exponentOf numerator denominator = -1074 ∨
        2 ^ (52 : Int) ≤ (numerator : ℚ) / denominator *
          2 ^ (-exponentOf numerator denominator)) := by
  obtain ⟨low, high⟩ := quotient_bounds some positive
  have large : ∀ guess : Int, (scale numerator denominator (-guess)).2 * (2 * leastNormal) ≤
      (scale numerator denominator (-guess)).1 ↔
        2 ^ (53 : Int) ≤ (numerator : ℚ) / denominator * 2 ^ (-guess) := by
    intro guess
    rw [Nat.mul_comm, mul_le_scale_iff positive, cast_twice_leastNormal]
  simp only [exponentOf, large]
  generalize (numerator.log2 : Int) - denominator.log2 = t at low high ⊢
  generalize (numerator : ℚ) / denominator = r at low high ⊢
  by_cases small : t - 53 < -1074
  · have below : r * 2 ^ (-(-1074) : Int) < 2 ^ (53 : Int) := by
      have bound : r < 2 ^ (-1021 : Int) :=
        high.trans_le (zpow_le_zpow_right₀ (by norm_num) (by omega))
      exact lt_shift bound (by norm_num)
    rw [if_pos small, if_neg (not_le.mpr below)]
    exact ⟨le_refl _, below, .inl rfl⟩
  · rw [if_neg small]
    split
    · rename_i above
      refine ⟨by omega, lt_shift high (by ring), .inr ?_⟩
      have half : r * 2 ^ (-(t - 53 + 1)) = r * 2 ^ (-(t - 53)) * 2 ^ (-1 : Int) := by
        rw [mul_assoc, ← zpow_add₀ (by norm_num)]
        congr 2
        ring
      rw [half]
      exact shift_le above (by norm_num)
    · rename_i below
      exact ⟨by omega, not_le.mp below, .inr (shift_le low.le (by ring))⟩

/-- A quotient rounded at its exponent has 53 binary digits or one more, or fewer if the exponent is
the least one. -/
theorem roundQuotient_exponentOf {numerator denominator : Nat} (some : 0 < numerator)
    (positive : 0 < denominator) {scaled unit : Nat}
    (same : scale numerator denominator (-exponentOf numerator denominator) = (scaled, unit)) :
    roundQuotient scaled unit ≤ 2 * leastNormal ∧
      (exponentOf numerator denominator = -1074 ∨ leastNormal ≤ roundQuotient scaled unit) := by
  obtain ⟨-, below, full⟩ := exponentOf_spec some positive
  have units := scale_pos positive numerator (-exponentOf numerator denominator)
  rw [← cast_twice_leastNormal, ← not_le, ← mul_le_scale_iff positive, not_le,
    ← Nat.div_lt_iff_lt_mul units, same] at below
  rw [← cast_leastNormal, ← mul_le_scale_iff positive, ← Nat.le_div_iff_mul_le units, same] at full
  constructor
  · calc roundQuotient scaled unit ≤ scaled / unit + 1 := roundQuotient_le scaled unit
      _ ≤ 2 * leastNormal := below
  · exact full.imp_right fun above => above.trans (le_roundQuotient scaled unit)

/-! ## The one form -/

/-- Mantissa and exponent of a positive number in its one form. -/
structure Normal (mantissa : Nat) (exponent : Int) : Prop where
  positive : 0 < mantissa
  small : mantissa < 2 * leastNormal
  bounded : -1074 ≤ exponent
  full : leastNormal ≤ mantissa ∨ exponent = -1074

/-- Numbers that are written in the one form. -/
def Canonical : Binary64 → Prop
  | finite mantissa exponent => (mantissa = 0 ∧ exponent = 0) ∨ Normal mantissa exponent
  | infinite => True

/-- What a quotient is rounded to has the one form. -/
theorem canonical_ofQuotient (numerator : Nat) {denominator : Nat} (positive : 0 < denominator) :
    (ofQuotient numerator denominator).Canonical := by
  by_cases zero : numerator = 0
  · rw [ofQuotient, if_pos zero]
    exact .inl ⟨rfl, rfl⟩
  have bounded := (exponentOf_spec (Nat.pos_of_ne_zero zero) positive).1
  rw [ofQuotient, if_neg zero]
  extract_lets exponent
  split
  rename_i scaled unit same
  obtain ⟨small, full⟩ := roundQuotient_exponentOf (Nat.pos_of_ne_zero zero) positive same
  extract_lets rounded
  split
  rename_i mantissa exponent' settled
  have normal : mantissa = 0 ∨ Normal mantissa exponent' := by
    by_cases carry : roundQuotient scaled unit = 2 * leastNormal
    · rw [if_pos carry] at settled
      obtain ⟨rfl, rfl⟩ := Prod.mk.inj settled
      have least : 0 < leastNormal := Nat.two_pow_pos 52
      exact .inr ⟨least, by omega, by omega, .inl (Nat.le_refl _)⟩
    · rw [if_neg carry] at settled
      obtain ⟨rfl, rfl⟩ := Prod.mk.inj settled
      exact (Nat.eq_zero_or_pos (roundQuotient scaled unit)).imp_right fun some =>
        ⟨some, by omega, bounded, full.symm⟩
  split
  · exact .inl ⟨rfl, rfl⟩
  · rename_i some
    split
    · exact True.intro
    · exact .inr (normal.resolve_left some)

end Qalam.Binary64
