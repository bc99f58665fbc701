/-
# Intervals of decimals

The interval of a number has all decimals that are rounded to the number. Intervals of different
numbers have nothing in common: they meet at most at an end, and of two neighbours one has an odd
mantissa and leaves its ends out. The search for a short decimal ends in the interval, because a
grid that is finer than half of the last binary digit has a decimal between the number and the upper
end.
-/

import Mathlib.Tactic.Linarith
import Qalam.Decimal.Layout
import Qalam.Proofs.Decimal.Rounding

namespace Qalam

open Binary64 (leastNormal Normal)

namespace Decimal

/-- The rational number that a decimal stands for. -/
def value (d : Decimal) : ℚ := d.digits * 10 ^ d.exponent

theorem descale_pos {denominator : Nat} (positive : 0 < denominator) (numerator : Nat)
    (power : Int) : 0 < (descale numerator denominator power).2 := by
  unfold descale
  split
  · exact Nat.mul_pos positive (Nat.pow_pos (by decide))
  · exact positive

/-- A quotient, divided by a power of ten. -/
theorem descale_value (numerator denominator : Nat) (power : Int) :
    ((descale numerator denominator power).1 : ℚ) / (descale numerator denominator power).2 =
      numerator / denominator / 10 ^ power := by
  unfold descale
  split
  · rename_i positive
    obtain ⟨n, rfl⟩ := Int.eq_ofNat_of_zero_le positive
    simp only [Int.toNat_natCast, Nat.pow_eq, Nat.cast_mul, Nat.cast_pow, Nat.cast_ofNat,
      zpow_natCast]
    rw [div_mul_eq_div_div]
  · rename_i negative
    obtain ⟨n, rfl⟩ : ∃ n : Nat, power = -(n : Int) := ⟨(-power).toNat, by omega⟩
    simp only [neg_neg, Int.toNat_natCast, Nat.pow_eq, Nat.cast_mul, Nat.cast_pow, Nat.cast_ofNat,
      zpow_neg, zpow_natCast, div_inv_eq_mul]
    ring

/-- The unit does not depend on the numerator. -/
theorem descale_unit (numerator numerator' denominator : Nat) (power : Int) :
    (descale numerator denominator power).2 = (descale numerator' denominator power).2 := by
  unfold descale
  split <;> rfl

section

variable {denominator : Nat} (positive : 0 < denominator) (numerator candidate : Nat) (power : Int)

include positive

theorem descale_le_iff : (descale numerator denominator power).1 ≤
      candidate * (descale numerator denominator power).2 ↔
    (numerator : ℚ) / denominator ≤ candidate * 10 ^ power := by
  have unit : (0 : ℚ) < (descale numerator denominator power).2 := by
    exact_mod_cast descale_pos positive numerator power
  rw [← div_le_iff₀ (by positivity), ← descale_value, div_le_iff₀ unit]
  exact_mod_cast Iff.rfl

theorem le_descale_iff : candidate * (descale numerator denominator power).2 ≤
      (descale numerator denominator power).1 ↔
    candidate * 10 ^ power ≤ (numerator : ℚ) / denominator := by
  have unit : (0 : ℚ) < (descale numerator denominator power).2 := by
    exact_mod_cast descale_pos positive numerator power
  rw [← le_div_iff₀ (by positivity), ← descale_value, le_div_iff₀ unit]
  exact_mod_cast Iff.rfl

end

namespace Basin

variable {basin : Basin}

/-- The rational numbers in an interval. -/
def Holds (basin : Basin) (x : ℚ) : Prop :=
  if basin.closed then
    (basin.low : ℚ) / basin.denominator ≤ x ∧ x ≤ (basin.high : ℚ) / basin.denominator
  else (basin.low : ℚ) / basin.denominator < x ∧ x < (basin.high : ℚ) / basin.denominator

theorem Holds.bounds {x : ℚ} (holds : basin.Holds x) :
    (basin.low : ℚ) / basin.denominator ≤ x ∧ x ≤ (basin.high : ℚ) / basin.denominator := by
  unfold Holds at holds
  split at holds
  · exact holds
  · exact ⟨holds.1.le, holds.2.le⟩

theorem holds_of_lt {x : ℚ} (above : (basin.low : ℚ) / basin.denominator < x)
    (below : x < (basin.high : ℚ) / basin.denominator) : basin.Holds x := by
  unfold Holds
  split
  · exact ⟨above.le, below.le⟩
  · exact ⟨above, below⟩

/-- At an end there is something in an interval only if its ends belong to it. -/
theorem Holds.closed {x : ℚ} (holds : basin.Holds x)
    (ends : x = (basin.low : ℚ) / basin.denominator ∨ x = (basin.high : ℚ) / basin.denominator) :
    basin.closed = true := by
  unfold Holds at holds
  split at holds
  · assumption
  · rcases ends with rfl | rfl
    · exact absurd holds.1 (lt_irrefl _)
    · exact absurd holds.2 (lt_irrefl _)

theorem contains_iff (positive : 0 < basin.denominator) (candidate : Nat) (power : Int) :
    basin.contains candidate power = true ↔ basin.Holds (candidate * 10 ^ power) := by
  have lower := descale_le_iff positive basin.low candidate power
  have lower' := le_descale_iff positive basin.low candidate power
  have upper := le_descale_iff positive basin.high candidate power
  have upper' := descale_le_iff positive basin.high candidate power
  have unit := descale_unit basin.high basin.low basin.denominator power
  rw [unit] at upper upper'
  simp only [contains, Holds]
  split
  · rw [Bool.and_eq_true, decide_eq_true_eq, decide_eq_true_eq, lower, upper]
  · rw [Bool.and_eq_true, decide_eq_true_eq, decide_eq_true_eq, ← not_le, ← not_le, lower', upper',
      not_le, not_le]

/-! ## The intervals of binary numbers -/

/-- Four times the distance from a number to the lower end of its interval, in units of the last
binary digit. -/
def below (mantissa : Nat) : Nat := if mantissa = leastNormal then 1 else 2

theorem ofBinary_eq (mantissa : Nat) {exponent : Int} {unit denominator : Nat}
    (same : Binary64.scale 1 4 exponent = (unit, denominator)) :
    ofBinary mantissa exponent = ⟨(4 * mantissa - below mantissa) * unit, 4 * mantissa * unit,
      (4 * mantissa + 2) * unit, denominator, mantissa % 2 = 0⟩ := by
  unfold ofBinary below
  rw [same]

section

variable (mantissa : Nat) (exponent : Int)

theorem denominator_pos : 0 < (ofBinary mantissa exponent).denominator := by
  have positive := Binary64.scale_pos (show 0 < 4 by decide) 1 exponent
  cases same : Binary64.scale 1 4 exponent with
  | mk unit denominator =>
      rw [same] at positive
      rw [ofBinary_eq mantissa same]
      exact positive

theorem closed_iff : (ofBinary mantissa exponent).closed = true ↔ mantissa % 2 = 0 := by
  cases same : Binary64.scale 1 4 exponent with
  | mk unit denominator =>
      rw [ofBinary_eq mantissa same]
      exact decide_eq_true_iff

/-- The ends of an interval and the number itself, in quarters of the last binary digit. -/
theorem ofBinary_values :
    ((ofBinary mantissa exponent).low : ℚ) / (ofBinary mantissa exponent).denominator =
        (4 * mantissa - below mantissa : Nat) * (2 ^ exponent / 4) ∧
      ((ofBinary mantissa exponent).value : ℚ) / (ofBinary mantissa exponent).denominator =
        (4 * mantissa : Nat) * (2 ^ exponent / 4) ∧
      ((ofBinary mantissa exponent).high : ℚ) / (ofBinary mantissa exponent).denominator =
        (4 * mantissa + 2 : Nat) * (2 ^ exponent / 4) := by
  have quarter := Binary64.scale_value 1 4 exponent
  cases same : Binary64.scale 1 4 exponent with
  | mk unit denominator =>
      rw [same] at quarter
      have unit' : (2 : ℚ) ^ exponent / 4 = unit / denominator := by
        rw [quarter]
        norm_num
        ring
      rw [ofBinary_eq mantissa same, unit']
      simp only [Nat.cast_mul]
      exact ⟨mul_div_assoc _ _ _, mul_div_assoc _ _ _, mul_div_assoc _ _ _⟩

end

/-! ## Different intervals -/

/-- A number ends where the next one begins or before that, in quarters of its last digit. If they
meet, then one of the mantissas is odd. -/
theorem quarters_le {mantissa mantissa' k : Nat} (small : mantissa < 2 * leastNormal)
    (less : k = 0 ∧ mantissa < mantissa' ∨ 0 < k ∧ leastNormal ≤ mantissa') :
    4 * mantissa + 2 ≤ (4 * mantissa' - below mantissa') * 2 ^ k ∧
      (4 * mantissa + 2 = (4 * mantissa' - below mantissa') * 2 ^ k →
        mantissa % 2 = 1 ∨ mantissa' % 2 = 1) := by
  rcases less with ⟨rfl, less⟩ | ⟨positive, full⟩
  · rw [Nat.pow_zero, Nat.mul_one, below]
    split <;> omega
  · have twice : (4 * mantissa' - below mantissa') * 2 ≤
        (4 * mantissa' - below mantissa') * 2 ^ k :=
      Nat.mul_le_mul_left _ (Nat.le_self_pow (Nat.ne_of_gt positive) 2)
    generalize (4 * mantissa' - below mantissa') * 2 ^ k = high at twice ⊢
    rw [below] at twice
    split at twice <;> omega

theorem not_holds_of_less {mantissa mantissa' : Nat} {exponent exponent' : Int}
    (normal : Normal mantissa exponent) (normal' : Normal mantissa' exponent')
    (less : exponent = exponent' ∧ mantissa < mantissa' ∨ exponent < exponent') {x : ℚ}
    (holds : (ofBinary mantissa exponent).Holds x) :
    ¬ (ofBinary mantissa' exponent').Holds x := by
  intro holds'
  obtain ⟨k, rfl⟩ : ∃ k : Nat, exponent' = exponent + k :=
    ⟨(exponent' - exponent).toNat, by omega⟩
  have apart : k = 0 ∧ mantissa < mantissa' ∨ 0 < k ∧ leastNormal ≤ mantissa' := by
    rcases less with ⟨same, less⟩ | higher
    · exact .inl ⟨by omega, less⟩
    · have bounded := normal.bounded
      exact .inr ⟨by omega, normal'.full.resolve_right (by omega)⟩
  obtain ⟨meets, odd⟩ := quarters_le normal.small apart
  obtain ⟨-, -, high⟩ := ofBinary_values mantissa exponent
  obtain ⟨low, -, -⟩ := ofBinary_values mantissa' (exponent + k)
  have digit : (0 : ℚ) < 2 ^ exponent / 4 := by positivity
  have low' : ((ofBinary mantissa' (exponent + k)).low : ℚ) /
      (ofBinary mantissa' (exponent + k)).denominator =
        ((4 * mantissa' - below mantissa') * 2 ^ k : Nat) * (2 ^ exponent / 4) := by
    rw [low, zpow_add₀ (by norm_num), zpow_natCast]
    push_cast
    ring
  have upper := holds.bounds.2
  have lower := holds'.bounds.1
  rw [high] at upper
  rw [low'] at lower
  -- the two ends are one, and it belongs to both intervals
  have ends : 4 * mantissa + 2 = (4 * mantissa' - below mantissa') * 2 ^ k := by
    have reversed := le_of_mul_le_mul_right (lower.trans upper) digit
    exact le_antisymm meets (by exact_mod_cast reversed)
  rw [← ends] at lower low'
  have whole := le_antisymm upper lower
  have even := (closed_iff mantissa exponent).mp (holds.closed (.inr (whole.trans high.symm)))
  have even' := (closed_iff mantissa' _).mp (holds'.closed (.inl (whole.trans low'.symm)))
  have parity := odd ends
  omega

/-- A rational number is in the interval of one number only. -/
theorem unique_of_holds {mantissa mantissa' : Nat} {exponent exponent' : Int}
    (normal : Normal mantissa exponent) (normal' : Normal mantissa' exponent') {x : ℚ}
    (holds : (ofBinary mantissa exponent).Holds x)
    (holds' : (ofBinary mantissa' exponent').Holds x) :
    mantissa = mantissa' ∧ exponent = exponent' := by
  by_contra different
  have order : (exponent = exponent' ∧ mantissa < mantissa' ∨ exponent < exponent') ∨
      (exponent' = exponent ∧ mantissa' < mantissa ∨ exponent' < exponent) := by omega
  rcases order with less | less
  · exact not_holds_of_less normal normal' less holds holds'
  · exact not_holds_of_less normal' normal less holds' holds

end Basin

end Decimal

end Qalam
