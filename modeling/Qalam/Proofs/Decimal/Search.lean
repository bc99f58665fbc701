/-
# The search for a short decimal

The search goes from coarse decimal grids to finer ones and ends at the first that has a decimal of
the interval next to the number. It does not go on for ever: where the grid is finer than the
distance from the number to the upper end of its interval, the next decimal above the number is in
the interval. The upper end has at most seventeen digits more than that distance.
-/

import Qalam.Proofs.Decimal.Basins

namespace Qalam.Decimal

open Binary64 (leastNormal Normal)

/-! ## Digits -/

theorem lt_pow_width (n : Nat) : n < 10 ^ width n :=
  (Nat.length_toDigits_le_iff (by decide) Nat.length_toDigits_pos).mp (Nat.le_refl _)

theorem pow_width_le {n : Nat} (positive : 0 < n) : 10 ^ (width n - 1) ≤ n := by
  by_contra small
  have single : width n ≠ 1 := by
    intro single
    rw [single] at small
    omega
  have some : 0 < width n := Nat.length_toDigits_pos
  have shorter := (Nat.length_toDigits_le_iff (show 1 < 10 by decide)
    (show 0 < width n - 1 by omega)).mpr (not_le.mp small)
  exact absurd shorter (by rw [← width]; omega)

/-- A quotient has not fewer digits than the search begins with. -/
theorem pow_ceilingPower_le {numerator denominator : Nat} (some : 0 < numerator)
    (positive : 0 < denominator) :
    (10 : ℚ) ^ (ceilingPower numerator denominator - 1) ≤ numerator / denominator := by
  have positive' : (0 : ℚ) < denominator := by exact_mod_cast positive
  have some' : (0 : ℚ) < numerator := by exact_mod_cast some
  unfold ceilingPower
  split
  · rename_i large
    have whole := pow_width_le (Nat.div_pos large positive)
    have digits : 0 < width (numerator / denominator) := Nat.length_toDigits_pos
    obtain ⟨count, same⟩ := Nat.exists_eq_add_of_lt digits
    rw [same, Nat.zero_add, Nat.add_sub_cancel] at whole
    rw [same, Nat.zero_add, Nat.cast_add, Nat.cast_one, add_sub_cancel_right, zpow_natCast,
      le_div_iff₀ positive']
    exact_mod_cast (Nat.le_div_iff_mul_le positive).mp whole
  · have fraction := Nat.lt_mul_of_div_lt (lt_pow_width (denominator / numerator)) some
    have exponent : (1 : Int) - (width (denominator / numerator) : Int) - 1 =
        -(width (denominator / numerator) : Int) := by ring
    rw [exponent, zpow_neg, zpow_natCast, inv_eq_one_div, div_le_div_iff₀ (by positivity) positive',
      one_mul, mul_comm]
    exact_mod_cast fraction.le

namespace Basin

/-! ## One grid -/

variable {basin : Basin}

/-- The decimal below the number on a grid. -/
def floor (basin : Basin) (power : Int) : Nat :=
  (descale basin.value basin.denominator power).1 / (descale basin.value basin.denominator power).2

theorem neighbour?_eq (tie : Tie) (power : Int) : ∃ better : Bool, basin.neighbour? tie power =
    if basin.contains (basin.floor power + 1) power &&
        (!basin.contains (basin.floor power) power || better) then
      some (basin.floor power + 1)
    else if basin.contains (basin.floor power) power then some (basin.floor power)
    else none := by
  unfold neighbour? floor
  exact ⟨_, rfl⟩

theorem contains_of_neighbour? {tie : Tie} {power : Int} {candidate : Nat}
    (found : basin.neighbour? tie power = some candidate) :
    basin.contains candidate power = true := by
  obtain ⟨better, same⟩ := basin.neighbour?_eq tie power
  rw [same] at found
  split at found
  · rename_i upper
    rw [← Option.some.inj found]
    exact (Bool.and_eq_true_iff.mp upper).1
  · split at found
    · rename_i lower
      rw [← Option.some.inj found]
      exact lower
    · cases found

/-- Where the next decimal is in the interval, one is found. -/
theorem neighbour?_ne_none {tie : Tie} {power : Int}
    (upper : basin.contains (basin.floor power + 1) power = true) :
    basin.neighbour? tie power ≠ none := by
  obtain ⟨better, same⟩ := basin.neighbour?_eq tie power
  rw [same, upper]
  cases lower : basin.contains (basin.floor power) power <;> cases better <;> simp

/-- The next decimal on a grid is above the number, and not farther than the grid is wide. -/
theorem floor_bounds (positive : 0 < basin.denominator) (power : Int) :
    (basin.value : ℚ) / basin.denominator < (basin.floor power + 1 : Nat) * 10 ^ power ∧
      (basin.floor power + 1 : Nat) * 10 ^ power ≤
        (basin.value : ℚ) / basin.denominator + 10 ^ power := by
  have unit := descale_pos positive basin.value power
  have grid : (0 : ℚ) < 10 ^ power := by positivity
  constructor
  · rw [← not_le, ← le_descale_iff positive, not_le]
    exact Nat.lt_mul_of_div_lt (Nat.lt_succ_self _) unit
  · have whole : (basin.floor power : ℚ) * 10 ^ power ≤ basin.value / basin.denominator := by
      rw [← le_descale_iff positive]
      exact Nat.div_mul_le_self _ _
    push_cast
    linarith

/-- On a grid that is fine enough, the next decimal is in the interval. -/
theorem contains_floor (positive : 0 < basin.denominator) (power : Int)
    (inside : (basin.low : ℚ) / basin.denominator < basin.value / basin.denominator)
    (fine : (basin.value : ℚ) / basin.denominator + 10 ^ power < basin.high / basin.denominator) :
    basin.contains (basin.floor power + 1) power = true := by
  obtain ⟨above, near⟩ := basin.floor_bounds positive power
  rw [contains_iff positive]
  exact holds_of_lt (inside.trans above) (near.trans_lt fine)

/-! ## All grids -/

/-- The search ends in the interval, if one of its grids is fine enough. -/
theorem contains_search (positive : 0 < basin.denominator) (tie : Tie)
    (inside : (basin.low : ℚ) / basin.denominator < basin.value / basin.denominator) :
    ∀ (steps : Nat) (power : Int), (∃ j < steps,
      (basin.value : ℚ) / basin.denominator + 10 ^ (power - j) < basin.high / basin.denominator) →
    basin.contains (basin.search tie steps power).digits
      (basin.search tie steps power).exponent = true := by
  intro steps
  induction steps with
  | zero =>
      rintro power ⟨j, absurd, -⟩
      exact (Nat.not_lt_zero j absurd).elim
  | succ steps ih =>
      rintro power ⟨j, few, fine⟩
      rw [search]
      split
      · rename_i digits found
        exact contains_of_neighbour? found
      · rename_i none
        cases j with
        | zero =>
            rw [Nat.cast_zero, sub_zero] at fine
            exact absurd none (neighbour?_ne_none (contains_floor positive power inside fine))
        | succ j =>
            have next : power - ((j + 1 : Nat) : Int) = power - 1 - j := by
              push_cast
              ring
            rw [next] at fine
            exact ih (power - 1) ⟨j, by omega, fine⟩

end Basin

/-! ## The shortest decimal -/

/-- The shortest decimal for a number is in the interval of the number. -/
theorem holds_shortest (tie : Tie) {mantissa : Nat} {exponent : Int}
    (normal : Normal mantissa exponent) :
    (Basin.ofBinary mantissa exponent).Holds (shortest tie mantissa exponent).value := by
  obtain ⟨low, middle, high⟩ := Basin.ofBinary_values mantissa exponent
  have positive := Basin.denominator_pos mantissa exponent
  have quarter : (0 : ℚ) < 2 ^ exponent / 4 := by positivity
  rw [shortest, if_neg (Nat.ne_of_gt normal.positive), value, ← Basin.contains_iff positive]
  apply Basin.contains_search positive
  · rw [low, middle]
    refine mul_lt_mul_of_pos_right ?_ quarter
    have less : 4 * mantissa - Basin.below mantissa < 4 * mantissa := by
      have some := normal.positive
      unfold Basin.below
      split <;> omega
    exact_mod_cast less
  · have some : 0 < (Basin.ofBinary mantissa exponent).high := by
      have above : (0 : ℚ) < (4 * mantissa + 2 : Nat) * (2 ^ exponent / 4) := by positivity
      rw [← high] at above
      exact Nat.pos_of_ne_zero fun zero => by simp [zero] at above
    have first := pow_ceilingPower_le some positive
    rw [high] at first
    refine ⟨18, by decide, ?_⟩
    rw [middle, high]
    generalize ceilingPower _ _ = power at first ⊢
    have small : ((4 * mantissa + 2 : Nat) : ℚ) < 2 * 10 ^ 17 := by
      have bound : 4 * mantissa + 2 < 2 * 10 ^ 17 := by
        have limit := normal.small
        have least : leastNormal = 4503599627370496 := by decide +kernel
        omega
      exact_mod_cast bound
    have shifted : (10 : ℚ) ^ (power - (18 : Nat)) * 10 ^ 17 = 10 ^ (power - 1) := by
      rw [← zpow_natCast, ← zpow_add₀ (by norm_num)]
      congr 1
      push_cast
      ring
    have grid : (10 : ℚ) ^ (power - (18 : Nat)) < 2 * (2 ^ exponent / 4) := by
      have scaled : (10 : ℚ) ^ (power - (18 : Nat)) * 10 ^ 17 <
          2 * (2 ^ exponent / 4) * 10 ^ 17 := by
        calc (10 : ℚ) ^ (power - (18 : Nat)) * 10 ^ 17
            ≤ (4 * mantissa + 2 : Nat) * (2 ^ exponent / 4) := shifted ▸ first
          _ < 2 * 10 ^ 17 * (2 ^ exponent / 4) := mul_lt_mul_of_pos_right small quarter
          _ = 2 * (2 ^ exponent / 4) * 10 ^ 17 := by ring
      exact lt_of_mul_lt_mul_right scaled (by positivity)
    push_cast
    linarith

end Qalam.Decimal
