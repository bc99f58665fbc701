/-
# Written numbers tell the numbers

The positional form of a decimal is read back by leaving out the point and dividing by a power of
ten for the places behind it. So two numbers that are written in the same way have one shortest
decimal, which lies in the intervals of both, and they are the same number.
-/

import Mathlib.Data.List.TakeWhile
import Qalam.Proofs.Decimal.Search
import Qalam.Proofs.EcmaScript.Spelling

namespace Qalam

namespace Decimal

/-! ## Reading digits -/

/-- What is behind the first point of a text. -/
def places (chars : List Char) : List Char := (chars.dropWhile (· ≠ '.')).tail

/-- The number that digits stand for, with a point among them or without one. -/
def reading (chars : List Char) : ℚ :=
  Nat.ofDigitChars 10 (chars.filter (· ≠ '.')) 0 / 10 ^ (places chars).length

theorem reading_whole {chars : List Char} (whole : '.' ∉ chars) :
    reading chars = Nat.ofDigitChars 10 chars 0 := by
  have every : ∀ c ∈ chars, decide (c ≠ '.') = true :=
    fun c mem => decide_eq_true fun point => whole (point ▸ mem)
  have none : places chars = [] := by
    rw [places, List.dropWhile_eq_nil_iff.mpr every, List.tail_nil]
  rw [reading, List.filter_eq_self.mpr every, none, List.length_nil, pow_zero, div_one]

theorem reading_pointed {whole fraction : List Char} (plain : '.' ∉ whole)
    (plain' : '.' ∉ fraction) : reading (whole ++ '.' :: fraction) =
      Nat.ofDigitChars 10 (whole ++ fraction) 0 / 10 ^ fraction.length := by
  have every : ∀ c ∈ whole, decide (c ≠ '.') = true :=
    fun c mem => decide_eq_true fun point => plain (point ▸ mem)
  have every' : ∀ c ∈ fraction, decide (c ≠ '.') = true :=
    fun c mem => decide_eq_true fun point => plain' (point ▸ mem)
  have behind : places (whole ++ '.' :: fraction) = fraction := by
    rw [places, List.dropWhile_append_of_pos every]
    simp
  rw [reading, behind, List.filter_append, List.filter_eq_self.mpr every,
    List.filter_cons_of_neg (by simp), List.filter_eq_self.mpr every']

/-- The digits of a number have no point among them. -/
theorem point_not_mem_toDigits (n : Nat) : '.' ∉ Nat.toDigits 10 n := by
  intro mem
  have digit := EcmaScript.isDigit_of_mem_toDigits mem
  revert digit
  decide

theorem point_not_mem_zeros (count : Nat) : '.' ∉ List.replicate count '0' := by
  intro mem
  exact absurd (List.eq_of_mem_replicate mem) (by decide)

theorem reading_pointedText (n places : Nat) :
    reading (pointed n places).toList = n / 10 ^ places := by
  unfold pointed
  extract_lets digits padded whole
  have plain : '.' ∉ padded := by
    rw [List.mem_append, not_or]
    exact ⟨point_not_mem_zeros _, point_not_mem_toDigits n⟩
  have text :
      (String.ofList (padded.take whole) ++ "." ++ String.ofList (padded.drop whole)).toList =
        padded.take whole ++ '.' :: padded.drop whole := by simp
  have number : Nat.ofDigitChars 10 padded 0 = n := by
    rw [Nat.ofDigitChars_append, Nat.ofDigitChars_replicate_zero, Nat.mul_zero,
      Nat.ofDigitChars_ten_toDigits]
  have behind : (padded.drop whole).length = places := by
    have long : places ≤ padded.length := by
      simp only [padded, List.length_append, List.length_replicate]
      omega
    rw [List.length_drop]
    omega
  rw [text, reading_pointed (fun mem => plain (List.mem_of_mem_take mem))
    (fun mem => plain (List.mem_of_mem_drop mem)), List.take_append_drop, number, behind]

/-- A decimal is read back from its positional form. -/
theorem reading_positional (d : Decimal) : reading d.positional.toList = d.value := by
  unfold positional
  split
  · rename_i whole
    obtain ⟨count, exponent⟩ := Int.eq_ofNat_of_zero_le whole
    split
    · rename_i zero
      rw [value, zero, Nat.cast_zero, zero_mul, reading_whole (by decide)]
      rfl
    · have text : (digitText d.digits ++ zeros d.exponent.toNat).toList =
          Nat.toDigits 10 d.digits ++ List.replicate count '0' := by
        simp [digitText, zeros, exponent]
      have plain : '.' ∉ Nat.toDigits 10 d.digits ++ List.replicate count '0' := by
        rw [List.mem_append, not_or]
        exact ⟨point_not_mem_toDigits _, point_not_mem_zeros _⟩
      rw [text, reading_whole plain, Nat.ofDigitChars_append, Nat.ofDigitChars_ten_toDigits,
        Nat.ofDigitChars_replicate_zero, value, exponent, zpow_natCast]
      push_cast
      ring
  · rename_i fraction
    obtain ⟨count, exponent⟩ : ∃ count : Nat, d.exponent = -(count : Int) :=
      ⟨(-d.exponent).toNat, by omega⟩
    rw [reading_pointedText, value, exponent, neg_neg, Int.toNat_natCast, zpow_neg, zpow_natCast,
      div_eq_mul_inv]

end Decimal

namespace Binary64

open Decimal

/-- What the text of a finite number is read back as is in the interval of the number. -/
theorem holds_reading_text {mantissa : Nat} {exponent : Int} (normal : Normal mantissa exponent) :
    (Basin.ofBinary mantissa exponent).Holds (reading (finite mantissa exponent).text.toList) := by
  rw [text, reading_positional]
  exact holds_shortest .up normal

/-- Zero is in no interval of a positive number. -/
theorem not_holds_zero {mantissa : Nat} {exponent : Int} (normal : Normal mantissa exponent) :
    ¬ (Basin.ofBinary mantissa exponent).Holds 0 := by
  intro holds
  have low := holds.bounds.1
  have some : 0 < 4 * mantissa - Basin.below mantissa := by
    have positive := normal.positive
    unfold Basin.below
    split <;> omega
  have some' : (0 : ℚ) < (4 * mantissa - Basin.below mantissa : Nat) := by exact_mod_cast some
  rw [(Basin.ofBinary_values mantissa exponent).1] at low
  exact absurd low (not_le.mpr (by positivity))

/-- Infinity is written like no number. -/
theorem text_finite_ne (mantissa : Nat) (exponent : Int) :
    (finite mantissa exponent).text ≠ infinite.text := by
  intro same
  have number : EcmaScript.IsNumber (finite mantissa exponent).text :=
    EcmaScript.isNumber_positional _
  rw [same] at number
  cases number with
  | whole isWhole => exact absurd (isWhole.1 'i' (by decide)) (by decide)
  | fractional _ _ spelled =>
      have point : '.' ∈ infinite.text.toList := by
        rw [spelled]
        exact List.mem_append_right _ List.mem_cons_self
      revert point
      decide

theorem reading_text_zero : reading (finite 0 0).text.toList = 0 := by
  rw [text, reading_positional, shortest, if_pos rfl, value, Nat.cast_zero, zero_mul]

/-- A number in its one form is told by its text. -/
theorem text_injective {first second : Binary64} (canonical : first.Canonical)
    (canonical' : second.Canonical) (same : first.text = second.text) : first = second := by
  cases first with
  | infinite =>
      cases second with
      | infinite => rfl
      | finite mantissa exponent => exact absurd same.symm (text_finite_ne mantissa exponent)
  | finite mantissa exponent =>
      cases second with
      | infinite => exact absurd same (text_finite_ne mantissa exponent)
      | finite mantissa' exponent' =>
          rcases canonical with ⟨rfl, rfl⟩ | normal
          · rcases canonical' with ⟨rfl, rfl⟩ | normal'
            · rfl
            · have holds := holds_reading_text normal'
              rw [← same, reading_text_zero] at holds
              exact absurd holds (not_holds_zero normal')
          · have holds := holds_reading_text normal
            rw [same] at holds
            rcases canonical' with ⟨rfl, rfl⟩ | normal'
            · rw [reading_text_zero] at holds
              exact absurd holds (not_holds_zero normal)
            · obtain ⟨rfl, rfl⟩ := Basin.unique_of_holds normal normal' holds
                (holds_reading_text normal')
              rfl

end Binary64

end Qalam
