/-
# Sorted ranges of code points

A property of characters is given by a list of ranges in ascending order. The search walks
the list and stops as soon as the ranges lie above the code point, so the answer for a
character at the low end of the table needs only a few comparisons.
-/

namespace Qalam.Text

/-- Search a list of closed ranges in ascending order. Ranges above the code point are not
looked at. -/
def inRanges : List (Nat × Nat) → Nat → Bool
  | [], _ => false
  | (low, high) :: ranges, code =>
    if code < low then false
    else if code ≤ high then true
    else inRanges ranges code

/-- A code point found by the search lies in one of the ranges, sorted or not. -/
theorem exists_range_of_inRanges {ranges : List (Nat × Nat)} {code : Nat}
    (found : inRanges ranges code = true) :
    ∃ range ∈ ranges, range.1 ≤ code ∧ code ≤ range.2 := by
  induction ranges with
  | nil => simp [inRanges] at found
  | cons range ranges ih =>
      obtain ⟨low, high⟩ := range
      rw [inRanges] at found
      by_cases below : code < low
      · simp [below] at found
      · by_cases inside : code ≤ high
        · exact ⟨(low, high), by simp, by simp only; omega⟩
        · rw [if_neg below, if_neg inside] at found
          obtain ⟨range, member, bounds⟩ := ih found
          exact ⟨range, by simp [member], bounds⟩

end Qalam.Text
