/-
# Blank characters

The property White_Space of the Unicode standard. Blanks separate tokens, and they are
trimmed from proposed names.
-/

import Qalam.Text.Ranges

namespace Qalam.Text

/-- Ranges of code points with the property White_Space, in ascending order. -/
def isBlankRanges : List (Nat × Nat) := [
  (0x0009, 0x000d), (0x0020, 0x0020), (0x0085, 0x0085), (0x00a0, 0x00a0), (0x1680, 0x1680),
  (0x2000, 0x200a), (0x2028, 0x2029), (0x202f, 0x202f), (0x205f, 0x205f), (0x3000, 0x3000)]

/-- Decides the property White_Space. -/
def isBlank (c : Char) : Bool :=
  inRanges isBlankRanges c.toNat

/-- What holds of the characters in the ranges of blanks holds of every blank. -/
theorem of_isBlank (holds : Char → Prop)
    (listed : ∀ range ∈ isBlankRanges,
      ∀ code ∈ List.range' range.1 (range.2 + 1 - range.1), holds (Char.ofNat code))
    {c : Char} (blank : isBlank c = true) : holds c := by
  obtain ⟨range, mem, low, high⟩ := exists_range_of_inRanges blank
  have inside : c.toNat ∈ List.range' range.1 (range.2 + 1 - range.1) := by
    rw [List.mem_range'_1]
    omega
  have found := listed range mem c.toNat inside
  rwa [Char.ofNat_toNat] at found

theorem not_isDigit_of_isBlank {c : Char} (blank : isBlank c = true) : c.isDigit = false :=
  of_isBlank (·.isDigit = false) (by decide +kernel) blank

end Qalam.Text
