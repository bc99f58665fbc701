/-
# Runs of digits

A whole number may be written with digits of three scripts in any mixture. What it writes is said
here without the scanner: each digit has its value, and the last of them is the unit. A run of
digits is read as that number if neither a further digit nor a point in front of one comes behind
it.
-/

import Mathlib.Data.List.Forall2
import Mathlib.Data.Nat.Digits.Defs
import Qalam.Proofs.Lexing.Spelling

namespace Qalam.Scan

/-- The value of digits is that of the number that they write, the last of them being the unit. -/
theorem foldl_eq_ofDigits {base : Nat} {digit? : Char → Option Nat} {digits : List Char}
    {values : List Nat}
    (known : List.Forall₂ (fun c value => digit? c = some value) digits values) :
    digits.foldl (fun value c => base * value + (digit? c).getD 0) 0 =
      Nat.ofDigits base values.reverse := by
  have mapped : digits.map (fun c => (digit? c).getD 0) = values := by
    induction known with
    | nil => rfl
    | cons first _ ih => rw [List.map_cons, ih, first, Option.getD_some]
  rw [Nat.ofDigits_eq_foldr, List.foldr_reverse, ← mapped, List.foldl_map]
  simp only [Nat.cast_id, Nat.add_comm]

/-- A decimal digit of one of three scripts, with its value. -/
def IsDigit (c : Char) (value : Nat) : Prop :=
  value < 10 ∧ (c.toNat = 0x30 + value ∨ c.toNat = 0x660 + value ∨ c.toNat = 0x6F0 + value)

theorem digit?_eq_some {c : Char} {value : Nat} : digit? c = some value ↔ IsDigit c value := by
  rw [digit?, IsDigit]
  split_ifs <;> simp only [Option.some.injEq, false_iff] <;> omega

/-- What can stand behind a whole number. -/
structure EndsInteger (rest : List Char) : Prop where
  noDigit : ∀ c ∈ rest.head?, ∀ value, ¬ IsDigit c value
  noFraction : ∀ c more, rest = '.' :: c :: more → ∀ value, ¬ IsDigit c value

theorem EndsInteger.nil : EndsInteger [] where
  noDigit c head := by cases head
  noFraction c more split := by cases split

theorem EndsInteger.of_head {c : Char} (other : digit? c = none) (point : c ≠ '.')
    {rest : List Char} : EndsInteger (c :: rest) where
  noDigit d head value digit := by
    cases head
    rw [digit?_eq_some.mpr digit] at other
    cases other
  noFraction d more split := absurd (List.cons.inj split).1 point

section

variable {digits rest : List Char} {values : List Nat}

theorem splitDigits_of_ends (ends : ∀ c ∈ rest.head?, ∀ value, ¬ IsDigit c value) :
    splitDigits rest = ([], rest) := by
  cases rest with
  | nil => rfl
  | cons c more =>
      have other : digit? c = none :=
        Option.eq_none_iff_forall_ne_some.mpr fun value known =>
          ends c rfl value (digit?_eq_some.mp known)
      rw [splitDigits, other]
      rfl

theorem splitDigits_run (run : List.Forall₂ IsDigit digits values)
    (ends : ∀ c ∈ rest.head?, ∀ value, ¬ IsDigit c value) :
    splitDigits (digits ++ rest) = (digits, rest) := by
  induction run with
  | nil => exact splitDigits_of_ends ends
  | cons first _ ih =>
      rw [List.cons_append, splitDigits, digit?_eq_some.mpr first, ih]
      rfl

/-- A run of digits is the number that it writes. -/
theorem number_run (run : List.Forall₂ IsDigit digits values) (ends : EndsInteger rest) :
    number (digits ++ rest) = ⟨.int (Nat.ofDigits 10 values.reverse), digits, rest⟩ := by
  have value : digitsValue digits = Nat.ofDigits 10 values.reverse :=
    foldl_eq_ofDigits (run.imp fun _ _ => digit?_eq_some.mpr)
  rw [number, splitDigits_run run ends.noDigit, ← value]
  dsimp only
  split
  · rename_i more
    have none : splitDigits more = ([], more) := by
      apply splitDigits_of_ends
      intro c head
      obtain ⟨behind, rfl⟩ := List.head?_eq_some_iff.mp head
      exact ends.noFraction c behind rfl
    rw [none]
    rfl
  · rfl

/-- A digit begins a number, and nothing else. -/
theorem lexeme_of_digit {c : Char} {value : Nat} (digit : IsDigit c value) (rest : List Char) :
    splitTrivia false (c :: rest) = ([], c :: rest) ∧
      lexeme c rest = .ok (number (c :: rest)) := by
  have noSymbol : ∀ entry ∈ symbolSpellings,
      entry.1.head?.any (fun c => (digit? c).isSome) = false := by decide
  have known : (digit? c).isSome = true := by
    rw [digit?_eq_some.mpr digit]
    rfl
  have other : ∀ d : Char, (digit? d).isSome = false → c ≠ d := by
    rintro d different rfl
    exact Bool.false_ne_true (different.symm.trans known)
  have solid : Text.isBlank c = false := by
    rw [Bool.eq_false_iff]
    intro blank
    exact Bool.false_ne_true ((not_digit_of_blank blank).symm.trans known)
  refine ⟨splitTrivia_of_solid solid (other '/' rfl) rest, ?_⟩
  rw [lexeme, symbol?_eq_none noSymbol known]
  simp [other '&' rfl, other '|' rfl, other '"' rfl, known]

theorem solid_of_run (nonempty : digits ≠ []) (run : List.Forall₂ IsDigit digits values)
    (rest : List Char) : splitTrivia false (digits ++ rest) = ([], digits ++ rest) := by
  cases run with
  | nil => exact absurd rfl nonempty
  | cons first others => exact (lexeme_of_digit first _).1

theorem tokensFrom_run (nonempty : digits ≠ []) (run : List.Forall₂ IsDigit digits values)
    (ends : EndsInteger rest) (pos : Position) :
    tokensFrom pos (digits ++ rest) = (tokensFrom (pos.advance digits) rest).map
      (⟨.int (Nat.ofDigits 10 values.reverse), pos⟩ :: ·) := by
  have read := number_run run ends
  cases run with
  | nil => exact absurd rfl nonempty
  | cons first others =>
      obtain ⟨solid, token⟩ := lexeme_of_digit first (_ ++ rest)
      rw [List.cons_append] at read ⊢
      rw [tokensFrom_of_cons solid, token, read]
      rfl

end

end Qalam.Scan
