/-
# Drawn strings

A string is shown in quotes, with escapes for what has no visible shape. No escape is the beginning
of another one, so the string can be read back, and none has a line feed in it. The code of a
character is told by its hexadecimal digits.
-/

import Mathlib.Data.List.Basic
import Qalam.Tree.Drawing

namespace Qalam

/-- What stands before a separator and behind it, if the separator does not stand in front. -/
theorem append_cons_inj_of_notMem {separator : Char} {first first' rest rest' : List Char}
    (free : separator ∉ first) (free' : separator ∉ first')
    (same : first ++ separator :: rest = first' ++ separator :: rest') :
    first = first' ∧ rest = rest' := by
  have front : ∀ {first rest : List Char}, separator ∉ first →
      (first ++ separator :: rest).takeWhile (· ≠ separator) = first := by
    intro first rest free
    rw [List.takeWhile_append_of_pos]
    · simp
    · exact fun c mem => decide_eq_true fun equal => free (equal ▸ mem)
  have fronts : first = first' := by rw [← front free, same, front free']
  subst fronts
  exact ⟨rfl, (List.cons.inj (List.append_cancel_left same)).2⟩

namespace Text

/-! ## Hexadecimal digits -/

theorem digitChar_injective : ∀ a < 16, ∀ b < 16, Nat.digitChar a = Nat.digitChar b → a = b := by
  decide

theorem hexDigits_eq (n : Nat) : hexDigits n =
    if n < 16 then [Nat.digitChar n] else hexDigits (n / 16) ++ [Nat.digitChar (n % 16)] :=
  Nat.toDigits_eq_if (by decide)

/-- Digits stand for one number. -/
theorem hexDigits_injective (a : Nat) : ∀ b, hexDigits a = hexDigits b → a = b := by
  induction a using Nat.strongRecOn with
  | ind a ih =>
      intro b same
      have some : ∀ n, 0 < (hexDigits n).length := fun n => Nat.length_toDigits_pos
      rw [hexDigits_eq a, hexDigits_eq b] at same
      split at same <;> split at same
      · exact digitChar_injective a ‹_› b ‹_› (List.singleton_inj.mp same)
      · have length := congrArg List.length same
        have positive := some (b / 16)
        simp only [List.length_append, List.length_singleton] at length
        omega
      · have length := congrArg List.length same
        have positive := some (a / 16)
        simp only [List.length_append, List.length_singleton] at length
        omega
      · obtain ⟨front, last⟩ := List.append_inj' same rfl
        have high := ih (a / 16) (by omega) (b / 16) front
        have low := digitChar_injective (a % 16) (by omega) (b % 16) (by omega)
          (List.singleton_inj.mp last)
        omega

theorem mem_hexDigits (n : Nat) : ∀ c ∈ hexDigits n, c ∈ (List.range 16).map Nat.digitChar := by
  induction n using Nat.strongRecOn with
  | ind n ih =>
      have digit : ∀ {d}, d < 16 → Nat.digitChar d ∈ (List.range 16).map Nat.digitChar :=
        fun small => List.mem_map_of_mem (List.mem_range.mpr small)
      intro c mem
      rw [hexDigits_eq] at mem
      split at mem
      · rw [List.mem_singleton.mp mem]
        exact digit ‹_›
      · rcases List.mem_append.mp mem with high | low
        · exact ih (n / 16) (by omega) c high
        · rw [List.mem_singleton.mp low]
          exact digit (by omega)

theorem not_mem_hexDigits {c : Char} (other : c ∉ (List.range 16).map Nat.digitChar) (n : Nat) :
    c ∉ hexDigits n :=
  fun mem => other (mem_hexDigits n c mem)

/-! ## Shown characters -/

/-- Characters with an escape of their own. -/
def escapes : List (Char × Char) :=
  [('\x00', '0'), ('\t', 't'), ('\r', 'r'), ('\n', 'n'), ('\\', '\\'), ('"', '"')]

/-- The ways in which a character is shown. -/
inductive Shown : Char → List Char → Prop
  | escape {c letter : Char} : (c, letter) ∈ escapes → Shown c ['\\', letter]
  | code {c : Char} : Shown c (['\\', 'u', '\x7b'] ++ hexDigits c.toNat ++ ['\x7d'])
  | plain {c : Char} : c ∉ ['\\', '"', '\n'] → Shown c [c]

theorem shown_displayChar (c : Char) : Shown c (displayChar c) := by
  unfold displayChar
  split
  · subst c; exact .escape (by decide)
  split
  · subst c; exact .escape (by decide)
  split
  · subst c; exact .escape (by decide)
  split
  · subst c; exact .escape (by decide)
  split
  · subst c; exact .escape (by decide)
  split
  · subst c; exact .escape (by decide)
  split
  · exact .code
  · exact .plain (by simp [*])

/-- A shown character tells the character and where it ends. -/
theorem Shown.inj {c d : Char} {text text' rest rest' : List Char} (shown : Shown c text)
    (shown' : Shown d text') (same : text ++ rest = text' ++ rest') : c = d ∧ rest = rest' := by
  have noCode : ∀ entry ∈ escapes, entry.2 ≠ 'u' := by decide
  cases shown with
  | @escape letter known =>
      cases shown' with
      | @escape letter' known' =>
          have table : ∀ first ∈ escapes, ∀ second ∈ escapes, first.2 = second.2 →
              first.1 = second.1 := by decide
          simp only [List.cons_append, List.nil_append, List.cons.injEq, true_and] at same
          exact ⟨table _ known _ known' same.1, same.2⟩
      | code =>
          simp only [List.cons_append, List.nil_append, List.cons.injEq, true_and] at same
          exact absurd same.1 (noCode _ known)
      | plain other =>
          simp only [List.cons_append, List.cons.injEq] at same
          exact absurd (by simp [← same.1]) other
  | code =>
      cases shown' with
      | @escape letter' known' =>
          simp only [List.cons_append, List.nil_append, List.cons.injEq, true_and] at same
          exact absurd same.1.symm (noCode _ known')
      | code =>
          simp only [List.cons_append, List.nil_append, List.append_assoc, List.cons.injEq,
            true_and] at same
          obtain ⟨digits, behind⟩ := append_cons_inj_of_notMem
            (not_mem_hexDigits (by decide) _) (not_mem_hexDigits (by decide) _) same
          exact ⟨Char.toNat_inj.mp (hexDigits_injective _ _ digits), behind⟩
      | plain other =>
          simp only [List.cons_append, List.cons.injEq] at same
          exact absurd (by simp [← same.1]) other
  | plain other =>
      cases shown' with
      | escape | code =>
          simp only [List.cons_append, List.cons.injEq] at same
          exact absurd (by simp [same.1]) other
      | plain => exact List.cons.inj same

theorem Shown.head {c : Char} {text : List Char} (shown : Shown c text) (rest : List Char) :
    (text ++ rest).head? ≠ some '"' := by
  cases shown with
  | escape | code => simp
  | plain other =>
      rintro ⟨⟩
      exact other (by decide)

theorem Shown.unbroken {c : Char} {text : List Char} (shown : Shown c text) : '\n' ∉ text := by
  cases shown with
  | @escape letter known =>
      have table : ∀ entry ∈ escapes, entry.2 ≠ '\n' := by decide
      simpa using (table _ known).symm
  | code => simpa using not_mem_hexDigits (by decide) _
  | plain other =>
      simp only [List.mem_cons, List.not_mem_nil, or_false, not_or] at other
      simpa using Ne.symm other.2.2

theorem flatMap_displayChar_injective : ∀ {first second : List Char},
    first.flatMap displayChar ++ ['"'] = second.flatMap displayChar ++ ['"'] → first = second
  | [], [], _ => rfl
  | [], c :: rest, same => by
      have head := (shown_displayChar c).head (rest.flatMap displayChar ++ ['"'])
      rw [List.flatMap_cons, List.append_assoc] at same
      exact absurd (congrArg List.head? same.symm) head
  | c :: rest, [], same => by
      have head := (shown_displayChar c).head (rest.flatMap displayChar ++ ['"'])
      rw [List.flatMap_cons, List.append_assoc] at same
      exact absurd (congrArg List.head? same) head
  | c :: rest, d :: rest', same => by
      simp only [List.flatMap_cons, List.append_assoc] at same
      obtain ⟨rfl, behind⟩ := (shown_displayChar c).inj (shown_displayChar d) same
      rw [flatMap_displayChar_injective behind]

/-- The display form tells the string. -/
theorem display_injective {first second : String} (same : display first = display second) :
    first = second := by
  have chars := String.ofList_inj.mp same
  exact String.toList_inj.mp (flatMap_displayChar_injective (List.cons.inj chars).2)

theorem display_unbroken (text : String) : '\n' ∉ (display text).toList := by
  simp only [display, String.toList_ofList, List.cons_append, List.mem_cons, List.mem_append,
    List.mem_flatMap, not_or, not_exists, not_and]
  exact ⟨by decide, fun c _ => (shown_displayChar c).unbroken, by decide⟩

end Text

end Qalam
