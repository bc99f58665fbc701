/-
# Which proposals are usable

Only what stands between the blanks at the two ends of a proposal counts. It has to have a
character, consist of ASCII letters and digits, underscores, hyphens and blanks, and begin with
something else than a digit. Then each of its characters becomes one of the name, whatever stands
around it, and the name is an identifier. A name that arises in this way stands for itself if it is
proposed.

Blanks are those of the Unicode standard, at the ends of a proposal as well as inside. Letters are
those of ASCII only, so that a letter of another script is refused even where its small form would
be one of ASCII.
-/

import Mathlib.Data.List.DropRight
import Qalam.Naming.Sanitize

namespace Qalam.Naming

/-! ## The core of a text -/

/-- A core is what stands between the blanks at the two ends of a text. -/
structure IsCore (text core : List Char) : Prop where
  between : ∃ before behind, text = before ++ (core ++ behind) ∧
    (∀ c ∈ before, Text.isBlank c = true) ∧ ∀ c ∈ behind, Text.isBlank c = true
  first : core.head?.any Text.isBlank = false
  last : core.getLast?.any Text.isBlank = false

theorem isCore_trim (text : List Char) : IsCore text (trim text) := by
  let front := text.dropWhile Text.isBlank
  have kept : trim text = front.rdropWhile Text.isBlank := rfl
  have split : front.rdropWhile Text.isBlank ++ front.rtakeWhile Text.isBlank = front :=
    List.rdropWhile_append_rtakeWhile
  rw [kept]
  refine ⟨⟨text.takeWhile Text.isBlank, front.rtakeWhile Text.isBlank, ?_,
    fun c => List.mem_takeWhile_imp, fun c => List.mem_rtakeWhile_imp⟩, ?_, ?_⟩
  · rw [split, List.takeWhile_append_dropWhile]
  · -- What is left begins like the text without the blanks in front.
    have solid := List.head?_dropWhile_not Text.isBlank text
    rw [show text.dropWhile Text.isBlank = front from rfl, ← split] at solid
    cases left : front.rdropWhile Text.isBlank with
    | nil => rfl
    | cons c rest => simpa [left] using solid
  · rw [Option.any_eq_false]
    intro c last
    obtain ⟨some, rfl⟩ := List.mem_getLast?_eq_getLast last
    exact Bool.not_eq_true _ ▸ List.rdropWhile_last_not Text.isBlank front some

theorem IsCore.eq_trim {text core : List Char} (isCore : IsCore text core) :
    core = trim text := by
  obtain ⟨⟨before, behind, rfl, front, back⟩, first, last⟩ := isCore
  unfold trim
  rw [List.dropWhile_append_of_pos front]
  cases core with
  | nil =>
      rw [List.nil_append, List.dropWhile_eq_nil_iff.mpr back]
      rfl
  | cons c rest =>
      have solid : ¬ Text.isBlank c = true := by simpa using first
      have reversed : ∀ d ∈ behind.reverse, Text.isBlank d = true :=
        fun d mem => back d (List.mem_reverse.mp mem)
      have ends : (c :: rest).rdropWhile Text.isBlank = c :: rest := by
        rw [List.rdropWhile_eq_self_iff]
        intro some
        simpa [List.getLast?_eq_some_getLast some] using last
      rw [List.cons_append, List.dropWhile_cons_of_neg solid, ← List.cons_append,
        List.reverse_append, List.dropWhile_append_of_pos reversed]
      exact ends.symm

/-- Every text has exactly one core. -/
theorem isCore_iff {text core : List Char} : IsCore text core ↔ core = trim text := by
  constructor
  · exact IsCore.eq_trim
  · rintro rfl
    exact isCore_trim text

/-! ## Single characters -/

/-- Characters of which a usable proposal consists. -/
def Admissible (c : Char) : Prop :=
  c.isAlpha = true ∨ c.isDigit = true ∨ c = '_' ∨ c = '-' ∨ Text.isBlank c = true

/-- Hyphens and blanks become underscores, and letters become small. -/
def nameCharOf (c : Char) : Char :=
  if c = '-' ∨ Text.isBlank c = true then '_' else c.toLower

section

variable {c : Char}

theorem isLower_iff_val : c.isLower = true ↔ 'a'.val ≤ c.val ∧ c.val ≤ 'z'.val := by
  change (decide ('a'.val ≤ c.val) && decide (c.val ≤ 'z'.val)) = true ↔ _
  rw [Bool.and_eq_true, decide_eq_true_iff, decide_eq_true_iff]

theorem isAlpha_iff : c.isAlpha = true ↔ c.isUpper = true ∨ c.isLower = true :=
  Bool.or_eq_true_iff

theorem isNameChar_iff :
    isNameChar c = true ↔ c.isLower = true ∨ c.isDigit = true ∨ c = '_' := by
  simp only [isNameChar, isLower_iff_val, Char.isDigit, Char.le_def, Bool.or_eq_true,
    Bool.and_eq_true, decide_eq_true_eq, or_assoc]

theorem isNameChar_toLower_iff :
    isNameChar c.toLower = true ↔ c.isAlpha = true ∨ c.isDigit = true ∨ c = '_' := by
  rw [isNameChar_iff, isAlpha_iff, isLower_iff_val, isLower_iff_val]
  unfold Char.toLower Char.isUpper Char.isDigit
  split <;> grind

theorem not_gap_of_isNameChar (fine : isNameChar c.toLower = true) :
    ¬ (c = '-' ∨ Text.isBlank c = true) := by
  rintro (rfl | blank)
  · revert fine
    decide
  · have other := Text.of_isBlank (fun c => isNameChar c.toLower = false) (by decide +kernel) blank
    exact Bool.false_ne_true (other.symm.trans fine)

theorem nameChar?_eq_some_iff {name : Char} :
    nameChar? c = some name ↔ Admissible c ∧ name = nameCharOf c := by
  unfold nameChar?
  dsimp only
  split
  · rename_i fine
    have admissible : Admissible c := by
      have kind := isNameChar_toLower_iff.mp fine
      unfold Admissible
      tauto
    rw [nameCharOf, if_neg (not_gap_of_isNameChar fine)]
    simp [admissible, eq_comm]
  · rename_i other
    rw [isNameChar_toLower_iff] at other
    unfold Admissible nameCharOf
    grind

/-- A character of a name stands for itself. -/
theorem nameChar?_eq_self (fine : isNameChar c = true) : nameChar? c = some c := by
  have small : c.toLower = c := by
    rcases isNameChar_iff.mp fine with lower | digit | rfl
    · rw [isLower_iff_val] at lower
      unfold Char.toLower
      grind
    · unfold Char.isDigit at digit
      unfold Char.toLower
      grind
    · rfl
  rw [nameChar?, small]
  exact if_pos fine

theorem isNameChar_nameCharOf (admissible : Admissible c) :
    isNameChar (nameCharOf c) = true := by
  unfold nameCharOf
  split
  · decide
  · rw [isNameChar_toLower_iff]
    unfold Admissible at admissible
    tauto

/-- Digits arise from digits only. -/
theorem isDigit_nameCharOf : (nameCharOf c).isDigit = c.isDigit := by
  unfold nameCharOf
  split
  · rename_i gap
    rcases gap with rfl | blank
    · rfl
    · exact (Text.not_isDigit_of_isBlank blank).symm
  · unfold Char.toLower Char.isDigit
    split <;> grind

end

theorem mapM_nameChar?_eq_some_iff {text name : List Char} :
    text.mapM nameChar? = some name ↔
      (∀ c ∈ text, Admissible c) ∧ name = text.map nameCharOf := by
  induction text generalizing name with
  | nil => simp [eq_comm]
  | cons c rest ih =>
      simp only [List.mapM_cons, Option.bind_eq_bind, Option.bind_eq_some_iff, Option.pure_def,
        Option.some.injEq, ih, nameChar?_eq_some_iff, List.forall_mem_cons, List.map_cons]
      constructor
      · rintro ⟨first, ⟨here, rfl⟩, others, ⟨there, rfl⟩, rfl⟩
        exact ⟨⟨here, there⟩, rfl⟩
      · rintro ⟨⟨here, there⟩, rfl⟩
        exact ⟨_, ⟨here, rfl⟩, _, ⟨there, rfl⟩, rfl⟩

theorem beginsWithDigit_map (text : List Char) :
    beginsWithDigit (text.map nameCharOf) = text.head?.any Char.isDigit := by
  cases text with
  | nil => rfl
  | cons c rest =>
      rw [List.head?_cons, Option.any_some, ← isDigit_nameCharOf]
      simp [beginsWithDigit, Char.isDigit, Char.le_def]

/-! ## Whole proposals -/

/-- What the core of a usable proposal is like. -/
structure Acceptable (core : List Char) : Prop where
  nonempty : core ≠ []
  chars : ∀ c ∈ core, Admissible c
  first : core.head?.any Char.isDigit = false

/-- A small letter or an underscore, with small letters, digits and underscores behind it. -/
def IsIdentifier (name : List Char) : Prop :=
  ∃ first others, name = first :: others ∧ (first.isLower = true ∨ first = '_') ∧
    ∀ c ∈ others, c.isLower = true ∨ c.isDigit = true ∨ c = '_'

theorem sanitizeChars?_eq_some_iff {proposal name : List Char} :
    sanitizeChars? proposal = some name ↔
      Acceptable (trim proposal) ∧ name = (trim proposal).map nameCharOf := by
  unfold sanitizeChars?
  generalize trim proposal = core
  cases mapped : core.mapM nameChar? with
  | none =>
      refine iff_of_false nofun ?_
      rintro ⟨acceptable, -⟩
      have reads := mapM_nameChar?_eq_some_iff.mpr ⟨acceptable.chars, rfl⟩
      rw [mapped] at reads
      cases reads
  | some found =>
      obtain ⟨admissible, rfl⟩ := mapM_nameChar?_eq_some_iff.mp mapped
      dsimp only
      rw [beginsWithDigit_map]
      constructor
      · intro found
        split at found
        · cases found
        · rename_i fine
          cases found
          simp only [List.isEmpty_map, Bool.or_eq_true, List.isEmpty_iff, not_or,
            Bool.not_eq_true] at fine
          exact ⟨⟨fine.1, admissible, fine.2⟩, rfl⟩
      · rintro ⟨acceptable, rfl⟩
        simp [acceptable.nonempty, acceptable.first]

theorem sanitize?_eq_some_iff {proposal name : String} :
    sanitize? proposal = some name ↔ Acceptable (trim proposal.toList) ∧
      name.toList = (trim proposal.toList).map nameCharOf := by
  rw [← sanitizeChars?_eq_some_iff, sanitize?, Option.map_eq_some_iff]
  constructor
  · rintro ⟨chars, found, rfl⟩
    rwa [String.toList_ofList]
  · intro found
    exact ⟨name.toList, found, String.ofList_toList⟩

theorem Acceptable.isIdentifier {core : List Char} (acceptable : Acceptable core) :
    IsIdentifier (core.map nameCharOf) := by
  obtain ⟨nonempty, chars, first⟩ := acceptable
  cases core with
  | nil => exact absurd rfl nonempty
  | cons c rest =>
      rw [List.forall_mem_cons] at chars
      rw [List.head?_cons, Option.any_some, ← isDigit_nameCharOf] at first
      refine ⟨nameCharOf c, rest.map nameCharOf, rfl, ?_, ?_⟩
      · simpa [first] using isNameChar_iff.mp (isNameChar_nameCharOf chars.1)
      · rw [List.forall_mem_map]
        exact fun d mem => isNameChar_iff.mp (isNameChar_nameCharOf (chars.2 d mem))

/-- An identifier is its own core, and none of its characters is changed. -/
theorem IsIdentifier.sanitize?_eq_self {name : String} (identifier : IsIdentifier name.toList) :
    sanitize? name = some name := by
  obtain ⟨first, others, spelled, begins, continues⟩ := identifier
  have chars : ∀ c ∈ name.toList, isNameChar c = true := by
    rw [spelled, List.forall_mem_cons]
    exact ⟨isNameChar_iff.mpr (by tauto), fun c mem => isNameChar_iff.mpr (continues c mem)⟩
  have stays : ∀ c ∈ name.toList, Admissible c ∧ c = nameCharOf c :=
    fun c mem => nameChar?_eq_some_iff.mp (nameChar?_eq_self (chars c mem))
  have solid : ∀ c ∈ name.toList, ¬ Text.isBlank c = true := by
    intro c mem blank
    have same := (stays c mem).2
    rw [nameCharOf, if_pos (.inr blank)] at same
    subst same
    revert blank
    decide
  have core : trim name.toList = name.toList := by
    refine (IsCore.eq_trim ⟨⟨[], [], by simp, by simp, by simp⟩, ?_, ?_⟩).symm
    · rw [Option.any_eq_false]
      exact fun c first => by simp [solid c (List.mem_of_head? first)]
    · rw [Option.any_eq_false]
      exact fun c last => by simp [solid c (List.mem_of_getLast? last)]
  have noDigit : first.isDigit = false := by
    rcases begins with lower | rfl
    · rw [isLower_iff_val] at lower
      unfold Char.isDigit
      grind
    · rfl
  rw [sanitize?_eq_some_iff, core]
  refine ⟨⟨by simp [spelled], fun c mem => (stays c mem).1, by simpa [spelled] using noDigit⟩, ?_⟩
  rw [List.map_congr_left fun c mem => (stays c mem).2.symm, List.map_id']

/-- Every proposal has one core, and is usable if that is acceptable and only then. The name comes
from the core by a change of each character, is an identifier, and stands for itself. -/
theorem sanitize?_exact (proposal : String) :
    ∃ core, (∀ other, IsCore proposal.toList other ↔ other = core) ∧
      ((∃ name, sanitize? proposal = some name) ↔ Acceptable core) ∧
      ∀ name, sanitize? proposal = some name →
        name.toList = core.map nameCharOf ∧ IsIdentifier name.toList ∧
          sanitize? name = some name := by
  refine ⟨trim proposal.toList, fun other => isCore_iff, ⟨?_, ?_⟩, ?_⟩
  · rintro ⟨name, found⟩
    exact (sanitize?_eq_some_iff.mp found).1
  · intro acceptable
    exact ⟨String.ofList ((trim proposal.toList).map nameCharOf),
      sanitize?_eq_some_iff.mpr ⟨acceptable, String.toList_ofList⟩⟩
  · intro name found
    obtain ⟨acceptable, spelled⟩ := sanitize?_eq_some_iff.mp found
    have identifier : IsIdentifier name.toList := spelled ▸ acceptable.isIdentifier
    exact ⟨spelled, identifier, identifier.sanitize?_eq_self⟩

/-- An ideographic space and a tab at the ends, and a blank of another kind inside. -/
theorem sanitize?_exact_blanks :
    sanitize? "\u3000Blast-Off\u00a02\t" = some "blast_off_2" ∧
      IsIdentifier "blast_off_2".toList ∧ sanitize? "blast_off_2" = some "blast_off_2" := by
  obtain ⟨core, -, -, names⟩ := sanitize?_exact "\u3000Blast-Off\u00a02\t"
  have found : sanitize? "\u3000Blast-Off\u00a02\t" = some "blast_off_2" := by decide +kernel
  obtain ⟨-, identifier, stands⟩ := names "blast_off_2" found
  exact ⟨found, identifier, stands⟩

/-- The sign for kelvin is not taken for a letter, though its small form is one. -/
example : sanitize? "\u212a" = none := by decide +kernel

end Qalam.Naming
