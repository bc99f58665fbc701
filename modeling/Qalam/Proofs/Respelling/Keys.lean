/-
# Programs with other names

Names can be spelled anew everywhere in a program: where they are declared, where they are used, and
where they stand for fields, methods or the keys of object literals. The entities, the tags and the
positions stay.

Keys are compared by their texts. A name can have the same text as the constant `true` or another
one of the few constants that are written in letters. No other text of a key looks like a name, so
with names that avoid these constants two keys compare in one spelling as they do in the other.
-/

import Qalam.Proofs.EcmaScript.Spelling
import Qalam.Proofs.Lexing.Word
import Qalam.Proofs.Relabelling.Checks

namespace Qalam

/-- Texts of constants that are written in letters. -/
def constantTexts : List String := ["true", "false", "null", "undefined", "inf"]

/-- A name that is written like no constant. -/
def IsPlainName (name : String) : Prop := IsName name ∧ name ∉ constantTexts

instance (name : String) : Decidable (IsPlainName name) :=
  inferInstanceAs (Decidable (IsName name ∧ name ∉ constantTexts))

/-! ## The texts of keys -/

theorem IsName.head? {text : String} (named : IsName text) {c : Char}
    (first : text.toList.head? = some c) : Scan.isWordStart c = true := by
  have begins := named.begins
  rw [first] at begins
  exact begins

theorem not_isName_of_isNumber {text : String} (number : EcmaScript.IsNumber text) :
    ¬ IsName text := by
  intro named
  obtain ⟨c, begins, digit⟩ := number.head?
  apply Scan.not_latin_digit_of_isWordStart (named.head? begins)
  simpa [EcmaScript.isDigit] using digit

/-- A key that is no name does not look like one, constants written in letters aside. -/
theorem Expr.not_isPlainName_keyText {e : Expr} (other : Parts.isName e = false) :
    ¬ IsPlainName e.keyText := by
  rintro ⟨named, free⟩
  have number : ¬ EcmaScript.IsNumber e.keyText := fun number => not_isName_of_isNumber number named
  have mark : ∀ c, Scan.isWordStart c = false → e.keyText.toList.head? ≠ some c :=
    fun c mark first => Bool.false_ne_true (mark.symm.trans (named.head? first))
  have bracket := mark '<' (by decide +kernel)
  have quote := mark '"' (by decide +kernel)
  cases e with
  | ident => cases other
  | literal note value =>
      cases value with
      | int value => exact number (EcmaScript.isNumber_digitText value)
      | number value =>
          cases value with
          | finite mantissa exponent => exact number (EcmaScript.isNumber_positional _)
          | infinite => exact free (by simp [keyText, Binary64.text, constantTexts])
      | str value => exact quote (by simp [keyText, Text.display])
      | bool value => cases value <;> exact free (by simp [keyText, constantTexts])
      | null | undefined => exact free (by simp [keyText, constantTexts])
  | _ => exact bracket (by simp [keyText])

/-! ## Respelled keys -/

/-- The change of spelling that takes each of some names to a new one. Texts of keys that are none
of these names stay. -/
def Relabel.respell (names : List String) (r : String → String) : Relabel where
  name := r
  key _ recorded := recorded.map fun text => if text ∈ names then r text else text
  text text := if text ∈ names then r text else text

/-- Some names are changed to different ones, and names that could be mistaken for constants are not
involved. -/
structure Respells (names : List String) (r : String → String) : Prop where
  plain : ∀ name ∈ names, IsPlainName name
  image : ∀ name ∈ names, IsPlainName (r name)
  injective : Set.InjOn r {name | name ∈ names}

/-- A text by which a key is compared: one of the names, or no name at all. -/
def KeyText (names : List String) (text : String) : Prop := text ∈ names ∨ ¬ IsPlainName text

variable {names : List String} {r : String → String}

theorem keyText_of_namedIn {e : Expr} (known : (Node.expr e).NamedIn names) :
    KeyText names e.keyText := by
  cases named : Parts.isName e with
  | true =>
      cases e with
      | ident note name entity => exact .inl (known name rfl)
      | _ => cases named
  | false => exact .inr (Expr.not_isPlainName_keyText named)

namespace Respells

open Relabel (respell)

theorem text_name {name : String} (known : name ∈ names) :
    (respell names r).text name = r name :=
  if_pos known

theorem text_other (respells : Respells names r) {text : String} (other : ¬ IsPlainName text) :
    (respell names r).text text = text :=
  if_neg fun mem => other (respells.plain text mem)

/-- Different texts of keys become different ones. -/
theorem text_injective (respells : Respells names r) {first second : String}
    (here : KeyText names first) (there : KeyText names second)
    (same : (respell names r).text first = (respell names r).text second) : first = second := by
  rcases here with here | here
  · rcases there with there | there
    · rw [text_name here, text_name there] at same
      exact respells.injective here there same
    · rw [text_name here, respells.text_other there] at same
      exact absurd (same ▸ respells.image first here) there
  · rcases there with there | there
    · rw [respells.text_other here, text_name there] at same
      exact absurd (same.symm ▸ respells.image second there) here
    · rwa [respells.text_other here, respells.text_other there] at same

/-- The text of a respelled key. -/
theorem keyText_expr (respells : Respells names r) {e : Expr}
    (known : (Node.expr e).NamedIn names) :
    ((respell names r).expr e).keyText = (respell names r).text e.keyText := by
  cases named : Parts.isName e with
  | true =>
      cases e with
      | ident note name entity => exact (text_name (known name rfl)).symm
      | _ => cases named
  | false =>
      rw [respells.text_other (Expr.not_isPlainName_keyText named)]
      cases e with
      | ident => cases named
      | literal note value => cases value <;> rfl
      | _ => rfl

theorem apart (respells : Respells names r) {first later : Expr}
    (known : (Node.expr first).NamedIn names) (known' : (Node.expr later).NamedIn names) :
    (respell names r).Apart first later := by
  constructor
  · rw [respells.keyText_expr known, respells.keyText_expr known']
    exact ⟨respells.text_injective (keyText_of_namedIn known') (keyText_of_namedIn known),
      congrArg _⟩
  · intro _
    exact respells.keyText_expr known'

/-- A respelling suits all nodes that have no other names. -/
theorem suits (respells : Respells names r) {node : Node} (named : node.NamedIn names) :
    (respell names r).Suits (respell names r).key names node := by
  refine ⟨named, fun note entries _ known => ⟨fun entry mem => ⟨rfl, ?_⟩, ?_⟩⟩
  · exact congrArg some (respells.keyText_expr (known entry mem)).symm
  · apply List.pairwise_map.mpr
    apply List.pairwise_of_forall_mem_list
    intro first mem later mem'
    exact respells.apart (known first mem) (known later mem')

end Respells

end Qalam
