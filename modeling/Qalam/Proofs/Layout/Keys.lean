/-
# Keys of object literals

Two keys of an object literal are the same if their texts are. The text of a constant or a plain
name is what is written there. Any other key is computed, and its text names its position between
angle brackets, with which nothing that is written there begins. Tokens of a text stand at different
positions, so the computed keys of one literal are all different, wherever its tokens stand, and
moving the tokens does not change how its keys compare.
-/

import Mathlib.Data.List.Nodup
import Mathlib.Data.Prod.Lex
import Qalam.Proofs.EcmaScript.Spelling
import Qalam.Proofs.Relabelling.Checks
import Qalam.Proofs.Structure.Heads

namespace Qalam

/-! ## Positions -/

namespace Position

theorem toList_text (pos : Position) :
    pos.text.toList = Nat.toDigits 10 pos.line ++ ':' :: Nat.toDigits 10 pos.column := by
  have colon : (toString ":").toList = [':'] := rfl
  simp [text, colon]

/-- A position can be told from its written form. -/
theorem text_injective : Function.Injective text := by
  intro first second same
  have plain : ∀ n : Nat, ':' ∉ Nat.toDigits 10 n := by
    intro n mem
    have digit := Nat.isDigit_of_mem_toDigits (by decide) (by decide) mem
    revert digit
    decide
  have numbers : ∀ {n m : Nat}, Nat.toDigits 10 n = Nat.toDigits 10 m → n = m := by
    intro n m equal
    have values := congrArg (fun digits => Nat.ofDigitChars 10 digits 0) equal
    simpa using values
  have chars := congrArg String.toList same
  rw [toList_text, toList_text] at chars
  obtain ⟨lines, -, columns⟩ := (List.append_cons_inj_of_notMem (plain _) (plain _)).mp chars
  cases first
  cases second
  rw [mk.injEq]
  exact ⟨numbers lines, numbers columns⟩

end Position

/-! ## Computed keys -/

namespace Expr

/-- Whether a key is compared by its position. -/
def isComputed : Expr → Bool
  | literal .. | ident .. => false
  | _ => true

/-- A key is not a name that looks like a computed key. -/
def Spelled (e : Expr) : Prop :=
  ∀ note name entity, e = ident note name entity → name.toList.head? ≠ some '<'

theorem keyText_of_isComputed {e : Expr} (computed : e.isComputed = true) :
    e.keyText = "<expr@" ++ e.pos.text ++ ">" := by
  cases e with
  | literal | ident => cases computed
  | _ => rfl

theorem head?_of_isNumber {text : String} (number : EcmaScript.IsNumber text) :
    text.toList.head? ≠ some '<' := by
  obtain ⟨c, begins, digit⟩ := number.head?
  rw [begins]
  rintro ⟨⟩
  revert digit
  decide

/-- What is written as a key does not begin like the text of a computed one. -/
theorem head?_keyText {e : Expr} (plain : e.isComputed = false) (spelled : e.Spelled) :
    e.keyText.toList.head? ≠ some '<' := by
  cases e with
  | ident note name entity => exact spelled note name entity rfl
  | literal note value =>
      cases value with
      | int value => exact head?_of_isNumber (EcmaScript.isNumber_digitText value)
      | number value =>
          cases value with
          | finite mantissa exponent => exact head?_of_isNumber (EcmaScript.isNumber_positional _)
          | infinite => simp [keyText, Binary64.text]
      | str value => simp [keyText, Text.display]
      | bool value => cases value <;> simp [keyText]
      | null | undefined => simp [keyText]
  | _ => cases plain

theorem head?_keyText_of_isComputed {e : Expr} (computed : e.isComputed = true) :
    e.keyText.toList.head? = some '<' := by
  rw [keyText_of_isComputed computed]
  simp

/-- Computed keys are told apart by their positions. -/
theorem pos_of_keyText {e e' : Expr} (computed : e.isComputed = true)
    (computed' : e'.isComputed = true) (same : e.keyText = e'.keyText) : e.pos = e'.pos := by
  rw [keyText_of_isComputed computed, keyText_of_isComputed computed'] at same
  apply Position.text_injective
  simpa [String.ext_iff] using same

end Expr

namespace Relabel

variable (move : Position → Position)

@[simp]
theorem isComputed_relocate (e : Expr) : ((relocate move).expr e).isComputed = e.isComputed := by
  cases e <;> rfl

theorem keyText_relocate {e : Expr} (plain : e.isComputed = false) :
    ((relocate move).expr e).keyText = e.keyText := by
  cases e with
  | literal note value => cases value <;> rfl
  | ident => rfl
  | _ => cases plain

variable {move}

theorem spelled_relocate {e : Expr} (spelled : e.Spelled) : ((relocate move).expr e).Spelled := by
  intro note name entity same
  cases e with
  | ident =>
      cases same
      exact spelled _ _ _ rfl
  | _ => cases same

/-- A computed key and one that is written out are never the same. -/
theorem keyText_ne {e e' : Expr} (computed : e.isComputed = true) (plain : e'.isComputed = false)
    (spelled : e'.Spelled) : e.keyText ≠ e'.keyText := by
  intro same
  have begins := Expr.head?_keyText_of_isComputed computed
  rw [same] at begins
  exact Expr.head?_keyText plain spelled begins

/-- Keys at different positions compare as before if they are moved to different positions. -/
theorem apart_of_pos {first later : Expr} (here : first.Spelled) (there : later.Spelled)
    (distinct : first.pos ≠ later.pos) (distinct' : move first.pos ≠ move later.pos) :
    (relocate move).Apart first later := by
  -- two different texts before and after
  have different : later.keyText ≠ first.keyText →
      ((relocate move).expr later).keyText ≠ ((relocate move).expr first).keyText →
      (relocate move).Apart first later :=
    fun unequal unequal' => ⟨iff_of_false unequal' unequal, fun same => absurd same unequal⟩
  cases kind : first.isComputed with
  | true =>
      cases kind' : later.isComputed with
      | true =>
          apply different
          · intro same
            exact distinct (Expr.pos_of_keyText kind' kind same).symm
          · intro same
            have equal := Expr.pos_of_keyText (by simpa) (by simpa) same
            rw [pos_expr, pos_expr] at equal
            exact distinct' equal.symm
      | false =>
          apply different
          · exact (keyText_ne kind kind' there).symm
          · exact (keyText_ne (by simpa) (by simpa) (spelled_relocate there)).symm
  | false =>
      cases kind' : later.isComputed with
      | true =>
          apply different
          · exact keyText_ne kind' kind here
          · exact keyText_ne (by simpa) (by simpa) (spelled_relocate here)
      | false =>
          have same := keyText_relocate move kind
          have same' := keyText_relocate move kind'
          exact ⟨by rw [same, same'], fun _ => same'⟩

end Relabel

/-! ## The tokens of a text -/

namespace Position

/-- Positions in the order of a text: by lines, and on one line by columns. -/
def rank (pos : Position) : ℕ ×ₗ ℕ := toLex (pos.line, pos.column)

theorem rank_step (pos : Position) (c : Char) : pos.rank < (pos.step c).rank := by
  rw [rank, rank, Prod.Lex.toLex_lt_toLex, step]
  split
  · exact .inl (Nat.lt_succ_self _)
  · exact .inr ⟨rfl, Nat.lt_succ_self _⟩

theorem rank_advance (pos : Position) (text : List Char) : pos.rank ≤ (pos.advance text).rank := by
  induction text generalizing pos with
  | nil => exact le_rfl
  | cons c rest ih => exact (pos.rank_step c).le.trans (ih (pos.step c))

/-- Some text leads to a later position. -/
theorem rank_lt_advance (pos : Position) {text : List Char} (some : text ≠ []) :
    pos.rank < (pos.advance text).rank := by
  cases text with
  | nil => exact absurd rfl some
  | cons c rest => exact (pos.rank_step c).trans_le ((pos.step c).rank_advance rest)

end Position

namespace Scan

/-- The tokens of a text stand one behind the other, from where the text begins. -/
theorem tokensFrom_increasing {pos : Position} {text : List Char} {tokens : List Token}
    (read : tokensFrom pos text = .ok tokens) :
    (∀ token ∈ tokens, pos.rank ≤ token.pos.rank) ∧
      tokens.Pairwise fun first later => first.pos.rank < later.pos.rank := by
  fun_induction tokensFrom pos text generalizing tokens with
  | case1 pos text gap trivia =>
      cases read
      simp [Position.rank_advance]
  | case2 => cases read
  | case3 pos text gap c rest trivia start token lexed =>
      rename_i ih
      obtain ⟨others, further, rfl⟩ := exists_of_map_ok read
      obtain ⟨later, increasing⟩ := ih further
      have here : pos.rank ≤ start.rank := pos.rank_advance gap
      have behind : ∀ other ∈ others, start.rank < other.pos.rank := by
        intro other mem
        exact (start.rank_lt_advance (lexeme_reads lexed).1).trans_le (later other mem)
      refine ⟨List.forall_mem_cons.mpr ⟨here, ?_⟩, List.pairwise_cons.mpr ⟨behind, increasing⟩⟩
      intro other mem
      exact here.trans (behind other mem).le

/-- A name is spelled by the characters of its token. -/
theorem text_of_word {text : List Char} {name : String} (named : (word text).kind = .ident name) :
    (word text).text = name.toList := by
  revert named
  simp only [word]
  split
  · rintro ⟨⟩
  · split
    · split
      · rintro ⟨⟩
      · rintro ⟨⟩
        exact String.toList_ofList.symm
    · rintro ⟨⟩
      exact String.toList_ofList.symm

/-- A name begins with a letter, which no bracket is. -/
theorem lexeme_name {c : Char} {rest : List Char} {token : Lexeme}
    (read : lexeme c rest = .ok token) {name : String} (named : token.kind = .ident name) :
    name.toList.head? ≠ some '<' := by
  have reads := lexeme_reads read
  rcases lexeme_cases read with ⟨_, same⟩ | ⟨_, same⟩ | ⟨_, same⟩ | ⟨_, _, same⟩ | ⟨letter, rfl⟩
  · cases same.symm.trans named
  · cases same.symm.trans named
  · cases same.symm.trans named
  · cases same.symm.trans named
  · rw [Lexeme.Reads, text_of_word named] at reads
    obtain ⟨some, joined⟩ := reads
    cases chars : name.toList with
    | nil => exact absurd chars some
    | cons first others =>
        rw [chars, List.cons_append] at joined
        rw [(List.cons.inj joined).1, List.head?_cons]
        rintro ⟨rfl⟩
        revert letter
        decide

theorem tokensFrom_name {pos : Position} {text : List Char} {tokens : List Token}
    (read : tokensFrom pos text = .ok tokens) :
    ∀ token ∈ tokens, ∀ name, token.kind = .ident name → name.toList.head? ≠ some '<' := by
  fun_induction tokensFrom pos text generalizing tokens with
  | case1 pos text gap trivia =>
      cases read
      simp
  | case2 => cases read
  | case3 pos text gap c rest trivia start token lexed =>
      rename_i ih
      obtain ⟨others, further, rfl⟩ := exists_of_map_ok read
      rw [List.forall_mem_cons]
      exact ⟨fun name named => lexeme_name lexed named, ih further⟩

end Scan

namespace Relabel

variable {move : Position → Position}

/-- Keys whose tokens stand at different positions, before and after they are moved, compare as
before. -/
theorem pairwise_apart {tokens : List Token} {keys : List Expr}
    (headed : HeadedBy tokens keys)
    (named : ∀ token ∈ tokens, ∀ name, token.kind = .ident name → name.toList.head? ≠ some '<')
    (distinct : (tokens.map Token.pos).Nodup)
    (distinct' : (tokens.map fun token => move token.pos).Nodup) :
    keys.Pairwise (relocate move).Apart := by
  have spelled : ∀ key ∈ keys, key.Spelled := by
    rintro _ mem note name entity rfl
    obtain ⟨token, listed, same⟩ := headed.name note name entity mem
    exact named token listed name same
  have moved : (keys.map fun key => move key.pos).Nodup := by
    have among := headed.pos.map move
    rw [List.map_map, List.map_map] at among
    exact distinct'.sublist among
  have here := List.pairwise_map.mp (distinct.sublist headed.pos)
  have there := List.pairwise_map.mp moved
  refine (here.and there).imp_of_mem ?_
  intro first later mem mem' different
  exact apart_of_pos (spelled first mem) (spelled later mem') different.1 different.2

/-- A moved tree records the texts of its keys as they are after the move. -/
theorem renews_relocate (key : Expr) :
    (relocate move).Renews (fun text recorded => recorded.map fun _ => text) key :=
  ⟨rfl, rfl⟩

end Relabel

/-- The positions of the tokens of a text are all different. -/
theorem nodup_of_tokenize {source : String} {tokens : List Token}
    (lexed : tokenize source = .ok tokens) : (tokens.map Token.pos).Nodup := by
  refine List.pairwise_map.mpr ((Scan.tokensFrom_increasing lexed).2.imp ?_)
  intro first later before same
  rw [same] at before
  exact lt_irrefl _ before

/-- Moving the tokens of a text to those of another one suits everything that is read from them. -/
theorem Program.suits_of_ofTokens {source source' : String} {tokens : List Token}
    {move : Position → Position} {program : Program} (lexed : tokenize source = .ok tokens)
    (lexed' : tokenize source' = .ok (tokens.map (Relabel.relocate move).token))
    (read : Program.ofTokens tokens = .ok program) :
    ∀ node ∈ program.nodes, (Relabel.relocate move).Suits
      (fun text recorded => recorded.map fun _ => text) program.names node := by
  intro node mem
  refine ⟨program.namedIn_names node mem, ?_⟩
  rintro note entries rfl -
  have part : .object note entries ∈ program.parts :=
    Nodes.covered_statements _ _ mem (Parts.mem_self _)
  have headed := Program.headed_of_ofTokens read _ part
  have distinct := nodup_of_tokenize lexed'
  rw [List.map_map] at distinct
  exact ⟨fun entry _ => Relabel.renews_relocate entry.key,
    Relabel.pairwise_apart headed (Scan.tokensFrom_name lexed) (nodup_of_tokenize lexed) distinct⟩

end Qalam
