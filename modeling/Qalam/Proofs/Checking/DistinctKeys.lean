/-
# Which keys of an object literal are the same

Keys of an object literal are compared by their texts. Texts of different kinds of keys begin
differently: a number with a digit, a string with a quote, a computed key with an angle bracket,
and a name or the word of another constant with a letter. So keys with the same text are of one
kind, and then they are the same key, with one exception: a name is compared by its spelling, and
nothing keeps it from being spelled like the word of a constant. The keys `صح` and `true` of one
literal are refused as the same key, although one is a constant and the other is a field of that
name.
-/

import Qalam.Proofs.Checking.Statement
import Qalam.Proofs.Drawing.Strings
import Qalam.Proofs.Layout.Concatenation
import Qalam.Proofs.Layout.Keys
import Qalam.Proofs.Lexing.Word

namespace Qalam

/-- The written form of a number. -/
def Literal.numeral? : Literal → Option String
  | int value => some (Decimal.digitText value)
  | number value => some value.text
  | _ => none

/-- The constants that are written neither in digits nor in quotes, with their words. -/
def Literal.words : List (Literal × String) :=
  [(bool true, "true"), (bool false, "false"), (null, "null"), (undefined, "undefined"),
    (number .infinite, "inf")]

namespace Expr

/-- Two keys are the same one: names with one spelling, numbers that are written alike, or one
constant of another kind. A computed key is the same as no other one. -/
inductive SameKey : Expr → Expr → Prop
  | name {note note' : Note} {name : String} {entity entity' : Option EntityId} :
      SameKey (.ident note name entity) (.ident note' name entity')
  | numeral {note note' : Note} {first later : Literal} {text : String}
      (here : first.numeral? = some text) (there : later.numeral? = some text) :
      SameKey (.literal note first) (.literal note' later)
  | constant {note note' : Note} {value : Literal} (other : value.numeral? = none) :
      SameKey (.literal note value) (.literal note' value)

/-- The first key is a name that is spelled like the word for the second one, a constant. -/
inductive SpelledLike : Expr → Expr → Prop
  | mk {note note' : Note} {name : String} {entity : Option EntityId} {value : Literal}
      (word : (value, name) ∈ Literal.words) :
      SpelledLike (.ident note name entity) (.literal note' value)

/-- One of two keys is a name that is spelled like the word for the other. -/
def Homograph (first later : Expr) : Prop := SpelledLike first later ∨ SpelledLike later first

/-- A key is not a name, or one that begins like a word. -/
def Lettered (e : Expr) : Prop :=
  ∀ note name entity, e = .ident note name entity →
    name.toList.head?.any Scan.isWordStart = true

/-! ## How the text of a key begins -/

/-- What tells the kinds of keys apart. -/
inductive Mark
  | digit | quote | bracket | letter
  deriving DecidableEq

/-- The kind of text that begins with a character. -/
def Mark.ofChar (c : Char) : Mark :=
  if EcmaScript.isDigit c then .digit else if c = '"' then .quote
  else if c = '<' then .bracket else .letter

/-- The kind of the text of a key. -/
def mark : Expr → Mark
  | literal _ (.int _) | literal _ (.number (.finite _ _)) => .digit
  | literal _ (.str _) => .quote
  | literal .. | ident .. => .letter
  | _ => .bracket

theorem mark_of_isNumber {text : String} (number : EcmaScript.IsNumber text) :
    text.toList.head?.map Mark.ofChar = some .digit := by
  obtain ⟨c, begins, digit⟩ := number.head?
  simp [begins, Mark.ofChar, digit]

theorem Mark.ofChar_of_isWordStart {c : Char} (start : Scan.isWordStart c = true) :
    Mark.ofChar c = .letter := by
  have other : ∀ d, Scan.isWordStart d = false → c ≠ d := by
    rintro d different rfl
    exact Bool.false_ne_true (different.symm.trans start)
  have digit : EcmaScript.isDigit c = false := by
    simpa [EcmaScript.isDigit] using Scan.not_latin_digit_of_isWordStart start
  rw [ofChar, digit, if_neg Bool.false_ne_true, if_neg (other '"' (by decide +kernel)),
    if_neg (other '<' (by decide +kernel))]

/-- The first character of the text tells the kind of the key. -/
theorem mark_keyText {e : Expr} (lettered : e.Lettered) :
    e.keyText.toList.head?.map Mark.ofChar = some e.mark := by
  by_cases computed : e.isComputed = true
  · rw [head?_keyText_of_isComputed computed]
    cases e with
    | literal | ident => cases computed
    | _ => rfl
  cases e with
  | ident note name entity =>
      have begins := lettered note name entity rfl
      cases chars : name.toList with
      | nil =>
          rw [chars] at begins
          cases begins
      | cons c rest =>
          rw [chars] at begins
          simp [keyText, mark, chars, Mark.ofChar_of_isWordStart begins]
  | literal note value =>
      cases value with
      | int value => exact mark_of_isNumber (EcmaScript.isNumber_digitText value)
      | number value =>
          cases value with
          | finite => exact mark_of_isNumber (EcmaScript.isNumber_positional _)
          | infinite => simp [keyText, Binary64.text, mark, Mark.ofChar, EcmaScript.isDigit]
      | str value => simp [keyText, Text.display, mark, Mark.ofChar, EcmaScript.isDigit]
      | bool value => cases value <;> simp [keyText, mark, Mark.ofChar, EcmaScript.isDigit]
      | null | undefined => simp [keyText, mark, Mark.ofChar, EcmaScript.isDigit]
  | _ => exact absurd rfl computed

theorem keyText_of_numeral {note : Note} {value : Literal} {text : String}
    (written : value.numeral? = some text) : (literal note value).keyText = text := by
  cases value with
  | int | number =>
      cases written
      rfl
  | _ => cases written

theorem keyText_of_word (note : Note) : ∀ entry ∈ Literal.words,
    (literal note entry.1).keyText = entry.2 := by
  simp [Literal.words, keyText, Binary64.text]

/-- The word of a constant tells the constant. -/
theorem word_injective : ∀ entry ∈ Literal.words, ∀ entry' ∈ Literal.words,
    entry.2 = entry'.2 → entry.1 = entry'.1 := by
  decide

/-! ## Keys with the same text -/

theorem SameKey.refl_literal (note note' : Note) (value : Literal) :
    SameKey (literal note value) (literal note' value) := by
  cases numeral : value.numeral? with
  | none => exact .constant numeral
  | some text => exact .numeral numeral numeral

theorem SameKey.keyText_eq {first later : Expr} (same : SameKey first later) :
    first.keyText = later.keyText := by
  cases same with
  | name => rfl
  | numeral here there => rw [keyText_of_numeral here, keyText_of_numeral there]
  | constant => rename_i value _; cases value <;> rfl

theorem SpelledLike.keyText_eq {first later : Expr} (like : SpelledLike first later) :
    first.keyText = later.keyText := by
  cases like with
  | mk word => exact (keyText_of_word _ _ word).symm

theorem word_of_mark {note : Note} {value : Literal}
    (letter : (literal note value).mark = .letter) :
    (value, (literal note value).keyText) ∈ Literal.words := by
  match value with
  | .bool true | .bool false | .null | .undefined | .number .infinite =>
      simp [Literal.words, keyText, Binary64.text]

theorem numeral_of_mark {e : Expr} (digit : e.mark = .digit) :
    ∃ note value, e = literal note value ∧ value.numeral? = some e.keyText := by
  cases e with
  | literal note value =>
      match value with
      | .int _ | .number (.finite _ _) => exact ⟨_, _, rfl, rfl⟩
  | _ => cases digit

theorem string_of_mark {e : Expr} (quote : e.mark = .quote) :
    ∃ note value, e = literal note (.str value) := by
  cases e with
  | literal note value =>
      match value with
      | .str value => exact ⟨note, value, rfl⟩
  | _ => cases quote

theorem isComputed_of_mark {e : Expr} (bracket : e.mark = .bracket) : e.isComputed = true := by
  cases e with
  | literal note value =>
      match value with
      | .int _ | .number (.finite _ _) | .number .infinite | .bool _ | .str _ | .null
      | .undefined => cases bracket
  | ident => cases bracket
  | _ => rfl

/-- Keys with the same text that begins with a letter. -/
theorem same_of_letter {first later : Expr} (here : first.mark = .letter)
    (there : later.mark = .letter) (same : first.keyText = later.keyText) :
    SameKey first later ∨ Homograph first later := by
  cases first with
  | ident note name entity =>
      cases later with
      | ident note' name' entity' =>
          cases same
          exact .inl .name
      | literal note' value =>
          have word := word_of_mark there
          rw [← same] at word
          exact .inr (.inl ⟨word⟩)
      | _ => cases there
  | literal note value =>
      have word := word_of_mark here
      cases later with
      | ident note' name entity =>
          rw [same] at word
          exact .inr (.inr ⟨word⟩)
      | literal note' value' =>
          have equal := word_injective _ word _ (word_of_mark there) same
          cases equal
          exact .inl (.refl_literal _ _ _)
      | _ => cases there
  | _ => cases here

/-- Of two keys at different positions the texts are the same only if the keys are, or if one is a
name that is spelled like the other. -/
theorem keyText_eq_iff {first later : Expr} (here : first.Lettered) (there : later.Lettered)
    (distinct : first.pos ≠ later.pos) :
    first.keyText = later.keyText ↔ SameKey first later ∨ Homograph first later := by
  constructor
  · intro same
    have marks : first.mark = later.mark := by
      have begins := mark_keyText here
      rw [same, mark_keyText there] at begins
      exact (Option.some.inj begins).symm
    cases kind : first.mark with
    | letter => exact same_of_letter kind (marks ▸ kind) same
    | digit =>
        obtain ⟨note, value, rfl, written⟩ := numeral_of_mark kind
        obtain ⟨note', value', rfl, written'⟩ := numeral_of_mark (marks ▸ kind)
        rw [same] at written
        exact .inl (.numeral written written')
    | quote =>
        obtain ⟨note, value, rfl⟩ := string_of_mark kind
        obtain ⟨note', value', rfl⟩ := string_of_mark (marks ▸ kind)
        cases Text.display_injective same
        exact .inl (.refl_literal _ _ _)
    | bracket =>
        have places := pos_of_keyText (isComputed_of_mark kind)
          (isComputed_of_mark (marks ▸ kind)) same
        exact absurd places distinct
  · rintro (same | like | like)
    · exact same.keyText_eq
    · exact like.keyText_eq
    · exact like.keyText_eq.symm

end Expr

/-- The keys of an object literal that was read compare as keys do. -/
theorem Program.pairwise_keys {tokens : List Token} {source : String} {program : Program}
    (lexed : tokenize source = .ok tokens) (read : Program.ofTokens tokens = .ok program)
    {note : Note} {entries : List Pair} (mem : .object note entries ∈ program.parts) :
    (entries.map Pair.key).Pairwise fun first later =>
      (first.keyText = later.keyText ↔ first.SameKey later ∨ first.Homograph later) := by
  have headed : HeadedBy tokens (entries.map Pair.key) := Program.headed_of_ofTokens read _ mem
  have lettered : ∀ key ∈ entries.map Pair.key, key.Lettered := by
    rintro _ listed note name entity rfl
    obtain ⟨token, among, named⟩ := headed.name note name entity listed
    exact (Scan.isName_of_tokensFrom lexed among named).begins
  have distinct := List.pairwise_map.mp ((nodup_of_tokenize lexed).sublist headed.pos)
  refine distinct.imp_of_mem ?_
  intro first later mem mem' different
  exact Expr.keyText_eq_iff (lettered first mem) (lettered later mem') different

/-- A refusal because of a key comes from an object literal in which the key is repeated. -/
theorem Checking.Fails.duplicate {context : Analysis.Context} {act : Act} {error : SemanticError}
    {text : String} (fails : Fails context act error) (fault : error.fault = .duplicateKeys text) :
    ∃ note before, ∃ entry : Pair, ∃ later, .object note (before ++ entry :: later) ∈ act.parts ∧
      entry.pos = error.pos ∧ entry.key.keyText = text ∧
      ∃ first ∈ before.map Pair.key, first.keyText = text := by
  cases fails with
  | inside mem refuses =>
      cases refuses with
      | duplicate earlier same =>
          cases fault
          exact ⟨_, _, _, _, mem, rfl, rfl, _, earlier, same⟩
      | @contract _ _ _ contract => cases contract <;> cases fault
      | _ => cases fault
  | _ => cases fault

/-- Keys clash only as names do with the words of constants. In an object literal of a program that
was read, the texts of two keys are the same if and only if both are names of one spelling, numbers
that are written alike or one constant of another kind, or else one is a name that is spelled like
the word for the other. And if a program is refused because of a key, two keys of one of its object
literals have that text, the later one in the entry at the reported position, and this is why. -/
theorem Program.keys_clash {source : String} {program : Program}
    (read : parseSource source = .ok program) :
    (∀ note entries, .object note entries ∈ program.parts →
      (entries.map Pair.key).Pairwise fun first later =>
        (first.keyText = later.keyText ↔ first.SameKey later ∨ first.Homograph later)) ∧
    ∀ text pos, program.bind = .error ⟨.duplicateKeys text, pos⟩ →
      ∃ note before entry later, .object note (before ++ entry :: later) ∈ program.parts ∧
        entry.pos = pos ∧ entry.key.keyText = text ∧ ∃ first ∈ before.map Pair.key,
          first.keyText = text ∧ (first.SameKey entry.key ∨ first.Homograph entry.key) := by
  obtain ⟨tokens, lexed, parsed⟩ := parseSource_ok.mp read
  refine ⟨fun note entries => Program.pairwise_keys lexed parsed, fun text pos refused => ?_⟩
  obtain ⟨before, visit, later, done, reached, split, -, -, fails⟩ :=
    Program.stops_of_bind refused
  obtain ⟨note, earlier, entry, others, mem, place, repeated, first, listed, same⟩ :=
    fails.duplicate rfl
  have inside : .object note (earlier ++ entry :: others) ∈ program.parts :=
    Program.mem_parts_iff.mpr ⟨visit, by simp [split], mem⟩
  have compare := Program.pairwise_keys lexed parsed inside
  rw [List.map_append, List.map_cons, List.pairwise_append] at compare
  have clash := (compare.2.2 first listed entry.key List.mem_cons_self).mp
    (same.trans repeated.symm)
  exact ⟨note, earlier, entry, others, inside, place, repeated, first, listed, same, clash⟩

/-- The tokens of an object literal with a string and with the number one, written twice. -/
def numeralKeysTokens : List Token :=
  [⟨.symbol .lbrace, ⟨1, 1⟩⟩, ⟨.str "1", ⟨1, 2⟩⟩, ⟨.symbol .colon, ⟨1, 5⟩⟩, ⟨.int 1, ⟨1, 6⟩⟩,
    ⟨.symbol .comma, ⟨1, 7⟩⟩, ⟨.int 1, ⟨1, 8⟩⟩, ⟨.symbol .colon, ⟨1, 9⟩⟩, ⟨.int 2, ⟨1, 10⟩⟩,
    ⟨.symbol .comma, ⟨1, 11⟩⟩, ⟨.float (.ofQuotient 10 10), ⟨1, 12⟩⟩, ⟨.symbol .colon, ⟨1, 15⟩⟩,
    ⟨.int 3, ⟨1, 16⟩⟩, ⟨.symbol .rbrace, ⟨1, 17⟩⟩, ⟨.symbol .semi, ⟨1, 18⟩⟩, ⟨.eof, ⟨1, 19⟩⟩]

/-- Two numbers that are written alike are the same key, so the later one is refused. A string with
the same digit is another key. -/
theorem Program.keys_clash_numeral :
    ∃ program, parseSource "\x7b\"1\":1،1:2،1.0:3\x7d؛" = .ok program ∧
      (∃ note entries, .object note entries ∈ program.parts ∧ entries.length = 3) ∧
      (∀ note entries, .object note entries ∈ program.parts →
        (entries.map Pair.key).Pairwise fun first later =>
          (first.keyText = later.keyText ↔ first.SameKey later ∨ first.Homograph later)) ∧
      program.bind = .error ⟨.duplicateKeys "1", ⟨1, 12⟩⟩ ∧
      ∃ note before entry later, .object note (before ++ entry :: later) ∈ program.parts ∧
        entry.pos = ⟨1, 12⟩ ∧ entry.key.keyText = "1" ∧ ∃ first ∈ before.map Pair.key,
          first.keyText = "1" ∧ (first.SameKey entry.key ∨ first.Homograph entry.key) := by
  have lexed : tokenize "\x7b\"1\":1،1:2،1.0:3\x7d؛" = .ok numeralKeysTokens := by
    decide +kernel
  have parsed : ∃ program, Program.ofTokens numeralKeysTokens = .ok program ∧
      (∃ note entries, .object note entries ∈ program.parts ∧ entries.length = 3) ∧
      program.bind = .error ⟨.duplicateKeys "1", ⟨1, 12⟩⟩ :=
    ⟨_, rfl, ⟨_, _, List.mem_cons_self, rfl⟩, rfl⟩
  obtain ⟨program, parsed, full, refused⟩ := parsed
  have read := parseSource_ok.mpr ⟨_, lexed, parsed⟩
  obtain ⟨compare, clash⟩ := keys_clash read
  exact ⟨program, read, full, compare, refused, clash _ _ refused⟩

/-- The tokens of an object literal with the constant `true` and a name that is spelled like it. -/
def homographTokens : List Token :=
  [⟨.keyword .printKw, ⟨1, 1⟩⟩, ⟨.symbol .lparen, ⟨1, 4⟩⟩, ⟨.symbol .lbrace, ⟨1, 5⟩⟩,
    ⟨.keyword .trueKw, ⟨1, 6⟩⟩, ⟨.symbol .colon, ⟨1, 8⟩⟩, ⟨.int 1, ⟨1, 10⟩⟩,
    ⟨.symbol .comma, ⟨1, 11⟩⟩, ⟨.ident "true", ⟨1, 13⟩⟩, ⟨.symbol .colon, ⟨1, 17⟩⟩,
    ⟨.int 2, ⟨1, 19⟩⟩, ⟨.symbol .rbrace, ⟨1, 20⟩⟩, ⟨.symbol .rparen, ⟨1, 21⟩⟩,
    ⟨.symbol .semi, ⟨1, 22⟩⟩, ⟨.eof, ⟨1, 23⟩⟩]

/-- A constant and a name are refused as the same key, which they are not. -/
theorem Program.constant_clashes_with_name :
    ∃ program note first later, parseSource "طبع(\x7bصح: 1، true: 2\x7d)؛" = .ok program ∧
      .object note [first, later] ∈ program.parts ∧
      first.key.keyText = later.key.keyText ∧ ¬ first.key.SameKey later.key ∧
      program.bind = .error ⟨.duplicateKeys "true", ⟨1, 13⟩⟩ := by
  have lexed : tokenize "طبع(\x7bصح: 1، true: 2\x7d)؛" = .ok homographTokens := by cbv
  refine ⟨_, _, _, _, parseSource_ok.mpr ⟨_, lexed, rfl⟩, List.mem_cons_self, rfl, ?_, rfl⟩
  intro same
  cases same

end Qalam
