/-
# The expression grammar of JavaScript, by its rules

Which sequences of tokens are JavaScript expressions, and the tree of each. The rules are those of
the language, from the loosest to the tightest: the comma, assignment, the conditional, ten levels
of operators that associate to the left, powers, which associate to the right and take no prefix
operator on their left, prefix operators, increments, calls and `new`, member access, and what is
closed in itself. Nothing says how the tokens are read. Parentheses leave no trace in the tree.

Forms that need a token no generated text has, such as arrows, templates, spreads and functions
inside expressions, are left out.
-/

import Qalam.Proofs.EcmaScript.Lexer

namespace Qalam.EcmaScript

/-- Trees of JavaScript expressions. Arguments, elements and entries are chains that end with
`nothing`. -/
inductive Tree
  | name (spelling : String)
  | number (digits : String)
  | text (value : List Char)
  | constant (spelling : String)
  | array (items : Tree)
  | object (entries : Tree)
  | property (base : Tree) (field : String)
  | index (base key : Tree)
  | call (callee items : Tree)
  | new (target items : Tree)
  | unary (op : Token) (operand : Tree)
  | update (op : Token) (behind : Bool) (operand : Tree)
  | binary (op : Token) (left right : Tree)
  | conditional (condition yes no : Tree)
  | assign (op : Token) (target value : Tree)
  | sequence (first second : Tree)
  | nothing
  | item (first others : Tree)
  | entry (key : Token) (value others : Tree)
  deriving DecidableEq

/-- Whether a value can be stored in what a tree denotes. -/
def Tree.isTarget : Tree → Bool
  | name _ | property _ _ | index _ _ => true
  | _ => false

/-- Words that are never names. -/
def keywords : List String :=
  ["await", "break", "case", "catch", "class", "const", "continue", "debugger", "default",
    "delete", "do", "else", "enum", "export", "extends", "false", "finally", "for", "function",
    "if", "implements", "import", "in", "instanceof", "interface", "let", "new", "null", "package",
    "private", "protected", "public", "return", "static", "super", "switch", "this", "throw",
    "true", "try", "typeof", "var", "void", "while", "with", "yield"]

/-- Words that are expressions by themselves. -/
def constants : List String := ["this", "true", "false", "null"]

/-- Assignments. -/
def assignments : List Token :=
  ["=", "+=", "-=", "*=", "/=", "%=", "**=", "<<=", ">>=", ">>>=", "&=", "|=", "^=", "&&=", "||=",
    "??="].map .sign

/-- The operators that associate to the left, level by level, the loosest level first. -/
def tiers : List (List Token) :=
  [[.sign "||"], [.sign "&&"], [.sign "|"], [.sign "^"], [.sign "&"],
    [.sign "==", .sign "!=", .sign "===", .sign "!=="],
    [.sign "<", .sign ">", .sign "<=", .sign ">=", .word "in", .word "instanceof"],
    [.sign "<<", .sign ">>", .sign ">>>"], [.sign "+", .sign "-"],
    [.sign "*", .sign "/", .sign "%"]]

/-- Prefix operators that store nothing. -/
def unaries : List Token :=
  [.word "delete", .word "void", .word "typeof", .sign "+", .sign "-", .sign "~", .sign "!"]

/-- Operators that store a value in their operand, before or behind it. -/
def updates : List Token := [.sign "++", .sign "--"]

/-- Tokens that can be the key of an entry. -/
def Token.isKey : Token → Bool
  | .word _ | .number _ | .text _ => true
  | .sign _ => false

/-- The forms of expressions that the rules define. -/
inductive Goal
  | expression | assignment | conditional | tier (level : Nat) | exponent | unary | update
  | left | call | new | member | primary | items | entries
  deriving DecidableEq

/-- The rules of the expression grammar. -/
inductive Derives : Goal → List Token → Tree → Prop
  | noComma {ts : List Token} {t : Tree} : Derives .assignment ts t → Derives .expression ts t
  | comma {ts us : List Token} {first second : Tree} :
      Derives .expression ts first → Derives .assignment us second →
      Derives .expression (ts ++ .sign "," :: us) (.sequence first second)
  | noAssignment {ts : List Token} {t : Tree} :
      Derives .conditional ts t → Derives .assignment ts t
  | assign {ts us : List Token} {op : Token} {target value : Tree} :
      Derives .left ts target → target.isTarget = true → op ∈ assignments →
      Derives .assignment us value →
      Derives .assignment (ts ++ op :: us) (.assign op target value)
  | noCondition {ts : List Token} {t : Tree} : Derives (.tier 0) ts t → Derives .conditional ts t
  | conditional {ts us vs : List Token} {condition yes no : Tree} :
      Derives (.tier 0) ts condition → Derives .assignment us yes → Derives .assignment vs no →
      Derives .conditional (ts ++ .sign "?" :: (us ++ .sign ":" :: vs))
        (.conditional condition yes no)
  | noOperator {level : Nat} {ts : List Token} {t : Tree} :
      level < tiers.length → Derives (.tier (level + 1)) ts t → Derives (.tier level) ts t
  | operator {level : Nat} {ops ts us : List Token} {op : Token} {first second : Tree} :
      tiers[level]? = some ops → op ∈ ops → Derives (.tier level) ts first →
      Derives (.tier (level + 1)) us second →
      Derives (.tier level) (ts ++ op :: us) (.binary op first second)
  | lastTier {ts : List Token} {t : Tree} :
      Derives .exponent ts t → Derives (.tier tiers.length) ts t
  | noExponent {ts : List Token} {t : Tree} : Derives .unary ts t → Derives .exponent ts t
  | exponent {ts us : List Token} {base power : Tree} :
      Derives .update ts base → Derives .exponent us power →
      Derives .exponent (ts ++ .sign "**" :: us) (.binary (.sign "**") base power)
  | noUnary {ts : List Token} {t : Tree} : Derives .update ts t → Derives .unary ts t
  | unary {ts : List Token} {op : Token} {operand : Tree} :
      op ∈ unaries → Derives .unary ts operand → Derives .unary (op :: ts) (.unary op operand)
  | noUpdate {ts : List Token} {t : Tree} : Derives .left ts t → Derives .update ts t
  | updateBehind {ts : List Token} {op : Token} {operand : Tree} :
      Derives .left ts operand → operand.isTarget = true → op ∈ updates →
      Derives .update (ts ++ [op]) (.update op true operand)
  | updateBefore {ts : List Token} {op : Token} {operand : Tree} :
      op ∈ updates → Derives .unary ts operand → operand.isTarget = true →
      Derives .update (op :: ts) (.update op false operand)
  | leftNew {ts : List Token} {t : Tree} : Derives .new ts t → Derives .left ts t
  | leftCall {ts : List Token} {t : Tree} : Derives .call ts t → Derives .left ts t
  | call {ts us : List Token} {callee items : Tree} :
      Derives .member ts callee → Derives .items us items →
      Derives .call (ts ++ .sign "(" :: (us ++ [.sign ")"])) (.call callee items)
  | callCall {ts us : List Token} {callee items : Tree} :
      Derives .call ts callee → Derives .items us items →
      Derives .call (ts ++ .sign "(" :: (us ++ [.sign ")"])) (.call callee items)
  | callIndex {ts us : List Token} {base key : Tree} :
      Derives .call ts base → Derives .expression us key →
      Derives .call (ts ++ .sign "[" :: (us ++ [.sign "]"])) (.index base key)
  | callField {ts : List Token} {base : Tree} {field : String} :
      Derives .call ts base →
      Derives .call (ts ++ [.sign ".", .word field]) (.property base field)
  | newMember {ts : List Token} {t : Tree} : Derives .member ts t → Derives .new ts t
  | newBare {ts : List Token} {target : Tree} :
      Derives .new ts target → Derives .new (.word "new" :: ts) (.new target .nothing)
  | memberNew {ts us : List Token} {target items : Tree} :
      Derives .member ts target → Derives .items us items →
      Derives .member (.word "new" :: (ts ++ .sign "(" :: (us ++ [.sign ")"]))) (.new target items)
  | memberIndex {ts us : List Token} {base key : Tree} :
      Derives .member ts base → Derives .expression us key →
      Derives .member (ts ++ .sign "[" :: (us ++ [.sign "]"])) (.index base key)
  | memberField {ts : List Token} {base : Tree} {field : String} :
      Derives .member ts base →
      Derives .member (ts ++ [.sign ".", .word field]) (.property base field)
  | memberPrimary {ts : List Token} {t : Tree} : Derives .primary ts t → Derives .member ts t
  | name {spelling : String} :
      spelling ∉ keywords → Derives .primary [.word spelling] (.name spelling)
  | constant {spelling : String} :
      spelling ∈ constants → Derives .primary [.word spelling] (.constant spelling)
  | number {digits : String} : Derives .primary [.number digits] (.number digits)
  | text {value : List Char} : Derives .primary [.text value] (.text value)
  | array {ts : List Token} {items : Tree} :
      Derives .items ts items →
      Derives .primary (.sign "[" :: (ts ++ [.sign "]"])) (.array items)
  | object {ts : List Token} {entries : Tree} :
      Derives .entries ts entries →
      Derives .primary (.sign "\x7b" :: (ts ++ [.sign "\x7d"])) (.object entries)
  | parenthesized {ts : List Token} {t : Tree} :
      Derives .expression ts t → Derives .primary (.sign "(" :: (ts ++ [.sign ")"])) t
  | noItem : Derives .items [] .nothing
  | lastItem {ts : List Token} {t : Tree} :
      Derives .assignment ts t → Derives .items ts (.item t .nothing)
  | nextItem {ts us : List Token} {t others : Tree} :
      Derives .assignment ts t → Derives .items us others →
      Derives .items (ts ++ .sign "," :: us) (.item t others)
  | noEntry : Derives .entries [] .nothing
  | lastEntry {key : Token} {ts : List Token} {value : Tree} :
      key.isKey = true → Derives .assignment ts value →
      Derives .entries (key :: .sign ":" :: ts) (.entry key value .nothing)
  | nextEntry {key : Token} {ts us : List Token} {value others : Tree} :
      key.isKey = true → Derives .assignment ts value → Derives .entries us others →
      Derives .entries (key :: .sign ":" :: (ts ++ .sign "," :: us)) (.entry key value others)

/-! ## How expressions begin -/

/-- Tokens with which a member expression begins. -/
def beginsMember : Token → Bool
  | .word spelling => spelling = "new" || spelling ∈ constants || spelling ∉ keywords
  | .number _ | .text _ => true
  | .sign spelling => spelling = "(" || spelling = "[" || spelling = "\x7b"

/-- Tokens with which an expression of a form begins. Items and entries may be empty. -/
def Goal.begins (goal : Goal) (token : Token) : Bool :=
  beginsMember token || match goal with
    | .left | .call | .new | .member | .primary => false
    | .update => token ∈ updates
    | .items | .entries => true
    | _ => token ∈ updates || token ∈ unaries

/-- Forms that have at least one token. -/
def Goal.isFull : Goal → Bool
  | .items | .entries => false
  | _ => true

theorem Goal.begins_of_update {token : Token} (begins : Goal.begins .update token = true) :
    Goal.begins .unary token = true := by
  simp only [Goal.begins, Bool.or_eq_true] at begins ⊢
  exact begins.imp_right .inl

theorem Goal.begins_of_member {token : Token} (begins : Goal.begins .left token = true) :
    Goal.begins .update token = true := by
  simp only [Goal.begins, Bool.or_false, Bool.or_eq_true] at begins ⊢
  exact .inl begins

/-- Every full form begins with a token of its own. -/
theorem Derives.begins {goal : Goal} {ts : List Token} {t : Tree} (derives : Derives goal ts t)
    (full : goal.isFull = true) :
    ∃ first rest, ts = first :: rest ∧ goal.begins first = true := by
  induction derives with
  | noComma _ ih | noAssignment _ ih | noCondition _ ih | noOperator _ _ ih | lastTier _ ih
  | noExponent _ ih | leftNew _ ih | leftCall _ ih | newMember _ ih | memberPrimary _ ih =>
      exact ih rfl
  | noUnary _ ih =>
      obtain ⟨first, rest, rfl, begins⟩ := ih rfl
      exact ⟨first, rest, rfl, Goal.begins_of_update begins⟩
  | noUpdate _ ih =>
      obtain ⟨first, rest, rfl, begins⟩ := ih rfl
      exact ⟨first, rest, rfl, Goal.begins_of_member begins⟩
  | comma _ _ ih | conditional _ _ _ ih | operator _ _ _ _ ih | call _ _ ih
  | callCall _ _ ih | callIndex _ _ ih | callField _ ih | memberIndex _ _ ih
  | memberField _ ih =>
      obtain ⟨first, rest, rfl, begins⟩ := ih rfl
      exact ⟨first, _, rfl, begins⟩
  | assign _ _ _ _ ih =>
      obtain ⟨first, rest, rfl, begins⟩ := ih rfl
      exact ⟨first, _, rfl, Goal.begins_of_update (Goal.begins_of_member begins)⟩
  | exponent _ _ ih =>
      obtain ⟨first, rest, rfl, begins⟩ := ih rfl
      exact ⟨first, _, rfl, Goal.begins_of_update begins⟩
  | updateBehind _ _ _ ih =>
      obtain ⟨first, rest, rfl, begins⟩ := ih rfl
      exact ⟨first, _, rfl, Goal.begins_of_member begins⟩
  | unary known => exact ⟨_, _, rfl, by simp [Goal.begins, known]⟩
  | updateBefore known => exact ⟨_, _, rfl, by simp [Goal.begins, known]⟩
  | newBare | memberNew | number | text | array | object | parenthesized =>
      exact ⟨_, _, rfl, by simp [Goal.begins, beginsMember]⟩
  | name free => exact ⟨_, _, rfl, by simp [Goal.begins, beginsMember, free]⟩
  | constant known => exact ⟨_, _, rfl, by simp [Goal.begins, beginsMember, known]⟩
  | noItem | lastItem | nextItem | noEntry | lastEntry | nextEntry => cases full

end Qalam.EcmaScript
