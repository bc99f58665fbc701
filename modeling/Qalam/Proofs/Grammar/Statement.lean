/-
# The grammar of statements, by its rules

Which sequences of tokens are statements, and the tree that each rule builds, on top of the rules
of expressions. As there, nothing says how the tokens are read. A statement has the position of
its first token, and so have the arms of an `if` or `switch`, functions, constructors and blocks;
the block of a case begins at its label.
-/

import Qalam.Proofs.Grammar.Expression

namespace Qalam.Grammar

/-- The keywords that begin a declaration, and whether they declare a constant. -/
def declarations : List (Keyword × Bool) := [(.letKw, false), (.constKw, true)]

/-- A declared name, with or without its value. -/
inductive Declarator : List Token → Binding × Option Expr → Prop
  | bare {name : String} {pos : Position} : Declarator [word name pos] (⟨name, pos, none⟩, none)
  | valued {name : String} {ts : List Token} {init : Expr} {pos pos' : Position} :
      Derives (.expr .expression) ts init →
      Declarator (word name pos :: sym .eq pos' :: ts) (⟨name, pos, none⟩, some init)

/-- A parameter. -/
inductive Param : List Token → Parameter → Prop
  | mk {name : String} {pos : Position} : Param [word name pos] ⟨name, .at pos, none⟩

/-- A list of parameters in parentheses. -/
inductive Params : List Token → List Parameter → Prop
  | mk {ts : List Token} {params : List Parameter} {pos pos' : Position} :
      Listed Param ts params → Params (sym .lparen pos :: (ts ++ [sym .rparen pos'])) params

/-- An expression in parentheses. -/
inductive Enclosed : List Token → Expr → Prop
  | mk {ts : List Token} {e : Expr} {pos pos' : Position} :
      Derives (.expr .expression) ts e → Enclosed (sym .lparen pos :: (ts ++ [sym .rparen pos'])) e

/-- The parts of a program that the rules define. `elseIfs` are the further arms of an `if`,
`clauses` the cases of a switch with its default, and `members` the constructor and the methods of
a class. -/
inductive Piece
  | statement | statements | block | elseIfs | clauses | function | members

/-- What is built for a part of a program. -/
@[reducible]
def Piece.Tree : Piece → Type
  | statement => Statement
  | statements => List Statement
  | block => Block
  | elseIfs => List Arm
  | clauses => List Arm × Option Block
  | function => Function
  | members => Option Constructor × List Function

/-- The rules of the grammar of statements. -/
inductive Forms : (piece : Piece) → List Token → piece.Tree → Prop
  | declare {keyword : Keyword} {constant : Bool} {ts : List Token} {binding : Binding}
      {init : Option Expr} {pos pos' : Position} :
      (keyword, constant) ∈ declarations → Declarator ts (binding, init) →
      Forms .statement (key keyword pos :: (ts ++ [sym .semi pos']))
        (.declare pos constant binding init)
  | declareAll {keyword : Keyword} {constant : Bool} {ts : List Token}
      {declarators : List (Binding × Option Expr)} {pos pos' : Position} :
      (keyword, constant) ∈ declarations → Separated Declarator ts declarators →
      2 ≤ declarators.length →
      Forms .statement (key keyword pos :: (ts ++ [sym .semi pos']))
        (.declareAll pos constant declarators)
  | ifOnly {ts us vs : List Token} {test : Expr} {body : Block} {others : List Arm}
      {pos : Position} :
      Enclosed ts test → Forms .block us body → Forms .elseIfs vs others →
      Forms .statement (key .ifKw pos :: (ts ++ (us ++ vs)))
        (.ifElse pos (.mk pos test body :: others) none)
  | ifElse {ts us vs ws : List Token} {test : Expr} {body otherwise : Block} {others : List Arm}
      {pos pos' : Position} :
      Enclosed ts test → Forms .block us body → Forms .elseIfs vs others →
      Forms .block ws otherwise →
      Forms .statement (key .ifKw pos :: (ts ++ (us ++ (vs ++ key .elseKw pos' :: ws))))
        (.ifElse pos (.mk pos test body :: others) (some otherwise))
  | whileLoop {ts us : List Token} {condition : Expr} {body : Block} {pos : Position} :
      Enclosed ts condition → Forms .block us body →
      Forms .statement (key .whileKw pos :: (ts ++ us)) (.whileLoop pos condition body)
  | forLoop {name : String} {ts us vs ws : List Token} {init condition step : Expr} {body : Block}
      {pos opening declaring namePos equals first second closing : Position} :
      Derives (.expr .expression) ts init → Derives (.expr .expression) us condition →
      Derives (.expr .expression) vs step → Forms .block ws body →
      Forms .statement
        (key .forKw pos :: sym .lparen opening :: key .letKw declaring :: word name namePos ::
          sym .eq equals :: (ts ++ sym .semi first :: (us ++ sym .semi second ::
            (vs ++ sym .rparen closing :: ws))))
        (.forLoop pos ⟨name, namePos, none⟩ init condition step body)
  | forOf {name : String} {ts us : List Token} {iterable : Expr} {body : Block}
      {pos opening namePos closing : Position} :
      Derives (.expr .expression) ts iterable → Forms .block us body →
      Forms .statement
        (key .forKw pos :: sym .lparen opening :: word name namePos ::
          (ts ++ sym .rparen closing :: us))
        (.forOf pos ⟨name, namePos, none⟩ iterable body)
  | switch {ts us : List Token} {selector : Expr} {arms : List Arm} {otherwise : Option Block}
      {pos opening closing : Position} :
      Enclosed ts selector → Forms .clauses us (arms, otherwise) →
      Forms .statement
        (key .switchKw pos :: (ts ++ sym .lbrace opening :: (us ++ [sym .rbrace closing])))
        (.switch pos selector arms otherwise)
  | functionStatement {ts : List Token} {function : Function} :
      Forms .function ts function → Forms .statement ts (.function function)
  | classDef {name : String} {ts : List Token} {constructor : Option Constructor}
      {methods : List Function} {pos namePos opening closing : Position} :
      Forms .members ts (constructor, methods) →
      Forms .statement
        (key .classKw pos :: word name namePos :: sym .lbrace opening ::
          (ts ++ [sym .rbrace closing]))
        (.classDef pos ⟨name, namePos, none⟩ constructor opening methods)
  | tryCatch {name : String} {ts us : List Token} {body handler : Block}
      {pos catching opening namePos closing : Position} :
      Forms .block ts body → Forms .block us handler →
      Forms .statement
        (key .tryKw pos :: (ts ++ key .catchKw catching :: sym .lparen opening ::
          word name namePos :: sym .rparen closing :: us))
        (.tryCatch pos body ⟨name, namePos, none⟩ handler)
  | returnNothing {pos pos' : Position} :
      Forms .statement [key .returnKw pos, sym .semi pos'] (.returns pos none)
  | returnValue {ts : List Token} {value : Expr} {pos pos' : Position} :
      Derives (.expr .expression) ts value →
      Forms .statement (key .returnKw pos :: (ts ++ [sym .semi pos'])) (.returns pos (some value))
  | print {ts : List Token} {argument : Expr} {pos pos' : Position} :
      Enclosed ts argument →
      Forms .statement (key .printKw pos :: (ts ++ [sym .semi pos'])) (.print pos argument)
  | breakLoop {pos pos' : Position} :
      Forms .statement [key .breakKw pos, sym .semi pos'] (.breakLoop pos)
  | continueLoop {pos pos' : Position} :
      Forms .statement [key .continueKw pos, sym .semi pos'] (.continueLoop pos)
  | assign {first : Token} {ts us : List Token} {target value : Expr} {pos pos' : Position} :
      Derives (.expr .expression) (first :: ts) target → target.isAssignable = true →
      Derives (.expr .expression) us value →
      Forms .statement (first :: ts ++ sym .eq pos :: (us ++ [sym .semi pos']))
        (.assign first.pos target value)
  | plain {first : Token} {ts : List Token} {e : Expr} {pos : Position} :
      Derives (.expr .expression) (first :: ts) e →
      Forms .statement (first :: ts ++ [sym .semi pos]) (.expr first.pos e)
  | noStatement : Forms .statements [] []
  | nextStatement {ts us : List Token} {statement : Statement} {others : List Statement} :
      Forms .statement ts statement → Forms .statements us others →
      Forms .statements (ts ++ us) (statement :: others)
  | block {ts : List Token} {statements : List Statement} {pos pos' : Position} :
      Forms .statements ts statements →
      Forms .block (sym .lbrace pos :: (ts ++ [sym .rbrace pos'])) (.mk pos statements)
  | noElseIf : Forms .elseIfs [] []
  | nextElseIf {ts us vs : List Token} {test : Expr} {body : Block} {others : List Arm}
      {pos : Position} :
      Enclosed ts test → Forms .block us body → Forms .elseIfs vs others →
      Forms .elseIfs (key .elseIfKw pos :: (ts ++ (us ++ vs))) (.mk pos test body :: others)
  | noClause : Forms .clauses [] ([], none)
  | caseClause {ts us vs : List Token} {test : Expr} {body : List Statement} {arms : List Arm}
      {otherwise : Option Block} {pos pos' : Position} :
      Derives (.expr .expression) ts test → Forms .statements us body →
      Forms .clauses vs (arms, otherwise) →
      Forms .clauses (key .caseKw pos :: (ts ++ sym .colon pos' :: (us ++ vs)))
        (.mk pos test (.mk pos body) :: arms, otherwise)
  | defaultClause {ts us : List Token} {body : List Statement} {arms : List Arm}
      {pos pos' : Position} :
      Forms .statements ts body → Forms .clauses us (arms, none) →
      Forms .clauses (key .defaultKw pos :: sym .colon pos' :: (ts ++ us))
        (arms, some (.mk pos body))
  | function {name : String} {ts us : List Token} {params : List Parameter} {body : Block}
      {pos namePos : Position} :
      Params ts params → Forms .block us body →
      Forms .function (key .functionKw pos :: word name namePos :: (ts ++ us))
        (.mk pos ⟨name, namePos, none⟩ params body)
  | noMember : Forms .members [] (none, [])
  | constructor {ts us vs : List Token} {params : List Parameter} {body : Block}
      {methods : List Function} {pos : Position} :
      Params ts params → Forms .block us body → Forms .members vs (none, methods) →
      Forms .members (key .constructorKw pos :: (ts ++ (us ++ vs)))
        (some (.mk pos params body), methods)
  | method {ts us : List Token} {function : Function} {constructor : Option Constructor}
      {methods : List Function} :
      Forms .function ts function → Forms .members us (constructor, methods) →
      Forms .members (ts ++ us) (constructor, function :: methods)

/-- Tokens with which a statement can begin. -/
def beginsStatement : TokenKind → Bool
  | .keyword .letKw | .keyword .constKw | .keyword .ifKw | .keyword .whileKw | .keyword .forKw
  | .keyword .switchKw | .keyword .functionKw | .keyword .classKw | .keyword .tryKw
  | .keyword .returnKw | .keyword .printKw | .keyword .breakKw | .keyword .continueKw => true
  | kind => beginsExpression kind

/-- Every statement begins like one. -/
theorem Forms.begins {ts : List Token} {statement : Statement}
    (forms : Forms .statement ts statement) :
    ∃ first rest, ts = first :: rest ∧ beginsStatement first.kind = true := by
  have ofExpression : ∀ {token : Token} {ts : List Token}, Begins (token :: ts) →
      beginsStatement token.kind = true := by
    rintro token ts ⟨_, _, ⟨⟩, start⟩
    unfold beginsStatement
    split <;> first | rfl | exact start
  cases forms with
  | declare keyword | declareAll keyword =>
      refine ⟨_, _, rfl, ?_⟩
      simp only [declarations, List.mem_cons, Prod.mk.injEq, List.not_mem_nil, or_false] at keyword
      rcases keyword with ⟨rfl, -⟩ | ⟨rfl, -⟩ <;> rfl
  | functionStatement forms =>
      cases forms
      exact ⟨_, _, rfl, rfl⟩
  | assign derives | plain derives => exact ⟨_, _, rfl, ofExpression (derives.begins rfl)⟩
  | _ => exact ⟨_, _, rfl, rfl⟩

theorem Forms.ne_nil (ts : List Token) (statement : Statement)
    (forms : Forms .statement ts statement) : ts ≠ [] := by
  rintro rfl
  obtain ⟨first, rest, impossible, -⟩ := forms.begins
  cases impossible

theorem Separated.of_singleton {α : Type} {item : List Token → α → Prop} {ts : List Token} {x : α}
    (separated : Separated item ts [x]) : item ts x := by
  cases separated with
  | last derived => exact derived
  | next _ others => cases others

theorem Separated.forall_mem {α : Type} {item : List Token → α → Prop} {holds : Token → Prop}
    {ts : List Token} {values : List α} (separated : Separated item ts values)
    (comma : ∀ pos, holds (sym .comma pos))
    (each : ∀ used value, item used value → ∀ token ∈ used, holds token) :
    ∀ token ∈ ts, holds token := by
  induction separated with
  | last derived => exact each _ _ derived
  | next derived _ ih =>
      rw [List.forall_mem_append, List.forall_mem_cons]
      exact ⟨each _ _ derived, comma _, ih⟩

/-- A declarator ends before the end of the text. -/
theorem Declarator.no_eof {ts : List Token} {declarator : Binding × Option Expr}
    (declares : Declarator ts declarator) : ∀ token ∈ ts, token.kind ≠ .eof := by
  cases declares with
  | bare => simp [word]
  | valued derives => simpa [word, sym] using derives.no_eof

theorem Params.no_eof {ts : List Token} {params : List Parameter} (derives : Params ts params) :
    ∀ token ∈ ts, token.kind ≠ .eof := by
  obtain ⟨listed⟩ := derives
  cases listed with
  | none => simp [sym]
  | some separated =>
      have inner := @Separated.forall_mem _ _ (fun token => token.kind ≠ .eof) _ _ separated
        (by simp [sym]) (by rintro _ _ ⟨⟩; simp [word])
      simpa [sym, or_imp, forall_and] using inner

theorem Enclosed.no_eof {ts : List Token} {e : Expr} (derives : Enclosed ts e) :
    ∀ token ∈ ts, token.kind ≠ .eof := by
  obtain ⟨inner⟩ := derives
  simpa [sym, or_imp, forall_and] using inner.no_eof

/-- No part of a program reaches beyond the end of the text. -/
theorem Forms.no_eof {piece : Piece} {ts : List Token} {tree : piece.Tree}
    (forms : Forms piece ts tree) : ∀ token ∈ ts, token.kind ≠ .eof := by
  induction forms with
  | declareAll _ separated =>
      have inner := @Separated.forall_mem _ _ (fun token => token.kind ≠ .eof) _ _ separated
        (by simp [sym]) (fun _ _ declares => declares.no_eof)
      simpa [key, sym, or_imp, forall_and] using inner
  | _ =>
      grind [Declarator.no_eof, Derives.no_eof, Enclosed.no_eof, Params.no_eof, key, sym, word]

end Qalam.Grammar
