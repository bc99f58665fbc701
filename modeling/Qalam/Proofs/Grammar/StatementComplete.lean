/-
# The parser of statements finds every statement

The counterpart of the soundness of the parser of statements. A statement needs nothing of the
token behind it, except that an `if` must not be continued by a further alternative. Budgets are
counted down on the way: what stands behind the first token of a statement has fewer tokens than
the statement, so the next lower budget is enough for it.
-/

import Qalam.Proofs.Grammar.ExpressionComplete
import Qalam.Proofs.Grammar.StatementSound

namespace Qalam.Parser

open Grammar

/-- Whether a statement ends before a token. -/
def endsStatement : TokenKind → Bool
  | .keyword .elseIfKw | .keyword .elseKw => false
  | _ => true

/-- Whether a declarator ends before a token. -/
def endsDeclarator (kind : TokenKind) : Bool :=
  !continues .expression kind && kind ≠ .symbol .eq

/-- No statement begins with a token that ends a block, a case or an alternative. -/
theorem beginsStatement_ends {kind : TokenKind} (begins : beginsStatement kind = true) :
    endsBlock kind = false ∧ endsCase kind = false ∧ endsProgram kind = false ∧
      endsStatement kind = true := by
  revert begins
  cases kind with
  | keyword keyword => cases keyword <;> decide
  | symbol symbol => cases symbol <;> decide
  | eof => decide
  | _ => intro; exact ⟨rfl, rfl, rfl, rfl⟩

/-- The parsers for the parts of a statement, one of which is nested at a budget. -/
def partsAt (expression : Parser Expr) (budget : Nat) : Parts :=
  ⟨expression, statement expression budget, budget + 1⟩

/-- What the parsers do with a statement. -/
def TakesStatement (expression : Parser Expr) (limit : Nat) (ts : List Token)
    (result : Statement) : Prop :=
  (∃ first more, ts = first :: more ∧ beginsStatement first.kind = true) ∧
    ∀ (budget : Nat) (rest : List Token), budget ≤ limit → ts.length ≤ budget →
      endsStatement (kindOf rest) = true →
      statement expression budget (ts ++ rest) = .ok (result, rest)

/-- What the parsers do with a piece of a program, when expressions of a bounded number of tokens
are found. -/
def FoundPiece (expression : Parser Expr) (limit : Nat) :
    (piece : Piece) → List Token → piece.Tree → Prop
  | .statement, ts, result => TakesStatement expression limit ts result
  | .statements, ts, results => Sequence (TakesStatement expression limit) ts results
  | .block, ts, body => ∀ (budget : Nat) (rest : List Token), budget ≤ limit →
      ts.length ≤ budget → block (partsAt expression budget) (ts ++ rest) = .ok (body, rest)
  | .elseIfs, ts, arms => ∀ (budget room : Nat) (rest : List Token), budget ≤ limit →
      ts.length ≤ budget → ts.length ≤ room → kindOf rest ≠ .keyword .elseIfKw →
      elseIfArms (partsAt expression budget) room (ts ++ rest) = .ok (arms, rest)
  | .clauses, ts, clauses => ∀ (seen : Bool) (budget room : Nat) (rest : List Token),
      budget ≤ limit → ts.length ≤ budget → ts.length ≤ room → endsBlock (kindOf rest) = true →
      (seen = true → clauses.2 = none) →
      switchArms (partsAt expression budget) seen room (ts ++ rest) = .ok (clauses, rest)
  | .function, ts, result => ∃ pos us, ts = key .functionKw pos :: us ∧
      ∀ (budget : Nat) (rest : List Token), budget ≤ limit → us.length ≤ budget →
        function (partsAt expression budget) pos (us ++ rest) = .ok (result, rest)
  | .members, ts, result => ∀ (seen : Bool) (budget room : Nat) (rest : List Token),
      budget ≤ limit → ts.length ≤ budget → ts.length ≤ room → endsBlock (kindOf rest) = true →
      (seen = true → result.1 = none) →
      members (partsAt expression budget) seen room (ts ++ rest) = .ok (result, rest)

/-- A statement that a keyword announces is found if the rest of it is. -/
theorem FoundPiece.announced {expression : Parser Expr} {limit : Nat} {keyword : Keyword}
    {ts : List Token} {result : Statement} {pos : Position} (form : Parts → Parser Statement)
    (begins : beginsStatement (.keyword keyword) = true)
    (dispatch : ∀ parts input, statementOf parts (key keyword pos :: input) = form parts input)
    (reads : ∀ (budget : Nat) (rest : List Token), budget ≤ limit → ts.length ≤ budget →
      endsStatement (kindOf rest) = true →
      form (partsAt expression budget) (ts ++ rest) = .ok (result, rest)) :
    FoundPiece expression limit .statement (key keyword pos :: ts) result := by
  refine ⟨⟨_, _, rfl, begins⟩, ?_⟩
  intro budget rest within fits ends
  obtain ⟨fewer, rfl, enough⟩ := exists_budget fits
  exact (dispatch _ _).trans (reads fewer rest (by omega) enough ends)

section

variable {expression : Parser Expr} {limit : Nat}

theorem statements_read {stop : TokenKind → Bool} {ts : List Token}
    {statements : List Statement} (sequence : FoundPiece expression limit .statements ts statements)
    (starts : ∀ kind, beginsStatement kind = true → stop kind = false) {budget room : Nat}
    {rest : List Token} (within : budget ≤ limit) (fits : ts.length ≤ budget)
    (enough : ts.length ≤ room) (stops : stop (kindOf rest) = true)
    (ends : endsStatement (kindOf rest) = true) :
    manyUntil stop (statement expression budget) room (ts ++ rest) = .ok (statements, rest) := by
  have finds : Finds (statement expression budget) (TakesStatement expression limit) budget
      endsStatement := by
    intro used value behind takes fits follow
    exact takes.2 budget behind within fits follow
  refine manyUntil_finds finds ?_ sequence fits enough stops ends
  rintro used value ⟨⟨first, more, rfl, begins⟩, -⟩
  exact ⟨first, more, rfl, starts _ begins, (beginsStatement_ends begins).2.2.2⟩

theorem FoundPiece.block {ts : List Token} {statements : List Statement} (pos pos' : Position)
    (sequence : FoundPiece expression limit .statements ts statements) :
    FoundPiece expression limit .block (sym .lbrace pos :: (ts ++ [sym .rbrace pos']))
      (.mk pos statements) := by
  intro budget rest within fits
  simp only [List.length_append, List.length_cons, List.length_nil] at fits
  have reads := @statements_read _ _ endsBlock _ _ sequence
    (fun _ begins => (beginsStatement_ends begins).1) budget (budget + 1)
    (sym .rbrace pos' :: rest) within (by omega) (by omega) rfl rfl
  simp only [List.cons_append, List.append_assoc]
  rw [Parser.block, bind_run (here_run _), bind_run (sign_run .lbrace pos _)]
  refine (bind_run reads).trans ?_
  exact bind_run (sign_run .rbrace pos' rest)

theorem caseBody_reads {ts : List Token} {statements : List Statement} {pos : Position}
    (sequence : FoundPiece expression limit .statements ts statements) {budget : Nat}
    {rest : List Token} (within : budget ≤ limit) (fits : ts.length ≤ budget)
    (ends : endsCase (kindOf rest) = true) :
    caseBody (partsAt expression budget) pos (ts ++ rest) = .ok (.mk pos statements, rest) := by
  have follows : endsStatement (kindOf rest) = true := by
    revert ends
    generalize kindOf rest = kind
    unfold endsStatement endsCase
    split <;> simp
  have reads := @statements_read _ _ endsCase _ _ sequence
    (fun _ begins => (beginsStatement_ends begins).2.1) budget (budget + 1) rest within fits
    (by omega) ends follows
  exact bind_run reads

theorem clauses_end {ts rest : List Token} {clauses : List Arm × Option Block}
    (forms : Forms .clauses ts clauses) (ends : endsBlock (kindOf rest) = true) :
    endsCase (kindOf (ts ++ rest)) = true := by
  cases forms with
  | noClause =>
      revert ends
      rw [List.nil_append]
      generalize kindOf rest = kind
      unfold endsBlock endsCase
      split <;> simp
  | caseClause | defaultClause => rfl

theorem FoundPiece.noClause : FoundPiece expression limit .clauses [] ([], none) := by
  intro seen budget room rest _ _ _ ends _
  cases room with
  | zero => rfl
  | succ room =>
      rw [List.nil_append, switchArms, bind_run (peek_run rest), if_pos ends]
      rfl

theorem FoundPiece.defaultClause {ts us : List Token} {body : List Statement} {arms : List Arm}
    (pos pos' : Position) (sequence : FoundPiece expression limit .statements ts body)
    (forms : Forms .clauses us (arms, none))
    (found : FoundPiece expression limit .clauses us (arms, none)) :
    FoundPiece expression limit .clauses
      (key .defaultKw pos :: sym .colon pos' :: (ts ++ us)) (arms, some (.mk pos body)) := by
  intro seen budget room rest within fits enough ends unique
  simp only [List.length_append, List.length_cons] at fits enough
  obtain ⟨fewer, rfl⟩ : ∃ fewer, room = fewer + 1 := ⟨room - 1, by omega⟩
  obtain rfl : seen = false := by
    cases seen with
    | false => rfl
    | true => cases unique rfl
  have readBody := @caseBody_reads _ _ _ _ pos sequence budget (us ++ rest) within (by omega)
    (clauses_end forms ends)
  have readOthers := found true budget fewer rest within (by omega) (by omega) ends (fun _ => rfl)
  simp only [List.cons_append, List.append_assoc]
  rw [switchArms, bind_run (peek_run _), if_neg (by simp [kindOf, key, endsBlock]),
    bind_run (here_run _), bind_run (accept_false.mpr ⟨by simp [kindOf, key], rfl⟩),
    if_neg (by simp), bind_run (accept_key .defaultKw pos _), if_pos rfl]
  refine (bind_run (sign_run .colon pos' _)).trans ?_
  refine (bind_run readBody).trans ?_
  exact bind_run readOthers

theorem FoundPiece.noElseIf : FoundPiece expression limit .elseIfs [] [] := by
  intro budget room rest _ _ _ ends
  cases room with
  | zero => rfl
  | succ room =>
      rw [List.nil_append, elseIfArms, bind_run (here_run rest),
        bind_run (accept_false.mpr ⟨ends, rfl⟩)]
      rfl

theorem params_read {ts : List Token} {params : List Parameter} (derives : Params ts params)
    {budget : Nat} (rest : List Token) (fits : ts.length ≤ budget) :
    parameters (partsAt expression budget) (ts ++ rest) = .ok (params, rest) := by
  obtain ⟨listed⟩ := derives
  rename_i inner pos pos'
  simp only [List.length_append, List.length_cons, List.length_nil] at fits
  have finds : Finds parameter Param budget (fun _ => true) := by
    rintro _ _ behind ⟨⟩ - -
    exact parameter_ok.mpr ⟨_, _, rfl, rfl⟩
  have reads : listUntil .rparen parameter (budget + 1) (inner ++ sym .rparen pos' :: rest) =
      .ok (params, rest) := by
    refine listUntil_finds finds rfl rfl (by decide) ?_ listed (by omega) (by omega)
    rintro _ _ ⟨⟩
    exact ⟨_, _, rfl, by simp [Grammar.word]⟩
  simp only [List.cons_append, List.append_assoc]
  rw [parameters, bind_run (sign_run .lparen pos _)]
  exact reads

theorem FoundPiece.function {name : String} {ts us : List Token} {params : List Parameter}
    {body : Block} (pos namePos : Position) (derives : Params ts params)
    (found : FoundPiece expression limit .block us body) :
    FoundPiece expression limit .function
      (key .functionKw pos :: Grammar.word name namePos :: (ts ++ us))
      (.mk pos ⟨name, namePos, none⟩ params body) := by
  refine ⟨pos, _, rfl, ?_⟩
  intro budget rest within fits
  simp only [List.length_append, List.length_cons] at fits
  have readParams := @params_read expression _ _ derives budget (us ++ rest) (by omega)
  have readBody := found budget rest within (by omega)
  simp only [List.cons_append, List.append_assoc]
  rw [Parser.function, bind_run (binding_run name namePos _), bind_run readParams]
  exact bind_run readBody

theorem FoundPiece.functionStatement {ts : List Token} {function : Function}
    (found : FoundPiece expression limit .function ts function) :
    FoundPiece expression limit .statement ts (.function function) := by
  obtain ⟨pos, us, rfl, reads⟩ := found
  refine .announced (fun parts => .function <$> Parser.function parts pos) rfl (fun _ _ => rfl) ?_
  intro budget rest within fits _
  exact map_ok.mpr ⟨function, reads budget rest within fits, rfl⟩

theorem FoundPiece.noMember : FoundPiece expression limit .members [] (none, []) := by
  intro seen budget room rest _ _ _ ends _
  cases room with
  | zero => rfl
  | succ room =>
      rw [List.nil_append, members, bind_run (peek_run rest), if_pos ends]
      rfl

theorem FoundPiece.constructor {ts us vs : List Token} {params : List Parameter} {body : Block}
    {methods : List Function} (pos : Position) (derives : Params ts params)
    (found : FoundPiece expression limit .block us body)
    (foundOthers : FoundPiece expression limit .members vs (none, methods)) :
    FoundPiece expression limit .members (key .constructorKw pos :: (ts ++ (us ++ vs)))
      (some (.mk pos params body), methods) := by
  intro seen budget room rest within fits enough ends unique
  simp only [List.length_append, List.length_cons] at fits enough
  obtain ⟨fewer, rfl⟩ : ∃ fewer, room = fewer + 1 := ⟨room - 1, by omega⟩
  obtain rfl : seen = false := by
    cases seen with
    | false => rfl
    | true => cases unique rfl
  have readParams := @params_read expression _ _ derives budget (us ++ (vs ++ rest)) (by omega)
  have readBody := found budget (vs ++ rest) within (by omega)
  have readOthers := foundOthers true budget fewer rest within (by omega) (by omega) ends
    (fun _ => rfl)
  simp only [List.cons_append, List.append_assoc]
  rw [members, bind_run (peek_run _), if_neg (by simp [kindOf, key, endsBlock]),
    bind_run (here_run _), bind_run (accept_key .constructorKw pos _), if_pos rfl]
  refine (bind_run readParams).trans ?_
  refine (bind_run readBody).trans ?_
  exact bind_run readOthers

theorem FoundPiece.method {ts us : List Token} {function : Function}
    {constructor : Option Constructor} {methods : List Function}
    (found : FoundPiece expression limit .function ts function)
    (foundOthers : FoundPiece expression limit .members us (constructor, methods)) :
    FoundPiece expression limit .members (ts ++ us) (constructor, function :: methods) := by
  obtain ⟨pos, inner, rfl, reads⟩ := found
  intro seen budget room rest within fits enough ends unique
  simp only [List.length_append, List.length_cons] at fits enough
  obtain ⟨fewer, rfl⟩ : ∃ fewer, room = fewer + 1 := ⟨room - 1, by omega⟩
  have readMethod := reads budget (us ++ rest) within (by omega)
  have readOthers := foundOthers seen budget fewer rest within (by omega) (by omega) ends unique
  simp only [List.cons_append, List.append_assoc]
  rw [members, bind_run (peek_run _), if_neg (by simp [kindOf, key, endsBlock]),
    bind_run (here_run _), bind_run (accept_false.mpr ⟨by simp [kindOf, key], rfl⟩),
    if_neg (by simp), bind_run (accept_key .functionKw pos _), if_pos rfl]
  refine (bind_run readMethod).trans ?_
  exact bind_run readOthers

theorem FoundPiece.classDef {name : String} {ts : List Token} {constructor : Option Constructor}
    {methods : List Function} (pos namePos opening closing : Position)
    (found : FoundPiece expression limit .members ts (constructor, methods)) :
    FoundPiece expression limit .statement
      (key .classKw pos :: Grammar.word name namePos :: sym .lbrace opening ::
        (ts ++ [sym .rbrace closing]))
      (.classDef pos ⟨name, namePos, none⟩ constructor opening methods) := by
  refine .announced (classStatement · pos) rfl (fun _ _ => rfl) ?_
  intro budget rest within fits _
  simp only [List.length_append, List.length_cons, List.length_nil] at fits
  have readMembers := found false budget (budget + 1) (sym .rbrace closing :: rest) within
    (by omega) (by omega) rfl (by simp)
  simp only [List.cons_append, List.append_assoc]
  rw [classStatement, bind_run (binding_run name namePos _), bind_run (here_run _),
    bind_run (sign_run .lbrace opening _)]
  refine (bind_run readMembers).trans ?_
  exact bind_run (sign_run .rbrace closing rest)

theorem FoundPiece.tryCatch {name : String} {ts us : List Token} {body handler : Block}
    (pos catching opening namePos closing : Position)
    (found : FoundPiece expression limit .block ts body)
    (foundHandler : FoundPiece expression limit .block us handler) :
    FoundPiece expression limit .statement
      (key .tryKw pos :: (ts ++ key .catchKw catching :: sym .lparen opening ::
        Grammar.word name namePos :: sym .rparen closing :: us))
      (.tryCatch pos body ⟨name, namePos, none⟩ handler) := by
  refine .announced (tryStatement · pos) rfl (fun _ _ => rfl) ?_
  intro budget rest within fits _
  simp only [List.length_append, List.length_cons] at fits
  have readBody := found budget (key .catchKw catching :: sym .lparen opening ::
    Grammar.word name namePos :: sym .rparen closing :: (us ++ rest)) within (by omega)
  have readHandler := foundHandler budget rest within (by omega)
  simp only [List.cons_append, List.append_assoc]
  rw [tryStatement, bind_run readBody, bind_run (word_run .catchKw catching _),
    bind_run (sign_run .lparen opening _), bind_run (binding_run name namePos _),
    bind_run (sign_run .rparen closing _)]
  exact bind_run readHandler

end

section

variable {expression : Parser Expr} {limit : Nat}
  (finds : Finds expression (Derives (.expr .expression)) limit
    (fun kind => !continues .expression kind))

include finds

theorem enclosed_reads {ts : List Token} {e : Expr} (enclosed : Enclosed ts e) {budget : Nat}
    (rest : List Token) (fits : ts.length ≤ limit) :
    parenthesized (partsAt expression budget) (ts ++ rest) = .ok (e, rest) := by
  obtain ⟨derives⟩ := enclosed
  rename_i inner pos pos'
  simp only [List.length_cons, List.length_append, List.length_nil] at fits
  have reads := finds (sym .rparen pos' :: rest) derives (by omega) rfl
  rw [List.cons_append, List.append_assoc, parenthesized, bind_run (sign_run .lparen pos _)]
  refine (bind_run reads).trans ?_
  exact bind_run (sign_run .rparen pos' rest)

theorem declarator_finds (budget : Nat) :
    Finds (declarator (partsAt expression budget)) Declarator limit endsDeclarator := by
  intro used declared rest declares fits follow
  rw [endsDeclarator, Bool.and_eq_true, decide_eq_true_eq] at follow
  cases declares with
  | @bare name pos =>
      rw [List.singleton_append, declarator, bind_run (binding_run name pos rest),
        bind_run (accept_false.mpr ⟨follow.2, rfl⟩)]
      rfl
  | @valued name ts init pos pos' derives =>
      simp only [List.length_cons] at fits
      have reads := finds rest derives (by omega) follow.1
      rw [List.cons_append, List.cons_append, declarator, bind_run (binding_run name pos _),
        bind_run (accept_sym .eq pos' _), if_pos rfl]
      exact bind_run reads

theorem declaration_reads {ts : List Token} {declarators : List (Binding × Option Expr)}
    (separated : Separated Declarator ts declarators) {budget : Nat} {constant : Bool}
    {pos pos' : Position} (rest : List Token) (within : ts.length ≤ limit)
    (fits : ts.length ≤ budget + 1) :
    declaration (partsAt expression budget) pos constant (ts ++ sym .semi pos' :: rest) =
      .ok (match declarators with
        | [(binding, init)] => .declare pos constant binding init
        | _ => .declareAll pos constant declarators, rest) := by
  have found := commaItems_finds (declarator_finds finds budget) rfl (sym .semi pos' :: rest)
    separated within fits rfl (by simp [kindOf, sym])
  obtain ⟨first, behind, readFirst, further⟩ := bind_ok.mp found
  obtain ⟨others, final, readOthers, done⟩ := bind_ok.mp further
  obtain ⟨rfl, rfl⟩ := pure_ok.mp done
  rw [declaration, bind_run readFirst]
  refine (bind_run readOthers).trans ?_
  rw [bind_run (sign_run .semi pos' rest)]
  cases others <;> rfl

theorem FoundPiece.declaration {keyword : Keyword} {constant : Bool} {ts : List Token}
    {declarators : List (Binding × Option Expr)} (pos pos' : Position)
    (keywords : (keyword, constant) ∈ declarations)
    (separated : Separated Declarator ts declarators) :
    FoundPiece expression limit .statement (key keyword pos :: (ts ++ [sym .semi pos']))
      (match declarators with
        | [(binding, init)] => .declare pos constant binding init
        | _ => .declareAll pos constant declarators) := by
  simp only [declarations, List.mem_cons, Prod.mk.injEq, List.not_mem_nil, or_false] at keywords
  rcases keywords with ⟨rfl, rfl⟩ | ⟨rfl, rfl⟩
  all_goals
    refine .announced (Parser.declaration · pos _) rfl (fun _ _ => rfl) ?_
    intro budget rest within fits _
    simp only [List.length_append, List.length_cons, List.length_nil] at fits
    rw [List.append_assoc]
    exact declaration_reads finds separated rest (by omega) (by omega)

theorem ifArm_reads {ts us : List Token} {test : Expr} {body : Block} {pos : Position}
    (enclosed : Enclosed ts test) (found : FoundPiece expression limit .block us body)
    {budget : Nat} (rest : List Token) (within : budget ≤ limit)
    (fits : ts.length + us.length ≤ budget) :
    ifArm (partsAt expression budget) pos (ts ++ (us ++ rest)) = .ok (.mk pos test body, rest) := by
  have readTest := @enclosed_reads _ _ finds _ _ enclosed budget (us ++ rest) (by omega)
  have readBody := found budget rest within (by omega)
  rw [ifArm, bind_run readTest]
  exact bind_run readBody

theorem FoundPiece.nextElseIf {ts us vs : List Token} {test : Expr} {body : Block}
    {others : List Arm} (pos : Position) (enclosed : Enclosed ts test)
    (found : FoundPiece expression limit .block us body)
    (foundOthers : FoundPiece expression limit .elseIfs vs others) :
    FoundPiece expression limit .elseIfs (key .elseIfKw pos :: (ts ++ (us ++ vs)))
      (.mk pos test body :: others) := by
  intro budget room rest within fits enough ends
  simp only [List.length_append, List.length_cons] at fits enough
  obtain ⟨fewer, rfl⟩ : ∃ fewer, room = fewer + 1 := ⟨room - 1, by omega⟩
  have readArm := @ifArm_reads _ _ finds _ _ _ _ pos enclosed found budget (vs ++ rest) within
    (by omega)
  have readOthers := foundOthers budget fewer rest within (by omega) (by omega) ends
  simp only [List.cons_append, List.append_assoc]
  rw [elseIfArms, bind_run (here_run _), bind_run (accept_key .elseIfKw pos _), if_pos rfl]
  refine (bind_run readArm).trans ?_
  exact bind_run readOthers

theorem FoundPiece.ifOnly {ts us vs : List Token} {test : Expr} {body : Block} {others : List Arm}
    (pos : Position) (enclosed : Enclosed ts test)
    (found : FoundPiece expression limit .block us body)
    (foundOthers : FoundPiece expression limit .elseIfs vs others) :
    FoundPiece expression limit .statement (key .ifKw pos :: (ts ++ (us ++ vs)))
      (.ifElse pos (.mk pos test body :: others) none) := by
  refine .announced (ifStatement · pos) rfl (fun _ _ => rfl) ?_
  intro budget rest within fits ends
  simp only [List.length_append] at fits
  have noElseIf : kindOf rest ≠ .keyword .elseIfKw := by
    intro kind
    rw [kind] at ends
    cases ends
  have noElse : kindOf rest ≠ .keyword .elseKw := by
    intro kind
    rw [kind] at ends
    cases ends
  have readArm := @ifArm_reads _ _ finds _ _ _ _ pos enclosed found budget (vs ++ rest) within
    (by omega)
  have readOthers := foundOthers budget (budget + 1) rest within (by omega) (by omega) noElseIf
  simp only [List.append_assoc]
  rw [ifStatement, bind_run readArm]
  refine (bind_run readOthers).trans ?_
  rw [bind_run (accept_false.mpr ⟨noElse, rfl⟩)]
  rfl

theorem FoundPiece.ifElse {ts us vs ws : List Token} {test : Expr} {body otherwise : Block}
    {others : List Arm} (pos pos' : Position) (enclosed : Enclosed ts test)
    (found : FoundPiece expression limit .block us body)
    (foundOthers : FoundPiece expression limit .elseIfs vs others)
    (foundOtherwise : FoundPiece expression limit .block ws otherwise) :
    FoundPiece expression limit .statement
      (key .ifKw pos :: (ts ++ (us ++ (vs ++ key .elseKw pos' :: ws))))
      (.ifElse pos (.mk pos test body :: others) (some otherwise)) := by
  refine .announced (ifStatement · pos) rfl (fun _ _ => rfl) ?_
  intro budget rest within fits _
  simp only [List.length_append, List.length_cons] at fits
  have readArm := @ifArm_reads _ _ finds _ _ _ _ pos enclosed found budget
    (vs ++ key .elseKw pos' :: (ws ++ rest)) within (by omega)
  have readOthers := foundOthers budget (budget + 1) (key .elseKw pos' :: (ws ++ rest)) within
    (by omega) (by omega) (by simp [kindOf, key])
  have readOtherwise := foundOtherwise budget rest within (by omega)
  simp only [List.append_assoc, List.cons_append]
  rw [ifStatement, bind_run readArm]
  refine (bind_run readOthers).trans ?_
  rw [bind_run (accept_key .elseKw pos' (ws ++ rest)), if_pos rfl]
  exact bind_run readOtherwise

theorem FoundPiece.whileLoop {ts us : List Token} {condition : Expr} {body : Block}
    (pos : Position) (enclosed : Enclosed ts condition)
    (found : FoundPiece expression limit .block us body) :
    FoundPiece expression limit .statement (key .whileKw pos :: (ts ++ us))
      (.whileLoop pos condition body) := by
  refine .announced (whileStatement · pos) rfl (fun _ _ => rfl) ?_
  intro budget rest within fits _
  simp only [List.length_append] at fits
  have readCondition := @enclosed_reads _ _ finds _ _ enclosed budget (us ++ rest) (by omega)
  have readBody := found budget rest within (by omega)
  rw [List.append_assoc, whileStatement, bind_run readCondition]
  exact bind_run readBody

theorem FoundPiece.forLoop {name : String} {ts us vs ws : List Token}
    {init condition step : Expr} {body : Block}
    (pos opening declaring namePos equals first second closing : Position)
    (derivesInit : Derives (.expr .expression) ts init)
    (derivesCondition : Derives (.expr .expression) us condition)
    (derivesStep : Derives (.expr .expression) vs step)
    (found : FoundPiece expression limit .block ws body) :
    FoundPiece expression limit .statement
      (key .forKw pos :: sym .lparen opening :: key .letKw declaring ::
        Grammar.word name namePos :: sym .eq equals :: (ts ++ sym .semi first ::
          (us ++ sym .semi second :: (vs ++ sym .rparen closing :: ws))))
      (.forLoop pos ⟨name, namePos, none⟩ init condition step body) := by
  refine .announced (forStatement · pos) rfl (fun _ _ => rfl) ?_
  intro budget rest within fits _
  simp only [List.length_append, List.length_cons] at fits
  have readInit := finds (sym .semi first :: (us ++ sym .semi second ::
    (vs ++ sym .rparen closing :: (ws ++ rest)))) derivesInit (by omega) rfl
  have readCondition := finds (sym .semi second :: (vs ++ sym .rparen closing :: (ws ++ rest)))
    derivesCondition (by omega) rfl
  have readStep := finds (sym .rparen closing :: (ws ++ rest)) derivesStep (by omega) rfl
  have readBody := found budget rest within (by omega)
  simp only [List.append_assoc, List.cons_append]
  rw [forStatement, bind_run (sign_run .lparen opening _),
    bind_run (accept_key .letKw declaring _), if_pos rfl, bind_run (binding_run name namePos _),
    bind_run (sign_run .eq equals _)]
  refine (bind_run readInit).trans ?_
  rw [bind_run (sign_run .semi first _)]
  refine (bind_run readCondition).trans ?_
  rw [bind_run (sign_run .semi second _)]
  refine (bind_run readStep).trans ?_
  rw [bind_run (sign_run .rparen closing _)]
  exact bind_run readBody

theorem FoundPiece.forOf {name : String} {ts us : List Token} {iterable : Expr} {body : Block}
    (pos opening namePos closing : Position) (derives : Derives (.expr .expression) ts iterable)
    (found : FoundPiece expression limit .block us body) :
    FoundPiece expression limit .statement
      (key .forKw pos :: sym .lparen opening :: Grammar.word name namePos ::
        (ts ++ sym .rparen closing :: us))
      (.forOf pos ⟨name, namePos, none⟩ iterable body) := by
  refine .announced (forStatement · pos) rfl (fun _ _ => rfl) ?_
  intro budget rest within fits _
  simp only [List.length_append, List.length_cons] at fits
  have readIterable := finds (sym .rparen closing :: (us ++ rest)) derives (by omega) rfl
  have readBody := found budget rest within (by omega)
  simp only [List.append_assoc, List.cons_append]
  rw [forStatement, bind_run (sign_run .lparen opening _),
    bind_run (accept_false.mpr ⟨by simp [kindOf, Grammar.word], rfl⟩), if_neg (by simp),
    bind_run (binding_run name namePos _)]
  refine (bind_run readIterable).trans ?_
  rw [bind_run (sign_run .rparen closing _)]
  exact bind_run readBody

theorem FoundPiece.caseClause {ts us vs : List Token} {test : Expr} {body : List Statement}
    {arms : List Arm} {otherwise : Option Block} (pos pos' : Position)
    (derives : Derives (.expr .expression) ts test)
    (sequence : FoundPiece expression limit .statements us body)
    (forms : Forms .clauses vs (arms, otherwise))
    (found : FoundPiece expression limit .clauses vs (arms, otherwise)) :
    FoundPiece expression limit .clauses
      (key .caseKw pos :: (ts ++ sym .colon pos' :: (us ++ vs)))
      (.mk pos test (.mk pos body) :: arms, otherwise) := by
  intro seen budget room rest within fits enough ends unique
  simp only [List.length_append, List.length_cons] at fits enough
  obtain ⟨fewer, rfl⟩ : ∃ fewer, room = fewer + 1 := ⟨room - 1, by omega⟩
  have readTest := finds (sym .colon pos' :: (us ++ (vs ++ rest))) derives (by omega) rfl
  have readBody := @caseBody_reads _ _ _ _ pos sequence budget (vs ++ rest) within (by omega)
    (clauses_end forms ends)
  have readOthers := found seen budget fewer rest within (by omega) (by omega) ends unique
  simp only [List.cons_append, List.append_assoc]
  rw [switchArms, bind_run (peek_run _), if_neg (by simp [kindOf, key, endsBlock]),
    bind_run (here_run _), bind_run (accept_key .caseKw pos _), if_pos rfl]
  refine (bind_run readTest).trans ?_
  rw [bind_run (sign_run .colon pos' _)]
  refine (bind_run readBody).trans ?_
  exact bind_run readOthers

theorem FoundPiece.switch {ts us : List Token} {selector : Expr} {arms : List Arm}
    {otherwise : Option Block} (pos opening closing : Position) (enclosed : Enclosed ts selector)
    (found : FoundPiece expression limit .clauses us (arms, otherwise)) :
    FoundPiece expression limit .statement
      (key .switchKw pos :: (ts ++ sym .lbrace opening :: (us ++ [sym .rbrace closing])))
      (.switch pos selector arms otherwise) := by
  refine .announced (switchStatement · pos) rfl (fun _ _ => rfl) ?_
  intro budget rest within fits _
  simp only [List.length_append, List.length_cons, List.length_nil] at fits
  have readSelector := @enclosed_reads _ _ finds _ _ enclosed budget
    (sym .lbrace opening :: (us ++ sym .rbrace closing :: rest)) (by omega)
  have readClauses := found false budget (budget + 1) (sym .rbrace closing :: rest) within
    (by omega) (by omega) rfl (by simp)
  simp only [List.cons_append, List.append_assoc]
  rw [switchStatement]
  refine (bind_run readSelector).trans ?_
  rw [bind_run (sign_run .lbrace opening _)]
  refine (bind_run readClauses).trans ?_
  exact bind_run (sign_run .rbrace closing rest)

theorem FoundPiece.returnValue {ts : List Token} {value : Expr} (pos pos' : Position)
    (derives : Derives (.expr .expression) ts value) :
    FoundPiece expression limit .statement (key .returnKw pos :: (ts ++ [sym .semi pos']))
      (.returns pos (some value)) := by
  refine .announced (returnStatement · pos) rfl (fun _ _ => rfl) ?_
  intro budget rest within fits _
  simp only [List.length_append, List.length_cons, List.length_nil] at fits
  have noEnd : kindOf (ts ++ sym .semi pos' :: rest) ≠ .symbol .semi := by
    obtain ⟨first, more, rfl, start⟩ := derives.begins rfl
    intro kind
    change first.kind = _ at kind
    rw [kind] at start
    cases start
  have readValue := finds (sym .semi pos' :: rest) derives (by omega) rfl
  simp only [List.cons_append, List.append_assoc, List.nil_append]
  rw [returnStatement, bind_run (accept_false.mpr ⟨noEnd, rfl⟩), if_neg (by simp)]
  refine (bind_run readValue).trans ?_
  exact bind_run (sign_run .semi pos' rest)

theorem FoundPiece.print {ts : List Token} {argument : Expr} (pos pos' : Position)
    (enclosed : Enclosed ts argument) :
    FoundPiece expression limit .statement (key .printKw pos :: (ts ++ [sym .semi pos']))
      (.print pos argument) := by
  refine .announced (printStatement · pos) rfl (fun _ _ => rfl) ?_
  intro budget rest within fits _
  simp only [List.length_append, List.length_cons, List.length_nil] at fits
  have readArgument := @enclosed_reads _ _ finds _ _ enclosed budget (sym .semi pos' :: rest)
    (by omega)
  rw [List.append_assoc, printStatement]
  refine (bind_run readArgument).trans ?_
  exact bind_run (sign_run .semi pos' rest)

omit finds in
/-- A statement that no keyword announces is read as an expression or an assignment. -/
theorem FoundPiece.unannounced {first : Token} {ts : List Token} {result : Statement}
    (begins : beginsExpression first.kind = true)
    (reads : ∀ (budget : Nat) (rest : List Token), (first :: ts).length ≤ limit →
      plainStatement (partsAt expression budget) first.pos (first :: ts ++ rest) =
        .ok (result, rest)) :
    FoundPiece expression limit .statement (first :: ts) result := by
  have plain : ∀ (parts : Parts) (rest : List Token),
      statementOf parts (first :: rest) = plainStatement parts first.pos (first :: rest) := by
    intro parts rest
    rw [statementOf, bind_run (here_run _), bind_run (peek_run _)]
    obtain ⟨kind, pos⟩ := first
    simp only [kindOf, posOf]
    split <;> first | rfl | cases begins
  refine ⟨⟨first, ts, rfl, ?_⟩, ?_⟩
  · unfold beginsStatement
    split <;> first | rfl | exact begins
  · intro budget rest within fits _
    obtain ⟨fewer, rfl, -⟩ := exists_budget fits
    exact (plain _ _).trans (reads fewer rest (by omega))

theorem FoundPiece.assign {first : Token} {ts us : List Token} {target value : Expr}
    (pos pos' : Position) (derivesTarget : Derives (.expr .expression) (first :: ts) target)
    (assignable : target.isAssignable = true) (derives : Derives (.expr .expression) us value) :
    FoundPiece expression limit .statement
      (first :: ts ++ sym .eq pos :: (us ++ [sym .semi pos'])) (.assign first.pos target value) := by
  obtain ⟨_, _, ⟨⟩, begins⟩ := derivesTarget.begins rfl
  rw [List.cons_append]
  refine .unannounced begins ?_
  intro budget rest fits
  simp only [List.length_append, List.length_cons, List.length_nil] at fits
  have readTarget := finds (sym .eq pos :: (us ++ sym .semi pos' :: rest)) derivesTarget
    (by simp only [List.length_cons]; omega) rfl
  have readValue := finds (sym .semi pos' :: rest) derives (by omega) rfl
  simp only [List.cons_append, List.append_assoc, List.nil_append]
  rw [plainStatement]
  refine (bind_run readTarget).trans ?_
  rw [bind_run (accept_sym .eq pos _), if_pos rfl,
    bind_run (checkAssignable_run assignable .assignment _)]
  refine (bind_run readValue).trans ?_
  exact bind_run (sign_run .semi pos' rest)

theorem FoundPiece.plain {first : Token} {ts : List Token} {e : Expr} (pos : Position)
    (derives : Derives (.expr .expression) (first :: ts) e) :
    FoundPiece expression limit .statement (first :: ts ++ [sym .semi pos])
      (.expr first.pos e) := by
  obtain ⟨_, _, ⟨⟩, begins⟩ := derives.begins rfl
  rw [List.cons_append]
  refine .unannounced begins ?_
  intro budget rest fits
  simp only [List.length_append, List.length_cons, List.length_nil] at fits
  have reads := finds (sym .semi pos :: rest) derives (by simp only [List.length_cons]; omega) rfl
  simp only [List.cons_append, List.append_assoc, List.nil_append]
  rw [plainStatement]
  refine (bind_run reads).trans ?_
  rw [bind_run (accept_false.mpr ⟨by simp [kindOf, sym], rfl⟩), if_neg (by simp)]
  exact bind_run (sign_run .semi pos rest)

/-- The parsers find every piece of a program. -/
theorem foundPiece_of_forms {piece : Piece} {ts : List Token} {tree : piece.Tree}
    (forms : Forms piece ts tree) : FoundPiece expression limit piece ts tree := by
  induction forms with
  | declare keywords declares => exact .declaration finds _ _ keywords (.last declares)
  | @declareAll _ _ _ declarators _ _ keywords separated several =>
      obtain _ | ⟨first, _ | ⟨second, others⟩⟩ := declarators
      · cases several
      · simp at several
      · exact .declaration finds _ _ keywords separated
  | ifOnly enclosed _ _ ihBody ihOthers => exact .ifOnly finds _ enclosed ihBody ihOthers
  | ifElse enclosed _ _ _ ihBody ihOthers ihOtherwise =>
      exact .ifElse finds _ _ enclosed ihBody ihOthers ihOtherwise
  | whileLoop enclosed _ ih => exact .whileLoop finds _ enclosed ih
  | forLoop derivesInit derivesCondition derivesStep _ ih =>
      exact .forLoop finds _ _ _ _ _ _ _ _ derivesInit derivesCondition derivesStep ih
  | forOf derives _ ih => exact .forOf finds _ _ _ _ derives ih
  | switch enclosed _ ih => exact .switch finds _ _ _ enclosed ih
  | functionStatement _ ih => exact .functionStatement ih
  | classDef _ ih => exact .classDef _ _ _ _ ih
  | tryCatch _ _ ihBody ihHandler => exact .tryCatch _ _ _ _ _ ihBody ihHandler
  | returnNothing =>
      exact .announced (returnStatement · _) rfl (fun _ _ => rfl) (fun _ _ _ _ _ => rfl)
  | returnValue derives => exact .returnValue finds _ _ derives
  | print enclosed => exact .print finds _ _ enclosed
  | @breakLoop pos =>
      exact .announced (fun _ => sign .semi >>= fun _ => pure (.breakLoop pos)) rfl
        (fun _ _ => rfl) (fun _ _ _ _ _ => rfl)
  | @continueLoop pos =>
      exact .announced (fun _ => sign .semi >>= fun _ => pure (.continueLoop pos)) rfl
        (fun _ _ => rfl) (fun _ _ _ _ _ => rfl)
  | assign derivesTarget assignable derives =>
      exact .assign finds _ _ derivesTarget assignable derives
  | plain derives => exact .plain finds _ derives
  | noStatement => exact Sequence.nil
  | nextStatement _ _ ih ihOthers => exact Sequence.cons ih ihOthers
  | block _ ih => exact .block _ _ ih
  | noElseIf => exact .noElseIf
  | nextElseIf enclosed _ _ ihBody ihOthers => exact .nextElseIf finds _ enclosed ihBody ihOthers
  | noClause => exact .noClause
  | caseClause derives _ forms ihBody ihOthers =>
      exact .caseClause finds _ _ derives ihBody forms ihOthers
  | defaultClause _ forms ihBody ihOthers => exact .defaultClause _ _ ihBody forms ihOthers
  | function derives _ ih => exact .function _ _ derives ih
  | noMember => exact .noMember
  | constructor derives _ _ ihBody ihOthers => exact .constructor _ derives ihBody ihOthers
  | method _ _ ih ihOthers => exact .method ih ihOthers

end

end Qalam.Parser
