/-
# The shape of generated programs

Every statement leaves the brackets and the bodies of labels as it has found them: what it opens it
closes, and its lines are laid by their depth. This follows the lines of each statement, where an
`if` needs an alternative to open the block that its last line closes; the grammar sees to that. A
switch opens one block and one body of a label after the other.
-/

import Qalam.Proofs.Printing.Margins

namespace Qalam.Margins

open Brackets
open JavaScript (Margin)

section

variable {names : Naming.Names}

/-! ## The texts of lines -/

theorem fragment_binding (proper : names.Proper) (name : Binding) :
    Fragment (names.ofBinding name).name := fragment_identifier proper name.entity name.name

theorem inline_initialValue (proper : names.Proper) (value : Option Expr) :
    Inline (JavaScript.initialValue (names.optional value)) := by
  cases value with
  | some e => exact (fragment_expr proper e).toInline
  | none =>
      rw [Naming.Names.optional, Option.map_none, JavaScript.initialValue]
      exact .of_plain (by decide)

theorem fragment_declarator (proper : names.Proper) (entry : Binding × Option Expr) :
    Fragment (JavaScript.declarator (names.declarator entry)) :=
  ((fragment_binding proper entry.1).append (.of_plain (by decide))).append
    (inline_initialValue proper entry.2)

theorem fragment_declarationWord (constant : Bool) :
    Fragment (JavaScript.declarationWord constant ++ " ") := by
  cases constant <;> exact .of_plain (by decide) (by decide)

theorem inline_params (proper : names.Proper) (params : List Parameter) :
    Inline (JavaScript.params (params.map names.ofParameter)) := by
  refine .intercalate (.of_plain (by decide)) ?_
  rw [List.map_map, List.forall_mem_map]
  exact fun param _ => (fragment_identifier proper param.entity param.name).toInline

/-- The beginning of a line, up to a parenthesis that is still open. -/
structure Front (text : String) : Prop where
  piece : ∀ opened, Piece text opened (.round :: opened)
  begins : Begins text

namespace Front

variable {front text : String}

theorem append (opens : Front front) (inside : Inline text) : Front (front ++ text) where
  piece opened := (opens.piece opened).append (piece_of_inline inside _)
  begins := opens.begins.append _

/-- The arguments or parameters behind a name. -/
theorem of_fragment (fragment : Fragment front) : Front (front ++ "(") where
  piece opened := (piece_of_inline fragment.toInline opened).append ⟨rfl, by decide⟩
  begins := fragment.begins.append _

/-- The line goes on with a block. -/
theorem header (opens : Front front) : Header (front ++ ") \x7b") where
  piece opened := (opens.piece opened).append ⟨rfl, by decide⟩
  begins := opens.begins.append _
  ends := getLast?_append rfl

/-- The line ends behind the parenthesis. -/
theorem fragment (opens : Front front) : Fragment (front ++ ");") where
  neutral opened := ((opens.piece opened).append ⟨rfl, by decide⟩).reads
  unbroken := ((opens.piece []).append (⟨rfl, by decide⟩ : Piece ");" _ [])).unbroken
  begins := opens.begins.append _

end Front

/-- A line that opens the next block behind a parenthesis. -/
theorem Turn.of_front {front text : String}
    (piece : ∀ opened, Piece front (.curly :: opened) (.round :: opened))
    (begins : ∃ rest, front.toList = '\x7d' :: rest) (inside : Inline text) :
    Turn (front ++ text ++ ") \x7b") where
  piece opened :=
    ((piece opened).append (piece_of_inline inside _)).append ⟨rfl, by decide⟩
  begins := by
    obtain ⟨rest, spelled⟩ := begins
    exact ⟨_, by rw [String.toList_append, String.toList_append, spelled]; rfl⟩
  ends := getLast?_append rfl

theorem header_try : Header "try \x7b" :=
  ⟨fun _ => ⟨rfl, by decide⟩, ⟨'t', _, rfl, by decide, by decide⟩, rfl⟩

theorem front_for : Front "for (let " :=
  ⟨fun _ => ⟨rfl, by decide⟩, ⟨'f', _, rfl, by decide, by decide⟩⟩

theorem front_switch : Front "switch (" :=
  ⟨fun _ => ⟨rfl, by decide⟩, ⟨'s', _, rfl, by decide, by decide⟩⟩

theorem turn_else : Turn "\x7d else \x7b" := ⟨fun _ => ⟨rfl, by decide⟩, ⟨_, rfl⟩, rfl⟩

theorem fragment_case {test : String} (inside : Inline test) :
    Fragment ("case " ++ test ++ ":") := by
  have word : Fragment "case " := .of_plain (by decide) (by decide)
  exact (word.append inside).append (.of_plain (by decide))

theorem isLabel_case (margin : Margin) (test : String) :
    isLabel (margin.line ("case " ++ test ++ ":")) = true := by
  have spelled : ("case " ++ test ++ ":").toList =
      'c' :: ('a' :: 's' :: 'e' :: ' ' :: test.toList ++ [':']) := by
    rw [String.toList_append, String.toList_append]
    rfl
  have ends : ("case " ++ test ++ ":").toList.getLast? = some ':' := getLast?_append rfl
  rw [isLabel, content_line margin spelled (by decide), ends, spelled]
  simp

theorem isLabel_default (margin : Margin) : isLabel (margin.line "default:") = true := by
  have spelled : "default:".toList = 'd' :: "efault:".toList := rfl
  rw [isLabel, content_line margin spelled (by decide)]
  decide

/-- A line that ends with a semicolon. -/
theorem Laid.semicolon {margin : Margin} {depth : Nat} {bodies : List Row} {text : String}
    (stands : Stands margin depth bodies) (fragment : Fragment text) :
    Laid margin.width [margin.line (text ++ ";")] (.within depth bodies) (.within depth bodies) :=
  .plain stands (fragment.append (.of_plain (by decide))) (getLast?_append rfl)

/-! ## Statements -/

/-- Lines that leave what is open as they have found it. -/
abbrev Settled (margin : Margin) (depth : Nat) (bodies : List Row) (lines : List String) : Prop :=
  Laid margin.width lines (.within depth bodies) (.within depth bodies)

namespace Settled

variable {margin : Margin} {depth : Nat} {bodies : List Row}

theorem declaration (proper : names.Proper) (stands : Stands margin depth bodies) (constant : Bool)
    (name : Binding) (init : Option Expr) :
    Settled margin depth bodies [margin.line
      (JavaScript.declaration constant (names.ofBinding name) (names.optional init))] := by
  rw [JavaScript.declaration]
  split
  · have word : Fragment "let " := .of_plain (by decide) (by decide)
    exact Laid.semicolon stands (word.append (fragment_binding proper name).toInline)
  · have named := (fragment_declarator proper (name, init)).toInline
    exact Laid.semicolon stands ((fragment_declarationWord constant).append named)

theorem declarations (proper : names.Proper) (stands : Stands margin depth bodies)
    (constant : Bool) (entries : List (Binding × Option Expr)) :
    Settled margin depth bodies [margin.line (JavaScript.declarationWord constant ++ " " ++
      ", ".intercalate ((entries.map names.declarator).map JavaScript.declarator) ++ ";")] := by
  refine Laid.semicolon stands ((fragment_declarationWord constant).append ?_)
  refine .intercalate (.of_plain (by decide)) ?_
  rw [List.map_map, List.forall_mem_map]
  exact fun entry _ => (fragment_declarator proper entry).toInline

mutual

theorem statement (proper : names.Proper) {margin : Margin} {depth : Nat} {bodies : List Row}
    (stands : Stands margin depth bodies) : ∀ {s : Statement},
    (∀ n ∈ Branches.statement s, 0 < n) →
    Settled margin depth bodies (JavaScript.statement margin (names.statement s))
  | .declare pos constant name init, _ => by
      rw [Naming.Names.statement, JavaScript.statement]
      exact declaration proper stands constant name init
  | .declareAll pos constant entries, _ => by
      rw [Naming.Names.statement, JavaScript.statement]
      exact declarations proper stands constant entries
  | .assign pos target value, _ => by
      rw [Naming.Names.statement, JavaScript.statement]
      have equals : Inline " = " := .of_plain (by decide)
      exact Laid.semicolon stands (((fragment_expr proper target).append equals).append
        (fragment_expr proper value).toInline)
  | .tryCatch pos body name onError, counted => by
      rw [Naming.Names.statement, JavaScript.statement]
      rw [Branches.statement, List.forall_mem_append] at counted
      have guarded := (Laid.opening stands header_try).append
        (block proper stands.deeper counted.1)
      have turn : Turn ("\x7d catch (" ++ (names.ofBinding name).name ++ ") \x7b") :=
        .of_front (fun _ => ⟨rfl, by decide⟩) ⟨_, rfl⟩ (fragment_binding proper name).toInline
      have caught := (Laid.turning stands turn).append (block proper stands.deeper counted.2)
      exact (guarded.append caught).append (Laid.closed stands)
  | .classDef pos name (some initialiser) bodyPos members, counted => by
      rw [Naming.Names.statement, JavaScript.statement]
      rw [Branches.statement, List.forall_mem_append] at counted
      have word : Fragment "class " := .of_plain (by decide) (by decide)
      have header := Header.named (word.append (fragment_binding proper name).toInline)
      have inside := (constructor proper stands.deeper counted.1).append
        (methods proper stands.deeper counted.2)
      exact Laid.block stands header inside
  | .classDef pos name none bodyPos members, counted => by
      rw [Naming.Names.statement, JavaScript.statement]
      have word : Fragment "class " := .of_plain (by decide) (by decide)
      have header := Header.named (word.append (fragment_binding proper name).toInline)
      exact Laid.block stands header (methods proper stands.deeper counted)
  | .function (.mk pos name params body), counted => by
      rw [Naming.Names.statement, JavaScript.statement, JavaScript.function]
      have word : Fragment "function " := .of_plain (by decide) (by decide)
      have front := Front.of_fragment (word.append (fragment_binding proper name).toInline)
      exact Laid.block stands (front.append (inline_params proper params)).header
        (block proper stands.deeper counted)
  | .ifElse pos [] (some otherwise), counted => by simp [Branches.statement] at counted
  | .ifElse pos [] none, counted => by simp [Branches.statement] at counted
  | .ifElse pos (.mk armPos test body :: others) (some otherwise), counted => by
      rw [Naming.Names.statement, Naming.Names.arms, JavaScript.statement, JavaScript.ifArms,
        JavaScript.ifArm]
      simp only [Branches.statement, Branches.arms, Branches.arm, List.forall_mem_cons,
        List.forall_mem_append] at counted
      obtain ⟨-, ⟨inBody, inOthers⟩, inOtherwise⟩ := counted
      have front : Front "if (" := ⟨fun _ => ⟨rfl, by decide⟩, ⟨'i', _, rfl, by decide, by decide⟩⟩
      have header := (front.append (fragment_expr proper test).toInline).header
      have first := (Laid.opening stands header).append (block proper stands.deeper inBody)
      have last := (Laid.turning stands turn_else).append (block proper stands.deeper inOtherwise)
      exact ((first.append (elseIfs proper stands inOthers)).append last).append
        (Laid.closed stands)
  | .ifElse pos (.mk armPos test body :: others) none, counted => by
      rw [Naming.Names.statement, Naming.Names.arms, JavaScript.statement, JavaScript.ifArms,
        JavaScript.ifArm]
      simp only [Branches.statement, Branches.arms, Branches.arm, List.forall_mem_cons,
        List.forall_mem_append] at counted
      obtain ⟨-, inBody, inOthers⟩ := counted
      have front : Front "if (" := ⟨fun _ => ⟨rfl, by decide⟩, ⟨'i', _, rfl, by decide, by decide⟩⟩
      have header := (front.append (fragment_expr proper test).toInline).header
      have first := (Laid.opening stands header).append (block proper stands.deeper inBody)
      exact (first.append (elseIfs proper stands inOthers)).append (Laid.closed stands)
  | .whileLoop pos condition body, counted => by
      rw [Naming.Names.statement, JavaScript.statement]
      have front : Front "while (" :=
        ⟨fun _ => ⟨rfl, by decide⟩, ⟨'w', _, rfl, by decide, by decide⟩⟩
      have header := (front.append (fragment_expr proper condition).toInline).header
      exact Laid.block stands header (block proper stands.deeper counted)
  | .forLoop pos name init condition step body, counted => by
      rw [Naming.Names.statement, JavaScript.statement]
      have equals : Inline " = " := .of_plain (by decide)
      have semicolon : Inline "; " := .of_plain (by decide)
      have start := ((front_for.append (fragment_binding proper name).toInline).append
        equals).append (fragment_expr proper init).toInline
      have goesOn := (start.append semicolon).append (fragment_expr proper condition).toInline
      have whole := (goesOn.append semicolon).append (fragment_expr proper step).toInline
      exact Laid.block stands whole.header (block proper stands.deeper counted)
  | .forOf pos name iterable body, counted => by
      rw [Naming.Names.statement, JavaScript.statement]
      have between : Inline " of " := .of_plain (by decide)
      have whole := ((front_for.append (fragment_binding proper name).toInline).append
        between).append (fragment_expr proper iterable).toInline
      exact Laid.block stands whole.header (block proper stands.deeper counted)
  | .switch pos selector alternatives (some otherwise), counted => by
      rw [Naming.Names.statement, JavaScript.statement]
      rw [Branches.statement, List.forall_mem_append] at counted
      have opened := Laid.opening stands
        (front_switch.append (fragment_expr proper selector).toInline).header
      obtain ⟨finished, labels, arms⟩ := cases proper stands counted.1 [] (by simp)
      have word : Fragment "default:" := .of_plain (by decide) (by decide)
      have last := (Laid.label stands labels word (isLabel_default _)).append
        (block proper stands.inBody counted.2)
      exact ((opened.append arms).append last).append
        (@Laid.closing _ _ _ stands [_] (by simp))
  | .switch pos selector alternatives none, counted => by
      rw [Naming.Names.statement, JavaScript.statement]
      have opened := Laid.opening stands
        (front_switch.append (fragment_expr proper selector).toInline).header
      obtain ⟨finished, labels, arms⟩ := cases proper stands counted [] (by simp)
      refine (opened.append arms).append (Laid.closing stands fun label mem => ?_)
      rw [labels label mem]
      exact Nat.lt_succ_self depth
  | .returns pos (some value), _ => by
      have word : Fragment "return " := .of_plain (by decide) (by decide)
      exact Laid.semicolon stands (word.append (fragment_expr proper value).toInline)
  | .returns pos none, _ => .plain stands (.of_plain (by decide) (by decide)) rfl
  | .print pos argument, _ => by
      rw [Naming.Names.statement, JavaScript.statement]
      have front : Front "console.log(" :=
        ⟨fun _ => ⟨rfl, by decide⟩, ⟨'c', _, rfl, by decide, by decide⟩⟩
      exact .plain stands (front.append (fragment_expr proper argument).toInline).fragment
        (getLast?_append rfl)
  | .breakLoop pos, _ => .plain stands (.of_plain (by decide) (by decide)) rfl
  | .continueLoop pos, _ => .plain stands (.of_plain (by decide) (by decide)) rfl
  | .expr pos e, _ => by
      rw [Naming.Names.statement, JavaScript.statement]
      exact Laid.semicolon stands (fragment_expr proper e)

theorem statements (proper : names.Proper) {margin : Margin} {depth : Nat} {bodies : List Row}
    (stands : Stands margin depth bodies) : ∀ {body : List Statement},
    (∀ n ∈ Branches.statements body, 0 < n) →
    Settled margin depth bodies (JavaScript.statements margin (names.statements body))
  | [], _ => .nil
  | first :: others, counted => by
      rw [Naming.Names.statements, JavaScript.statements]
      rw [Branches.statements, List.forall_mem_append] at counted
      exact (statement proper stands counted.1).append (statements proper stands counted.2)

theorem block (proper : names.Proper) {margin : Margin} {depth : Nat} {bodies : List Row}
    (stands : Stands margin depth bodies) : ∀ {body : Block},
    (∀ n ∈ Branches.block body, 0 < n) →
    Settled margin depth bodies (JavaScript.block margin (names.block body))
  | .mk pos body, counted => by
      rw [Naming.Names.block, JavaScript.block]
      exact statements proper stands counted

theorem methods (proper : names.Proper) {margin : Margin} {depth : Nat} {bodies : List Row}
    (stands : Stands margin depth bodies) : ∀ {members : List Function},
    (∀ n ∈ Branches.functions members, 0 < n) →
    Settled margin depth bodies (JavaScript.methods margin (names.methods members))
  | [], _ => .nil
  | .mk pos name params body :: others, counted => by
      rw [Naming.Names.methods, JavaScript.methods, JavaScript.function]
      rw [Branches.functions, Branches.function, List.forall_mem_append] at counted
      have front : Fragment ("" ++ (names.ofMethod name).name) := by
        rw [String.empty_append]
        exact fragment_of_usable (proper.field name.name)
      have header := ((Front.of_fragment front).append (inline_params proper params)).header
      exact (Laid.block stands header (block proper stands.deeper counted.1)).append
        (methods proper stands counted.2)

theorem constructor (proper : names.Proper) {margin : Margin} {depth : Nat} {bodies : List Row}
    (stands : Stands margin depth bodies) : ∀ {initialiser : Constructor},
    (∀ n ∈ Branches.constructor initialiser, 0 < n) →
    Settled margin depth bodies (JavaScript.constructor margin (names.constructor initialiser))
  | .mk pos params body, counted => by
      rw [Naming.Names.constructor, JavaScript.constructor]
      have front : Front "constructor(" :=
        ⟨fun _ => ⟨rfl, by decide⟩, ⟨'c', _, rfl, by decide, by decide⟩⟩
      exact Laid.block stands (front.append (inline_params proper params)).header
        (block proper stands.deeper counted)

/-- The further alternatives of an `if` stand inside the block of the first one. -/
theorem elseIfs (proper : names.Proper) {margin : Margin} {depth : Nat} {bodies : List Row}
    (stands : Stands margin depth bodies) : ∀ {alternatives : List Arm},
    (∀ n ∈ Branches.arms alternatives, 0 < n) →
    Laid margin.width (JavaScript.ifArms margin "\x7d else if (" (names.arms alternatives))
      (.within (depth + 1) bodies) (.within (depth + 1) bodies)
  | [], _ => .nil
  | .mk pos test body :: others, counted => by
      rw [Naming.Names.arms, JavaScript.ifArms, JavaScript.ifArm]
      rw [Branches.arms, Branches.arm, List.forall_mem_append] at counted
      have turn : Turn ("\x7d else if (" ++ JavaScript.expr (names.expr test) ++ ") \x7b") :=
        .of_front (fun _ => ⟨rfl, by decide⟩) ⟨_, rfl⟩ (fragment_expr proper test).toInline
      have turned := Laid.turning stands turn
      exact (turned.append (block proper stands.deeper counted.1)).append
        (elseIfs proper stands counted.2)

/-- The cases of a switch leave the body of the last label open. -/
theorem cases (proper : names.Proper) {margin : Margin} {depth : Nat} {bodies : List Row}
    (stands : Stands margin depth bodies) : ∀ {alternatives : List Arm},
    (∀ n ∈ Branches.arms alternatives, 0 < n) →
    ∀ finished : List Row, (∀ label ∈ finished, label = ⟨depth + 1, true⟩) →
    ∃ finished', (∀ label ∈ finished', label = ⟨depth + 1, true⟩) ∧
      Laid margin.width (JavaScript.switchArms margin.deeper (names.arms alternatives))
        (.within (depth + 1) (finished ++ bodies)) (.within (depth + 1) (finished' ++ bodies))
  | [], _, finished, labels => ⟨finished, labels, .nil⟩
  | .mk pos test body :: others, counted, finished, labels => by
      rw [Naming.Names.arms, JavaScript.switchArms, JavaScript.switchArm]
      rw [Branches.arms, Branches.arm, List.forall_mem_append] at counted
      have labelled := Laid.label stands labels (fragment_case (fragment_expr proper test).toInline)
        (isLabel_case _ _)
      -- The next label finds the body of this one open, and nothing else inside the switch.
      have inside := block proper stands.inBody counted.1
      obtain ⟨finished', labels', rest⟩ :=
        cases proper stands counted.2 [⟨depth + 1, true⟩] (by simp)
      exact ⟨finished', labels', (labelled.append inside).append rest⟩

end

end Settled

end

end Qalam.Margins

namespace Qalam

open Margins

/-- The lines of a program are laid by their depth, from nothing open to nothing open. -/
theorem Program.javaScriptLines_laid {program : Program}
    (counted : ∀ n ∈ Branches.statements program.statements, 0 < n) (oracle : Naming.Oracle)
    (indent : Nat) :
    Laid indent ((program.rename oracle).javaScriptLines indent) .start .start := by
  obtain ⟨names, proper, renamed⟩ := Program.rename_eq_substitution program oracle
  have outermost : Stands ⟨indent, 0⟩ 0 [] := ⟨rfl, by simp⟩
  rw [renamed]
  exact Settled.statements proper outermost counted

/-- The text of a program that was read, bound or not, has all brackets properly nested and closed.
Its lines are those that were written, since none of them has a line feed in it. And every line
begins with the spaces of as many levels as there are open braces and bodies of cases around it. -/
theorem Program.generate_laidOut {tokens : List Token} {program tree : Program}
    (parsed : Program.ofTokens tokens = .ok program)
    (either : tree = program ∨ ∃ bound, program.bind = .ok bound ∧ tree = bound.program)
    (oracle : Naming.Oracle) (indent : Nat) :
    Brackets.WellNested (tree.generate oracle indent) ∧
      linesOf (tree.generate oracle indent) = (tree.rename oracle).javaScriptLines indent ∧
      (∀ line ∈ (tree.rename oracle).javaScriptLines indent, '\n' ∉ line.toList) ∧
      ∀ before line later,
        (tree.rename oracle).javaScriptLines indent = before ++ line :: later →
        ∃ gauge, Gauge.after? before = some gauge ∧
          indentation line = indent * (gauge.braces line + (gauge.enclosing line).length) := by
  have counted : ∀ n ∈ Branches.statements tree.statements, 0 < n := by
    rcases either with rfl | ⟨bound, binds, rfl⟩
    · exact Program.branches_of_ofTokens parsed
    · exact Program.branches_of_bind parsed binds
  have laid := Program.javaScriptLines_laid counted oracle indent
  exact ⟨laid.reads, laid.linesOf_intercalate, laid.unbroken,
    fun before line later split => laid.indentation split⟩

/-- The tokens of `switch (1) \x7b case 1: print("\x7d\n"); default: print("("); \x7d`. -/
def bracketTokens : List Token :=
  [⟨.keyword .switchKw, ⟨1, 1⟩⟩, ⟨.symbol .lparen, ⟨1, 2⟩⟩, ⟨.int 1, ⟨1, 3⟩⟩,
    ⟨.symbol .rparen, ⟨1, 4⟩⟩, ⟨.symbol .lbrace, ⟨1, 5⟩⟩, ⟨.keyword .caseKw, ⟨2, 1⟩⟩,
    ⟨.int 1, ⟨2, 2⟩⟩, ⟨.symbol .colon, ⟨2, 3⟩⟩, ⟨.keyword .printKw, ⟨3, 1⟩⟩,
    ⟨.symbol .lparen, ⟨3, 2⟩⟩, ⟨.str "\x7d\n", ⟨3, 3⟩⟩, ⟨.symbol .rparen, ⟨3, 4⟩⟩,
    ⟨.symbol .semi, ⟨3, 5⟩⟩, ⟨.keyword .defaultKw, ⟨4, 1⟩⟩, ⟨.symbol .colon, ⟨4, 2⟩⟩,
    ⟨.keyword .printKw, ⟨5, 1⟩⟩, ⟨.symbol .lparen, ⟨5, 2⟩⟩, ⟨.str "(", ⟨5, 3⟩⟩,
    ⟨.symbol .rparen, ⟨5, 4⟩⟩, ⟨.symbol .semi, ⟨5, 5⟩⟩, ⟨.symbol .rbrace, ⟨6, 1⟩⟩,
    ⟨.eof, ⟨6, 2⟩⟩]

/-- A switch that prints strings with brackets and a line feed in them. -/
def bracketProgram (tag : Tag → Option Tag) : Program :=
  ⟨[.switch ⟨1, 1⟩ (.literal ⟨⟨1, 3⟩, tag .int⟩ (.int 1))
    [.mk ⟨2, 1⟩ (.literal ⟨⟨2, 2⟩, tag .int⟩ (.int 1)) (.mk ⟨2, 1⟩
      [.print ⟨3, 1⟩ (.literal ⟨⟨3, 3⟩, tag .string⟩ (.str "\x7d\n"))])]
    (some (.mk ⟨4, 1⟩ [.print ⟨5, 1⟩ (.literal ⟨⟨5, 3⟩, tag .string⟩ (.str "("))]))]⟩

theorem bracketProgram_parsed :
    Program.ofTokens bracketTokens = .ok (bracketProgram fun _ => none) := rfl

theorem bracketProgram_binds :
    (bracketProgram fun _ => none).bind = .ok ⟨bracketProgram some, .empty⟩ := rfl

theorem Program.generate_laidOut_switch :
    Brackets.WellNested ((bracketProgram some).generate .silent 2) ∧
      linesOf ((bracketProgram some).generate .silent 2) =
        ((bracketProgram some).rename .silent).javaScriptLines 2 ∧
      (∀ line ∈ ((bracketProgram some).rename .silent).javaScriptLines 2, '\n' ∉ line.toList) ∧
      ∀ before line later,
        ((bracketProgram some).rename .silent).javaScriptLines 2 = before ++ line :: later →
        ∃ gauge, Gauge.after? before = some gauge ∧
          indentation line = 2 * (gauge.braces line + (gauge.enclosing line).length) :=
  Program.generate_laidOut bracketProgram_parsed (.inr ⟨_, bracketProgram_binds, rfl⟩) .silent 2

example : (bracketProgram some).generate .silent 2 =
    "switch (1) \x7b\n  case 1:\n    console.log(\"\x7d\\n\");\n" ++
      "  default:\n    console.log(\"(\");\n\x7d" := by
  decide +kernel

example : (Gauge.after? ["switch (1) \x7b", "  case 1:", "    break;", "  default:"]).map
    (fun gauge => (gauge.braces "    break;", (gauge.enclosing "    break;").length,
      gauge.braces "\x7d", (gauge.enclosing "\x7d").length)) = some (1, 1, 0, 0) := by
  decide +kernel

end Qalam
