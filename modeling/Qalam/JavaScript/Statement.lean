/-
# Programs as JavaScript

A statement is written as one or more lines. The lines of a block stand one level deeper than
the line that opens it, and the cases of a switch one level deeper than the switch. The default
case is always written last.
-/

import Qalam.JavaScript.Expression

namespace Qalam.JavaScript

/-- How far the lines of a statement stand to the right: the spaces of one level and the number
of levels. -/
structure Margin where
  width : Nat
  level : Nat

/-- The margin one level deeper. -/
def Margin.deeper (margin : Margin) : Margin := { margin with level := margin.level + 1 }

/-- A line behind a margin. -/
def Margin.line (margin : Margin) (text : String) : String :=
  String.ofList (List.replicate (margin.width * margin.level) ' ') ++ text

/-- The word that begins a declaration. -/
def declarationWord (constant : Bool) : String := if constant then "const" else "let"

/-- The value of a declaration; a missing one is spelled out. -/
def initialValue : Option Expr → String
  | some e => expr e
  | none => "undefined"

/-- One of several declared names with its value. -/
def declarator (entry : Binding × Option Expr) : String :=
  entry.1.name ++ " = " ++ initialValue entry.2

/-- The declaration of one name. Only a variable can do without a value. -/
def declaration (constant : Bool) (name : Binding) (init : Option Expr) : String :=
  if init.isNone && !constant then "let " ++ name.name ++ ";"
  else declarationWord constant ++ " " ++ declarator (name, init) ++ ";"

/-- The names of parameters. -/
def params (params : List Parameter) : String :=
  ", ".intercalate (params.map Parameter.name)

mutual

/-- The lines of a statement. -/
def statement (margin : Margin) : Statement → List String
  | .declare _ constant name init => [margin.line (declaration constant name init)]
  | .declareAll _ constant entries =>
    [margin.line (declarationWord constant ++ " " ++ ", ".intercalate (entries.map declarator) ++
      ";")]
  | .assign _ target value => [margin.line (expr target ++ " = " ++ expr value ++ ";")]
  | .tryCatch _ body name handler =>
    margin.line "try \x7b" :: block margin.deeper body ++
      margin.line ("\x7d catch (" ++ name.name ++ ") \x7b") :: block margin.deeper handler ++
      [margin.line "\x7d"]
  | .classDef _ name (some initialiser) _ members =>
    margin.line ("class " ++ name.name ++ " \x7b") :: constructor margin.deeper initialiser ++
      methods margin.deeper members ++ [margin.line "\x7d"]
  | .classDef _ name none _ members =>
    margin.line ("class " ++ name.name ++ " \x7b") :: methods margin.deeper members ++
      [margin.line "\x7d"]
  | .function declared => function margin "function " declared
  | .ifElse _ alternatives (some otherwise) =>
    ifArms margin "if (" alternatives ++ margin.line "\x7d else \x7b" ::
      block margin.deeper otherwise ++ [margin.line "\x7d"]
  | .ifElse _ alternatives none => ifArms margin "if (" alternatives ++ [margin.line "\x7d"]
  | .whileLoop _ condition body =>
    margin.line ("while (" ++ expr condition ++ ") \x7b") :: block margin.deeper body ++
      [margin.line "\x7d"]
  | .forLoop _ name init condition step body =>
    margin.line ("for (let " ++ name.name ++ " = " ++ expr init ++ "; " ++ expr condition ++
      "; " ++ expr step ++ ") \x7b") :: block margin.deeper body ++ [margin.line "\x7d"]
  | .forOf _ name iterable body =>
    margin.line ("for (let " ++ name.name ++ " of " ++ expr iterable ++ ") \x7b") ::
      block margin.deeper body ++ [margin.line "\x7d"]
  | .switch _ selector alternatives (some otherwise) =>
    margin.line ("switch (" ++ expr selector ++ ") \x7b") ::
      switchArms margin.deeper alternatives ++ margin.deeper.line "default:" ::
      block margin.deeper.deeper otherwise ++ [margin.line "\x7d"]
  | .switch _ selector alternatives none =>
    margin.line ("switch (" ++ expr selector ++ ") \x7b") ::
      switchArms margin.deeper alternatives ++ [margin.line "\x7d"]
  | .returns _ (some value) => [margin.line ("return " ++ expr value ++ ";")]
  | .returns _ none => [margin.line "return;"]
  | .print _ argument => [margin.line ("console.log(" ++ expr argument ++ ");")]
  | .breakLoop _ => [margin.line "break;"]
  | .continueLoop _ => [margin.line "continue;"]
  | .expr _ e => [margin.line (expr e ++ ";")]

/-- The lines of several statements. -/
def statements (margin : Margin) : List Statement → List String
  | [] => []
  | first :: others => statement margin first ++ statements margin others

/-- The lines of the statements of a block. -/
def block (margin : Margin) : Block → List String
  | .mk _ body => statements margin body

/-- The lines of a function behind an opening word; a method has none. -/
def function (margin : Margin) (opening : String) : Function → List String
  | .mk _ name parameters body =>
    margin.line (opening ++ name.name ++ "(" ++ params parameters ++ ") \x7b") ::
      block margin.deeper body ++ [margin.line "\x7d"]

/-- The lines of the methods of a class. -/
def methods (margin : Margin) : List Function → List String
  | [] => []
  | first :: others => function margin "" first ++ methods margin others

/-- The lines of a constructor. -/
def constructor (margin : Margin) : Constructor → List String
  | .mk _ parameters body =>
    margin.line ("constructor(" ++ params parameters ++ ") \x7b") :: block margin.deeper body ++
      [margin.line "\x7d"]

/-- The lines of the alternatives of an `if`, without the closing line. -/
def ifArms (margin : Margin) (opening : String) : List Arm → List String
  | [] => []
  | first :: others => ifArm margin opening first ++ ifArms margin "\x7d else if (" others

/-- The lines of one alternative of an `if`. -/
def ifArm (margin : Margin) (opening : String) : Arm → List String
  | .mk _ condition body =>
    margin.line (opening ++ expr condition ++ ") \x7b") :: block margin.deeper body

/-- The lines of the cases of a switch. -/
def switchArms (margin : Margin) : List Arm → List String
  | [] => []
  | first :: others => switchArm margin first ++ switchArms margin others

/-- The lines of one case of a switch. -/
def switchArm (margin : Margin) : Arm → List String
  | .mk _ test body =>
    margin.line ("case " ++ expr test ++ ":") :: block margin.deeper body

end

end Qalam.JavaScript

namespace Qalam

/-- The lines of a program as JavaScript, with the spaces of one level of blocks. -/
def Program.javaScriptLines (program : Program) (indent : Nat) : List String :=
  JavaScript.statements ⟨indent, 0⟩ program.statements

/-- The text of a program as JavaScript. -/
def Program.javaScript (program : Program) (indent : Nat) : String :=
  "\n".intercalate (program.javaScriptLines indent)

end Qalam
