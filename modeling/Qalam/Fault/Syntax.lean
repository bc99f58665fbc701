/-
# Faults of form

The causes for which a text is refused before its meaning is looked at, and their wording.
The first group concerns single tokens, the second their arrangement. A fault of arrangement
that names what was wanted also names the token found in its place.
-/

import Qalam.Token

namespace Qalam

/-- What the grammar allows at a place where something else was found. -/
inductive Wanted
  | token (kind : TokenKind)
  | identifier
  | expression
  | caseLabel
  | classMember
  | constructorCall
  deriving DecidableEq

/-- The wording for what was wanted. -/
def Wanted.text : Wanted → String
  | token kind => "expected " ++ kind.text
  | identifier => "expected identifier"
  | expression => "expected expression"
  | caseLabel => "expected 'حالة' or 'خلاف ذلك'"
  | classMember => "expected 'منشئ' or 'دالة' in class body"
  | constructorCall => "'جديد' must follow a constructor call"

/-- The ways to change the value of an expression, each of which needs a place to store it. -/
inductive Mutation
  | assignment
  | compoundAssignment
  | increment
  deriving DecidableEq

/-- How a message names a mutation. -/
def Mutation.text : Mutation → String
  | assignment => "assignment"
  | compoundAssignment => "compound assignment"
  | increment => "increment"

/-- The causes for which a text has no syntax tree. -/
inductive SyntaxFault
  | unexpectedCharacter (c : Char)
  | halfOperator (c : Char)
  | unterminatedString
  | lineFeedInString
  | invalidEscape (c : Char)
  | unicodeEscapeWithoutBrace
  | invalidUnicodeEscape
  | invalidCodePoint (digits : String)
  | expected (wanted : Wanted) (found : TokenKind)
  | repeatedDefault
  | repeatedConstructor
  | noFieldBeforeThis
  | invalidTarget (mutation : Mutation)
  deriving DecidableEq

/-- The message of a fault. -/
def SyntaxFault.message : SyntaxFault → String
  | unexpectedCharacter c => "unexpected character '" ++ String.singleton c ++ "'"
  | halfOperator c => "expected '" ++ String.ofList [c, c] ++ "'"
  | unterminatedString => "unterminated string"
  | lineFeedInString => "unterminated string (newline in string)"
  | invalidEscape c => "invalid escape sequence '\\" ++ String.singleton c ++ "'"
  | unicodeEscapeWithoutBrace => "expected '\x7b' after '\\u'"
  | invalidUnicodeEscape => "invalid unicode escape"
  | invalidCodePoint digits => "invalid code point '" ++ digits ++ "'"
  | expected wanted found => wanted.text ++ ", found " ++ found.text
  | repeatedDefault => "switch has more than one default"
  | repeatedConstructor => "class has more than one constructor"
  | noFieldBeforeThis => "expected a field name before 'هذا'"
  | invalidTarget mutation => "invalid " ++ mutation.text ++ " target"

/-- A fault of form and where it was found. -/
structure SyntaxError where
  fault : SyntaxFault
  pos : Position
  deriving DecidableEq

end Qalam
