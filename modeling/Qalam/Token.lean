/-
# Tokens

A token is a keyword, a symbol, a literal, an identifier or the end of the text, together
with the position where it begins. Keywords and symbols have one canonical spelling each; a
few of them can be spelled in a second way, which the spelling tables list.
-/

import Qalam.Decimal.Layout
import Qalam.Position
import Qalam.Text.Quoted

namespace Qalam

/-- The reserved words of the language, named by what they introduce. -/
inductive Keyword
  | letKw | constKw | trueKw | falseKw | breakKw | continueKw | caseKw | defaultKw
  | elseKw | elseIfKw | forKw | functionKw | ifKw | returnKw | switchKw | whileKw
  | classKw | constructorKw | thisKw | newKw | printKw | typeOfKw | undefinedKw | nullKw
  | tryKw | catchKw
  deriving DecidableEq, Inhabited

/-- The canonical spelling of a keyword. The default label is written as two words. -/
def Keyword.spelling : Keyword → String
  | letKw => "دع"
  | constKw => "ثابت"
  | trueKw => "صح"
  | falseKw => "خطا"
  | breakKw => "قف"
  | continueKw => "استمر"
  | caseKw => "حالة"
  | defaultKw => "خلاف ذلك"
  | elseKw => "آخر"
  | elseIfKw => "ولو"
  | forKw => "ل"
  | functionKw => "دالة"
  | ifKw => "لو"
  | returnKw => "عد"
  | switchKw => "تبديل"
  | whileKw => "بينما"
  | classKw => "صنف"
  | constructorKw => "منشئ"
  | thisKw => "هذا"
  | newKw => "جديد"
  | printKw => "طبع"
  | typeOfKw => "نوع"
  | undefinedKw => "مجهول"
  | nullKw => "نل"
  | tryKw => "حاول"
  | catchKw => "امسك"

/-- Keywords that are written as one word. -/
def Keyword.oneWord : List Keyword :=
  [letKw, constKw, trueKw, falseKw, breakKw, continueKw, caseKw, elseKw, elseIfKw, forKw,
    functionKw, ifKw, returnKw, switchKw, whileKw, classKw, constructorKw, thisKw, newKw,
    printKw, typeOfKw, undefinedKw, nullKw, tryKw, catchKw]

/-- All one-word spellings. A declaration can also begin with a second, longer word. -/
def Keyword.words : List (String × Keyword) :=
  ("متغير", letKw) :: oneWord.map fun keyword => (keyword.spelling, keyword)

/-- The keyword spelled by a single word. -/
def Keyword.ofWord? (word : String) : Option Keyword :=
  words.lookup word

/-- Operators and delimiters. -/
inductive Symbol
  | plus | minus | star | starStar | slash | percent
  | eqEq | notEq | lt | le | gt | ge | andAnd | orOr | bang
  | eq | plusEq | minusEq | plusPlus | minusMinus | dot | question
  | lparen | rparen | lbrace | rbrace | lbracket | rbracket | comma | semi | colon
  deriving DecidableEq, Inhabited

/-- The canonical spelling of a symbol. -/
def Symbol.spelling : Symbol → String
  | plus => "+"
  | minus => "-"
  | star => "*"
  | starStar => "**"
  | slash => "/"
  | percent => "%"
  | eqEq => "=="
  | notEq => "!="
  | lt => "<"
  | le => "<="
  | gt => ">"
  | ge => ">="
  | andAnd => "&&"
  | orOr => "||"
  | bang => "!"
  | eq => "="
  | plusEq => "+="
  | minusEq => "-="
  | plusPlus => "++"
  | minusMinus => "--"
  | dot => "."
  | question => "؟"
  | lparen => "("
  | rparen => ")"
  | lbrace => "\x7b"
  | rbrace => "\x7d"
  | lbracket => "["
  | rbracket => "]"
  | comma => "،"
  | semi => "؛"
  | colon => ":"

/-- What a token stands for. -/
inductive TokenKind
  | keyword (word : Keyword)
  | symbol (sign : Symbol)
  | int (value : Nat)
  | float (value : Binary64)
  | str (value : String)
  | ident (name : String)
  | eof
  deriving DecidableEq, Inhabited

/-- How a message names a token. -/
def TokenKind.text : TokenKind → String
  | keyword word => "'" ++ word.spelling ++ "'"
  | symbol sign => "'" ++ sign.spelling ++ "'"
  | int value => "number " ++ Decimal.digitText value
  | float value => "number " ++ value.text
  | str value => "string " ++ Text.display value
  | ident name => "identifier '" ++ name ++ "'"
  | eof => "end of file"

/-- A token with the position of its first character. -/
structure Token where
  kind : TokenKind
  pos : Position
  deriving DecidableEq, Inhabited

end Qalam
