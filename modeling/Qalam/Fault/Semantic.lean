/-
# Faults of meaning

The causes for which a well-formed program is refused: names that do not resolve or are
declared twice, constants that would change, values of the wrong kind, and statements outside
the construct they belong to.
-/

import Qalam.Position
import Qalam.Tag

namespace Qalam

/-- The causes for which a program cannot be bound. -/
inductive SemanticFault
  | alreadyDeclared (name : String)
  | notDeclared (name : String)
  | assignToConstant (name : String)
  | typeMismatch (expected : Requirement) (found : Tag)
  | notCallable (found : Tag)
  | notAClass (found : Tag)
  | duplicateKeys (key : String)
  | loopControlOutsideLoop
  | returnOutsideFunction
  | thisOutsideClass
  deriving DecidableEq

/-- The message of a fault. -/
def SemanticFault.message : SemanticFault → String
  | alreadyDeclared name => "identifier '" ++ name ++ "' already declared"
  | notDeclared name => "identifier '" ++ name ++ "' not declared"
  | assignToConstant name => "cannot assign to constant '" ++ name ++ "'"
  | typeMismatch expected found => "expected " ++ expected.text ++ ", found " ++ found.text
  | notCallable found => "call of non-function (found " ++ found.text ++ ")"
  | notAClass found => "expected a class, found " ++ found.text
  | duplicateKeys key => "object keys must be distinct (duplicate key " ++ key ++ ")"
  | loopControlOutsideLoop => "break and continue can only appear in a loop"
  | returnOutsideFunction => "return can only appear in a function"
  | thisOutsideClass => "this can only appear in a class"

/-- A fault of meaning and where it was found. -/
structure SemanticError where
  fault : SemanticFault
  pos : Position
  deriving DecidableEq

end Qalam
