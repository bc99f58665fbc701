/-
# The rules for expressions

What the language asks of one expression at one place: which tag follows from the tags of its
operands, which contracts its operands have to keep, and which operand it changes. A place is
given by a context. A bound expression that keeps all rules is accepted there; an expression
that breaks one of them is refused with a fault that says which.
-/

import Qalam.Analysis.Statement
import Qalam.Proofs.Structure.Written

namespace Qalam

/-- The tag of a binary expression, from the tags of its operands. -/
def BinaryOp.tag (op : BinaryOp) (left right : Tag) : Tag :=
  match op with
  | .add | .addAssign => .widen [left, right]
  | .sub | .mul | .div | .mod | .pow | .subAssign => .number
  | .eq | .ne | .lt | .le | .gt | .ge | .and | .or => .boolean

/-- Whether both operands of an operator have to be numbers. -/
def BinaryOp.isArithmetic : BinaryOp → Bool
  | sub | mul | div | mod | pow | subAssign => true
  | _ => false

/-- The tag of a unary expression, from the tag of its operand. -/
def UnaryOp.tag (op : UnaryOp) (operand : Tag) : Tag :=
  match op with
  | .not => .boolean
  | .neg | .increment | .decrement => operand

/-- What a unary operator demands of its operand. -/
def UnaryOp.requirement : UnaryOp → Requirement
  | not => .boolean
  | neg | increment | decrement => .number

namespace Checking

open Analysis (Context)

/-- What the place of an expression demands of its tag. -/
inductive Contract
  | meets (requirement : Requirement)
  | callable
  | classReference
  deriving DecidableEq

namespace Contract

/-- Whether a tag keeps a contract. -/
def accepts : Contract → Tag → Bool
  | meets requirement => requirement.accepts
  | callable => Tag.isCallable
  | classReference => Tag.isClassReference

/-- The fault of an expression whose tag breaks a contract. -/
def fault : Contract → Tag → SemanticFault
  | meets requirement, found => .typeMismatch requirement found
  | callable, found => .notCallable found
  | classReference, found => .notAClass found

/-- A fault tells which contract was broken, and by which tag. -/
theorem fault_inj {first second : Contract} {found other : Tag} :
    first.fault found = second.fault other ↔ first = second ∧ found = other := by
  cases first <;> cases second <;> simp [fault]

end Contract

end Checking

open Checking (Contract)

/-- The position of an entry. -/
def Pair.pos : Pair → Position
  | .mk pos _ _ _ => pos

/-- The plain name that is the key of an entry. -/
def Pair.plainKey? : Pair → Option Field
  | .mk _ (.ident note name _) _ _ => some ⟨name, note⟩
  | _ => none

namespace Expr

/-- The tag that an expression has because of its form and the tags of its operands. The tag of
a name comes from elsewhere. -/
def ruleTag : Expr → Option Tag
  | literal _ value => some value.tag
  | ident .. => none
  | call .. | this .. | member .. | property .. => some .any
  | new .. | object .. => some .object
  | typeOf .. => some .string
  | array .. => some .array
  | ternary _ _ yes no => some (.widen [yes.tag, no.tag])
  | binary _ op left right => some (op.tag left.tag right.tag)
  | unary _ op _ operand => some (op.tag operand.tag)

/-- The operands of an expression with the contracts that they have to keep. An index has to be
an integer only in an array, so the tag of an indexed expression has to be known. -/
def contracts (tagOf : Expr → Tag) : Expr → List (Contract × Expr)
  | call _ callee _ => [(.callable, callee)]
  | new _ target _ => [(.classReference, target)]
  | ternary _ condition _ _ => [(.meets .boolean, condition)]
  | binary _ op left right =>
    if op.isArithmetic then [(.meets .number, left), (.meets .number, right)] else []
  | unary _ op _ operand => [(.meets op.requirement, operand)]
  | member _ base index =>
    (.meets .arrayOrObject, base) ::
      if tagOf base = .array then [(.meets .integer, index)] else []
  | property _ base _ => [(.meets .object, base)]
  | _ => []

/-- The operand that an expression stores a new value in. -/
def stored? : Expr → Option Expr
  | binary _ op left _ => if op.isCompoundAssignment then some left else none
  | unary _ op _ operand => if op.isMutation then some operand else none
  | _ => none

/-- The names in an expression that belong to objects: fields, and plain keys. -/
def fields : Expr → List Field
  | this _ field | property _ _ field => [field]
  | object _ entries => entries.filterMap Pair.plainKey?
  | _ => []

end Expr

namespace Checking

open Analysis (Context)

/-- Analysis turns an expression into another one at a place, and leaves the place as it is. -/
def Evaluates (context : Context) (e bound : Expr) : Prop :=
  Analysis.expr e context = .ok (bound, context)

/-- The tag that analysis gives to an expression at a place. -/
def tagIn (context : Context) (e : Expr) : Tag :=
  match Analysis.expr e context with
  | .ok (bound, _) => bound.tag
  | .error _ => .any

/-- A bound expression is not the name of a constant. -/
def Mutable (context : Context) (bound : Expr) : Prop :=
  ∀ note name id entity, bound = .ident note name (some id) →
    context.entities.get? id = some entity → entity.isConstant = false

/-- A bound expression keeps the rules at a place, its operands being bound there as well. -/
structure Accepted (context : Context) (x : Expr) : Prop where
  tagged : ∀ tag, x.ruleTag = some tag → x.note.tag = some tag
  named : ∀ note name entity, x = .ident note name entity → ∃ id, entity = some id ∧
    context.scope.resolve? name = some id ∧
    note.tag = some (((context.entities.get? id).map Entity.tag).getD .any)
  contracts : ∀ contract y, (contract, y) ∈ x.contracts Expr.tag → contract.accepts y.tag = true
  stored : ∀ y, x.stored? = some y → Mutable context y
  fields : ∀ field ∈ x.fields, field.note.tag = some .any

/-- An expression breaks a rule at a place. Only the operands that the rule concerns are
evaluated. -/
inductive Refuses (context : Context) : Expr → SemanticError → Prop
  | undeclared {note : Note} {name : String} {entity : Option EntityId}
      (unknown : context.scope.resolve? name = none) :
      Refuses context (.ident note name entity) ⟨.notDeclared name, note.pos⟩
  | outsideClass {note : Note} {field : Field}
      (outside : context.scope.surroundings.inClass.isSome = false) :
      Refuses context (.this note field) ⟨.thisOutsideClass, note.pos⟩
  | contract {x y bound : Expr} {contract : Contract}
      (demanded : (contract, y) ∈ x.contracts (tagIn context))
      (evaluates : Evaluates context y bound) (breaks : contract.accepts bound.tag = false) :
      Refuses context x ⟨contract.fault bound.tag, y.pos⟩
  | constant {x y : Expr} {note : Note} {name : String} {id : EntityId} {entity : Entity}
      (stores : x.stored? = some y) (evaluates : Evaluates context y (.ident note name (some id)))
      (known : context.entities.get? id = some entity) (constant : entity.isConstant = true) :
      Refuses context x ⟨.assignToConstant entity.name, y.pos⟩
  | duplicate {note : Note} {before later : List Pair} {pos : Position} {first key value : Expr}
      {canonical : Option String} (earlier : first ∈ before.map Pair.key)
      (same : first.keyText = key.keyText) :
      Refuses context (.object note (before ++ .mk pos key value canonical :: later))
        ⟨.duplicateKeys key.keyText, pos⟩

/-- An accepted expression has a tag. -/
theorem Accepted.isSome_tag {context : Context} {x : Expr} (accepted : Accepted context x) :
    x.note.tag.isSome = true := by
  cases rule : x.ruleTag with
  | some tag => rw [accepted.tagged tag rule]; rfl
  | none =>
      cases x with
      | ident note name entity =>
          obtain ⟨id, -, -, known⟩ := accepted.named note name entity rfl
          rw [Expr.note, known]
          rfl
      | _ => cases rule

theorem tagIn_eq {context : Context} {e bound : Expr} (evaluates : Evaluates context e bound) :
    tagIn context e = bound.tag := by
  rw [tagIn, evaluates]

end Checking

end Qalam
