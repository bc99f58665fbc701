/-
# Type tags

Every expression of a bound program carries one of ten tags. The tags form a flat order:
they are compared by equality alone, and `any` is the only one that every requirement
accepts. A requirement is a set of tags together with the words that name it in a message.
-/

namespace Qalam

/-- What is known about the value of an expression. Values that may be missing have the tag
`none`. -/
inductive Tag
  | boolean | int | number | string | function | array | object | classRef | none | any
  deriving DecidableEq, Inhabited

namespace Tag

/-- The name of a tag in listings and messages. -/
def text : Tag → String
  | boolean => "Boolean"
  | int => "Int"
  | number => "Number"
  | string => "String"
  | function => "Function"
  | array => "Array"
  | object => "Object"
  | classRef => "Class"
  | none => "None"
  | any => "Any"

/-- Every tag once. -/
def all : List Tag :=
  [boolean, int, number, string, function, array, object, classRef, none, any]

/-- The tag with a given name. -/
def ofText? (name : String) : Option Tag :=
  all.find? (·.text = name)

/-- Tags that turn a sum into a string. -/
def isTextual : Tag → Bool
  | string | array | object | function => true
  | _ => false

/-- Tags that make a sum a number when nothing textual is in it. -/
def isCountable : Tag → Bool
  | int | number | boolean | none => true
  | _ => false

/-- The tag of a sum, or of a choice between several values. -/
def widen (tags : List Tag) : Tag :=
  if tags.any isTextual then string
  else if tags.any isCountable then number
  else any

/-- Tags of values that can be calculated with. -/
def isNumeric : Tag → Bool
  | int | number | any => true
  | _ => false

/-- Tags of values that can be tested. -/
def isBoolean : Tag → Bool
  | boolean | any => true
  | _ => false

/-- Tags of values that can be the index of an array. -/
def isInteger : Tag → Bool
  | int | any => true
  | _ => false

/-- Tags of values that can be indexed. -/
def isArrayOrObject : Tag → Bool
  | array | object | any => true
  | _ => false

/-- Tags of values that can have fields. -/
def isObject : Tag → Bool
  | object | any => true
  | _ => false

/-- Tags of values that a loop can run over. -/
def isIterable : Tag → Bool
  | array | object | string | any => true
  | _ => false

/-- Tags of values that can be called. -/
def isCallable : Tag → Bool
  | function | any => true
  | _ => false

/-- Tags of values that objects can be made from. -/
def isClassReference : Tag → Bool
  | classRef | any => true
  | _ => false

end Tag

/-- What the context of an expression demands of its tag. -/
inductive Requirement
  | boolean | number | integer | iterable | arrayOrObject | object
  deriving DecidableEq

namespace Requirement

/-- Whether a tag meets a requirement. -/
def accepts : Requirement → Tag → Bool
  | boolean => Tag.isBoolean
  | number => Tag.isNumeric
  | integer => Tag.isInteger
  | iterable => Tag.isIterable
  | arrayOrObject => Tag.isArrayOrObject
  | object => Tag.isObject

/-- The words that name a requirement. -/
def text : Requirement → String
  | boolean => "a boolean"
  | number => "a number"
  | integer => "an integer"
  | iterable => "an iterable"
  | arrayOrObject => "an array or object"
  | object => "an object"

end Requirement

end Qalam
