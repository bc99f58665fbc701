/-
# Scopes

A scope is a stack of frames that is never empty. A frame maps the names declared in it to
entities, in the order of declaration, and knows in which constructs it lies. A new frame lies
in whatever the frame below it lies in, adjusted by the construct that opens it. Names are
declared in the top frame and looked up from the top down.
-/

import Qalam.Entity

namespace Qalam

/-- The constructs around a frame. -/
structure Surroundings where
  inLoop : Bool
  inFunction : Option EntityId
  inClass : Option EntityId
  deriving DecidableEq

/-- The surroundings of a program. -/
def Surroundings.outermost : Surroundings := ⟨false, none, none⟩

/-- The names declared in one construct. -/
structure Frame where
  symbols : List (String × EntityId)
  surroundings : Surroundings
  deriving DecidableEq

/-- The entity of a name declared in this frame. -/
def Frame.get? (frame : Frame) (name : String) : Option EntityId :=
  frame.symbols.lookup name

/-- A stack of frames with the innermost one on top. -/
structure Scope where
  top : Frame
  below : List Frame
  deriving DecidableEq

namespace Scope

/-- The scope of a program before its first statement. -/
def root : Scope := ⟨⟨[], .outermost⟩, []⟩

/-- All frames, the innermost one first. -/
def frames (scope : Scope) : List Frame := scope.top :: scope.below

/-- The constructs around the current place. -/
def surroundings (scope : Scope) : Surroundings := scope.top.surroundings

/-- Open a frame with adjusted surroundings. -/
def enter (scope : Scope) (adjust : Surroundings → Surroundings) : Scope :=
  ⟨⟨[], adjust scope.surroundings⟩, scope.frames⟩

/-- Close the innermost frame. The outermost one stays. -/
def exit (scope : Scope) : Scope :=
  match scope.below with
  | [] => scope
  | frame :: below => ⟨frame, below⟩

/-- How many frames lie below the innermost one. -/
def depth (scope : Scope) : Nat := scope.below.length

/-- Declare a name in the innermost frame, unless it is declared there already. -/
def declare? (scope : Scope) (name : String) (entity : EntityId) : Option Scope :=
  match scope.top.get? name with
  | some _ => none
  | none =>
    let top := { scope.top with symbols := scope.top.symbols ++ [(name, entity)] }
    some ⟨top, scope.below⟩

/-- The entity of a name in the innermost frame that declares it. -/
def resolve? (scope : Scope) (name : String) : Option EntityId :=
  scope.frames.findSome? (·.get? name)

end Scope

end Qalam
