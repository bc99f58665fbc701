/-
# Reading JavaScript expressions

A sequence of tokens is a JavaScript expression in at most one way. To see this the tokens are
read from left to right, one token ahead deciding what comes next. Every derivation is found by
this reader, provided that what follows cannot go on with the expression, and a reader finds only
one thing.

The reader works with a bound on the depth of its calls; what matters is only what it finds once
the bound is large enough.
-/

import Mathlib.Order.Filter.AtTopBot.Basic
import Qalam.Proofs.EcmaScript.Grammar

namespace Qalam.EcmaScript

/-- What the reader can be asked for. A chain is continued behind its first operand, and `accessed`
is a base with its suffixes, of which calls may be excluded. -/
inductive Task
  | expression | commas (first : Tree) | assignment | conditional
  | tier (level : Nat) | operators (level : Nat) (first : Tree)
  | exponent | unary
  | accessed (calls : Bool) | suffixes (calls : Bool) (base : Tree) | base
  | items | entries

/-- The first token and what is behind it, if it is one of the given ones. -/
def headIn (ops : List Token) : List Token → Option (Token × List Token)
  | op :: rest => if op ∈ ops then some (op, rest) else none
  | [] => none

/-- Go on behind a token. -/
def skip (token : Token) (ts : List Token) : Option (List Token) := (headIn [token] ts).map Prod.snd

/-- The operators of a level. -/
def operatorsAt (level : Nat) : List Token := tiers[level]?.getD []

/-- The suffixes of member access, and of calls if these are allowed. -/
def suffixSigns (calls : Bool) : List Token :=
  if calls then [.sign "(", .sign "[", .sign "."] else [.sign "[", .sign "."]

/-- The tree of a single token. -/
def atom? : Token → Option Tree
  | .word spelling => some (if spelling ∈ constants then .constant spelling else .name spelling)
  | .number digits => some (.number digits)
  | .text value => some (.text value)
  | .sign _ => none

/-- One step of the reader, given the reader for what is inside. -/
def next (inner : Task → List Token → Option (Tree × List Token)) :
    Task → List Token → Option (Tree × List Token)
  | .expression, ts => do
    let (t, rest) ← inner .assignment ts
    inner (.commas t) rest
  | .commas first, ts =>
    match headIn [.sign ","] ts with
    | some (_, rest) => do
      let (t, rest) ← inner .assignment rest
      inner (.commas (.sequence first t)) rest
    | none => some (first, ts)
  | .assignment, ts => do
    let (t, rest) ← inner .conditional ts
    match headIn assignments rest with
    | some (op, rest) =>
      if t.isTarget then
        let (value, rest) ← inner .assignment rest
        return (.assign op t value, rest)
      else none
    | none => return (t, rest)
  | .conditional, ts => do
    let (t, rest) ← inner (.tier 0) ts
    match headIn [.sign "?"] rest with
    | some (_, rest) =>
      let (yes, rest) ← inner .assignment rest
      let rest ← skip (.sign ":") rest
      let (no, rest) ← inner .assignment rest
      return (.conditional t yes no, rest)
    | none => return (t, rest)
  | .tier level, ts => do
    let (t, rest) ← inner (if level < tiers.length then .tier (level + 1) else .exponent) ts
    inner (.operators level t) rest
  | .operators level first, ts =>
    match headIn (operatorsAt level) ts with
    | some (op, rest) => do
      let (second, rest) ← inner (.tier (level + 1)) rest
      inner (.operators level (.binary op first second)) rest
    | none => some (first, ts)
  | .exponent, ts => do
    let (t, rest) ← inner .unary ts
    match headIn [.sign "**"] rest with
    | some (op, rest) =>
      let (power, rest) ← inner .exponent rest
      return (.binary op t power, rest)
    | none => return (t, rest)
  | .unary, ts =>
    match headIn unaries ts with
    | some (op, rest) => do
      let (operand, rest) ← inner .unary rest
      return (.unary op operand, rest)
    | none =>
      match headIn updates ts with
      | some (op, rest) => do
        let (operand, rest) ← inner .unary rest
        return (.update op false operand, rest)
      | none => do
        let (t, rest) ← inner (.accessed true) ts
        match headIn updates rest with
        | some (op, rest) => return (.update op true t, rest)
        | none => return (t, rest)
  | .accessed calls, ts => do
    let (t, rest) ← inner .base ts
    inner (.suffixes calls t) rest
  | .suffixes calls base, ts =>
    match headIn (suffixSigns calls) ts with
    | some (op, rest) =>
      if op = .sign "(" then do
        let (items, rest) ← inner .items rest
        let rest ← skip (.sign ")") rest
        inner (.suffixes calls (.call base items)) rest
      else if op = .sign "[" then do
        let (key, rest) ← inner .expression rest
        let rest ← skip (.sign "]") rest
        inner (.suffixes calls (.index base key)) rest
      else match rest with
        | .word field :: rest => inner (.suffixes calls (.property base field)) rest
        | _ => none
    | none => some (base, ts)
  | .base, [] => none
  | .base, token :: ts =>
    if token = .word "new" then do
      let (target, rest) ← inner (.accessed false) ts
      match headIn [.sign "("] rest with
      | some (_, rest) =>
        let (items, rest) ← inner .items rest
        let rest ← skip (.sign ")") rest
        return (.new target items, rest)
      | none => return (.new target .nothing, rest)
    else if token = .sign "[" then do
      let (items, rest) ← inner .items ts
      let rest ← skip (.sign "]") rest
      return (.array items, rest)
    else if token = .sign "\x7b" then do
      let (entries, rest) ← inner .entries ts
      let rest ← skip (.sign "\x7d") rest
      return (.object entries, rest)
    else if token = .sign "(" then do
      let (t, rest) ← inner .expression ts
      let rest ← skip (.sign ")") rest
      return (t, rest)
    else do
      let t ← atom? token
      return (t, ts)
  | .items, ts =>
    match headIn [.sign ")", .sign "]"] ts with
    | some _ => some (.nothing, ts)
    | none => do
      let (t, rest) ← inner .assignment ts
      match headIn [.sign ","] rest with
      | some (_, rest) =>
        let (others, rest) ← inner .items rest
        return (.item t others, rest)
      | none => return (.item t .nothing, rest)
  | .entries, ts =>
    match headIn [.sign "\x7d"] ts with
    | some _ => some (.nothing, ts)
    | none => do
      let key ← ts.head?
      let rest ← skip (.sign ":") ts.tail
      let (value, rest) ← inner .assignment rest
      match headIn [.sign ","] rest with
      | some (_, rest) =>
        let (others, rest) ← inner .entries rest
        return (.entry key value others, rest)
      | none => return (.entry key value .nothing, rest)

/-- The reader with a bound on the depth of its calls. -/
def read : Nat → Task → List Token → Option (Tree × List Token)
  | 0 => fun _ _ => none
  | depth + 1 => next (read depth)

/-- What the reader finds once its bound is large enough. -/
def Finds (task : Task) (ts : List Token) (result : Tree × List Token) : Prop :=
  ∀ᶠ depth in Filter.atTop, read depth task ts = some result

theorem Finds.of_next {task : Task} {ts : List Token} {result : Tree × List Token}
    (finds : ∀ᶠ depth in Filter.atTop, next (read depth) task ts = some result) :
    Finds task ts result := by
  obtain ⟨bound, found⟩ := Filter.eventually_atTop.mp finds
  refine Filter.eventually_atTop.mpr ⟨bound + 1, fun depth large => ?_⟩
  obtain ⟨inner, rfl⟩ : ∃ inner, depth = inner + 1 := ⟨depth - 1, by omega⟩
  exact found inner (by omega)

/-- The reader finds one thing at most. -/
theorem Finds.unique {task : Task} {ts : List Token} {first second : Tree × List Token}
    (finds : Finds task ts first) (finds' : Finds task ts second) : first = second := by
  obtain ⟨depth, found, found'⟩ := (finds.and finds').exists
  rw [found] at found'
  exact Option.some.inj found'

/-! ## What may follow -/

/-- What is left does not begin with one of the given tokens. -/
def Stops (ops rest : List Token) : Prop := ∀ op ∈ rest.head?, op ∉ ops

theorem Stops.mono {small big rest : List Token} (stops : Stops big rest) (subset : small ⊆ big) :
    Stops small rest :=
  fun op head mem => stops op head (subset mem)

theorem stops_cons {ops rest : List Token} {op : Token} (free : op ∉ ops) :
    Stops ops (op :: rest) := by
  intro other head
  cases head
  exact free

@[simp]
theorem headIn_of_mem {ops rest : List Token} {op : Token} (mem : op ∈ ops) :
    headIn ops (op :: rest) = some (op, rest) := by
  simp [headIn, mem]

@[simp]
theorem headIn_of_stops {ops rest : List Token} (stops : Stops ops rest) :
    headIn ops rest = none := by
  cases rest with
  | nil => rfl
  | cons op rest => simp [headIn, stops op rfl]

@[simp]
theorem skip_cons {token : Token} {rest : List Token} : skip token (token :: rest) = some rest := by
  simp [skip]

/-! ## What each task finds -/

variable {ts rest : List Token} {t : Tree} {result : Tree × List Token}

theorem finds_expression (first : Finds .assignment ts (t, rest))
    (further : Finds (.commas t) rest result) : Finds .expression ts result := by
  refine Finds.of_next ?_
  filter_upwards [first, further] with depth found found'
  simp [next, found, found']

theorem finds_comma {second : Tree} {rest' : List Token}
    (found : Finds .assignment rest (second, rest'))
    (further : Finds (.commas (.sequence t second)) rest' result) :
    Finds (.commas t) (.sign "," :: rest) result := by
  refine Finds.of_next ?_
  filter_upwards [found, further] with depth found further
  simp [next, found, further]

theorem finds_noComma (stops : Stops [.sign ","] rest) : Finds (.commas t) rest (t, rest) := by
  refine Finds.of_next (Filter.Eventually.of_forall fun depth => ?_)
  simp [next, stops]

theorem finds_assign {op : Token} {value : Tree} {rest' : List Token} (known : op ∈ assignments)
    (target : t.isTarget = true) (found : Finds .conditional ts (t, op :: rest))
    (further : Finds .assignment rest (value, rest')) :
    Finds .assignment ts (.assign op t value, rest') := by
  refine Finds.of_next ?_
  filter_upwards [found, further] with depth found further
  simp [next, found, further, known, target]

theorem finds_noAssignment (stops : Stops assignments rest)
    (found : Finds .conditional ts (t, rest)) : Finds .assignment ts (t, rest) := by
  refine Finds.of_next ?_
  filter_upwards [found] with depth found
  simp [next, found, stops]

theorem finds_conditional {yes no : Tree} {middle rest' : List Token}
    (found : Finds (.tier 0) ts (t, .sign "?" :: rest))
    (found' : Finds .assignment rest (yes, .sign ":" :: middle))
    (found'' : Finds .assignment middle (no, rest')) :
    Finds .conditional ts (.conditional t yes no, rest') := by
  refine Finds.of_next ?_
  filter_upwards [found, found', found''] with depth found found' found''
  simp [next, found, found', found'']

theorem finds_noCondition (stops : Stops [.sign "?"] rest) (found : Finds (.tier 0) ts (t, rest)) :
    Finds .conditional ts (t, rest) := by
  refine Finds.of_next ?_
  filter_upwards [found] with depth found
  simp [next, found, stops]

theorem finds_tier {level : Nat} (inside : level < tiers.length)
    (found : Finds (.tier (level + 1)) ts (t, rest))
    (further : Finds (.operators level t) rest result) : Finds (.tier level) ts result := by
  refine Finds.of_next ?_
  filter_upwards [found, further] with depth found further
  simp [next, inside, found, further]

theorem finds_lastTier (found : Finds .exponent ts (t, rest))
    (further : Finds (.operators tiers.length t) rest result) :
    Finds (.tier tiers.length) ts result := by
  refine Finds.of_next ?_
  filter_upwards [found, further] with depth found further
  simp [next, found, further]

theorem finds_operator {level : Nat} {op : Token} {second : Tree} {rest' : List Token}
    (known : op ∈ operatorsAt level) (found : Finds (.tier (level + 1)) rest (second, rest'))
    (further : Finds (.operators level (.binary op t second)) rest' result) :
    Finds (.operators level t) (op :: rest) result := by
  refine Finds.of_next ?_
  filter_upwards [found, further] with depth found further
  simp [next, known, found, further]

theorem finds_noOperator {level : Nat} (stops : Stops (operatorsAt level) rest) :
    Finds (.operators level t) rest (t, rest) := by
  refine Finds.of_next (Filter.Eventually.of_forall fun depth => ?_)
  simp [next, stops]

theorem finds_exponent {power : Tree} {rest' : List Token}
    (found : Finds .unary ts (t, .sign "**" :: rest))
    (further : Finds .exponent rest (power, rest')) :
    Finds .exponent ts (.binary (.sign "**") t power, rest') := by
  refine Finds.of_next ?_
  filter_upwards [found, further] with depth found further
  simp [next, found, further]

theorem finds_noExponent (stops : Stops [.sign "**"] rest) (found : Finds .unary ts (t, rest)) :
    Finds .exponent ts (t, rest) := by
  refine Finds.of_next ?_
  filter_upwards [found] with depth found
  simp [next, found, stops]

theorem finds_unary {op : Token} (known : op ∈ unaries) (found : Finds .unary ts (t, rest)) :
    Finds .unary (op :: ts) (.unary op t, rest) := by
  refine Finds.of_next ?_
  filter_upwards [found] with depth found
  simp [next, found, known]

theorem finds_before {op : Token} (known : op ∈ updates) (found : Finds .unary ts (t, rest)) :
    Finds .unary (op :: ts) (.update op false t, rest) := by
  have other : Stops unaries (op :: ts) := by
    have disjoint : ∀ op ∈ updates, op ∉ unaries := by decide
    exact stops_cons (disjoint op known)
  refine Finds.of_next ?_
  filter_upwards [found] with depth found
  simp [next, found, known, other]

theorem finds_behind {op : Token} (known : op ∈ updates) (plain : Stops unaries ts)
    (plain' : Stops updates ts) (found : Finds (.accessed true) ts (t, op :: rest)) :
    Finds .unary ts (.update op true t, rest) := by
  refine Finds.of_next ?_
  filter_upwards [found] with depth found
  simp [next, found, known, plain, plain']

theorem finds_noUpdate (plain : Stops unaries ts) (plain' : Stops updates ts)
    (stops : Stops updates rest) (found : Finds (.accessed true) ts (t, rest)) :
    Finds .unary ts (t, rest) := by
  refine Finds.of_next ?_
  filter_upwards [found] with depth found
  simp [next, found, plain, plain', stops]

theorem finds_accessed {calls : Bool} (found : Finds .base ts (t, rest))
    (further : Finds (.suffixes calls t) rest result) : Finds (.accessed calls) ts result := by
  refine Finds.of_next ?_
  filter_upwards [found, further] with depth found further
  simp [next, found, further]

theorem finds_noSuffix {calls : Bool} (stops : Stops (suffixSigns calls) rest) :
    Finds (.suffixes calls t) rest (t, rest) := by
  refine Finds.of_next (Filter.Eventually.of_forall fun depth => ?_)
  simp [next, stops]

theorem finds_call {items : Tree} {rest' : List Token}
    (found : Finds .items rest (items, .sign ")" :: rest'))
    (further : Finds (.suffixes true (.call t items)) rest' result) :
    Finds (.suffixes true t) (.sign "(" :: rest) result := by
  refine Finds.of_next ?_
  filter_upwards [found, further] with depth found further
  simp [next, suffixSigns, found, further]

theorem finds_index {calls : Bool} {key : Tree} {rest' : List Token}
    (found : Finds .expression rest (key, .sign "]" :: rest'))
    (further : Finds (.suffixes calls (.index t key)) rest' result) :
    Finds (.suffixes calls t) (.sign "[" :: rest) result := by
  have known : Token.sign "[" ∈ suffixSigns calls := by cases calls <;> decide
  refine Finds.of_next ?_
  filter_upwards [found, further] with depth found further
  simp [next, known, found, further]

theorem finds_field {calls : Bool} {field : String}
    (further : Finds (.suffixes calls (.property t field)) rest result) :
    Finds (.suffixes calls t) (.sign "." :: .word field :: rest) result := by
  have known : Token.sign "." ∈ suffixSigns calls := by cases calls <;> decide
  refine Finds.of_next ?_
  filter_upwards [further] with depth further
  simp [next, known, further]

theorem finds_new {items : Tree} {rest' : List Token}
    (found : Finds (.accessed false) ts (t, .sign "(" :: rest))
    (further : Finds .items rest (items, .sign ")" :: rest')) :
    Finds .base (.word "new" :: ts) (.new t items, rest') := by
  refine Finds.of_next ?_
  filter_upwards [found, further] with depth found further
  simp [next, found, further]

theorem finds_newBare (stops : Stops [.sign "("] rest)
    (found : Finds (.accessed false) ts (t, rest)) :
    Finds .base (.word "new" :: ts) (.new t .nothing, rest) := by
  refine Finds.of_next ?_
  filter_upwards [found] with depth found
  simp [next, found, stops]

theorem finds_atom {token : Token} (found : atom? token = some t) (other : token ≠ .word "new") :
    Finds .base (token :: rest) (t, rest) := by
  refine Finds.of_next (Filter.Eventually.of_forall fun depth => ?_)
  cases token with
  | sign => cases found
  | _ => simp_all [next]

theorem finds_array (found : Finds .items ts (t, .sign "]" :: rest)) :
    Finds .base (.sign "[" :: ts) (.array t, rest) := by
  refine Finds.of_next ?_
  filter_upwards [found] with depth found
  simp [next, found]

theorem finds_object (found : Finds .entries ts (t, .sign "\x7d" :: rest)) :
    Finds .base (.sign "\x7b" :: ts) (.object t, rest) := by
  refine Finds.of_next ?_
  filter_upwards [found] with depth found
  simp [next, found]

theorem finds_parenthesized (found : Finds .expression ts (t, .sign ")" :: rest)) :
    Finds .base (.sign "(" :: ts) (t, rest) := by
  refine Finds.of_next ?_
  filter_upwards [found] with depth found
  simp [next, found]

theorem finds_noItem {op : Token} (known : op ∈ [Token.sign ")", .sign "]"]) :
    Finds .items (op :: rest) (.nothing, op :: rest) := by
  refine Finds.of_next (Filter.Eventually.of_forall fun depth => ?_)
  simp only [next, headIn_of_mem known]

theorem finds_lastItem (begins : Stops [.sign ")", .sign "]"] ts) (stops : Stops [.sign ","] rest)
    (found : Finds .assignment ts (t, rest)) : Finds .items ts (.item t .nothing, rest) := by
  refine Finds.of_next ?_
  filter_upwards [found] with depth found
  simp [next, found, begins, stops]

theorem finds_nextItem {others : Tree} {rest' : List Token}
    (begins : Stops [.sign ")", .sign "]"] ts) (found : Finds .assignment ts (t, .sign "," :: rest))
    (further : Finds .items rest (others, rest')) :
    Finds .items ts (.item t others, rest') := by
  refine Finds.of_next ?_
  filter_upwards [found, further] with depth found further
  simp [next, found, further, begins]

theorem finds_noEntry : Finds .entries (.sign "\x7d" :: rest) (.nothing, .sign "\x7d" :: rest) := by
  refine Finds.of_next (Filter.Eventually.of_forall fun depth => ?_)
  simp [next]

theorem stops_key {key : Token} (known : key.isKey = true) : Stops [.sign "\x7d"] (key :: ts) := by
  refine stops_cons ?_
  cases key with
  | sign => cases known
  | _ => simp

theorem finds_lastEntry {key : Token} (known : key.isKey = true) (stops : Stops [.sign ","] rest)
    (found : Finds .assignment ts (t, rest)) :
    Finds .entries (key :: .sign ":" :: ts) (.entry key t .nothing, rest) := by
  refine Finds.of_next ?_
  filter_upwards [found] with depth found
  simp [next, found, stops_key known, stops]

theorem finds_nextEntry {key : Token} {others : Tree} {rest' : List Token}
    (known : key.isKey = true) (found : Finds .assignment ts (t, .sign "," :: rest))
    (further : Finds .entries rest (others, rest')) :
    Finds .entries (key :: .sign ":" :: ts) (.entry key t others, rest') := by
  refine Finds.of_next ?_
  filter_upwards [found, further] with depth found further
  simp [next, found, further, stops_key known]

end Qalam.EcmaScript
