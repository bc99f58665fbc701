/-
# The scopes of a JavaScript text

Where the frames of a JavaScript text open and close, which names are declared in them and which
are mentioned, as a sequence of events in the order of the text. This is decided by the tokens
alone. Every pair of braces is a frame, so all cases of one switch share one. The parentheses of a
loop, of a handler and of the parameters of a function open a frame that reaches to the end of the
body behind them. `let`, `const`, `class` and `function` declare in the innermost frame.

A word behind a point is the name of a field, and so is one between an opening brace or a comma
and a colon. The words directly in the braces of a class are the names of its members. All other
words that are not keywords mention a name.

A name stands for its declaration in the innermost frame around it that declares the name
anywhere, be it before or behind the place.
-/

import Qalam.Proofs.EcmaScript.Grammar
import Qalam.Proofs.Scoping.Event

namespace Qalam.EcmaScript

open Scoping (Event framesAfter DeclaredIn)

namespace Scan

/-- What a word at the next place can be: the name of a field, perhaps the key of an entry, or
anything else. -/
inductive Place
  | member | key | other
  deriving DecidableEq

/-- What the words at the current place do. With `free` they are mentioned, perhaps in the value
of a declaration; with `names` the next one is declared, and with `named` one was. A `head` is the
part of a function, handler or loop before its parentheses, and a `body` what is behind them; both
know whether they belong to a member of a class. -/
inductive Mode
  | free (valued : Bool) | names | named | function | className
  | head (parameters inClass : Bool) | body (inClass : Bool) | classBody | members
  deriving DecidableEq

/-- An open bracket: how it is closed, how many frames it closes, and what follows it. -/
structure Level where
  closing : String
  frames : Nat
  behind : Mode
  deriving DecidableEq

/-- What is known at a place of the text. -/
structure State where
  mode : Mode
  levels : List Level
  place : Place
  deriving DecidableEq

/-- The state before the first token. -/
def State.initial : State := ⟨.free false, [], .other⟩

/-- The effect of a word that does not name a field. -/
def word (mode : Mode) (name : String) : Option (List (Event Unit) × Mode) :=
  match mode with
  | .free valued =>
    if name = "let" || name = "const" then some ([], .names)
    else if name = "function" then some ([], .function)
    else if name = "class" then some ([], .className)
    else if name = "catch" then some ([], .head true false)
    else if name = "for" then some ([], .head false false)
    else if name ∈ keywords then some ([], .free valued)
    else some ([.mentions name ()], .free valued)
  | .names => some ([.declares name ()], .named)
  | .named => if name = "of" then some ([], .free false) else none
  | .function => some ([.declares name ()], .head true false)
  | .className => some ([.declares name ()], .classBody)
  | .members => some ([], .head true true)
  | .head .. | .body _ | .classBody => none

/-- The effect of an opening bracket: its events, the mode inside it and the level it opens. -/
def opening (mode : Mode) (bracket : String) : Option (List (Event Unit) × Mode × Level) :=
  match mode with
  | .free valued =>
    if bracket = "(" then some ([], .free false, ⟨")", 0, .free valued⟩)
    else if bracket = "[" then some ([], .free false, ⟨"]", 0, .free valued⟩)
    else some ([.opens], .free false, ⟨"\x7d", 1, .free valued⟩)
  | .head parameters inClass =>
    if bracket = "(" then
      some ([.opens], if parameters then .names else .free false, ⟨")", 0, .body inClass⟩)
    else none
  | .body inClass =>
    if bracket = "\x7b" then
      some ([.opens], .free false, ⟨"\x7d", 2, if inClass then .members else .free false⟩)
    else none
  | .classBody =>
    if bracket = "\x7b" then some ([.opens], .members, ⟨"\x7d", 1, .free false⟩) else none
  | _ => none

/-- The mode behind a sign that is no bracket. -/
def separated (mode : Mode) (spelling : String) : Mode :=
  if mode = .named && spelling = "=" then .free true
  else if (mode = .named || mode = .free true) && spelling = "," then .names
  else if (mode = .named || mode = .free true) && spelling = ";" then .free false
  else mode

/-- What a word behind a sign can be. -/
def placeBehind (spelling : String) : Place :=
  if spelling = "." then .member
  else if spelling = "\x7b" || spelling = "," then .key
  else .other

/-- Read a sign. -/
def sign (state : State) (spelling : String) : Option (List (Event Unit) × State) :=
  if spelling = "(" || spelling = "[" || spelling = "\x7b" then
    (opening state.mode spelling).map fun (events, mode, level) =>
      (events, ⟨mode, level :: state.levels, placeBehind spelling⟩)
  else if spelling = ")" || spelling = "]" || spelling = "\x7d" then
    match state.levels with
    | level :: others =>
      if level.closing = spelling then
        some (List.replicate level.frames .closes, ⟨level.behind, others, .other⟩)
      else none
    | [] => none
  else some ([], ⟨separated state.mode spelling, state.levels, placeBehind spelling⟩)

/-- Read a token, knowing the one behind it. -/
def token (state : State) : Token → Option Token → Option (List (Event Unit) × State)
  | .word name, behind =>
    if state.place = .member || (state.place = .key && behind = some (.sign ":")) then
      some ([], { state with place := .other })
    else (word state.mode name).map fun (events, mode) => (events, ⟨mode, state.levels, .other⟩)
  | .number _, _ | .text _, _ => some ([], { state with place := .other })
  | .sign spelling, _ => sign state spelling

/-- Read what is left of a text. In the end all brackets are closed. -/
def tokens : State → List Token → Option (List (Event Unit))
  | state, [] => if state.levels = [] ∧ state.mode = .free false then some [] else none
  | state, first :: rest => (token state first rest.head?).bind fun (events, state) =>
    (tokens state rest).map (events ++ ·)

end Scan

/-- The events of a text. -/
def scopes (text : List Token) : Option (List (Event Unit)) := Scan.tokens .initial text

/-- In a JavaScript text with the given events, a name at the place behind some of them stands for
a declaration: its frame is around the place, and no frame further inside declares the name
anywhere. -/
def ResolvesTo {α : Type} (events before : List (Event α)) (name : String) (site : α) : Prop :=
  ∃ inner frame outer, framesAfter before = inner ++ frame :: outer ∧
    DeclaredIn events frame name site ∧
    ∀ nearer ∈ inner, ∀ other, ¬ DeclaredIn events nearer name other

namespace Scan

/-! ## Single tokens -/

variable {levels : List Level} {place : Place} {rest : List Token}

theorem tokens_cons {state after : State} {first : Token} {events : List (Event Unit)}
    (reads : token state first rest.head? = some (events, after)) :
    tokens state (first :: rest) = (tokens after rest).map (events ++ ·) := by
  rw [tokens, reads]
  rfl

/-- A token without events. -/
theorem tokens_cons_silent {state after : State} {first : Token}
    (reads : token state first rest.head? = some ([], after)) :
    tokens state (first :: rest) = tokens after rest := by
  rw [tokens_cons reads]
  simp

/-- A keyword that changes nothing. -/
theorem tokens_keyword {valued : Bool} {name : String} (other : place ≠ .member)
    (noKey : place = .key → rest.head? ≠ some (.sign ":")) (keyword : name ∈ keywords)
    (idle : name ∉ ["let", "const", "function", "class", "catch", "for"]) :
    tokens ⟨.free valued, levels, place⟩ (.word name :: rest) =
      tokens ⟨.free valued, levels, .other⟩ rest := by
  refine tokens_cons_silent ?_
  simp only [List.mem_cons, List.not_mem_nil, or_false, not_or] at idle
  obtain ⟨noLet, noConst, noFunction, noClass, noCatch, noFor⟩ := idle
  cases place with
  | member => exact absurd rfl other
  | key => simp [token, word, noKey rfl, *]
  | other => simp [token, word, *]

theorem tokens_mention {valued : Bool} {name : String} (other : place ≠ .member)
    (noKey : place = .key → rest.head? ≠ some (.sign ":")) (free : name ∉ keywords) :
    tokens ⟨.free valued, levels, place⟩ (.word name :: rest) =
      (tokens ⟨.free valued, levels, .other⟩ rest).map ([.mentions name ()] ++ ·) := by
  have special : ∀ name ∈ ["let", "const", "function", "class", "catch", "for"],
      name ∈ keywords := by
    decide
  have idle : name ∉ ["let", "const", "function", "class", "catch", "for"] :=
    fun mem => free (special name mem)
  refine tokens_cons ?_
  simp only [List.mem_cons, List.not_mem_nil, or_false, not_or] at idle
  obtain ⟨noLet, noConst, noFunction, noClass, noCatch, noFor⟩ := idle
  cases place with
  | member => exact absurd rfl other
  | key => simp [token, word, noKey rfl, *]
  | other => simp [token, word, *]

theorem tokens_field {mode : Mode} {name : String} :
    tokens ⟨mode, levels, .member⟩ (.word name :: rest) = tokens ⟨mode, levels, .other⟩ rest :=
  tokens_cons_silent (by simp [token])

theorem tokens_key {mode : Mode} {key : Token} (known : key.isKey = true) :
    tokens ⟨mode, levels, .key⟩ (key :: .sign ":" :: rest) =
      tokens ⟨mode, levels, .other⟩ (.sign ":" :: rest) := by
  refine tokens_cons_silent ?_
  cases key with
  | sign => cases known
  | _ => simp [token]

/-- A sign that is no bracket and separates nothing. -/
theorem tokens_operator {valued : Bool} {spelling : String}
    (idle : spelling ∉ ["(", "[", "\x7b", ")", "]", "\x7d", ".", ",", ";"]) :
    tokens ⟨.free valued, levels, place⟩ (.sign spelling :: rest) =
      tokens ⟨.free valued, levels, .other⟩ rest := by
  refine tokens_cons_silent ?_
  simp only [List.mem_cons, List.not_mem_nil, or_false, not_or] at idle
  obtain ⟨h₁, h₂, h₃, h₄, h₅, h₆, h₇, h₈, h₉⟩ := idle
  simp [token, sign, separated, placeBehind, *]

theorem tokens_point {mode : Mode} :
    tokens ⟨mode, levels, place⟩ (.sign "." :: rest) = tokens ⟨mode, levels, .member⟩ rest :=
  tokens_cons_silent (by simp [token, sign, separated, placeBehind])

/-- A comma between items. -/
theorem tokens_comma :
    tokens ⟨.free false, levels, place⟩ (.sign "," :: rest) =
      tokens ⟨.free false, levels, .key⟩ rest :=
  tokens_cons_silent (by simp [token, sign, separated, placeBehind])

/-- A semicolon behind a statement. -/
theorem tokens_semicolon {valued : Bool} :
    tokens ⟨.free valued, levels, place⟩ (.sign ";" :: rest) =
      tokens ⟨.free false, levels, .other⟩ rest := by
  refine tokens_cons_silent ?_
  cases valued <;> simp [token, sign, separated, placeBehind]

theorem tokens_round {valued : Bool} :
    tokens ⟨.free valued, levels, place⟩ (.sign "(" :: rest) =
      tokens ⟨.free false, ⟨")", 0, .free valued⟩ :: levels, .other⟩ rest :=
  tokens_cons_silent (by simp [token, sign, opening, placeBehind])

theorem tokens_square {valued : Bool} :
    tokens ⟨.free valued, levels, place⟩ (.sign "[" :: rest) =
      tokens ⟨.free false, ⟨"]", 0, .free valued⟩ :: levels, .other⟩ rest :=
  tokens_cons_silent (by simp [token, sign, opening, placeBehind])

theorem tokens_curly {valued : Bool} :
    tokens ⟨.free valued, levels, place⟩ (.sign "\x7b" :: rest) =
      (tokens ⟨.free false, ⟨"\x7d", 1, .free valued⟩ :: levels, .key⟩ rest).map ([.opens] ++ ·) :=
  tokens_cons (by simp [token, sign, opening, placeBehind])

/-- A closing bracket. -/
theorem tokens_close {mode behind : Mode} {closing : String} {frames : Nat}
    (known : closing ∈ [")", "]", "\x7d"]) :
    tokens ⟨mode, ⟨closing, frames, behind⟩ :: levels, place⟩ (.sign closing :: rest) =
      (tokens ⟨behind, levels, .other⟩ rest).map (List.replicate frames .closes ++ ·) := by
  refine tokens_cons ?_
  simp only [List.mem_cons, List.not_mem_nil, or_false] at known
  rcases known with rfl | rfl | rfl <;> simp [token, sign]

/-- A closing bracket that closes no frame. -/
theorem tokens_close_silent {mode behind : Mode} {closing : String}
    (known : closing ∈ [")", "]", "\x7d"]) :
    tokens ⟨mode, ⟨closing, 0, behind⟩ :: levels, place⟩ (.sign closing :: rest) =
      tokens ⟨behind, levels, .other⟩ rest := by
  rw [tokens_close known]
  simp

/-! ## Headers

What a word can be matters only for a word before a colon, so the place before most lines of a
text is of no importance. -/

/-- Whether tokens begin with a sign, or with two tokens of which the second is no colon. -/
def isPlainStart : List Token → Bool
  | .sign _ :: _ => true
  | _ :: second :: _ => second ≠ .sign ":"
  | _ => false

theorem isPlainStart_append {ts : List Token} (plain : isPlainStart ts = true)
    (behind : List Token) : isPlainStart (ts ++ behind) = true := by
  match ts with
  | .sign _ :: _ => rfl
  | .word _ :: second :: _ | .number _ :: second :: _ | .text _ :: second :: _ => exact plain

theorem tokens_start {mode : Mode} {ts : List Token} (plain : isPlainStart ts = true)
    (other : place ≠ .member) :
    tokens ⟨mode, levels, place⟩ (ts ++ rest) = tokens ⟨mode, levels, .other⟩ (ts ++ rest) := by
  have same : ∀ first behind, isPlainStart (first :: behind) = true →
      token ⟨mode, levels, place⟩ first (behind ++ rest).head? =
        token ⟨mode, levels, .other⟩ first (behind ++ rest).head? := by
    intro first behind plain
    cases first with
    | sign => rfl
    | number | text => rfl
    | word name =>
        cases behind with
        | nil => cases plain
        | cons second others =>
            have noColon : second ≠ .sign ":" := by simpa [isPlainStart] using plain
            cases place with
            | member => exact absurd rfl other
            | key => simp [token, noColon]
            | other => rfl
  cases ts with
  | nil => cases plain
  | cons first behind =>
      rw [List.cons_append, tokens, tokens, same first behind plain]

theorem tokens_let (constant : Bool) :
    tokens ⟨.free false, levels, .other⟩ (.word (JavaScript.declarationWord constant) :: rest) =
      tokens ⟨.names, levels, .other⟩ rest := by
  refine tokens_cons_silent ?_
  cases constant <;> simp [token, word, JavaScript.declarationWord]

theorem tokens_name {name : String} (other : place ≠ .member)
    (noKey : place = .key → rest.head? ≠ some (.sign ":")) :
    tokens ⟨.names, levels, place⟩ (.word name :: rest) =
      (tokens ⟨.named, levels, .other⟩ rest).map ([.declares name ()] ++ ·) := by
  refine tokens_cons ?_
  cases place with
  | member => exact absurd rfl other
  | key => simp [token, word, noKey rfl]
  | other => simp [token, word]

theorem tokens_gives :
    tokens ⟨.named, levels, place⟩ (.sign "=" :: rest) =
      tokens ⟨.free true, levels, .other⟩ rest :=
  tokens_cons_silent (by simp [token, sign, separated, placeBehind])

theorem tokens_of :
    tokens ⟨.named, levels, .other⟩ (.word "of" :: rest) =
      tokens ⟨.free false, levels, .other⟩ rest :=
  tokens_cons_silent (by simp [token, word])

/-- A comma behind a declared name or its value. -/
theorem tokens_next {mode : Mode} (declared : mode = .named ∨ mode = .free true) :
    tokens ⟨mode, levels, place⟩ (.sign "," :: rest) = tokens ⟨.names, levels, .key⟩ rest := by
  refine tokens_cons_silent ?_
  rcases declared with rfl | rfl <;> simp [token, sign, separated, placeBehind]

/-- A semicolon behind a declared name. -/
theorem tokens_declared :
    tokens ⟨.named, levels, place⟩ (.sign ";" :: rest) =
      tokens ⟨.free false, levels, .other⟩ rest :=
  tokens_cons_silent (by simp [token, sign, separated, placeBehind])

/-- The parenthesis behind a head. -/
theorem tokens_header {parameters inClass : Bool} :
    tokens ⟨.head parameters inClass, levels, place⟩ (.sign "(" :: rest) =
      (tokens ⟨if parameters then .names else .free false, ⟨")", 0, .body inClass⟩ :: levels,
        .other⟩ rest).map ([.opens] ++ ·) :=
  tokens_cons (by simp [token, sign, opening, placeBehind])

theorem tokens_catch :
    tokens ⟨.free false, levels, .other⟩ (.word "catch" :: rest) =
      tokens ⟨.head true false, levels, .other⟩ rest :=
  tokens_cons_silent (by simp [token, word])

theorem tokens_for :
    tokens ⟨.free false, levels, .other⟩ (.word "for" :: rest) =
      tokens ⟨.head false false, levels, .other⟩ rest :=
  tokens_cons_silent (by simp [token, word])

theorem tokens_function {name : String} :
    tokens ⟨.free false, levels, .other⟩ (.word "function" :: .word name :: rest) =
      (tokens ⟨.head true false, levels, .other⟩ rest).map ([.declares name ()] ++ ·) := by
  have keyword : token ⟨.free false, levels, .other⟩ (.word "function") (some (.word name)) =
      some ([], ⟨.function, levels, .other⟩) := by
    simp [token, word]
  rw [tokens_cons_silent keyword]
  exact tokens_cons (by simp [token, word])

theorem tokens_class {name : String} :
    tokens ⟨.free false, levels, .other⟩ (.word "class" :: .word name :: .sign "\x7b" :: rest) =
      (tokens ⟨.members, ⟨"\x7d", 1, .free false⟩ :: levels, .key⟩ rest).map
        ([.declares name (), .opens] ++ ·) := by
  have keyword : token ⟨.free false, levels, .other⟩ (.word "class") (some (.word name)) =
      some ([], ⟨.className, levels, .other⟩) := by
    simp [token, word]
  have declares : token ⟨.className, levels, .other⟩ (.word name) (some (.sign "\x7b")) =
      some ([.declares name ()], ⟨.classBody, levels, .other⟩) := by
    simp [token, word]
  have body : token ⟨.classBody, levels, .other⟩ (.sign "\x7b") rest.head? =
      some ([.opens], ⟨.members, ⟨"\x7d", 1, .free false⟩ :: levels, .key⟩) := by
    simp [token, sign, opening, placeBehind]
  rw [tokens_cons_silent keyword, tokens_cons declares, tokens_cons body, Option.map_map]
  rfl

theorem tokens_member {name : String} :
    tokens ⟨.members, levels, .other⟩ (.word name :: rest) =
      tokens ⟨.head true true, levels, .other⟩ rest :=
  tokens_cons_silent (by simp [token, word])

/-- The body of a function, handler or loop closes the frame of its header as well. -/
theorem tokens_body {inClass : Bool} :
    tokens ⟨.body inClass, levels, place⟩ (.sign "\x7b" :: rest) =
      (tokens ⟨.free false, ⟨"\x7d", 2, if inClass then .members else .free false⟩ :: levels,
        .key⟩ rest).map ([.opens] ++ ·) :=
  tokens_cons (by simp [token, sign, opening, placeBehind])

end Scan

end Qalam.EcmaScript
