/-
# Scripts

A script is made of commands, and a command of words. A word is a sequence of pieces: characters,
each of which remembers whether it was quoted, parameters, the output of other scripts, and
integer expressions. Quotes themselves leave a mark, so that an empty word in quotes is still a
word. Commands that can fail before they run remember the line they stand on.
-/

namespace Qalam.Command

/-- What a redirection does with its channel. A document is an input that stands in the script
itself. -/
inductive Arrow
  | write
  | append
  | read
  | duplicate
  | document
  deriving DecidableEq

mutual

/-- A piece of a word. -/
inductive Piece
  | char (c : Char) (quoted : Bool)
  | quotes
  | parameter (name : String) (form : Form) (quoted : Bool)
  | output (script : Script) (quoted : Bool)
  | sum (expression : List Piece) (quoted : Bool)

/-- What becomes of the value of a parameter. Where a missing value makes a difference, an empty
one can count as missing. A form that makes no sense is noticed only when it is used. -/
inductive Form
  | plain
  | senseless
  | length
  | fallback (emptyToo : Bool) (word : List Piece)
  | assign (emptyToo : Bool) (word : List Piece)
  | demand (emptyToo : Bool) (word : List Piece)
  | replace (emptyToo : Bool) (word : List Piece)
  | strip (front longest : Bool) (pattern : List Piece)

/-- A change of a channel for one command. -/
inductive Redirection
  | mk (channel : Nat) (arrow : Arrow) (target : List Piece)

/-- Scripts. -/
inductive Script
  | nothing
  | simple (line : Nat) (settings : List (String × List Piece)) (words : List (List Piece))
      (redirections : List Redirection)
  | sequence (first second : Script)
  | andThen (first second : Script)
  | orElse (first second : Script)
  | negation (body : Script)
  | pipe (first second : Script)
  | background (body : Script)
  | condition (test yes no : Script)
  | loop (ends : Bool) (test body : Script)
  | forEach (line : Nat) (name : String) (words : Option (List (List Piece))) (body : Script)
  | choice (line : Nat) (subject : List Piece) (arms : List (List (List Piece) × Script))
  | apart (line : Nat) (body : Script)
  | function (name : String) (body : Script)
  | redirected (line : Nat) (body : Script) (redirections : List Redirection)

end

/-- A word of a script. -/
abbrev Word : Type := List Piece

end Qalam.Command
