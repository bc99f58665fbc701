/-
# Paths

A path is a text whose parts are divided by slashes. Empty parts and points mean nothing, except
that a point at the very beginning stays where it is. These rules decide what the directory of a
file is called, and how a path relative to that directory is spelled.
-/

namespace Qalam.Path

/-- Whether a path does not depend on the working directory. -/
def isAbsolute (path : String) : Bool := path.toList.head? = some '/'

/-- The parts of a text between slashes. -/
def split : List Char → List (List Char)
  | [] => [[]]
  | c :: rest =>
    if c = '/' then [] :: split rest
    else match split rest with
      | [] => [[c]]
      | first :: others => (c :: first) :: others

/-- Parts joined by slashes. -/
def unsplit : List (List Char) → List Char
  | [] => []
  | [last] => last
  | first :: others => first ++ '/' :: unsplit others

/-- Whether a part means nothing where it is not the first one. -/
def isIdle (part : List Char) : Bool := part = [] || part = ['.']

/-- Remove idle parts from the end; a point that begins a relative path is kept. -/
def trimEnd (absolute : Bool) : List (List Char) → List (List Char)
  | [] => []
  | first :: others =>
    let others := (others.reverse.dropWhile isIdle).reverse
    if others.isEmpty && (first = [] || (absolute && first = ['.'])) then [] else first :: others

/-- The directory of a path, if it has a last part. -/
def parent? (path : String) : Option String :=
  let absolute := isAbsolute path
  let chars := if absolute then path.toList.tail else path.toList
  let parts := trimEnd absolute (split chars)
  if parts.isEmpty then none
  else
    let directory := unsplit (trimEnd absolute parts.dropLast)
    some (String.ofList (if absolute then '/' :: directory else directory))

/-- A path as seen from a directory. -/
def join (directory path : String) : String :=
  if isAbsolute path then path
  else if directory.isEmpty || directory.toList.getLast? = some '/' then directory ++ path
  else directory ++ "/" ++ path

end Qalam.Path
