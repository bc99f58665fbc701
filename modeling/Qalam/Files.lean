/-
# Trees of files

The files that a command can see, with the directories they lie in and a working directory. A
path is followed part by part: each part has to exist, and all but the last have to be
directories. Reading gives the text of a file or the reason why there is none.
-/

import Qalam.Files.Path
import Qalam.Text.Utf8

namespace Qalam

/-- What is stored under a path. -/
inductive Content
  | file (octets : List UInt8)
  | directory
  deriving DecidableEq

/-- The reasons why a file has no text. -/
inductive ReadFault
  | missing
  | isDirectory
  | notDirectory
  | notText
  deriving DecidableEq

/-- The wording of a reason. -/
def ReadFault.text : ReadFault → String
  | missing => "No such file or directory (os error 2)"
  | isDirectory => "Is a directory (os error 21)"
  | notDirectory => "Not a directory (os error 20)"
  | notText => "stream did not contain valid UTF-8"

/-- Stored contents by their parts from the root, and the parts of the working directory.
Directories that hold something need no entry. -/
structure Files where
  entries : List (List String × Content)
  workingDirectory : List String

namespace Files

/-- What lies at a place. The way to the working directory always exists. -/
def get? (files : Files) (place : List String) : Option Content :=
  if place.isPrefixOf files.workingDirectory then some .directory
  else match files.entries.lookup place with
    | some content => some content
    | none =>
      if files.entries.any fun (other, _) => place.isPrefixOf other then some .directory else none

/-- Follow the parts of a path from a place. -/
def walk (files : Files) : List String → List String → Except ReadFault (List String)
  | place, [] => .ok place
  | place, part :: parts =>
    match files.get? place with
    | none => .error .missing
    | some (.file _) => .error .notDirectory
    | some .directory =>
      if part = "" || part = "." then walk files place parts
      else if part = ".." then walk files place.dropLast parts
      else walk files (place ++ [part]) parts

/-- The parts of a path. -/
def parts (path : String) : List String := (Path.split path.toList).map String.ofList

/-- The place where a path begins. -/
def origin (files : Files) (path : String) : List String :=
  if Path.isAbsolute path then [] else files.workingDirectory

/-- The octets of the file at a path. -/
def read (files : Files) (path : String) : Except ReadFault (List UInt8) :=
  if path.isEmpty then .error .missing
  else do
    let place ← files.walk (files.origin path) (parts path)
    match files.get? place with
    | none => .error .missing
    | some .directory => .error .isDirectory
    | some (.file octets) => .ok octets

/-- The text of the file at a path. -/
def readText (files : Files) (path : String) : Except ReadFault String := do
  let octets ← files.read path
  match Text.ofUtf8? octets with
  | some text => .ok text
  | none => .error .notText

/-- Whether there is a file at a path. -/
def isFile (files : Files) (path : String) : Bool :=
  match files.read path with
  | .ok _ => true
  | .error _ => false

/-- The place a path leads to, whether anything lies there or not. -/
def placeOf (files : Files) (path : String) : List String :=
  (parts path).foldl
    (fun place part =>
      if part = "" || part = "." then place
      else if part = ".." then place.dropLast
      else place ++ [part])
    (files.origin path)

/-- Store a content at a place. -/
def put (files : Files) (place : List String) (content : Content) : Files :=
  let others := files.entries.filter fun (other, _) => other ≠ place
  { files with entries := others ++ [(place, content)] }

/-- Store a content at a path. -/
def write (files : Files) (path : String) (content : Content) : Files :=
  files.put (files.placeOf path) content

/-- Add octets to the end of the file at a place. -/
def extend (files : Files) (place : List String) (octets : List UInt8) : Files :=
  match files.get? place with
  | some (.file earlier) => files.put place (.file (earlier ++ octets))
  | _ => files.put place (.file octets)

/-- The names that lie directly at a place, in the order in which they were stored. -/
def names (files : Files) (place : List String) : List String :=
  let places := files.workingDirectory :: files.entries.map Prod.fst
  let name? (other : List String) : Option String :=
    if place.isPrefixOf other then other[place.length]? else none
  (places.filterMap name?).eraseDups

/-- The working directory as a path. -/
def workingPath (files : Files) : String := "/" ++ "/".intercalate files.workingDirectory

end Files

end Qalam
