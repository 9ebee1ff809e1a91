import EvalServer.Text.Utf8

/-!
# Files

A tree of directories and files, with the rules by which a path names one of them: a path is
walked component by component from the root or from the working directory, every component but
the last must be a directory, and a path that ends in a slash must name one.
-/

namespace EvalServer

/-- Why a file cannot be read or written. -/
inductive FileError where
  | notFound
  | notDirectory
  | isDirectory
  | nameTooLong
  | nulInPath
  | notText
  deriving Repr, DecidableEq

def FileError.message : FileError → String
  | .notFound => "No such file or directory (os error 2)"
  | .notDirectory => "Not a directory (os error 20)"
  | .isDirectory => "Is a directory (os error 21)"
  | .nameTooLong => "File name too long (os error 36)"
  | .nulInPath => "file name contained an unexpected NUL byte"
  | .notText => "stream did not contain valid UTF-8"

namespace File

/-- The names on the way from the root to a place in the tree. -/
abbrev Place := List String

/-- What stands at a place. -/
inductive Node where
  | directory
  | file (bytes : List UInt8)
  deriving Repr, DecidableEq

/-- The files of a machine, and the directory from which relative paths start. -/
structure Store where
  nodes : List (Place × Node) := []
  workingDirectory : Place := []
  deriving Repr, DecidableEq

namespace Store

def node? (s : Store) (place : Place) : Option Node :=
  if place.isEmpty then some .directory else s.nodes.lookup place

def put (s : Store) (place : Place) (node : Node) : Store :=
  { s with nodes := (place, node) :: s.nodes.filter fun entry => entry.1 ≠ place }

def putDirectory (s : Store) (place : Place) : Store :=
  (List.range place.length).foldl (fun s n => s.put (place.take (n + 1)) .directory) s

def putFile (s : Store) (place : Place) (bytes : List UInt8) : Store :=
  (s.putDirectory place.dropLast).put place (.file bytes)

/-- The longest component and the longest path that a name may have, in bytes. -/
def maxComponent : Nat := 255
def maxPath : Nat := 4095

/-- The components of a path; empty ones mean nothing. -/
def components (path : String) : List String :=
  ((path.toList.splitOn '/').filter (· ≠ [])).map String.ofList

/-- The place one component leads to from a directory. -/
def enter (place : Place) (component : String) : Place :=
  if component = "." then place
  else if component = ".." then place.dropLast
  else place ++ [component]

/-- The place that a path names, whatever stands on the way. -/
def placeOf (s : Store) (path : String) : Place :=
  (components path).foldl enter (if path.startsWith "/" then [] else s.workingDirectory)

/-- Walks components from a directory; all but the last must lead to directories. -/
def walk (s : Store) : Place → List String → Except FileError Place
  | place, [] => .ok place
  | place, [component] =>
    if maxComponent < component.utf8ByteSize then .error .nameTooLong
    else .ok (enter place component)
  | place, component :: rest =>
    if maxComponent < component.utf8ByteSize then .error .nameTooLong
    else
      let next := enter place component
      match s.node? next with
      | some .directory => walk s next rest
      | some (.file _) => .error .notDirectory
      | none => .error .notFound

/-- The place that a path names, which may be empty. -/
def locate (s : Store) (path : String) : Except FileError Place :=
  if path.toList.contains (Char.ofNat 0) then .error .nulInPath
  else if path = "" then .error .notFound
  else if maxPath < path.utf8ByteSize then .error .nameTooLong
  else walk s (if path.startsWith "/" then [] else s.workingDirectory) (components path)

def find (s : Store) (path : String) : Except FileError Node :=
  match s.locate path with
  | .error e => .error e
  | .ok place =>
    match s.node? place with
    | none => .error .notFound
    | some .directory => .ok .directory
    | some (.file bytes) =>
      if path.endsWith "/" then .error .notDirectory else .ok (.file bytes)

def pathExists (s : Store) (path : String) : Bool :=
  match s.find path with
  | .ok _ => true
  | .error _ => false

def isFile (s : Store) (path : String) : Bool :=
  match s.find path with
  | .ok (.file _) => true
  | _ => false

def readText (s : Store) (path : String) : Except FileError String :=
  match s.find path with
  | .error e => .error e
  | .ok .directory => .error .isDirectory
  | .ok (.file bytes) =>
    match Text.Utf8.decode? bytes with
    | some text => .ok (String.ofList text)
    | none => .error .notText

def writeText (s : Store) (path text : String) : Except FileError Store :=
  match s.locate path with
  | .error e => .error e
  | .ok place =>
    if path.endsWith "/" || s.node? place = some .directory then .error .isDirectory
    else .ok (s.put place (.file (Text.Utf8.encode text.toList)))

end Store

/-- A name put after a directory, with one slash between them unless the directory ends in one. -/
def join (directory name : String) : String :=
  if directory = "" || directory.endsWith "/" then directory ++ name
  else directory ++ "/" ++ name

/-- The first line of a text, without the line end; a carriage return belongs to the line end only
before a newline. -/
def firstLine (text : String) : String :=
  let line := text.toList.takeWhile (· ≠ '\n')
  if line.length < text.length && line.getLast? = some '\r' then String.ofList line.dropLast
  else String.ofList line

end File

end EvalServer
