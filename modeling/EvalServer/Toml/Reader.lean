import EvalServer.Toml.Literal
import EvalServer.Toml.Number

/-!
# Reading TOML

A document is a sequence of lines with an entry, a header or neither. Main definition: `parse?`,
which answers the table of a text, and nothing for a text that is no document.
-/

namespace EvalServer.Toml

/-- How deep arrays and inline tables may be nested, and how many parts a key may have, plus one. -/
def depthLimit : Nat := 80

/-- The text from its first character that is neither space nor tab. -/
def skipBlanks (cs : List Char) : List Char :=
  cs.dropWhile fun c => c = ' ' || c = '\t'

/-- What follows blanks, comments and line ends. -/
def skipLines : (comment : Bool) → List Char → Option (List Char)
  | _, [] => some []
  | _, '\n' :: rest => skipLines false rest
  | _, '\r' :: '\n' :: rest => skipLines false rest
  | true, c :: rest => if Literal.isPlain c then skipLines true rest else none
  | false, '#' :: rest => skipLines true rest
  | false, c :: rest => if c = ' ' || c = '\t' then skipLines false rest else some (c :: rest)

/-- What follows the line that ends here, but for blanks and a comment. -/
def endLine (cs : List Char) : Option (List Char) :=
  let rest := match skipBlanks cs with
    | '#' :: comment => comment.dropWhile Literal.isPlain
    | rest => rest
  match rest with
  | [] => some []
  | '\n' :: rest => some rest
  | '\r' :: '\n' :: rest => some rest
  | _ => none

/-- Whether a character may stand in a key without quotes. -/
def isKeyCharacter (c : Char) : Bool :=
  c.isAlphanum || c = '-' || c = '_'

/-- Reads one part of a key. -/
def readKeyPart (cs : List Char) : Option (String × List Char) :=
  match Literal.readShort cs with
  | some (text, rest) => some (String.ofList text, rest)
  | none =>
    let name := cs.takeWhile isKeyCharacter
    if name.isEmpty then none else some (String.ofList name, cs.dropWhile isKeyCharacter)

/-- Reads a key of at most `limit` parts, with blanks around its parts. -/
def readKey : (limit : Nat) → List Char → Option (List String × List Char)
  | 0, _ => none
  | limit + 1, cs => do
    let (part, rest) ← readKeyPart (skipBlanks cs)
    match skipBlanks rest with
    | '.' :: rest => do
      let (parts, rest) ← readKey limit rest
      return (part :: parts, rest)
    | rest => return ([part], rest)

/-- A key in two: the way to its table, and its last part. -/
def splitKey (key : List String) : List String × String :=
  (key.dropLast, key.getLastD "")

/-- Reads a value that is neither an array nor a table. -/
def readScalar (cs : List Char) : Option (Value × List Char) :=
  let written (rest : List Char) := String.ofList (cs.take (cs.length - rest.length))
  match cs with
  | '\x22' :: _ => (Literal.read cs).map fun r => (.string (String.ofList r.1), r.2)
  | '\x27' :: _ => (Literal.read cs).map fun r => (.string (String.ofList r.1), r.2)
  | 't' :: 'r' :: 'u' :: 'e' :: rest => some (.boolean true, rest)
  | 'f' :: 'a' :: 'l' :: 's' :: 'e' :: rest => some (.boolean false, rest)
  | cs =>
    match Number.readMoment cs with
    | some rest => some (.time (written rest), rest)
    | none =>
      match Number.read cs with
      | some (some n, rest) => some (.integer n, rest)
      | some (none, rest) => some (.float (written rest), rest)
      | none => none

/-- Reads the elements of an array, of which there are at most `limit`, and the closing bracket. -/
def readElements (element : List Char → Option (Value × List Char)) :
    (limit : Nat) → List Char → Option (List Value × List Char)
  | 0, _ => none
  | limit + 1, cs => do
    match ← skipLines false cs with
    | ']' :: rest => return ([], rest)
    | cs =>
      let (v, rest) ← element cs
      match ← skipLines false rest with
      | ',' :: rest =>
        let (vs, rest) ← readElements element limit rest
        return (v :: vs, rest)
      | ']' :: rest => return ([v], rest)
      | _ => none

/-- Reads the entries of an inline table, of which there are at most `limit`, and the closing
brace. -/
def readEntries (element : List Char → Option (Value × List Char)) :
    (limit : Nat) → Table → List Char → Option (Table × List Char)
  | 0, _, _ => none
  | limit + 1, t, cs => do
    let (key, rest) ← readKey (depthLimit - 1) cs
    let (v, rest) ← element (skipBlanks (← Number.mark? '=' rest))
    let (path, last) := splitKey key
    let t ← t.add last v true path
    match skipBlanks rest with
    | ',' :: rest => readEntries element limit t rest
    | '\x7d' :: rest => return (t, rest)
    | _ => none

/-- Reads a value in which arrays and tables are nested at most `depth` deep. -/
def readValue : (depth : Nat) → List Char → Option (Value × List Char)
  | depth + 1, '[' :: rest =>
    (readElements (readValue depth) (rest.length + 1) rest).map fun r => (.array r.1, r.2)
  | depth + 1, '\x7b' :: rest =>
    match skipBlanks rest with
    | '\x7d' :: rest => some (.table .inline [], rest)
    | rest =>
      (readEntries (readValue depth) (rest.length + 1) [] rest).map fun r =>
        (.table .inline r.1, r.2)
  | _, cs => readScalar cs

/-- A document as far as it has been read: its table, and the table that entries are added to. -/
structure Draft where
  root : Table := []
  path : List String := []
  deriving Repr

def Draft.entry (d : Draft) (cs : List Char) : Option (Draft × List Char) := do
  let (key, rest) ← readKey (depthLimit - 1) cs
  let (v, rest) ← readValue (depthLimit - 1) (skipBlanks (← Number.mark? '=' rest))
  let (path, last) := splitKey key
  let root ← d.root.descend (Table.add last v true path) d.path
  return ({ d with root }, rest)

/-- Opens the table of a header that has been read. -/
def Draft.header (d : Draft) (key : List String) (openHere : String → Table → Option Table) :
    Option Draft := do
  let (path, last) := splitKey key
  let root ← d.root.descend (openHere last) path
  return { root, path := key }

/-- Reads what one line holds besides blanks and a comment. -/
def Draft.line (d : Draft) (cs : List Char) : Option (Draft × List Char) :=
  match cs with
  | '[' :: '[' :: rest => do
    let (key, rest) ← readKey (depthLimit - 1) rest
    let rest ← Number.mark? ']' (← Number.mark? ']' rest)
    return (← d.header key Table.openElement, rest)
  | '[' :: rest => do
    let (key, rest) ← readKey (depthLimit - 1) rest
    let rest ← Number.mark? ']' rest
    return (← d.header key Table.openTable, rest)
  | cs => d.entry cs

/-- Reads lines, of which there are at most `limit`. -/
def Draft.lines : (limit : Nat) → Draft → List Char → Option Draft
  | 0, _, _ => none
  | limit + 1, d, cs => do
    match ← skipLines false cs with
    | [] => return d
    | cs =>
      let (d, rest) ← d.line cs
      Draft.lines limit d (← endLine rest)

/-- The table of a document; a byte-order mark before it is left out. -/
def parse? (text : String) : Option Table :=
  let cs := match text.toList with
    | '\ufeff' :: rest => rest
    | cs => cs
  (Draft.lines (cs.length + 1) {} cs).map Draft.root

end EvalServer.Toml
