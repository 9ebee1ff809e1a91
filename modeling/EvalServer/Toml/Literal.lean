import EvalServer.Text.Hexadecimal
import EvalServer.Toml.Value

/-!
# TOML strings

Reading and writing of strings. Strings between double quotes have escapes, strings between single
quotes have none, and either kind may span lines between triple quotes. Each reader starts after
the opening quotes and answers the text and what follows the closing quotes. Main definition:
`write`, which takes the form that needs no escapes if there is one.
-/

namespace EvalServer.Toml.Literal

/-- Characters that may stand for themselves in comments and strings: a tab, and all that are not
control characters. -/
def isPlain (c : Char) : Bool :=
  c = '\t' || (32 ≤ c.toNat && c.toNat ≠ 127)

/-- The character that a one-letter escape stands for. -/
def escape? : Char → Option Char
  | 'b' => some '\x08'
  | 't' => some '\t'
  | 'n' => some '\n'
  | 'f' => some '\x0c'
  | 'r' => some '\r'
  | '\x22' => some '\x22'
  | '\\' => some '\\'
  | _ => none

/-- The character that hexadecimal digits stand for. -/
def codePoint? (digits : List Char) : Option Char := do
  let n ← Text.Hexadecimal.numberFrom 0 digits
  if n.isValidChar then some (Char.ofNat n) else none

/-- A character before the text that a reader goes on with. -/
def prepend (c : Char) (rest : Option (List Char × List Char)) :
    Option (List Char × List Char) :=
  rest.map fun r => (c :: r.1, r.2)

/-- Reads a string between double quotes. -/
def readBasic : List Char → Option (List Char × List Char)
  | [] => none
  | '\x22' :: rest => some ([], rest)
  | '\\' :: 'u' :: a :: b :: c :: d :: rest => do
    let char ← codePoint? [a, b, c, d]
    prepend char (readBasic rest)
  | '\\' :: 'U' :: a :: b :: c :: d :: e :: f :: g :: h :: rest => do
    let char ← codePoint? [a, b, c, d, e, f, g, h]
    prepend char (readBasic rest)
  | '\\' :: c :: rest => do
    let char ← escape? c
    prepend char (readBasic rest)
  | c :: rest => if isPlain c && c ≠ '\\' then prepend c (readBasic rest) else none

/-- Reads a string between single quotes. -/
def readPlain : List Char → Option (List Char × List Char)
  | [] => none
  | '\x27' :: rest => some ([], rest)
  | c :: rest => if isPlain c then prepend c (readPlain rest) else none

/-- What follows three closing quotes: up to two more of them belong to the text. -/
def closing (quote : Char) : List Char → List Char × List Char
  | a :: b :: rest =>
    if a = quote then if b = quote then ([quote, quote], rest) else ([quote], b :: rest)
    else ([], a :: b :: rest)
  | [a] => if a = quote then ([quote], []) else ([], [a])
  | [] => ([], [])

/-- Where the reader of a string over several lines is. -/
inductive Place where
  | text
  /-- After a backslash that ends a line, before the end of that line. -/
  | lineEnd
  /-- Where the blanks and line ends after such a line are left out. -/
  | margin
  deriving Repr, DecidableEq

/-- Whether a backslash before these characters ends a line. -/
def endsLine : List Char → Bool
  | '\n' :: _ => true
  | '\r' :: '\n' :: _ => true
  | c :: rest => (c = ' ' || c = '\t') && endsLine rest
  | [] => false

/-- Reads a string over several lines between double quotes. -/
def readLines : Place → List Char → Option (List Char × List Char)
  | _, [] => none
  | .lineEnd, '\n' :: rest => readLines .margin rest
  | .lineEnd, _ :: rest => readLines .lineEnd rest
  | .margin, ' ' :: rest => readLines .margin rest
  | .margin, '\t' :: rest => readLines .margin rest
  | .margin, '\n' :: rest => readLines .margin rest
  | .margin, '\r' :: '\n' :: rest => readLines .margin rest
  | _, '\x22' :: '\x22' :: '\x22' :: rest => some (closing '\x22' rest)
  | _, '\r' :: '\n' :: rest => prepend '\n' (readLines .text rest)
  | _, '\n' :: rest => prepend '\n' (readLines .text rest)
  | _, '\\' :: 'u' :: a :: b :: c :: d :: rest => do
    let char ← codePoint? [a, b, c, d]
    prepend char (readLines .text rest)
  | _, '\\' :: 'U' :: a :: b :: c :: d :: e :: f :: g :: h :: rest => do
    let char ← codePoint? [a, b, c, d, e, f, g, h]
    prepend char (readLines .text rest)
  | _, '\\' :: c :: rest =>
    match escape? c with
    | some char => prepend char (readLines .text rest)
    | none =>
      if c = '\n' then readLines .margin rest
      else if endsLine (c :: rest) then readLines .lineEnd rest
      else none
  | _, c :: rest => if isPlain c && c ≠ '\\' then prepend c (readLines .text rest) else none

/-- Reads a string over several lines between single quotes. -/
def readPlainLines : List Char → Option (List Char × List Char)
  | [] => none
  | '\x27' :: '\x27' :: '\x27' :: rest => some (closing '\x27' rest)
  | '\r' :: '\n' :: rest => prepend '\n' (readPlainLines rest)
  | '\n' :: rest => prepend '\n' (readPlainLines rest)
  | c :: rest => if isPlain c then prepend c (readPlainLines rest) else none

/-- A line end right after triple quotes is left out. -/
def dropLineEnd : List Char → List Char
  | '\n' :: rest => rest
  | '\r' :: '\n' :: rest => rest
  | cs => cs

/-- Reads a string that does not span lines, from its opening quote on. -/
def readShort : List Char → Option (List Char × List Char)
  | '\x22' :: rest => readBasic rest
  | '\x27' :: rest => readPlain rest
  | _ => none

/-- Reads a string of any form, from its opening quotes on. -/
def read : List Char → Option (List Char × List Char)
  | '\x22' :: '\x22' :: '\x22' :: rest => readLines .text (dropLineEnd rest)
  | '\x27' :: '\x27' :: '\x27' :: rest => readPlainLines (dropLineEnd rest)
  | cs => readShort cs

/-- The length of the longest run of a character, after a run of `current` of them. -/
def longestRun (c : Char) (current : Nat) : List Char → Nat
  | [] => current
  | d :: rest =>
    if d = c then longestRun c (current + 1) rest else max current (longestRun c 0 rest)

/-- Whether only an escape can stand for a character: a control character other than tab and line
feed. -/
def needsEscape (c : Char) : Bool :=
  !isPlain c && c ≠ '\n'

/-- The four hexadecimal digits of a code point, upper-case. -/
def upperHex (n : Nat) : List Char :=
  (Text.Hexadecimal.digits 4 n).map Char.toUpper

def escaped (c : Char) : List Char :=
  match c with
  | '\x08' => ['\\', 'b']
  | '\t' => ['\\', 't']
  | '\n' => ['\\', 'n']
  | '\x0c' => ['\\', 'f']
  | '\r' => ['\\', 'r']
  | '\x22' => ['\\', '\x22']
  | '\\' => ['\\', '\\']
  | c => if needsEscape c then '\\' :: 'u' :: upperHex c.toNat else [c]

/-- The text of a string between double quotes, with escapes. Over several lines, line feeds stand
for themselves, and so do double quotes other than the third of a run; `quotes` counts the run. -/
def body (lines : Bool) : (quotes : Nat) → List Char → List Char
  | _, [] => []
  | quotes, c :: rest =>
    if c = '\x22' then
      if lines && quotes < 2 then c :: body lines (quotes + 1) rest
      else escaped c ++ body lines 0 rest
    else if c = '\n' && lines then c :: body lines 0 rest
    else escaped c ++ body lines 0 rest

/-- A text between quotes; over several lines it starts on a line of its own. -/
def enclose (quotes : List Char) (ownLine : Bool) (text : List Char) : List Char :=
  quotes ++ (if ownLine then ['\n'] else []) ++ text ++ quotes

/-- Writes a string in the first form that does without escapes: between double quotes, between
single quotes, then the same over several lines. If there is none, it is escaped. -/
def write (text : List Char) : List Char :=
  let control := text.any needsEscape
  let newline := text.contains '\n'
  let doubles := longestRun '\x22' 0 text
  let singles := longestRun '\x27' 0 text
  let bare := !control && !text.contains '\\'
  let double := ['\x22']
  let single := ['\x27']
  let triple (q : List Char) := q ++ q ++ q
  if bare && doubles = 0 && !newline then enclose double false (body false 0 text)
  else if !control && singles = 0 && !newline then enclose single false text
  else if bare && doubles ≤ 2 then enclose (triple double) newline (body true 0 text)
  else if !control && singles ≤ 2 then enclose (triple single) newline text
  else if newline then enclose (triple double) true (body true 0 text)
  else enclose double false (body false 0 text)

end EvalServer.Toml.Literal
