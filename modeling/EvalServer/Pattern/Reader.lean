import EvalServer.Pattern.Basic
import EvalServer.Text.Alphanumeric
import EvalServer.Text.Blank
import EvalServer.Text.Hexadecimal

/-!
# Reading patterns

A pattern is read from left to right; groups that are open wait on a stack. Braces are refused
outside sets: in a directive they enclose the fields, so that none can enclose a count. Main
definition: `Pattern.read?`.
-/

namespace EvalServer.Pattern

/-- Skips blanks, and comments from `#` to the end of the line. -/
def skipBlanks : (inComment : Bool) → List Char → List Char
  | _, [] => []
  | true, c :: rest => skipBlanks (c ≠ '\n') rest
  | false, c :: rest =>
    if Text.isBlank c then skipBlanks false rest
    else if c = '#' then skipBlanks true rest
    else c :: rest

/-- Where reading goes on, if blanks mean nothing when `spaced` says so. -/
def advance (spaced : Bool) (cs : List Char) : List Char :=
  if spaced then skipBlanks false cs else cs

/-- The character that decides whether a hyphen makes a range: the next one, or the first beyond
blanks and a number sign, if there is one. -/
def peek? (spaced : Bool) (cs : List Char) : Option Char :=
  if spaced then
    match cs.dropWhile Text.isBlank with
    | '#' :: rest => (rest.find? fun c => !Text.isBlank c).or cs.head?
    | c :: _ => some c
    | [] => cs.head?
  else cs.head?

/-- What can stand for itself, both alone and in a set. -/
inductive Atom where
  | literal (l : Literal)
  | edge
  | word
  | shorthand (negated : Bool)

/-- The character of `count` hexadecimal digits. -/
def readHex? (spaced : Bool) : (count : Nat) → (read : Nat) → List Char →
    Option (Char × List Char)
  | 0, n, cs => if n.isValidChar then some (Char.ofNat n, cs) else none
  | _ + 1, _, [] => none
  | count + 1, n, c :: rest =>
    (Text.Hexadecimal.value? c).bind fun d =>
      readHex? spaced count (n * 16 + d) (advance spaced rest)

def control? : Char → Option Char
  | 'a' => some '\x07'
  | 'f' => some '\x0c'
  | 't' => some '\t'
  | 'n' => some '\n'
  | 'r' => some '\r'
  | 'v' => some '\x0b'
  | _ => none

/-- Whether a character after a backslash stands for itself: ASCII other than letters, digits and
angles. -/
def isPunctuation (c : Char) : Bool :=
  c.toNat < 128 && !c.isAlphanum && c ≠ '<' && c ≠ '>'

/-- What follows a backslash. -/
def readEscape? (spaced : Bool) : List Char → Option (Atom × List Char)
  | [] => none
  | c :: rest =>
    let hex (count : Nat) := (readHex? spaced count 0 (advance spaced rest)).map fun r =>
      (Atom.literal ⟨r.1, c = 'x'⟩, r.2)
    if isPunctuation c then some (.literal ⟨c, false⟩, rest)
    else match c with
      | 'x' => hex 2
      | 'u' => hex 4
      | 'U' => hex 8
      | 'd' | 's' | 'w' => some (.shorthand false, rest)
      | 'D' | 'S' | 'W' => some (.shorthand true, rest)
      | 'A' | 'z' => some (.edge, rest)
      | 'b' | 'B' | '<' | '>' => some (.word, rest)
      | c => (control? c).map fun c => (.literal ⟨c, false⟩, rest)

def classNames : List String :=
  ["alnum", "alpha", "ascii", "blank", "cntrl", "digit", "graph", "lower", "print", "punct",
    "space", "upper", "word", "xdigit"]

/-- A class name between colons, after an opening bracket; whether it is negated. -/
def readNamed? : List Char → Option (Bool × List Char)
  | ':' :: cs =>
    let (negated, cs) := match cs with
      | '^' :: cs => (true, cs)
      | cs => (false, cs)
    let name := cs.takeWhile (· ≠ ':')
    match cs.drop name.length with
    | ':' :: ']' :: rest =>
      if classNames.contains (String.ofList name) then some (negated, rest) else none
    | _ => none
  | _ => none

/-- One character of a set, or what an escape stands for. -/
def readMember? (spaced : Bool) : List Char → Option (Atom × List Char)
  | [] => none
  | '\\' :: rest => readEscape? spaced rest
  | c :: rest => some (.literal ⟨c, false⟩, rest)

def Atom.item? : Atom → Option SetItem
  | .literal l => some (.literal l)
  | .shorthand negated => some (.shorthand negated)
  | .edge | .word => none

/-- A character of a set or a range of them. -/
def readItem? (spaced : Bool) (cs : List Char) : Option (SetItem × List Char) := do
  let (first, rest) ← readMember? spaced cs
  match advance spaced rest with
  | [] => none
  | '-' :: after =>
    if peek? spaced after = some ']' || peek? spaced after = some '-' then
      return (← first.item?, '-' :: after)
    else
      let (last, rest) ← readMember? spaced (advance spaced after)
      match first, last with
      | .literal first, .literal last =>
        if first.char ≤ last.char then some (.range first last, rest) else none
      | _, _ => none
  | rest => return (← first.item?, rest)

/-- Hyphens at the start of a set, of at most `limit`, stand for themselves. -/
def readHyphens (spaced : Bool) : (limit : Nat) → List Char → List SetItem × List Char
  | limit + 1, '-' :: rest =>
    let (items, rest) := readHyphens spaced limit (advance spaced rest)
    (.literal ⟨'-', false⟩ :: items, rest)
  | _, cs => ([], cs)

/-- A set with what was read before an operator. -/
def SetBody.after (left : Option SetBody) (items : List SetItem) : SetBody :=
  match left with
  | none => .union items.reverse
  | some left => .operation left (.union items.reverse)

mutual

/-- Reads a set after its opening bracket: whether it is negated, and what it holds. -/
def readSet? (spaced : Bool) : (limit : Nat) → List Char →
    Option (Bool × SetBody × List Char)
  | 0, _ => none
  | limit + 1, cs =>
    let (negated, cs) := match advance spaced cs with
      | '^' :: cs => (true, advance spaced cs)
      | cs => (false, cs)
    let (items, cs) := match readHyphens spaced limit cs with
      | ([], ']' :: cs) => ([.literal ⟨']', false⟩], cs)
      | read => read
    (readBody? spaced limit none items cs).map fun r => (negated, r)

/-- Reads a set up to its closing bracket, after an operator and some items, the latest first. -/
def readBody? (spaced : Bool) : (limit : Nat) → Option SetBody → List SetItem → List Char →
    Option (SetBody × List Char)
  | 0, _, _, _ => none
  | limit + 1, left, items, cs =>
    let operator (rest : List Char) :=
      readBody? spaced limit (some (SetBody.after left items)) [] rest
    match advance spaced cs with
    | [] => none
    | ']' :: rest => some (SetBody.after left items, rest)
    | '[' :: rest =>
      match readNamed? rest with
      | some (negated, rest) => readBody? spaced limit left (.named negated :: items) rest
      | none => do
        let (negated, body, rest) ← readSet? spaced limit rest
        readBody? spaced limit left (.nested negated body :: items) rest
    | '&' :: '&' :: rest => operator rest
    | '-' :: '-' :: rest => operator rest
    | '~' :: '~' :: rest => operator rest
    | cs => do
      let (item, rest) ← readItem? spaced cs
      readBody? spaced limit left (item :: items) rest

end

/-- Reads flags up to a colon or a closing parenthesis; whether it is the latter. `on` says what
flags are set to, and `dangling` that a minus sign has come last. -/
def readFlags? (on dangling : Bool) (changes : FlagChanges) : List Char →
    Option (FlagChanges × Bool × List Char)
  | [] => none
  | c :: rest =>
    if c = ':' || c = ')' then
      if dangling then none else some (changes, c = ')', rest)
    else if c = '-' then
      if on then readFlags? false true changes rest else none
    else do
      let flag ← PatternFlag.ofChar? c
      if changes.any (·.1 = flag) then none
      else readFlags? on false ((flag, on) :: changes) rest

def isName : List Char → Bool
  | [] => false
  | c :: rest =>
    (c = '_' || Text.isAlphabetic c) &&
      rest.all fun c => ['_', '.', '[', ']'].contains c || Text.isAlphanumeric c

/-- A name up to a closing angle. -/
def readName? (cs : List Char) : Option (List Char × List Char) :=
  let name := cs.takeWhile (· ≠ '>')
  match cs.drop name.length with
  | '>' :: rest => if isName name then some (name, rest) else none
  | _ => none

/-- What waits for the end of a group: what stands before it in the enclosing group, the latest
first, the flags of the group, and whether blanks mean nothing after it. -/
structure Enclosing where
  items : List Pattern
  finished : List Pattern
  changes : FlagChanges
  spaced : Bool

/-- What has been read of a pattern. -/
structure Progress where
  rest : List Char
  /-- What has been read of the current alternative, the latest first. -/
  items : List Pattern := []
  /-- The alternatives before it, the latest first. -/
  finished : List Pattern := []
  opened : List Enclosing := []
  /-- Whether blanks mean nothing. -/
  spaced : Bool := false
  names : List (List Char) := []

namespace Progress

def pattern (p : Progress) : Pattern :=
  let last := ofItems p.items.reverse
  if p.finished.isEmpty then last else .alternatives (last :: p.finished).reverse

def add (p : Progress) (part : Pattern) (rest : List Char) : Progress :=
  { p with rest, items := part :: p.items }

def openGroup (p : Progress) (changes : FlagChanges) (rest : List Char) : Progress :=
  { p with
    rest, items := [], finished := []
    opened := ⟨p.items, p.finished, changes, p.spaced⟩ :: p.opened
    spaced := (changes.lookup .ignoreBlanks).getD p.spaced }

/-- Opens a group with a name, which no other group may have. -/
def openNamed? (p : Progress) (rest : List Char) : Option Progress := do
  let (name, rest) ← readName? rest
  if p.names.contains name then none
  else return { p with names := name :: p.names }.openGroup [] rest

/-- What follows an opening parenthesis. -/
def openAny? (p : Progress) (rest : List Char) : Option Progress :=
  match advance p.spaced rest with
  | '?' :: 'P' :: '<' :: rest => p.openNamed? rest
  | '?' :: '<' :: rest => p.openNamed? rest
  | '?' :: rest => do
    let (changes, closed, rest) ← readFlags? true false [] rest
    if !closed then return p.openGroup changes rest
    else if changes.isEmpty then none
    else return { p.add (.flags changes) rest with
      spaced := (changes.lookup .ignoreBlanks).getD p.spaced }
  | rest => some (p.openGroup [] rest)

def closeGroup? (p : Progress) (rest : List Char) : Option Progress :=
  match p.opened with
  | [] => none
  | e :: opened => some { p with
      rest, items := .group e.changes p.pattern :: e.items, finished := e.finished, opened
      spaced := e.spaced }

/-- Repeats the last part, which must not be a change of flags; a question mark that follows only
says which match is preferred. -/
def repeat? (p : Progress) (rest : List Char) : Option Progress :=
  match p.items with
  | [] | .flags _ :: _ => none
  | part :: items => some { p with
      rest := if rest.head? = some '?' then rest.tail else rest
      items := .repetition part :: items }

/-- Reads what starts with a character. -/
def step? (p : Progress) (c : Char) (rest : List Char) : Option Progress :=
  match c with
  | '(' => p.openAny? rest
  | ')' => p.closeGroup? rest
  | '|' => some { p with rest, items := [], finished := ofItems p.items.reverse :: p.finished }
  | '[' => do
    let (negated, body, rest) ← readSet? p.spaced (rest.length + 1) rest
    return p.add (.set negated body) rest
  | '?' | '*' | '+' => p.repeat? rest
  | '\x7b' => none
  | '\\' => do
    let (atom, rest) ← readEscape? p.spaced rest
    return p.add (match atom with
      | .literal l => .literal l
      | .edge => .edge
      | .word => .word
      | .shorthand negated => .shorthand negated) rest
  | '.' => some (p.add .dot rest)
  | '^' | '$' => some (p.add .edge rest)
  | c => some (p.add (.literal ⟨c, false⟩) rest)

/-- Reads all that is left, which has fewer characters than `limit`. -/
def run? : (limit : Nat) → Progress → Option Progress
  | 0, _ => none
  | limit + 1, p =>
    match advance p.spaced p.rest with
    | [] => some p
    | c :: rest => (p.step? c rest).bind (run? limit)

end Progress

/-- The pattern that a text stands for. -/
def read? (cs : List Char) : Option Pattern := do
  let p ← Progress.run? (cs.length + 1) { rest := cs }
  if p.opened.isEmpty then some p.pattern else none

end EvalServer.Pattern
