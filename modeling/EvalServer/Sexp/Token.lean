import EvalServer.Text.Blank

/-!
# Tokens

A text is cut into tokens one character at a time. Blanks separate tokens, a semicolon starts a
comment that ends with the line, and a quote character is a token only where one may start: inside
an atom it is part of the atom. `scan` gives what one character adds: the tokens it completes and
the mode in which the next character is taken.
-/

namespace EvalServer

/-- A token, with what it stands for. -/
inductive Token where
  | opening
  | closing
  | quote
  | string (text : List Char)
  | atom (name : List Char)
  /-- A string that the text ends in. -/
  | unclosed
  deriving Repr, DecidableEq

namespace Token

/-- A token and the line it starts on. -/
abbrev Located := Nat × Token

/-- Where in a text the next character stands; gathered characters are kept latest first. -/
inductive Mode where
  | between
  | comment
  | atom (gathered : List Char)
  | string (start : Nat) (gathered : List Char)
  /-- After a backslash in a string. -/
  | escape (start : Nat) (gathered : List Char)
  deriving Repr, DecidableEq

/-- The characters that end an atom. -/
def isDelimiter (c : Char) : Bool :=
  Text.isBlank c || c = '(' || c = ')' || c = '\x22' || c = ';'

/-- The character that a backslash and `c` stand for. -/
def unescape (c : Char) : Char :=
  if c = 'n' then '\n' else if c = 't' then '\t' else c

/-- The line after a character. -/
def lineAfter (line : Nat) (c : Char) : Nat :=
  if c = '\n' then line + 1 else line

/-- A character outside every token. -/
def scanBetween (line : Nat) (c : Char) : List Located × Mode :=
  if Text.isBlank c then ([], .between)
  else if c = ';' then ([], .comment)
  else if c = '(' then ([(line, .opening)], .between)
  else if c = ')' then ([(line, .closing)], .between)
  else if c = '\x27' then ([(line, .quote)], .between)
  else if c = '\x22' then ([], .string line [])
  else ([], .atom [c])

/-- One character on the given line: the tokens it completes and the mode after it. -/
def scan (mode : Mode) (line : Nat) (c : Char) : List Located × Mode :=
  match mode with
  | .between => scanBetween line c
  | .comment => ([], if c = '\n' then .between else .comment)
  | .atom gathered =>
    if isDelimiter c then
      let (tokens, mode) := scanBetween line c
      ((line, .atom gathered.reverse) :: tokens, mode)
    else ([], .atom (c :: gathered))
  | .string start gathered =>
    if c = '\x22' then ([(start, .string gathered.reverse)], .between)
    else if c = '\\' then ([], .escape start gathered)
    else ([], .string start (c :: gathered))
  | .escape start gathered => ([], .string start (unescape c :: gathered))

/-- The token that the end of the text completes. -/
def scanEnd (mode : Mode) (line : Nat) : List Located :=
  match mode with
  | .between | .comment => []
  | .atom gathered => [(line, .atom gathered.reverse)]
  | .string start _ | .escape start _ => [(start, .unclosed)]

end Token

end EvalServer
