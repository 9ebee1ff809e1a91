import EvalServer.Sexp.Basic
import EvalServer.Text.Decimal

/-!
# Printing s-expressions

A value prints on one line of its own characters: a list in parentheses with single spaces, a
string in double quotes with a backslash before each quote and backslash, every other atom as it
is. Nothing else is escaped, so a symbol prints as its name whatever characters that has.
-/

namespace EvalServer.Sexp

/-- One character inside a printed string. -/
def escapeChar (c : Char) : List Char :=
  if c = '\x22' then ['\\', '\x22'] else if c = '\\' then ['\\', '\\'] else [c]

mutual

/-- The characters of a printed value. -/
def chars : Sexp → List Char
  | .nil => ['n', 'i', 'l']
  | .t => ['t']
  | .int n => Text.Decimal.ofInt n.toInt
  | .str text => '\x22' :: (text.toList.flatMap escapeChar ++ ['\x22'])
  | .symbol name => name.toList
  | .keyword name => ':' :: name.toList
  | .list items => '(' :: (charsAll items ++ [')'])

/-- The characters of values with a space between each two. -/
def charsAll : List Sexp → List Char
  | [] => []
  | [item] => chars item
  | item :: rest => chars item ++ ' ' :: charsAll rest

end

def print (v : Sexp) : String :=
  String.ofList v.chars

/-- The text for a human reader: a string stands without its quotes. -/
def display : Sexp → String
  | .str text => text
  | v => v.print

end EvalServer.Sexp
