/-!
# Patterns

Regular expressions by which fields of log messages are chosen. Only their structure is kept, as
far as it decides whether a pattern can be used: which characters a shorthand or a named class
stands for does not matter, nor how often a part is repeated.
-/

namespace EvalServer

/-- What can be turned on and off inside a pattern. -/
inductive PatternFlag where
  | foldCase
  | multiLine
  | dotMatchesNewline
  | swapGreed
  | unicode
  | carriageReturn
  | ignoreBlanks
  deriving Repr, DecidableEq

def PatternFlag.ofChar? : Char → Option PatternFlag
  | 'i' => some .foldCase
  | 'm' => some .multiLine
  | 's' => some .dotMatchesNewline
  | 'U' => some .swapGreed
  | 'u' => some .unicode
  | 'R' => some .carriageReturn
  | 'x' => some .ignoreBlanks
  | _ => none

/-- Flags, each with what it is set to. -/
abbrev FlagChanges := List (PatternFlag × Bool)

namespace Pattern

/-- A character that stands for itself; `byte` says that it is written as two digits. -/
structure Literal where
  char : Char
  byte : Bool := false
  deriving Repr, DecidableEq

mutual

/-- What can stand in a set of characters. -/
inductive SetItem where
  | literal (l : Literal)
  | range (first last : Literal)
  /-- A class with a name between colons. -/
  | named (negated : Bool)
  /-- A class with one letter after a backslash. -/
  | shorthand (negated : Bool)
  | nested (negated : Bool) (body : SetBody)

/-- What stands between the brackets of a set. -/
inductive SetBody where
  | union (items : List SetItem)
  /-- An intersection or a difference. -/
  | operation (left right : SetBody)

end

end Pattern

/-- A pattern. -/
inductive Pattern where
  /-- A change of flags for what follows in the same group. -/
  | flags (changes : FlagChanges)
  | literal (l : Pattern.Literal)
  | dot
  /-- The start or the end of a line or of the text. -/
  | edge
  /-- The start or the end of a word, or a place that is neither. -/
  | word
  | shorthand (negated : Bool)
  | set (negated : Bool) (body : Pattern.SetBody)
  | repetition (p : Pattern)
  | group (changes : FlagChanges) (p : Pattern)
  | sequence (ps : List Pattern)
  | alternatives (ps : List Pattern)

namespace Pattern

def ofItems : List Pattern → Pattern
  | [p] => p
  | ps => .sequence ps

mutual

def SetItem.depth : SetItem → Nat
  | .nested _ body => body.depth + 1
  | _ => 0

/-- How deep the parts of a set are nested; one item alone does not count. -/
def SetBody.depth : SetBody → Nat
  | .union [] => 0
  | .union [item] => item.depth
  | .union (item :: other :: rest) =>
    max item.depth (max other.depth (SetItem.depthAll rest)) + 1
  | .operation left right => max left.depth right.depth + 1

def SetItem.depthAll : List SetItem → Nat
  | [] => 0
  | item :: rest => max item.depth (SetItem.depthAll rest)

end

mutual

/-- How deep the parts of a pattern are nested. -/
def depth : Pattern → Nat
  | .set _ body => body.depth + 1
  | .repetition p => p.depth + 1
  | .group _ p => p.depth + 1
  | .sequence [] => 0
  | .sequence (p :: ps) => max p.depth (depthAll ps) + 1
  | .alternatives ps => depthAll ps + 1
  | _ => 0

def depthAll : List Pattern → Nat
  | [] => 0
  | p :: ps => max p.depth (depthAll ps)

end

end Pattern

end EvalServer
