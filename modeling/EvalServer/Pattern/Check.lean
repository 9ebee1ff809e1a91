import EvalServer.Pattern.Reader

/-!
# Patterns that can be used

A pattern is matched without tables of characters, and byte by byte on UTF-8. So what needs such
tables is refused: shorthands and word boundaries that are not confined to ASCII, and letters of
either case that are not. What is confined to ASCII is refused if it would match a part of a
character: the dot, bytes beyond ASCII and negated classes.
-/

namespace EvalServer.Pattern

/-- The flags that decide whether a part can be used. -/
structure Mode where
  foldCase : Bool := false
  unicode : Bool := true
  deriving Repr, DecidableEq

def Mode.apply (m : Mode) (changes : FlagChanges) : Mode where
  foldCase := (changes.lookup .foldCase).getD m.foldCase
  unicode := (changes.lookup .unicode).getD m.unicode

/-- Whether a literal names a part of a character. -/
def Literal.isPart (l : Literal) : Bool :=
  l.byte && 128 ≤ l.char.toNat

/-- Whether a literal can be used. -/
def Literal.isUsable (m : Mode) (l : Literal) : Bool :=
  if m.unicode then !m.foldCase else !l.isPart

def Literal.isMember (m : Mode) (l : Literal) : Bool :=
  if m.unicode then !m.foldCase else l.char.toNat < 128

mutual

def SetItem.isUsable (m : Mode) : SetItem → Bool
  | .literal l => l.isMember m
  | .range first last => first.isMember m && last.isMember m
  | .named negated => if m.unicode then !m.foldCase else !negated
  | .shorthand negated => !m.unicode && !negated
  | .nested negated body => (m.unicode || !negated) && body.isUsable m

def SetBody.isUsable (m : Mode) : SetBody → Bool
  | .union items => SetItem.areUsable m items
  | .operation left right => left.isUsable m && right.isUsable m

def SetItem.areUsable (m : Mode) : List SetItem → Bool
  | [] => true
  | item :: rest => item.isUsable m && SetItem.areUsable m rest

end

mutual

/-- The mode after a pattern, if it can be used in a mode. -/
def modeAfter? (m : Mode) : Pattern → Option Mode
  | .flags changes => some (m.apply changes)
  | .literal l => if l.isUsable m then some m else none
  | .dot => if m.unicode then some m else none
  | .edge => some m
  | .word => if m.unicode then none else some m
  | .shorthand negated => if m.unicode || negated then none else some m
  | .set negated body =>
    if (m.unicode || !negated) && body.isUsable m then some m else none
  | .repetition p => modeAfter? m p
  | .group changes p => (modeAfter? (m.apply changes) p).map fun _ => m
  | .sequence ps => modeAfterAll? m ps
  | .alternatives ps => modeAfterAll? m ps

/-- The mode after some patterns; a change of flags reaches across alternatives. -/
def modeAfterAll? (m : Mode) : List Pattern → Option Mode
  | [] => some m
  | p :: ps => (modeAfter? m p).bind fun m => modeAfterAll? m ps

end

/-- How deep the parts of a pattern may be nested. -/
def maxDepth : Nat := 250

/-- Whether a text is a pattern that can be used. -/
def isValid (cs : List Char) : Bool :=
  (read? cs).any fun p => p.depth ≤ maxDepth && (modeAfter? {} p).isSome

end EvalServer.Pattern
