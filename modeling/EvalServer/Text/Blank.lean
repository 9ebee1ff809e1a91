import EvalServer.Text.Ranges

/-!
# Blank characters

The characters that separate tokens: those with the Unicode property White_Space.
-/

namespace EvalServer.Text

/-- The code points with the property White_Space, as closed ranges. -/
def blankRanges : List (Nat × Nat) :=
  [(0x9, 0xD), (0x20, 0x20), (0x85, 0x85), (0xA0, 0xA0), (0x1680, 0x1680), (0x2000, 0x200A),
   (0x2028, 0x2029), (0x202F, 0x202F), (0x205F, 0x205F), (0x3000, 0x3000)]

/-- A character is blank when it has the property White_Space. -/
def isBlank (c : Char) : Bool :=
  inRanges blankRanges c.toNat

/-- The text from its first character that is not blank. -/
def trimBlanks (s : String) : String :=
  String.ofList (s.toList.dropWhile isBlank)

end EvalServer.Text
