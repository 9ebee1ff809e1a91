import EvalServer.Text.Decimal
import EvalServer.Toml.Literal

/-!
# Writing TOML

Documents without tables are written an entry a line. An array of two elements or more has a line
for each of them.
-/

namespace EvalServer.Toml

/-- What can be written. -/
inductive Entry where
  | string (text : String)
  | integer (n : Nat)
  | boolean (b : Bool)
  | strings (texts : List String)
  deriving Repr, DecidableEq

def quoted (text : String) : String :=
  String.ofList (Literal.write text.toList)

def Entry.value : Entry → Value
  | .string text => .string text
  | .integer n => .integer n
  | .boolean b => .boolean b
  | .strings texts => .array (texts.map .string)

/-- What stands after the equals sign. -/
def Entry.print : Entry → String
  | .string text => quoted text
  | .integer n => Text.Decimal.natText n
  | .boolean b => if b then "true" else "false"
  | .strings [] => "[]"
  | .strings [text] => "[" ++ quoted text ++ "]"
  | .strings texts => "[\n" ++ String.join (texts.map fun t => "    " ++ quoted t ++ ",\n") ++ "]"

/-- A document of entries with plain keys. -/
def print (entries : List (String × Entry)) : String :=
  String.join (entries.map fun e => e.1 ++ " = " ++ e.2.print ++ "\n")

end EvalServer.Toml
