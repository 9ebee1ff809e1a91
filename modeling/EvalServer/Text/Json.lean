import EvalServer.Text.Hexadecimal

/-!
# JSON text

Strings as JSON writes them, and records laid out on lines of their own.
-/

namespace EvalServer.Text.Json

/-- One character between double quotes. -/
def escape (c : Char) : List Char :=
  match c with
  | '\x22' => ['\\', '\x22']
  | '\\' => ['\\', '\\']
  | '\x08' => ['\\', 'b']
  | '\x0c' => ['\\', 'f']
  | '\n' => ['\\', 'n']
  | '\r' => ['\\', 'r']
  | '\t' => ['\\', 't']
  | c => if c.toNat < 32 then '\\' :: 'u' :: Hexadecimal.digits 4 c.toNat else [c]

def quoted (s : String) : String :=
  String.ofList ('\x22' :: s.toList.flatMap escape ++ ['\x22'])

/-- Items between brackets, each on a line of its own. -/
def lines (left right margin : String) (items : List String) : String :=
  if items.isEmpty then left ++ right
  else left ++ "\n" ++ String.intercalate ",\n" (items.map fun item => margin ++ "  " ++ item) ++
    "\n" ++ margin ++ right

end EvalServer.Text.Json
