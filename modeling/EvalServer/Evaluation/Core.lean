import EvalServer.Message.Server

/-!
# The core language

The special forms and the builtin functions, with what an editor is told about them: the columns
by which the body of a form is indented, and the argument list and documentation of a function.
-/

namespace EvalServer

/-- The forms whose arguments are not all evaluated first. -/
inductive SpecialForm where
  | quote
  | define
  | sequence
  | conditional
  | inNamespace
  | throw
  | loadFile
  deriving Repr, DecidableEq

namespace SpecialForm

def all : List SpecialForm :=
  [.quote, .define, .sequence, .conditional, .inNamespace, .throw, .loadFile]

def name : SpecialForm → String
  | .quote => "quote"
  | .define => "def"
  | .sequence => "do"
  | .conditional => "if"
  | .inNamespace => "in-ns"
  | .throw => "throw"
  | .loadFile => "load-file"

/-- The columns by which the body is indented, for a form that has one. -/
def indent? : SpecialForm → Option Int64
  | .define => some 1
  | .sequence => some 0
  | .conditional => some 1
  | _ => none

def ofName? (s : String) : Option SpecialForm :=
  all.find? fun form => form.name = s

def hints : List Hint :=
  all.filterMap fun form => form.indent?.map fun indent => (form.name, indent)

end SpecialForm

/-- The functions of the core language. -/
inductive Builtin where
  | add
  | subtract
  | multiply
  | divide
  | equal
  | less
  | greater
  | lessOrEqual
  | greaterOrEqual
  | increment
  | decrement
  | not
  | str
  | list
  | count
  | first
  | rest
  | println
  | print
  | readLine
  | yesOrNo
  | sleep
  | doc
  deriving Repr, DecidableEq

namespace Builtin

def all : List Builtin :=
  [.add, .subtract, .multiply, .divide, .equal, .less, .greater, .lessOrEqual, .greaterOrEqual,
   .increment, .decrement, .not, .str, .list, .count, .first, .rest, .println, .print, .readLine,
   .yesOrNo, .sleep, .doc]

def name : Builtin → String
  | .add => "+"
  | .subtract => "-"
  | .multiply => "*"
  | .divide => "/"
  | .equal => "="
  | .less => "<"
  | .greater => ">"
  | .lessOrEqual => "<="
  | .greaterOrEqual => ">="
  | .increment => "inc"
  | .decrement => "dec"
  | .not => "not"
  | .str => "str"
  | .list => "list"
  | .count => "count"
  | .first => "first"
  | .rest => "rest"
  | .println => "println"
  | .print => "print"
  | .readLine => "read-line"
  | .yesOrNo => "y-or-n?"
  | .sleep => "sleep"
  | .doc => "doc"

def argumentList : Builtin → String
  | .add | .multiply | .str | .list | .println | .print => "([& xs])"
  | .subtract | .divide => "([x & ys])"
  | .equal | .less | .greater | .lessOrEqual | .greaterOrEqual => "([x & more])"
  | .increment | .decrement | .not => "([x])"
  | .count | .first | .rest => "([coll])"
  | .readLine => "([])"
  | .yesOrNo => "([prompt])"
  | .sleep => "([ms])"
  | .doc => "([name])"

def documentation : Builtin → String
  | .add => "Returns the sum of the integers."
  | .subtract => "Subtracts ys from x, or negates a single x."
  | .multiply => "Returns the product of the integers."
  | .divide => "Integer division of x by each y."
  | .equal => "True when all arguments are equal."
  | .less => "True when the integers increase strictly."
  | .greater => "True when the integers decrease strictly."
  | .lessOrEqual => "True when the integers never decrease."
  | .greaterOrEqual => "True when the integers never increase."
  | .increment => "Returns x plus one."
  | .decrement => "Returns x minus one."
  | .not => "True when x is nil."
  | .str => "Concatenates the printed arguments."
  | .list => "Returns a list of the arguments."
  | .count => "Number of items in a list or characters in a string."
  | .first => "First item of a list, or nil."
  | .rest => "All but the first item of a list."
  | .println => "Prints the arguments followed by a newline."
  | .print => "Prints the arguments."
  | .readLine => "Reads one line of input from the client."
  | .yesOrNo => "Asks the client a yes or no question."
  | .sleep => "Sleeps for ms milliseconds; interruptible."
  | .doc => "Returns the documentation of a name."

def ofName? (s : String) : Option Builtin :=
  all.find? fun builtin => builtin.name = s

end Builtin

def coreNames : List String :=
  Builtin.all.map Builtin.name ++ SpecialForm.all.map SpecialForm.name

end EvalServer
