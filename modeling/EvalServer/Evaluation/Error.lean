import EvalServer.File.Store
import EvalServer.Sexp.Printer
import EvalServer.Sexp.Reader

/-!
# Evaluation errors

Why an evaluation has no value, by cause. `EvalError.message` gives the text that a client sees and
`EvalError.describe` the report of a failed request.
-/

namespace EvalServer

/-- What an operator was given that it cannot work on. -/
inductive TypeFault where
  | notFunction (head : Sexp)
  | notNamespace (got : Sexp)
  | notDefinable (got : Sexp)
  | notPath
  | notInteger (operator : String) (got : Sexp)
  | notCountable (got : Sexp)
  | notList (operator : String) (got : Sexp)
  | notString (operator : String) (got : Sexp)
  /-- A fault of which only the text is known. -/
  | described (text : String)
  deriving Repr, DecidableEq

def TypeFault.message : TypeFault → String
  | .notFunction head => head.print ++ " is not a function"
  | .notNamespace got => "in-ns expects a name, got " ++ got.print
  | .notDefinable got => "def expects a symbol, got " ++ got.print
  | .notPath => "load-file expects a string path"
  | .notInteger operator got => operator ++ " expects integers, got " ++ got.print
  | .notCountable got => "count not supported on " ++ got.print
  | .notList operator got => operator ++ " expects a list, got " ++ got.print
  | .notString operator got => operator ++ " expects a string, got " ++ got.print
  | .described text => text

/-- Why a file could not be loaded. -/
inductive LoadFault where
  | file (error : FileError)
  | unreadable (error : ReadError)
  /-- A fault of which only the text is known. -/
  | described (text : String)
  deriving Repr, DecidableEq

def LoadFault.message : LoadFault → String
  | .file error => error.message
  | .unreadable error => error.message
  | .described text => text

/-- Why an evaluation has no value. -/
inductive EvalError where
  /-- The program raised an error with a text of its own. -/
  | raised (text : String)
  | overflow
  | unreadable (error : ReadError)
  | undefined (name : String)
  | arity (operator : String) (got : Nat)
  | type (fault : TypeFault)
  | divideByZero
  | load (path : String) (fault : LoadFault)
  | interrupted
  | inputAborted
  | panicked (text : String)
  | loadsTooDeep
  deriving Repr, DecidableEq

namespace EvalError

def message : EvalError → String
  | .raised text => text
  | .overflow => "integer overflow"
  | .unreadable error => error.message
  | .undefined name => "Unable to resolve symbol: " ++ name ++ " in this context"
  | .arity operator got =>
    "Wrong number of args (" ++ Text.Decimal.natText got ++ ") passed to: " ++ operator
  | .type fault => fault.message
  | .divideByZero => "Divide by zero"
  | .load path fault => "Could not load " ++ path ++ ": " ++ fault.message
  | .interrupted => "Evaluation interrupted"
  | .inputAborted => "Input request aborted"
  | .panicked text => "Evaluation panicked: " ++ text
  | .loadsTooDeep => "Files load one another too deeply"

/-- The report of a failed request for a form in a namespace. -/
def describe (e : EvalError) (form : Sexp) (ns : String) : String :=
  e.message ++ "\n  while evaluating " ++ form.print ++ " in " ++ ns ++ "\n"

end EvalError

end EvalServer
