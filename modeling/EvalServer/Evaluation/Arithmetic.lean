import EvalServer.Evaluation.Core
import EvalServer.Evaluation.Error
import EvalServer.Integer

/-!
# Functions on values

The builtin functions that only compute. Integer functions first require that every argument is
an integer; a result or partial result outside 64 bits is an overflow.
-/

namespace EvalServer

namespace Arithmetic

/-- The integers that arguments are. -/
def integers (operator : String) : List Sexp → Except EvalError (List Int64)
  | [] => .ok []
  | .int n :: rest => (integers operator rest).map (n :: ·)
  | got :: _ => .error (.type (.notInteger operator got))

def checked : Option Int64 → Except EvalError Sexp
  | some n => .ok (.int n)
  | none => .error .overflow

/-- Combines a start value with integers from left to right. -/
def accumulate (op : Int64 → Int64 → Option Int64) : Int64 → List Int64 → Option Int64
  | start, [] => some start
  | start, n :: rest => (op start n).bind fun next => accumulate op next rest

/-- Divides by each divisor in turn. -/
def quotient : Int64 → List Int64 → Except EvalError Sexp
  | n, [] => .ok (.int n)
  | n, d :: rest =>
    if d = 0 then .error .divideByZero
    else match Integer.div? n d with
      | some q => quotient q rest
      | none => .error .overflow

/-- Whether a relation holds between each two neighbours. -/
def chain (related : Int64 → Int64 → Bool) : List Int64 → Bool
  | a :: b :: rest => related a b && chain related (b :: rest)
  | _ => true

/-- A comparison of one integer or more. -/
def compare (operator : String) (related : Int64 → Int64 → Bool) (arguments : List Sexp) :
    Except EvalError Sexp :=
  if arguments.isEmpty then .error (.arity operator 0)
  else (integers operator arguments).map fun ns => Sexp.ofBool (chain related ns)

/-- A function of exactly one argument. -/
def unary (operator : String) (f : Sexp → Except EvalError Sexp) :
    List Sexp → Except EvalError Sexp
  | [argument] => f argument
  | arguments => .error (.arity operator arguments.length)

def unaryInteger (operator : String) (f : Int64 → Option Int64) :
    List Sexp → Except EvalError Sexp :=
  unary operator fun
    | .int n => checked (f n)
    | got => .error (.type (.notInteger operator got))

/-- The difference of one integer and others, or the negation of a single one. -/
def difference (arguments : List Sexp) : Except EvalError Sexp :=
  match integers "-" arguments with
  | .error e => .error e
  | .ok [] => .error (.arity "-" 0)
  | .ok [n] => checked (Integer.neg? n)
  | .ok (n :: rest) => checked (accumulate Integer.sub? n rest)

/-- One integer divided by others, or one divided by a single integer. -/
def division (arguments : List Sexp) : Except EvalError Sexp :=
  match integers "/" arguments with
  | .error e => .error e
  | .ok [] => .error (.arity "/" 0)
  | .ok [n] => quotient 1 [n]
  | .ok (n :: rest) => quotient n rest

/-- The text of one argument; `nil` prints as nothing. -/
def argumentText : Sexp → String
  | .nil => ""
  | v => v.display

/-- The texts of arguments with a separator between each two. -/
def joined (separator : String) (arguments : List Sexp) : String :=
  separator.intercalate (arguments.map argumentText)

/-- The number of items of a list or of characters of a string. -/
def countOf : Sexp → Except EvalError Sexp
  | .str text => .ok (.int (Int64.ofNat text.length))
  | v => match v.items? with
    | some items => .ok (.int (Int64.ofNat items.length))
    | none => .error (.type (.notCountable v))

def onItems (operator : String) (f : List Sexp → Sexp) (v : Sexp) : Except EvalError Sexp :=
  match v.items? with
  | some items => .ok (f items)
  | none => .error (.type (.notList operator v))

end Arithmetic

open Arithmetic in
/-- The value of a function that only computes; the others have none here. -/
def Builtin.compute? : Builtin → Option (List Sexp → Except EvalError Sexp)
  | .add => some fun args =>
    (integers "+" args).bind fun ns => checked (accumulate Integer.add? 0 ns)
  | .multiply => some fun args =>
    (integers "*" args).bind fun ns => checked (accumulate Integer.mul? 1 ns)
  | .subtract => some difference
  | .divide => some division
  | .equal => some fun
    | [] => .error (.arity "=" 0)
    | a :: others => .ok (Sexp.ofBool (others.all fun b => b = a))
  | .less => some (compare "<" fun a b => a.toInt < b.toInt)
  | .greater => some (compare ">" fun a b => b.toInt < a.toInt)
  | .lessOrEqual => some (compare "<=" fun a b => a.toInt ≤ b.toInt)
  | .greaterOrEqual => some (compare ">=" fun a b => b.toInt ≤ a.toInt)
  | .increment => some (unaryInteger "inc" fun n => Integer.add? n 1)
  | .decrement => some (unaryInteger "dec" fun n => Integer.sub? n 1)
  | .not => some (unary "not" fun v => .ok (Sexp.ofBool !v.isTrue))
  | .str => some fun args => .ok (.str (joined "" args))
  | .list => some fun args => .ok (.list args)
  | .count => some (unary "count" countOf)
  | .first => some (unary "first" (onItems "first" fun items => items.head?.getD .nil))
  | .rest => some (unary "rest" (onItems "rest" fun items => .list items.tail))
  | .println | .print | .readLine | .yesOrNo | .sleep | .doc => none

end EvalServer
