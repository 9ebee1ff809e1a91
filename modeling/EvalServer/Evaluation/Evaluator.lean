import EvalServer.Evaluation.Arithmetic
import EvalServer.Evaluation.Computation
import EvalServer.Evaluation.Introspection

/-!
# The evaluator

Every form is a cancellation point before anything else is done with it. Symbols stand for their
definitions, a list with a symbol at its head is a call, and any other value stands for itself.
Main definitions: `evaluateForm` gives the computation of a form, where loading a file is a
computation that is handed in; `loadFile` is that computation, for files that load one another up
to a given depth; `evaluate` ties the two together.
-/

namespace EvalServer

namespace Eval

def lookup (name : String) : Eval Sexp := do
  let ns ← currentNamespace
  let b ← bindings
  match b.resolve? name ns with
  | some d => pure d.value
  | none => throw (.undefined name)

/-- Lets time pass in slices of ten milliseconds, with a cancellation point before each. -/
def sleep (milliseconds : Nat) : Eval Unit := do
  checkInterrupt
  if milliseconds = 0 then pure ()
  else
    let slice := min 10 milliseconds
    let _ : Unit ← request (.rest slice)
    sleep (milliseconds - slice)
termination_by milliseconds
decreasing_by omega

def define (name : String) (doc : Option String) (source : Option Source) (value : Sexp) :
    Eval Sexp := do
  let ns ← currentNamespace
  let _ : Unit ← request (.define ns name ⟨value, doc, source⟩)
  return .symbol ("#'" ++ ns ++ "/" ++ name)

def enterNamespace : Sexp → Eval Sexp
  | .symbol name | .str name => do
    let _ : Unit ← request (.openNamespace name)
    let _ : Unit ← request (.enterNamespace name)
    return .symbol name
  | got => throw (.type (.notNamespace got))

/-- A function of exactly one argument. -/
def unary (operator : String) (f : Sexp → Eval Sexp) : List Sexp → Eval Sexp
  | [argument] => f argument
  | arguments => throw (.arity operator arguments.length)

def applyBuiltin (b : Builtin) (arguments : List Sexp) : Eval Sexp :=
  match b.compute? with
  | some f => ofExcept (f arguments)
  | none =>
    match b with
    | .println => do
      writeOutput (Arithmetic.joined " " arguments ++ "\n")
      return .nil
    | .print => do
      writeOutput (Arithmetic.joined " " arguments)
      return .nil
    | .readLine =>
      if arguments.isEmpty then readLine else throw (.arity b.name arguments.length)
    | .yesOrNo => unary b.name (fun v => yesOrNo v.display) arguments
    | .sleep => unary b.name (fun
        | .int n => do
          sleep n.toInt.toNat
          return .nil
        | got => throw (.type (.notInteger b.name got))) arguments
    | _ => unary b.name (fun v => do
        let ns ← currentNamespace
        let known ← bindings
        return ((known.documentation? v.display ns).map Sexp.str).getD .nil) arguments

def apply (name : String) (arguments : List Sexp) : Eval Sexp :=
  match Builtin.ofName? name with
  | some b => applyBuiltin b arguments
  | none => do
    let _ ← lookup name
    throw (.type (.notFunction (.symbol name)))

mutual

/-- The computation of a form. Definitions are recorded as read from `source`. -/
def evaluateForm (load : String → Eval Sexp) (source : Option Source) : Sexp → Eval Sexp
  | .symbol name => do
    checkInterrupt
    lookup name
  | .list (head :: arguments) => do
    checkInterrupt
    match head with
    | .symbol name =>
      match SpecialForm.ofName? name with
      | some form => evaluateSpecial load source form arguments
      | none =>
        let values ← evaluateAll load source [] arguments
        apply name values
    | _ => throw (.type (.notFunction head))
  | v => do
    checkInterrupt
    return v

def evaluateSpecial (load : String → Eval Sexp) (source : Option Source) :
    SpecialForm → List Sexp → Eval Sexp
  | .quote, [form] => pure form
  | .define, [name, form] =>
    match name with
    | .symbol name => do
      let value ← evaluateForm load source form
      define name none source value
    | got => throw (.type (.notDefinable got))
  | .define, [name, .str doc, form] =>
    match name with
    | .symbol name => do
      let value ← evaluateForm load source form
      define name (some doc) source value
    | got => throw (.type (.notDefinable got))
  | .sequence, forms => evaluateBody load source .nil forms
  | .conditional, [test, consequence] => do
    let value ← evaluateForm load source test
    if value.isTrue then evaluateForm load source consequence else return .nil
  | .conditional, [test, consequence, alternative] => do
    let value ← evaluateForm load source test
    if value.isTrue then evaluateForm load source consequence
    else evaluateForm load source alternative
  | .inNamespace, [form] => do
    let value ← evaluateForm load source form
    enterNamespace value
  | .throw, [form] => do
    let value ← evaluateForm load source form
    throw (.raised value.display)
  | .loadFile, [form] => do
    let path ← evaluateForm load source form
    match path with
    | .str path => load path
    | _ => throw (.type .notPath)
  | form, arguments => throw (.arity form.name arguments.length)

/-- The values of forms, from left to right, behind those of `values`, which stand in reverse. -/
def evaluateAll (load : String → Eval Sexp) (source : Option Source) (values : List Sexp) :
    List Sexp → Eval (List Sexp)
  | [] => pure values.reverse
  | form :: rest => do
    let value ← evaluateForm load source form
    evaluateAll load source (value :: values) rest

/-- The value of the last form, `last` if there is none. -/
def evaluateBody (load : String → Eval Sexp) (source : Option Source) (last : Sexp) :
    List Sexp → Eval Sexp
  | [] => pure last
  | form :: rest => do
    let value ← evaluateForm load source form
    evaluateBody load source value rest

end

/-- Evaluates the forms of a text in order, each with the source that `sourceOf` gives its line,
and ends in the value of the last. -/
def evaluateForms (load : String → Eval Sexp) (sourceOf : Nat → Option Source) (last : Sexp) :
    List (Nat × Sexp) → Eval Sexp
  | [] => pure last
  | (line, form) :: rest => do
    let value ← evaluateForm load (sourceOf line) form
    evaluateForms load sourceOf value rest

/-- Loads a file: reads all of it, then evaluates its forms. Files may load one another up to
`depth` deep. -/
def loadFile : (depth : Nat) → (path : String) → Eval Sexp
  | 0, _ => throw .loadsTooDeep
  | depth + 1, path => do
    let contents : Except FileError String ← request (.readText path)
    match contents with
    | .error e => throw (.load path (.file e))
    | .ok text =>
      match Sexp.parseAll text with
      | .error e => throw (.load path (.unreadable e))
      | .ok forms => evaluateForms (loadFile depth) (fun line => some ⟨path, line⟩) .nil forms

/-- The computation of a form that no file holds. -/
def evaluate (depth : Nat) (form : Sexp) : Eval Sexp :=
  evaluateForm (loadFile depth) none form

end Eval

end EvalServer
