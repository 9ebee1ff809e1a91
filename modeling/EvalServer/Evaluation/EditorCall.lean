import EvalServer.Coding
import EvalServer.Evaluation.Evaluator
import EvalServer.File.Source

/-!
# Editor calls

Requests of the form `(swank/name argument ...)` are operations of the editor. Their arguments are
literals that are not evaluated; a quoted argument stands for what it quotes. Main definition:
`evaluateRequest`, which answers editor calls and evaluates every other form.
-/

namespace EvalServer

/-- How connections are served. -/
inductive Style where
  /-- Each connection is served in the background. -/
  | spawn
  /-- Connections are served by whoever listens, one at a time. -/
  | inline
  deriving Repr, DecidableEq, Inhabited

def Style.name : Style → String
  | .spawn => "spawn"
  | .inline => "nil"

/-- The facts about process and connection that editors ask for. -/
structure Host where
  processId : String
  workingDirectory : String
  sourcePaths : List String
  style : Style
  coding : Coding
  /-- How deep files may load one another. -/
  loadDepth : Nat
  deriving Repr, DecidableEq

namespace EditorCall

def package : String := "swank"

def protocolVersion : String := "20100404"

def implementation : String := "swankd"

def implementationVersion : String := "0.1.0"

/-- The operation and the arguments of an editor call. -/
def ofSexp? (form : Sexp) : Option (String × List Sexp) :=
  match form.items? with
  | some (.symbol head :: arguments) =>
    let start := package ++ "/"
    if head.startsWith start then some (String.ofList (head.toList.drop start.length), arguments)
    else none
  | _ => none

def fullName (operation : String) : String :=
  package ++ "/" ++ operation

theorem ofSexp?_fullName (operation : String) (arguments : List Sexp) :
    ofSexp? (.list (.symbol (fullName operation) :: arguments)) = some (operation, arguments) := by
  have htoList : (fullName operation).toList = (package ++ "/").toList ++ operation.toList :=
    String.toList_append
  have hstart : (fullName operation).startsWith (package ++ "/") = true := by
    rw [String.startsWith_string_iff, htoList]
    exact List.prefix_append _ _
  have hrest : (fullName operation).toList.drop (package ++ "/").length = operation.toList := by
    rw [htoList, ← String.length_toList, List.drop_left]
  simp only [ofSexp?, Sexp.items?, hstart, hrest, if_true, String.ofList_toList]

/-- What a quoted argument quotes, and any other argument itself. -/
def unquote : Sexp → Sexp
  | .list [.symbol "quote", form] => form
  | v => v

/-- The text of an argument that must be a string or a symbol. -/
def textArgument (operation : String) (arguments : List Sexp) (index : Nat) :
    Except EvalError String :=
  match (arguments[index]?).map unquote with
  | some (.str text) | some (.symbol text) => .ok text
  | some got => .error (.type (.notString (fullName operation) got))
  | none => .error (.arity (fullName operation) arguments.length)

/-- The namespace that an argument names, if it names one. -/
def namespaceArgument (arguments : List Sexp) (index : Nat) (current : String) : String :=
  match (arguments[index]?).map unquote with
  | some (.str text) | some (.symbol text) => text
  | _ => current

/-- Evaluates every form of a text and ends in the value of the last. -/
def evaluateText (host : Host) (text : String) : Eval Sexp :=
  match Sexp.parseAll text with
  | .error e => throw (.unreadable e)
  | .ok forms => Eval.evaluateForms (Eval.loadFile host.loadDepth) (fun _ => none) .nil forms

/-- What an editor is told when it connects. -/
def connectionInfo (host : Host) (ns : String) : Sexp :=
  .list [
    .keyword "pid", .str host.processId,
    .keyword "style", (match host.style with
      | .spawn => .keyword "spawn"
      | .inline => .nil),
    .keyword "encoding", .list [.keyword "coding-systems", .list [.str host.coding.name]],
    .keyword "lisp-implementation", .list [
      .keyword "type", .str implementation,
      .keyword "name", .str implementation,
      .keyword "version", .str implementationVersion],
    .keyword "package", .list [.keyword "name", .str ns, .keyword "prompt", .str ns],
    .keyword "version", .str protocolVersion]

def firstFile : List String → Eval (Option String)
  | [] => pure none
  | path :: rest => do
    let found : Bool ← Eval.request (.isFile path)
    if found then return some path else firstFile rest

/-- The path and line of what a name stands for. -/
def locate (host : Host) (name ns : String) : Eval (Option (String × Nat)) := do
  let known ← Eval.bindings
  match (known.describe? name ns).bind NameInfo.source with
  | none => return none
  | some source =>
    let directories := host.sourcePaths ++ [host.workingDirectory]
    let path ← firstFile (File.candidates source.file directories)
    return path.map fun path => (path, source.line)

/-- The answer to a search for the definition of a name. -/
def definitions (host : Host) (name ns : String) : Eval Sexp := do
  let entry ← match ← locate host name ns with
    | some (path, line) => pure (Sexp.list [
        .keyword "location",
        .list [.keyword "file", .str path],
        .list [.keyword "line", .int (Int64.ofNat line)],
        .nil])
    | none => pure (Sexp.list [.keyword "error", .str ("No source location for " ++ name)])
  return .list [.list [.str name, entry]]

/-- The completions of a text and the longest start they share. -/
def completions (known : Bindings) (start ns : String) : Sexp :=
  let names := known.completions start ns
  .list [.list (names.map Sexp.str), .str ((commonStart names).getD start)]

def run (host : Host) (operation : String) (arguments : List Sexp) : Eval Sexp := do
  let text := textArgument operation arguments
  let ns ← Eval.currentNamespace
  match operation with
  | "connection-info" => return connectionInfo host ns
  | "create-repl" => return .list [.str ns, .str ns]
  | "interactive-eval" =>
    let value ← evaluateText host (← Eval.ofExcept (text 0))
    return .str ("=> " ++ value.print)
  | "listener-eval" =>
    let value ← evaluateText host (← Eval.ofExcept (text 0))
    let _ : Unit ← Eval.request (.writeResult (value.print ++ "\n"))
    return .nil
  | "simple-completions" =>
    let start ← Eval.ofExcept (text 0)
    let known ← Eval.bindings
    return completions known start (namespaceArgument arguments 1 ns)
  | "operator-arglist" =>
    let name ← Eval.ofExcept (text 0)
    let known ← Eval.bindings
    let info := known.describe? name (namespaceArgument arguments 1 ns)
    return ((info.bind NameInfo.argumentList).map Sexp.str).getD .nil
  | "documentation-symbol" =>
    let name ← Eval.ofExcept (text 0)
    let known ← Eval.bindings
    return .str ((known.documentation? name ns).getD ("No documentation for " ++ name))
  | "find-definitions-for-emacs" =>
    let name ← Eval.ofExcept (text 0)
    definitions host name ns
  | "load-file" =>
    let path ← Eval.ofExcept (text 0)
    Eval.evaluate host.loadDepth (.list [.symbol SpecialForm.loadFile.name, .str path])
  | "default-directory" => return .str host.workingDirectory
  | "buffer-first-change" => return .nil
  | "quit-lisp" =>
    let _ : Unit ← Eval.request .requestQuit
    return .nil
  | _ => throw (.undefined (fullName operation))

end EditorCall

/-- The computation of a request: an operation of the editor, or an evaluation. -/
def evaluateRequest (host : Host) (form : Sexp) : Eval Sexp :=
  match EditorCall.ofSexp? form with
  | some (operation, arguments) => EditorCall.run host operation arguments
  | none => Eval.evaluate host.loadDepth form

theorem evaluateRequest_fullName (host : Host) (operation : String) (arguments : List Sexp) :
    evaluateRequest host (.list (.symbol (EditorCall.fullName operation) :: arguments)) =
      EditorCall.run host operation arguments := by
  rw [evaluateRequest, EditorCall.ofSexp?_fullName]

end EvalServer
