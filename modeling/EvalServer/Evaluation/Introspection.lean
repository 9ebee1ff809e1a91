import EvalServer.Evaluation.Bindings
import EvalServer.Evaluation.Core

/-!
# Introspection

What an editor asks about names: what a name stands for, which names start with a text, and how
deep the bodies of forms are indented. Definitions of the user hide names of the core language.
-/

namespace EvalServer

/-- What is known about a name. -/
structure NameInfo where
  name : String
  home : String
  argumentList : Option String := none
  doc : Option String := none
  source : Option Source := none
  deriving Repr, DecidableEq

namespace NameInfo

def coreNamespace : String := "core"

def ofDefinition (name ns : String) (d : Definition) : NameInfo :=
  { name := (Bindings.qualify name ns).2, home := (Bindings.qualify name ns).1,
    doc := d.doc, source := d.source }

def ofBuiltin (b : Builtin) : NameInfo :=
  { name := b.name, home := coreNamespace, argumentList := some b.argumentList,
    doc := some b.documentation }

def ofSpecialForm (form : SpecialForm) : NameInfo :=
  { name := form.name, home := coreNamespace, doc := some "Special form." }

end NameInfo

/-- The names in ascending order by code points, each once. -/
def sortedNames (names : List String) : List String :=
  (names.mergeSort fun a b => decide (a ≤ b)).eraseDups

/-- The longest text that every name starts with. -/
def commonStart : List String → Option String
  | [] => none
  | name :: rest => some (String.ofList (rest.foldl (fun common other =>
      ((common.zip other.toList).takeWhile fun pair => pair.1 = pair.2).map Prod.fst) name.toList))

namespace Bindings

/-- What a name stands for where `ns` is current. -/
def describe? (b : Bindings) (name ns : String) : Option NameInfo :=
  match b.resolve? name ns with
  | some d => some (.ofDefinition name ns d)
  | none =>
    match Builtin.ofName? name with
    | some builtin => some (.ofBuiltin builtin)
    | none => (SpecialForm.ofName? name).map .ofSpecialForm

/-- The documentation of a name where `ns` is current. -/
def documentation? (b : Bindings) (name ns : String) : Option String :=
  (b.describe? name ns).bind NameInfo.doc

/-- The names of a namespace and of the core language that start with a text. -/
def completions (b : Bindings) (start ns : String) : List String :=
  sortedNames ((b.names ns ++ coreNames).filter fun name => name.startsWith start)

end Bindings

/-- The indentation of forms in a namespace, which is that of the core language. -/
def indentationHints (_ns : String) : List Hint :=
  SpecialForm.hints

end EvalServer
