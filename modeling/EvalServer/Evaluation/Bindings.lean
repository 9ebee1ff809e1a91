import EvalServer.Sexp.Basic

/-!
# Bindings

The definitions of every namespace. A name with a slash between two parts that are not empty names
a definition of another namespace; any other name belongs to the namespace it is looked up in.
-/

namespace EvalServer

/-- Where a definition was read from. -/
structure Source where
  file : String
  line : Nat
  deriving Repr, DecidableEq

/-- What a name is bound to. -/
structure Definition where
  value : Sexp
  doc : Option String
  source : Option Source
  deriving Repr, DecidableEq

/-- The definitions of one namespace, by name. -/
abbrev Namespace := List (String × Definition)

/-- The definitions of every namespace that exists. -/
structure Bindings where
  namespaces : List (String × Namespace) := []
  deriving Repr, DecidableEq

namespace Bindings

/-- The table with one entry put in, in place of an older entry of the same key. -/
def replace {α : Type} (key : String) (value : α) : List (String × α) → List (String × α)
  | [] => [(key, value)]
  | entry :: rest =>
    if entry.1 = key then (key, value) :: rest else entry :: replace key value rest

/-- The definition of a plain name in a namespace. -/
def find? (b : Bindings) (ns name : String) : Option Definition :=
  (b.namespaces.lookup ns).bind fun definitions => definitions.lookup name

/-- The bindings after a definition, which creates the namespace if there is none. -/
def define (b : Bindings) (ns name : String) (d : Definition) : Bindings :=
  { namespaces := replace ns (replace name d ((b.namespaces.lookup ns).getD [])) b.namespaces }

def openNamespace (b : Bindings) (ns : String) : Bindings :=
  if (b.namespaces.lookup ns).isSome then b
  else { namespaces := b.namespaces ++ [(ns, [])] }

def names (b : Bindings) (ns : String) : List String :=
  ((b.namespaces.lookup ns).getD []).map Prod.fst

/-- The namespace and the plain name that a name stands for where `ns` is current. -/
def qualify (name ns : String) : String × String :=
  let package := name.toList.takeWhile (· ≠ '/')
  match name.toList.drop package.length with
  | '/' :: plain =>
    if package.isEmpty || plain.isEmpty then (ns, name)
    else (String.ofList package, String.ofList plain)
  | _ => (ns, name)

/-- The definition that a name stands for where `ns` is current. -/
def resolve? (b : Bindings) (name ns : String) : Option Definition :=
  b.find? (qualify name ns).1 (qualify name ns).2

theorem lookup_replace {α : Type} (key : String) (value : α) (entries : List (String × α))
    (other : String) :
    (replace key value entries).lookup other =
      if other = key then some value else entries.lookup other := by
  induction entries with
  | nil => by_cases h : other = key <;> simp [replace, h]
  | cons entry rest ih =>
    obtain ⟨k, v⟩ := entry
    unfold replace
    by_cases hk : k = key
    · subst hk
      by_cases h : other = k
      · simp [h]
      · have : (other == k) = false := by simpa using h
        simp [List.lookup_cons, h, this]
    · by_cases ho : other = k
      · subst ho
        simp [hk]
      · have : (other == k) = false := by simpa using ho
        simp [List.lookup_cons, hk, this, ih]

/-- A definition changes what its own name stands for, and nothing else. -/
theorem find?_define (b : Bindings) (ns name otherNs other : String) (d : Definition) :
    (b.define ns name d).find? otherNs other =
      if otherNs = ns ∧ other = name then some d else b.find? otherNs other := by
  unfold find? define
  by_cases hns : otherNs = ns
  · subst hns
    by_cases hname : other = name
    · simp [lookup_replace, hname]
    · cases h : b.namespaces.lookup otherNs <;> simp [lookup_replace, hname]
  · simp [lookup_replace, hns]

/-- A namespace that is opened holds what it held. -/
theorem find?_openNamespace (b : Bindings) (ns otherNs name : String) :
    (b.openNamespace ns).find? otherNs name = b.find? otherNs name := by
  unfold find? openNamespace
  split
  · rfl
  · next h =>
    by_cases ho : otherNs = ns
    · subst ho
      have hn : b.namespaces.lookup otherNs = none := Option.not_isSome_iff_eq_none.1 h
      simp [List.lookup_append, hn]
    · have : (otherNs == ns) = false := by simpa using ho
      simp [List.lookup_append, List.lookup_cons, this]

end Bindings

end EvalServer
