import EvalServer.Proofs.Evaluation.Loading

/-!
# The sources of definitions

Where a definition was read from is recorded and never looked at by an evaluation. So two
evaluations of the same forms that record different sources go side by side, whatever the forms do.
They are related request by request, and as no reply but the bindings can tell them apart, this goes
from the parts of a computation to the whole.
-/

namespace EvalServer

/-! ## Definitions without their sources -/

def Definition.bare (d : Definition) : Definition :=
  { d with source := none }

namespace Bindings

variable {α β : Type}

def mapEntries (f : α → β) (entries : List (String × α)) : List (String × β) :=
  entries.map fun entry => (entry.1, f entry.2)

/-- The bindings without the sources of definitions. -/
def bare (b : Bindings) : Bindings where
  namespaces := mapEntries (mapEntries Definition.bare) b.namespaces

lemma lookup_mapEntries (f : α → β) (entries : List (String × α)) (key : String) :
    (mapEntries f entries).lookup key = (entries.lookup key).map f := by
  induction entries with
  | nil => rfl
  | cons entry rest ih =>
    change List.lookup key ((entry.1, f entry.2) :: mapEntries f rest) = _
    rw [List.lookup_cons, List.lookup_cons, ih]
    cases key == entry.1 <;> rfl

lemma replace_mapEntries (f : α → β) (key : String) (value : α) (entries : List (String × α)) :
    replace key (f value) (mapEntries f entries) = mapEntries f (replace key value entries) := by
  induction entries with
  | nil => rfl
  | cons entry rest ih =>
    change (if entry.1 = key then _ else _ :: replace key (f value) (mapEntries f rest)) = _
    rw [ih, replace]
    split <;> rfl

variable {b b' : Bindings} {ns name : String}

lemma bare_define (b : Bindings) (ns name : String) (d : Definition) :
    (b.define ns name d).bare = b.bare.define ns name d.bare := by
  have hnone : mapEntries Definition.bare ((b.namespaces.lookup ns).getD []) =
      ((mapEntries (mapEntries Definition.bare) b.namespaces).lookup ns).getD [] := by
    rw [lookup_mapEntries]
    cases b.namespaces.lookup ns <;> rfl
  unfold define bare
  rw [← hnone, replace_mapEntries, replace_mapEntries]

lemma bare_openNamespace (b : Bindings) (ns : String) :
    (b.openNamespace ns).bare = b.bare.openNamespace ns := by
  unfold openNamespace bare
  rw [lookup_mapEntries, Option.isSome_map]
  split
  · rfl
  · simp [mapEntries]

lemma resolve?_bare (b : Bindings) (name ns : String) :
    b.bare.resolve? name ns = (b.resolve? name ns).map Definition.bare := by
  unfold resolve? find? bare
  rw [lookup_mapEntries]
  cases b.namespaces.lookup (qualify name ns).1 with
  | none => rfl
  | some definitions => exact lookup_mapEntries _ _ _

lemma documentation?_bare (b : Bindings) (name ns : String) :
    b.bare.documentation? name ns = b.documentation? name ns := by
  unfold documentation? describe?
  rw [resolve?_bare]
  cases b.resolve? name ns <;> rfl

end Bindings

namespace Script

variable {α β : Type} {s s' : Script}

/-- The flag is never seen raised on these consoles, which differ in the sources of definitions at
most. -/
structure Alike (s s' : Script) : Prop where
  calm : s.checksLeft = none
  eq : { s with bindings := s.bindings.bare } = { s' with bindings := s'.bindings.bare }

/-- An evaluation ends before files have loaded one another too deep. -/
def Ends (s : Script) (x : Eval α) : Prop :=
  (s.run x.run).1 ≠ .error .loadsTooDeep

/-- The sources of a definition in a file. -/
def ReadFrom (path : String) (source source' : Option Source) : Prop :=
  source = source' ∧ ∃ line, source = some ⟨path, line⟩

/-- Two evaluations ask the same, up to the sources of definitions: these are as `own` says, and for
definitions in files that are loaded on the way they are the file's in both. -/
inductive Accord : (Option Source → Option Source → Prop) → List Request → List Request → Prop
  | nil {own : Option Source → Option Source → Prop} : Accord own [] []
  | same {own : Option Source → Option Source → Prop} {r : Request} {rest rest' : List Request} :
      (∀ ns name d, r ≠ .define ns name d) → (∀ path, r ≠ .readText path) →
      Accord own rest rest' → Accord own (r :: rest) (r :: rest')
  | define {own : Option Source → Option Source → Prop} {ns name : String} {value : Sexp}
      {doc : Option String} {source source' : Option Source} {rest rest' : List Request} :
      own source source' → Accord own rest rest' →
      Accord own (.define ns name ⟨value, doc, source⟩ :: rest)
        (.define ns name ⟨value, doc, source'⟩ :: rest')
  | load {own : Option Source → Option Source → Prop} {path : String}
      {inside inside' rest rest' : List Request} :
      Accord (ReadFrom path) inside inside' → Accord own rest rest' →
      Accord own (.readText path :: (inside ++ rest)) (.readText path :: (inside' ++ rest'))

/-- Two evaluations end in the same way, and have asked the same up to the sources of
definitions. -/
structure Agree (own : Option Source → Option Source → Prop) (s s' : Script) (x x' : Eval α) :
    Prop where
  result : (s.run x.run).1 = (s'.run x'.run).1
  alike : (s.run x.run).2.Alike (s'.run x'.run).2
  accord : Accord own (s.requests x.run) (s'.requests x'.run)

/-- Where the first evaluation ends, the second one does the same. -/
def Follows (own : Option Source → Option Source → Prop) (x x' : Eval α) : Prop :=
  ∀ s s' : Script, s.Alike s' → s.Ends x → s.Agree own s' x x'

variable {own : Option Source → Option Source → Prop}

lemma Accord.append {a a' b b' : List Request} (h : Accord own a a') (hb : Accord own b b') :
    Accord own (a ++ b) (a' ++ b') := by
  induction h with
  | nil => exact hb
  | same hdefine hread _ ih => exact .same hdefine hread (ih hb)
  | define hown _ ih => exact .define hown (ih hb)
  | load hinside _ _ ih =>
    rw [List.cons_append, List.cons_append, List.append_assoc, List.append_assoc]
    exact .load hinside (ih hb)

/-- Evaluations that record the same sources ask the same. -/
lemma Accord.eq {a a' : List Request} (h : Accord own a a') (hown : ∀ x y, own x y → x = y) :
    a = a' := by
  induction h with
  | nil => rfl
  | same _ _ _ ih => rw [ih hown]
  | define hsource _ ih => rw [hown _ _ hsource, ih hown]
  | load _ _ ih ih' => rw [ih fun _ _ hread => hread.1, ih' hown]

/-! ## Consoles that are alike -/

section alike

lemma Alike.refl (h : s.checksLeft = none) : s.Alike s :=
  ⟨h, rfl⟩

lemma Alike.exists_bindings (h : s.Alike s') :
    ∃ b, s' = { s with bindings := b } ∧ s.bindings.bare = b.bare := by
  have heq := h.eq
  simp only [Script.mk.injEq] at heq
  refine ⟨s'.bindings, ?_, heq.1⟩
  rw [Script.mk.injEq]
  exact ⟨rfl, heq.2.1.symm, heq.2.2.1.symm, heq.2.2.2.1.symm, heq.2.2.2.2.1.symm,
    heq.2.2.2.2.2.1.symm, heq.2.2.2.2.2.2.1.symm, heq.2.2.2.2.2.2.2.symm⟩

/-- Requests that neither read nor change definitions have the same replies on consoles that are
alike. -/
lemma Alike.answer (h : s.Alike s') {r : Request} (hbindings : r ≠ .bindings)
    (hdefine : ∀ ns name d, r ≠ .define ns name d) :
    (s.answer r).1 = (s'.answer r).1 ∧ (s.answer r).2.Alike (s'.answer r).2 := by
  obtain ⟨b', rfl, hb⟩ := h.exists_bindings
  obtain ⟨b, files, ns, checksLeft, input, log, quit, elapsed⟩ := s
  obtain ⟨rfl, -⟩ := h
  have hkept : ∀ t : Script, t.checksLeft = none → t.bindings = b →
      t.Alike { t with bindings := b' } := by
    rintro t hcalm rfl
    exact ⟨hcalm, by simp only [hb]⟩
  cases r with
  | bindings => exact absurd rfl hbindings
  | define ns name d => exact absurd rfl (hdefine ns name d)
  | openNamespace dest =>
    refine ⟨rfl, rfl, ?_⟩
    simp only [Script.answer, Bindings.bare_openNamespace, hb]
  | ask question =>
    cases question <;> cases input <;> exact ⟨rfl, hkept _ rfl rfl⟩
  | _ => exact ⟨rfl, hkept _ rfl rfl⟩

end alike

/-! ## Evaluations that follow one another -/

section follows

lemma follows_pure (a : α) : Follows own (pure a) (pure a) :=
  fun _ _ h _ => ⟨rfl, h, .nil⟩

lemma follows_throw (e : EvalError) : Follows own (throw e : Eval α) (throw e) :=
  fun _ _ h _ => ⟨rfl, h, .nil⟩

lemma follows_ofExcept (result : Except EvalError α) :
    Follows own (Eval.ofExcept result) (Eval.ofExcept result) :=
  fun _ _ h _ => ⟨rfl, h, .nil⟩

/-- What is too deep never ends. -/
lemma follows_of_tooDeep (x' : Eval α) : Follows own (throw .loadsTooDeep) x' :=
  fun _ _ _ hends => absurd rfl hends

lemma Follows.bind {x x' : Eval α} {f f' : α → Eval β} (hx : Follows own x x')
    (hf : ∀ a, Follows own (f a) (f' a)) : Follows own (x >>= f) (x' >>= f') := by
  intro s s' h hends
  cases hrun : s.run x.run with
  | mk result t =>
    cases hrun' : s'.run x'.run with
    | mk result' t' =>
    cases result with
    | error e =>
      obtain ⟨hresult, hrequests⟩ := run_bind_error (f := f) hrun
      have hends : s.Ends x := by
        intro hdeep
        rw [Ends, hresult] at hends
        rw [hrun] at hdeep
        cases hdeep
        exact hends rfl
      obtain ⟨heq, halike, haccord⟩ := hx s s' h hends
      rw [hrun, hrun'] at heq halike
      obtain rfl : .error e = result' := heq
      obtain ⟨hresult', hrequests'⟩ := run_bind_error (f := f') hrun'
      refine ⟨?_, ?_, ?_⟩
      · rw [hresult, hresult']
      · rw [hresult, hresult']
        exact halike
      · rw [hrequests, hrequests']
        exact haccord
    | ok a =>
      obtain ⟨hresult, hrequests⟩ := run_bind_ok (f := f) hrun
      obtain ⟨heq, halike, haccord⟩ := hx s s' h (by rw [Ends, hrun]; simp)
      rw [hrun, hrun'] at heq halike
      obtain rfl : .ok a = result' := heq
      obtain ⟨hresult', hrequests'⟩ := run_bind_ok (f := f') hrun'
      rw [Ends, hresult] at hends
      obtain ⟨heq, hafter, hrest⟩ := hf a t t' halike hends
      refine ⟨?_, ?_, ?_⟩
      · rw [hresult, hresult', heq]
      · rw [hresult, hresult']
        exact hafter
      · rw [hrequests, hrequests']
        exact haccord.append hrest

lemma follows_request {r : Request} (hbindings : r ≠ .bindings)
    (hdefine : ∀ ns name d, r ≠ .define ns name d) (hread : ∀ path, r ≠ .readText path) :
    Follows own (Eval.request r) (Eval.request r) := by
  intro s s' h _
  obtain ⟨hreply, hafter⟩ := h.answer hbindings hdefine
  exact ⟨congrArg Except.ok hreply, hafter, .same hdefine hread .nil⟩

/-- Whatever looks at definitions may not look at their sources. -/
lemma follows_bindings {f f' : Bindings → Eval α}
    (hf : ∀ b b', b.bare = b'.bare → Follows own (f b) (f' b')) :
    Follows own (Eval.bindings >>= f) (Eval.bindings >>= f') := by
  intro s s' h hends
  obtain ⟨b', rfl, hb⟩ := h.exists_bindings
  obtain ⟨hresult, hafter, haccord⟩ := hf _ _ hb s _ h hends
  exact ⟨hresult, hafter, .same (by simp) (by simp) haccord⟩

lemma follows_store {ns name : String} {value : Sexp} {doc : Option String}
    {source source' : Option Source} (hown : own source source') :
    Follows own (Eval.request (.define ns name ⟨value, doc, source⟩))
      (Eval.request (.define ns name ⟨value, doc, source'⟩)) := by
  intro s s' h _
  obtain ⟨b', rfl, hb⟩ := h.exists_bindings
  refine ⟨rfl, ⟨h.calm, ?_⟩, .define hown .nil⟩
  change ({ s with bindings := (s.bindings.define ns name _).bare } : Script) =
    { s with bindings := (b'.define ns name _).bare }
  rw [Bindings.bare_define, Bindings.bare_define, hb]
  rfl

/-- What follows a look at a file is about definitions in that file. -/
lemma follows_read {path : String} {f f' : Except FileError String → Eval α}
    (hf : ∀ contents, Follows (ReadFrom path) (f contents) (f' contents)) :
    Follows own (Eval.request (.readText path) >>= f) (Eval.request (.readText path) >>= f') := by
  intro s s' h hends
  obtain ⟨b', rfl, hb⟩ := h.exists_bindings
  obtain ⟨hresult, hafter, haccord⟩ := hf (s.files.readText path) s _ h hends
  refine ⟨hresult, hafter, ?_⟩
  have hload : Accord own (.readText path :: _) (.readText path :: _) := .load haccord .nil
  rwa [List.append_nil, List.append_nil] at hload

lemma follows_checkInterrupt : Follows own Eval.checkInterrupt Eval.checkInterrupt := by
  refine (follows_request (r := .interrupted) (by simp) (by simp) (by simp)).bind fun raised => ?_
  cases (raised : Bool) with
  | true => exact follows_throw _
  | false => exact follows_pure _

lemma follows_currentNamespace : Follows own Eval.currentNamespace Eval.currentNamespace :=
  follows_request (by simp) (by simp) (by simp)

lemma follows_ask (question : Question) : Follows own (Eval.ask question) (Eval.ask question) := by
  refine (follows_request (r := .ask question) (by simp) (by simp) (by simp)).bind fun answer => ?_
  cases (answer : Option question.Answer) with
  | some answer => exact follows_pure _
  | none => exact follows_throw _

lemma follows_lookup (name : String) : Follows own (Eval.lookup name) (Eval.lookup name) := by
  refine follows_currentNamespace.bind fun ns => follows_bindings fun b b' hb => ?_
  have hbare : (b.resolve? name ns).map Definition.bare =
      (b'.resolve? name ns).map Definition.bare := by
    rw [← Bindings.resolve?_bare, ← Bindings.resolve?_bare, hb]
  cases hfind : b.resolve? name ns with
  | none =>
    rw [hfind, Option.map_none, eq_comm, Option.map_eq_none_iff] at hbare
    rw [hbare]
    exact follows_throw _
  | some d =>
    rw [hfind, Option.map_some, eq_comm, Option.map_eq_some_iff] at hbare
    obtain ⟨d', hfind', hd⟩ := hbare
    have hvalue : d'.value = d.value := (Definition.mk.inj hd).1
    rw [hfind']
    dsimp only
    rw [hvalue]
    exact follows_pure _

lemma follows_sleep (milliseconds : Nat) :
    Follows own (Eval.sleep milliseconds) (Eval.sleep milliseconds) := by
  induction milliseconds using Nat.strongRecOn with
  | ind milliseconds ih =>
    unfold Eval.sleep
    refine follows_checkInterrupt.bind fun _ => ?_
    split
    · exact follows_pure _
    · next hpos =>
      refine (follows_request (r := .rest _) (by simp) (by simp) (by simp)).bind fun _ => ?_
      exact ih _ (by omega)

lemma follows_define (name : String) (doc : Option String) {source source' : Option Source}
    (hown : own source source') (value : Sexp) :
    Follows own (Eval.define name doc source value) (Eval.define name doc source' value) :=
  follows_currentNamespace.bind fun _ => (follows_store hown).bind fun _ => follows_pure _

lemma follows_enterNamespace (value : Sexp) :
    Follows own (Eval.enterNamespace value) (Eval.enterNamespace value) := by
  have henter : ∀ name : String, Follows own (do
      let _ : Unit ← Eval.request (.openNamespace name)
      let _ : Unit ← Eval.request (.enterNamespace name)
      return Sexp.symbol name : Eval Sexp) (do
      let _ : Unit ← Eval.request (.openNamespace name)
      let _ : Unit ← Eval.request (.enterNamespace name)
      return Sexp.symbol name) := by
    intro name
    refine (follows_request (by simp) (by simp) (by simp)).bind fun _ => ?_
    refine (follows_request (by simp) (by simp) (by simp)).bind fun _ => ?_
    exact follows_pure _
  cases value with
  | symbol name | str name => exact henter name
  | nil | t | int _ | keyword _ | list _ => exact follows_throw _

lemma follows_writeOutput (text : String) : Follows own (do
    Eval.writeOutput text
    return Sexp.nil : Eval Sexp) (do
    Eval.writeOutput text
    return Sexp.nil) :=
  (follows_request (r := .writeOutput text) (by simp) (by simp) (by simp)).bind
    fun _ => follows_pure _

lemma follows_unary (operator : String) {f : Sexp → Eval Sexp} (hf : ∀ v, Follows own (f v) (f v))
    (arguments : List Sexp) :
    Follows own (Eval.unary operator f arguments) (Eval.unary operator f arguments) := by
  unfold Eval.unary
  split
  · exact hf _
  · exact follows_throw _

lemma follows_applyBuiltin (b : Builtin) (arguments : List Sexp) :
    Follows own (Eval.applyBuiltin b arguments) (Eval.applyBuiltin b arguments) := by
  unfold Eval.applyBuiltin
  split
  · exact follows_ofExcept _
  · split
    · exact follows_writeOutput _
    · exact follows_writeOutput _
    · split
      · exact (follows_ask .line).bind fun _ => follows_pure _
      · exact follows_throw _
    · exact follows_unary _ (fun v => (follows_ask _).bind fun _ => follows_pure _) _
    · refine follows_unary _ (fun v => ?_) _
      split
      · exact (follows_sleep _).bind fun _ => follows_pure _
      · exact follows_throw _
    · refine follows_unary _ (fun v => ?_) _
      refine follows_currentNamespace.bind fun ns => follows_bindings fun known known' hb => ?_
      rw [← known.documentation?_bare, hb, known'.documentation?_bare]
      exact follows_pure _

lemma follows_apply (name : String) (arguments : List Sexp) :
    Follows own (Eval.apply name arguments) (Eval.apply name arguments) := by
  unfold Eval.apply
  split
  · exact follows_applyBuiltin _ _
  · exact (follows_lookup name).bind fun _ => follows_throw _

section forms

variable {load load' : String → Eval Sexp} {source source' : Option Source}

lemma follows_evaluateAll {forms : List Sexp}
    (hforms : ∀ form ∈ forms,
      Follows own (Eval.evaluateForm load source form) (Eval.evaluateForm load' source' form))
    (values : List Sexp) :
    Follows own (Eval.evaluateAll load source values forms)
      (Eval.evaluateAll load' source' values forms) := by
  induction forms generalizing values with
  | nil =>
    rw [Eval.evaluateAll, Eval.evaluateAll]
    exact follows_pure _
  | cons form rest ih =>
    obtain ⟨hform, hrest⟩ := List.forall_mem_cons.1 hforms
    rw [Eval.evaluateAll, Eval.evaluateAll]
    exact hform.bind fun value => ih hrest _

lemma follows_evaluateBody {forms : List Sexp}
    (hforms : ∀ form ∈ forms,
      Follows own (Eval.evaluateForm load source form) (Eval.evaluateForm load' source' form))
    (last : Sexp) :
    Follows own (Eval.evaluateBody load source last forms)
      (Eval.evaluateBody load' source' last forms) := by
  induction forms generalizing last with
  | nil =>
    rw [Eval.evaluateBody, Eval.evaluateBody]
    exact follows_pure _
  | cons form rest ih =>
    obtain ⟨hform, hrest⟩ := List.forall_mem_cons.1 hforms
    rw [Eval.evaluateBody, Eval.evaluateBody]
    exact hform.bind fun value => ih hrest _

lemma follows_evaluateSpecial (hown : own source source')
    (hload : ∀ path, Follows own (load path) (load' path)) (special : SpecialForm)
    {arguments : List Sexp}
    (hforms : ∀ form ∈ arguments,
      Follows own (Eval.evaluateForm load source form) (Eval.evaluateForm load' source' form)) :
    Follows own (Eval.evaluateSpecial load source special arguments)
      (Eval.evaluateSpecial load' source' special arguments) := by
  fun_cases Eval.evaluateSpecial load source special arguments
  case case1 form =>
    rw [Eval.evaluateSpecial]
    exact follows_pure _
  case case2 form name | case4 doc form name =>
    rw [Eval.evaluateSpecial]
    exact (hforms form (by simp)).bind fun value => follows_define _ _ hown _
  case case3 got form hgot | case5 got doc form hgot =>
    rw [Eval.evaluateSpecial]
    · exact follows_throw _
    · exact hgot
  case case6 =>
    rw [Eval.evaluateSpecial]
    exact follows_evaluateBody hforms _
  case case7 test consequence =>
    rw [Eval.evaluateSpecial]
    refine (hforms test (by simp)).bind fun value => ?_
    split
    · exact hforms consequence (by simp)
    · exact follows_pure _
  case case8 test consequence alternative =>
    rw [Eval.evaluateSpecial]
    refine (hforms test (by simp)).bind fun value => ?_
    split
    · exact hforms consequence (by simp)
    · exact hforms alternative (by simp)
  case case9 form =>
    rw [Eval.evaluateSpecial]
    exact (hforms form (by simp)).bind fun value => follows_enterNamespace _
  case case10 form =>
    rw [Eval.evaluateSpecial]
    exact (hforms form (by simp)).bind fun value => follows_throw _
  case case11 form =>
    rw [Eval.evaluateSpecial]
    refine (hforms form (by simp)).bind fun path => ?_
    split
    · exact hload _
    · exact follows_throw _
  case case12 =>
    rw [Eval.evaluateSpecial]
    · exact follows_throw _
    all_goals assumption

/-- Nothing that a form does depends on the sources of definitions. -/
theorem follows_evaluateForm (hown : own source source')
    (hload : ∀ path, Follows own (load path) (load' path)) : ∀ form : Sexp,
    Follows own (Eval.evaluateForm load source form) (Eval.evaluateForm load' source' form)
  | .symbol name => by
    unfold Eval.evaluateForm
    exact follows_checkInterrupt.bind fun _ => follows_lookup name
  | .list (head :: arguments) => by
    have hforms : ∀ form ∈ arguments,
        Follows own (Eval.evaluateForm load source form) (Eval.evaluateForm load' source' form) :=
      fun form _ => follows_evaluateForm hown hload form
    unfold Eval.evaluateForm
    refine follows_checkInterrupt.bind fun _ => ?_
    cases head with
    | symbol name =>
      dsimp only
      cases SpecialForm.ofName? name with
      | some special => exact follows_evaluateSpecial hown hload special hforms
      | none => exact (follows_evaluateAll hforms []).bind fun values => follows_apply name values
    | nil | t | int _ | str _ | keyword _ | list _ => exact follows_throw _
  | .list [] | .nil | .t | .int _ | .str _ | .keyword _ => by
    unfold Eval.evaluateForm
    exact follows_checkInterrupt.bind fun _ => follows_pure _

lemma follows_evaluateForms {sourceOf sourceOf' : Nat → Option Source}
    (hown : ∀ line, own (sourceOf line) (sourceOf' line))
    (hload : ∀ path, Follows own (load path) (load' path)) (last : Sexp)
    (forms : List (Nat × Sexp)) :
    Follows own (Eval.evaluateForms load sourceOf last forms)
      (Eval.evaluateForms load' sourceOf' last forms) := by
  induction forms generalizing last with
  | nil => exact follows_pure _
  | cons p rest ih =>
    rw [Eval.evaluateForms, Eval.evaluateForms]
    exact (follows_evaluateForm (hown p.1) hload p.2).bind fun value => ih value

end forms

/-- A file is loaded in the same way wherever that happens, and if files may load one another to a
greater depth. -/
theorem follows_loadFile {depth depth' : Nat} (h : depth ≤ depth') (path : String) :
    Follows own (Eval.loadFile depth path) (Eval.loadFile depth' path) := by
  induction depth generalizing own depth' path with
  | zero => exact follows_of_tooDeep _
  | succ depth ih =>
    obtain ⟨depth', rfl⟩ := Nat.exists_eq_add_of_le' h
    rw [Eval.loadFile, ← Nat.add_assoc, Eval.loadFile]
    refine follows_read fun contents => ?_
    cases (contents : Except FileError String) with
    | error e => exact follows_throw _
    | ok text =>
      cases hparse : Sexp.parseAll text with
      | error e =>
        simp only [hparse]
        exact follows_throw _
      | ok forms =>
        simp only [hparse]
        exact follows_evaluateForms (fun line => ⟨rfl, line, rfl⟩) (fun path => ih (by omega) path)
          .nil forms

end follows

end Script

end EvalServer
