import EvalServer.Proofs.Evaluation.Definitions
import EvalServer.Proofs.Evaluation.Parts

/-!
# What evaluations define, where they go and where they look up

An evaluation asks for a definition, or for another current namespace, only at the end of a form
that says so, and looks at the interrupt flag only where a form or a sleep begins. This goes from
the parts of an evaluation to the whole, so every such request can be put down to the form that made
it.
-/

namespace EvalServer

/-- A request that neither defines a name nor changes the current namespace, and is no check. -/
def Request.Quiet : Request → Prop
  | .define _ _ _ | .enterNamespace _ | .interrupted => False
  | _ => True

def Contract.quiet : Contract where
  asks := Request.Quiet
  gets _ _ := True

/-- The evaluation of a form, where files may load one another up to some depth. -/
abbrev Eval.formAt (depth : Nat) (source : Option Source) (form : Sexp) : Eval Sexp :=
  evaluateForm (loadFile depth) source form

/-- The evaluation of a definition, with what follows its name. -/
abbrev Eval.definitionAt (depth : Nat) (source : Option Source) (name : String)
    (arguments : List Sexp) : Eval Sexp :=
  formAt depth source (.list (.symbol "def" :: .symbol name :: arguments))

/-- The evaluation of a change of namespace. -/
abbrev Eval.changeAt (depth : Nat) (source : Option Source) (form : Sexp) : Eval Sexp :=
  formAt depth source (.list [.symbol "in-ns", form])

namespace Script

variable {α β : Type}

/-- By the time an evaluation has asked this, a definition in it is completed. It is a definition of
this name, this namespace was current when its form had a value, and it defines this. -/
inductive Defines (s : Script) (x : Eval α) (asked : List Request) :
    (ns name : String) → Definition → Prop
  | intro {depth : Nat} {source : Option Source} {name : String} {arguments : List Sexp}
      {doc : Option String} {form value v : Sexp} {t t₁ t₂ t' : Script} :
      s.Completes x asked t (Eval.definitionAt depth source name arguments) v t' →
      DefinitionParts arguments doc form → t.check = (false, t₁) →
      t₁.Evaluates (Eval.formAt depth source form) value t₂ →
      Defines s x asked t₂.ns name ⟨value, doc, source⟩

/-- By the time an evaluation has asked this, a change of namespace in it is completed, and this is
the name that it has as argument. -/
inductive Enters (s : Script) (x : Eval α) (asked : List Request) : (dest : String) → Prop
  | intro {depth : Nat} {source : Option Source} {dest : String} {form value v : Sexp}
      {t t₁ t₂ t' : Script} :
      s.Completes x asked t (Eval.changeAt depth source form) v t' →
      t.check = (false, t₁) → t₁.Evaluates (Eval.formAt depth source form) value t₂ →
      value = .symbol dest ∨ value = .str dest →
      Enters s x asked dest

/-- The last that an evaluation has asked here is the check of a form that begins with it, or of a
sleep, or of what is left of one. -/
inductive Checks (s : Script) (x : Eval α) : (asked : List Request) → Prop
  | form {asked : List Request} {t : Script} {depth : Nat} {source : Option Source} {form : Sexp} :
      s.Begins x asked t (Eval.formAt depth source form) → Checks s x (asked ++ [.interrupted])
  | sleep {asked : List Request} {t : Script} {ms : Nat} :
      s.Begins x asked t (Eval.sleep ms) → Checks s x (asked ++ [.interrupted])

/-- If the last of these requests defines a name or changes the current namespace, it is the last
one of a completed form that does so; if it is a check, a form or a sleep begins with it. -/
def Accounts (s : Script) (x : Eval α) (asked : List Request) : Request → Prop
  | .define ns name d => s.Defines x asked ns name d
  | .enterNamespace dest => s.Enters x asked dest
  | .interrupted => s.Checks x asked
  | _ => True

section accounts

variable {s s₁ : Script} {x : Eval α} {f : α → Eval β} {asked : List Request} {r : Request}

lemma accounts_quiet (h : r.Quiet) : s.Accounts x asked r := by
  cases r with
  | define _ _ _ | enterNamespace _ | interrupted => exact h.elim
  | _ => trivial

/-- What accounts for a request is a form that has begun, and nothing else about the evaluation. -/
lemma Accounts.map {γ : Type} {s' : Script} {x' : Eval γ} (before : List Request)
    (hbegins : ∀ {δ : Type} {t : Script} {y : Eval δ} {asked}, s.Begins x asked t y →
      s'.Begins x' (before ++ asked) t y) (h : s.Accounts x asked r) :
    s'.Accounts x' (before ++ asked) r := by
  cases r with
  | define ns name d =>
    obtain ⟨hdefinition, hparts, hcheck, hvalue⟩ := h
    exact .intro (hdefinition.map hbegins) hparts hcheck hvalue
  | enterNamespace dest =>
    obtain ⟨hchange, hcheck, hvalue, hdest⟩ := h
    exact .intro (hchange.map hbegins) hcheck hvalue hdest
  | interrupted =>
    cases h with
    | form hform =>
      rw [← List.append_assoc]
      exact .form (hbegins hform)
    | sleep hsleep =>
      rw [← List.append_assoc]
      exact .sleep (hbegins hsleep)
  | _ => trivial

lemma Accounts.first (h : s.Accounts x asked r) : s.Accounts (x >>= f) asked r :=
  h.map [] Begins.first

lemma Accounts.later {a : α} (hfirst : s.Evaluates x a s₁) (h : s₁.Accounts (f a) asked r) :
    s.Accounts (x >>= f) (s.requests x.run ++ asked) r :=
  h.map _ (Begins.later hfirst)

/-- Some first requests are made by the first of two evaluations, or the last of them is made by the
second. -/
lemma concat_isPrefix_append {asked first second : List Request} {r : Request}
    (h : asked ++ [r] <+: first ++ second) :
    asked ++ [r] <+: first ∨ ∃ more, asked = first ++ more ∧ more ++ [r] <+: second := by
  obtain ⟨later, h⟩ := h
  rcases List.append_eq_append_iff.1 h with ⟨rest, hfirst, -⟩ | ⟨more, hasked, hsecond⟩
  · exact .inl ⟨rest, hfirst.symm⟩
  · rcases List.eq_nil_or_concat more with rfl | ⟨more, r', rfl⟩
    · exact .inl ⟨[], by rw [List.append_nil, hasked, List.append_nil]⟩
    · rw [List.concat_eq_append, ← List.append_assoc] at hasked
      obtain ⟨rfl, hr⟩ := List.append_inj' hasked rfl
      obtain rfl : r = r' := by simpa using hr
      exact .inr ⟨more, rfl, later, by simpa using hsecond.symm⟩

lemma evaluates_enterNamespace {s s' : Script} (dest : String) {value v : Sexp}
    (hvalue : value = .symbol dest ∨ value = .str dest) :
    s.Evaluates (Eval.enterNamespace value) v s' ↔ v = .symbol dest ∧
      s' = { s with bindings := s.bindings.openNamespace dest, ns := dest } := by
  have hrun : s.run (Eval.enterNamespace value).run = (.ok (.symbol dest),
      { s with bindings := s.bindings.openNamespace dest, ns := dest }) := by
    rcases hvalue with rfl | rfl <;> rfl
  rw [Evaluates, hrun, Prod.mk.injEq, Except.ok.injEq]
  exact and_congr eq_comm eq_comm

/-- A change of namespace that ends in a value evaluates its form, and makes the namespace that this
names exist and current. -/
lemma evaluates_inNamespace {load : String → Eval Sexp} {source : Option Source} {form v : Sexp}
    {s s' : Script} :
    s.Evaluates (Eval.evaluateForm load source (.list [.symbol "in-ns", form])) v s' ↔
      ∃ dest value s₁ s₂, s.check = (false, s₁) ∧
        s₁.Evaluates (Eval.evaluateForm load source form) value s₂ ∧
        (value = .symbol dest ∨ value = .str dest) ∧ v = .symbol dest ∧
        s' = { s₂ with bindings := s₂.bindings.openNamespace dest, ns := dest } := by
  have hname : SpecialForm.ofName? "in-ns" = some .inNamespace := by decide
  have hspecial : Eval.evaluateSpecial load source .inNamespace [form] =
      Eval.evaluateForm load source form >>= Eval.enterNamespace := by
    unfold Eval.evaluateSpecial
    rfl
  rw [evaluates_special hname, hspecial]
  constructor
  · rintro ⟨s₁, hcheck, h⟩
    obtain ⟨value, s₂, hvalue, henter⟩ := evaluates_bind.1 h
    cases value with
    | symbol dest | str dest =>
      obtain ⟨hv, hs'⟩ := (evaluates_enterNamespace dest (by simp)).1 henter
      exact ⟨dest, _, s₁, s₂, hcheck, hvalue, by simp, hv, hs'⟩
    | nil | t | int _ | keyword _ | list _ => exact absurd henter not_evaluates_throw
  · rintro ⟨dest, value, s₁, s₂, hcheck, hvalue, hdest, hv, hs'⟩
    exact ⟨s₁, hcheck, evaluates_bind.2
      ⟨value, s₂, hvalue, (evaluates_enterNamespace dest hdest).2 ⟨hv, hs'⟩⟩⟩

end accounts

end Script

/-! ## Parts of the evaluator -/

namespace Eval

open Script

variable {α β : Type} {x : Eval α} {f : α → Eval β} {depth : Nat} {source : Option Source}

/-- On every console, each request of the evaluation can be put down to a form if it is to define a
name, to change the current namespace or to look at the flag. -/
def Attributed (x : Eval α) : Prop :=
  ∀ (s : Script) (asked : List Request) (r : Request), asked ++ [r] <+: s.requests x.run →
    s.Accounts x (asked ++ [r]) r

section closure

lemma attributed_of_quiet (h : ∀ (s : Script), ∀ r ∈ s.requests x.run, r.Quiet) :
    x.Attributed := fun s _ r hasked =>
  accounts_quiet (h s r (hasked.subset (by simp)))

lemma attributed_pure (a : α) : (pure a : Eval α).Attributed :=
  attributed_of_quiet fun _ _ h => by cases h

lemma attributed_throw (e : EvalError) : (throw e : Eval α).Attributed :=
  attributed_of_quiet fun _ _ h => by cases h

lemma attributed_ofExcept (result : Except EvalError α) : (ofExcept result).Attributed :=
  attributed_of_quiet fun _ _ h => by cases h

lemma attributed_request {r : Request} (h : r.Quiet) : (request r).Attributed :=
  attributed_of_quiet fun _ r' hr' => by
    obtain rfl : r' = r := List.mem_singleton.1 hr'
    exact h

/-- What one of two evaluations asks may be put down to a form of which it is a part. -/
lemma attributed_bind (hx : ∀ (s : Script) asked r, asked ++ [r] <+: s.requests x.run →
    s.Accounts (x >>= f) (asked ++ [r]) r) (hf : ∀ (s : Script) a s₁ asked r, s.Evaluates x a s₁ →
    asked ++ [r] <+: s₁.requests (f a).run →
    s.Accounts (x >>= f) (s.requests x.run ++ (asked ++ [r])) r) : (x >>= f).Attributed := by
  intro s asked r h
  cases hrun : s.run x.run with
  | mk result s₁ =>
    cases result with
    | error e =>
      rw [(run_bind_error hrun).2] at h
      exact hx s asked r h
    | ok a =>
      rw [(run_bind_ok hrun).2] at h
      rcases concat_isPrefix_append h with hfirst | ⟨more, rfl, hmore⟩
      · exact hx s asked r hfirst
      · rw [List.append_assoc]
        exact hf s a s₁ more r hrun hmore

lemma Attributed.bind (hx : x.Attributed) (hf : ∀ a, (f a).Attributed) : (x >>= f).Attributed :=
  attributed_bind (fun s asked r h => (hx s asked r h).first) fun _ a s₁ asked r ha h =>
    (hf a s₁ asked r h).later ha

lemma isPrefix_singleton {asked : List Request} {r first : Request} (h : asked ++ [r] <+: [first]) :
    asked = [] ∧ r = first := by
  match asked with
  | [] => exact ⟨rfl, by simpa using h⟩
  | _ :: _ => simp at h

/-- A check at the start is put down to the whole, and what comes after it is so already. -/
lemma accounts_checked {s : Script} {whole : Eval β} {g : Unit → Eval α} {asked : List Request}
    {r : Request} (hpoint : s.Checks whole [.interrupted]) (hg : (g ()).Attributed)
    (hwhole : ∀ {asked r}, s.Accounts (checkInterrupt >>= g) asked r → s.Accounts whole asked r)
    (h : asked ++ [r] <+: s.requests (checkInterrupt >>= g).run) :
    s.Accounts whole (asked ++ [r]) r := by
  have hcheck : asked ++ [r] <+: [.interrupted] → s.Accounts whole (asked ++ [r]) r := by
    intro h
    obtain ⟨rfl, rfl⟩ := isPrefix_singleton h
    exact hpoint
  cases hrun : s.run checkInterrupt.run with
  | mk result s₁ =>
    cases result with
    | error e =>
      rw [(run_bind_error hrun).2, requests_check] at h
      exact hcheck h
    | ok a =>
      rw [(run_bind_ok hrun).2, requests_check] at h
      rcases concat_isPrefix_append h with hfirst | ⟨more, rfl, hmore⟩
      · exact hcheck hfirst
      · rw [List.append_assoc, ← s.requests_check]
        exact hwhole ((hg s₁ more r hmore).later hrun)

lemma attributed_checked {g : Unit → Eval α}
    (hpoint : ∀ s : Script, s.Checks (checkInterrupt >>= g) [.interrupted])
    (hg : (g ()).Attributed) : (checkInterrupt >>= g).Attributed := fun s _ _ h =>
  accounts_checked (hpoint s) hg id h

/-- A form begins with its check. -/
lemma attributed_form {form : Sexp} {g : Unit → Eval Sexp}
    (hform : formAt depth source form = checkInterrupt >>= g) (hg : (g ()).Attributed) :
    (formAt depth source form).Attributed := by
  have hpoint : ∀ s : Script, s.Checks (formAt depth source form) [.interrupted] :=
    fun s => .form (.whole s _)
  rw [hform] at hpoint ⊢
  exact attributed_checked hpoint hg

lemma attributed_sleep (ms : Nat) : (Eval.sleep ms).Attributed := by
  induction ms using Nat.strongRecOn with
  | ind ms ih =>
    have hpoint : ∀ s : Script, s.Checks (Eval.sleep ms) [.interrupted] :=
      fun s => .sleep (.whole s _)
    rw [Eval.sleep] at hpoint ⊢
    refine attributed_checked hpoint ?_
    split
    · exact attributed_pure _
    · exact (attributed_request (r := .rest _) trivial).bind fun _ => ih _ (by omega)

lemma attributed_currentNamespace : currentNamespace.Attributed :=
  attributed_request (r := .currentNamespace) trivial

lemma attributed_bindings : bindings.Attributed :=
  attributed_request (r := .bindings) trivial

end closure

/-! ## The forms that define names and change the namespace -/

/-- A definition evaluates its form before all that makes it a definition. -/
lemma definitionAt_eq {arguments : List Sexp} {doc : Option String} {form : Sexp}
    (hparts : DefinitionParts arguments doc form) (name : String) :
    definitionAt depth source name arguments =
      (checkInterrupt >>= fun _ => formAt depth source form) >>= fun value =>
        define name doc source value := by
  have hname : SpecialForm.ofName? "def" = some .define := by decide
  unfold definitionAt formAt
  rw [evaluateForm]
  simp only [hname, hparts.evaluate, bind_assoc]

lemma changeAt_eq (form : Sexp) : changeAt depth source form =
    (checkInterrupt >>= fun _ => formAt depth source form) >>= enterNamespace := by
  have hname : SpecialForm.ofName? "in-ns" = some .inNamespace := by decide
  unfold changeAt formAt
  rw [evaluateForm]
  simp only [hname, evaluateSpecial, bind_assoc]

section completed

variable {t t₁ t₂ : Script} {name dest : String} {arguments : List Sexp} {doc : Option String}
  {form value : Sexp} {asked : List Request} {r : Request}

/-- What a definition asks that is completed. -/
lemma requests_definitionAt (hparts : DefinitionParts arguments doc form)
    (hcheck : t.check = (false, t₁)) (hvalue : t₁.Evaluates (formAt depth source form) value t₂) :
    t.requests (definitionAt depth source name arguments).run =
      t.requests (checkInterrupt >>= fun _ => formAt depth source form).run ++
        [.currentNamespace, .define t₂.ns name ⟨value, doc, source⟩] := by
  rw [definitionAt_eq hparts]
  exact (run_bind_ok (evaluates_checked.2 ⟨t₁, hcheck, hvalue⟩)).2

/-- What a change of namespace asks that is completed. -/
lemma requests_changeAt (hcheck : t.check = (false, t₁))
    (hvalue : t₁.Evaluates (formAt depth source form) value t₂)
    (hdest : value = .symbol dest ∨ value = .str dest) :
    t.requests (changeAt depth source form).run =
      t.requests (checkInterrupt >>= fun _ => formAt depth source form).run ++
        [.openNamespace dest, .enterNamespace dest] := by
  have htail : t₂.requests (enterNamespace value).run =
      [.openNamespace dest, .enterNamespace dest] := by
    rcases hdest with rfl | rfl <;> rfl
  rw [changeAt_eq, ← htail]
  exact (run_bind_ok (evaluates_checked.2 ⟨t₁, hcheck, hvalue⟩)).2

/-- The first of two requests, or both of them. -/
lemma concat_isPrefix_pair {first second : Request} (h : asked ++ [r] <+: [first, second]) :
    asked = [] ∧ r = first ∨ asked = [first] ∧ r = second := by
  match asked with
  | [] => exact .inl ⟨rfl, by simpa using h⟩
  | [_] => exact .inr (by simpa using h)
  | _ :: _ :: _ => simp at h

lemma attributed_definition (hparts : DefinitionParts arguments doc form)
    (hform : (formAt depth source form).Attributed) :
    (definitionAt depth source name arguments).Attributed := by
  rw [definitionAt_eq hparts]
  refine attributed_bind (fun t asked r h => accounts_checked ?_ hform Accounts.first h) ?_
  · rw [← definitionAt_eq hparts]
    exact .form (.whole t _)
  intro t value t₂ asked r hbefore h
  rw [← definitionAt_eq hparts]
  obtain ⟨t₁, hcheck, hvalue⟩ := evaluates_checked.1 hbefore
  rcases concat_isPrefix_pair h with ⟨rfl, rfl⟩ | ⟨rfl, rfl⟩
  · exact accounts_quiet trivial
  · have hends : t.Evaluates (definitionAt depth source name arguments) _ _ :=
      evaluates_definition.2 ⟨doc, form, value, t₁, t₂, hparts, hcheck, hvalue, rfl, rfl⟩
    have hwhole := completes_whole hends
    rw [requests_definitionAt hparts hcheck hvalue] at hwhole
    exact .intro hwhole hparts hcheck hvalue

lemma attributed_change (hform : (formAt depth source form).Attributed) :
    (changeAt depth source form).Attributed := by
  rw [changeAt_eq]
  refine attributed_bind (fun t asked r h => accounts_checked ?_ hform Accounts.first h) ?_
  · rw [← changeAt_eq]
    exact .form (.whole t _)
  intro t value t₂ asked r hbefore h
  rw [← changeAt_eq]
  obtain ⟨t₁, hcheck, hvalue⟩ := evaluates_checked.1 hbefore
  have henters : ∀ dest, value = .symbol dest ∨ value = .str dest →
      asked ++ [r] <+: [.openNamespace dest, .enterNamespace dest] →
      t.Accounts (changeAt depth source form)
        (t.requests (checkInterrupt >>= fun _ => formAt depth source form).run ++ (asked ++ [r]))
        r := by
    intro dest hdest h
    rcases concat_isPrefix_pair h with ⟨rfl, rfl⟩ | ⟨rfl, rfl⟩
    · exact accounts_quiet trivial
    · have hends : t.Evaluates (changeAt depth source form) _ _ :=
        evaluates_inNamespace.2 ⟨dest, value, t₁, t₂, hcheck, hvalue, hdest, rfl, rfl⟩
      have hwhole := completes_whole hends
      rw [requests_changeAt hcheck hvalue hdest] at hwhole
      exact .intro hwhole hcheck hvalue hdest
  cases value with
  | symbol dest => exact henters dest (.inl rfl) h
  | str dest => exact henters dest (.inr rfl) h
  | nil | t | int _ | keyword _ | list _ =>
    have hnothing : asked ++ [r] <+: [] := h
    simp at hnothing

end completed

/-! ## Forms -/

lemma attributed_lookup (name : String) : (lookup name).Attributed := by
  refine attributed_currentNamespace.bind fun ns => attributed_bindings.bind fun known => ?_
  split
  · exact attributed_pure _
  · exact attributed_throw _

lemma attributed_unary (operator : String) {f : Sexp → Eval Sexp} (hf : ∀ v, (f v).Attributed)
    (arguments : List Sexp) : (unary operator f arguments).Attributed := by
  unfold unary
  split
  · exact hf _
  · exact attributed_throw _

lemma attributed_ask (question : Question) : (ask question).Attributed := by
  refine (attributed_request (r := .ask question) trivial).bind fun answer => ?_
  cases (answer : Option question.Answer) with
  | some answer => exact attributed_pure _
  | none => exact attributed_throw _

lemma attributed_applyBuiltin (b : Builtin) (arguments : List Sexp) :
    (applyBuiltin b arguments).Attributed := by
  cases b with
  | println | print =>
    exact (attributed_request (r := .writeOutput _) trivial).bind fun _ => attributed_pure _
  | readLine =>
    change (if arguments.isEmpty then readLine else throw _ : Eval Sexp).Attributed
    split
    · exact (attributed_ask .line).bind fun _ => attributed_pure _
    · exact attributed_throw _
  | yesOrNo =>
    exact attributed_unary _ (fun v => (attributed_ask (.yesOrNo v.display)).bind fun _ =>
      attributed_pure _) arguments
  | sleep =>
    refine attributed_unary _ (fun v => ?_) arguments
    split
    · exact (attributed_sleep _).bind fun _ => attributed_pure _
    · exact attributed_throw _
  | doc =>
    exact attributed_unary _ (fun v => attributed_currentNamespace.bind fun ns =>
      attributed_bindings.bind fun known => attributed_pure _) arguments
  | add | subtract | multiply | divide | equal | less | greater | lessOrEqual | greaterOrEqual
  | increment | decrement | not | str | list | count | first | rest =>
    exact attributed_ofExcept _

lemma attributed_apply (name : String) (arguments : List Sexp) :
    (apply name arguments).Attributed := by
  unfold apply
  split
  · exact attributed_applyBuiltin _ _
  · exact (attributed_lookup name).bind fun _ => attributed_throw _

lemma attributed_evaluateAll {forms : List Sexp}
    (hforms : ∀ form ∈ forms, (formAt depth source form).Attributed) (values : List Sexp) :
    (evaluateAll (loadFile depth) source values forms).Attributed := by
  induction forms generalizing values with
  | nil =>
    rw [evaluateAll]
    exact attributed_pure _
  | cons form rest ih =>
    obtain ⟨hform, hrest⟩ := List.forall_mem_cons.1 hforms
    rw [evaluateAll]
    exact hform.bind fun value => ih hrest _

lemma attributed_evaluateBody {forms : List Sexp}
    (hforms : ∀ form ∈ forms, (formAt depth source form).Attributed) (last : Sexp) :
    (evaluateBody (loadFile depth) source last forms).Attributed := by
  induction forms generalizing last with
  | nil =>
    rw [evaluateBody]
    exact attributed_pure _
  | cons form rest ih =>
    obtain ⟨hform, hrest⟩ := List.forall_mem_cons.1 hforms
    rw [evaluateBody]
    exact hform.bind fun value => ih hrest _

/-- The special forms that neither define a name nor change the namespace. -/
lemma attributed_evaluateSpecial (hload : ∀ path, (loadFile depth path).Attributed)
    {special : SpecialForm} (hdefine : special ≠ .define) (hnamespace : special ≠ .inNamespace)
    {arguments : List Sexp} (hforms : ∀ form ∈ arguments, (formAt depth source form).Attributed) :
    (evaluateSpecial (loadFile depth) source special arguments).Attributed := by
  unfold evaluateSpecial
  split
  case h_1 => exact attributed_pure _
  case h_2 | h_3 => exact absurd rfl hdefine
  case h_4 => exact attributed_evaluateBody hforms _
  case h_5 test consequence =>
    refine (hforms test (by simp)).bind fun value => ?_
    split
    · exact hforms consequence (by simp)
    · exact attributed_pure _
  case h_6 test consequence alternative =>
    refine (hforms test (by simp)).bind fun value => ?_
    split
    · exact hforms consequence (by simp)
    · exact hforms alternative (by simp)
  case h_7 => exact absurd rfl hnamespace
  case h_8 form => exact (hforms form (by simp)).bind fun value => attributed_throw _
  case h_9 form =>
    refine (hforms form (by simp)).bind fun path => ?_
    split
    · exact hload _
    · exact attributed_throw _
  case h_10 => exact attributed_throw _

/-- A form whose special form only throws, whatever comes before that. -/
lemma attributed_of_throws {name : String} {special : SpecialForm} {arguments : List Sexp}
    {e : EvalError} (hname : SpecialForm.ofName? name = some special)
    (h : evaluateSpecial (loadFile depth) source special arguments = throw e) :
    (formAt depth source (.list (.symbol name :: arguments))).Attributed := by
  refine attributed_form (g := fun _ => throw e) ?_ (attributed_throw e)
  rw [formAt, evaluateForm]
  simp only [hname, h]

/-- Only symbols are defined. -/
lemma evaluateSpecial_define_throws {load : String → Eval Sexp} {head : Sexp}
    (hhead : ∀ name, head ≠ .symbol name) (arguments : List Sexp) :
    ∃ e, evaluateSpecial load source .define (head :: arguments) = throw e := by
  unfold evaluateSpecial
  split
  case h_2 heq | h_3 heq =>
    obtain ⟨rfl, -⟩ := List.cons.inj heq
    split
    · exact absurd rfl (hhead _)
    · exact ⟨_, rfl⟩
  case h_10 => exact ⟨_, rfl⟩
  all_goals contradiction

lemma attributed_define {arguments : List Sexp}
    (hforms : ∀ form ∈ arguments, (formAt depth source form).Attributed) :
    (formAt depth source (.list (.symbol "def" :: arguments))).Attributed := by
  have hname : SpecialForm.ofName? "def" = some .define := by decide
  cases arguments with
  | nil => exact attributed_of_throws hname (by unfold evaluateSpecial; rfl)
  | cons head rest =>
    by_cases hhead : ∃ name, head = .symbol name
    · obtain ⟨name, rfl⟩ := hhead
      have hcases : (∃ doc form, DefinitionParts rest doc form) ∨
          evaluateSpecial (loadFile depth) source .define (.symbol name :: rest) = throw _ :=
        evaluateSpecial_define name rest
      rcases hcases with ⟨doc, form, hparts⟩ | hthrows
      · refine attributed_definition hparts (hforms form ?_)
        rcases hparts with ⟨rfl, -⟩ | ⟨text, rfl, -⟩ <;> simp
      · exact attributed_of_throws hname hthrows
    · obtain ⟨e, hthrows⟩ := evaluateSpecial_define_throws (not_exists.1 hhead) rest
      exact attributed_of_throws hname hthrows

lemma attributed_in {arguments : List Sexp}
    (hforms : ∀ form ∈ arguments, (formAt depth source form).Attributed) :
    (formAt depth source (.list (.symbol "in-ns" :: arguments))).Attributed := by
  have hname : SpecialForm.ofName? "in-ns" = some .inNamespace := by decide
  match arguments with
  | [form] => exact attributed_change (hforms form (by simp))
  | [] | _ :: _ :: _ => exact attributed_of_throws hname (by unfold evaluateSpecial; rfl)

/-- Every definition, change of namespace and check in the evaluation of a form can be put down to a
form that asks for it. -/
theorem attributed_evaluateForm (hload : ∀ path, (loadFile depth path).Attributed) :
    ∀ form : Sexp, (formAt depth source form).Attributed
  | .symbol name => by
    refine attributed_form (g := fun _ => lookup name) ?_ (attributed_lookup name)
    rw [formAt, evaluateForm]
  | .list (head :: arguments) => by
    have hforms : ∀ form ∈ arguments, (formAt depth source form).Attributed :=
      fun form _ => attributed_evaluateForm hload form
    cases head with
    | symbol name =>
      cases hname : SpecialForm.ofName? name with
      | none =>
        refine attributed_form (g := fun _ => evaluateAll (loadFile depth) source [] arguments >>=
          fun values => apply name values) ?_ ?_
        · rw [formAt, evaluateForm]
          simp only [hname]
        · exact (attributed_evaluateAll hforms []).bind fun values => attributed_apply name values
      | some special =>
        obtain rfl : special.name = name := by simpa using List.find?_some hname
        by_cases hdefine : special = .define
        · subst hdefine
          exact attributed_define hforms
        by_cases hnamespace : special = .inNamespace
        · subst hnamespace
          exact attributed_in hforms
        refine attributed_form (g := fun _ => evaluateSpecial (loadFile depth) source special
          arguments) ?_ (attributed_evaluateSpecial hload hdefine hnamespace hforms)
        rw [formAt, evaluateForm]
        simp only [hname]
    | nil | t | int _ | str _ | keyword _ | list _ =>
      exact attributed_form (g := fun _ => throw _) (by unfold formAt evaluateForm; rfl)
        (attributed_throw _)
  | .list [] | .nil | .t | .int _ | .str _ | .keyword _ => by
    exact attributed_form (g := fun _ => pure _) (by unfold formAt evaluateForm; rfl)
      (attributed_pure _)

/-! ## Files and texts -/

lemma attributed_evaluateForms (hload : ∀ path, (loadFile depth path).Attributed)
    (sourceOf : Nat → Option Source) (last : Sexp) (forms : List (Nat × Sexp)) :
    (evaluateForms (loadFile depth) sourceOf last forms).Attributed := by
  induction forms generalizing last with
  | nil => exact attributed_pure _
  | cons p rest ih =>
    rw [evaluateForms]
    exact (attributed_evaluateForm hload p.2).bind fun value => ih value

lemma attributed_loadFile (depth : Nat) (path : String) : (loadFile depth path).Attributed := by
  induction depth generalizing path with
  | zero => exact attributed_throw _
  | succ depth ih =>
    rw [loadFile]
    refine (attributed_request (r := .readText path) trivial).bind fun contents => ?_
    cases (contents : Except FileError String) with
    | error e => exact attributed_throw _
    | ok text =>
      cases hparse : Sexp.parseAll text with
      | error e =>
        simp only [hparse]
        exact attributed_throw _
      | ok forms =>
        simp only [hparse]
        exact attributed_evaluateForms ih _ _ forms

end Eval

/-! ## Editor calls -/

namespace EditorCall

open Eval

lemma attributed_evaluateText (host : Host) (text : String) :
    (evaluateText host text).Attributed := by
  unfold evaluateText
  split
  · exact attributed_throw _
  · exact attributed_evaluateForms (attributed_loadFile _) _ _ _

lemma attributed_firstFile (paths : List String) : (firstFile paths).Attributed := by
  induction paths with
  | nil => exact attributed_pure _
  | cons path rest ih =>
    refine (attributed_request (r := .isFile path) trivial).bind fun found => ?_
    cases (found : Bool) with
    | true => exact attributed_pure _
    | false => exact ih

lemma attributed_definitions (host : Host) (name ns : String) :
    (definitions host name ns).Attributed := by
  have hlocate : (locate host name ns).Attributed := by
    refine attributed_bindings.bind fun known => ?_
    split
    · exact attributed_pure _
    · exact (attributed_firstFile _).bind fun path => attributed_pure _
  refine hlocate.bind fun found => ?_
  cases found with
  | none | some place => exact attributed_pure _

lemma attributed_run (host : Host) (operation : String) (arguments : List Sexp) :
    (run host operation arguments).Attributed := by
  have htext : ∀ index, (ofExcept (textArgument operation arguments index)).Attributed :=
    fun index => attributed_ofExcept _
  unfold run
  refine attributed_currentNamespace.bind fun ns => ?_
  split
  case h_3 =>
    exact (htext 0).bind fun text => (attributed_evaluateText host text).bind fun value =>
      attributed_pure _
  case h_4 =>
    refine (htext 0).bind fun text => (attributed_evaluateText host text).bind fun value => ?_
    exact (attributed_request (r := .writeResult _) trivial).bind fun _ => attributed_pure _
  case h_5 | h_6 | h_7 =>
    exact (htext 0).bind fun text => attributed_bindings.bind fun known => attributed_pure _
  case h_8 => exact (htext 0).bind fun name => attributed_definitions host name ns
  case h_9 =>
    exact (htext 0).bind fun path => attributed_evaluateForm (attributed_loadFile _) _
  case h_12 =>
    exact (attributed_request (r := .requestQuit) trivial).bind fun _ => attributed_pure _
  case h_13 => exact attributed_throw _
  all_goals exact attributed_pure _

end EditorCall

/-- Every definition, change of namespace and check that a request leads to can be put down to a
form that asks for it. -/
theorem attributed_evaluateRequest (host : Host) (form : Sexp) :
    (evaluateRequest host form).Attributed := by
  unfold evaluateRequest
  split
  · exact EditorCall.attributed_run host _ _
  · exact Eval.attributed_evaluateForm (Eval.attributed_loadFile _) form

end EvalServer
