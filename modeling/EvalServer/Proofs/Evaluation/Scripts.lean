import EvalServer.Proofs.Evaluation.Contract

/-!
# Evaluations on a scripted console

`Script.Evaluates` says that an evaluation ends in a value on a console, and what it leaves of the
console. For each construct there is one lemma that says when it does, so that evaluations can be
taken apart without a look at how computations run.
-/

namespace EvalServer

/-- The name that a request defines, with its namespace. -/
def Request.defines : Request → List (String × String)
  | .define ns name _ => [(ns, name)]
  | _ => []

namespace Script

variable {α β : Type} {s s' : Script}

/-- On this console an evaluation ends in a value, and leaves that console. -/
def Evaluates (s : Script) (x : Eval α) (v : α) (s' : Script) : Prop :=
  s.run x.run = (.ok v, s')

lemma run_bind (s : Script) (c : Computation α) (f : α → Computation β) :
    s.run (c.bind f) = (s.run c).2.run (f (s.run c).1) := by
  induction c generalizing s with
  | done a => rfl
  | step r next ih => exact ih _ _

/-- What a computation asks on a scripted console, in order. -/
def requests (s : Script) : Computation α → List Request
  | .done _ => []
  | .step r next => r :: (s.answer r).2.requests (next (s.answer r).1)

/-- What requests leave of a console. -/
def after (s : Script) (asked : List Request) : Script :=
  asked.foldl (fun s r => (s.answer r).2) s

lemma after_requests (s : Script) (c : Computation α) : s.after (s.requests c) = (s.run c).2 := by
  induction c generalizing s with
  | done a => rfl
  | step r next ih => exact ih _ _

lemma requests_bind (s : Script) (c : Computation α) (f : α → Computation β) :
    s.requests (c.bind f) = s.requests c ++ (s.run c).2.requests (f (s.run c).1) := by
  induction c generalizing s with
  | done a => rfl
  | step r next ih => exact congrArg (r :: ·) (ih _ _)

/-- Where all replies can be relied on, all requests are kept to. -/
lemma asks_of_meets {k : Contract} {P : α → Prop} {c : Computation (Except EvalError α)}
    (h : c.Meets k P) (hgets : ∀ r reply, k.gets r reply) (s : Script) :
    ∀ r ∈ s.requests c, k.asks r := by
  induction c generalizing s with
  | done result => simp [requests]
  | step r next ih =>
    obtain ⟨hasks, -, hnext⟩ := h
    exact List.forall_mem_cons.2 ⟨hasks, ih _ (hnext _ (hgets r _)) _⟩

section bind

variable {x : Eval α} {f : α → Eval β}

lemma run_bind_ok {a : α} (h : s.run x.run = (.ok a, s')) :
    s.run (x >>= f).run = s'.run (f a).run ∧
      s.requests (x >>= f).run = s.requests x.run ++ s'.requests (f a).run := by
  have hrun := s.run_bind x.run (ExceptT.bindCont f)
  have hrequests := s.requests_bind x.run (ExceptT.bindCont f)
  rw [h] at hrun hrequests
  exact ⟨hrun, hrequests⟩

lemma run_bind_error {e : EvalError} (h : s.run x.run = (.error e, s')) :
    s.run (x >>= f).run = (.error e, s') ∧ s.requests (x >>= f).run = s.requests x.run := by
  have hrun := s.run_bind x.run (ExceptT.bindCont f)
  have hrequests := s.requests_bind x.run (ExceptT.bindCont f)
  rw [h] at hrun hrequests
  exact ⟨hrun, hrequests.trans (List.append_nil _)⟩

end bind

lemma evaluates_bind {x : Eval α} {f : α → Eval β} {v : β} : s.Evaluates (x >>= f) v s' ↔
    ∃ a s₁, s.Evaluates x a s₁ ∧ s₁.Evaluates (f a) v s' := by
  unfold Evaluates
  cases hx : s.run x.run with
  | mk result s₁ =>
    cases result with
    | error e =>
      rw [(run_bind_error hx).1]
      simp
    | ok a =>
      rw [(run_bind_ok hx).1]
      simp only [Prod.mk.injEq, Except.ok.injEq]
      constructor
      · exact fun h => ⟨a, s₁, ⟨rfl, rfl⟩, h⟩
      · rintro ⟨_, _, ⟨rfl, rfl⟩, h⟩
        exact h

@[simp] lemma evaluates_pure {a v : α} : s.Evaluates (pure a) v s' ↔ a = v ∧ s = s' := by
  change ((Except.ok a, s) : Except EvalError α × Script) = _ ↔ _
  simp

@[simp] lemma not_evaluates_throw {e : EvalError} {v : α} : ¬ s.Evaluates (throw e) v s' := by
  intro h
  change ((Except.error e, s) : Except EvalError α × Script) = _ at h
  simp at h

lemma evaluates_request {r : Request} {v : r.Reply} :
    s.Evaluates (Eval.request r) v s' ↔ s.answer r = (v, s') := by
  have hrun : s.run (Eval.request r).run = (.ok (s.answer r).1, (s.answer r).2) := rfl
  unfold Evaluates
  rw [hrun, Prod.ext_iff, Prod.ext_iff]
  simp

@[simp] lemma evaluates_currentNamespace {ns : String} :
    s.Evaluates Eval.currentNamespace ns s' ↔ s.ns = ns ∧ s = s' :=
  evaluates_request.trans (Prod.mk.injEq ..).to_iff

@[simp] lemma evaluates_bindings {b : Bindings} :
    s.Evaluates Eval.bindings b s' ↔ s.bindings = b ∧ s = s' :=
  evaluates_request.trans (Prod.mk.injEq ..).to_iff

@[simp] lemma evaluates_check :
    s.Evaluates Eval.checkInterrupt () s' ↔ s.check = (false, s') := by
  unfold Eval.checkInterrupt
  refine evaluates_bind.trans ?_
  constructor
  · rintro ⟨raised, s₁, hask, h⟩
    have hcheck : s.check = (raised, s₁) := evaluates_request.1 hask
    cases (raised : Bool) with
    | true => exact absurd h not_evaluates_throw
    | false =>
      obtain ⟨-, rfl⟩ := evaluates_pure.1 h
      exact hcheck
  · intro h
    exact ⟨(false : Bool), s', evaluates_request.2 h, evaluates_pure.2 ⟨rfl, rfl⟩⟩

lemma requests_check (s : Script) : s.requests Eval.checkInterrupt.run = [.interrupted] := by
  have hnext : ∀ raised : Bool, s.check.2.requests
      (if raised then throw .interrupted else pure () : Eval Unit).run = [] := by
    intro raised
    cases raised with
    | true => rfl
    | false => rfl
  exact congrArg (Request.interrupted :: ·) (hnext s.check.1)

lemma evaluates_ofExcept {result : Except EvalError α} {v : α} :
    s.Evaluates (Eval.ofExcept result) v s' ↔ result = .ok v ∧ s = s' := by
  change (result, s) = _ ↔ _
  simp

lemma Evaluates.unique {x : Eval α} {v v' : α} {s'' : Script} (h : s.Evaluates x v s')
    (h' : s.Evaluates x v' s'') : v = v' ∧ s' = s'' := by
  have heq := Eq.trans (Eq.symm h) h'
  simp only [Prod.mk.injEq, Except.ok.injEq] at heq
  exact heq

/-! ## What evaluations leave -/

lemma check_files (s : Script) : s.check.2.files = s.files := by
  unfold check
  split <;> rfl

/-- The names that a computation defines, each with its namespace. -/
def defined (s : Script) : Computation α → List (String × String)
  | .done _ => []
  | .step r next => r.defines ++ (s.answer r).2.defined (next (s.answer r).1)

lemma find?_answer {r : Request} {ns name : String} (h : (ns, name) ∉ r.defines) :
    (s.answer r).2.bindings.find? ns name = s.bindings.find? ns name := by
  cases r with
  | interrupted => exact congrArg (·.find? ns name) s.check_place.1
  | ask question =>
    cases question with
    | line => exact congrArg (·.find? ns name) s.takeLine_place.1
    | yesOrNo prompt =>
      exact congrArg (·.find? ns name) (takeLine_place (s.record (.prompt prompt))).1
  | define dest other d =>
    have hne : ¬ (ns = dest ∧ name = other) := by simpa [Request.defines] using h
    exact (Bindings.find?_define ..).trans (if_neg hne)
  | openNamespace dest => exact Bindings.find?_openNamespace ..
  | _ => rfl

/-- What is not defined again stays. -/
lemma find?_run {c : Computation α} {ns name : String} (h : (ns, name) ∉ s.defined c) :
    (s.run c).2.bindings.find? ns name = s.bindings.find? ns name := by
  induction c generalizing s with
  | done => rfl
  | step r next ih =>
    obtain ⟨hhere, hnext⟩ := not_or.1 (mt List.mem_append.2 h)
    exact (ih _ hnext).trans (find?_answer hhere)

lemma Evaluates.find? {x : Eval α} {v : α} {ns name : String} (h : s.Evaluates x v s')
    (hnone : (ns, name) ∉ s.defined x.run) :
    s'.bindings.find? ns name = s.bindings.find? ns name := by
  have hrun := find?_run hnone
  rwa [h] at hrun

/-! ## Forms -/

variable {load : String → Eval Sexp} {source : Option Source} {v : Sexp}

lemma evaluates_checked {x : Eval α} {v : α} :
    s.Evaluates (Eval.checkInterrupt >>= fun _ => x) v s' ↔
      ∃ s₁, s.check = (false, s₁) ∧ s₁.Evaluates x v s' := by
  rw [evaluates_bind]
  constructor
  · rintro ⟨⟨⟩, s₁, hcheck, h⟩
    exact ⟨s₁, evaluates_check.1 hcheck, h⟩
  · rintro ⟨s₁, hcheck, h⟩
    exact ⟨(), s₁, evaluates_check.2 hcheck, h⟩

lemma evaluates_lookup {name : String} : s.Evaluates (Eval.lookup name) v s' ↔
    ∃ d, s.bindings.resolve? name s.ns = some d ∧ d.value = v ∧ s = s' := by
  simp only [Eval.lookup, evaluates_bind, evaluates_currentNamespace, evaluates_bindings]
  constructor
  · rintro ⟨_, _, ⟨rfl, rfl⟩, _, _, ⟨rfl, rfl⟩, h⟩
    cases hd : s.bindings.resolve? name s.ns with
    | none =>
      rw [hd] at h
      exact absurd h not_evaluates_throw
    | some d =>
      rw [hd] at h
      exact ⟨d, rfl, evaluates_pure.1 h⟩
  · rintro ⟨d, hd, rfl, rfl⟩
    refine ⟨_, _, ⟨rfl, rfl⟩, _, _, ⟨rfl, rfl⟩, ?_⟩
    rw [hd]
    exact evaluates_pure.2 ⟨rfl, rfl⟩

lemma evaluates_symbol {name : String} :
    s.Evaluates (Eval.evaluateForm load source (.symbol name)) v s' ↔
      ∃ d, s.check = (false, s') ∧ s'.bindings.resolve? name s'.ns = some d ∧ d.value = v := by
  unfold Eval.evaluateForm
  rw [evaluates_checked]
  simp only [evaluates_lookup]
  constructor
  · rintro ⟨s₁, hcheck, d, hd, hv, rfl⟩
    exact ⟨d, hcheck, hd, hv⟩
  · rintro ⟨d, hcheck, hd, hv⟩
    exact ⟨s', hcheck, d, hd, hv, rfl⟩

/-- What is neither a symbol nor a call stands for itself. -/
lemma evaluates_self {form : Sexp} (hsymbol : ∀ name, form ≠ .symbol name)
    (hcall : ∀ head arguments, form ≠ .list (head :: arguments)) :
    s.Evaluates (Eval.evaluateForm load source form) v s' ↔
      s.check = (false, s') ∧ form = v := by
  have hform : Eval.evaluateForm load source form = Eval.checkInterrupt >>= fun _ => pure form := by
    cases form with
    | symbol name => exact absurd rfl (hsymbol name)
    | list items =>
      cases items with
      | nil => unfold Eval.evaluateForm; rfl
      | cons head arguments => exact absurd rfl (hcall head arguments)
    | _ => unfold Eval.evaluateForm; rfl
  rw [hform, evaluates_checked]
  constructor
  · rintro ⟨s₁, hcheck, h⟩
    obtain ⟨rfl, rfl⟩ := evaluates_pure.1 h
    exact ⟨hcheck, rfl⟩
  · rintro ⟨hcheck, rfl⟩
    exact ⟨s', hcheck, evaluates_pure.2 ⟨rfl, rfl⟩⟩

lemma evaluates_special {name : String} {special : SpecialForm} {arguments : List Sexp}
    (hname : SpecialForm.ofName? name = some special) :
    s.Evaluates (Eval.evaluateForm load source (.list (.symbol name :: arguments))) v s' ↔
      ∃ s₁, s.check = (false, s₁) ∧
        s₁.Evaluates (Eval.evaluateSpecial load source special arguments) v s' := by
  unfold Eval.evaluateForm
  simp only [hname]
  exact evaluates_checked

lemma evaluates_define {name : String} {doc : Option String} {value : Sexp} :
    s.Evaluates (Eval.define name doc source value) v s' ↔
      v = .symbol ("#'" ++ s.ns ++ "/" ++ name) ∧
      s' = { s with bindings := s.bindings.define s.ns name ⟨value, doc, source⟩ } := by
  unfold Eval.define
  constructor
  · intro h
    obtain ⟨ns, s₁, hns, h⟩ := evaluates_bind.1 h
    obtain ⟨rfl, rfl⟩ := evaluates_currentNamespace.1 hns
    obtain ⟨_, s₂, hdefine, h⟩ := evaluates_bind.1 h
    obtain ⟨rfl, rfl⟩ := evaluates_pure.1 h
    exact ⟨rfl, (Prod.ext_iff.1 (evaluates_request.1 hdefine)).2.symm⟩
  · rintro ⟨rfl, rfl⟩
    refine evaluates_bind.2 ⟨s.ns, s, evaluates_currentNamespace.2 ⟨rfl, rfl⟩, ?_⟩
    exact evaluates_bind.2 ⟨_, _, evaluates_request.2 rfl, evaluates_pure.2 ⟨rfl, rfl⟩⟩

end Script

end EvalServer
