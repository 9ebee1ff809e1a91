import EvalServer.Evaluation.Script
import Mathlib.Tactic.Lemma

/-!
# Contracts of computations

`Computation.Runs` is a run of a computation on one interpreter: bindings and namespace change as
the requests say, and everything else the world replies is arbitrary. A `Contract` says what a
computation keeps to in its requests and what it may rely on in their replies. It is met by the
parts of a computation one by one, so that no run has to be looked at to see that it is met. Every
computation that meets a contract ends where it finds the interrupt flag raised.
-/

namespace EvalServer

/-- In these bindings and this namespace a request may get this reply, which leaves those. -/
def Request.Allowed (b : Bindings) (ns : String) :
    (r : Request) → r.Reply → Bindings → String → Prop
  | .bindings, (reply : Bindings), b', ns' => reply = b ∧ b' = b ∧ ns' = ns
  | .currentNamespace, (reply : String), b', ns' => reply = ns ∧ b' = b ∧ ns' = ns
  | .define dest name definition, _, b', ns' => b' = b.define dest name definition ∧ ns' = ns
  | .openNamespace dest, _, b', ns' => b' = b.openNamespace dest ∧ ns' = ns
  | .enterNamespace dest, _, b', ns' => b' = b ∧ ns' = dest
  | _, _, b', ns' => b' = b ∧ ns' = ns

/-- The names of the symbols that answer a definition and the opening of a namespace. -/
def Request.makes : Request → List String
  | .define ns name _ => ["#'" ++ ns ++ "/" ++ name]
  | .openNamespace ns => [ns]
  | _ => []

namespace Computation

variable {α : Type}

/-- From these bindings and this namespace a computation may end in this value and those bindings,
having made these names on the way. -/
inductive Runs : Bindings → String → Computation α → List String → α → Bindings → Prop
  | done (b : Bindings) (ns : String) (a : α) : Runs b ns (.done a) [] a b
  | step {b b' b'' : Bindings} {ns ns' : String} {r : Request} {next : r.Reply → Computation α}
      {reply : r.Reply} {made : List String} {a : α} : r.Allowed b ns reply b' ns' →
      Runs b' ns' (next reply) made a b'' → Runs b ns (.step r next) (r.makes ++ made) a b''

end Computation

namespace Script

/-- The names that a computation makes on a scripted console. -/
def made {α : Type} (s : Script) : Computation α → List String
  | .done _ => []
  | .step r next => r.makes ++ (s.answer r).2.made (next (s.answer r).1)

lemma takeLine_place (s : Script) :
    s.takeLine.2.bindings = s.bindings ∧ s.takeLine.2.ns = s.ns := by
  unfold takeLine
  split <;> exact ⟨rfl, rfl⟩

lemma check_place (s : Script) : s.check.2.bindings = s.bindings ∧ s.check.2.ns = s.ns := by
  unfold check
  split <;> exact ⟨rfl, rfl⟩

lemma allowed_answer (s : Script) (r : Request) :
    r.Allowed s.bindings s.ns (s.answer r).1 (s.answer r).2.bindings (s.answer r).2.ns := by
  cases r with
  | interrupted => exact s.check_place
  | ask question =>
    cases question with
    | line => exact s.takeLine_place
    | yesOrNo prompt => exact takeLine_place (s.record (.prompt prompt))
  | bindings | currentNamespace => exact ⟨rfl, rfl, rfl⟩
  | define _ _ _ | openNamespace _ | enterNamespace _ | readText _ | isFile _ | writeOutput _
    | writeResult _ | debug _ _ | requestQuit | rest _ => exact ⟨rfl, rfl⟩

/-- A scripted console runs computations. -/
lemma runs {α : Type} (s : Script) (c : Computation α) :
    c.Runs s.bindings s.ns (s.made c) (s.run c).1 (s.run c).2.bindings := by
  induction c generalizing s with
  | done a => exact .done _ _ a
  | step r next ih => exact .step (s.allowed_answer r) (ih _ _)

end Script

/-- What a computation keeps to in its requests, and what it may rely on in their replies. -/
structure Contract where
  asks : Request → Prop
  gets : (r : Request) → r.Reply → Prop

/-- A request that neither looks at the interpreter or the files nor changes them. -/
def Request.OnConsole : Request → Prop
  | .bindings | .define _ _ _ | .openNamespace _ | .currentNamespace | .enterNamespace _
  | .readText _ | .isFile _ => False
  | .interrupted | .writeOutput _ | .writeResult _ | .ask _ | .debug _ _ | .requestQuit
  | .rest _ => True

/-- A check point that finds the interrupt flag raised ends the computation. -/
def Request.Yields {α : Type} :
    (r : Request) → (r.Reply → Computation (Except EvalError α)) → Prop
  | .interrupted, next => next (true : Bool) = .done (.error .interrupted)
  | _, _ => True

namespace Computation

variable {α β : Type} {k : Contract} {P : α → Prop} {Q : β → Prop}

/-- As long as the replies can be relied on, the requests are kept to, interrupts are yielded to,
and `P` holds of the value at the end, if there is one. -/
def Meets (k : Contract) (P : α → Prop) : Computation (Except EvalError α) → Prop
  | .done result => ∀ a, result = .ok a → P a
  | .step r next => k.asks r ∧ r.Yields next ∧ ∀ reply, k.gets r reply → (next reply).Meets k P

/-- What holds of the bindings and lets a computation rely on its replies holds after every run. -/
theorem Meets.runs {c : Computation (Except EvalError α)} (h : c.Meets k P) {I : Bindings → Prop}
    {good : String → Prop}
    (hstep : ∀ {b ns} {r : Request} {reply : r.Reply} {b' ns'}, I b → k.asks r →
      r.Allowed b ns reply b' ns' → (∀ name ∈ r.makes, good name) → k.gets r reply ∧ I b')
    {b b' : Bindings} {ns : String} {made : List String} {result : Except EvalError α}
    (hrun : c.Runs b ns made result b') (hb : I b) (hmade : ∀ name ∈ made, good name) :
    (∀ a, result = .ok a → P a) ∧ I b' := by
  induction hrun with
  | done => exact ⟨h, hb⟩
  | step hallowed _ ih =>
    obtain ⟨hasks, -, hnext⟩ := h
    obtain ⟨hgood, hmade⟩ := List.forall_mem_append.1 hmade
    obtain ⟨hgets, hb'⟩ := hstep hb hasks hallowed hgood
    exact ih (hnext _ hgets) hb' hmade

end Computation

namespace Eval

variable {α β : Type} {k : Contract} {P : α → Prop} {Q : β → Prop}

def Meets (k : Contract) (P : α → Prop) (e : Eval α) : Prop :=
  Computation.Meets k P e.run

lemma meets_pure {a : α} (ha : P a) : (pure a : Eval α).Meets k P := by
  rintro _ ⟨⟩
  exact ha

lemma meets_throw (e : EvalError) : (throw e : Eval α).Meets k P := by
  rintro _ ⟨⟩

lemma meets_ofExcept {result : Except EvalError α} (h : ∀ a, result = .ok a → P a) :
    (ofExcept result).Meets k P := h

lemma meets_request {r : Request} (h : k.asks r) (hr : r ≠ .interrupted) :
    (request r).Meets k (k.gets r) := by
  refine ⟨h, ?_, fun reply hreply => ?_⟩
  · cases r with
    | interrupted => exact absurd rfl hr
    | _ => trivial
  · rintro _ ⟨⟩
    exact hreply

lemma meets_checkInterrupt (h : k.asks .interrupted) :
    checkInterrupt.Meets k fun _ => True := by
  refine ⟨h, rfl, fun raised _ => ?_⟩
  cases (raised : Bool) with
  | false => exact meets_pure trivial
  | true => exact meets_throw _

lemma Meets.bind {e : Eval α} {f : α → Eval β} (h : e.Meets k P)
    (hf : ∀ a, P a → (f a).Meets k Q) : (e >>= f).Meets k Q := by
  have general : ∀ c : Computation (Except EvalError α), c.Meets k P →
      Computation.Meets k Q (c.bind (ExceptT.bindCont f)) := by
    intro c hc
    induction c with
    | done result =>
      cases result with
      | ok a => exact hf a (hc a rfl)
      | error e => exact meets_throw e
    | step r next ih =>
      obtain ⟨hasks, hyields, hnext⟩ := hc
      refine ⟨hasks, ?_, fun reply hreply => ih reply (hnext reply hreply)⟩
      cases r with
      | interrupted =>
        -- an error goes past `f`
        have hyields : next (true : Bool) = .done (.error .interrupted) := hyields
        simp only [Request.Yields, hyields]
        rfl
      | _ => trivial
  exact general e.run h

/-! ## Parts of the evaluator -/

lemma meets_ask {question : Question} (h : k.asks (.ask question)) :
    (ask question).Meets k fun _ => True := by
  refine (meets_request h (by simp)).bind fun answer _ => ?_
  cases (answer : Option question.Answer) with
  | some answer => exact meets_pure trivial
  | none => exact meets_throw _

lemma meets_sleep (hcheck : k.asks .interrupted)
    (hrest : ∀ milliseconds, k.asks (.rest milliseconds)) (milliseconds : Nat) :
    (sleep milliseconds).Meets k fun _ => True := by
  induction milliseconds using Nat.strongRecOn with
  | ind milliseconds ih =>
    unfold sleep
    refine (meets_checkInterrupt hcheck).bind fun _ _ => ?_
    split
    · exact meets_pure trivial
    · next hpos =>
      refine (meets_request (hrest _) (by simp)).bind fun _ _ => ?_
      exact ih _ (by omega)

lemma meets_unary {V : Sexp → Prop} (operator : String) {f : Sexp → Eval Sexp}
    (hf : ∀ v, (f v).Meets k V) (arguments : List Sexp) :
    (unary operator f arguments).Meets k V := by
  unfold unary
  split
  · exact hf _
  · exact meets_throw _

/-- No function but the one that looks up documentation asks more than the console. -/
lemma meets_applyBuiltin (hk : ∀ r : Request, r.OnConsole → k.asks r) {b : Builtin} (hb : b ≠ .doc)
    (arguments : List Sexp) : (applyBuiltin b arguments).Meets k fun _ => True := by
  have houtput : ∀ text, (do
      writeOutput text
      return Sexp.nil : Eval Sexp).Meets k fun _ => True := fun text =>
    (meets_request (hk (.writeOutput text) trivial) (by simp)).bind fun _ _ => meets_pure trivial
  cases b with
  | doc => exact absurd rfl hb
  | println | print => exact houtput _
  | readLine =>
    change (if arguments.isEmpty then readLine else throw _ : Eval Sexp).Meets k _
    split
    · exact (meets_ask (hk (.ask .line) trivial)).bind fun _ _ => meets_pure trivial
    · exact meets_throw _
  | yesOrNo =>
    refine meets_unary _ (fun v => ?_) arguments
    exact (meets_ask (hk (.ask (.yesOrNo v.display)) trivial)).bind fun _ _ => meets_pure trivial
  | sleep =>
    refine meets_unary _ (fun v => ?_) arguments
    split
    · refine (meets_sleep (hk .interrupted trivial) (fun ms => hk (.rest ms) trivial) _).bind ?_
      exact fun _ _ => meets_pure trivial
    · exact meets_throw _
  | add | subtract | multiply | divide | equal | less | greater | lessOrEqual | greaterOrEqual
  | increment | decrement | not | str | list | count | first | rest =>
    exact meets_ofExcept fun _ _ => trivial

variable {V : Sexp → Prop} {load : String → Eval Sexp} {source : Option Source}

lemma meets_evaluateAll {forms : List Sexp}
    (hforms : ∀ form ∈ forms, (evaluateForm load source form).Meets k V) {values : List Sexp}
    (hvalues : ∀ v ∈ values, V v) :
    (evaluateAll load source values forms).Meets k fun vs => ∀ v ∈ vs, V v := by
  induction forms generalizing values with
  | nil =>
    rw [evaluateAll]
    exact meets_pure fun v hv => hvalues v (List.mem_reverse.1 hv)
  | cons form rest ih =>
    obtain ⟨hform, hrest⟩ := List.forall_mem_cons.1 hforms
    rw [evaluateAll]
    exact hform.bind fun value hvalue => ih hrest (List.forall_mem_cons.2 ⟨hvalue, hvalues⟩)

lemma meets_evaluateBody {forms : List Sexp}
    (hforms : ∀ form ∈ forms, (evaluateForm load source form).Meets k V) {last : Sexp}
    (hlast : V last) : (evaluateBody load source last forms).Meets k V := by
  induction forms generalizing last with
  | nil =>
    rw [evaluateBody]
    exact meets_pure hlast
  | cons form rest ih =>
    obtain ⟨hform, hrest⟩ := List.forall_mem_cons.1 hforms
    rw [evaluateBody]
    exact hform.bind fun value hvalue => ih hrest hvalue

end Eval

end EvalServer
