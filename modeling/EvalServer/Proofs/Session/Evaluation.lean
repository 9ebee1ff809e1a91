import EvalServer.Session.Evaluator
import Mathlib.Tactic.Lemma

/-!
# What an evaluation tells control

`Course.Reaches` follows a computation through some replies to its requests and gathers the
console events on the way. An `Evaluation` is one such way to its end, and `Evaluation.block` is
all that its evaluator sends to control on its account: the console events, what the client must
know about namespace and hints or about the failure, and one result.
-/

namespace EvalServer

/-- In namespace `ns` a request may get this reply, after which the namespace is `ns'` and control
has been sent `shown`. Output goes past control only if there may be a dedicated stream for it. -/
def Request.Answered (a : ActorId) (streams : Bool) (ns : String) :
    (r : Request) → r.Reply → String → List Message → Prop
  | .currentNamespace, (reply : String), ns', shown => reply = ns ∧ ns' = ns ∧ shown = []
  | .enterNamespace dest, _, ns', shown => ns' = dest ∧ shown = []
  | .writeOutput text, _, ns', shown =>
    ns' = ns ∧ (shown = [.emit (.writeString text none)] ∨ streams = true ∧ shown = [])
  | .writeResult text, _, ns', shown =>
    ns' = ns ∧ shown = [.emit (.writeString text (some Session.resultChannel))]
  | .ask question, some _, ns', shown =>
    ns' = ns ∧ ∃ tag, shown = [.emit (question.event a tag)]
  | .ask question, none, ns', shown =>
    ns' = ns ∧ ∃ tag, shown = [.emit (question.event a tag),
      .emit (.readAborted (UInt64.ofNat a) (UInt64.ofNat tag))]
  | .debug kind details, _, ns', shown => ns' = ns ∧ shown = [.debug a kind details]
  | _, _, ns', shown => ns' = ns ∧ shown = []

/-- A computation that starts as `c₀` in namespace `ns₀` may come to `c` in namespace `ns`, with
these console events on the way. -/
inductive Course.Reaches (a : ActorId) (streams : Bool) (c₀ : Course) (ns₀ : String) :
    List Message → Course → String → Prop
  | start : Reaches a streams c₀ ns₀ [] c₀ ns₀
  | answer {shown more : List Message} {r : Request} {next : r.Reply → Course} {reply : r.Reply}
      {ns ns' : String} : Reaches a streams c₀ ns₀ shown (.step r next) ns →
      r.Answered a streams ns reply ns' more →
      Reaches a streams c₀ ns₀ (shown ++ more) (next reply) ns'

instance Question.nonempty_answer (q : Question) : Nonempty q.Answer := by
  cases q with
  | line => exact ⟨""⟩
  | yesOrNo _ => exact ⟨false⟩

lemma Request.exists_answered (a : ActorId) (streams : Bool) (ns : String) (r : Request) :
    ∃ reply ns' shown, r.Answered a streams ns reply ns' shown := by
  cases r with
  | interrupted => exact ⟨false, ns, [], rfl, rfl⟩
  | bindings => exact ⟨({} : Bindings), ns, [], rfl, rfl⟩
  | currentNamespace => exact ⟨ns, ns, [], rfl, rfl, rfl⟩
  | enterNamespace dest => exact ⟨(), dest, [], rfl, rfl⟩
  | readText path => exact ⟨.ok "", ns, [], rfl, rfl⟩
  | isFile path => exact ⟨false, ns, [], rfl, rfl⟩
  | writeOutput text => exact ⟨(), ns, [.emit (.writeString text none)], rfl, .inl rfl⟩
  | writeResult text =>
    exact ⟨(), ns, [.emit (.writeString text (some Session.resultChannel))], rfl, rfl⟩
  | ask question =>
    obtain ⟨answer⟩ := question.nonempty_answer
    exact ⟨some answer, ns, [.emit (question.event a 0)], rfl, 0, rfl⟩
  | debug kind details => exact ⟨(), ns, [.debug a kind details], rfl, rfl⟩
  | define _ _ _ | openNamespace _ | requestQuit | rest _ => exact ⟨(), ns, [], rfl, rfl⟩

lemma Course.Reaches.exists_end {a : ActorId} {streams : Bool} {c₀ c : Course} {ns₀ ns : String}
    {shown : List Message} (h : Reaches a streams c₀ ns₀ shown c ns) :
    ∃ more result ns', Reaches a streams c₀ ns₀ (shown ++ more) (.done result) ns' := by
  induction c generalizing shown ns with
  | done result => exact ⟨[], result, ns, by simpa using h⟩
  | step r next ih =>
    obtain ⟨reply, ns', more, hr⟩ := r.exists_answered a streams ns
    obtain ⟨rest, result, ns'', hend⟩ := ih reply (h.answer hr)
    exact ⟨more ++ rest, result, ns'', by rwa [← List.append_assoc]⟩

/-- One evaluation of a request: its console events, its result, the namespace it ended in and
the hints of that namespace which the client lacked. -/
structure Evaluation where
  work : Work
  console : List Message
  result : Except EvalError Sexp
  ns : String
  missing : List Hint

namespace Evaluation

/-- The evaluation is one that the request's form can have in the request's namespace. -/
def Genuine (host : Host) (streams : Bool) (a : ActorId) (v : Evaluation) : Prop :=
  Course.Reaches a streams (evaluateRequest host v.work.form).run v.work.package v.console
    (.done v.result) v.ns

def status (v : Evaluation) : Status :=
  match v.result with
  | .ok value => .ok value
  | .error _ => .abort

/-- The client is told of a namespace other than the request's. -/
def announcement (work : Work) (ns : String) : List Message :=
  if ns = work.package then [] else [.emit (.newPackage ns ns)]

/-- The client is told of hints that it lacks. -/
def update (missing : List Hint) : List Message :=
  if missing.isEmpty then [] else [.emit (.indentationUpdate missing)]

def report (v : Evaluation) : List Message :=
  match v.result with
  | .ok _ => announcement v.work v.ns ++ update v.missing
  | .error e => [.emit (.writeString (e.describe v.work.form v.work.package) none)]

/-- All that is sent to control on account of an evaluation. -/
def block (v : Evaluation) (a : ActorId) : List Message :=
  v.console ++ v.report ++ [.result a v.status v.work.id]

lemma console_isPrefix (v : Evaluation) (a : ActorId) : v.console <+: v.block a := by
  rw [block, List.append_assoc]
  exact List.prefix_append _ _

/-- Only a value has hints looked up for it. -/
def hints? (v : Evaluation) : Option (String × List Hint) :=
  match v.result with
  | .ok _ => some (v.ns, v.missing)
  | .error _ => none

end Evaluation

def Message.result? : Message → Option (ActorId × Status × Int64)
  | .result actor status id => some (actor, status, id)
  | _ => none

/-- A message that tells nothing of an outcome. -/
def Message.IsPlain (m : Message) : Prop :=
  m.result? = none ∧ ∀ status id, m ≠ .emit (.return status id)

lemma Request.Answered.isPlain {a : ActorId} {streams : Bool} {ns ns' : String} {r : Request}
    {reply : r.Reply} {shown : List Message} (h : r.Answered a streams ns reply ns' shown) :
    ∀ m ∈ shown, m.IsPlain := by
  cases r with
  | writeOutput text =>
    obtain ⟨-, rfl | ⟨-, rfl⟩⟩ := h
    · simp [Message.IsPlain, Message.result?]
    · simp
  | writeResult text =>
    obtain ⟨-, rfl⟩ := h
    simp [Message.IsPlain, Message.result?]
  | ask question =>
    have hevent : ∀ tag, (Message.emit (question.event a tag)).IsPlain := by
      intro tag
      cases question <;> simp [Message.IsPlain, Message.result?, Question.event]
    cases reply with
    | none =>
      obtain ⟨-, tag, rfl⟩ := h
      simpa [Message.IsPlain, Message.result?] using hevent tag
    | some answer =>
      obtain ⟨-, tag, rfl⟩ := h
      simpa using hevent tag
  | debug kind details =>
    obtain ⟨-, rfl⟩ := h
    simp [Message.IsPlain, Message.result?]
  | currentNamespace =>
    obtain ⟨-, -, rfl⟩ := h
    simp
  | _ =>
    obtain ⟨-, rfl⟩ := h
    simp

lemma Course.Reaches.isPlain {a : ActorId} {streams : Bool} {c₀ c : Course} {ns₀ ns : String}
    {shown : List Message} (h : Reaches a streams c₀ ns₀ shown c ns) : ∀ m ∈ shown, m.IsPlain := by
  induction h with
  | start => simp
  | answer _ hreply ih =>
    intro m hm
    rcases List.mem_append.1 hm with hm | hm
    · exact ih m hm
    · exact hreply.isPlain m hm

namespace Evaluation

variable {host : Host} {streams : Bool} {a : ActorId} {v : Evaluation}

lemma report_isPlain (v : Evaluation) : ∀ m ∈ v.report, m.IsPlain := by
  intro m hm
  unfold report at hm
  cases hresult : v.result with
  | error e =>
    simp only [hresult, List.mem_singleton] at hm
    subst hm
    exact ⟨rfl, by simp⟩
  | ok value =>
    simp only [hresult, announcement, update, List.mem_append] at hm
    rcases hm with hm | hm
    · split at hm
      · cases hm
      · rw [List.mem_singleton.1 hm]
        exact ⟨rfl, by simp⟩
    · split at hm
      · cases hm
      · rw [List.mem_singleton.1 hm]
        exact ⟨rfl, by simp⟩

lemma Genuine.isPlain (h : v.Genuine host streams a) :
    ∀ m ∈ v.console ++ v.report, m.IsPlain := by
  intro m hm
  rcases List.mem_append.1 hm with hm | hm
  · exact Course.Reaches.isPlain h m hm
  · exact v.report_isPlain m hm

/-- The result is the only message of a block that tells of an outcome. -/
lemma Genuine.results (h : v.Genuine host streams a) :
    (v.block a).filterMap Message.result? = [(a, v.status, v.work.id)] := by
  have hnone : (v.console ++ v.report).filterMap Message.result? = [] :=
    List.filterMap_eq_nil_iff.2 fun m hm => (h.isPlain m hm).1
  rw [block, List.filterMap_append, hnone]
  rfl

lemma Genuine.return_notMem (h : v.Genuine host streams a) (status : Status) (id : Int64) :
    .emit (.return status id) ∉ v.block a := by
  intro hm
  rcases List.mem_append.1 hm with hm | hm
  · exact (h.isPlain _ hm).2 status id rfl
  · simp at hm

end Evaluation

/-- A job that computes a request has sent `said` so far. -/
def Job.Computes (host : Host) (streams : Bool) (work : Work) (said : List Message) (job : Job) :
    Prop :=
  let Reaches := Course.Reaches job.actor streams (evaluateRequest host work.form).run work.package
  match job.phase with
  | .computing c | .resting _ c | .waking c => Reaches said c job.ns
  | .printing text c => Reaches (said ++ [.emit (.writeString text none)]) c job.ns
  | .prompting .showing _ question next => Reaches said (.step (.ask question) next) job.ns
  | .prompting _ tag question next => ∃ before,
      said = before ++ [.emit (question.event job.actor tag)] ∧
      Reaches before (.step (.ask question) next) job.ns
  | .ended result => Reaches said (.done result) job.ns

def Job.isEnded (job : Job) : Bool :=
  match job.phase with
  | .ended _ => true
  | _ => false

lemma Work.job_computes (host : Host) (streams : Bool) (work : Work) (a : ActorId) :
    (work.job host a).Computes host streams work [] :=
  .start

lemma Job.Computes.exists_evaluation {host : Host} {streams : Bool} {work : Work}
    {said : List Message} {job : Job} (h : job.Computes host streams work said) :
    ∃ v : Evaluation, v.work = work ∧ v.Genuine host streams job.actor ∧ said <+: v.console := by
  have finish : ∀ {shown c ns}, said <+: shown →
      Course.Reaches job.actor streams (evaluateRequest host work.form).run work.package shown c
        ns →
      ∃ v : Evaluation, v.work = work ∧ v.Genuine host streams job.actor ∧ said <+: v.console := by
    intro shown c ns hsaid hreach
    obtain ⟨more, result, ns', hend⟩ := hreach.exists_end
    exact ⟨⟨work, shown ++ more, result, ns', []⟩, rfl, hend,
      hsaid.trans (List.prefix_append shown more)⟩
  -- A prompt that has been shown is completed as if it were answered.
  have answered : ∀ {tag question next}, (∃ before,
      said = before ++ [.emit (question.event job.actor tag)] ∧
      Course.Reaches job.actor streams (evaluateRequest host work.form).run work.package before
        (.step (.ask question) next) job.ns) →
      ∃ v : Evaluation, v.work = work ∧ v.Genuine host streams job.actor ∧ said <+: v.console := by
    rintro tag question next ⟨before, rfl, hreach⟩
    obtain ⟨answer⟩ := question.nonempty_answer
    have reply : (Request.ask question).Answered job.actor streams job.ns (some answer) job.ns
        [.emit (question.event job.actor tag)] := ⟨rfl, tag, rfl⟩
    exact finish (List.prefix_refl _) (hreach.answer reply)
  obtain ⟨actor, flag, ns, phase⟩ := job
  cases phase with
  | computing c => exact finish (List.prefix_refl _) h
  | resting ms c => exact finish (List.prefix_refl _) h
  | waking c => exact finish (List.prefix_refl _) h
  | printing text c => exact finish (List.prefix_append _ _) h
  | ended result => exact finish (List.prefix_refl _) h
  | prompting phase tag question next =>
    cases phase with
    | showing => exact finish (List.prefix_refl _) h
    | looking => exact answered h
    | aborting => exact answered h
    | waiting => exact answered h
    | withdrawing => exact answered h

lemma Evaluation.exists_of_works (host : Host) (streams : Bool) (a : ActorId) (works : List Work) :
    ∃ vs : List Evaluation, vs.map Evaluation.work = works ∧ ∀ v ∈ vs, v.Genuine host streams a := by
  induction works with
  | nil => exact ⟨[], rfl, by simp⟩
  | cons work rest ih =>
    obtain ⟨v, rfl, hv, -⟩ := (work.job_computes host streams a).exists_evaluation
    obtain ⟨vs, rfl, hvs⟩ := ih
    exact ⟨v :: vs, rfl, List.forall_mem_cons.2 ⟨hv, hvs⟩⟩

end EvalServer
