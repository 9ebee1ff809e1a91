import EvalServer.Proofs.Session.Frames
import EvalServer.Proofs.Session.Interrupts

/-!
# Questions

What happens to the questions that jobs ask, whatever turns are taken and however often others
interrupt actors and answer prompts in between. Only the steps of a job register its questions and
hear of their outcomes; everything else settles questions at most.
-/

namespace EvalServer

open Traffic

/-- A turn of the session, or what others do to its evaluators and prompts. Whoever interrupts an
evaluator raises its flag, if it is on the table, and then aborts its prompts. -/
inductive Act where
  | turn (turn : Turn)
  | raise (actor : ActorId)
  | abort (actor : ActorId)
  | answer (tag : Nat) (answer : ClientAnswer)
  deriving DecidableEq

/-- What an act shows of interrupts and questions. -/
inductive Notice where
  | raised (actor : ActorId)
  | aborted (actor : ActorId)
  | answered (tag : Nat) (answer : ClientAnswer)
  /-- A job has registered a question. -/
  | asked (index tag : Nat)
  /-- The outcome of a question has come to its job: the answer, or that it was aborted. -/
  | heard (index tag : Nat) (outcome : Option ClientAnswer)
  /-- A job has sent a message to control. -/
  | told (index : Nat) (message : Message)
  deriving DecidableEq

/-- Whether a notice is about no job. -/
def Notice.isOutside : Notice → Bool
  | .raised _ | .aborted _ | .answered _ _ => true
  | _ => false

abbrev Notices := List Notice

/-- The answer that a message from the client gives. -/
def Message.answer? : Message → Option (Nat × ClientAnswer)
  | .client (.returnString _ tag text) => some (tag, .text text)
  | .client (.returnValue _ tag value) => some (tag, .value value)
  | _ => none

/-- The actor and the tag of a question of which a message says that it has been withdrawn. -/
def Message.withdrawal? : Message → Option (UInt64 × UInt64)
  | .emit (.readAborted actor tag) => some (actor, tag)
  | _ => none

namespace Notices

def asked (n : Notices) : List (Nat × Nat) :=
  n.filterMap fun
    | .asked index tag => some (index, tag)
    | _ => none

def answers (n : Notices) : List (Nat × ClientAnswer) :=
  n.filterMap fun
    | .answered tag answer => some (tag, answer)
    | _ => none

def askedBy (n : Notices) (i : Nat) : List Nat :=
  n.asked.filterMap fun r => if r.1 = i then some r.2 else none

def heardBy (n : Notices) (i : Nat) : List (Nat × Option ClientAnswer) :=
  n.filterMap fun
    | .heard index tag outcome => if index = i then some (tag, outcome) else none
    | _ => none

def withdrawnBy (n : Notices) (i : Nat) : List (UInt64 × UInt64) :=
  n.filterMap fun
    | .told index message => if index = i then message.withdrawal? else none
    | _ => none

/-- The questions that were aborted before they were answered. -/
def abortedBy (n : Notices) (i : Nat) : List Nat :=
  (n.heardBy i).filterMap fun r => if r.2 = none then some r.1 else none

section append

variable (n m : Notices) (i : Nat)

@[simp] lemma asked_append : (n ++ m).asked = n.asked ++ m.asked :=
  List.filterMap_append

@[simp] lemma answers_append : (n ++ m).answers = n.answers ++ m.answers :=
  List.filterMap_append

@[simp] lemma askedBy_append : (n ++ m).askedBy i = n.askedBy i ++ m.askedBy i := by
  simp [askedBy]

@[simp] lemma heardBy_append : (n ++ m).heardBy i = n.heardBy i ++ m.heardBy i :=
  List.filterMap_append

@[simp] lemma withdrawnBy_append : (n ++ m).withdrawnBy i = n.withdrawnBy i ++ m.withdrawnBy i :=
  List.filterMap_append

@[simp] lemma abortedBy_append : (n ++ m).abortedBy i = n.abortedBy i ++ m.abortedBy i := by
  simp [abortedBy]

end append

/-- Others' acts are no question's. -/
lemma outside {n : Notices} (hn : ∀ x ∈ n, x.isOutside = true) :
    n.asked = [] ∧ (∀ i, n.heardBy i = []) ∧ ∀ i, n.withdrawnBy i = [] := by
  refine ⟨?_, fun i => ?_, fun i => ?_⟩
  all_goals
    refine List.filterMap_eq_nil_iff.2 fun x hx => ?_
    have hout := hn x hx
    cases x with
    | raised | aborted | answered => rfl
    | asked | heard | told => cases hout

lemma mem_askedBy {n : Notices} {i tag : Nat} : tag ∈ n.askedBy i ↔ (i, tag) ∈ n.asked := by
  simp [askedBy]

end Notices

/-- The question that a job is about, and what happens to it next. -/
def Job.asks? (job : Job) : Option (PromptPhase × Nat) :=
  match job.phase with
  | .prompting phase tag _ _ => some (phase, tag)
  | _ => none

/-- The question of which a job has not heard. -/
def unheard? (asks : Option (PromptPhase × Nat)) : Option Nat :=
  asks.bind fun r => if r.1 = .withdrawing then none else some r.2

/-- The question of whose withdrawal a job has to tell. -/
def owed? (asks : Option (PromptPhase × Nat)) : Option Nat :=
  asks.bind fun r => if r.1 = .withdrawing then some r.2 else none

def PromptState.answer? : PromptState → Option ClientAnswer
  | .answered answer => some answer
  | _ => none

namespace World

def act? (w : World) : Act → Option World
  | .turn turn => w.turn? turn
  | .raise actor =>
    match w.session.raise actor with
    | (true, session) => some { w with session }
    | (false, _) => none
  | .abort actor => some (w.change (·.abortPrompts actor))
  | .answer tag answer => some (w.answerPrompt tag answer)

/-- What becomes of a question in the next step of a job. -/
def questionNotices (w : World) (index : Nat) (job : Job) : Notices :=
  match job.phase with
  | .computing (.step (.ask _) _) => [.asked index (w.session.prompts.register job.actor).1]
  | .prompting .waiting tag _ _ => [.heard index tag (w.session.prompts.state tag).answer?]
  | _ => []

def noticed (w : World) (act : Act) (w' : World) : Notices :=
  match act with
  | .raise actor => [.raised actor]
  | .abort actor => [.aborted actor]
  | .answer tag answer => [.answered tag answer]
  | .turn (.step .control) =>
    match w.session.control, w'.session.control with
    | .raising actor, .aborting _ => [.raised actor]
    | .aborting actor, _ => [.aborted actor]
    | .receiving, _ =>
      (w.controlQueue.head?.bind Message.answer?).toList.map fun r => .answered r.1 r.2
    | _, _ => []
  | .turn (.step (.job index)) =>
    match w.session.jobs[index]? with
    | some job => w.questionNotices index job ++
        (w'.controlQueue.drop w.controlQueue.length).map (.told index)
    | none => []
  | .turn _ => []

/-- Acts one after the other, if they can be, and what they show. -/
def acts? (w : World) : List Act → Option (Notices × World)
  | [] => some ([], w)
  | act :: rest => do
    let w' ← w.act? act
    let (n, last) ← w'.acts? rest
    return (w.noticed act w' ++ n, last)

theorem acts_induction {w : World} {P : Notices → World → Prop} (start : P [] w)
    (next : ∀ n w₁ act w₂, P n w₁ → w₁.act? act = some w₂ → P (n ++ w₁.noticed act w₂) w₂)
    {acts : List Act} {n : Notices} {last : World} (hrun : w.acts? acts = some (n, last)) :
    P n last := by
  have general : ∀ (acts : List Act) (w : World) (n₀ n : Notices) (last : World), P n₀ w →
      w.acts? acts = some (n, last) → P (n₀ ++ n) last := by
    intro acts
    induction acts with
    | nil =>
      intro w n₀ n last hw hrun
      simp only [acts?, Option.some.injEq, Prod.mk.injEq] at hrun
      obtain ⟨rfl, rfl⟩ := hrun
      simpa using hw
    | cons act rest ih =>
      intro w n₀ n last hw hrun
      simp only [acts?, Option.bind_eq_bind, Option.bind_eq_some_iff, Option.pure_def,
        Option.some.injEq, Prod.mk.injEq, Prod.exists] at hrun
      obtain ⟨w', hact, n', last', hrest, rfl, rfl⟩ := hrun
      have hnext := ih w' (n₀ ++ w.noticed act w') n' last' (next n₀ w act w' hw hact) hrest
      rwa [List.append_assoc] at hnext
  exact general acts w [] n last start hrun

/-- The question that the job of a position is about. -/
def asking (w : World) (i : Nat) : Option (PromptPhase × Nat) :=
  (w.session.jobs[i]?).bind Job.asks?

variable {w w' : World}

lemma raise_session {actor : ActorId} {session : Session}
    (h : w.session.raise actor = (true, session)) : actor ∈ w.session.table.evaluators ∧
      session = w.session.changeEvaluator actor fun e => { e with raised := true } := by
  unfold Session.raise at h
  split at h
  · next hknown =>
    cases h
    exact ⟨by simpa using hknown, rfl⟩
  · cases h

/-- Acts move the traffic. -/
lemma act_move (hsound : w.traffic.Sound) {act : Act} (h : w.act? act = some w') :
    ∃ shown, Move w.traffic shown w'.traffic := by
  cases act with
  | turn turn => exact ⟨_, turn_move hsound h⟩
  | raise actor =>
    simp only [act?] at h
    split at h
    · next session hraise =>
      cases h
      rw [(raise_session hraise).2]
      exact ⟨[], .flag actor _ fun e => ⟨rfl, rfl, rfl, id, fun _ => rfl⟩⟩
    · cases h
  | abort actor =>
    cases h
    exact ⟨[], .still w.traffic.streams .inl⟩
  | answer tag answer =>
    cases h
    exact ⟨[], .still w.traffic.streams .inl⟩

/-- What a step of a job does to its question and to the prompts, and what it shows. -/
inductive JobTurn (w : World) (i : Nat) (job : Job) :
    Notices → Prompts → Option (PromptPhase × Nat) → Prop
  | quiet (told : List Message) : job.asks? = none → (∀ m ∈ told, m.withdrawal? = none) →
      JobTurn w i job (told.map (.told i)) w.session.prompts none
  | ask : job.asks? = none → JobTurn w i job [.asked i (w.session.prompts.register job.actor).1]
      (w.session.prompts.register job.actor).2
      (some (.showing, (w.session.prompts.register job.actor).1))
  | shown {tag : Nat} (m : Message) : job.asks? = some (.showing, tag) → m.withdrawal? = none →
      JobTurn w i job [.told i m] w.session.prompts (some (.looking, tag))
  | looked {tag : Nat} : job.asks? = some (.looking, tag) → JobTurn w i job [] w.session.prompts
      (some (if w.session.isRaised job then .aborting else .waiting, tag))
  | aborted {tag : Nat} : job.asks? = some (.aborting, tag) →
      JobTurn w i job [] (w.session.prompts.abort job.actor).2 (some (.waiting, tag))
  | answered {tag : Nat} (answer : ClientAnswer) : job.asks? = some (.waiting, tag) →
      w.session.prompts.state tag = .answered answer →
      JobTurn w i job [.heard i tag (some answer)] (w.session.prompts.forget tag) none
  | closed {tag : Nat} : job.asks? = some (.waiting, tag) →
      (w.session.prompts.state tag).isPending = false →
      JobTurn w i job [.heard i tag none] (w.session.prompts.forget tag)
        (some (.withdrawing, tag))
  | withdrawn {tag : Nat} : job.asks? = some (.withdrawing, tag) →
      JobTurn w i job
        [.told i (.emit (.readAborted (UInt64.ofNat job.actor) (UInt64.ofNat tag)))]
        w.session.prompts none

section jobs

variable {i : Nat} {job : Job}

/-- A job that goes on in its place, with the messages that it has sent. -/
structure Steps (w : World) (i : Nat) (job : Job) (messages : List Message) (prompts : Prompts)
    (asks : Option (PromptPhase × Nat)) (w' : World) : Prop where
  jobs : ∃ job', w'.session.jobs = w.session.jobs.set i job' ∧ job'.actor = job.actor ∧
    job'.asks? = asks
  prompts : w'.session.prompts = prompts
  queue : w'.controlQueue = w.controlQueue ++ messages

lemma steps_of {w₁ : World} {f : Job → Job} {messages : List Message} {prompts : Prompts}
    {asks : Option (PromptPhase × Nat)} (hjob : w.session.jobs[i]? = some job)
    (hjobs : w₁.session.jobs = w.session.jobs) (hprompts : w₁.session.prompts = prompts)
    (hqueue : w₁.controlQueue = w.controlQueue ++ messages) (hactor : (f job).actor = job.actor)
    (hasks : (f job).asks? = asks) :
    w.Steps i job messages prompts asks (w₁.change (·.changeJob i f)) := by
  refine ⟨⟨f job, ?_, hactor, hasks⟩, hprompts, hqueue⟩
  change w₁.session.jobs.modify i f = _
  rw [hjobs, modify_eq_set f hjob]

lemma steps_setJob {w₁ : World} {phase : JobPhase} {messages : List Message} {prompts : Prompts}
    {asks : Option (PromptPhase × Nat)} (hjob : w.session.jobs[i]? = some job)
    (hjobs : w₁.session.jobs = w.session.jobs) (hprompts : w₁.session.prompts = prompts)
    (hqueue : w₁.controlQueue = w.controlQueue ++ messages)
    (hasks : Job.asks? { job with phase } = asks) :
    w.Steps i job messages prompts asks (w₁.setJob i phase) :=
  steps_of (f := fun job => { job with phase }) hjob hjobs hprompts hqueue rfl hasks

/-- A request that is no question is answered without one. -/
lemma request_turn (hjob : w.session.jobs[i]? = some job) {r : Request} {next : r.Reply → Course}
    (hphase : job.phase = .computing (.step r next)) :
    ∃ messages prompts asks, w.Steps i job messages prompts asks (w.serve i job r next) ∧
      JobTurn w i job (w.questionNotices i job ++ messages.map (.told i)) prompts asks := by
  have hasks : job.asks? = none := by simp [Job.asks?, hphase]
  have quiet : ∀ (messages : List Message) {w' : World}, w.questionNotices i job = [] →
      (∀ m ∈ messages, m.withdrawal? = none) →
      w.Steps i job messages w.session.prompts none w' →
      ∃ messages prompts asks, w.Steps i job messages prompts asks w' ∧
        JobTurn w i job (w.questionNotices i job ++ messages.map (.told i)) prompts asks := by
    intro messages w' hnone hcalm hsteps
    refine ⟨messages, _, _, hsteps, ?_⟩
    rw [hnone, List.nil_append]
    exact .quiet messages hasks hcalm
  have hsame : w.controlQueue = w.controlQueue ++ [] := (List.append_nil _).symm
  cases r with
  | ask question =>
    refine ⟨[], _, _, steps_setJob hjob rfl rfl hsame rfl, ?_⟩
    simp only [questionNotices, hphase]
    exact .ask hasks
  | writeOutput text =>
    have hnone : w.questionNotices i job = [] := by simp [questionNotices, hphase]
    simp only [serve, Session.writeDedicated]
    by_cases hstream : (w.session.output.installed && w.session.output.phase ≠ .ended) = true
    · simp only [hstream, if_true]
      refine quiet [] hnone (by simp) ?_
      exact steps_setJob hjob rfl rfl hsame rfl
    · simp only [hstream, Bool.false_eq_true, if_false]
      refine quiet [] hnone (by simp) ?_
      exact steps_setJob hjob rfl rfl hsame rfl
  | writeResult text =>
    refine quiet [.emit (.writeString text (some Session.resultChannel))]
      (by simp [questionNotices, hphase]) (by simp [Message.withdrawal?]) ?_
    exact steps_setJob hjob rfl rfl (controlQueue_tell w _) rfl
  | debug kind details =>
    refine quiet [.debug job.actor kind details] (by simp [questionNotices, hphase])
      (by simp [Message.withdrawal?]) ?_
    exact steps_setJob hjob rfl rfl (controlQueue_tell w _) rfl
  | enterNamespace dest =>
    refine quiet [] (by simp [questionNotices, hphase]) (by simp) ?_
    exact steps_of hjob rfl rfl hsame rfl rfl
  | _ =>
    refine quiet [] (by simp [questionNotices, hphase]) (by simp) ?_
    exact steps_setJob hjob rfl rfl hsame rfl

lemma prompt_turn (hjob : w.session.jobs[i]? = some job) {phase : PromptPhase} {tag : Nat}
    {question : Question} {next : Option question.Answer → Course}
    (hphase : job.phase = .prompting phase tag question next)
    (h : w.promptStep? i job phase tag question next = some w') :
    ∃ messages prompts asks, w.Steps i job messages prompts asks w' ∧
      JobTurn w i job (w.questionNotices i job ++ messages.map (.told i)) prompts asks := by
  have hsame : w.controlQueue = w.controlQueue ++ [] := (List.append_nil _).symm
  have hasks : job.asks? = some (phase, tag) := by simp [Job.asks?, hphase]
  cases phase with
  | showing =>
    cases h
    refine ⟨_, _, _, steps_setJob hjob rfl rfl (controlQueue_tell w _) rfl, ?_⟩
    simp only [questionNotices, hphase]
    exact .shown _ hasks (by cases question <;> rfl)
  | looking =>
    cases h
    refine ⟨[], _, _, steps_setJob hjob rfl rfl hsame rfl, ?_⟩
    simp only [questionNotices, hphase]
    exact .looked hasks
  | aborting =>
    cases h
    refine ⟨[], _, _, steps_setJob hjob rfl rfl hsame rfl, ?_⟩
    simp only [questionNotices, hphase]
    exact .aborted hasks
  | withdrawing =>
    cases h
    refine ⟨_, _, _, steps_setJob hjob rfl rfl (controlQueue_tell w _) rfl, ?_⟩
    simp only [questionNotices, hphase]
    exact .withdrawn hasks
  | waiting =>
    simp only [promptStep?, awaitAnswer?] at h
    cases hstate : w.session.prompts.state tag with
    | pending heard => simp [hstate] at h
    | answered answer =>
      simp only [hstate, Option.some.injEq] at h
      subst h
      refine ⟨[], _, _, steps_setJob hjob rfl rfl hsame rfl, ?_⟩
      simp only [questionNotices, hphase, hstate]
      exact .answered answer hasks hstate
    | closed | forgotten =>
      simp only [hstate, Option.some.injEq] at h
      subst h
      refine ⟨[], _, _, steps_setJob hjob rfl rfl hsame rfl, ?_⟩
      simp only [questionNotices, hphase, hstate]
      exact .closed hasks (by rw [hstate]; rfl)

lemma job_turn (hjob : w.session.jobs[i]? = some job) (h : w.jobStep? i = some w') :
    ∃ messages prompts asks, w.Steps i job messages prompts asks w' ∧
      JobTurn w i job (w.questionNotices i job ++ messages.map (.told i)) prompts asks := by
  have hsame : w.controlQueue = w.controlQueue ++ [] := (List.append_nil _).symm
  simp only [jobStep?, hjob, Option.bind_eq_bind, Option.bind_some, Option.pure_def] at h
  cases hphase : job.phase with
  | computing c =>
    cases c with
    | done result =>
      simp only [hphase, Option.some.injEq] at h
      subst h
      refine ⟨[], _, _, steps_setJob hjob rfl rfl hsame rfl, ?_⟩
      simp only [questionNotices, hphase]
      exact .quiet [] (by simp [Job.asks?, hphase]) (by simp)
    | step r next =>
      simp only [hphase, Option.some.injEq] at h
      subst h
      exact request_turn hjob hphase
  | printing text c =>
    simp only [hphase, Option.some.injEq] at h
    subst h
    refine ⟨_, _, _, steps_setJob hjob rfl rfl (controlQueue_tell w _) rfl, ?_⟩
    simp only [questionNotices, hphase]
    exact .quiet [_] (by simp [Job.asks?, hphase]) (by simp [Message.withdrawal?])
  | waking c =>
    simp only [hphase, Option.some.injEq] at h
    subst h
    refine ⟨[], _, _, steps_setJob hjob rfl rfl hsame rfl, ?_⟩
    simp only [questionNotices, hphase]
    exact .quiet [] (by simp [Job.asks?, hphase]) (by simp)
  | prompting phase tag question next =>
    rw [hphase] at h
    exact prompt_turn hjob hphase h
  | resting | ended => simp [hphase] at h

end jobs

section others

/-- Questions stay as they are but for what the prompts are settled. -/
structure Settling (w : World) (given : List (Nat × ClientAnswer)) (w' : World) : Prop where
  prompts : w.session.prompts.Settles given w'.session.prompts
  asking : ∀ i, w'.asking i = w.asking i

namespace Settling

variable {given : List (Nat × ClientAnswer)}

lemma of_jobs (hprompts : w.session.prompts.Settles given w'.session.prompts)
    (hjobs : w'.session.jobs = w.session.jobs) : w.Settling given w' :=
  ⟨hprompts, fun i => by rw [World.asking, World.asking, hjobs]⟩

lemma same (hsame : (w'.session.prompts, w'.session.jobs) = (w.session.prompts, w.session.jobs)) :
    w.Settling given w' := by
  obtain ⟨hprompts, hjobs⟩ := Prod.mk.inj hsame
  exact of_jobs (hprompts ▸ .refl _ _) hjobs

/-- Prompts are aborted at most. -/
lemma of_session {session : Session} (hsession : w'.session = session)
    (hprompts : w.session.prompts.Settles [] session.prompts)
    (hjobs : session.jobs = w.session.jobs) : w.Settling given w' := by
  subst hsession
  exact of_jobs (hprompts.mono (List.nil_subset _)) hjobs

lemma trans {w'' : World} (h : w.Settling given w') (h' : w'.Settling given w'') :
    w.Settling given w'' :=
  ⟨h.prompts.trans h'.prompts, fun i => (h'.asking i).trans (h.asking i)⟩

lemma ensureRepl (w : World) : w.Settling given w.ensureRepl.2 := by
  obtain ⟨-, evaluators, repl, active, prompts, hsession, -, hprompts⟩ := ensureRepl_frame w
  exact of_session hsession hprompts rfl

lemma closeStep {phase phase' : ClosePhase} (h : w.closeStep? phase = some (w', phase')) :
    w.Settling given w' := by
  obtain ⟨-, _, _, _, _, _, _, _, prompts, hsession, -, hprompts⟩ := closeStep_frame h
  exact of_session hsession hprompts rfl

lemma serve (h : w.serveStep? = some w') : w.Settling given w' := by
  unfold serveStep? at h
  cases hservice : w.session.service with
  | absent | ended => simp [hservice] at h
  | startingControl | startingReader | recording | recordingOutput | announcingOutput
    | starting =>
    simp only [hservice, Option.some.injEq] at h
    subst h
    exact same rfl
  | startingRepl =>
    simp only [hservice, Option.some.injEq] at h
    subst h
    exact (ensureRepl w).trans (same rfl)
  | opening =>
    simp only [hservice] at h
    split at h
    · cases h
      exact same rfl
    · cases h
      exact same rfl
  | serving =>
    simp only [hservice] at h
    split at h
    · cases h
      exact same rfl
    · cases h
  | closing phase =>
    simp only [hservice] at h
    split at h
    · next w₁ phase' hclose =>
      cases h
      exact (closeStep hclose).trans (same rfl)
    · cases h
      exact same rfl

lemma handle (w : World) (m : Message) : w.Settling m.answer?.toList (w.handle m) := by
  cases m with
  | start | evaluate | emit | debug | result => exact same rfl
  | client event =>
    cases event with
    | evaluate form package thread id =>
      simp only [World.handle, handleClient]
      cases hresolve : w.resolve thread with
      | mk found w₂ =>
        obtain ⟨-, evaluators, table, active, prompts, hsession, -, hprompts⟩ :=
          resolve_frame hresolve
        cases found with
        | none => exact of_session hsession hprompts rfl
        | some target => exact (of_session hsession hprompts rfl).trans (same rfl)
    | interrupt thread =>
      simp only [World.handle, handleClient]
      split
      · exact same rfl
      · exact same rfl
    | returnString n tag text => exact of_jobs (w.session.prompts.settles_resolve tag _) rfl
    | returnValue n tag value => exact of_jobs (w.session.prompts.settles_resolve tag _) rfl
    | unknown => exact same rfl

lemma control (h : w.controlStep? = some w') :
    w.Settling (Notices.answers (w.noticed (.turn (.step .control)) w')) w' := by
  unfold controlStep? at h
  cases hc : w.session.control with
  | absent | ended => simp [hc] at h
  | receiving =>
    simp only [hc, Option.bind_eq_bind, Option.bind_eq_some_iff, Option.pure_def,
      Option.some.injEq, Prod.exists] at h
    obtain ⟨m, ⟨image, session⟩, hreceive, rfl⟩ := h
    obtain ⟨rest, hqueue, -, rfl⟩ := receive?_spec hreceive
    have hqueue' : w.controlQueue = m :: rest := hqueue
    have hgiven : Notices.answers (w.noticed (.turn (.step .control))
        (({ image, session := w.session } : World).handle m)) = m.answer?.toList := by
      simp only [noticed, hc, hqueue', List.head?_cons, Option.bind_some]
      cases m.answer? <;> rfl
    rw [hgiven]
    refine Settling.trans ?_ (handle _ m)
    exact same rfl
  | entering | handing =>
    simp only [hc, Option.some.injEq] at h
    subst h
    exact same rfl
  | raising target =>
    simp only [hc] at h
    split at h
    · next session hraise =>
      cases h
      obtain ⟨-, rfl⟩ := raise_session hraise
      exact same rfl
    · cases h
      exact same rfl
  | aborting target =>
    simp only [hc, Option.some.injEq] at h
    subst h
    exact of_session rfl (w.session.prompts.settles_abort target) rfl
  | writing event =>
    simp only [hc, Option.some.injEq] at h
    subst h
    unfold write
    simp only
    split
    · exact same rfl
    · exact same rfl

/-- A job that starts has not asked yet. -/
lemma evaluator (hsound : w.traffic.Sound) {id : ActorId} (h : w.evaluatorStep? id = some w') :
    w.Settling given w' := by
  obtain ⟨-, evaluators, jobs, hints, workers, hsession, hjobs, -⟩ :=
    evaluator_frame (fun e he => ne_controlId hsound he) h
  rcases hjobs with rfl | ⟨work, rfl⟩
  · exact same (by rw [hsession])
  · have hfresh : (work.job w.session.host id).asks? = none := rfl
    refine ⟨by rw [hsession]; exact (Prompts.Settles.refl _ _), fun i => ?_⟩
    simp only [World.asking, hsession, List.getElem?_append]
    split
    · rfl
    · next hi =>
      rw [List.getElem?_eq_none (Nat.le_of_not_lt hi)]
      cases hget : [work.job w.session.host id][i - w.session.jobs.length]? with
      | none => rfl
      | some job =>
        obtain rfl := List.mem_singleton.1 (List.mem_of_getElem? hget)
        exact hfresh

/-- A job that wakes up asks nothing by that. -/
lemma wake {index : Nat} (h : w.wake? index = some w') : w.Settling given w' := by
  simp only [wake?, Option.bind_eq_bind, Option.bind_eq_some_iff, Option.pure_def] at h
  obtain ⟨job, hjob, h⟩ := h
  cases hphase : job.phase with
  | resting ms c =>
    simp only [hphase, Option.some.injEq] at h
    subst h
    refine ⟨.refl _ _, fun i => ?_⟩
    let compute (job : Job) : Job := { job with phase := .computing c }
    change ((w.session.jobs.modify index compute)[i]?).bind Job.asks? = _
    rw [List.getElem?_modify]
    by_cases hi : index = i
    · subst hi
      simp [World.asking, hjob, Job.asks?, hphase]
    · simp [World.asking, hi]
  | _ => simp [hphase] at h

lemma finish {handle : Handle} (h : w.finish? handle = some w') : w.Settling given w' := by
  cases handle with
  | reader =>
    rw [readerEnd_frame h]
    exact same rfl
  | evaluator id =>
    rw [evaluatorEnd_frame h]
    exact same rfl
  | output =>
    obtain ⟨output, rfl⟩ := output_frame (.inr (.inr h))
    exact same rfl
  | control =>
    obtain ⟨-, -, rfl⟩ := controlEnd_spec h
    exact same rfl

/-- The control loop settles what it is told the answer of, and nothing else is answered. -/
lemma step (hsound : w.traffic.Sound) {action : Action} (hjob : ∀ i, action ≠ .job i)
    (h : w.step? action = some w') :
    w.Settling (Notices.answers (w.noticed (.turn (.step action)) w')) w' := by
  cases action with
  | job i => exact absurd rfl (hjob i)
  | serve => exact serve h
  | control => exact control h
  | reader =>
    obtain ⟨-, inbound, reader, hsession⟩ := reader_frame (Nat.ne_of_lt hsound.reader_lt) h
    exact same (by rw [hsession])
  | evaluator id => exact evaluator hsound h
  | output =>
    obtain ⟨output, rfl⟩ := output_frame (.inl h)
    exact same rfl
  | connectOutput =>
    obtain ⟨output, rfl⟩ := output_frame (.inr (.inl h))
    exact same rfl
  | wake index => exact wake h
  | close index =>
    obtain ⟨phase, phase', w₁, -, hclose, rfl⟩ := closer_spec h
    exact (closeStep hclose).trans (same rfl)
  | finish handle => exact finish h
  | cut calls =>
    obtain ⟨_, _, -, -, -, rfl⟩ := cutShort_spec h
    exact same rfl
  | deliver arrival =>
    simp only [step?] at h
    split at h
    · cases h
    · cases h
      exact same rfl
  | endInput | hangUp | beginClose =>
    cases h
    exact same rfl

end Settling

/-- Only a job's own steps register and forget questions. -/
lemma act_settling (hsound : w.traffic.Sound) {act : Act}
    (hact : ∀ i, act ≠ .turn (.step (.job i))) (h : w.act? act = some w') :
    w.Settling (w.noticed act w').answers w' := by
  cases act with
  | raise actor =>
    simp only [act?] at h
    split at h
    · next session hraise =>
      cases h
      obtain ⟨-, rfl⟩ := raise_session hraise
      exact .same rfl
    · cases h
  | abort actor =>
    cases h
    exact .of_session rfl (w.session.prompts.settles_abort actor) rfl
  | answer tag answer =>
    cases h
    exact .of_jobs (w.session.prompts.settles_resolve tag answer) rfl
  | turn turn =>
    cases turn with
    | kill handle =>
      cases h
      obtain ⟨_, _, _, _, hkill, -⟩ := kill_frame w.session handle
      exact .same (by simp only [change, hkill])
    | step action =>
      refine .step hsound (fun i heq => hact i ?_) h
      rw [heq]

end others

/-- A job takes a step of its own, and other jobs stay as they are. -/
structure JobStep (w : World) (i : Nat) (job job' : Job) (n : Notices) (w' : World) : Prop where
  before : w.session.jobs[i]? = some job
  jobs : w'.session.jobs = w.session.jobs.set i job'
  actor : job'.actor = job.actor
  turn : JobTurn w i job n w'.session.prompts job'.asks?

lemma act_job {i : Nat} {job : Job} (hjob : w.session.jobs[i]? = some job)
    (h : w.jobStep? i = some w') :
    ∃ job', w.JobStep i job job' (w.noticed (.turn (.step (.job i))) w') w' := by
  obtain ⟨messages, prompts, asks, ⟨⟨job', hjobs, hactor, rfl⟩, rfl, hqueue⟩, hturn⟩ :=
    job_turn hjob h
  refine ⟨job', hjob, hjobs, hactor, ?_⟩
  simpa only [noticed, hjob, hqueue, List.drop_left] using hturn

/-- An act settles questions at most, or it is the step of a job. -/
lemma act_cases (hsound : w.traffic.Sound) {act : Act} (h : w.act? act = some w') :
    (w.Settling (w.noticed act w').answers w' ∧ ∀ n ∈ w.noticed act w', n.isOutside = true) ∨
    ∃ i job job', w.JobStep i job job' (w.noticed act w') w' := by
  by_cases hact : ∃ i, act = .turn (.step (.job i))
  · obtain ⟨i, rfl⟩ := hact
    replace h : w.jobStep? i = some w' := h
    cases hjob : w.session.jobs[i]? with
    | none => simp [jobStep?, hjob] at h
    | some job => exact .inr ⟨i, job, act_job hjob h⟩
  · refine .inl ⟨act_settling hsound (fun i heq => hact ⟨i, heq⟩) h, fun n hn => ?_⟩
    unfold noticed at hn
    split at hn
    · rw [List.mem_singleton.1 hn]
      rfl
    · rw [List.mem_singleton.1 hn]
      rfl
    · rw [List.mem_singleton.1 hn]
      rfl
    · split at hn
      · rw [List.mem_singleton.1 hn]
        rfl
      · rw [List.mem_singleton.1 hn]
        rfl
      · obtain ⟨r, -, rfl⟩ := List.mem_map.1 hn
        rfl
      · cases hn
    · exact absurd ⟨_, rfl⟩ hact
    · cases hn

end World

end EvalServer
