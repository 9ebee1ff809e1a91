import EvalServer.Proofs.Session.Evaluation
import EvalServer.Proofs.Session.History
import Mathlib.Data.List.Nodup
import Mathlib.Logic.Function.Basic

/-!
# The traffic of a session

`Traffic` is the part of a session that requests and their answers pass through, and
`Traffic.Move` says once what a turn can do to it and what the turn shows. That every turn of a
session is such a move is proved in the modules on steps; invariants need only look at moves.
-/

namespace EvalServer

structure Traffic where
  host : Host
  wantsOutput : Bool
  readerId : ActorId
  controlId : ActorId
  /-- Whether the control loop is still to be started. -/
  starting : Prop
  /-- Whether there may be a dedicated output stream. -/
  streams : Prop
  control : ControlPhase
  queue : ActorId → List Message
  lastActor : ActorId
  repl : Option ActorId
  evaluators : List Evaluator
  jobs : List Job
  active : ActiveSet
  outbound : List UInt8

def World.traffic (w : World) : Traffic where
  host := w.session.host
  wantsOutput := w.session.wantsOutput
  readerId := w.session.readerId
  controlId := w.session.controlId
  starting := w.session.service = .startingControl ∨ w.session.service = .absent
  streams := w.session.service = .opening ∨ w.session.output.phase ≠ .absent ∨
    w.session.output.installed
  control := w.session.control
  queue := w.image.mailboxes.queue
  lastActor := w.image.mailboxes.lastActor
  repl := w.session.table.repl
  evaluators := w.session.evaluators
  jobs := w.session.jobs
  active := w.session.active
  outbound := w.session.connection.outbound

def ServerEvent.isReturn : ServerEvent → Bool
  | .return _ _ => true
  | _ => false

/-- The frame of an event; one that cannot be encoded leaves nothing. -/
def ServerEvent.frame (coding : Coding) (event : ServerEvent) : List UInt8 :=
  match Frame.encode coding event.toSexp with
  | .ok frame => frame
  | .error _ => []

namespace Traffic

def ids (o : Traffic) : List ActorId :=
  o.evaluators.map Evaluator.id

def setQueue (o : Traffic) (a : ActorId) (queue : List Message) : Traffic :=
  { o with queue := Function.update o.queue a queue }

def controlQueue (o : Traffic) : List Message :=
  o.queue o.controlId

def tell (o : Traffic) (messages : List Message) : Traffic :=
  o.setQueue o.controlId (o.queue o.controlId ++ messages)

def change (o : Traffic) (id : ActorId) (f : Evaluator → Evaluator) : Traffic :=
  { o with evaluators := o.evaluators.map fun e => if e.id = id then f e else e }

def setPhase (o : Traffic) (id : ActorId) (phase : EvaluatorPhase) : Traffic :=
  o.change id fun e => { e with phase }

def goControl (o : Traffic) (control : ControlPhase) : Traffic :=
  { o with control }

def setActive (o : Traffic) (active : ActiveSet) : Traffic :=
  { o with active }

/-- An evaluator gets the next number and starts. -/
def spawn (o : Traffic) (name : String) (worker flag : Bool) : Traffic :=
  { o with
    lastActor := o.lastActor + 1
    evaluators := o.evaluators ++
      [{ id := o.lastActor + 1, name, worker, raised := flag, killed := flag }] }

/-- The REPL is there, or starts; one that has ended is no longer active. -/
inductive Hosts (o : Traffic) : ActorId → Traffic → Prop
  | live {id : ActorId} : id ∈ o.ids → o.repl = some id → Hosts o id o
  | first (name : String) (flag : Bool) : Hosts o (o.lastActor + 1)
      { o.spawn name false flag with repl := some (o.lastActor + 1) }
  | again (name : String) (flag : Bool) {dead : ActorId} : o.repl = some dead →
      (∀ e ∈ o.evaluators, e.id = dead → e.phase = .ended) → Hosts o (o.lastActor + 1)
      { o.spawn name false flag with
        repl := some (o.lastActor + 1), active := o.active.remove dead }

/-- A designator means an evaluator, which may have to start for it. -/
inductive Resolves (o : Traffic) : Thread → ActorId → Traffic → Prop
  | any (name : String) (flag : Bool) :
      Resolves o .any (o.lastActor + 1) (o.spawn name true flag)
  | repl {id : ActorId} {o' : Traffic} : Hosts o id o' → Resolves o .repl id o'
  | other {thread : Thread} {id : ActorId} : thread ≠ .any → id ∈ o.ids → Resolves o thread id o

/-- What a turn can do to the traffic, and what it shows. -/
inductive Move (o : Traffic) : History → Traffic → Prop
  | still (b : Prop) : (b → o.streams ∨ o.wantsOutput) →
      Move o [] { o with streams := b }
  | start : o.starting → Move o [] ({ o with starting := False }.goControl .receiving)
  | clear : Move o [] { o with repl := none }
  | flag (id : ActorId) (f : Evaluator → Evaluator) : (∀ e, (f e).id = e.id ∧
      (f e).worker = e.worker ∧ (f e).phase = e.phase ∧ (e.killed = true → (f e).killed = true) ∧
      (e.raised = true → (f e).raised = true)) → Move o [] (o.change id f)
  | readerMail (queue : List Message) : Move o [] (o.setQueue o.readerId queue)
  | host {id : ActorId} {o' : Traffic} (b : Prop) : Hosts o id o' →
      (b → o.streams ∨ o.wantsOutput) → Move o [] { o' with streams := b }
  | tell {m : Message} : (∃ event, m = .client event) ∨
      (∃ port, m = .emit (.openDedicatedOutput port)) → Move o [.sent none m] (o.tell [m])
  -- control takes a message
  | pass {m : Message} {rest : List Message} : o.control = .receiving →
      o.queue o.controlId = m :: rest → m.result? = none →
      Move o [.taken m] (o.setQueue o.controlId rest)
  | accept (work : Work) {thread : Thread} {rest : List Message} {target : ActorId}
      {o' : Traffic} : o.control = .receiving → o.queue o.controlId =
        .client (.evaluate work.form work.package thread work.id) :: rest →
      Resolves (o.setQueue o.controlId rest) thread target o' →
      Move o [.taken (.client (.evaluate work.form work.package thread work.id)),
        .accepted thread target work] (o'.goControl (.entering target work))
  | aim {m : Message} {rest : List Message} {target : ActorId} : o.control = .receiving →
      o.queue o.controlId = m :: rest → m.result? = none →
      Move o [.taken m] ((o.setQueue o.controlId rest).goControl (.raising target))
  | conclude {actor : ActorId} {status : Status} {id : Int64} {rest : List Message} :
      o.control = .receiving → o.queue o.controlId = .result actor status id :: rest →
      Move o [.taken (.result actor status id)]
        (((o.setQueue o.controlId rest).setActive (o.active.remove actor)).goControl
          (.writing (.return status id)))
  | pick {m : Message} {rest : List Message} (event : ServerEvent) : o.control = .receiving →
      o.queue o.controlId = m :: rest → m.result? = none →
      (event.isReturn = true → m = .emit event) →
      Move o [.taken m] ((o.setQueue o.controlId rest).goControl (.writing event))
  -- control goes on
  | enter {target : ActorId} {work : Work} : o.control = .entering target work →
      Move o [] ((o.setActive (o.active.add target)).goControl (.handing target work))
  | hand {target : ActorId} {work : Work} : o.control = .handing target work →
      Move o [.handed target work]
        ((o.setQueue target (o.queue target ++ [.evaluate work])).goControl .receiving)
  | raise {target : ActorId} : o.control = .raising target → Move o []
      ((o.change target fun e => { e with raised := true }).goControl (.aborting target))
  | turnBack {target : ActorId} : o.control = .raising target ∨ o.control = .aborting target →
      Move o [] (o.goControl .receiving)
  | write {event : ServerEvent} (bytes : List UInt8) (next : ControlPhase) :
      o.control = .writing event → next = .receiving ∨ next = .ended →
      (next = .receiving → ∀ frame, Frame.encode o.host.coding event.toSexp = .ok frame →
        bytes = frame) →
      Move o [.written event bytes]
        ({ o with outbound := o.outbound ++ bytes }.goControl next)
  | stop : (o.control = .receiving ∨ ∃ event, o.control = .writing event) →
      Move o [] (o.goControl .ended)
  -- an evaluator goes on
  | take {e : Evaluator} {work : Work} {rest : List Message} : e ∈ o.evaluators →
      e.phase = .receiving → o.queue e.id = .evaluate work :: rest →
      Move o [] ((o.setQueue e.id rest).setPhase e.id (.taken work))
  | begin {e : Evaluator} {work : Work} : e ∈ o.evaluators → e.phase = .taken work →
      Move o [] ({ o with jobs := o.jobs ++ [work.job o.host e.id] }.change e.id fun e =>
        { e with raised := false, phase := .evaluating work o.jobs.length })
  | judge {e : Evaluator} {work : Work} {index : Nat} {job : Job}
      {result : Except EvalError Sexp} : e ∈ o.evaluators → e.phase = .evaluating work index →
      o.jobs[index]? = some job → job.phase = .ended result →
      Move o [] (o.setPhase e.id (.ofResult e.id work job.ns result))
  | announce {e : Evaluator} {work : Work} {value : Sexp} {ns : String} : e ∈ o.evaluators →
      e.phase = .announcing work value ns →
      Move o ((Evaluation.announcement work ns).map (.sent (some e.id)))
        ((o.tell (Evaluation.announcement work ns)).setPhase e.id (.hinting work value ns))
  | hint {e : Evaluator} {work : Work} {value : Sexp} {ns : String} (missing : List Hint) :
      e ∈ o.evaluators → e.phase = .hinting work value ns →
      Move o [.hinted e.id ns missing]
        (o.setPhase e.id (.posting (work.report e.id value missing)))
  | post {e : Evaluator} {m : Message} {rest : List Message} : e ∈ o.evaluators →
      e.phase = .posting (m :: rest) →
      Move o [.sent (some e.id) m] ((o.tell [m]).setPhase e.id (.posting rest))
  | finish {e : Evaluator} : e ∈ o.evaluators → e.phase = .posting [] →
      Move o [] (o.setPhase e.id (if e.worker then .leaving else .receiving))
  | leave {e : Evaluator} : e ∈ o.evaluators → e.phase = .leaving →
      Move o [] (o.setPhase e.id .ended)
  | die {e : Evaluator} : e ∈ o.evaluators →
      (e.phase = .receiving ∨ ∃ work index, e.phase = .evaluating work index) →
      e.killed = true → Move o [] (o.setPhase e.id .ended)
  -- a job goes on
  | compute {index : Nat} {job job' : Job} {messages : List Message} :
      o.jobs[index]? = some job → job.isEnded = false → job'.actor = job.actor →
      job'.flag = job.flag → (∀ work said, job.Computes o.host o.wantsOutput work said →
        job'.Computes o.host o.wantsOutput work (said ++ messages)) →
      Move o (messages.map (.sent (some job.actor)))
        ({ o with jobs := o.jobs.set index job' }.tell messages)

lemma Move.same {o o' : Traffic} {h : History} (hmove : Move o h o') :
    o'.host = o.host ∧ o'.wantsOutput = o.wantsOutput ∧ o'.controlId = o.controlId := by
  cases hmove with
  | host b hhost => cases hhost <;> exact ⟨rfl, rfl, rfl⟩
  | accept _ _ _ hres =>
    cases hres with
    | repl hhost => cases hhost <;> exact ⟨rfl, rfl, rfl⟩
    | _ => exact ⟨rfl, rfl, rfl⟩
  | _ => exact ⟨rfl, rfl, rfl⟩

/-- Moves made one after the other, and what they show. -/
inductive Run (o : Traffic) : History → Traffic → Prop
  | start : Run o [] o
  | next {h h' : History} {o₁ o₂ : Traffic} : Run o h o₁ → Move o₁ h' o₂ → Run o (h ++ h') o₂

/-- Every actor has a number and a mailbox of its own, evaluators get requests only, and control
is not started twice. -/
structure Sound (o : Traffic) : Prop where
  reader_lt : o.readerId < o.controlId
  control_le : o.controlId ≤ o.lastActor
  absent : o.starting → o.control = .absent
  wants : o.streams → o.wantsOutput
  nodup : o.ids.Nodup
  control_lt : ∀ a ∈ o.ids, o.controlId < a
  le_last : ∀ a ∈ o.ids, a ≤ o.lastActor
  unborn : ∀ a, o.lastActor < a → o.queue a = []
  mail : ∀ a ∈ o.ids, ∀ m ∈ o.queue a, ∃ work, m = .evaluate work
  target : ∀ t work, o.control = .entering t work ∨ o.control = .handing t work → t ∈ o.ids

/-- Nothing has been done yet. -/
structure Blank (o : Traffic) : Prop extends Sound o where
  evaluators_eq : o.evaluators = []
  jobs_eq : o.jobs = []
  repl_eq : o.repl = none
  control_eq : o.control = .absent
  queue_eq : o.controlQueue = []
  active_eq : o.active.members = []

section operations

variable (o : Traffic) (a : ActorId)

@[simp] lemma queue_setQueue (queue : List Message) (b : ActorId) :
    (o.setQueue a queue).queue b = if b = a then queue else o.queue b :=
  Function.update_apply o.queue a queue b

@[simp] lemma queue_tell (messages : List Message) (b : ActorId) :
    (o.tell messages).queue b =
      if b = o.controlId then o.queue o.controlId ++ messages else o.queue b :=
  Function.update_apply o.queue o.controlId _ b

@[simp] lemma queue_change (f : Evaluator → Evaluator) : (o.change a f).queue = o.queue := rfl

@[simp] lemma queue_setPhase (phase : EvaluatorPhase) :
    (o.setPhase a phase).queue = o.queue := rfl

@[simp] lemma evaluators_setQueue (queue : List Message) :
    (o.setQueue a queue).evaluators = o.evaluators := rfl

@[simp] lemma evaluators_tell (messages : List Message) :
    (o.tell messages).evaluators = o.evaluators := rfl

@[simp] lemma evaluators_goControl (c : ControlPhase) :
    (o.goControl c).evaluators = o.evaluators := rfl

@[simp] lemma controlQueue_setQueue (queue : List Message) :
    (o.setQueue o.controlId queue).controlQueue = queue :=
  Function.update_self _ _ _

lemma controlQueue_setQueue_of_ne (queue : List Message) (h : a ≠ o.controlId) :
    (o.setQueue a queue).controlQueue = o.controlQueue :=
  Function.update_of_ne h.symm _ _

@[simp] lemma controlQueue_tell (messages : List Message) :
    (o.tell messages).controlQueue = o.controlQueue ++ messages :=
  Function.update_self _ _ _

@[simp] lemma tell_nil : o.tell [] = o := by
  simp [tell, setQueue]

lemma ids_change {f : Evaluator → Evaluator} (hf : ∀ e, (f e).id = e.id) :
    (o.change a f).ids = o.ids := by
  simp only [ids, change, List.map_map]
  refine List.map_congr_left fun e _ => ?_
  by_cases h : e.id = a <;> simp [h, hf]

@[simp] lemma control_goControl (c : ControlPhase) : (o.goControl c).control = c := rfl

@[simp] lemma control_setQueue (queue : List Message) :
    (o.setQueue a queue).control = o.control := rfl

@[simp] lemma control_change (f : Evaluator → Evaluator) :
    (o.change a f).control = o.control := rfl

@[simp] lemma control_setActive (active : ActiveSet) :
    (o.setActive active).control = o.control := rfl

lemma evaluators_change_of_notMem {o : Traffic} {a : ActorId} (f : Evaluator → Evaluator)
    (h : a ∉ o.ids) :
    (o.change a f).evaluators = o.evaluators := by
  rw [change]
  conv_rhs => rw [← List.map_id o.evaluators]
  refine List.map_congr_left fun e he => if_neg fun hid => h ?_
  exact hid ▸ List.mem_map_of_mem he

@[simp] lemma evaluators_change_id : (o.change a id).evaluators = o.evaluators := by
  simp [change]

@[simp] lemma ids_spawn (name : String) (worker flag : Bool) :
    (o.spawn name worker flag).ids = o.ids ++ [o.lastActor + 1] := by
  simp [ids, spawn]

end operations

namespace Sound

variable {o : Traffic}

lemma eq_of_id (h : o.Sound) {e e' : Evaluator} (he : e ∈ o.evaluators) (he' : e' ∈ o.evaluators)
    (hid : e.id = e'.id) : e = e' :=
  List.inj_on_of_nodup_map h.nodup he he' hid

lemma setQueue (h : o.Sound) {a : ActorId} {queue : List Message} (ha : a ≤ o.lastActor)
    (hmail : a ∈ o.ids → ∀ m ∈ queue, ∃ work, m = .evaluate work) : (o.setQueue a queue).Sound where
  reader_lt := h.reader_lt
  control_le := h.control_le
  absent := h.absent
  wants := h.wants
  nodup := h.nodup
  control_lt := h.control_lt
  le_last := h.le_last
  unborn := by
    intro b hb
    have hne : b ≠ a := Nat.ne_of_gt (Nat.lt_of_le_of_lt ha hb)
    rw [queue_setQueue, if_neg hne]
    exact h.unborn b hb
  mail := by
    intro b hb m hm
    rw [queue_setQueue] at hm
    by_cases hne : b = a
    · subst hne
      rw [if_pos rfl] at hm
      exact hmail hb m hm
    · rw [if_neg hne] at hm
      exact h.mail b hb m hm
  target := h.target

/-- Control and reader are no evaluators, so that their queues may hold any messages. -/
lemma setControlQueue (h : o.Sound) (queue : List Message) :
    (o.setQueue o.controlId queue).Sound :=
  h.setQueue h.control_le fun hc => absurd (h.control_lt _ hc) (Nat.lt_irrefl _)

lemma tell (h : o.Sound) (messages : List Message) : (o.tell messages).Sound :=
  h.setControlQueue _

lemma setControl (h : o.Sound) (c : ControlPhase) (hstart : o.starting → c = .absent)
    (htarget : ∀ t work, c = .entering t work ∨ c = .handing t work → t ∈ o.ids) :
    (o.goControl c).Sound :=
  { h with absent := hstart, target := htarget }

lemma setJobs (h : o.Sound) (jobs : List Job) : { o with jobs }.Sound :=
  { h with }

lemma setActive (h : o.Sound) (active : ActiveSet) : (o.setActive active).Sound :=
  { h with }

lemma change (h : o.Sound) (id : ActorId) {f : Evaluator → Evaluator}
    (hf : ∀ e, (f e).id = e.id) : (o.change id f).Sound := by
  have hids := o.ids_change id hf
  exact { h with
    nodup := hids ▸ h.nodup
    control_lt := hids ▸ h.control_lt
    le_last := hids ▸ h.le_last
    mail := hids ▸ h.mail
    target := hids ▸ h.target }

lemma spawn (h : o.Sound) (name : String) (worker flag : Bool) :
    (o.spawn name worker flag).Sound where
  reader_lt := h.reader_lt
  control_le := Nat.le_succ_of_le h.control_le
  absent := h.absent
  wants := h.wants
  nodup := by
    rw [ids_spawn, List.nodup_append]
    refine ⟨h.nodup, by simp, ?_⟩
    rintro a ha b hb rfl
    have hle := h.le_last a ha
    rw [List.mem_singleton.1 hb] at hle
    exact Nat.not_succ_le_self _ hle
  control_lt := by
    intro a ha
    rw [ids_spawn, List.mem_append, List.mem_singleton] at ha
    rcases ha with ha | rfl
    · exact h.control_lt a ha
    · exact Nat.lt_succ_of_le h.control_le
  le_last := by
    intro a ha
    rw [ids_spawn, List.mem_append, List.mem_singleton] at ha
    rcases ha with ha | rfl
    · exact Nat.le_succ_of_le (h.le_last a ha)
    · exact Nat.le_refl _
  unborn := fun a ha => h.unborn a (Nat.lt_of_succ_lt ha)
  mail := by
    intro a ha m hm
    rw [ids_spawn, List.mem_append, List.mem_singleton] at ha
    rcases ha with ha | rfl
    · exact h.mail a ha m hm
    · have hnil : o.queue (o.lastActor + 1) = [] := h.unborn _ (Nat.lt_succ_self _)
      change m ∈ o.queue (o.lastActor + 1) at hm
      rw [hnil] at hm
      exact absurd hm List.not_mem_nil
  target := by
    intro t work ht
    rw [ids_spawn, List.mem_append]
    exact .inl (h.target t work ht)

lemma hosts (h : o.Sound) {id : ActorId} {o' : Traffic} (hhost : Hosts o id o') :
    o'.Sound ∧ id ∈ o'.ids := by
  cases hhost with
  | live hid _ => exact ⟨h, hid⟩
  | first name flag =>
    exact ⟨{ h.spawn name false flag with }, by
      change _ ∈ (o.spawn name false flag).ids
      simp⟩
  | again name flag _ _ =>
    exact ⟨{ h.spawn name false flag with }, by
      change _ ∈ (o.spawn name false flag).ids
      simp⟩

lemma resolves (h : o.Sound) {thread : Thread} {id : ActorId} {o' : Traffic}
    (hres : Resolves o thread id o') : o'.Sound ∧ id ∈ o'.ids := by
  cases hres with
  | any name flag => exact ⟨h.spawn name true flag, by simp⟩
  | repl hhost => exact h.hosts hhost
  | other _ hid => exact ⟨h, hid⟩

lemma started (h : o.Sound) (hc : o.control ≠ .absent) : ¬ o.starting :=
  fun hs => hc (h.absent hs)

lemma goOn (h : o.Sound) (hc : o.control ≠ .absent) (c : ControlPhase)
    (htarget : ∀ t work, c = .entering t work ∨ c = .handing t work → t ∈ o.ids) :
    (o.goControl c).Sound :=
  h.setControl c (fun hs => absurd hs (h.started hc)) htarget

end Sound

section resolving

variable {o o' : Traffic} {id : ActorId} {thread : Thread}

lemma Hosts.wantsOutput_eq (h : Hosts o id o') : o'.wantsOutput = o.wantsOutput := by
  cases h <;> rfl

lemma Hosts.streams_eq (h : Hosts o id o') : o'.streams = o.streams := by
  cases h <;> rfl

lemma Hosts.queue_eq (h : Hosts o id o') : o'.queue = o.queue := by
  cases h <;> rfl

lemma Hosts.controlQueue_eq (h : Hosts o id o') : o'.controlQueue = o.controlQueue := by
  cases h <;> rfl

lemma Hosts.control_eq (h : Hosts o id o') : o'.control = o.control := by
  cases h <;> rfl

lemma Hosts.jobs_eq (h : Hosts o id o') : o'.jobs = o.jobs := by
  cases h <;> rfl

lemma Hosts.outbound_eq (h : Hosts o id o') : o'.outbound = o.outbound := by
  cases h <;> rfl

lemma Hosts.evaluators_eq (h : Hosts o id o') : o'.evaluators = o.evaluators ∨
    ∃ name flag, o'.evaluators = (o.spawn name false flag).evaluators := by
  cases h with
  | live => exact .inl rfl
  | first name flag => exact .inr ⟨name, flag, rfl⟩
  | again name flag => exact .inr ⟨name, flag, rfl⟩

lemma Resolves.queue_eq (h : Resolves o thread id o') : o'.queue = o.queue := by
  cases h with
  | any => rfl
  | repl hhost => exact hhost.queue_eq
  | other => rfl

lemma Resolves.controlQueue_eq (h : Resolves o thread id o') :
    o'.controlQueue = o.controlQueue := by
  cases h with
  | any => rfl
  | repl hhost => exact hhost.controlQueue_eq
  | other => rfl

lemma Resolves.control_eq (h : Resolves o thread id o') : o'.control = o.control := by
  cases h with
  | any => rfl
  | repl hhost => exact hhost.control_eq
  | other => rfl

lemma Resolves.jobs_eq (h : Resolves o thread id o') : o'.jobs = o.jobs := by
  cases h with
  | any => rfl
  | repl hhost => exact hhost.jobs_eq
  | other => rfl

lemma Resolves.outbound_eq (h : Resolves o thread id o') : o'.outbound = o.outbound := by
  cases h with
  | any => rfl
  | repl hhost => exact hhost.outbound_eq
  | other => rfl

lemma Resolves.evaluators_eq (h : Resolves o thread id o') : o'.evaluators = o.evaluators ∨
    ∃ name worker flag, o'.evaluators = (o.spawn name worker flag).evaluators := by
  cases h with
  | any name flag => exact .inr ⟨name, true, flag, rfl⟩
  | repl hhost =>
    rcases hhost.evaluators_eq with heq | ⟨name, flag, heq⟩
    · exact .inl heq
    · exact .inr ⟨name, false, flag, heq⟩
  | other => exact .inl rfl

end resolving

theorem Sound.move {o o' : Traffic} {h : History} (hsound : o.Sound) (hmove : Move o h o') :
    o'.Sound := by
  cases hmove with
  | still b hb =>
    exact { hsound with wants := fun ht => (hb ht).elim hsound.wants id }
  | start hs =>
    exact { hsound with absent := fun hs => hs.elim, target := by simp [goControl] }
  | clear => exact { hsound with }
  | flag id f hf => exact hsound.change id fun e => (hf e).1
  | readerMail queue =>
    have hle : o.readerId ≤ o.lastActor := Nat.le_trans (Nat.le_of_lt hsound.reader_lt)
      hsound.control_le
    refine hsound.setQueue hle fun hr => ?_
    exact absurd (Nat.lt_trans (hsound.control_lt _ hr) hsound.reader_lt) (Nat.lt_irrefl _)
  | host b hhost hb =>
    exact { (hsound.hosts hhost).1 with
      wants := fun ht => hhost.wantsOutput_eq ▸ (hb ht).elim hsound.wants id }
  | tell => exact hsound.tell _
  | pass => exact hsound.setControlQueue _
  | accept _ hc _ hres =>
    obtain ⟨hsound', hid⟩ := (hsound.setControlQueue _).resolves hres
    refine hsound'.goOn (by simp [hres.control_eq, hc]) _ ?_
    rintro t work (ht | ht)
    · cases ht
      exact hid
    · cases ht
  | aim hc => exact (hsound.setControlQueue _).goOn (by simp [hc]) _ (by simp)
  | conclude hc =>
    exact ((hsound.setControlQueue _).setActive _).goOn (by simp [hc]) _ (by simp)
  | pick _ hc => exact (hsound.setControlQueue _).goOn (by simp [hc]) _ (by simp)
  | enter hc =>
    refine (hsound.setActive _).goOn (by simp [hc]) _ ?_
    rintro t work (ht | ht)
    · cases ht
    · cases ht
      exact hsound.target _ _ (.inl hc)
  | @hand target work hc =>
    have htarget := hsound.target target work (.inr hc)
    have hmail : ∀ m ∈ o.queue target ++ [Message.evaluate work], ∃ work, m = .evaluate work := by
      intro m hm
      rcases List.mem_append.1 hm with hm | hm
      · exact hsound.mail target htarget m hm
      · exact ⟨work, List.mem_singleton.1 hm⟩
    exact (hsound.setQueue (hsound.le_last target htarget) fun _ => hmail).goOn
      (by simp [hc]) _ (by simp)
  | @raise target hc =>
    have hraise : (o.change target fun e => { e with raised := true }).Sound :=
      hsound.change target fun _ => rfl
    exact hraise.goOn (by simp [hc]) _ (by simp)
  | turnBack hc =>
    exact hsound.goOn (by rcases hc with hc | hc <;> simp [hc]) _ (by simp)
  | write bytes next hc hnext =>
    exact { hsound.goOn (by simp [hc]) next (by rcases hnext with rfl | rfl <;> simp) with }
  | stop hc =>
    exact hsound.goOn (by rcases hc with hc | ⟨event, hc⟩ <;> simp [hc]) _ (by simp)
  | @take e work rest he hphase hqueue =>
    have hid : e.id ∈ o.ids := List.mem_map_of_mem he
    refine (hsound.setQueue (hsound.le_last _ hid) fun _ m hm => ?_).change _ fun _ => rfl
    exact hsound.mail _ hid m (hqueue ▸ List.mem_cons_of_mem _ hm)
  | begin => exact (hsound.setJobs _).change _ fun _ => rfl
  | judge => exact hsound.change _ fun _ => rfl
  | announce => exact (hsound.tell _).change _ fun _ => rfl
  | hint => exact hsound.change _ fun _ => rfl
  | post => exact (hsound.tell _).change _ fun _ => rfl
  | finish => exact hsound.change _ fun _ => rfl
  | leave => exact hsound.change _ fun _ => rfl
  | die => exact hsound.change _ fun _ => rfl
  | compute => exact (hsound.setJobs _).tell _

lemma Run.same {o o' : Traffic} {h : History} (hrun : Run o h o') :
    o'.host = o.host ∧ o'.wantsOutput = o.wantsOutput := by
  induction hrun with
  | start => exact ⟨rfl, rfl⟩
  | next _ hmove ih => exact ⟨hmove.same.1.trans ih.1, hmove.same.2.1.trans ih.2⟩

theorem Sound.run {o o' : Traffic} {h : History} (hsound : o.Sound) (hrun : Run o h o') :
    o'.Sound := by
  induction hrun with
  | start => exact hsound
  | next _ hmove ih => exact ih.move hmove

end Traffic

end EvalServer
