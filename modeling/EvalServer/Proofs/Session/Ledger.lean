import EvalServer.Proofs.Session.Desk
import EvalServer.Proofs.Session.Traffic

/-!
# The desks of a session

Every move of the traffic is a step at the desk of at most one evaluator and leaves the others as
they are. `Ledger` says that all desks are traced and that nothing is known of other actors; it
holds after every run.
-/

namespace EvalServer

namespace History

/-- Nothing is shown that concerns an evaluator. -/
structure Silent (h : History) (a : ActorId) : Prop where
  handedTo : h.handedTo a = []
  sentBy : h.sentBy a = []
  hintedBy : h.hintedBy a = []

section events

variable (a b : ActorId)

lemma handedTo_handed (work : Work) :
    handedTo [.handed b work] a = if b = a then [work] else [] := by
  by_cases h : b = a <;> simp [handedTo, handed, h]

lemma hintedBy_hinted (ns : String) (missing : List Hint) :
    hintedBy [.hinted b ns missing] a = if b = a then [(ns, missing)] else [] := by
  by_cases h : b = a <;> simp [hintedBy, hinted, h]

lemma sentBy_sent (messages : List Message) :
    sentBy (messages.map (.sent (some b))) a = if b = a then messages else [] := by
  by_cases h : b = a <;> simp [sentBy, sent, List.filterMap_map, h]

lemma not_handed_sent (messages : List Message) :
    handedTo (messages.map (.sent (some b))) a = [] := by
  simp [handedTo, handed, List.filterMap_map]

lemma not_hinted_sent (messages : List Message) :
    hintedBy (messages.map (.sent (some b))) a = [] := by
  simp [hintedBy, hinted, List.filterMap_map]

lemma silent_handed {a b : ActorId} (work : Work) (h : b ≠ a) : Silent [.handed b work] a :=
  ⟨by rw [handedTo_handed, if_neg h], rfl, rfl⟩

lemma silent_hinted {a b : ActorId} (ns : String) (missing : List Hint) (h : b ≠ a) :
    Silent [.hinted b ns missing] a :=
  ⟨rfl, rfl, by rw [hintedBy_hinted, if_neg h]⟩

lemma silent_sent {a b : ActorId} (messages : List Message) (h : b ≠ a) :
    Silent (messages.map (.sent (some b))) a :=
  ⟨not_handed_sent a b messages, by rw [sentBy_sent, if_neg h], not_hinted_sent a b messages⟩

end events

end History

namespace Traffic

/-- The jobs of an actor, by their positions among all jobs. -/
def jobsOf (o : Traffic) (a : ActorId) (i : Nat) : Option Job :=
  (o.jobs[i]?).filter (·.actor == a)

def desk (o : Traffic) (h : History) (e : Evaluator) : Desk where
  phase := e.phase
  worker := e.worker
  killed := e.killed
  queue := o.queue e.id
  job := o.jobsOf e.id
  handed := h.handedTo e.id
  sent := h.sentBy e.id
  hinted := h.hintedBy e.id

section jobs

variable {o : Traffic} {a : ActorId} {i : Nat} {job : Job}

@[simp] lemma jobsOf_setQueue (b : ActorId) (queue : List Message) :
    (o.setQueue b queue).jobsOf a = o.jobsOf a := rfl

@[simp] lemma jobsOf_tell (messages : List Message) : (o.tell messages).jobsOf a = o.jobsOf a := rfl

@[simp] lemma jobsOf_change (b : ActorId) (f : Evaluator → Evaluator) :
    (o.change b f).jobsOf a = o.jobsOf a := rfl

@[simp] lemma jobsOf_setPhase (b : ActorId) (phase : EvaluatorPhase) :
    (o.setPhase b phase).jobsOf a = o.jobsOf a := rfl

lemma jobsOf_eq_some_iff : o.jobsOf a i = some job ↔ o.jobs[i]? = some job ∧ job.actor = a := by
  simp [jobsOf, Option.filter_eq_some_iff]

lemma jobsOf_append (o : Traffic) (job : Job) (a : ActorId) :
    { o with jobs := o.jobs ++ [job] }.jobsOf a =
      if job.actor = a then Function.update (o.jobsOf a) o.jobs.length job else o.jobsOf a := by
  funext i
  have hget : { o with jobs := o.jobs ++ [job] }.jobsOf a i =
      (if i = o.jobs.length then some job else o.jobs[i]?).filter (·.actor == a) := by
    unfold jobsOf
    congr 1
    split
    · next hi => simp [hi]
    · next hi =>
      rw [List.getElem?_append]
      split
      · rfl
      · rw [List.getElem?_eq_none (by simp; omega), List.getElem?_eq_none (by omega)]
  rw [hget]
  by_cases hactor : job.actor = a
  · rw [if_pos hactor, Function.update_apply]
    split
    · simp [hactor]
    · rfl
  · rw [if_neg hactor]
    split
    · next hi => simp [jobsOf, hi, hactor]
    · rfl

lemma jobsOf_set (hjob : o.jobs[i]? = some job) {job' : Job} (hactor : job'.actor = job.actor)
    (a : ActorId) :
    { o with jobs := o.jobs.set i job' }.jobsOf a =
      if job.actor = a then Function.update (o.jobsOf a) i job' else o.jobsOf a := by
  funext k
  have hget : { o with jobs := o.jobs.set i job' }.jobsOf a k =
      (if k = i then some job' else o.jobs[k]?).filter (·.actor == a) := by
    have hlt := (List.getElem?_eq_some_iff.1 hjob).1
    unfold jobsOf
    congr 1
    rw [List.getElem?_set]
    by_cases hk : k = i
    · simp [hk, hlt]
    · simp [hk, Ne.symm hk]
  rw [hget]
  by_cases ha : job.actor = a
  · rw [if_pos ha, Function.update_apply]
    split
    · simp [hactor, ha]
    · rfl
  · rw [if_neg ha]
    split
    · next hk => simp [jobsOf, hk, hjob, Option.filter_some, hactor, ha]
    · rfl

end jobs

/-- How the desks change with a move that shows `h'`; of other actors it shows nothing. -/
structure Advance (o : Traffic) (h : History) (o' : Traffic) (h' : History) : Prop where
  desks : ∀ e' ∈ o'.evaluators,
    (∃ e ∈ o.evaluators, e.id = e'.id ∧
      (o.desk h e).Step o.host o.wantsOutput e.id (o'.desk (h ++ h') e')) ∨
    e'.id ∉ o.ids ∧ e'.phase = .receiving ∧ o'.queue e'.id = [] ∧
      o'.jobsOf e'.id = o.jobsOf e'.id ∧ h'.Silent e'.id
  strangers : ∀ b, b ∉ o'.ids → b ∉ o.ids ∧ h'.Silent b ∧ o'.jobsOf b = o.jobsOf b

variable {o o' : Traffic} {h h' : History}

lemma desk_kept {e e' : Evaluator} (hid : e'.id = e.id) (hphase : e'.phase = e.phase)
    (hworker : e'.worker = e.worker) (hkilled : e.killed = true → e'.killed = true)
    (hqueue : o'.queue e.id = o.queue e.id) (hjobs : o'.jobsOf e.id = o.jobsOf e.id)
    (hsilent : h'.Silent e.id) :
    (o.desk h e).Step o.host o.wantsOutput e.id (o'.desk (h ++ h') e') := by
  have hdesk : o'.desk (h ++ h') e' = { o.desk h e with killed := e'.killed } := by
    simp [desk, hid, hphase, hworker, hqueue, hjobs, hsilent.handedTo, hsilent.sentBy,
      hsilent.hintedBy]
  rw [hdesk]
  exact .kill _ hkilled

lemma step_of_parts {e e' : Evaluator} {queue sent : List Message} {job : Nat → Option Job}
    {handed : List Work} {hinted : List (String × List Hint)} (hid : e'.id = e.id)
    (hqueue : o'.queue e.id = queue) (hjob : o'.jobsOf e.id = job)
    (hhanded : h'.handedTo e.id = handed) (hsent : h'.sentBy e.id = sent)
    (hhinted : h'.hintedBy e.id = hinted)
    (hstep : (o.desk h e).Step o.host o.wantsOutput e.id ⟨e'.phase, e'.worker, e'.killed, queue,
      job, h.handedTo e.id ++ handed, h.sentBy e.id ++ sent, h.hintedBy e.id ++ hinted⟩) :
    (o.desk h e).Step o.host o.wantsOutput e.id (o'.desk (h ++ h') e') := by
  simpa [desk, hid, hqueue, hjob, hhanded, hsent, hhinted] using hstep

lemma advance_at {a : ActorId} {f : Evaluator → Evaluator} (ha : a ∈ o.ids)
    (hevaluators : o'.evaluators = (o.change a f).evaluators) (hid : ∀ e, (f e).id = e.id)
    (hown : ∀ e ∈ o.evaluators, e.id = a →
      (o.desk h e).Step o.host o.wantsOutput e.id (o'.desk (h ++ h') (f e)))
    (hqueue : ∀ b ∈ o.ids, b ≠ a → o'.queue b = o.queue b)
    (hjobs : ∀ b, b ≠ a → o'.jobsOf b = o.jobsOf b) (hsilent : ∀ b, b ≠ a → h'.Silent b) :
    Advance o h o' h' where
  desks := by
    intro e' he'
    rw [hevaluators, change, List.mem_map] at he'
    obtain ⟨e, he, rfl⟩ := he'
    refine .inl ⟨e, he, ?_, ?_⟩
    · split
      · exact (hid e).symm
      · rfl
    · by_cases hea : e.id = a
      · rw [if_pos hea]
        exact hown e he hea
      · rw [if_neg hea]
        exact desk_kept rfl rfl rfl id (hqueue e.id (List.mem_map_of_mem he) hea) (hjobs e.id hea)
          (hsilent e.id hea)
  strangers := by
    intro b hb
    have hb' : b ∉ o.ids := by
      rwa [ids, hevaluators, ← ids, ids_change o a hid] at hb
    have hne : b ≠ a := fun heq => hb' (heq ▸ ha)
    exact ⟨hb', hsilent b hne, hjobs b hne⟩

lemma advance_same (hevaluators : o'.evaluators = o.evaluators)
    (hqueue : ∀ b ∈ o.ids, o'.queue b = o.queue b) (hjobs : o'.jobs = o.jobs)
    (hsilent : ∀ b, h'.Silent b) : Advance o h o' h' := by
  have hjobs' : ∀ b, o'.jobsOf b = o.jobsOf b := by
    intro b
    unfold jobsOf
    rw [hjobs]
  constructor
  · intro e he
    rw [hevaluators] at he
    exact .inl ⟨e, he, rfl, desk_kept rfl rfl rfl id (hqueue e.id (List.mem_map_of_mem he))
      (hjobs' e.id) (hsilent e.id)⟩
  · intro b hb
    rw [ids, hevaluators] at hb
    exact ⟨hb, hsilent b, hjobs' b⟩

lemma advance_aside (hsound : o.Sound) (hevaluators : o'.evaluators = o.evaluators)
    (hqueue : ∀ b, b ≠ o.controlId → o'.queue b = o.queue b) (hjobs : o'.jobs = o.jobs)
    (hsilent : ∀ b, h'.Silent b) : Advance o h o' h' :=
  advance_same hevaluators (fun b hb => hqueue b (Nat.ne_of_gt (hsound.control_lt b hb))) hjobs
    hsilent

/-- An evaluator starts, of which nothing is known yet. -/
lemma advance_spawn (hsound : o.Sound) {name : String} {worker flag : Bool}
    (hevaluators : o'.evaluators = (o.spawn name worker flag).evaluators)
    (hqueue : ∀ b, b ≠ o.controlId → o'.queue b = o.queue b) (hjobs : o'.jobs = o.jobs)
    (hsilent : ∀ b, h'.Silent b) : Advance o h o' h' := by
  have hsame : Advance o h { o' with evaluators := o.evaluators } h' :=
    advance_aside hsound rfl hqueue hjobs hsilent
  constructor
  · intro e' he'
    rw [hevaluators, spawn, List.mem_append, List.mem_singleton] at he'
    rcases he' with he' | rfl
    · exact hsame.desks e' he'
    · have hnew : o.lastActor + 1 ∉ o.ids := fun hid =>
        Nat.not_succ_le_self _ (hsound.le_last _ hid)
      have hne : o.lastActor + 1 ≠ o.controlId :=
        Nat.ne_of_gt (Nat.lt_succ_of_le hsound.control_le)
      refine .inr ⟨hnew, rfl, ?_, ?_, hsilent _⟩
      · exact (hqueue _ hne).trans (hsound.unborn _ (Nat.lt_succ_self _))
      · unfold jobsOf
        rw [hjobs]
  · intro b hb
    rw [ids, hevaluators, ← ids, ids_spawn] at hb
    exact hsame.strangers b fun hold => hb (List.mem_append_left _ hold)

/-- Only the desk of one evaluator changes, and the evaluator only in its phase and flags. -/
lemma advance_own (hsound : o.Sound) {e : Evaluator} (he : e ∈ o.evaluators)
    {f : Evaluator → Evaluator} (hid : ∀ e, (f e).id = e.id)
    (hevaluators : o'.evaluators = (o.change e.id f).evaluators)
    (hown : (o.desk h e).Step o.host o.wantsOutput e.id (o'.desk (h ++ h') (f e)))
    (hqueue : ∀ b ∈ o.ids, b ≠ e.id → o'.queue b = o.queue b)
    (hjobs : ∀ b, b ≠ e.id → o'.jobsOf b = o.jobsOf b) (hsilent : ∀ b, b ≠ e.id → h'.Silent b) :
    Advance o h o' h' := by
  refine advance_at (List.mem_map_of_mem he) hevaluators hid ?_ hqueue hjobs hsilent
  intro e' he' heq
  rw [hsound.eq_of_id he' he heq]
  exact hown

lemma queue_told (messages : List Message) : ∀ b, b ≠ o.controlId →
    (o.tell messages).queue b = o.queue b := by
  intro b hb
  rw [queue_tell, if_neg hb]

lemma queue_taken (rest : List Message) : ∀ b, b ≠ o.controlId →
    (o.setQueue o.controlId rest).queue b = o.queue b := by
  intro b hb
  rw [queue_setQueue, if_neg hb]

/-! ## Moves that concern evaluators -/

lemma advance_flag {a : ActorId} {f : Evaluator → Evaluator} (hf : ∀ e, (f e).id = e.id ∧
      (f e).worker = e.worker ∧ (f e).phase = e.phase ∧ (e.killed = true → (f e).killed = true))
    (hevaluators : o'.evaluators = (o.change a f).evaluators) (hqueue : o'.queue = o.queue)
    (hjobs : o'.jobs = o.jobs) (hsilent : ∀ b, h'.Silent b) : Advance o h o' h' := by
  have hjobs' : ∀ b, o'.jobsOf b = o.jobsOf b := by
    intro b
    unfold jobsOf
    rw [hjobs]
  by_cases ha : a ∈ o.ids
  · refine advance_at ha hevaluators (fun e => (hf e).1) ?_ (fun b _ _ => congrFun hqueue b)
      (fun b _ => hjobs' b) fun b _ => hsilent b
    intro e _ _
    exact desk_kept (hf e).1 (hf e).2.2.1 (hf e).2.1 (hf e).2.2.2 (congrFun hqueue e.id)
      (hjobs' e.id) (hsilent e.id)
  · exact advance_same (hevaluators.trans (evaluators_change_of_notMem f ha))
      (fun b _ => congrFun hqueue b) hjobs hsilent

lemma advance_hand {target : ActorId} (htarget : target ∈ o.ids) (work : Work)
    (control : ControlPhase) :
    Advance o h ((o.setQueue target (o.queue target ++ [.evaluate work])).goControl control)
      [.handed target work] := by
  refine advance_at (f := id) htarget (by simp) (fun _ => rfl) ?_ ?_ (fun _ _ => rfl)
    fun b hb => History.silent_handed work hb.symm
  · rintro e he rfl
    have hstep : (o.desk h e).Step o.host o.wantsOutput e.id _ := .get work
    have hhanded := History.handedTo_handed e.id e.id work
    rw [if_pos rfl] at hhanded
    refine step_of_parts rfl ((o.queue_setQueue e.id _ e.id).trans (if_pos rfl))
      (Eq.refl (o.jobsOf e.id)) hhanded (Eq.refl []) (Eq.refl []) ?_
    simpa [desk] using hstep
  · intro b _ hb
    exact (o.queue_setQueue target _ b).trans (if_neg hb)

section own

variable (hsound : o.Sound) {e : Evaluator} (he : e ∈ o.evaluators)

include hsound he

/-- An evaluator goes on by itself. -/
lemma advance_phase {phase : EvaluatorPhase}
    (hstep : (o.desk h e).Step o.host o.wantsOutput e.id { o.desk h e with phase }) :
    Advance o h (o.setPhase e.id phase) [] := by
  refine advance_own (f := fun e => { e with phase }) hsound he (fun _ => rfl) rfl ?_
    (fun _ _ _ => rfl) (fun _ _ => rfl) fun _ _ => ⟨rfl, rfl, rfl⟩
  rw [List.append_nil]
  exact hstep

lemma advance_take {work : Work} {rest : List Message} (hphase : e.phase = .receiving)
    (hqueue : o.queue e.id = .evaluate work :: rest) :
    Advance o h ((o.setQueue e.id rest).setPhase e.id (.taken work)) [] := by
  refine advance_own (f := fun e => { e with phase := .taken work }) hsound he (fun _ => rfl) rfl
    ?_ ?_ (fun _ _ => rfl) fun _ _ => ⟨rfl, rfl, rfl⟩
  · have hstep : (o.desk h e).Step o.host o.wantsOutput e.id _ := .take hphase hqueue
    simpa [desk] using hstep
  · intro b _ hb
    exact (o.queue_setQueue e.id rest b).trans (if_neg hb)

lemma advance_begin {work : Work} (hphase : e.phase = .taken work) :
    Advance o h ({ o with jobs := o.jobs ++ [work.job o.host e.id] }.change e.id fun e =>
      { e with raised := false, phase := .evaluating work o.jobs.length }) [] := by
  have hadd : ∀ b, { o with jobs := o.jobs ++ [work.job o.host e.id] }.jobsOf b =
      if e.id = b then Function.update (o.jobsOf b) o.jobs.length (work.job o.host e.id)
      else o.jobsOf b :=
    o.jobsOf_append (work.job o.host e.id)
  refine advance_own
    (f := fun e => { e with raised := false, phase := .evaluating work o.jobs.length })
    hsound he (fun _ => rfl) rfl ?_ (fun _ _ _ => rfl) ?_ fun _ _ => ⟨rfl, rfl, rfl⟩
  · have hfree : (o.desk h e).job o.jobs.length = none := by simp [desk, jobsOf]
    have hstep : (o.desk h e).Step o.host o.wantsOutput e.id _ := .begin hphase hfree
    simpa [desk, hadd] using hstep
  · intro b hb
    exact (hadd b).trans (if_neg (Ne.symm hb))

lemma advance_judge {work : Work} {index : Nat} {job : Job} {result : Except EvalError Sexp}
    (hphase : e.phase = .evaluating work index) (hjob : o.jobs[index]? = some job)
    (hend : job.phase = .ended result) :
    Advance o h (o.setPhase e.id (.ofResult e.id work job.ns result)) [] := by
  refine advance_phase hsound he (.judge hphase fun job' hjob' => ?_)
  have heq := (jobsOf_eq_some_iff.1 hjob').1
  rw [hjob, Option.some.injEq] at heq
  subst heq
  exact ⟨hend, rfl⟩

/-- An evaluator goes on and tells control something. -/
lemma advance_say {phase : EvaluatorPhase} (messages : List Message)
    (hstep : (o.desk h e).Step o.host o.wantsOutput e.id
      { o.desk h e with phase, sent := (o.desk h e).sent ++ messages }) :
    Advance o h ((o.tell messages).setPhase e.id phase)
      (messages.map (.sent (some e.id))) := by
  have hne := Nat.ne_of_gt (hsound.control_lt e.id (List.mem_map_of_mem he))
  refine advance_own (f := fun e => { e with phase }) hsound he (fun _ => rfl) rfl ?_ ?_
    (fun _ _ => rfl) fun b hb => History.silent_sent _ hb.symm
  · have hsent := History.sentBy_sent e.id e.id messages
    rw [if_pos rfl] at hsent
    refine step_of_parts rfl (queue_told _ e.id hne) rfl (History.not_handed_sent _ _ _) hsent
      (History.not_hinted_sent _ _ _) ?_
    simpa [desk] using hstep
  · intro b hb _
    exact queue_told _ b (Nat.ne_of_gt (hsound.control_lt b hb))

lemma advance_hint {work : Work} {value : Sexp} {ns : String} (missing : List Hint)
    (hphase : e.phase = .hinting work value ns) :
    Advance o h (o.setPhase e.id (.posting (work.report e.id value missing)))
      [.hinted e.id ns missing] := by
  refine advance_own (f := fun e' => { e' with phase := .posting (work.report e.id value missing) })
    hsound he (fun _ => rfl) rfl ?_ (fun _ _ _ => rfl) (fun _ _ => rfl)
    fun b hb => History.silent_hinted _ _ hb.symm
  have hstep : (o.desk h e).Step o.host o.wantsOutput e.id _ := .hint missing hphase
  have hhinted := History.hintedBy_hinted e.id e.id ns missing
  rw [if_pos rfl] at hhinted
  refine step_of_parts rfl (Eq.refl (o.queue e.id)) (Eq.refl (o.jobsOf e.id)) (Eq.refl [])
    (Eq.refl []) hhinted ?_
  simpa [desk] using hstep

end own

/-- A job goes on, and tells control what its evaluator has to say by it. -/
lemma advance_compute (hsound : o.Sound) {index : Nat} {job job' : Job} {messages : List Message}
    (hjob : o.jobs[index]? = some job) (hknown : job.actor ∈ o.ids)
    (hended : job.isEnded = false) (hactor : job'.actor = job.actor)
    (hcomputes : ∀ work said, job.Computes o.host o.wantsOutput work said →
      job'.Computes o.host o.wantsOutput work (said ++ messages)) :
    Advance o h ({ o with jobs := o.jobs.set index job' }.tell messages)
      (messages.map (.sent (some job.actor))) := by
  have hset := jobsOf_set hjob hactor
  refine advance_at (f := id) hknown (by simp) (fun _ => rfl) ?_ ?_ ?_
    fun b hb => History.silent_sent _ hb.symm
  · intro e he hid
    have hne := Nat.ne_of_gt (hsound.control_lt e.id (List.mem_map_of_mem he))
    have hstep : (o.desk h e).Step o.host o.wantsOutput e.id _ :=
      .compute (jobsOf_eq_some_iff.2 ⟨hjob, hid.symm⟩) hended (hactor.trans hid.symm) hcomputes
    have hsent := History.sentBy_sent e.id job.actor messages
    rw [if_pos hid.symm] at hsent
    refine step_of_parts rfl (queue_told _ e.id hne) ((hset e.id).trans (if_pos hid.symm))
      (History.not_handed_sent _ _ _) hsent (History.not_hinted_sent _ _ _) ?_
    simpa [desk] using hstep
  · intro b hb _
    exact queue_told _ b (Nat.ne_of_gt (hsound.control_lt b hb))
  · intro b hb
    exact (hset b).trans (if_neg hb.symm)

theorem Move.advance (hsound : o.Sound)
    (hjobs : ∀ (i : Nat) (job : Job), o.jobs[i]? = some job → job.actor ∈ o.ids)
    (hmove : Move o h' o') : Advance o h o' h' := by
  have silent : ∀ b, History.Silent [] b := fun b => ⟨rfl, rfl, rfl⟩
  cases hmove with
  -- no evaluator is concerned
  | still | start | clear | enter | turnBack | stop =>
    exact advance_aside hsound rfl (fun _ _ => rfl) rfl silent
  | write => exact advance_aside hsound rfl (fun _ _ => rfl) rfl fun b => ⟨rfl, rfl, rfl⟩
  | readerMail queue =>
    refine advance_same rfl (fun b hb => ?_) rfl silent
    have hlt := Nat.lt_trans hsound.reader_lt (hsound.control_lt b hb)
    rw [queue_setQueue, if_neg (Nat.ne_of_gt hlt)]
  | tell => exact advance_aside hsound rfl (queue_told _) rfl fun b => ⟨rfl, rfl, rfl⟩
  | pass | aim | conclude | pick =>
    exact advance_aside hsound rfl (queue_taken _) rfl fun b => ⟨rfl, rfl, rfl⟩
  -- an evaluator may start
  | @host _ o₁ b hhost hb =>
    have hqueue : ∀ b, b ≠ o.controlId → o₁.queue b = o.queue b := fun b _ =>
      congrFun hhost.queue_eq b
    rcases hhost.evaluators_eq with heq | ⟨name, flag, heq⟩
    · exact advance_aside hsound heq hqueue hhost.jobs_eq silent
    · exact advance_spawn hsound heq hqueue hhost.jobs_eq silent
  | @accept work thread rest target o₁ _ _ hres =>
    have hqueue : ∀ b, b ≠ o.controlId → o₁.queue b = o.queue b := fun b hb =>
      (congrFun hres.queue_eq b).trans (queue_taken rest b hb)
    have quiet : ∀ b, History.Silent [.taken (.client (.evaluate work.form work.package thread
        work.id)), .accepted thread target work] b := fun b => ⟨rfl, rfl, rfl⟩
    rcases hres.evaluators_eq with heq | ⟨name, worker, flag, heq⟩
    · exact advance_aside hsound heq hqueue hres.jobs_eq quiet
    · exact advance_spawn hsound heq hqueue hres.jobs_eq quiet
  -- an evaluator is concerned, or goes on
  | flag a f hf =>
    exact advance_flag (fun e => ⟨(hf e).1, (hf e).2.1, (hf e).2.2.1, (hf e).2.2.2.1⟩) rfl rfl rfl
      silent
  | @raise target =>
    exact advance_flag (a := target) (f := fun e => { e with raised := true })
      (fun e => ⟨rfl, rfl, rfl, id⟩) rfl rfl rfl silent
  | hand hc => exact advance_hand (hsound.target _ _ (.inr hc)) _ _
  | take he hphase hqueue => exact advance_take hsound he hphase hqueue
  | begin he hphase => exact advance_begin hsound he hphase
  | judge he hphase hjob hend => exact advance_judge hsound he hphase hjob hend
  | announce he hphase => exact advance_say hsound he _ (.announce hphase)
  | hint missing he hphase => exact advance_hint hsound he missing hphase
  | post he hphase => exact advance_say hsound he [_] (.post hphase)
  | finish he hphase => exact advance_phase hsound he (.finish hphase)
  | leave he hphase => exact advance_phase hsound he (.leave hphase)
  | die he hphase hkilled => exact advance_phase hsound he (.die hphase hkilled)
  | compute hjob hended hactor _ hcomputes =>
    exact advance_compute hsound hjob (hjobs _ _ hjob) hended hactor hcomputes

/-- All desks are traced, and nothing has been seen of actors that are no evaluators. -/
structure Ledger (o : Traffic) (h : History) : Prop where
  desks : ∀ e ∈ o.evaluators, ∃ p, (o.desk h e).Traced o.host o.wantsOutput e.id p
  strangers : ∀ b, b ∉ o.ids → h.Silent b ∧ ∀ i, o.jobsOf b i = none

namespace Ledger

lemma start (hblank : o.Blank) : o.Ledger [] where
  desks := by simp [hblank.evaluators_eq]
  strangers := fun b _ => ⟨⟨rfl, rfl, rfl⟩, by simp [jobsOf, hblank.jobs_eq]⟩

lemma mem_ids (hledger : o.Ledger h) {i : Nat} {job : Job} (hjob : o.jobs[i]? = some job) :
    job.actor ∈ o.ids := by
  by_contra hstranger
  have hnone := (hledger.strangers job.actor hstranger).2 i
  rw [jobsOf_eq_some_iff.2 ⟨hjob, rfl⟩] at hnone
  cases hnone

lemma step (hledger : o.Ledger h) (hsound : o.Sound) (hmove : Move o h' o') :
    o'.Ledger (h ++ h') := by
  have hadvance : Advance o h o' h' := hmove.advance hsound fun _ _ => hledger.mem_ids
  obtain ⟨hhost, hwants, -⟩ := hmove.same
  constructor
  · intro e' he'
    rw [hhost, hwants]
    rcases hadvance.desks e' he' with ⟨e, he, hid, hstep⟩ | ⟨hnew, hphase, hqueue, hjobs, hsilent⟩
    · obtain ⟨p, hp⟩ := hledger.desks e he
      exact hid ▸ hp.step hstep
    · obtain ⟨hquiet, hnone⟩ := hledger.strangers e'.id hnew
      have hidle : (o'.desk (h ++ h') e').Idle := by
        intro i job hjob
        change o'.jobsOf e'.id i = some job at hjob
        rw [hjobs, hnone i] at hjob
        cases hjob
      refine ⟨⟨[], none, [], []⟩, ?_, ?_, ?_, by simp, ?_⟩
      · simp [desk, hqueue, hquiet.handedTo, hsilent.handedTo]
      · simp [desk, hquiet.sentBy, hsilent.sentBy]
      · simp [desk, hquiet.hintedBy, hsilent.hintedBy]
      · change Desk.Stage _ _ _ _ e'.phase _
        rw [hphase]
        exact .receiving hidle fun _ => rfl
  · intro b hb
    obtain ⟨hstranger, hsilent, hjobs⟩ := hadvance.strangers b hb
    obtain ⟨hquiet, hnone⟩ := hledger.strangers b hstranger
    refine ⟨⟨?_, ?_, ?_⟩, fun i => hjobs ▸ hnone i⟩
    · rw [History.handedTo_append, hquiet.handedTo, hsilent.handedTo, List.append_nil]
    · rw [History.sentBy_append, hquiet.sentBy, hsilent.sentBy, List.append_nil]
    · rw [History.hintedBy_append, hquiet.hintedBy, hsilent.hintedBy, List.append_nil]

theorem run {o₀ : Traffic} (hblank : o₀.Blank) (hrun : Run o₀ h o) : o.Ledger h := by
  induction hrun with
  | start => exact start hblank
  | next hrun hmove ih => exact ih.step (hblank.toSound.run hrun) hmove

theorem exists_evaluations (hledger : o.Ledger h) (a : ActorId) : ∃ vs : List Evaluation,
    vs.map Evaluation.work = h.handedTo a ∧ (∀ v ∈ vs, v.Genuine o.host o.wantsOutput a) ∧
      h.sentBy a <+: vs.flatMap (·.block a) ∧
      h.hintedBy a <+: vs.filterMap Evaluation.hints? := by
  by_cases ha : a ∈ o.ids
  · obtain ⟨e, he, rfl⟩ := List.mem_map.1 ha
    obtain ⟨p, hp⟩ := hledger.desks e he
    exact hp.exists_evaluations
  · obtain ⟨hquiet, -⟩ := hledger.strangers a ha
    refine ⟨[], hquiet.handedTo.symm, by simp, ?_, ?_⟩
    · rw [hquiet.sentBy]
      exact List.nil_prefix
    · rw [hquiet.hintedBy]
      exact List.nil_prefix

end Ledger

end Traffic

end EvalServer
