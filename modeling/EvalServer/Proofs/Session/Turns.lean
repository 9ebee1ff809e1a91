import EvalServer.Proofs.Session.Moves

/-!
# Evaluators, jobs and whole runs

The moves that evaluators and their jobs make, and with them that a run of a session is a run of
its traffic.
-/

namespace EvalServer

open Traffic

namespace World

section evaluators

variable {w w' : World} {s : Option ActorId} {e : Evaluator}

lemma ne_controlId (hsound : w.traffic.Sound) (he : e ∈ w.traffic.evaluators) :
    e.id ≠ w.traffic.controlId :=
  Nat.ne_of_gt (hsound.control_lt e.id (List.mem_map_of_mem he))

lemma traffic_announce (w : World) (work : Work) (ns : String) :
    (if ns = work.package then w else w.emit (.newPackage ns ns)).traffic =
      w.traffic.tell (Evaluation.announcement work ns) := by
  unfold Evaluation.announcement
  split
  · simp [Traffic.tell, Traffic.setQueue]
  · exact w.traffic_tell _

lemma hintEvents_eq_nil (hfind : w.session.evaluator? e.id = some e)
    (hne : ∀ work value ns, e.phase ≠ .hinting work value ns) : w.hintEvents e.id = [] := by
  unfold hintEvents
  rw [hfind, Option.map_some]
  split
  · next heq => exact absurd (Option.some.inj heq) (hne _ _ _)
  · rfl

lemma silent_move {o : Traffic} {h : History} (hfind : w.session.evaluator? e.id = some e)
    (hne : ∀ work value ns, e.phase ≠ .hinting work value ns) (ho : w'.traffic = o)
    (hmove : Move w.traffic h o) (hmail : mailEvents s w.controlQueue o.controlQueue = h) :
    Move w.traffic (mailEvents s w.controlQueue w'.controlQueue ++ w.hintEvents e.id)
      w'.traffic := by
  exact move_and ho (by rwa [List.append_nil]) hmail (hintEvents_eq_nil hfind hne)

lemma evaluator_move (hsound : w.traffic.Sound) {id : ActorId}
    (h : w.evaluatorStep? id = some w') :
    Move w.traffic (mailEvents (some id) w.controlQueue w'.controlQueue ++ w.hintEvents id)
      w'.traffic := by
  simp only [evaluatorStep?, Option.bind_eq_bind, Option.bind_eq_some_iff] at h
  obtain ⟨e, hfind, h⟩ := h
  obtain ⟨he, rfl⟩ := mem_of_evaluator? hfind
  cases hphase : e.phase with
  | receiving =>
    simp only [hphase, evaluatorPhase?, Option.bind_eq_bind, Option.bind_eq_some_iff,
      Option.pure_def, Option.some.injEq, Prod.exists] at h
    obtain ⟨m, w₁, hreceive, rfl⟩ := h
    obtain ⟨rest, hqueue, htraffic, -⟩ := receive?_spec hreceive
    obtain ⟨work, rfl⟩ := hsound.mail e.id (List.mem_map_of_mem he) m (by simp [hqueue])
    exact silent_move hfind (by simp [hphase])
      (congrArg (·.setPhase e.id (.taken work)) htraffic) (.take he hphase hqueue)
      (mail_other _ rest (ne_controlId hsound he))
  | taken work =>
    simp only [hphase, evaluatorPhase?, Option.some.injEq] at h
    subst h
    exact silent_move hfind (by simp [hphase]) rfl (.begin he hphase) (mailEvents_self _ _)
  | evaluating work index =>
    simp only [hphase, evaluatorPhase?, Option.bind_eq_bind, Option.bind_eq_some_iff,
      Option.pure_def] at h
    obtain ⟨job, hjob, h⟩ := h
    cases hend : job.phase with
    | ended result =>
      simp only [hend, Option.some.injEq] at h
      subst h
      exact silent_move hfind (by simp [hphase]) rfl (.judge he hphase hjob hend)
        (mailEvents_self _ _)
    | _ => simp [hend] at h
  | announcing work value ns =>
    simp only [hphase, evaluatorPhase?, Option.some.injEq] at h
    subst h
    exact silent_move hfind (by simp [hphase])
      (congrArg (·.setPhase e.id (.hinting work value ns)) (w.traffic_announce work ns))
      (.announce he hphase) (w.mail_tell (some e.id) (Evaluation.announcement work ns))
  | hinting work value ns =>
    simp only [hphase, evaluatorPhase?, Option.some.injEq] at h
    subst h
    exact move_and rfl (.hint (w.session.hints.update (indentationHints ns)).1 he hphase)
      (h := []) (mailEvents_self _ _) (by simp [hintEvents, hfind, hphase])
  | posting messages =>
    cases messages with
    | nil =>
      simp only [hphase, evaluatorPhase?, Option.some.injEq] at h
      subst h
      exact silent_move hfind (by simp [hphase]) rfl (.finish he hphase) (mailEvents_self _ _)
    | cons m rest =>
      simp only [hphase, evaluatorPhase?, Option.some.injEq] at h
      subst h
      exact silent_move hfind (by simp [hphase])
        (congrArg (·.setPhase e.id (.posting rest)) (w.traffic_tell m)) (.post he hphase)
        (w.mail_tell (some e.id) [m])
  | leaving =>
    simp only [hphase, evaluatorPhase?, Option.some.injEq] at h
    subst h
    exact silent_move hfind (by simp [hphase]) rfl (.leave he hphase) (mailEvents_self _ _)
  | ended => simp [hphase, evaluatorPhase?] at h

lemma evaluatorEnd_move {id : ActorId} (h : w.evaluatorEnd? id = some w') :
    Move w.traffic (mailEvents s w.controlQueue w'.controlQueue) w'.traffic := by
  simp only [evaluatorEnd?, Option.bind_eq_bind, Option.bind_eq_some_iff, Option.pure_def] at h
  obtain ⟨e, hfind, h⟩ := h
  obtain ⟨he, rfl⟩ := mem_of_evaluator? hfind
  split at h
  · next hphase =>
    split at h
    · next hkilled =>
      cases h
      exact move_of rfl (.die he (.inl hphase) hkilled) (mailEvents_self _ _)
    · cases h
  · next work index hphase =>
    split at h
    · next hkilled =>
      cases h
      exact move_of rfl (.die he (.inr ⟨work, index, hphase⟩) hkilled) (mailEvents_self _ _)
    · cases h
  · cases h

end evaluators

section jobs

variable {w w' : World} {s : Option ActorId} {index : Nat} {job : Job}

lemma modify_eq_set {jobs : List Job} (f : Job → Job) (h : jobs[index]? = some job) :
    jobs.modify index f = jobs.set index (f job) := by
  refine List.ext_getElem? fun i => ?_
  rw [List.getElem?_modify, List.getElem?_set]
  split
  · next hi =>
    subst hi
    obtain ⟨hlt, hget⟩ := List.getElem?_eq_some_iff.1 h
    simp [hlt, hget]
  · simp

/-- What a job has computed once its request has been answered. -/
lemma computes_answer {host : Host} {streams : Bool} {r : Request} {next : r.Reply → Course}
    {reply : r.Reply} {ns : String} {shown : List Message}
    (hphase : job.phase = .computing (.step r next))
    (hreply : r.Answered job.actor streams job.ns reply ns shown) (work : Work)
    (said : List Message) (h : job.Computes host streams work said) :
    Job.Computes host streams work (said ++ shown)
      { job with ns, phase := .computing (next reply) } := by
  unfold Job.Computes at h ⊢
  rw [hphase] at h
  exact h.answer hreply

/-- A job goes on and has sent these messages, besides what it has done to shared data. -/
lemma changeJob_move {w₁ : World} {f : Job → Job} {messages : List Message}
    (hjob : w.session.jobs[index]? = some job) (hended : job.isEnded = false)
    (htell : w₁.traffic = w.traffic.tell messages) (hactor : (f job).actor = job.actor)
    (hflag : (f job).flag = job.flag)
    (hcomputes : ∀ work said, job.Computes w.session.host w.session.wantsOutput work said →
      (f job).Computes w.session.host w.session.wantsOutput work (said ++ messages)) :
    Move w.traffic (mailEvents (some job.actor) w.controlQueue
        (w₁.change (·.changeJob index f)).controlQueue)
      (w₁.change (·.changeJob index f)).traffic := by
  have hjobs : w₁.session.jobs = w.session.jobs := congrArg Traffic.jobs htell
  have ho : (w₁.change (·.changeJob index f)).traffic =
      { w.traffic with jobs := w.session.jobs.set index (f job) }.tell messages := by
    have hset : (w₁.change (·.changeJob index f)).traffic =
        { w₁.traffic with jobs := w₁.session.jobs.modify index f } := rfl
    rw [hset, htell, hjobs, modify_eq_set f hjob]
    rfl
  exact move_of ho (.compute hjob hended hactor hflag hcomputes)
    (w.mail_tell (some job.actor) messages)

lemma setJob_move {w₁ : World} {phase : JobPhase} {messages : List Message}
    (hjob : w.session.jobs[index]? = some job) (hended : job.isEnded = false)
    (htell : w₁.traffic = w.traffic.tell messages)
    (hcomputes : ∀ work said, job.Computes w.session.host w.session.wantsOutput work said →
      Job.Computes w.session.host w.session.wantsOutput work (said ++ messages)
        { job with phase }) :
    Move w.traffic (mailEvents (some job.actor) w.controlQueue (w₁.setJob index phase).controlQueue)
      (w₁.setJob index phase).traffic :=
  changeJob_move (f := fun job => { job with phase }) hjob hended htell rfl rfl hcomputes

lemma serve_job_move (hsound : w.traffic.Sound) (hjob : w.session.jobs[index]? = some job)
    {r : Request} {next : r.Reply → Course} (hphase : job.phase = .computing (.step r next)) :
    Move w.traffic (mailEvents (some job.actor) w.controlQueue
      (w.serve index job r next).controlQueue) (w.serve index job r next).traffic := by
  have hended : job.isEnded = false := by simp [Job.isEnded, hphase]
  have quiet : w.traffic = w.traffic.tell [] := (tell_nil _).symm
  cases r with
  | interrupted => exact setJob_move hjob hended quiet (computes_answer hphase ⟨rfl, rfl⟩)
  | bindings => exact setJob_move hjob hended quiet (computes_answer hphase ⟨rfl, rfl⟩)
  | define => exact setJob_move hjob hended quiet (computes_answer hphase ⟨rfl, rfl⟩)
  | openNamespace => exact setJob_move hjob hended quiet (computes_answer hphase ⟨rfl, rfl⟩)
  | currentNamespace =>
    exact setJob_move hjob hended quiet (computes_answer hphase ⟨rfl, rfl, rfl⟩)
  | enterNamespace dest =>
    exact changeJob_move hjob hended quiet rfl rfl (computes_answer hphase ⟨rfl, rfl⟩)
  | readText => exact setJob_move hjob hended quiet (computes_answer hphase ⟨rfl, rfl⟩)
  | isFile => exact setJob_move hjob hended quiet (computes_answer hphase ⟨rfl, rfl⟩)
  | writeOutput text =>
    simp only [serve, Session.writeDedicated]
    by_cases hstream : (w.session.output.installed && w.session.output.phase ≠ .ended) = true
    · have hwants : w.session.wantsOutput = true :=
        hsound.wants (.inr (.inr (Bool.and_eq_true_iff.1 hstream).1))
      simp only [hstream, if_true]
      exact setJob_move hjob hended quiet (computes_answer hphase ⟨rfl, .inr ⟨hwants, rfl⟩⟩)
    · simp only [hstream]
      refine setJob_move hjob hended quiet fun work said h => ?_
      have hreply : (Request.writeOutput text).Answered job.actor w.session.wantsOutput job.ns ()
          job.ns [.emit (.writeString text none)] := ⟨rfl, .inl rfl⟩
      have hprint := computes_answer hphase hreply work said h
      rwa [← List.append_nil said] at hprint
  | writeResult text =>
    exact setJob_move hjob hended (w.traffic_tell _) (computes_answer hphase ⟨rfl, rfl⟩)
  | ask question =>
    refine setJob_move hjob hended quiet fun work said h => ?_
    rw [List.append_nil]
    unfold Job.Computes at h
    rwa [hphase] at h
  | debug kind details =>
    exact setJob_move hjob hended (w.traffic_tell _) (computes_answer hphase ⟨rfl, rfl⟩)
  | requestQuit =>
    exact setJob_move hjob hended quiet (computes_answer hphase ⟨rfl, rfl⟩)
  | rest milliseconds =>
    exact setJob_move hjob hended quiet (computes_answer hphase ⟨rfl, rfl⟩)

lemma quiet_move {w₁ : World} {phase : JobPhase} (hjob : w.session.jobs[index]? = some job)
    (hended : job.isEnded = false) (hsame : w₁.traffic = w.traffic)
    (hcomputes : ∀ work said, job.Computes w.session.host w.session.wantsOutput work said →
      Job.Computes w.session.host w.session.wantsOutput work said { job with phase }) :
    Move w.traffic (mailEvents s w.controlQueue (w₁.setJob index phase).controlQueue)
      (w₁.setJob index phase).traffic := by
  have hmove := setJob_move hjob hended (hsame.trans (tell_nil _).symm) fun work said h => by
    rw [List.append_nil]
    exact hcomputes work said h
  have hmail : (w₁.setJob index phase).controlQueue = w.controlQueue :=
    congrArg Traffic.controlQueue hsame
  rw [hmail, mailEvents_self] at hmove ⊢
  exact hmove

lemma promptStep_move {actor : ActorId} {flag : JobFlag} {ns : String} {phase : PromptPhase}
    {tag : Nat} {question : Question} {next : Option question.Answer → Course}
    (hjob : w.session.jobs[index]? =
      some ⟨actor, flag, ns, .prompting phase tag question next⟩)
    (h : w.promptStep? index ⟨actor, flag, ns, .prompting phase tag question next⟩ phase tag
      question next = some w') :
    Move w.traffic (mailEvents (some actor) w.controlQueue w'.controlQueue) w'.traffic := by
  cases phase with
  | showing =>
    cases h
    exact setJob_move hjob rfl (w.traffic_tell _) fun work said h => ⟨said, rfl, h⟩
  | looking =>
    cases h
    split
    · exact quiet_move hjob rfl rfl fun work said h => h
    · exact quiet_move hjob rfl rfl fun work said h => h
  | aborting =>
    cases h
    exact quiet_move hjob rfl rfl fun work said h => h
  | waiting =>
    simp only [promptStep?, awaitAnswer?] at h
    split at h
    · cases h
    · next answer _ =>
      cases h
      refine quiet_move hjob rfl rfl ?_
      rintro work said ⟨before, rfl, hreach⟩
      exact hreach.answer ⟨rfl, tag, rfl⟩
    · cases h
      exact quiet_move hjob rfl rfl fun work said h => h
  | withdrawing =>
    cases h
    refine setJob_move hjob rfl (w.traffic_tell _) ?_
    rintro work said ⟨before, rfl, hreach⟩
    rw [List.append_assoc]
    exact hreach.answer ⟨rfl, tag, rfl⟩

lemma job_move (hsound : w.traffic.Sound) (hjob : w.session.jobs[index]? = some job)
    (h : w.jobStep? index = some w') :
    Move w.traffic (mailEvents (some job.actor) w.controlQueue w'.controlQueue) w'.traffic := by
  simp only [jobStep?, hjob, Option.bind_eq_bind, Option.bind_some, Option.pure_def] at h
  obtain ⟨actor, flag, ns, phase⟩ := job
  cases phase with
  | computing c =>
    cases c with
    | done result =>
      cases h
      exact quiet_move hjob rfl rfl fun work said h => h
    | step r next =>
      cases h
      exact serve_job_move hsound hjob rfl
  | resting => cases h
  | printing text c =>
    cases h
    exact setJob_move hjob rfl (w.traffic_tell _) fun work said h => h
  | waking c =>
    cases h
    exact quiet_move hjob rfl rfl fun work said h => h
  | prompting phase tag question next => exact promptStep_move hjob h
  | ended => cases h

lemma wake_move (h : w.wake? index = some w') :
    Move w.traffic (mailEvents s w.controlQueue w'.controlQueue) w'.traffic := by
  simp only [wake?, Option.bind_eq_bind, Option.bind_eq_some_iff, Option.pure_def] at h
  obtain ⟨⟨actor, flag, ns, phase⟩, hjob, h⟩ := h
  cases phase with
  | resting ms c =>
    cases h
    exact quiet_move hjob rfl rfl fun work said h => h
  | _ => cases h

end jobs

section turns

variable {w w' : World}

lemma finish_move {handle : Handle} (h : w.finish? handle = some w') :
    Move w.traffic (mailEvents none w.controlQueue w'.controlQueue) w'.traffic := by
  cases handle with
  | reader => exact readerEnd_move h
  | control => exact controlEnd_move h
  | evaluator id => exact evaluatorEnd_move h
  | output => exact outputEnd_move h

lemma traffic_arrive (w : World) (arrival : Arrival) :
    (w.changeConnection (·.arrive arrival)).traffic = w.traffic := by
  have houtbound : (w.session.connection.arrive arrival).outbound =
      w.session.connection.outbound := by
    unfold Connection.arrive
    split <;> rfl
  simp [traffic, changeConnection, change, houtbound]

/-- A turn moves the traffic, and shows what the move shows. -/
theorem turn_move {turn : Turn} (hsound : w.traffic.Sound) (h : w.turn? turn = some w') :
    Move w.traffic (w.observe turn w') w'.traffic := by
  unfold observe
  cases turn with
  | kill handle =>
    cases h
    rw [List.append_nil]
    exact kill_move handle
  | step action =>
    replace h : w.step? action = some w' := h
    cases action with
    | control => exact control_move hsound h
    | cut calls => exact cut_move h
    | evaluator id => exact evaluator_move hsound h
    | job index =>
      rw [List.append_nil]
      cases hjob : w.session.jobs[index]? with
      | none =>
        simp only [step?, jobStep?, hjob] at h
        cases h
      | some job =>
        rw [sender?, hjob, Option.map_some]
        exact job_move hsound hjob h
    | serve => exact (List.append_nil _).symm ▸ serve_move hsound h
    | reader => exact (List.append_nil _).symm ▸ reader_move hsound h
    | output => exact (List.append_nil _).symm ▸ output_move h
    | close index => exact (List.append_nil _).symm ▸ closer_move h
    | finish handle => exact (List.append_nil _).symm ▸ finish_move h
    | wake index => exact (List.append_nil _).symm ▸ wake_move h
    | connectOutput => exact (List.append_nil _).symm ▸ connectOutput_move h
    | deliver arrival =>
      rw [List.append_nil]
      simp only [step?] at h
      split at h
      · cases h
      · cases h
        exact still_of_eq (traffic_arrive w arrival)
    | endInput | hangUp | beginClose =>
      cases h
      rw [List.append_nil]
      exact still_of_eq rfl

lemma opened_blank {image : Image} (hfresh : image.mailboxes.Fresh) (id : Nat) (host : Host)
    (wantsOutput : Bool) (outputPort : Option UInt16) (connection : Connection) :
    (opened image id host wantsOutput outputPort connection).traffic.Blank where
  reader_lt := Nat.lt_succ_self _
  control_le := Nat.le_refl _
  absent := fun _ => rfl
  wants := by
    rintro (h | h | h)
    · cases h
    · exact absurd rfl h
    · cases h
  nodup := List.nodup_nil
  control_lt := by simp [ids, traffic, opened, start, goServe, change, Session.create]
  le_last := by simp [ids, traffic, opened, start, goServe, change, Session.create]
  unborn := by
    intro a ha
    exact hfresh a (Nat.lt_of_succ_lt (Nat.lt_of_succ_lt ha))
  mail := by simp [ids, traffic, opened, start, goServe, change, Session.create]
  target := by simp [traffic, opened, start, goServe, change, Session.create]
  evaluators_eq := rfl
  jobs_eq := rfl
  repl_eq := rfl
  control_eq := rfl
  queue_eq := hfresh _ (Nat.lt_succ_of_lt (Nat.lt_succ_self _))
  active_eq := rfl

theorem play_run {turns : List Turn} {h : History} {last : World} (hsound : w.traffic.Sound)
    (hrun : w.play? turns = some (h, last)) : Run w.traffic h last.traffic := by
  have hboth : last.traffic.Sound ∧ Run w.traffic h last.traffic := by
    refine play_induction (P := fun h w' => w'.traffic.Sound ∧ Run w.traffic h w'.traffic)
      ⟨hsound, .start⟩ ?_ hrun
    rintro h w₁ turn w₂ ⟨hsound₁, hrun₁⟩ hturn
    have hmove := turn_move hsound₁ hturn
    exact ⟨hsound₁.move hmove, hrun₁.next hmove⟩
  exact hboth.2

lemma opened_run {image : Image} {id : Nat} {host : Host} {wantsOutput : Bool}
    {outputPort : Option UInt16} {connection : Connection} {turns : List Turn} {h : History}
    {last : World} (hfresh : image.mailboxes.Fresh)
    (hrun : (opened image id host wantsOutput outputPort connection).play? turns = some (h, last)) :
    (opened image id host wantsOutput outputPort connection).traffic.Blank ∧
      Run (opened image id host wantsOutput outputPort connection).traffic h last.traffic := by
  have hblank := opened_blank hfresh id host wantsOutput outputPort connection
  exact ⟨hblank, play_run hblank.toSound hrun⟩

end turns

/-- A session of a process that has no other. -/
def sample : World :=
  opened {} 1 ⟨"1", ".", [], .spawn, .utf8, 3⟩ false none {}

/-- The reader, the control loop and the REPL start. -/
def sampleStart : List Turn :=
  List.replicate 5 (.step .serve) ++ [.step .reader]

/-- A message comes and is forwarded. -/
def sampleMessage (text : String) : List Turn :=
  [.step (.deliver (.bytes ((Frame.ofPayload (Text.Utf8.encode text.toList)).toOption.getD []))),
    .step .reader]

end World

end EvalServer
