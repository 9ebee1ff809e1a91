import EvalServer.Proofs.Evaluation.Values
import EvalServer.Proofs.Session.Results
import EvalServer.Proofs.Session.Turns

/-!
# Interrupts

Control interrupts an evaluator by raising its flag, and the evaluator lowers it when it begins with
a request. It begins with none while one of its jobs runs, so a flag that is raised meanwhile stays
raised until the job ends, and the next check point ends it. A flag that is raised while a request
is still on its way is lowered before the evaluation starts.
-/

namespace EvalServer

section courses

variable {a : ActorId} {streams : Bool} {host : Host}

/-- Wherever the computation of a request has come to, it yields to interrupts from there on. -/
lemma Course.Reaches.meets {form : Sexp} {ns₀ ns : String} {shown : List Message} {c : Course}
    (h : Reaches a streams (evaluateRequest host form).run ns₀ shown c ns) :
    c.Meets (.storing fun _ => True) fun _ => True := by
  induction h with
  | start => exact gives_evaluateRequest host trivial
  | answer _ _ ih =>
    obtain ⟨-, -, hnext⟩ := ih
    exact hnext _ (Contract.gets_anything _ _)

lemma Job.Computes.yields {work : Work} {said : List Message} {job : Job}
    (h : job.Computes host streams work said) {next : Bool → Course}
    (hphase : job.phase = .computing (.step .interrupted next)) :
    next true = .done (.error .interrupted) := by
  unfold Job.Computes at h
  rw [hphase] at h
  exact (Course.Reaches.meets h).2.1

end courses

namespace Traffic

variable {o o' : Traffic} {h h' : History} {a : ActorId} {i : Nat} {job : Job}

def Raised (o : Traffic) (a : ActorId) : Prop :=
  ∃ e ∈ o.evaluators, e.id = a ∧ e.raised = true

lemma Raised.mono (hraised : o.Raised a) (hsub : ∀ e ∈ o.evaluators, e ∈ o'.evaluators) :
    o'.Raised a := by
  obtain ⟨e, he, hid, hflag⟩ := hraised
  exact ⟨e, hsub e he, hid, hflag⟩

lemma Raised.change (hraised : o.Raised a) {b : ActorId} {f : Evaluator → Evaluator}
    (hf : ∀ e ∈ o.evaluators, e.id = a → e.id = b →
      (f e).id = e.id ∧ (e.raised = true → (f e).raised = true)) : (o.change b f).Raised a := by
  obtain ⟨e, he, hid, hflag⟩ := hraised
  by_cases heb : e.id = b
  · obtain ⟨hid', hflag'⟩ := hf e he hid heb
    exact ⟨f e, List.mem_map.2 ⟨e, he, if_pos heb⟩, hid'.trans hid, hflag' hflag⟩
  · exact ⟨e, List.mem_map.2 ⟨e, he, if_neg heb⟩, hid, hflag⟩

/-- Only an evaluator that begins with a request lowers its flag. -/
lemma Move.raised (hmove : Move o h' o') (hraised : o.Raised a)
    (hbusy : ∀ e ∈ o.evaluators, e.id = a → ∀ work, e.phase ≠ .taken work) : o'.Raised a := by
  cases hmove with
  | still | start | clear | readerMail | tell | pass | aim | conclude | pick | enter | hand
    | turnBack | write | stop | compute => exact hraised
  | flag id f hf => exact hraised.change fun e _ _ _ => ⟨(hf e).1, (hf e).2.2.2.2⟩
  | host b hhost =>
    rcases hhost.evaluators_eq with heq | ⟨name, flag, heq⟩
    · exact hraised.mono fun e he => heq ▸ he
    · exact hraised.mono fun e he => heq ▸ List.mem_append_left _ he
  | accept _ _ _ hres =>
    rcases hres.evaluators_eq with heq | ⟨name, worker, flag, heq⟩
    · exact hraised.mono fun e he => heq ▸ he
    · exact hraised.mono fun e he => heq ▸ List.mem_append_left _ he
  | raise => exact hraised.change fun e _ _ _ => ⟨rfl, fun _ => rfl⟩
  | take | judge | announce | hint | post | finish | leave | die =>
    exact hraised.change fun e _ _ _ => ⟨rfl, id⟩
  | @begin e work he hphase =>
    exact hraised.change fun e' _ hid heq => absurd hphase (hbusy e he (heq.symm.trans hid) work)

/-- A job stays in its place with its actor, and for good once it has ended. -/
lemma Move.job_kept (hmove : Move o h' o') (hjob : o.jobs[i]? = some job) :
    ∃ job', o'.jobs[i]? = some job' ∧ job'.actor = job.actor ∧
      (job.isEnded = true → job' = job) := by
  have kept : o'.jobs = o.jobs → ∃ job', o'.jobs[i]? = some job' ∧ job'.actor = job.actor ∧
      (job.isEnded = true → job' = job) := fun heq => ⟨job, heq ▸ hjob, rfl, fun _ => rfl⟩
  cases hmove with
  | host b hhost => exact kept hhost.jobs_eq
  | accept _ _ _ hres => exact kept hres.jobs_eq
  | begin =>
    refine ⟨job, ?_, rfl, fun _ => rfl⟩
    exact (List.getElem?_append_left (List.getElem?_eq_some_iff.1 hjob).1).trans hjob
  | @compute index before after messages hbefore hended hactor =>
    by_cases hi : index = i
    · subst hi
      obtain rfl : before = job := Option.some.inj (hbefore.symm.trans hjob)
      refine ⟨after, ?_, hactor, fun hend => ?_⟩
      · exact List.getElem?_set_self (List.getElem?_eq_some_iff.1 hjob).1
      · rw [hended] at hend
        cases hend
    · exact ⟨job, (List.getElem?_set_ne hi).trans hjob, rfl, fun _ => rfl⟩
  | _ => exact kept rfl

/-- All jobs look at the flags of their evaluators. -/
def Shared (o : Traffic) : Prop :=
  ∀ job ∈ o.jobs, job.flag = .shared

lemma Shared.move (hshared : o.Shared) (hmove : Move o h' o') : o'.Shared := by
  cases hmove with
  | host b hhost => exact fun job hjob => hshared job (hhost.jobs_eq ▸ hjob)
  | accept _ _ _ hres => exact fun job hjob => hshared job (hres.jobs_eq ▸ hjob)
  | begin =>
    intro job hjob
    rcases List.mem_append.1 hjob with hjob | hjob
    · exact hshared job hjob
    · rw [List.mem_singleton.1 hjob]
      rfl
  | compute hbefore _ _ hflag =>
    intro job hjob
    rcases List.mem_or_eq_of_mem_set hjob with hjob | rfl
    · exact hshared job hjob
    · exact hflag.trans (hshared _ (List.mem_of_getElem? hbefore))
  | _ => exact hshared

lemma Shared.run {o₀ : Traffic} (hblank : o₀.Blank) (hrun : Run o₀ h o) : o.Shared := by
  induction hrun with
  | start => simp [Shared, hblank.jobs_eq]
  | next _ hmove ih => exact ih.move hmove

/-- A job that runs is that of the first request of its evaluator without a result, and the
evaluator does nothing else. -/
lemma Ledger.running (hledger : o.Ledger h) (hjob : o.jobs[i]? = some job)
    (hrunning : job.isEnded = false) : ∃ e ∈ o.evaluators, e.id = job.actor ∧
      ∃ work said, (e.phase = .evaluating work i ∨ e.phase = .ended) ∧
        job.Computes o.host o.wantsOutput work said ∧
        (h.handedTo job.actor)[((h.sentBy job.actor).filterMap Message.result?).length]? =
          some work := by
  obtain ⟨e, he, hid⟩ := List.mem_map.1 (hledger.mem_ids hjob)
  obtain ⟨p, hp⟩ := hledger.desks e he
  have hown : (o.desk h e).job i = some job := jobsOf_eq_some_iff.2 ⟨hjob, hid.symm⟩
  have hrun : ¬ (o.desk h e).Idle := by
    intro hidle
    rw [hidle i job hown] at hrunning
    cases hrunning
  obtain ⟨finished, work, j, said, rfl, ⟨⟨busy, hbusy, hactor, hcomputes⟩, hothers⟩, -, hphase⟩ :=
    hp.stage.busy hrun
  obtain rfl : i = j := by
    by_contra hne
    rw [hothers i job hne hown] at hrunning
    cases hrunning
  obtain rfl : busy = job := Option.some.inj (hbusy.symm.trans hown)
  refine ⟨e, he, hid, work, said, hphase.imp_right And.left, hcomputes, ?_⟩
  -- what it has said since the last result is no result
  obtain ⟨v, -, hv, hsaid⟩ := hcomputes.exists_evaluation
  have hnone : said.filterMap Message.result? = [] := List.filterMap_eq_nil_iff.2 fun m hm =>
    (hv.isPlain m (List.mem_append_left _ (hsaid.subset hm))).1
  have hresults := congrArg List.length (results_of_blocks hp.genuine)
  rw [List.length_map, List.length_map] at hresults
  obtain ⟨waiting, -, hhanded⟩ := hp.exists_waiting
  have hsent : h.sentBy e.id = finished.flatMap (·.block e.id) ++ said := hp.sent
  have hhanded : h.handedTo e.id = finished.map Evaluation.work ++ [work] ++ waiting := hhanded
  rw [← hid, hsent, hhanded, List.filterMap_append, hnone, List.append_nil, hresults]
  simp

lemma Run.trans {o₁ o₂ : Traffic} (hrun : Run o h o₁) (hmore : Run o₁ h' o₂) :
    Run o (h ++ h') o₂ := by
  induction hmore with
  | start => rwa [List.append_nil]
  | next _ hmove ih =>
    rw [← List.append_assoc]
    exact ih.next hmove

/-- While a job of an evaluator runs, no move lowers its flag. -/
lemma Ledger.raised (hledger : o.Ledger h) (hsound : o.Sound) (hjob : o.jobs[i]? = some job)
    (hrunning : job.isEnded = false) (hraised : o.Raised job.actor) (hmove : Move o h' o') :
    o'.Raised job.actor := by
  refine hmove.raised hraised fun e he hid work hphase => ?_
  obtain ⟨e₁, he₁, hid₁, work₁, said, hbusy, -⟩ := hledger.running hjob hrunning
  obtain rfl : e = e₁ := hsound.eq_of_id he he₁ (hid.trans hid₁.symm)
  rw [hphase] at hbusy
  simp at hbusy

/-- A flag that is raised while a job of the evaluator runs stays raised until the job ends. -/
theorem Run.raised {o₀ : Traffic} (hblank : o₀.Blank) (hbefore : Run o₀ h o)
    (hjob : o.jobs[i]? = some job) (hraised : o.Raised job.actor) (hrun : Run o h' o') :
    ∃ job', o'.jobs[i]? = some job' ∧ job'.actor = job.actor ∧
      (job'.isEnded = false → o'.Raised job.actor) := by
  induction hrun with
  | start => exact ⟨job, hjob, rfl, fun _ => hraised⟩
  | @next h₁ h₂ o₁ o₂ hrun hmove ih =>
    obtain ⟨job₁, hjob₁, hactor₁, hraised₁⟩ := ih
    obtain ⟨job₂, hjob₂, hactor₂, hended⟩ := hmove.job_kept hjob₁
    refine ⟨job₂, hjob₂, hactor₂.trans hactor₁, fun hrunning => ?_⟩
    have hrunning₁ : job₁.isEnded = false := by
      by_contra hend
      rw [hended (by simpa using hend)] at hrunning
      exact hend hrunning
    have hwhole := hbefore.trans hrun
    rw [← hactor₁] at hraised₁ ⊢
    exact (Ledger.run hblank hwhole).raised (hblank.toSound.run hwhole) hjob₁ hrunning₁
      (hraised₁ hrunning₁) hmove

end Traffic

namespace World

open Traffic

lemma raised_of_traffic {w : World} {a : ActorId} (hsound : w.traffic.Sound)
    (hraised : w.traffic.Raised a) : (w.session.evaluator? a).any Evaluator.raised = true := by
  obtain ⟨e, he, rfl, hflag⟩ := hraised
  rw [evaluator?_of_mem hsound he]
  exact hflag

/-- The interrupt of an evaluator on the table raises its flag. -/
lemma raise_step {w : World} {a : ActorId} (hcontrol : w.session.control = .raising a)
    (htarget : (w.session.interrupt a).1 = true) :
    ∃ w', w.step? .control = some w' ∧ w'.session.jobs = w.session.jobs ∧
      (a ∈ w.traffic.ids → w'.traffic.Raised a) := by
  have hknown : a ∈ w.session.table.evaluators := by
    by_contra hnone
    simp [Session.interrupt, Session.raise, hnone] at htarget
  let raised : Session := w.session.changeEvaluator a fun e => { e with raised := true }
  have hraise : w.session.raise a = (true, raised) := if_pos (by simpa using hknown)
  refine ⟨({ w with session := raised } : World).goControl (.aborting a), ?_, rfl, fun hmem => ?_⟩
  · simp only [step?, controlStep?, hcontrol, hraise]
  · obtain ⟨e, he, hid⟩ := List.mem_map.1 hmem
    exact ⟨{ e with raised := true }, List.mem_map.2 ⟨e, he, if_pos hid⟩, hid, rfl⟩

/-- The check point of a job whose evaluator has its flag raised ends the job as interrupted. -/
lemma check_step {w : World} {h : History} {index : Nat} {job : Job}
    (hledger : w.traffic.Ledger h) (hshared : w.traffic.Shared)
    (hjob : w.session.jobs[index]? = some job)
    (hraised : (w.session.evaluator? job.actor).any Evaluator.raised = true) {next : Bool → Course}
    (hphase : job.phase = .computing (.step .interrupted next)) :
    w.step? (.job index) =
      some (w.setJob index (.computing (.done (.error .interrupted)))) := by
  have hrunning : job.isEnded = false := by simp [Job.isEnded, hphase]
  obtain ⟨e, -, -, work, said, -, hcomputes, -⟩ := hledger.running hjob hrunning
  have hflag : job.flag = .shared := hshared job (List.mem_of_getElem? hjob)
  have hisRaised : w.session.isRaised job = true := by
    simp only [Session.isRaised, hflag]
    exact hraised
  have hyields := hcomputes.yields hphase
  simp only [step?, jobStep?, hjob, Option.bind_eq_bind, Option.bind_some, Option.pure_def, hphase,
    serve, hisRaised]
  rw [hyields]

/-- An interrupt that reaches an evaluator while a job of it runs, the job of its first request
without a result, leaves the flag raised until the job has ended, and every check point that the
job comes to ends it as interrupted. -/
theorem interrupt_heeded {image : Image} {id : Nat} {host : Host} {wantsOutput : Bool}
    {outputPort : Option UInt16} {connection : Connection} {turns : List Turn} {h : History}
    {w : World} (hfresh : image.mailboxes.Fresh)
    (hrun : (opened image id host wantsOutput outputPort connection).play? turns = some (h, w))
    {a : ActorId} (hcontrol : w.session.control = .raising a)
    (htarget : (w.session.interrupt a).1 = true) {index : Nat} {job : Job}
    (hjob : w.session.jobs[index]? = some job) (hactor : job.actor = a)
    (hrunning : job.isEnded = false) :
    (∃ work said, job.Computes host wantsOutput work said ∧
      (h.handedTo a)[((h.sentBy a).filterMap Message.result?).length]? = some work) ∧
    ∃ w', w.step? .control = some w' ∧ ∀ (more : List Turn) (h' : History) (last : World),
      w'.play? more = some (h', last) → ∃ job', last.session.jobs[index]? = some job' ∧
        (job'.isEnded = false → (last.session.evaluator? a).any Evaluator.raised = true ∧
          ∀ next : Bool → Course, job'.phase = .computing (.step .interrupted next) →
            last.step? (.job index) =
              some (last.setJob index (.computing (.done (.error .interrupted))))) := by
  subst hactor
  obtain ⟨hblank, hbefore⟩ := opened_run hfresh hrun
  have hledger := Ledger.run hblank hbefore
  refine ⟨?_, ?_⟩
  · obtain ⟨e, -, -, work, said, -, hcomputes, hfirst⟩ := hledger.running hjob hrunning
    rw [hbefore.same.1, hbefore.same.2] at hcomputes
    exact ⟨work, said, hcomputes, hfirst⟩
  · obtain ⟨w', hstep, hjobs, hraised⟩ := raise_step hcontrol htarget
    have hsound := hblank.toSound.run hbefore
    have hmove : Move w.traffic (w.observe (.step .control) w') w'.traffic := turn_move hsound hstep
    have hraise := hbefore.next hmove
    refine ⟨w', hstep, fun more h' last hmore => ?_⟩
    have hrest := play_run (hblank.toSound.run hraise) hmore
    obtain ⟨job', hjob', hactor', hflag⟩ :=
      Run.raised hblank hraise (hjobs ▸ hjob) (hraised (hledger.mem_ids hjob)) hrest
    refine ⟨job', hjob', fun hrunning' => ?_⟩
    have hwhole := hraise.trans hrest
    have hup := raised_of_traffic (hblank.toSound.run hwhole) (hflag hrunning')
    refine ⟨hup, fun next hphase => ?_⟩
    exact check_step (.run hblank hwhole) (.run hblank hwhole) hjob' (hactor' ▸ hup) hphase

/-- A number stands for itself, after one check point. -/
lemma run_number (host : Host) (n : Int64) : (evaluateRequest host (.int n)).run =
    .step .interrupted fun raised : Bool =>
      .done (if raised then .error .interrupted else .ok (.int n)) := by
  have hplain : EditorCall.ofSexp? (.int n) = none := rfl
  simp only [evaluateRequest, hplain, Eval.evaluate]
  unfold Eval.evaluateForm
  refine congrArg (Computation.step .interrupted) (funext fun raised => ?_)
  cases (raised : Bool) <;> rfl

/-- The REPL begins with a request for a number, and control takes an interrupt. -/
def timelyTurns : List Turn :=
  sampleStart ++ sampleMessage "(:emacs-rex 7 nil :repl-thread 1)" ++
    List.replicate 3 (.step .control) ++ List.replicate 2 (.step (.evaluator 3)) ++
    sampleMessage "(:emacs-interrupt :repl-thread)" ++ [.step .control]

theorem interrupt_heeded_timely : ∃ h w job w' job', sample.play? timelyTurns = some (h, w) ∧
    w.session.control = .raising 3 ∧ (w.session.interrupt 3).1 = true ∧
    w.session.jobs[0]? = some job ∧ job.actor = 3 ∧ job.isEnded = false ∧
    w.step? .control = some w' ∧ w'.session.jobs[0]? = some job' ∧ job'.isEnded = false ∧
    (w'.session.evaluator? 3).any Evaluator.raised = true := by
  have hall : (sample.play? timelyTurns).any (fun p =>
      p.2.session.control = .raising 3 ∧ (p.2.session.interrupt 3).1 = true ∧
      ((p.2.session.jobs[0]?).any fun job => job.actor = 3 ∧ job.isEnded = false) ∧
      (p.2.step? .control).any fun w =>
        (w.session.jobs[0]?).any fun job => job.isEnded = false) = true := by
    decide +kernel
  obtain ⟨⟨h, w⟩, hrun, hshows⟩ := (Option.any_eq_true _ _).1 hall
  obtain ⟨hcontrol, htarget, hjobs, hnext⟩ := of_decide_eq_true hshows
  obtain ⟨job, hjob, hown⟩ := (Option.any_eq_true _ _).1 hjobs
  obtain ⟨hactor, hrunning⟩ := of_decide_eq_true hown
  have hfresh : Mailboxes.Fresh {} := fun _ _ => rfl
  obtain ⟨-, w', hstep, hmore⟩ :=
    interrupt_heeded hfresh hrun hcontrol htarget hjob hactor hrunning
  obtain ⟨job', hjob', hheeded⟩ := hmore [] [] w' rfl
  have hrunning' : job'.isEnded = false := by simpa [hstep, hjob'] using hnext
  exact ⟨h, w, job, w', job', hrun, hcontrol, htarget, hjob, hactor, hrunning, hstep, hjob',
    hrunning', (hheeded hrunning').1⟩

lemma evaluator?_changeEvaluator (s : Session) (a : ActorId) {f : Evaluator → Evaluator}
    (hf : ∀ e, (f e).id = e.id) :
    (s.changeEvaluator a f).evaluator? a = (s.evaluator? a).map f := by
  let g (e : Evaluator) : Evaluator := if e.id = a then f e else e
  have hsame : (fun e : Evaluator => e.id == a) ∘ g = fun e => e.id == a := by
    funext e
    by_cases he : e.id = a <;> simp [g, he, hf]
  change (s.evaluators.map g).find? (fun e => e.id == a) = _
  rw [List.find?_map, hsame]
  refine Option.map_congr fun e he => if_pos ?_
  simpa using List.find?_some he

/-- An evaluator lowers its flag as it begins with a request, whoever has raised it. -/
lemma begin_step {w : World} {e : Evaluator} {work : Work}
    (hfind : w.session.evaluator? e.id = some e) (hphase : e.phase = .taken work) :
    ∃ w', w.step? (.evaluator e.id) = some w' ∧
      w'.session.jobs = w.session.jobs ++ [work.job w.session.host e.id] ∧
      (w'.session.evaluator? e.id).any Evaluator.raised = false := by
  let job := work.job w.session.host e.id
  let started : Session := { w.session with jobs := w.session.jobs ++ [job] }
  let begin (e : Evaluator) : Evaluator :=
    { e with raised := false, phase := .evaluating work w.session.jobs.length }
  refine ⟨{ w with session := started.changeEvaluator e.id begin }, ?_, rfl, ?_⟩
  · simp only [step?, evaluatorStep?, hfind, Option.bind_eq_bind, Option.bind_some, hphase,
      evaluatorPhase?, Session.startJob]
    rfl
  · have hbegun : (started.changeEvaluator e.id begin).evaluator? e.id = some (begin e) :=
      (evaluator?_changeEvaluator started e.id (f := begin) fun _ => rfl).trans
        (congrArg (Option.map begin) hfind)
    simp only [hbegun, Option.any_some, begin]

/-- The REPL takes a request for a number, and before it begins control takes an interrupt. -/
def earlyTurns : List Turn :=
  sampleStart ++ sampleMessage "(:emacs-rex 7 nil :repl-thread 1)" ++
    List.replicate 3 (.step .control) ++ [.step (.evaluator 3)] ++
    sampleMessage "(:emacs-interrupt :repl-thread)" ++ [.step .control]

/-- An interrupt that comes after the request was sent and before its evaluation begins is lost. -/
theorem interrupt_lost : ∃ h w, sample.play? earlyTurns = some (h, w) ∧
    w.session.control = .raising 3 ∧ (w.session.interrupt 3).1 = true ∧
    h.handedTo 3 = [⟨.int 7, "user", 1⟩] ∧ h.sentBy 3 = [] ∧
    ∃ w₁ w₂, w.step? .control = some w₁ ∧
      (w₁.session.evaluator? 3).any Evaluator.raised = true ∧
      w₁.step? (.evaluator 3) = some w₂ ∧
      (w₂.session.evaluator? 3).any Evaluator.raised = false ∧
      w₂.step? (.job 0) = some (w₂.setJob 0 (.computing (.done (.ok (.int 7))))) := by
  let repl : Evaluator :=
    ⟨3, Session.replName, false, true, false, .taken ⟨.int 7, "user", 1⟩⟩
  have hall : (sample.play? earlyTurns).any (fun p =>
      p.2.session.control = .raising 3 ∧ (p.2.session.interrupt 3).1 = true ∧
      p.1.handedTo 3 = [⟨.int 7, "user", 1⟩] ∧ p.1.sentBy 3 = [] ∧
      (p.2.step? .control).any fun w =>
        w.session.jobs.isEmpty ∧ w.session.evaluator? 3 = some repl) = true := by
    decide +kernel
  obtain ⟨⟨h, w⟩, hrun, hshows⟩ := (Option.any_eq_true _ _).1 hall
  obtain ⟨hcontrol, htarget, hhanded, hsent, hraise⟩ := of_decide_eq_true hshows
  obtain ⟨w₁, hstep₁, hraised⟩ := (Option.any_eq_true _ _).1 hraise
  obtain ⟨hnone, hfind⟩ := of_decide_eq_true hraised
  obtain ⟨w₂, hstep₂, hjobs, hlowered⟩ := begin_step (e := repl) hfind rfl
  refine ⟨h, w, hrun, hcontrol, htarget, hhanded, hsent, w₁, w₂, hstep₁, ?_, hstep₂, hlowered, ?_⟩
  · rw [hfind]
    rfl
  · rw [List.isEmpty_iff.1 hnone, List.nil_append] at hjobs
    have hcalm : w₂.session.isRaised (Work.job ⟨.int 7, "user", 1⟩ w₁.session.host 3) = false :=
      hlowered
    simp only [step?, jobStep?, hjobs, List.getElem?_cons_zero, Option.bind_eq_bind,
      Option.bind_some, Option.pure_def]
    simp only [Work.job, run_number, serve] at hcalm ⊢
    rw [hcalm]
    rfl

end World

end EvalServer
