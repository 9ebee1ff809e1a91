import EvalServer.Proofs.Session.Closing
import EvalServer.Proofs.Session.Withdrawal

/-!
# What a close leaves

Once all closes have returned, every evaluator has been stopped, and so has every actor whose handle
was on the table before a close took it. A question that is still registered is one whose job has
not looked at its flag since, or whose evaluator has lowered its flag after the kill.
-/

namespace EvalServer

open Traffic

/-- Whether a close kills, or will abort all prompts next. -/
def ClosePhase.isKilling : ClosePhase → Bool
  | .killing _ | .aborting => true
  | _ => false

namespace World

variable {w w' : World}

section starting

lemma serve_staged (hstaged : w.Staged) (h : w.serveStep? = some w') : w'.Staged := by
  unfold serveStep? at h
  cases hservice : w.session.service with
  | absent | ended => simp [hservice] at h
  | startingControl =>
    simp only [hservice, Option.some.injEq] at h
    subst h
    have hreader := hstaged.reader (by simp [hservice])
    have houtput := hstaged.output (by simp [hservice])
    exact ⟨fun _ => hreader, fun _ => houtput⟩
  | startingReader | recording =>
    simp only [hservice, Option.some.injEq] at h
    subst h
    have houtput := hstaged.output (by simp [hservice])
    exact ⟨by simp [goServe, change], fun _ => houtput⟩
  | startingRepl =>
    simp only [hservice, Option.some.injEq] at h
    subst h
    have houtput := hstaged.output (by simp [hservice])
    obtain ⟨-, _, _, _, _, hsession, -⟩ := ensureRepl_frame w
    refine ⟨?_, fun _ => ?_⟩
    · by_cases hwants : w.session.wantsOutput <;> simp [goServe, change, hwants]
    · simp only [goServe, change, hsession]
      exact houtput
  | opening =>
    simp only [hservice] at h
    split at h
    · cases h
      exact ⟨by simp [goServe, change], by simp [goServe, change]⟩
    · cases h
      exact ⟨by simp [goServe, change], by simp [goServe, change]⟩
  | recordingOutput | announcingOutput | starting =>
    simp only [hservice, Option.some.injEq] at h
    subst h
    exact ⟨by simp [goServe, change], by simp [goServe, change]⟩
  | serving =>
    simp only [hservice] at h
    split at h
    · cases h
      exact ⟨by simp [goServe, change], by simp [goServe, change]⟩
    · cases h
  | closing phase =>
    simp only [hservice] at h
    split at h
    · cases h
      exact ⟨by simp [goServe, change], by simp [goServe, change]⟩
    · cases h
      exact ⟨by simp [goServe, change], by simp [goServe, change]⟩

/-- A step that is not of the service, and starts nothing. -/
lemma Staged.of (hstaged : w.Staged) (hservice : w'.session.service = w.session.service)
    (hreader : w.session.reader = .absent → w'.session.reader = .absent)
    (hphase : w.session.output.phase = .absent → w'.session.output.phase = .absent) :
    w'.Staged := by
  refine ⟨fun h => ?_, fun h => ?_⟩
  · exact hreader (hstaged.reader (hservice ▸ h))
  · exact hphase (hstaged.output (hservice ▸ h))

lemma close_staged {phase phase' : ClosePhase} (hstaged : w.Staged)
    (h : w.closeStep? phase = some (w', phase')) : w'.Staged := by
  obtain ⟨-, _, _, _, _, _, _, _, _, hsession, -⟩ := closeStep_frame h
  exact hstaged.of (by rw [hsession]) (fun h => by rw [hsession]; exact h)
    (fun h => by rw [hsession]; exact h)

lemma step_staged (hsound : w.traffic.Sound) (hstaged : w.Staged) {action : Action}
    (h : w.step? action = some w') : w'.Staged := by
  by_cases hserve : action = .serve
  · subst hserve
    exact serve_staged hstaged h
  · by_cases hclose : ∃ i, action = .close i
    · obtain ⟨i, rfl⟩ := hclose
      obtain ⟨phase, phase', w₁, -, hclose, rfl⟩ := closer_spec h
      exact (close_staged hstaged hclose).of rfl id id
    · have hrests := step_rests hsound hserve (fun i hi => hclose ⟨i, hi⟩) h
      exact hstaged.of hrests.service hrests.reader.2 hrests.output.2

/-- Only the task that serves the connection goes on with the service. -/
lemma step_service (hsound : w.traffic.Sound) {action : Action} (hserve : action ≠ .serve)
    (h : w.step? action = some w') : w'.session.service = w.session.service := by
  by_cases hclose : ∃ i, action = .close i
  · obtain ⟨i, rfl⟩ := hclose
    obtain ⟨phase, phase', w₁, -, hclose, rfl⟩ := closer_spec h
    exact (closeStep?_spec (s := none) hclose).2
  · exact (step_rests hsound hserve (fun i hi => hclose ⟨i, hi⟩) h).service

end starting

section flags

variable {a : ActorId}

/-- The prompts of an actor are about to be aborted. -/
def Promised (w : World) (a : ActorId) : Prop :=
  w.session.control = .aborting a ∨ ∃ p ∈ w.session.closes, p.isKilling = true

/-- No prompt of an actor is registered. -/
def Settled (w : World) (a : ActorId) : Prop :=
  ∀ tag x, w.session.prompts.prompt? tag = some x → x.actor = a → x.state.isPending = false

lemma settled_abort (hprompts : w'.session.prompts = (w.session.prompts.abort a).2) :
    w'.Settled a := by
  intro tag x hx hactor
  rw [hprompts, Prompts.prompt?_abort, Option.map_eq_some_iff] at hx
  obtain ⟨y, -, rfl⟩ := hx
  split at hactor
  · rw [if_pos ‹_›]
    exact y.state.isPending_abort
  · exact absurd hactor ‹_›

lemma settled_abortAll (hprompts : w'.session.prompts = w.session.prompts.abortAll) :
    w'.Settled a := by
  intro tag x hx _
  rw [hprompts, Prompts.prompt?_eq_some_iff] at hx
  simp only [Prompts.abortAll, List.getElem?_map, Option.map_eq_some_iff] at hx
  obtain ⟨-, y, -, rfl⟩ := hx
  exact y.state.isPending_abort

/-- A step that raises no flag of an evaluator that was there. -/
lemma promised_of (ha : a ∈ w.traffic.ids) (hpromise : w.traffic.Raised a → w.Promised a)
    (hraised : w'.traffic.Raised a)
    (hlow : ∀ e' ∈ w'.session.evaluators, e'.id = a → (∃ e ∈ w.session.evaluators,
      e.id = e'.id ∧ (e'.raised = true → e.raised = true)) ∨ e'.id ∉ w.traffic.ids)
    (hcontrol : w.session.control = .aborting a → w'.session.control = .aborting a ∨ w'.Settled a)
    (hcloses : ∀ p ∈ w.session.closes, p.isKilling = true → p ∈ w'.session.closes) :
    w'.Promised a ∨ w'.Settled a := by
  obtain ⟨e', he', rfl, hup⟩ := hraised
  rcases hlow e' he' rfl with ⟨e, he, hid, hlowered⟩ | hnew
  · rcases hpromise ⟨e, he, hid, hlowered hup⟩ with habort | ⟨p, hp, hkilling⟩
    · exact (hcontrol habort).imp_left .inl
    · exact .inl (.inr ⟨p, hcloses p hp hkilling, hkilling⟩)
  · exact absurd ha hnew

/-- A step that leaves flags, control and closes alone. -/
lemma promised_same (ha : a ∈ w.traffic.ids) (hpromise : w.traffic.Raised a → w.Promised a)
    (hraised : w'.traffic.Raised a)
    (hsame : (w'.session.evaluators, w'.session.control, w'.session.closes) =
      (w.session.evaluators, w.session.control, w.session.closes)) :
    w'.Promised a ∨ w'.Settled a := by
  simp only [Prod.mk.injEq] at hsame
  obtain ⟨hevaluators, hcontrol, hcloses⟩ := hsame
  refine promised_of ha hpromise hraised (fun e he _ => ?_) (fun h => .inl (hcontrol.trans h))
    fun p hp _ => hcloses ▸ hp
  exact .inl ⟨e, hevaluators ▸ he, rfl, id⟩

/-- A close raises flags when it kills, and then aborts all prompts. -/
lemma promised_on (ha : a ∈ w.traffic.ids) (hpromise : w.traffic.Raised a → w.Promised a)
    (hraised : w'.traffic.Raised a) (h : w.ClosesOn w') : w'.Promised a ∨ w'.Settled a := by
  obtain ⟨p, p', l, r, w₁, hclose, hbefore, hafter, service, closers, hsession⟩ := h
  have others : p.isKilling = false →
      ∀ q ∈ w.session.closes, q.isKilling = true → q ∈ w'.session.closes := by
    intro hp q hq hkilling
    simp only [hbefore, hafter, List.mem_append, List.mem_cons] at hq ⊢
    refine hq.imp_right fun hq => .inr (hq.resolve_left ?_)
    rintro rfl
    rw [hkilling] at hp
    cases hp
  have own : p'.isKilling = true → w'.Promised a := by
    intro hkilling
    exact .inr ⟨p', hafter ▸ by simp, hkilling⟩
  have calm : p.isKilling = false → w'.session.evaluators = w.session.evaluators →
      w'.session.control = w.session.control → w'.Promised a ∨ w'.Settled a := by
    intro hp hevaluators hcontrol
    refine promised_of ha hpromise hraised (fun e he _ => .inl ⟨e, hevaluators ▸ he, rfl, id⟩)
      (fun habort => .inl (hcontrol.trans habort)) (others hp)
  cases p with
  | marking =>
    simp only [closeStep?] at hclose
    split at hclose
    · cases hclose
      exact calm rfl (by rw [hsession]) (by rw [hsession])
    · cases hclose
      exact calm rfl (by rw [hsession]; rfl) (by rw [hsession]; rfl)
  | taking | silencing =>
    cases hclose
    exact calm rfl (by rw [hsession]; rfl) (by rw [hsession]; rfl)
  | killing handles =>
    cases handles <;> cases hclose <;> exact .inl (own rfl)
  | aborting =>
    cases hclose
    exact .inr (settled_abortAll (w := w) (by rw [hsession]; rfl))
  | ended => cases hclose

lemma low_of_spawn (hsound : w.traffic.Sound) {evaluators : List Evaluator}
    (hevaluators : evaluators = w.session.evaluators ∨ ∃ name worker flag,
      evaluators = (w.traffic.spawn name worker flag).evaluators) :
    ∀ e' ∈ evaluators, e'.id = a → (∃ e ∈ w.session.evaluators,
      e.id = e'.id ∧ (e'.raised = true → e.raised = true)) ∨ e'.id ∉ w.traffic.ids := by
  intro e' he' _
  rcases hevaluators with heq | ⟨name, worker, flag, heq⟩
  · exact .inl ⟨e', heq ▸ he', rfl, id⟩
  · rw [heq, Traffic.spawn, List.mem_append, List.mem_singleton] at he'
    rcases he' with he' | rfl
    · exact .inl ⟨e', he', rfl, id⟩
    · exact .inr fun hmem => absurd (hsound.le_last _ hmem) (Nat.not_succ_le_self _)

lemma handle_evaluators (hsound : w.traffic.Sound) (m : Message) :
    (w.handle m).session.evaluators = w.session.evaluators ∨ ∃ name worker flag,
      (w.handle m).session.evaluators = (w.traffic.spawn name worker flag).evaluators := by
  cases m with
  | start | evaluate | emit | debug | result => exact .inl rfl
  | client event =>
    cases event with
    | evaluate form package thread id =>
      simp only [handle, handleClient]
      cases hresolve : w.resolve thread with
      | mk found w₂ =>
        cases found with
        | none =>
          rw [resolve_none hresolve]
          exact .inl rfl
        | some target => exact (resolve_resolves hsound hresolve).evaluators_eq
    | interrupt thread =>
      simp only [handle, handleClient]
      split
      · exact .inl rfl
      · exact .inl rfl
    | returnString | returnValue | unknown => exact .inl rfl

lemma promised_control (hsound : w.traffic.Sound) (ha : a ∈ w.traffic.ids)
    (hpromise : w.traffic.Raised a → w.Promised a) (hraised : w'.traffic.Raised a)
    (h : w.controlStep? = some w') : w'.Promised a ∨ w'.Settled a := by
  have hcloses : w'.session.closes = w.session.closes := by
    obtain ⟨_, _, _, _, _, _, hsession⟩ := control_frame h
    rw [hsession]
    rfl
  have go := fun hlow hcontrol =>
    promised_of ha hpromise hraised hlow hcontrol fun p hp _ => hcloses ▸ hp
  unfold controlStep? at h
  cases hc : w.session.control with
  | absent | ended => simp [hc] at h
  | receiving =>
    simp only [hc, Option.bind_eq_bind, Option.bind_eq_some_iff, Option.pure_def,
      Option.some.injEq, Prod.exists] at h
    obtain ⟨m, ⟨image, session⟩, hreceive, rfl⟩ := h
    obtain ⟨rest, -, htraffic, rfl⟩ := receive?_spec hreceive
    have hsound' : Sound (traffic { image, session := w.session }) :=
      htraffic ▸ hsound.setControlQueue rest
    have hlow := low_of_spawn (a := a) hsound' (handle_evaluators hsound' m)
    exact go hlow (by simp [hc])
  | raising target =>
    simp only [hc, Session.raise] at h
    split at h
    · next session hraise =>
      cases h
      split at hraise
      · cases hraise
        by_cases htarget : a = target
        · exact .inl (.inl (htarget ▸ rfl))
        · refine go (fun e' he' hid => ?_) (by simp [hc])
          obtain ⟨e, he, rfl⟩ := List.mem_map.1 he'
          by_cases hsame : e.id = target
          · rw [if_pos hsame] at hid
            exact absurd (hid.symm.trans hsame) htarget
          · rw [if_neg hsame]
            exact .inl ⟨e, he, rfl, id⟩
      · cases hraise
    · cases h
      exact go (fun e he _ => .inl ⟨e, he, rfl, id⟩) (by simp [hc])
  | aborting target =>
    simp only [hc, Option.some.injEq] at h
    subst h
    refine go (fun e he _ => .inl ⟨e, he, rfl, id⟩) fun habort => .inr ?_
    cases hc.symm.trans habort
    exact settled_abort rfl
  | entering | handing =>
    simp only [hc, Option.some.injEq] at h
    subst h
    exact go (fun e he _ => .inl ⟨e, he, rfl, id⟩) (by simp [hc])
  | writing event =>
    simp only [hc, Option.some.injEq] at h
    subst h
    have hevaluators : (w.write event).session.evaluators = w.session.evaluators := by
      simp only [write]
      split <;> rfl
    exact go (fun e he _ => .inl ⟨e, hevaluators ▸ he, rfl, id⟩) (by simp [hc])

lemma promised_serve (hsound : w.traffic.Sound) (ha : a ∈ w.traffic.ids)
    (hpromise : w.traffic.Raised a → w.Promised a) (hraised : w'.traffic.Raised a)
    (h : w.serveStep? = some w') : w'.Promised a ∨ w'.Settled a := by
  have hserve := h
  have go : (∀ e' ∈ w'.session.evaluators, e'.id = a → (∃ e ∈ w.session.evaluators,
        e.id = e'.id ∧ (e'.raised = true → e.raised = true)) ∨ e'.id ∉ w.traffic.ids) →
      (w.session.control = .aborting a → w'.session.control = .aborting a) →
      w.session.service.close?.all (·.isKilling = false) = true →
      w'.session.closers = w.session.closers → w'.Promised a ∨ w'.Settled a := by
    intro hlow hcontrol hcalm hclosers
    refine promised_of ha hpromise hraised hlow (fun h => .inl (hcontrol h)) fun p hp hkilling => ?_
    rcases List.mem_append.1 hp with hp | hp
    · rw [Option.mem_toList] at hp
      simp [hp, hkilling] at hcalm
    · exact List.mem_append_right _ (hclosers ▸ hp)
  have same : ∀ e' ∈ w.session.evaluators, e'.id = a → (∃ e ∈ w.session.evaluators,
      e.id = e'.id ∧ (e'.raised = true → e.raised = true)) ∨ e'.id ∉ w.traffic.ids :=
    fun e he _ => .inl ⟨e, he, rfl, id⟩
  unfold serveStep? at h
  cases hservice : w.session.service with
  | absent | ended => simp [hservice] at h
  | startingControl =>
    have habsent : w.session.control = .absent := hsound.absent (.inl hservice)
    simp only [hservice, Option.some.injEq] at h
    subst h
    exact go same (by simp [habsent]) (by rw [hservice]; rfl) rfl
  | startingRepl =>
    simp only [hservice, Option.some.injEq] at h
    subst h
    obtain ⟨-, _, _, _, _, hsession, -⟩ := ensureRepl_frame w
    have hlow := low_of_spawn (a := a) hsound
      ((ensureRepl_hosts hsound).evaluators_eq.imp_right fun ⟨name, flag, heq⟩ =>
        ⟨name, false, flag, heq⟩)
    refine go hlow (fun h => ?_) (by rw [hservice]; rfl) ?_
    · simpa only [goServe, change, hsession] using h
    · simp only [goServe, change, hsession]
  | opening =>
    simp only [hservice] at h
    split at h
    · cases h
      exact go same id (by rw [hservice]; rfl) rfl
    · cases h
      exact go same id (by rw [hservice]; rfl) rfl
  | startingReader | recording | recordingOutput | announcingOutput | starting =>
    simp only [hservice, Option.some.injEq] at h
    subst h
    exact go same id (by rw [hservice]; rfl) rfl
  | serving =>
    simp only [hservice] at h
    split at h
    · cases h
      exact go same id (by rw [hservice]; rfl) rfl
    · cases h
  | closing phase =>
    rcases serve_on hservice hserve with hon | ⟨rfl, rfl⟩
    · exact promised_on ha hpromise hraised hon
    · exact go same id (by rw [hservice]; rfl) rfl

lemma step_promised (hsound : w.traffic.Sound) (ha : a ∈ w.traffic.ids)
    (hpromise : w.traffic.Raised a → w.Promised a) (hraised : w'.traffic.Raised a)
    {action : Action} (h : w.step? action = some w') : w'.Promised a ∨ w'.Settled a := by
  have same := promised_same ha hpromise hraised
  cases action with
  | serve => exact promised_serve hsound ha hpromise hraised h
  | control => exact promised_control hsound ha hpromise hraised h
  | reader =>
    obtain ⟨-, _, _, hsession⟩ := reader_frame (Nat.ne_of_lt hsound.reader_lt) h
    exact same (by rw [hsession]; rfl)
  | evaluator id =>
    obtain ⟨-, _, _, _, _, hsession, -, hlow⟩ :=
      evaluator_frame (fun e he => ne_controlId hsound he) h
    refine promised_of ha hpromise hraised (fun e' he' _ => .inl ?_) (fun habort => .inl ?_) ?_
    · rw [hsession] at he'
      exact hlow e' he'
    · rw [hsession]
      exact habort
    · intro p hp _
      rw [hsession]
      exact hp
  | job index =>
    obtain ⟨-, _, _, _, hsession⟩ := job_frame h
    exact same (by rw [hsession]; rfl)
  | output =>
    obtain ⟨output, rfl⟩ := output_frame (.inl h)
    exact same rfl
  | connectOutput =>
    obtain ⟨output, rfl⟩ := output_frame (.inr (.inl h))
    exact same rfl
  | close index => exact promised_on ha hpromise hraised (closer_on h)
  | finish handle =>
    cases handle with
    | reader =>
      rw [readerEnd_frame h] at same ⊢
      exact same rfl
    | control =>
      obtain ⟨hc, -, rfl⟩ := controlEnd_spec h
      refine promised_of ha hpromise hraised (fun e he _ => .inl ⟨e, he, rfl, id⟩) ?_
        fun p hp _ => hp
      rcases hc with hc | ⟨event, hc⟩ <;> simp [hc]
    | evaluator id =>
      rw [evaluatorEnd_frame h] at hraised ⊢
      have hlow := lowers_change w.session (a := id) (f := fun e => { e with phase := .ended })
        (fun _ => rfl) fun _ hup => hup
      exact promised_of ha hpromise hraised (fun e' he' _ => .inl (hlow e' he')) .inl
        fun p hp _ => hp
    | output =>
      obtain ⟨output, rfl⟩ := output_frame (.inr (.inr h))
      exact same rfl
  | cut calls =>
    obtain ⟨event, outbound, hc, -, -, rfl⟩ := cutShort_spec h
    exact promised_of ha hpromise hraised (fun e he _ => .inl ⟨e, he, rfl, id⟩) (by simp [hc])
      fun p hp _ => hp
  | wake index =>
    obtain ⟨jobs, rfl⟩ := wake_frame h
    exact same rfl
  | deliver arrival =>
    simp only [step?] at h
    split at h
    · cases h
    · cases h
      exact same rfl
  | endInput | hangUp =>
    cases h
    exact same rfl
  | beginClose =>
    cases h
    refine promised_of ha hpromise hraised (fun e he _ => .inl ⟨e, he, rfl, id⟩) .inl ?_
    intro p hp _
    simp only [Session.closes, change, ← List.append_assoc]
    exact List.mem_append_left _ hp

end flags

section prompts

variable {n : Notices} {h : History}

/-- If a job waits for a question that is registered and its flag is raised, the prompts of its
actor are about to be aborted. -/
def Pledged (w : World) : Prop :=
  ∀ (i : Nat) (job : Job) (tag : Nat), w.session.jobs[i]? = some job →
    job.asks? = some (.waiting, tag) → (w.session.prompts.state tag).isPending = true →
    w.traffic.Raised job.actor → w.Promised job.actor

/-- The question for which a job waits belongs to its actor. -/
lemma Accounts.pending_of_settled (hacc : w.Accounts n) {i tag : Nat} {job : Job}
    (hjob : w.session.jobs[i]? = some job) (hasks : job.asks? = some (.waiting, tag))
    (hsettled : w.Settled job.actor) : (w.session.prompts.state tag).isPending = false := by
  obtain ⟨x, hx, hactor⟩ := hacc.owner hjob (hacc.asked_of_unheard (unheard_waiting hjob hasks))
  rw [Prompts.state, hx]
  exact hsettled tag x hx hactor

lemma Pledged.job (hpledged : w.Pledged) (hacc : w.Accounts n) (hsound : w.traffic.Sound)
    (hshared : w.traffic.Shared) {j : Nat} (hstep : w.jobStep? j = some w') : w'.Pledged := by
  intro i job' tag hjob' hasks hpending hraised
  obtain ⟨-, jobs, prompts, queue, hsession⟩ := job_frame hstep
  have hsame : w'.traffic.Raised job'.actor → w.traffic.Raised job'.actor := by
    rintro ⟨e, he, hid, hup⟩
    change e ∈ w'.session.evaluators at he
    rw [hsession] at he
    exact ⟨e, he, hid, hup⟩
  cases hasker : w.session.jobs[j]? with
  | none => simp [jobStep?, hasker] at hstep
  | some asker =>
    obtain ⟨after, hjobstep⟩ := act_job hasker hstep
    by_cases hi : j = i
    · subst hi
      obtain rfl : after = job' := Option.some.inj (hjobstep.after.symm.trans hjob')
      have hcalm := Interrupted.safe_step hacc hsound hshared hasker
        (fun _ => hjobstep.actor ▸ hsame hraised) hjobstep.turn hasks
      rw [hpending] at hcalm
      cases hcalm
    · rw [hjobstep.other (Ne.symm hi)] at hjob'
      have hasked := hacc.asked_of_unheard (unheard_waiting hjob' hasks)
      have hstate := hacc.settles_other hjobstep (Ne.symm hi) hasked
      have hpromised := hpledged i job' tag hjob' hasks (hstate.isPending_of hpending)
        (hsame hraised)
      unfold Promised
      rw [hsession]
      exact hpromised

lemma Pledged.step (hpledged : w.Pledged) (hacc : w.Accounts n) (hledger : w.traffic.Ledger h)
    (hsound : w.traffic.Sound) (hshared : w.traffic.Shared) {action : Action}
    (hstep : w.step? action = some w') : w'.Pledged := by
  by_cases hjobs : ∃ j, action = .job j
  · obtain ⟨j, rfl⟩ := hjobs
    exact hpledged.job hacc hsound hshared hstep
  · intro i job' tag hjob' hasks hpending hraised
    have hact : w.act? (.turn (.step action)) = some w' := hstep
    have hsettling := act_settling hsound (by simpa using hjobs) hact
    obtain ⟨shown, hmove⟩ := act_move hsound hact
    have hbefore : w.asking i = some (.waiting, tag) := by
      rw [← hsettling.asking i, asking, hjob', Option.bind_some, hasks]
    obtain ⟨job, hjob, hjobasks⟩ := Option.bind_eq_some_iff.1 hbefore
    obtain ⟨kept, hkept, hactor, -⟩ := hmove.job_kept hjob
    obtain rfl : kept = job' := Option.some.inj (hkept.symm.trans hjob')
    have hpromise := hpledged i job tag hjob hjobasks
      ((hsettling.prompts.state tag).1.isPending_of hpending)
    rw [← hactor] at hpromise
    refine (step_promised hsound (hactor ▸ hledger.mem_ids hjob) hpromise hraised
      hstep).resolve_right fun hsettled => ?_
    have hcalm := (hacc.act hsound hact).pending_of_settled hjob' hasks hsettled
    rw [hpending] at hcalm
    cases hcalm

end prompts

section runs

variable {o : Traffic} {last : World} {actions : List Action}

theorem run_induction {P : World → Prop} (start : P w)
    (next : ∀ w₁ action w₂, P w₁ → w₁.step? action = some w₂ → P w₂)
    (hrun : w.run? actions = some last) : P last := by
  induction actions generalizing w with
  | nil =>
    cases hrun
    exact start
  | cons action rest ih =>
    simp only [run?, Option.bind_eq_bind, Option.bind_eq_some_iff] at hrun
    obtain ⟨w₁, hstep, hrest⟩ := hrun
    exact ih (next w action w₁ start hstep) hrest

/-- What holds of a session at any time: its evaluators are accounted for, and its questions. -/
structure Tended (o : Traffic) (w : World) : Prop where
  kept : ∃ n, w.Kept o n
  staged : w.Staged
  evaluators : ∀ id, w.session.Accounted w.session.closes (.evaluator id)
  pledged : w.Pledged

lemma Tended.sound (hblank : o.Blank) (h : w.Tended o) : w.traffic.Sound := by
  obtain ⟨n, ⟨shown, hrun⟩, -⟩ := h.kept
  exact hblank.toSound.run hrun

lemma Tended.carries (hblank : o.Blank) (h : w.Tended o) {action : Action}
    (hstep : w.step? action = some w') : w.Carries w' :=
  carries_step (h.sound hblank) h.staged hstep

lemma Tended.step (hblank : o.Blank) (h : w.Tended o) {action : Action}
    (hstep : w.step? action = some w') : w'.Tended o := by
  obtain ⟨n, hkept⟩ := h.kept
  obtain ⟨shown, hrun⟩ := hkept.run
  have hsound := h.sound hblank
  have hact : w.act? (.turn (.step action)) = some w' := hstep
  exact {
    kept := ⟨_, hkept.act hblank hact⟩
    staged := step_staged hsound h.staged hstep
    evaluators := fun id => (h.carries hblank hstep).handles _ (h.evaluators id)
    pledged := h.pledged.step hkept.accounts (.run hblank hrun) hsound (.run hblank hrun) hstep }

lemma opened_tended (image : Image) (id : Nat) (host : Host) (wantsOutput : Bool)
    (outputPort : Option UInt16) (connection : Connection) :
    (opened image id host wantsOutput outputPort connection).Tended
      (opened image id host wantsOutput outputPort connection).traffic where
  kept := ⟨[], ⟨[], .start⟩, opened_accounts⟩
  staged := ⟨fun _ => rfl, fun _ => rfl⟩
  evaluators id := .inl fun e he => by cases he
  pledged i job tag hjob := by cases hjob

lemma run_tended (hblank : o.Blank) (h : w.Tended o) (hrun : w.run? actions = some last) :
    last.Tended o ∧ w.Carries last := by
  refine run_induction (P := fun w₁ => w₁.Tended o ∧ w.Carries w₁) ⟨h, .refl _ _⟩ ?_ hrun
  rintro w₁ action w₂ ⟨h₁, hcarries⟩ hstep
  exact ⟨h₁.step hblank hstep, hcarries.trans (h₁.carries hblank hstep)⟩

end runs

/-- When all closes have returned, what is accounted for has been stopped. -/
lemma stopped_of_accounted {c : List ClosePhase} (hclosed : w.session.closed = true)
    (hdone : ∀ p ∈ c, p = .ended) {hd : Handle} (h : w.session.Accounted c hd) :
    w.session.IsStopped hd := by
  rcases h with hs | ⟨-, hopen | htaking⟩ | ⟨rest, hkilling, -⟩
  · exact hs
  · rw [hclosed] at hopen
    cases hopen
  · cases hdone _ htaking
  · cases hdone _ hkilling

lemma silent_of_muted (hclosed : w.session.closed = true)
    (hdone : ∀ p ∈ w.session.closes, p = .ended) (h : w.session.Muted w.session.closes) :
    w.session.output.installed = false := by
  rcases h.2 with hinstalled | hopen | ⟨p, hp, hunder⟩
  · exact hinstalled
  · rw [hclosed] at hopen
    cases hopen
  · rw [hdone p hp] at hunder
    cases hunder

/-- A question that is left when all closes have returned is one whose job has not looked at its
flag since it asked, or whose evaluator's flag is not raised, or that control is about to abort. -/
lemma Tended.left {o : Traffic} (h : w.Tended o) (hdone : ∀ p ∈ w.session.closes, p = .ended)
    {tag : Nat} {x : Prompt} (hx : w.session.prompts.prompt? tag = some x)
    (hpending : x.state.isPending = true) : ∃ job ∈ w.session.jobs, job.actor = x.actor ∧
      ∃ phase, job.asks? = some (phase, tag) ∧ (phase.isChecked = true →
        w.session.control = .aborting x.actor ∨
        ∀ e ∈ w.session.evaluators, e.id = x.actor → e.raised = false) := by
  obtain ⟨n, hkept⟩ := h.kept
  obtain ⟨i, job, phase, hjob, hactor, hasks, hphase, -⟩ := hkept.accounts.pending hx hpending
  refine ⟨job, List.mem_of_getElem? hjob, hactor, phase, hasks, fun hchecked => ?_⟩
  cases phase with
  | showing | looking | aborting => cases hchecked
  | withdrawing => exact absurd rfl hphase
  | waiting =>
    by_cases hraised : w.traffic.Raised job.actor
    · have hstate : (w.session.prompts.state tag).isPending = true := by
        rw [Prompts.state, hx]
        exact hpending
      rcases h.pledged i job tag hjob hasks hstate hraised with habort | ⟨p, hp, hkilling⟩
      · exact .inl (hactor ▸ habort)
      · rw [hdone p hp] at hkilling
        cases hkilling
    · refine .inr fun e he hid => ?_
      by_contra hup
      exact hraised ⟨e, he, hid.trans hactor.symm, by simpa using hup⟩

/-- Whatever steps are taken, and however many close the session: once it has been closed and all
closes have returned, every evaluator that was ever started has been killed or has ended, and so
has every actor and helper whose handle was on the table at some time before that was taken. No
stream that was installed before that is installed; a question is left only where its job has still
to look at its flag, where the flag is not raised, or where control is about to abort it; and a
further close changes nothing. -/
theorem teardown_reaches {image : Image} {id : Nat} {host : Host} {wantsOutput : Bool}
    {outputPort : Option UInt16} {connection : Connection} {before after : List Action}
    {w last : World} (hfresh : image.mailboxes.Fresh)
    (hbefore : (opened image id host wantsOutput outputPort connection).run? before = some w)
    (huntaken : w.session.Untaken w.session.closes) (hafter : w.run? after = some last)
    (hclosed : last.session.closed = true) (hdone : ∀ p ∈ last.session.closes, p = .ended) :
    (∀ e ∈ last.session.evaluators, e.IsStopped) ∧
    (∀ hd ∈ w.session.table.handles, last.session.IsStopped hd) ∧
    (w.session.output.phase ∈ [OutputPhase.serving, .failing, .ended] →
      last.session.output.installed = false) ∧
    (∀ tag x, last.session.prompts.prompt? tag = some x → x.state.isPending = true →
      ∃ job ∈ last.session.jobs, job.actor = x.actor ∧
        ∃ phase, job.asks? = some (phase, tag) ∧ (phase.isChecked = true →
          last.session.control = .aborting x.actor ∨
          ∀ e ∈ last.session.evaluators, e.id = x.actor → e.raised = false)) ∧
    last.closeStep? .marking = some (last, .ended) := by
  have hblank := opened_blank hfresh id host wantsOutput outputPort connection
  have hopened := opened_tended image id host wantsOutput outputPort connection
  obtain ⟨htended, -⟩ := run_tended hblank hopened hbefore
  obtain ⟨hlast, hcarries⟩ := run_tended hblank htended hafter
  refine ⟨fun e he => ?_, fun hd hmem => ?_, fun hphase => ?_, fun tag x => hlast.left hdone, ?_⟩
  · exact stopped_of_accounted hclosed hdone (hlast.evaluators e.id) e he rfl
  · have hdue : w.session.Accounted w.session.closes hd := .inr (.inl ⟨hmem, huntaken⟩)
    exact stopped_of_accounted hclosed hdone (hcarries.handles hd hdue)
  · have hmuted : w.session.Muted w.session.closes :=
      ⟨hphase, .inr (huntaken.imp_right fun htaking => ⟨.taking, htaking, rfl⟩)⟩
    exact silent_of_muted hclosed hdone (hcarries.output hmuted)
  · simp [closeStep?, hclosed]

/-- A session with a dedicated stream, to which the client has connected. -/
def streaming : World :=
  opened {} 1 ⟨"1", ".", [], .spawn, .utf8, 3⟩ true (some 4005) {}

def streamingStart : List Action :=
  List.replicate 8 .serve ++ [.connectOutput, .output]

/-- Two close the session at a time. -/
def closing : List Action :=
  [.beginClose, .close 0, .beginClose, .close 1] ++ List.replicate 8 (.close 0)

theorem teardown_reaches_started : ∃ w last, streaming.run? streamingStart = some w ∧
    w.session.table.handles = [.reader, .control, .evaluator 3, .output] ∧
    w.session.output.installed = true ∧ w.run? closing = some last ∧
    (∀ hd ∈ w.session.table.handles, last.session.IsStopped hd) ∧
    last.session.output.installed = false := by
  have hall : (streaming.run? streamingStart).any (fun w =>
      w.session.table.handles = [.reader, .control, .evaluator 3, .output] ∧
      w.session.output.phase = .serving ∧ w.session.output.installed = true ∧
      w.session.closed = false ∧ (w.run? closing).any fun last =>
        last.session.closed = true ∧ ∀ p ∈ last.session.closes, p = .ended) = true := by
    decide +kernel
  obtain ⟨w, hbefore, hshows⟩ := (Option.any_eq_true _ _).1 hall
  obtain ⟨hhandles, hphase, hinstalled, hopen, hrest⟩ := of_decide_eq_true hshows
  obtain ⟨last, hafter, hends⟩ := (Option.any_eq_true _ _).1 hrest
  obtain ⟨hclosed, hdone⟩ := of_decide_eq_true hends
  have hfresh : Mailboxes.Fresh {} := fun _ _ => rfl
  obtain ⟨-, hstopped, hsilent, -⟩ :=
    teardown_reaches hfresh hbefore (.inl hopen) hafter hclosed hdone
  exact ⟨w, last, hbefore, hhandles, hinstalled, hafter, hstopped, hsilent (by simp [hphase])⟩

/-- The session is closed before its service starts anything. -/
def closedEarly : List Action :=
  .beginClose :: List.replicate 5 (.close 0) ++ List.replicate 5 .serve ++
    [.endInput, .reader, .reader] ++ List.replicate 3 .serve

/-- A control loop whose handle is entered after a close has taken the table is never stopped:
the service enters it without looking whether the session is closed, and its own close, which comes
second, does nothing. -/
theorem teardown_misses_control : ∃ last, sample.run? closedEarly = some last ∧
    last.session.service = .ended ∧ last.session.closed = true ∧
    (∀ p ∈ last.session.closes, p = .ended) ∧ last.session.table.control = true ∧
    last.session.control = .receiving ∧ ¬ last.session.IsStopped .control := by
  have hall : (sample.run? closedEarly).any (fun last =>
      last.session.service = .ended ∧ last.session.closed = true ∧
      (∀ p ∈ last.session.closes, p = .ended) ∧ last.session.table.control = true ∧
      last.session.control = .receiving ∧ last.session.controlKilled = false) = true := by
    decide +kernel
  obtain ⟨last, hrun, hshows⟩ := (Option.any_eq_true _ _).1 hall
  obtain ⟨hservice, hclosed, hdone, hentered, hcontrol, hkilled⟩ := of_decide_eq_true hshows
  refine ⟨last, hrun, hservice, hclosed, hdone, hentered, hcontrol, ?_⟩
  simp [Session.IsStopped, hcontrol, hkilled]

end World

end EvalServer
