import EvalServer.Proofs.Server.Sessions
import EvalServer.Proofs.Session.Quitting

/-!
# Who requests to quit

Nobody who waits for the quit signal sleeps through a request. In a server the jobs of all sessions
may request to quit, and any number of tasks wait for that. The request of a job takes two steps,
and nothing but these and the steps of those who wait touches the signal. So where the flag is set
and no job is between the two steps, nobody sleeps who has not been woken.
-/

namespace EvalServer

open Traffic

/-- Whether a job has set the flag and has still to wake those who wait. -/
def Job.isWaking (job : Job) : Bool :=
  match job.phase with
  | .waking _ => true
  | _ => false

/-- Some job has set the flag and has still to wake those who wait. -/
def Session.IsWaking (s : Session) : Prop :=
  ∃ job ∈ s.jobs, job.isWaking = true

namespace Session

variable {s s' : Session} {i : Nat} {job : Job}

lemma IsWaking.mono (h : s.IsWaking) (hjobs : s.jobs ⊆ s'.jobs) : s'.IsWaking := by
  obtain ⟨job, hmem, hwaking⟩ := h
  exact ⟨job, hjobs hmem, hwaking⟩

/-- Another job goes on. -/
lemma IsWaking.modify (h : s.IsWaking) (hjob : s.jobs[i]? = some job)
    (hcalm : job.isWaking = false) {f : Job → Job} (hjobs : s'.jobs = s.jobs.modify i f) :
    s'.IsWaking := by
  obtain ⟨other, hmem, hwaking⟩ := h
  obtain ⟨k, hk⟩ := List.mem_iff_getElem?.1 hmem
  have hne : i ≠ k := by
    rintro rfl
    rw [hjob, Option.some.injEq] at hk
    rw [hk, hwaking] at hcalm
    cases hcalm
  refine ⟨other, List.mem_of_getElem? (i := k) ?_, hwaking⟩
  rw [hjobs, List.getElem?_modify_ne _ _ hne, hk]

lemma isWaking_setJob (hjob : s.jobs[i]? = some job) (course : Course) :
    (s.setJob i (.waking course)).IsWaking := by
  refine ⟨{ job with phase := .waking course }, List.mem_of_getElem? (i := i) ?_, rfl⟩
  simp [setJob, changeJob, hjob]

end Session

namespace World

variable {w w' : World}

/-- What a step does to the quit signal, and whether some job has still to wake those who wait. -/
inductive Signals (w w' : World) : Prop
  | still : w'.image.quit = w.image.quit → (w.session.IsWaking → w'.session.IsWaking) →
      Signals w w'
  | set : w'.image.quit = w.image.quit.set → w'.session.IsWaking → Signals w w'
  | wake : w'.image.quit = w.image.quit.wakeAll → Signals w w'

lemma waking_close {phase phase' : ClosePhase} (h : w.closeStep? phase = some (w', phase'))
    (hwaking : w.session.IsWaking) : w'.session.IsWaking := by
  obtain ⟨-, _, _, _, _, _, _, _, _, hsession, -⟩ := closeStep_frame h
  exact hwaking.mono (by rw [hsession]; exact List.Subset.refl _)

lemma waking_serve (h : w.serveStep? = some w') (hwaking : w.session.IsWaking) :
    w'.session.IsWaking := by
  unfold serveStep? at h
  cases hservice : w.session.service with
  | absent | ended => simp [hservice] at h
  | startingRepl =>
    simp only [hservice, Option.some.injEq] at h
    subst h
    obtain ⟨-, _, _, _, _, hsession, -⟩ := ensureRepl_frame w
    refine hwaking.mono ?_
    simp only [goServe, change, hsession]
    exact List.Subset.refl _
  | opening | serving =>
    simp only [hservice] at h
    split at h <;> cases h <;> exact hwaking
  | closing phase =>
    simp only [hservice] at h
    split at h
    · next w₁ _ hclose =>
      cases h
      have hclosed : w₁.session.IsWaking := waking_close hclose hwaking
      exact hclosed
    · cases h
      exact hwaking
  | _ =>
    simp only [hservice, Option.some.injEq] at h
    exact h ▸ hwaking

/-- Who is not a job, and whoever lets time go by, does not wake those who wait in a job's place. -/
lemma waking_step (hsound : w.traffic.Sound) {action : Action} (haction : ∀ i, action ≠ .job i)
    (h : w.step? action = some w') (hwaking : w.session.IsWaking) : w'.session.IsWaking := by
  have hne : w.session.readerId ≠ w.session.controlId := Nat.ne_of_lt hsound.reader_lt
  have same : w'.session.jobs = w.session.jobs → w'.session.IsWaking :=
    fun hjobs => hwaking.mono (hjobs ▸ List.Subset.refl _)
  cases action with
  | job index => exact absurd rfl (haction index)
  | serve => exact waking_serve h hwaking
  | reader =>
    obtain ⟨-, _, _, hsession⟩ := reader_frame hne h
    exact same (by rw [hsession])
  | control =>
    obtain ⟨_, _, _, _, _, _, hsession⟩ := control_frame h
    exact same (by rw [hsession])
  | evaluator a =>
    obtain ⟨-, _, jobs, _, _, hsession, hjobs, -⟩ :=
      evaluator_frame (fun e he => ne_controlId hsound he) h
    refine hwaking.mono ?_
    rw [hsession]
    rcases hjobs with rfl | ⟨work, rfl⟩
    · exact List.Subset.refl _
    · exact List.subset_append_left _ _
  | output =>
    obtain ⟨output, rfl⟩ := output_frame (.inl h)
    exact hwaking
  | connectOutput =>
    obtain ⟨output, rfl⟩ := output_frame (.inr (.inl h))
    exact hwaking
  | close index =>
    obtain ⟨p, p', w₁, -, hclose, rfl⟩ := closer_spec h
    have hclosed : w₁.session.IsWaking := waking_close hclose hwaking
    exact hclosed
  | finish handle =>
    cases handle with
    | reader => exact readerEnd_frame h ▸ hwaking
    | control =>
      obtain ⟨-, -, rfl⟩ := controlEnd_spec h
      exact hwaking
    | evaluator a => exact evaluatorEnd_frame h ▸ hwaking
    | output =>
      obtain ⟨output, rfl⟩ := output_frame (.inr (.inr h))
      exact hwaking
  | cut calls =>
    obtain ⟨_, _, -, -, rfl, rfl⟩ := cutShort_spec h
    exact hwaking
  | wake index =>
    simp only [step?, wake?, Option.bind_eq_bind, Option.bind_eq_some_iff, Option.pure_def] at h
    obtain ⟨job, hjob, h⟩ := h
    cases hphase : job.phase with
    | resting ms course =>
      simp only [hphase, Option.some.injEq] at h
      subst h
      exact hwaking.modify hjob (by simp [Job.isWaking, hphase]) rfl
    | _ => simp [hphase] at h
  | deliver arrival =>
    simp only [step?] at h
    split at h <;> cases h
    exact hwaking
  | endInput | hangUp | beginClose =>
    cases h
    exact hwaking

/-- A job that is not to wake those who wait goes on. -/
lemma signals_of_calm {i : Nat} {job : Job} (hjob : w.session.jobs[i]? = some job)
    (hcalm : job.isWaking = false) (hquit : w'.image.quit = w.image.quit)
    (hjobs : ∃ f, w'.session.jobs = w.session.jobs.modify i f) : w.Signals w' := by
  obtain ⟨f, hjobs⟩ := hjobs
  exact .still hquit fun hwaking => hwaking.modify hjob hcalm hjobs

lemma signals_job {i : Nat} (h : w.jobStep? i = some w') : w.Signals w' := by
  simp only [jobStep?, Option.bind_eq_bind, Option.bind_eq_some_iff, Option.pure_def] at h
  obtain ⟨job, hjob, h⟩ := h
  cases hphase : job.phase with
  | computing c =>
    have hcalm : job.isWaking = false := by simp [Job.isWaking, hphase]
    cases c with
    | done result =>
      simp only [hphase, Option.some.injEq] at h
      subst h
      exact signals_of_calm hjob hcalm rfl ⟨_, rfl⟩
    | step r next =>
      simp only [hphase, Option.some.injEq] at h
      subst h
      cases r with
      | requestQuit => exact .set rfl (Session.isWaking_setJob hjob _)
      | writeOutput text =>
        simp only [serve, Session.writeDedicated]
        by_cases hstream :
            (w.session.output.installed && w.session.output.phase ≠ .ended) = true
        · simp only [hstream, if_true]
          exact signals_of_calm hjob hcalm rfl ⟨_, rfl⟩
        · simp only [hstream]
          exact signals_of_calm hjob hcalm rfl ⟨_, rfl⟩
      | _ => exact signals_of_calm hjob hcalm rfl ⟨_, rfl⟩
  | printing text course =>
    simp only [hphase, Option.some.injEq] at h
    subst h
    exact signals_of_calm hjob (by simp [Job.isWaking, hphase]) rfl ⟨_, rfl⟩
  | waking course =>
    simp only [hphase, Option.some.injEq] at h
    subst h
    exact .wake rfl
  | prompting phase tag question next =>
    have hcalm : job.isWaking = false := by simp [Job.isWaking, hphase]
    simp only [hphase] at h
    cases phase with
    | showing | looking | aborting | withdrawing =>
      cases h
      exact signals_of_calm hjob hcalm rfl ⟨_, rfl⟩
    | waiting =>
      simp only [promptStep?, awaitAnswer?] at h
      split at h <;> cases h <;> exact signals_of_calm hjob hcalm rfl ⟨_, rfl⟩
  | resting | ended => simp [hphase] at h

theorem step_signals (hsound : w.traffic.Sound) {action : Action}
    (h : w.step? action = some w') : w.Signals w' := by
  by_cases hjob : ∃ i, action = .job i
  · obtain ⟨i, rfl⟩ := hjob
    exact signals_job h
  · have haction : ∀ i, action ≠ .job i := fun i hi => hjob ⟨i, hi⟩
    exact .still (step_mails hsound haction h).quit_eq (waking_step hsound haction h)

end World

namespace Server

variable {s s' : Server} {action : Action}

/-- Some job of a session has set the flag and has still to wake those who wait. -/
def IsWaking (s : Server) : Prop :=
  ∃ session ∈ s.sessions, session.IsWaking

/-- What a step does to the quit signal, and whether some job has still to wake those who wait. -/
inductive Signals (s s' : Server) : Prop
  | still : s'.image.quit = s.image.quit → (s.IsWaking → s'.IsWaking) → Signals s s'
  | join : s'.image.quit = s.image.quit.join → (s.IsWaking → s'.IsWaking) → Signals s s'
  | advance {i : Nat} : s.image.quit.step? i = some s'.image.quit →
      (s.IsWaking → s'.IsWaking) → Signals s s'
  | set : s'.image.quit = s.image.quit.set → s'.IsWaking → Signals s s'
  | wake : s'.image.quit = s.image.quit.wakeAll → Signals s s'

lemma isWaking_of_sessions (hsessions : s.sessions ⊆ s'.sessions) (h : s.IsWaking) :
    s'.IsWaking := by
  obtain ⟨session, hmem, hwaking⟩ := h
  exact ⟨session, hsessions hmem, hwaking⟩

/-- One session goes on. -/
lemma isWaking_of_set {i : Nat} {w : World} {session : Session} (hi : s.world? i = some w)
    (hsessions : s'.sessions = s.sessions.set i session)
    (hkept : w.session.IsWaking → session.IsWaking) (h : s.IsWaking) : s'.IsWaking := by
  obtain ⟨other, hmem, hwaking⟩ := h
  obtain ⟨k, hk⟩ := List.mem_iff_getElem?.1 hmem
  have hget := (world?_eq_some.1 hi).1
  by_cases hki : k = i
  · subst hki
    rw [hk, Option.some.injEq] at hget
    refine ⟨session, ?_, hkept (hget ▸ hwaking)⟩
    rw [hsessions]
    exact List.mem_set (List.getElem?_eq_some_iff.1 hk).1 session
  · refine ⟨other, List.mem_of_getElem? (i := k) ?_, hwaking⟩
    rw [hsessions, List.getElem?_set_ne (Ne.symm hki), hk]

lemma signals_inner {i : Nat} {w w' : World} (hi : s.world? i = some w) (h : w.Signals w') :
    s.Signals (s.putWorld i w') := by
  obtain ⟨hget, himage⟩ := world?_eq_some.1 hi
  cases h with
  | still hquit hkept =>
    exact .still (by rw [himage]; exact hquit) (isWaking_of_set hi rfl hkept)
  | set hquit hwaking =>
    refine .set (by rw [himage]; exact hquit) ⟨w'.session, ?_, hwaking⟩
    exact List.mem_set (List.getElem?_eq_some_iff.1 hget).1 w'.session
  | wake hquit => exact .wake (by rw [himage]; exact hquit)

lemma signals_of_same (himage : s'.image = s.image) (hsessions : s.sessions ⊆ s'.sessions) :
    s.Signals s' :=
  .still (by rw [himage]) (isWaking_of_sessions hsessions)

lemma signals_visit {v : Nat} (h : s.visitStep? v = some s') : s.Signals s' := by
  obtain ⟨visit, -, hmoves⟩ := visit_moves h
  cases hmoves with
  | load | fail | pass | refuse | leave => exact signals_of_same rfl (List.Subset.refl _)
  | create => exact .still rfl (isWaking_of_sessions (List.subset_append_left _ _))
  | @serve i w _ hw =>
    have hquit : w.start.image.quit = s.image.quit := by
      rw [(world?_eq_some.1 hw).2]
      rfl
    exact .still hquit (isWaking_of_set hw rfl id)

lemma signals_shutdown {k : Nat} (h : s.shutdownStep? k = some s') : s.Signals s' := by
  obtain ⟨phase, phase', s₁, -, hshuts, rfl⟩ := shutdown_shuts h
  cases hshuts with
  | list | stopped | take | next | closed | done => exact signals_of_same rfl (List.Subset.refl _)
  | stop port rest =>
    obtain ⟨hsessions, himage, -⟩ := s.stop_sessions port
    exact signals_of_same himage (hsessions ▸ List.Subset.refl _)
  | @close i p p' w w' rest hw hclose =>
    have hquit : w'.image.quit = s.image.quit := by
      rw [World.closeStep_image hclose, (world?_eq_some.1 hw).2]
    exact .still hquit (isWaking_of_set hw rfl (World.waking_close hclose))

lemma signals_call {index : Nat} {answer : Except String UInt16}
    (h : s.callStep? index answer = some s') : s.Signals s' := by
  obtain ⟨phase, -, hmoves⟩ := call_moves h
  cases hmoves with
  | go | enter => exact signals_of_same rfl (List.Subset.refl _)
  | written => exact .still rfl id
  | stop l =>
    obtain ⟨hsessions, himage, -⟩ := s.stop_sessions l.port
    exact signals_of_same himage (hsessions ▸ List.Subset.refl _)

lemma signals_client {v : Nat} {a : EvalServer.Action} {f : Connection → Connection}
    (horderly : s.Orderly) (h : s.clientStep? v a f = some s') : s.Signals s' := by
  cases client_moves h with
  | inside _ _ hw hstep =>
    exact signals_inner hw (World.step_signals (horderly.session _ _ hw).sound hstep)
  | outside => exact signals_of_same rfl (List.Subset.refl _)

/-- Nothing but requests and those who wait touches the quit signal. -/
theorem step_signals (horderly : s.Orderly) (h : s.step? action = some s') : s.Signals s' := by
  cases action with
  | visit v => exact signals_visit h
  | shutdown k => exact signals_shutdown h
  | call index answer => exact signals_call h
  | deliver v arrival => exact signals_client (f := (·.arrive arrival)) horderly h
  | endInput v => exact signals_client (f := fun c => { c with ended := true }) horderly h
  | session i a =>
    simp only [step?, Option.bind_eq_bind, Option.bind_eq_some_iff, Option.pure_def,
      Option.some.injEq] at h
    obtain ⟨w, hw, w', hstep, rfl⟩ := h
    exact signals_inner hw (World.step_signals (horderly.session i w hw).sound hstep)
  | waiter index =>
    simp only [step?, Option.bind_eq_bind, Option.bind_eq_some_iff, Option.pure_def,
      Option.some.injEq] at h
    obtain ⟨quit, hquit, rfl⟩ := h
    exact .advance hquit id
  | beginWait =>
    cases h
    exact .join rfl id
  | loop index =>
    obtain ⟨hsessions, himage, -⟩ := loop_still h
    exact signals_of_same himage (hsessions ▸ List.Subset.refl _)
  | connect loop =>
    simp only [step?, Option.bind_eq_bind, Option.bind_eq_some_iff, Option.pure_def] at h
    obtain ⟨l, -, h⟩ := h
    split at h <;> cases h
    exact signals_of_same rfl (List.Subset.refl _)
  | stop port =>
    cases h
    obtain ⟨hsessions, himage, -⟩ := s.stop_sessions port
    exact signals_of_same himage (hsessions ▸ List.Subset.refl _)
  | beginListen | beginRestart | beginShutdown =>
    cases h
    exact signals_of_same rfl (List.Subset.refl _)

/-- What holds of the signal of a server at any time. -/
structure Wakeful (s : Server) : Prop where
  returned : .returned ∈ s.image.quit.waiters → s.image.quit.requested = true
  heard : s.image.quit.requested = true → s.IsWaking ∨ .asleep false ∉ s.image.quit.waiters

lemma Wakeful.signals (h : s.Wakeful) (hsignals : s.Signals s') : s'.Wakeful := by
  cases hsignals with
  | still hquit hkept =>
    constructor
    · rw [hquit]
      exact h.returned
    · rw [hquit]
      exact fun hrequested => (h.heard hrequested).imp_left hkept
  | join hquit hkept =>
    constructor
    · rw [hquit]
      exact fun hmem => h.returned (by simpa [QuitSignal.join] using hmem)
    · rw [hquit]
      refine fun hrequested => (h.heard hrequested).imp hkept fun hawake hmem => hawake ?_
      simpa [QuitSignal.join] using hmem
  | @advance i hstep hkept =>
    obtain ⟨waiter, next, -, hnext, hquit⟩ := QuitSignal.step?_eq_some_iff.1 hstep
    constructor
    · rw [hquit]
      intro hmem
      rcases List.mem_or_eq_of_mem_set hmem with hold | rfl
      · exact h.returned hold
      · exact QuitSignal.advance_returned hnext
    · rw [hquit]
      intro hrequested
      refine (h.heard hrequested).imp hkept fun hawake hmem => ?_
      rcases List.mem_or_eq_of_mem_set hmem with hold | rfl
      · exact hawake hold
      · have hset : s.image.quit.requested = true := hrequested
        rw [hset] at hnext
        exact (QuitSignal.advance_requested hnext).1 rfl
  | set hquit hwaking =>
    constructor
    · rw [hquit]
      exact fun _ => rfl
    · exact fun _ => .inl hwaking
  | wake hquit =>
    constructor
    · rw [hquit]
      intro hmem
      obtain ⟨waiter, hmem, hwake⟩ := List.mem_map.1 hmem
      exact h.returned (QuitWaiter.eq_returned_of_wake hwake ▸ hmem)
    · rw [hquit]
      refine fun _ => .inr fun hmem => ?_
      obtain ⟨waiter, -, hasleep⟩ := List.mem_map.1 hmem
      exact waiter.wake_ne_asleep hasleep

/-- Whatever a server does: nobody who waits for the signal has returned unless some job has set the
flag, and once it is set nobody sleeps who has not been woken, unless some job has still to wake
them. -/
theorem wakeful_run {actions : List Action} (hnew : s.New) (hquit : s.image.quit = {})
    (hrun : s.run? actions = some s') : s'.Wakeful := by
  refine (run_induction (P := fun s => s.Orderly ∧ s.Wakeful) ⟨hnew.orderly, ?_, ?_⟩ ?_ hrun).2
  · simp [hquit]
  · simp [hquit]
  · rintro s₁ action s₂ ⟨horderly, hwakeful⟩ hstep
    exact ⟨horderly.step hstep, hwakeful.signals (step_signals horderly hstep)⟩

end Server

namespace QuitScene

variable {s : QuitScene} {moves : List QuitMove}

/-- However waiters and requests take turns: once some request has set the flag and woken all who
wait, nobody sleeps who has not been woken. So every waiter can go on until it has returned, which
takes it at most three steps, whatever the others do; and none returns unless some request has set
the flag. The signal of a server is such a one: whatever its sessions and those who wait do, nobody
who waits has returned unless a job has set the flag, and nobody sleeps through it unless a job has
still to wake them. -/
theorem no_sleeper_missed (hrun : run? {} moves = some s) :
    (.done ∈ s.requests → .asleep false ∉ s.signal.waiters ∧
      ∀ (i : Nat) (waiter : QuitWaiter), s.signal.waiters[i]? = some waiter →
        (waiter = .returned ∨ ∃ s', s.step? (.waiter i) = some s') ∧
        ∀ (more : List QuitMove) (s' : QuitScene), s.run? more = some s' →
          more.count (.waiter i) ≤ 3 ∧ ∃ waiter', s'.signal.waiters[i]? = some waiter' ∧
            (waiter' = .returned ↔ more.count (.waiter i) = waiter.stepsLeft)) ∧
    (.returned ∈ s.signal.waiters → ∃ r ∈ s.requests, r ≠ .setting) ∧
    ∀ (server server' : Server) (actions : List Server.Action), server.New →
      server.image.quit = {} → server.run? actions = some server' → server'.Wakeful := by
  have hsound := sound_blank.run hrun
  refine ⟨fun hdone => ⟨hsound.heard hdone, fun i waiter hwaiter => ⟨?_, ?_⟩⟩, fun hmem => ?_,
    fun server server' actions hnew hquit hrun => Server.wakeful_run hnew hquit hrun⟩
  · by_cases hleft : waiter = .returned
    · exact .inl hleft
    · refine .inr (exists_step hwaiter hleft fun hasleep => hsound.heard hdone ?_)
      exact hasleep ▸ List.mem_of_getElem? hwaiter
  · intro more s' hmore
    obtain ⟨waiter', hwaiter', hcount⟩ :=
      stepsLeft_run (hsound.requested hdone) hmore hwaiter
    have hthree : waiter.stepsLeft ≤ 3 := by
      cases waiter <;> simp [QuitWaiter.stepsLeft]
    refine ⟨by omega, waiter', hwaiter', ?_⟩
    rw [← QuitWaiter.stepsLeft_eq_zero_iff]
    omega
  · exact hsound.requested_iff.1 (hsound.returned hmem)

/-- One waiter sleeps and another has made itself known when the first of two requests sets the
flag; a third begins to wait between its two steps. -/
def sampleMoves : List QuitMove :=
  [.beginWait, .waiter 0, .waiter 0, .beginWait, .waiter 1, .beginRequest, .beginRequest,
    .request 0, .beginWait, .waiter 1, .waiter 2, .request 0, .request 1]

/-- Somebody waits for the signal and sleeps when a client asks its server to quit. -/
def sampleQuit : List Server.Action :=
  Server.sampleListening ++ Server.sampleVisit 0 ++
    [.beginWait, .waiter 0, .waiter 0,
      Server.sampleMessage 0 "(:emacs-rex (swank/quit-lisp) \"user\" :repl-thread 1)",
      .session 0 .reader] ++
    List.replicate 3 (.session 0 .control) ++ List.replicate 2 (.session 0 (.evaluator 3)) ++
    List.replicate 3 (.session 0 (.job 0))

theorem no_sleeper_missed_between : ∃ s s', run? {} sampleMoves = some s ∧
    .done ∈ s.requests ∧ s.signal.waiters = [.asleep true, .returned, .known true] ∧
    .asleep false ∉ s.signal.waiters ∧ (∃ r ∈ s.requests, r ≠ .setting) ∧
    s.run? [.waiter 0, .request 1, .waiter 0, .waiter 2, .waiter 0] = some s' ∧
    s'.signal.waiters[0]? = some .returned ∧
    ∃ server, Server.sample.run? sampleQuit = some server ∧
      server.image.quit = ⟨true, [.asleep true]⟩ ∧
      (server.IsWaking ∨ .asleep false ∉ server.image.quit.waiters) := by
  have hall : (run? {} sampleMoves).any (fun s => .done ∈ s.requests ∧
      s.signal.waiters = [.asleep true, .returned, .known true] ∧
      (s.run? [.waiter 0, .request 1, .waiter 0, .waiter 2, .waiter 0]).isSome) = true := by
    decide
  obtain ⟨s, hrun, hshows⟩ := (Option.any_eq_true _ _).1 hall
  obtain ⟨hdone, hwaiters, hmore⟩ := of_decide_eq_true hshows
  obtain ⟨s', hmore⟩ := Option.isSome_iff_exists.1 hmore
  have hserver : (Server.sample.run? sampleQuit).any
      (fun server => server.image.quit = ⟨true, [.asleep true]⟩) = true := by
    decide +kernel
  obtain ⟨server, hserves, hsignal⟩ := (Option.any_eq_true _ _).1 hserver
  replace hsignal := of_decide_eq_true hsignal
  obtain ⟨hheard, hreturned, hservers⟩ := no_sleeper_missed hrun
  have hwakeful := hservers Server.sample server _ Server.sample_new rfl hserves
  obtain ⟨hawake, hlater⟩ := hheard hdone
  obtain ⟨-, waiter', hwaiter', hback⟩ :=
    (hlater 0 (.asleep true) (by simp [hwaiters])).2 _ s' hmore
  refine ⟨s, s', hrun, hdone, hwaiters, hawake, hreturned (by simp [hwaiters]), hmore, ?_,
    server, hserves, hsignal, hwakeful.heard (by rw [hsignal])⟩
  rw [hwaiter', hback.2 rfl]

end QuitScene

end EvalServer
