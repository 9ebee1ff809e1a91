import EvalServer.Proofs.Session.Evaluation
import EvalServer.Proofs.Session.History
import Mathlib.Logic.Function.Basic

/-!
# One evaluator and its requests

A `Desk` is what a run shows of one evaluator: where it stands, what waits for it, its jobs, and
what it has been handed and has sent. `Desk.Traced` cuts what it has sent into the blocks of the
evaluations it has finished and the start of the block under way; every step keeps it.
-/

namespace EvalServer

structure Desk where
  phase : EvaluatorPhase
  worker : Bool
  killed : Bool
  queue : List Message
  /-- The evaluator's jobs, by their positions among all jobs. -/
  job : Nat → Option Job
  handed : List Work
  sent : List Message
  hinted : List (String × List Hint)

structure Progress where
  finished : List Evaluation
  /-- The request under way. -/
  held : Option Work := none
  said : List Message := []
  noted : List (String × List Hint) := []

namespace Desk

variable (host : Host) (streams : Bool) (a : ActorId)

/-- What can happen at the desk of evaluator `a`. -/
inductive Step (d : Desk) : Desk → Prop
  | kill (killed : Bool) : (d.killed = true → killed = true) → Step d { d with killed }
  | get (work : Work) :
      Step d { d with queue := d.queue ++ [.evaluate work], handed := d.handed ++ [work] }
  | take {work : Work} {rest : List Message} : d.phase = .receiving →
      d.queue = .evaluate work :: rest → Step d { d with queue := rest, phase := .taken work }
  | begin {work : Work} {i : Nat} : d.phase = .taken work → d.job i = none →
      Step d { d with
        phase := .evaluating work i, job := Function.update d.job i (work.job host a) }
  | judge {work : Work} {i : Nat} {ns : String} {result : Except EvalError Sexp} :
      d.phase = .evaluating work i →
      (∀ job, d.job i = some job → job.phase = .ended result ∧ job.ns = ns) →
      Step d { d with phase := .ofResult a work ns result }
  | announce {work : Work} {value : Sexp} {ns : String} : d.phase = .announcing work value ns →
      Step d { d with
        phase := .hinting work value ns, sent := d.sent ++ Evaluation.announcement work ns }
  | hint {work : Work} {value : Sexp} {ns : String} (missing : List Hint) :
      d.phase = .hinting work value ns →
      Step d { d with
        phase := .posting (work.report a value missing), hinted := d.hinted ++ [(ns, missing)] }
  | post {m : Message} {rest : List Message} : d.phase = .posting (m :: rest) →
      Step d { d with phase := .posting rest, sent := d.sent ++ [m] }
  | finish : d.phase = .posting [] →
      Step d { d with phase := if d.worker then .leaving else .receiving }
  | leave : d.phase = .leaving → Step d { d with phase := .ended }
  | die : (d.phase = .receiving ∨ ∃ work i, d.phase = .evaluating work i) → d.killed = true →
      Step d { d with phase := .ended }
  | compute {i : Nat} {job job' : Job} {messages : List Message} : d.job i = some job →
      job.isEnded = false → job'.actor = a → (∀ work said, job.Computes host streams work said →
        job'.Computes host streams work (said ++ messages)) →
      Step d { d with
        job := Function.update d.job i job', sent := d.sent ++ messages }

def Idle (d : Desk) : Prop :=
  ∀ i job, d.job i = some job → job.isEnded = true

/-- Only the job of a position may run, and it has sent `said` for a request. -/
def Busy (d : Desk) (i : Nat) (work : Work) (said : List Message) : Prop :=
  (∃ job, d.job i = some job ∧ job.actor = a ∧ job.Computes host streams work said) ∧
    ∀ j job, j ≠ i → d.job j = some job → job.isEnded = true

/-- A worker has not finished anything yet. -/
def Unused (d : Desk) (finished : List Evaluation) : Prop :=
  d.worker = true → finished = []

/-- How far an evaluator has come in each of its phases. -/
inductive Stage (d : Desk) : EvaluatorPhase → Progress → Prop
  | receiving {finished : List Evaluation} : d.Idle → d.Unused finished →
      Stage d .receiving ⟨finished, none, [], []⟩
  | taken {finished : List Evaluation} {work : Work} : d.Idle → d.Unused finished →
      Stage d (.taken work) ⟨finished, some work, [], []⟩
  | evaluating {finished : List Evaluation} {work : Work} {i : Nat} {said : List Message} :
      d.Busy host streams a i work said → d.Unused finished →
      Stage d (.evaluating work i) ⟨finished, some work, said, []⟩
  | announcing {finished : List Evaluation} {work : Work} {value : Sexp} {ns : String}
      {said : List Message} : d.Idle → d.Unused finished →
      Evaluation.Genuine host streams a ⟨work, said, .ok value, ns, []⟩ →
      Stage d (.announcing work value ns) ⟨finished, some work, said, []⟩
  | hinting {finished : List Evaluation} {work : Work} {value : Sexp} {ns : String}
      {console : List Message} : d.Idle → d.Unused finished →
      Evaluation.Genuine host streams a ⟨work, console, .ok value, ns, []⟩ →
      Stage d (.hinting work value ns)
        ⟨finished, some work, console ++ Evaluation.announcement work ns, []⟩
  | posting {finished : List Evaluation} {v : Evaluation} {said rest : List Message} : d.Idle →
      d.Unused finished → v.Genuine host streams a → v.block a = said ++ rest → rest ≠ [] →
      Stage d (.posting rest) ⟨finished, some v.work, said, v.hints?.toList⟩
  | posted {finished : List Evaluation} : d.Idle →
      (d.worker = true → finished.length = 1) → Stage d (.posting []) ⟨finished, none, [], []⟩
  | leaving {finished : List Evaluation} : d.Idle → d.worker = true → finished.length = 1 →
      Stage d .leaving ⟨finished, none, [], []⟩
  | left {finished : List Evaluation} : d.Idle → d.worker = true → finished.length = 1 →
      Stage d .ended ⟨finished, none, [], []⟩
  | killed {finished : List Evaluation} : d.Idle → d.Unused finished → d.killed = true →
      Stage d .ended ⟨finished, none, [], []⟩
  /-- The job of a killed evaluator goes on. -/
  | orphaned {finished : List Evaluation} {work : Work} {i : Nat} {said : List Message} :
      d.Busy host streams a i work said → d.Unused finished → d.killed = true →
      Stage d .ended ⟨finished, some work, said, []⟩

/-- What an evaluator has been handed and has sent, as far as it has come. -/
structure Traced (d : Desk) (p : Progress) : Prop where
  handed : d.handed.map .evaluate =
    (p.finished.map Evaluation.work ++ p.held.toList).map .evaluate ++ d.queue
  sent : d.sent = p.finished.flatMap (·.block a) ++ p.said
  hinted : d.hinted = p.finished.filterMap Evaluation.hints? ++ p.noted
  genuine : ∀ v ∈ p.finished, v.Genuine host streams a
  stage : d.Stage host streams a d.phase p

variable {host streams a} {d d' : Desk} {p : Progress}

namespace Stage

lemma congr {phase : EvaluatorPhase} (h : d.Stage host streams a phase p)
    (hworker : d'.worker = d.worker) (hkilled : d.killed = true → d'.killed = true)
    (hjob : d'.job = d.job) : d'.Stage host streams a phase p := by
  have hidle : d.Idle → d'.Idle := fun hi i job => hjob ▸ hi i job
  have hunused : ∀ {finished}, d.Unused finished → d'.Unused finished :=
    fun hu hw => hu (hworker ▸ hw)
  have hbusy : ∀ {i work said}, d.Busy host streams a i work said →
      d'.Busy host streams a i work said := by
    rintro i work said ⟨hone, hothers⟩
    exact ⟨hjob ▸ hone, hjob ▸ hothers⟩
  cases h with
  | receiving hi hu => exact .receiving (hidle hi) (hunused hu)
  | taken hi hu => exact .taken (hidle hi) (hunused hu)
  | evaluating hb hu => exact .evaluating (hbusy hb) (hunused hu)
  | announcing hi hu hv => exact .announcing (hidle hi) (hunused hu) hv
  | hinting hi hu hv => exact .hinting (hidle hi) (hunused hu) hv
  | posting hi hu hv hblock hne => exact .posting (hidle hi) (hunused hu) hv hblock hne
  | posted hi hu => exact .posted (hidle hi) fun hw => hu (hworker ▸ hw)
  | leaving hi hw hlen => exact .leaving (hidle hi) (hworker ▸ hw) hlen
  | left hi hw hlen => exact .left (hidle hi) (hworker ▸ hw) hlen
  | killed hi hu hk => exact .killed (hidle hi) (hunused hu) (hkilled hk)
  | orphaned hb hu hk => exact .orphaned (hbusy hb) (hunused hu) (hkilled hk)

/-- A job only runs while its evaluator waits for it, or was killed while it did. -/
lemma busy {phase : EvaluatorPhase} (h : d.Stage host streams a phase p) (hrun : ¬ d.Idle) :
    ∃ finished work i said, p = ⟨finished, some work, said, []⟩ ∧
      d.Busy host streams a i work said ∧ d.Unused finished ∧
      (phase = .evaluating work i ∨ phase = .ended ∧ d.killed = true) := by
  cases h with
  | evaluating hb hu => exact ⟨_, _, _, _, rfl, hb, hu, .inl rfl⟩
  | orphaned hb hu hk => exact ⟨_, _, _, _, rfl, hb, hu, .inr ⟨rfl, hk⟩⟩
  | receiving hi => exact absurd hi hrun
  | taken hi => exact absurd hi hrun
  | announcing hi => exact absurd hi hrun
  | hinting hi => exact absurd hi hrun
  | posting hi => exact absurd hi hrun
  | posted hi => exact absurd hi hrun
  | leaving hi => exact absurd hi hrun
  | left hi => exact absurd hi hrun
  | killed hi => exact absurd hi hrun

lemma exists_current {phase : EvaluatorPhase} (h : d.Stage host streams a phase p) :
    ∃ current : List Evaluation, current.map Evaluation.work = p.held.toList ∧
      (∀ v ∈ current, v.Genuine host streams a) ∧ p.said <+: current.flatMap (·.block a) ∧
      p.noted <+: current.filterMap Evaluation.hints? := by
  have one : ∀ (v : Evaluation) (said : List Message) (noted : List (String × List Hint)),
      v.Genuine host streams a → said <+: v.block a → noted <+: v.hints?.toList →
      ∃ current : List Evaluation, current.map Evaluation.work = [v.work] ∧
        (∀ v ∈ current, v.Genuine host streams a) ∧ said <+: current.flatMap (·.block a) ∧
        noted <+: current.filterMap Evaluation.hints? := by
    intro v said noted hv hsaid hnoted
    refine ⟨[v], rfl, by simpa using hv, by simpa using hsaid, ?_⟩
    cases hhints : v.hints? <;> simpa [hhints] using hnoted
  have busy : ∀ {i work said}, d.Busy host streams a i work said →
      ∃ current : List Evaluation, current.map Evaluation.work = [work] ∧
        (∀ v ∈ current, v.Genuine host streams a) ∧ said <+: current.flatMap (·.block a) ∧
        [] <+: current.filterMap Evaluation.hints? := by
    rintro i work said ⟨⟨job, -, hactor, hcomputes⟩, -⟩
    obtain ⟨v, rfl, hv, hsaid⟩ := hcomputes.exists_evaluation
    exact one v said [] (hactor ▸ hv) (hsaid.trans (v.console_isPrefix a)) List.nil_prefix
  cases h with
  | evaluating hb => exact busy hb
  | orphaned hb => exact busy hb
  | @taken _ work =>
    obtain ⟨vs, hvs, hgenuine⟩ := Evaluation.exists_of_works host streams a [work]
    exact ⟨vs, hvs, hgenuine, List.nil_prefix, List.nil_prefix⟩
  | @announcing _ work value ns said _ _ hv =>
    let v : Evaluation := ⟨work, said, .ok value, ns, []⟩
    exact one v said [] hv (v.console_isPrefix a) List.nil_prefix
  | hinting _ _ hv =>
    refine one _ _ [] hv ?_ List.nil_prefix
    simp [Evaluation.block, Evaluation.report, Evaluation.update]
  | @posting _ v said rest _ _ hv hblock =>
    exact one v said _ hv (hblock ▸ List.prefix_append said rest) (List.prefix_refl _)
  | receiving => exact ⟨[], rfl, by simp, List.nil_prefix, List.nil_prefix⟩
  | posted => exact ⟨[], rfl, by simp, List.nil_prefix, List.nil_prefix⟩
  | leaving => exact ⟨[], rfl, by simp, List.nil_prefix, List.nil_prefix⟩
  | left => exact ⟨[], rfl, by simp, List.nil_prefix, List.nil_prefix⟩
  | killed => exact ⟨[], rfl, by simp, List.nil_prefix, List.nil_prefix⟩

end Stage

lemma Busy.compute {i j : Nat} {work : Work} {said messages : List Message} {job job' : Job}
    (h : d.Busy host streams a i work said) (hjob : d.job j = some job)
    (hended : job.isEnded = false) (hactor : job'.actor = a)
    (hcomputes : ∀ work said, job.Computes host streams work said →
      job'.Computes host streams work (said ++ messages))
    (hd' : d'.job = Function.update d.job j job') :
    d'.Busy host streams a i work (said ++ messages) := by
  obtain ⟨⟨running, hget, -, hrunning⟩, hothers⟩ := h
  have hji : j = i := by
    by_contra hne
    have hend := hothers j job hne hjob
    rw [hended] at hend
    cases hend
  subst hji
  have heq : running = job := Option.some.inj (hget.symm.trans hjob)
  subst heq
  refine ⟨⟨job', ?_, hactor, hcomputes work said hrunning⟩, ?_⟩
  · rw [hd', Function.update_self]
  · intro k other hne hother
    rw [hd', Function.update_of_ne hne] at hother
    exact hothers k other hne hother

lemma Idle.begin {i : Nat} {work : Work} (h : d.Idle)
    (hd' : d'.job = Function.update d.job i (work.job host a)) :
    d'.Busy host streams a i work [] := by
  refine ⟨⟨work.job host a, ?_, rfl, Work.job_computes host streams work a⟩, ?_⟩
  · rw [hd', Function.update_self]
  · intro j job hne hget
    rw [hd', Function.update_of_ne hne] at hget
    exact h j job hget

/-- Once its job has ended, an evaluator has the result of an evaluation and no job runs. -/
lemma Busy.ended {i : Nat} {work : Work} {said : List Message} {ns : String}
    {result : Except EvalError Sexp} (h : d.Busy host streams a i work said)
    (hresult : ∀ job, d.job i = some job → job.phase = .ended result ∧ job.ns = ns) :
    d.Idle ∧ Evaluation.Genuine host streams a ⟨work, said, result, ns, []⟩ := by
  obtain ⟨⟨job, hget, hactor, hcomputes⟩, hothers⟩ := h
  obtain ⟨hend, hns⟩ := hresult job hget
  constructor
  · intro j other hother
    by_cases hji : j = i
    · subst hji
      have heq : other = job := Option.some.inj (hother.symm.trans hget)
      simp [heq, Job.isEnded, hend]
    · exact hothers j other hji hother
  · unfold Job.Computes at hcomputes
    rw [hend, hactor, hns] at hcomputes
    exact hcomputes

namespace Traced

lemma take {work : Work} {rest : List Message} (h : d.Traced host streams a p)
    (hphase : d.phase = .receiving) (hqueue : d.queue = .evaluate work :: rest) :
    ∃ p', Traced host streams a { d with queue := rest, phase := .taken work } p' := by
  obtain ⟨hhanded, hsent, hhinted, hgenuine, hstage⟩ := h
  rw [hphase] at hstage
  cases hstage with
  | @receiving finished hidle hunused =>
    refine ⟨⟨finished, some work, [], []⟩, ?_, hsent, hhinted, hgenuine, .taken hidle hunused⟩
    rw [hhanded, hqueue]
    simp

lemma judge {work : Work} {i : Nat} {ns : String} {result : Except EvalError Sexp}
    (h : d.Traced host streams a p) (hphase : d.phase = .evaluating work i)
    (hresult : ∀ job, d.job i = some job → job.phase = .ended result ∧ job.ns = ns) :
    ∃ p', Traced host streams a { d with phase := .ofResult a work ns result } p' := by
  obtain ⟨hhanded, hsent, hhinted, hgenuine, hstage⟩ := h
  rw [hphase] at hstage
  cases hstage with
  | @evaluating finished _ _ said hbusy hunused =>
    obtain ⟨hidle, hv⟩ := hbusy.ended hresult
    cases result with
    | ok value => exact ⟨_, hhanded, hsent, hhinted, hgenuine, .announcing hidle hunused hv⟩
    | error e =>
      have hstage : Stage host streams a { d with phase := .ofResult a work ns (.error e) }
          (.ofResult a work ns (.error e)) ⟨finished, some work, said, []⟩ := by
        refine .posting (v := ⟨work, said, .error e, ns, []⟩) hidle hunused hv ?_ (by simp)
        simp [Evaluation.block, Evaluation.report, Evaluation.status]
      exact ⟨_, hhanded, hsent, hhinted, hgenuine, hstage⟩

lemma hint {work : Work} {value : Sexp} {ns : String} (missing : List Hint)
    (h : d.Traced host streams a p) (hphase : d.phase = .hinting work value ns) :
    ∃ p', Traced host streams a
      { d with
        phase := .posting (work.report a value missing), hinted := d.hinted ++ [(ns, missing)] }
      p' := by
  obtain ⟨hhanded, hsent, hhinted, hgenuine, hstage⟩ := h
  rw [hphase] at hstage
  cases hstage with
  | @hinting finished _ _ _ console hidle hunused hv =>
    let v : Evaluation := ⟨work, console, .ok value, ns, missing⟩
    refine ⟨⟨finished, some work, console ++ Evaluation.announcement work ns, v.hints?.toList⟩,
      hhanded, hsent, ?_, hgenuine, .posting (v := v) hidle hunused hv ?_ ?_⟩
    · simp [hhinted, v, Evaluation.hints?]
    · simp [v, Evaluation.block, Evaluation.report, Evaluation.status, Evaluation.update,
        Work.report]
    · simp [Work.report]

/-- With the last message of its block an evaluation is finished. -/
lemma post {m : Message} {rest : List Message} (h : d.Traced host streams a p)
    (hphase : d.phase = .posting (m :: rest)) :
    ∃ p', Traced host streams a { d with phase := .posting rest, sent := d.sent ++ [m] } p' := by
  obtain ⟨hhanded, hsent, hhinted, hgenuine, hstage⟩ := h
  rw [hphase] at hstage
  cases hstage with
  | @posting finished v said _ hidle hunused hv hblock hne =>
    cases rest with
    | nil =>
      refine ⟨⟨finished ++ [v], none, [], []⟩, ?_, ?_, ?_, ?_, .posted hidle ?_⟩
      · simpa using hhanded
      · simp [hsent, hblock]
      · cases hhints : v.hints? <;> simp [hhinted, hhints]
      · intro u hu
        rcases List.mem_append.1 hu with hu | hu
        · exact hgenuine u hu
        · rwa [List.mem_singleton.1 hu]
      · intro hworker
        simp [hunused hworker]
    | cons m' rest =>
      refine ⟨⟨finished, some v.work, said ++ [m], v.hints?.toList⟩, hhanded, ?_, hhinted,
        hgenuine, .posting hidle hunused hv ?_ (by simp)⟩
      · simp [hsent]
      · simp [hblock]

lemma compute {i : Nat} {job job' : Job} {messages : List Message}
    (h : d.Traced host streams a p) (hjob : d.job i = some job) (hended : job.isEnded = false)
    (hactor : job'.actor = a)
    (hcomputes : ∀ work said, job.Computes host streams work said →
      job'.Computes host streams work (said ++ messages)) :
    ∃ p', Traced host streams a
      { d with job := Function.update d.job i job', sent := d.sent ++ messages } p' := by
  obtain ⟨hhanded, hsent, hhinted, hgenuine, hstage⟩ := h
  have hrun : ¬ d.Idle := by
    intro hidle
    have hend := hidle i job hjob
    rw [hended] at hend
    cases hend
  obtain ⟨finished, work, k, said, rfl, hbusy, hunused, hphase⟩ := hstage.busy hrun
  have hsent' : d.sent ++ messages = finished.flatMap (·.block a) ++ (said ++ messages) := by
    rw [hsent, List.append_assoc]
  refine ⟨⟨finished, some work, said ++ messages, []⟩, hhanded, hsent', hhinted, hgenuine, ?_⟩
  rcases hphase with hphase | ⟨hphase, hkilled⟩
  · rw [hphase]
    exact .evaluating (hbusy.compute hjob hended hactor hcomputes rfl) hunused
  · rw [hphase]
    exact .orphaned (hbusy.compute hjob hended hactor hcomputes rfl) hunused hkilled

lemma step (h : d.Traced host streams a p) (hstep : d.Step host streams a d') :
    ∃ p', d'.Traced host streams a p' := by
  cases hstep with
  | kill killed hkilled => exact ⟨p, { h with stage := h.stage.congr rfl hkilled rfl }⟩
  | get work =>
    refine ⟨p, { h with handed := ?_, stage := h.stage.congr rfl id rfl }⟩
    simp [h.handed]
  | take hphase hqueue => exact h.take hphase hqueue
  | begin hphase hjob =>
    obtain ⟨hhanded, hsent, hhinted, hgenuine, hstage⟩ := h
    rw [hphase] at hstage
    cases hstage with
    | taken hidle hunused =>
      exact ⟨_, hhanded, hsent, hhinted, hgenuine, .evaluating (hidle.begin rfl) hunused⟩
  | judge hphase hresult => exact h.judge hphase hresult
  | @announce work value ns hphase =>
    obtain ⟨hhanded, hsent, hhinted, hgenuine, hstage⟩ := h
    rw [hphase] at hstage
    cases hstage with
    | @announcing finished _ _ _ said hidle hunused hv =>
      refine ⟨⟨finished, some work, said ++ Evaluation.announcement work ns, []⟩, hhanded, ?_,
        hhinted, hgenuine, .hinting hidle hunused hv⟩
      simp [hsent]
  | hint missing hphase => exact h.hint missing hphase
  | post hphase => exact h.post hphase
  | finish hphase =>
    obtain ⟨hhanded, hsent, hhinted, hgenuine, hstage⟩ := h
    rw [hphase] at hstage
    cases hstage with
    | posting _ _ _ _ hne => exact absurd rfl hne
    | @posted finished hidle hone =>
      by_cases hworker : d.worker = true
      · rw [if_pos hworker]
        exact ⟨_, hhanded, hsent, hhinted, hgenuine, .leaving hidle hworker (hone hworker)⟩
      · rw [if_neg hworker]
        exact ⟨_, hhanded, hsent, hhinted, hgenuine,
          .receiving hidle fun hw => absurd hw hworker⟩
  | leave hphase =>
    obtain ⟨hhanded, hsent, hhinted, hgenuine, hstage⟩ := h
    rw [hphase] at hstage
    cases hstage with
    | leaving hidle hworker hone =>
      exact ⟨_, hhanded, hsent, hhinted, hgenuine, .left hidle hworker hone⟩
  | die hphase hkilled =>
    obtain ⟨hhanded, hsent, hhinted, hgenuine, hstage⟩ := h
    rcases hphase with hphase | ⟨work, i, hphase⟩
    · rw [hphase] at hstage
      cases hstage with
      | receiving hidle hunused =>
        exact ⟨_, hhanded, hsent, hhinted, hgenuine, .killed hidle hunused hkilled⟩
    · rw [hphase] at hstage
      cases hstage with
      | evaluating hbusy hunused =>
        exact ⟨_, hhanded, hsent, hhinted, hgenuine, .orphaned hbusy hunused hkilled⟩
  | compute hjob hended hactor hcomputes => exact h.compute hjob hended hactor hcomputes

lemma exists_waiting (h : d.Traced host streams a p) : ∃ waiting : List Work,
    d.queue = waiting.map .evaluate ∧
      d.handed = p.finished.map Evaluation.work ++ p.held.toList ++ waiting := by
  obtain ⟨before, waiting, hsplit, hbefore, hwaiting⟩ := List.map_eq_append_iff.1 h.handed
  have hinj : ∀ v w : Work, Message.evaluate v = .evaluate w → v = w :=
    fun _ _ heq => Message.evaluate.inj heq
  exact ⟨waiting, hwaiting.symm, by rw [hsplit, List.map_inj_right hinj |>.1 hbefore]⟩

theorem exists_evaluations (h : d.Traced host streams a p) : ∃ vs : List Evaluation,
    vs.map Evaluation.work = d.handed ∧ (∀ v ∈ vs, v.Genuine host streams a) ∧
      d.sent <+: vs.flatMap (·.block a) ∧ d.hinted <+: vs.filterMap Evaluation.hints? := by
  obtain ⟨waiting, -, hhanded⟩ := h.exists_waiting
  obtain ⟨current, hcurrent, hgenuine, hsaid, hnoted⟩ := h.stage.exists_current
  obtain ⟨others, hothers, hgenuine'⟩ := Evaluation.exists_of_works host streams a waiting
  refine ⟨p.finished ++ (current ++ others), ?_, ?_, ?_, ?_⟩
  · rw [hhanded, List.map_append, List.map_append, hcurrent, hothers, List.append_assoc]
  · intro v hv
    rcases List.mem_append.1 hv with hv | hv
    · exact h.genuine v hv
    · exact (List.mem_append.1 hv).elim (hgenuine v) (hgenuine' v)
  · rw [h.sent, List.flatMap_append, List.flatMap_append, List.prefix_append_right_inj]
    exact hsaid.trans (List.prefix_append _ _)
  · rw [h.hinted, List.filterMap_append, List.filterMap_append, List.prefix_append_right_inj]
    exact hnoted.trans (List.prefix_append _ _)

end Traced

end Desk

end EvalServer
