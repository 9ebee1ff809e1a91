import EvalServer.Proofs.Session.Teardown

/-!
# The end of a session

Once the service has entered the handles of reader and control loop, and nobody has closed the
session before, a close finds all its actors on the table. When it has returned and nothing more
can happen, they have ended, and nothing brings one of them back.
-/

namespace EvalServer

open Traffic

namespace ServePhase

/-- How far the service has come. -/
def stage : ServePhase → Nat
  | .absent => 0
  | .startingControl => 1
  | .startingReader => 2
  | .recording => 3
  | .startingRepl => 4
  | .opening => 5
  | .recordingOutput _ => 6
  | .announcingOutput _ => 7
  | .starting => 8
  | .serving => 9
  | .closing _ => 10
  | .ended => 11

/-- Whether the handles of reader and control loop have been entered. -/
def isRecorded : ServePhase → Bool
  | .absent | .startingControl | .startingReader | .recording => false
  | _ => true

/-- Whether all handles have been entered. -/
def isOpen : ServePhase → Bool
  | .announcingOutput _ | .starting | .serving | .closing _ | .ended => true
  | _ => false

lemma stage_of_isRecorded {phase : ServePhase} (h : phase.isRecorded = true) : 3 < phase.stage := by
  cases phase with
  | absent | startingControl | startingReader | recording => cases h
  | _ => simp [stage]

lemma stage_of_isOpen {phase : ServePhase} (h : phase.isOpen = true) : 6 < phase.stage := by
  cases phase with
  | announcingOutput | starting | serving | closing | ended => simp [stage]
  | _ => cases h

end ServePhase

/-- All that a session has started for its client has ended. -/
structure Session.IsDead (s : Session) : Prop where
  service : s.service = .ended
  reader : s.reader = .ended
  control : s.control = .ended
  evaluators : ∀ e ∈ s.evaluators, e.phase = .ended

/-- There is no task that serves a dedicated stream, or it has ended. -/
def Output.IsQuiet (o : Output) : Prop :=
  o.phase = .absent ∨ o.phase = .ended

namespace World

/-- What the closes that have begun find: once started an actor is there, and on the table until
somebody closes the session. -/
structure Enrolled (c : List ClosePhase) (w : World) : Prop where
  control : 1 < w.session.service.stage → w.session.control ≠ .absent
  reader : 2 < w.session.service.stage → w.session.reader ≠ .absent
  marked : ∀ p ∈ c, p.isUnderWay = true → w.session.closed = true
  recorded : 3 < w.session.service.stage → w.session.closed = false →
    w.session.table.reader = true ∧ w.session.table.control = true
  output : 6 < w.session.service.stage → w.session.closed = false →
    w.session.output.phase = .absent ∨ w.session.table.output = true

variable {w w' : World} {c c' x : List ClosePhase}

section steps

/-- A close finds the session marked, or marks it. -/
lemma closed_of_closeStep {p p' : ClosePhase} (hmarked : p.isUnderWay = true →
    w.session.closed = true) (h : w.closeStep? p = some (w', p')) : w'.session.closed = true := by
  cases p with
  | marking =>
    simp only [closeStep?] at h
    split at h
    · cases h
      assumption
    · cases h
      rfl
  | taking | aborting | silencing =>
    cases h
    exact hmarked rfl
  | killing handles =>
    cases handles with
    | nil =>
      cases h
      exact hmarked rfl
    | cons handle rest =>
      cases h
      obtain ⟨_, _, _, _, hkill, -⟩ := kill_frame w.session handle
      simp only [change, hkill]
      exact hmarked rfl
  | ended => cases h

/-- A close does not take its mark back. -/
lemma closed_mono {p p' : ClosePhase} (hclosed : w.session.closed = true)
    (h : w.closeStep? p = some (w', p')) : w'.session.closed = true :=
  closed_of_closeStep (fun _ => hclosed) h

end steps

/-! ## The account -/

/-- What a step leaves of the account of a session, of which others may have closes under way. -/
structure Bears (w : World) (c c' : List ClosePhase) (w' : World) : Prop where
  enrolled : w.Enrolled c → w'.Enrolled c'
  accounted : ∀ hd, w.session.Accounted c hd → w'.session.Accounted c' hd
  stage : w.session.service.stage ≤ w'.session.service.stage
  closed : w.session.closed = true → w'.session.closed = true
  silent : w.session.service ≠ .opening → w.session.output.phase = .absent →
    w'.session.output.phase = .absent

/-- Reader and control loop are accounted for. -/
structure Manned (c : List ClosePhase) (w : World) : Prop where
  recorded : 3 < w.session.service.stage
  reader : w.session.Accounted c .reader
  control : w.session.Accounted c .control

/-- The task that serves the dedicated stream is accounted for, if there is one. -/
structure Piped (c : List ClosePhase) (w : World) : Prop where
  opened : 6 < w.session.service.stage
  output : w.session.output.phase = .absent ∨ w.session.Accounted c .output

section bearing

lemma Enrolled.manned (h : w.Enrolled c) (hopen : w.session.closed = false)
    (hrecorded : w.session.service.isRecorded = true) : w.Manned c := by
  have hstage := ServePhase.stage_of_isRecorded hrecorded
  obtain ⟨hreader, hcontrol⟩ := h.recorded hstage hopen
  exact ⟨hstage, .inr (.inl ⟨Session.mem_handles.2 (.inl ⟨rfl, hreader⟩), .inl hopen⟩),
    .inr (.inl ⟨Session.mem_handles.2 (.inr (.inl ⟨rfl, hcontrol⟩)), .inl hopen⟩)⟩

lemma Enrolled.piped (h : w.Enrolled c) (hopen : w.session.closed = false)
    (hopened : w.session.service.isOpen = true) : w.Piped c := by
  have hstage := ServePhase.stage_of_isOpen hopened
  refine ⟨hstage, (h.output hstage hopen).imp_right fun houtput => ?_⟩
  exact .inr (.inl ⟨Session.mem_handles.2 (.inr (.inr (.inr ⟨rfl, houtput⟩))), .inl hopen⟩)

lemma Bears.manned (h : w.Bears c c' w') (hmanned : w.Manned c) : w'.Manned c' :=
  ⟨Nat.lt_of_lt_of_le hmanned.recorded h.stage, h.accounted _ hmanned.reader,
    h.accounted _ hmanned.control⟩

lemma Bears.piped (h : w.Bears c c' w') (hpiped : w.Piped c) : w'.Piped c' := by
  have hopened : w.session.service ≠ .opening := by
    intro hopening
    have hstage := hpiped.opened
    simp [hopening, ServePhase.stage] at hstage
  exact ⟨Nat.lt_of_lt_of_le hpiped.opened h.stage,
    hpiped.output.imp (h.silent hopened) (h.accounted _)⟩


/-- A session that does not change bears what the closes of others have come to. -/
lemma bears_same (hsession : w'.session = w.session)
    (hcloses : ∀ p : ClosePhase, p.isUnderWay = true → (p ∈ c ↔ p ∈ c')) : w.Bears c c' w' := by
  refine ⟨fun h => ?_, fun hd h => ?_, Nat.le_of_eq (by rw [hsession]), by rw [hsession]; exact id,
    by rw [hsession]; exact fun _ => id⟩
  · exact ⟨hsession ▸ h.control, hsession ▸ h.reader,
      fun p hp hunder => hsession ▸ h.marked p ((hcloses p hunder).2 hp) hunder,
      hsession ▸ h.recorded, hsession ▸ h.output⟩
  · rw [hsession]
    refine h.imp_right (.imp (.imp_right (.imp_right (hcloses _ rfl).1)) ?_)
    rintro ⟨rest, hkilling, hmem⟩
    exact ⟨rest, (hcloses _ rfl).1 hkilling, hmem⟩

lemma bears_close {p p' : ClosePhase} (l r : List ClosePhase)
    (h : w.closeStep? p = some (w', p')) : w.Bears (l ++ p :: r) (l ++ p' :: r) w' := by
  obtain ⟨-, _, _, _, _, _, _, _, _, hsession, -⟩ := closeStep_frame h
  refine ⟨fun henrolled => ?_, (carries_closeStep l r h).handles, Nat.le_of_eq (by rw [hsession]),
    (closed_mono · h), by rw [hsession]; exact fun _ => id⟩
  have hclosed : w'.session.closed = true :=
    closed_of_closeStep (henrolled.marked p (by simp)) h
  have hopen : w'.session.closed ≠ false := by simp [hclosed]
  refine ⟨?_, ?_, fun _ _ _ => hclosed, fun _ h => absurd h hopen, fun _ h => absurd h hopen⟩
  · rw [hsession]
    exact henrolled.control
  · rw [hsession]
    exact henrolled.reader

/-- A session bears the step of one of its own closes. -/
lemma bears_on (hon : w.ClosesOn w')
    (hstage : w'.session.service.stage = w.session.service.stage) :
    w.Bears (w.session.closes ++ x) (w'.session.closes ++ x) w' := by
  obtain ⟨p, p', l, r, w₁, hclose, hbefore, hafter, service, closers, hsession⟩ := hon
  have hbears := bears_close l (r ++ x) hclose
  obtain ⟨-, _, _, _, _, _, _, _, _, hframe, -⟩ := closeStep_frame hclose
  have hstage₁ : w'.session.service.stage = w₁.session.service.stage := by
    rw [hstage, hframe]
  rw [hbefore, hafter, List.append_assoc, List.append_assoc, List.cons_append, List.cons_append]
  rw [hsession] at hstage₁
  refine ⟨fun h => ?_, fun hd h => ?_, ?_, ?_, ?_⟩
  · obtain ⟨hcontrol, hreader, hmarked, hrecorded, houtput⟩ := hbears.enrolled h
    rw [← hstage₁] at hcontrol hreader hrecorded houtput
    exact ⟨hsession ▸ hcontrol, hsession ▸ hreader, hsession ▸ hmarked, hsession ▸ hrecorded,
      hsession ▸ houtput⟩
  · have hacc := hbears.accounted hd h
    rw [hsession]
    cases hd <;> exact hacc
  · exact Nat.le_of_eq hstage.symm
  · rw [hsession]
    exact hbears.closed
  · rw [hsession]
    exact hbears.silent

lemma Rests.bears (hrests : w.Rests w') (hcarries : w.Carries w') :
    w.Bears (w.session.closes ++ x) (w'.session.closes ++ x) w' := by
  have hsame := hrests.table
  simp only [Prod.mk.injEq] at hsame
  obtain ⟨hr, hc, ho⟩ := hsame
  refine ⟨fun h => ?_, fun hd => hcarries.extend x, Nat.le_of_eq (by rw [hrests.service]),
    by rw [hrests.closed]; exact id, fun _ => hrests.output.2⟩
  refine ⟨fun hs => mt hrests.control.1 (h.control ?_), fun hs => mt hrests.reader.1 (h.reader ?_),
    fun p hp hunder => ?_, fun hs hclosed => ?_, fun hs hclosed => ?_⟩
  · rwa [hrests.service] at hs
  · rwa [hrests.service] at hs
  · rw [hrests.closed]
    refine h.marked p ?_ hunder
    simp only [Session.closes, hrests.service, List.mem_append] at hp ⊢
    refine hp.imp_left (Or.imp_right fun hp => ?_)
    rcases hrests.closers with heq | heq
    · rwa [heq] at hp
    · -- a close that has only begun is not under way
      rw [heq, List.mem_append, List.mem_singleton] at hp
      refine hp.resolve_right ?_
      rintro rfl
      cases hunder
  · rw [hr, hc]
    exact h.recorded (hrests.service ▸ hs) (hrests.closed ▸ hclosed)
  · rw [ho]
    exact (h.output (hrests.service ▸ hs) (hrests.closed ▸ hclosed)).imp_left hrests.output.2

/-- The service goes on, and closes nothing yet. -/
lemma bears_go (hcarries : w.Carries w')
    (hsame : (w'.session.closed, w'.session.closers) = (w.session.closed, w.session.closers))
    (hcalm : ∀ p, w'.session.service.close? = some p → p.isUnderWay = false)
    (hstage : w.session.service.stage ≤ w'.session.service.stage)
    (hsilent : w.session.service ≠ .opening → w.session.output.phase = .absent →
      w'.session.output.phase = .absent)
    (hnew : w.Enrolled (w.session.closes ++ x) →
      (1 < w'.session.service.stage → w'.session.control ≠ .absent) ∧
      (2 < w'.session.service.stage → w'.session.reader ≠ .absent) ∧
      (3 < w'.session.service.stage → w.session.closed = false →
        w'.session.table.reader = true ∧ w'.session.table.control = true) ∧
      (6 < w'.session.service.stage → w.session.closed = false →
        w'.session.output.phase = .absent ∨ w'.session.table.output = true)) :
    w.Bears (w.session.closes ++ x) (w'.session.closes ++ x) w' := by
  simp only [Prod.mk.injEq] at hsame
  obtain ⟨hclosed, hclosers⟩ := hsame
  refine ⟨fun h => ?_, fun hd => hcarries.extend x, hstage, by rw [hclosed]; exact id, hsilent⟩
  obtain ⟨hcontrol, hreader, hrecorded, houtput⟩ := hnew h
  refine ⟨hcontrol, hreader, fun p hp hunder => ?_, by rwa [hclosed], by rwa [hclosed]⟩
  rw [hclosed]
  refine h.marked p ?_ hunder
  simp only [Session.closes, hclosers, List.mem_append, Option.mem_toList] at hp ⊢
  refine hp.imp_left (Or.imp_left fun hp => ?_)
  rw [hcalm p hp] at hunder
  cases hunder

lemma bears_serve (hstaged : w.Staged) (hcarries : w.Carries w') (h : w.serveStep? = some w') :
    w.Bears (w.session.closes ++ x) (w'.session.closes ++ x) w' := by
  have hserve := h
  unfold serveStep? at h
  cases hservice : w.session.service with
  | absent | ended => simp [hservice] at h
  | startingControl | startingReader | recording | recordingOutput | announcingOutput | starting =>
    simp only [hservice, Option.some.injEq] at h
    subst h
    refine bears_go hcarries rfl (by rintro p ⟨⟩) ?_ (fun _ => id) fun henrolled => ?_
    · simp [hservice, ServePhase.stage, goServe, change]
    · obtain ⟨hcontrol, hreader, -, hrecorded, houtput⟩ := henrolled
      simp_all [ServePhase.stage, goServe, goControl, goReader, emit, tell, send, change]
  | startingRepl =>
    simp only [hservice, Option.some.injEq] at h
    subst h
    have hphase : w.session.output.phase = .absent := hstaged.output (by simp [hservice])
    obtain ⟨-, _, _, _, _, hsession, -⟩ := ensureRepl_frame w
    refine bears_go hcarries (by simp only [goServe, change, hsession]) ?_ ?_ ?_ fun henrolled => ?_
    · simp only [goServe, change]
      split <;> rintro p ⟨⟩
    · simp only [goServe, change, hservice]
      split <;> decide
    · simp only [goServe, change, hsession]
      exact fun _ => id
    · obtain ⟨hcontrol, hreader, -, hrecorded, -⟩ := henrolled
      simp_all [ServePhase.stage, goServe, change]
  | opening =>
    have hphase : w.session.output.phase = .absent := hstaged.output (by simp [hservice])
    simp only [hservice] at h
    split at h <;> cases h
    all_goals
      refine bears_go hcarries rfl (by rintro p ⟨⟩) ?_ (absurd hservice) fun henrolled => ?_
      · simp [hservice, ServePhase.stage, goServe, change]
      · obtain ⟨hcontrol, hreader, -, hrecorded, -⟩ := henrolled
        simp_all [ServePhase.stage, goServe, changeOutput, change]
  | serving =>
    simp only [hservice] at h
    split at h <;> cases h
    refine bears_go hcarries rfl ?_ ?_ (fun _ => id) fun henrolled => ?_
    · rintro p ⟨⟩
      rfl
    · simp [hservice, ServePhase.stage, goServe, change]
    · obtain ⟨hcontrol, hreader, -, hrecorded, houtput⟩ := henrolled
      simp_all [ServePhase.stage, goServe, change]
  | closing phase =>
    cases hclose : w.closeStep? phase with
    | some next =>
      have hon : w.ClosesOn w' := (serve_on hservice hserve).resolve_right (by
        rintro ⟨rfl, -⟩
        cases hclose)
      refine bears_on hon ?_
      simp only [hservice, hclose, Option.some.injEq] at h
      subst h
      rw [hservice]
      rfl
    | none =>
      simp only [hservice, hclose, Option.some.injEq] at h
      subst h
      refine bears_go hcarries rfl (by rintro p ⟨⟩) ?_ (fun _ => id) fun henrolled => ?_
      · simp [hservice, ServePhase.stage, goServe, change]
      · obtain ⟨hcontrol, hreader, -, hrecorded, houtput⟩ := henrolled
        simp_all [ServePhase.stage, goServe, change]

/-- A session bears each of its steps. -/
theorem bears_step (hsound : w.traffic.Sound) (hstaged : w.Staged) {action : Action}
    (h : w.step? action = some w') :
    w.Bears (w.session.closes ++ x) (w'.session.closes ++ x) w' := by
  have hcarries := carries_step hsound hstaged h
  by_cases hserve : action = .serve
  · subst hserve
    exact bears_serve hstaged hcarries h
  · by_cases hclose : ∃ i, action = .close i
    · obtain ⟨i, rfl⟩ := hclose
      refine bears_on (closer_on h) ?_
      rw [step_service hsound hserve h]
    · exact (step_rests hsound hserve (fun i hi => hclose ⟨i, hi⟩) h).bears hcarries

/-- To start the service changes nothing yet. -/
lemma bears_start (habsent : w.session.service = .absent) :
    w.Bears (w.session.closes ++ x) (w.start.session.closes ++ x) w.start := by
  have hcarries : w.Carries w.start := by
    refine carries_closes (fun p hp _ => ?_) rfl
    simpa [Session.closes, habsent, World.start, goServe, change, ServePhase.close?] using hp
  refine bears_go hcarries rfl (by rintro p ⟨⟩) ?_ (fun _ => id) fun _ => ?_
  · simp [habsent, ServePhase.stage]
  · simp [ServePhase.stage, World.start, goServe, change]

end bearing

/-! ## The end -/

section ending

/-- A kill, like the rest of a close, ends no evaluator by itself and starts none. -/
lemma close_evaluators {p p' : ClosePhase} (h : w.closeStep? p = some (w', p')) :
    ∀ e' ∈ w'.session.evaluators, ∃ e ∈ w.session.evaluators, e'.phase = e.phase := by
  have same : w'.session.evaluators = w.session.evaluators →
      ∀ e' ∈ w'.session.evaluators, ∃ e ∈ w.session.evaluators, e'.phase = e.phase :=
    fun heq e' he' => ⟨e', heq ▸ he', rfl⟩
  cases p with
  | marking =>
    simp only [closeStep?] at h
    split at h <;> cases h <;> exact same rfl
  | taking | aborting | silencing =>
    cases h
    exact same rfl
  | killing handles =>
    cases handles with
    | nil =>
      cases h
      exact same rfl
    | cons handle rest =>
      cases h
      cases handle with
      | reader | control | output => exact same rfl
      | evaluator a =>
        intro e' he'
        obtain ⟨e, he, rfl⟩ := List.mem_map.1 he'
        exact ⟨e, he, by split <;> rfl⟩
  | ended => cases h

lemma dead_close {p p' : ClosePhase} (hdead : w.session.IsDead)
    (h : w.closeStep? p = some (w', p')) :
    w'.session.IsDead ∧ (w.session.output.IsQuiet → w'.session.output.IsQuiet) := by
  obtain ⟨-, _, _, _, _, _, _, _, _, hsession, -⟩ := closeStep_frame h
  refine ⟨⟨?_, ?_, ?_, fun e' he' => ?_⟩, ?_⟩
  · rw [hsession]
    exact hdead.service
  · rw [hsession]
    exact hdead.reader
  · rw [hsession]
    exact hdead.control
  · obtain ⟨e, he, hphase⟩ := close_evaluators h e' he'
    rw [hphase, hdead.evaluators e he]
  · rw [hsession]
    exact id

/-- Nothing brings an actor of a dead session back. -/
theorem dead_step (hdead : w.session.IsDead) {action : Action} (h : w.step? action = some w') :
    w'.session.IsDead ∧ (w.session.output.IsQuiet → w'.session.output.IsQuiet) := by
  have ended : ∀ {a : ActorId} {e : Evaluator}, w.session.evaluator? a = some e →
      e.phase = .ended :=
    fun hfind => hdead.evaluators _ (List.mem_of_find?_eq_some hfind)
  cases action with
  | serve => simp [step?, serveStep?, hdead.service] at h
  | reader => simp [step?, readerStep?, hdead.reader] at h
  | control => simp [step?, controlStep?, hdead.control] at h
  | evaluator a =>
    simp only [step?, evaluatorStep?, Option.bind_eq_bind, Option.bind_eq_some_iff] at h
    obtain ⟨e, hfind, h⟩ := h
    simp [ended hfind, evaluatorPhase?] at h
  | job index =>
    obtain ⟨-, _, _, _, hsession⟩ := job_frame h
    rw [hsession]
    exact ⟨⟨hdead.service, hdead.reader, hdead.control, hdead.evaluators⟩, id⟩
  | output =>
    obtain ⟨output, rfl⟩ := output_frame (.inl h)
    refine ⟨⟨hdead.service, hdead.reader, hdead.control, hdead.evaluators⟩, fun hquiet => ?_⟩
    rcases hquiet with hphase | hphase <;> simp [step?, outputStep?, hphase] at h
  | connectOutput =>
    obtain ⟨output, rfl⟩ := output_frame (.inr (.inl h))
    refine ⟨⟨hdead.service, hdead.reader, hdead.control, hdead.evaluators⟩, fun hquiet => ?_⟩
    rcases hquiet with hphase | hphase <;> simp [step?, connectOutput?, hphase] at h
  | close index =>
    obtain ⟨p, p', w₁, -, hclose, rfl⟩ := closer_spec h
    obtain ⟨hdead₁, hquiet⟩ := dead_close hdead hclose
    exact ⟨⟨hdead₁.service, hdead₁.reader, hdead₁.control, hdead₁.evaluators⟩, hquiet⟩
  | finish handle =>
    cases handle with
    | reader => simp [step?, finish?, readerEnd?, hdead.reader] at h
    | control => simp [step?, finish?, controlEnd?, hdead.control] at h
    | evaluator a =>
      simp only [step?, finish?, evaluatorEnd?, Option.bind_eq_bind, Option.bind_eq_some_iff] at h
      obtain ⟨e, hfind, h⟩ := h
      simp [ended hfind] at h
    | output =>
      obtain ⟨output, rfl⟩ := output_frame (.inr (.inr h))
      refine ⟨⟨hdead.service, hdead.reader, hdead.control, hdead.evaluators⟩, fun hquiet => ?_⟩
      rcases hquiet with hphase | hphase <;> simp [step?, finish?, outputEnd?, hphase] at h
  | cut calls => simp [step?, cutShort?, hdead.control] at h
  | wake index =>
    obtain ⟨jobs, rfl⟩ := wake_frame h
    exact ⟨⟨hdead.service, hdead.reader, hdead.control, hdead.evaluators⟩, id⟩
  | deliver arrival =>
    simp only [step?] at h
    split at h <;> cases h
    exact ⟨⟨hdead.service, hdead.reader, hdead.control, hdead.evaluators⟩, id⟩
  | endInput | hangUp | beginClose =>
    cases h
    exact ⟨⟨hdead.service, hdead.reader, hdead.control, hdead.evaluators⟩, id⟩

/-- At rest, closes have returned. -/
lemma closes_of_rest (hrest : ∀ action ∈ agenda w.session, w.step? action = none) :
    ∀ p ∈ w.session.closes, p = .ended := by
  intro p hp
  rcases List.mem_append.1 hp with hp | hp
  · -- a service that closes the session goes on, or leaves
    have hserve := hrest .serve (by simp [agenda])
    obtain ⟨phase, hservice⟩ : ∃ phase, w.session.service = .closing phase := by
      rw [Option.mem_toList] at hp
      cases hservice : w.session.service with
      | closing phase => exact ⟨phase, rfl⟩
      | _ =>
        rw [hservice] at hp
        cases hp
    simp only [step?, serveStep?, hservice] at hserve
    split at hserve <;> cases hserve
  · obtain ⟨i, hi, rfl⟩ := List.mem_iff_getElem.1 hp
    have hclose := hrest (.close i) (by simpa [agenda] using hi)
    simp only [step?, closerStep?, List.getElem?_eq_getElem hi, Option.bind_eq_bind,
      Option.bind_some, Option.pure_def, Option.bind_eq_none_iff] at hclose
    refine closeStep?_eq_none (w := w) (Option.eq_none_iff_forall_ne_some.2 fun x hx => ?_)
    exact absurd (hclose x hx) (by simp)

/-- At rest a killed reader has ended: it waits, and ends where it does. -/
lemma reader_of_rest (hrest : ∀ action ∈ agenda w.session, w.step? action = none)
    (hpresent : w.session.reader ≠ .absent) (hstopped : w.session.IsStopped .reader) :
    w.session.reader = .ended := by
  rcases hstopped with hkilled | hended
  · have hfinish := hrest (.finish .reader) (by simp [agenda])
    cases hphase : w.session.reader with
    | absent => exact absurd hphase hpresent
    | waiting | reading => simp [step?, finish?, readerEnd?, hphase, hkilled] at hfinish
    | ended => rfl
  · exact hended

lemma control_of_rest (hrest : ∀ action ∈ agenda w.session, w.step? action = none)
    (hpresent : w.session.control ≠ .absent) (hstopped : w.session.IsStopped .control) :
    w.session.control = .ended := by
  rcases hstopped with hkilled | hended
  · have hfinish := hrest (.finish .control) (by simp [agenda])
    have hstep := hrest .control (by simp [agenda])
    cases hphase : w.session.control with
    | absent => exact absurd hphase hpresent
    | receiving | writing => simp [step?, finish?, controlEnd?, hphase, hkilled] at hfinish
    | entering | handing | aborting => simp [step?, controlStep?, hphase] at hstep
    | raising target =>
      simp only [step?, controlStep?, hphase] at hstep
      split at hstep <;> cases hstep
    | ended => rfl
  · exact hended

lemma evaluator_of_rest (hsound : w.traffic.Sound)
    (hrest : ∀ action ∈ agenda w.session, w.step? action = none) {e : Evaluator}
    (he : e ∈ w.session.evaluators) (hstopped : e.IsStopped) : e.phase = .ended := by
  have hfind : w.session.evaluator? e.id = some e := evaluator?_of_mem hsound he
  rcases hstopped with hkilled | hended
  · have hfinish := hrest (.finish (.evaluator e.id)) (by
      simp only [agenda, List.mem_append, List.mem_map]
      exact .inl (.inl (.inl (.inl (.inr ⟨e.id, ⟨e, he, rfl⟩, rfl⟩)))))
    have hstep := hrest (.evaluator e.id) (by
      simp only [agenda, List.mem_append, List.mem_map]
      exact .inl (.inr ⟨e.id, ⟨e, he, rfl⟩, rfl⟩))
    simp only [step?, finish?, evaluatorEnd?, evaluatorStep?, hfind, Option.bind_eq_bind,
      Option.bind_some, Option.pure_def] at hfinish hstep
    cases hphase : e.phase with
    | receiving | evaluating => simp [hphase, hkilled] at hfinish
    | posting messages => cases messages <;> simp [hphase, evaluatorPhase?] at hstep
    | taken | announcing | hinting | leaving => simp [hphase, evaluatorPhase?] at hstep
    | ended => rfl
  · exact hended

lemma output_of_rest (hrest : ∀ action ∈ agenda w.session, w.step? action = none)
    (hstopped : w.session.IsStopped .output) : w.session.output.IsQuiet := by
  rcases hstopped with hkilled | hended
  · have hfinish := hrest (.finish .output) (by simp [agenda])
    have hstep := hrest .output (by simp [agenda])
    cases hphase : w.session.output.phase with
    | absent => exact .inl hphase
    | listening | serving => simp [step?, finish?, outputEnd?, hphase, hkilled] at hfinish
    | connected | failing => simp [step?, outputStep?, hphase] at hstep
    | ended => exact .inr hphase
  · exact .inr hended

/-- The service of a session whose reader has ended goes on until it leaves. -/
lemma service_of_rest (hrest : ∀ action ∈ agenda w.session, w.step? action = none)
    (hstarted : 0 < w.session.service.stage) (hreader : w.session.reader = .ended) :
    w.session.service = .ended := by
  have hserve := hrest .serve (by simp [agenda])
  simp only [step?, serveStep?] at hserve
  cases hservice : w.session.service with
  | absent => simp [hservice, ServePhase.stage] at hstarted
  | ended => rfl
  | opening | closing =>
    simp only [hservice] at hserve
    split at hserve <;> cases hserve
  | serving => simp [hservice, hreader] at hserve
  | _ => simp [hservice] at hserve

/-- A session all of whose actors are accounted for is dead once it has been closed, all closes
have returned and nothing more can happen. -/
theorem dead_of_rest (hsound : w.traffic.Sound) (henrolled : w.Enrolled c) (hmanned : w.Manned c)
    (hevaluators : ∀ id, w.session.Accounted c (.evaluator id))
    (hclosed : w.session.closed = true) (hdone : ∀ p ∈ c, p = .ended)
    (hrest : ∀ action ∈ agenda w.session, w.step? action = none) : w.session.IsDead := by
  have hstage := hmanned.recorded
  have hended : w.session.reader = .ended :=
    reader_of_rest hrest (henrolled.reader (by omega))
      (stopped_of_accounted hclosed hdone hmanned.reader)
  refine ⟨service_of_rest hrest (by omega) hended, hended, ?_, fun e he => ?_⟩
  · exact control_of_rest hrest (henrolled.control (by omega))
      (stopped_of_accounted hclosed hdone hmanned.control)
  · have hstopped := stopped_of_accounted hclosed hdone (hevaluators e.id)
    exact evaluator_of_rest hsound hrest he (hstopped e he rfl)

lemma Piped.quiet_of_rest (hpiped : w.Piped c) (hclosed : w.session.closed = true)
    (hdone : ∀ p ∈ c, p = .ended) (hrest : ∀ action ∈ agenda w.session, w.step? action = none) :
    w.session.output.IsQuiet :=
  hpiped.output.elim .inl fun hacc =>
    output_of_rest hrest (stopped_of_accounted hclosed hdone hacc)

end ending

end World

end EvalServer
