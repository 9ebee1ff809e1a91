import EvalServer.Proofs.Session.Belongings
import EvalServer.Proofs.Session.Ending
import EvalServer.Proofs.Session.Roles

/-!
# The staff of a session

An evaluator is the REPL or a worker, and its name says which. Until somebody closes the session a
live evaluator stands at the place of its kind on the table, so that one REPL lives at most. One
that has ended is replaced under a new number; it is then no longer active, and nobody waits for an
answer to its prompts.
-/

namespace EvalServer

open Traffic

/-- What an evaluator may become: it stays who it is, and does not come back. -/
structure Evaluator.Ages (e e' : Evaluator) : Prop where
  id : e'.id = e.id
  name : e'.name = e.name
  worker : e'.worker = e.worker
  alive : e'.isAlive = true → e.isAlive = true

/-- An evaluator stands at the place of its kind. -/
def ActorTable.Seats (t : ActorTable) (e : Evaluator) : Prop :=
  if e.worker then e.id ∈ t.workers else t.repl = some e.id

namespace Evaluator.Ages

variable {e e' e'' : Evaluator}

lemma refl (e : Evaluator) : e.Ages e :=
  ⟨rfl, rfl, rfl, fun h => h⟩

lemma trans (h : e.Ages e') (h' : e'.Ages e'') : e.Ages e'' :=
  ⟨h'.id.trans h.id, h'.name.trans h.name, h'.worker.trans h.worker,
    fun ha => h.alive (h'.alive ha)⟩

lemma seats (h : e.Ages e') (t : ActorTable) : t.Seats e' ↔ t.Seats e := by
  rw [ActorTable.Seats, ActorTable.Seats, h.id, h.worker]

end Evaluator.Ages

namespace Session

/-- Evaluators are named after their kind, the workers of the table are workers, and until the
session is closed those that live are on the table. -/
structure Seated (s : Session) : Prop where
  name : ∀ e ∈ s.evaluators, e.name = if e.worker then workerName e.id else replName
  workers : ∀ a ∈ s.table.workers, ∃ e ∈ s.evaluators, e.id = a ∧ e.worker = true
  seat : s.closed = false → ∀ e ∈ s.evaluators, e.isAlive = true → s.table.Seats e

/-- Nobody starts, and who leaves the table has ended unless the session is closed. -/
structure Keeps (s s' : Session) : Prop where
  evaluators : ∃ f : Evaluator → Evaluator, (∀ e ∈ s.evaluators, e.Ages (f e)) ∧
    s'.evaluators = s.evaluators.map f
  workers : s'.table.workers ⊆ s.table.workers
  seat : s'.closed = false → s.closed = false ∧
    ∀ e ∈ s'.evaluators, e.isAlive = true → s.table.Seats e → s'.table.Seats e

variable {s s' s'' : Session}

namespace Keeps

lemma of_same (hsame : (s'.evaluators, s'.table, s'.closed) = (s.evaluators, s.table, s.closed)) :
    s.Keeps s' := by
  simp only [Prod.mk.injEq] at hsame
  obtain ⟨he, ht, hc⟩ := hsame
  refine ⟨⟨fun e => e, fun e _ => .refl e, by rw [he, List.map_id']⟩, ?_, fun hopen => ?_⟩
  · rw [ht]
    exact fun _ h => h
  · exact ⟨hc ▸ hopen, fun e _ _ hseat => ht ▸ hseat⟩

lemma trans (h : s.Keeps s') (h' : s'.Keeps s'') : s.Keeps s'' := by
  obtain ⟨f, hf, he⟩ := h.evaluators
  obtain ⟨f', hf', he'⟩ := h'.evaluators
  refine ⟨⟨f' ∘ f, fun e hmem => ?_, by rw [he', he, List.map_map]⟩,
    List.Subset.trans h'.workers h.workers, fun hopen => ?_⟩
  · exact (hf e hmem).trans (hf' _ (he ▸ List.mem_map_of_mem hmem))
  · obtain ⟨hopen', hseat'⟩ := h'.seat hopen
    obtain ⟨hopen₀, hseat⟩ := h.seat hopen'
    refine ⟨hopen₀, fun e hmem halive hs => hseat' e hmem halive ?_⟩
    rw [he', List.mem_map] at hmem
    obtain ⟨e₁, hmem₁, rfl⟩ := hmem
    have hages := hf' e₁ hmem₁
    exact (hages.seats _).2 (hseat e₁ hmem₁ (hages.alive halive) ((hages.seats _).1 hs))

/-- The evaluator of a number changes, but does not come back. -/
lemma change {a : ActorId} {f : Evaluator → Evaluator}
    (hf : ∀ e ∈ s.evaluators, e.id = a → e.Ages (f e)) : s.Keeps (s.changeEvaluator a f) := by
  refine ⟨⟨fun e => if e.id = a then f e else e, fun e hmem => ?_, rfl⟩, fun _ h => h,
    fun hopen => ⟨hopen, fun _ _ _ h => h⟩⟩
  dsimp only
  split
  · next ha => exact hf e hmem ha
  · exact .refl e

/-- Whoever marks a session or finds it marked may clear its table. -/
lemma of_closed (hclosed : s'.closed = true) (he : s'.evaluators = s.evaluators)
    (hworkers : s'.table.workers ⊆ s.table.workers) : s.Keeps s' :=
  ⟨⟨fun e => e, fun e _ => .refl e, by rw [he, List.map_id']⟩, hworkers,
    fun hopen => absurd (hclosed.symm.trans hopen) (by simp)⟩

lemma kill (s : Session) (handle : Handle) : s.Keeps (s.kill handle) := by
  cases handle with
  | reader | control | output => exact .of_same rfl
  | evaluator a => exact .change fun e _ _ => ⟨rfl, rfl, rfl, fun h => h⟩

end Keeps

namespace Seated

lemma keep (hseated : s.Seated) (h : s.Keeps s') : s'.Seated := by
  obtain ⟨f, hf, he⟩ := h.evaluators
  refine ⟨fun e' hmem => ?_, fun a ha => ?_, fun hopen e' hmem halive => ?_⟩
  · rw [he, List.mem_map] at hmem
    obtain ⟨e, hmem, rfl⟩ := hmem
    rw [(hf e hmem).name, (hf e hmem).worker, (hf e hmem).id]
    exact hseated.name e hmem
  · obtain ⟨e, hmem, hid, hworker⟩ := hseated.workers a (h.workers ha)
    refine ⟨f e, he ▸ List.mem_map_of_mem hmem, (hf e hmem).id.trans hid, ?_⟩
    rw [(hf e hmem).worker, hworker]
  · obtain ⟨hopen', hseat⟩ := h.seat hopen
    refine hseat e' hmem halive ?_
    rw [he, List.mem_map] at hmem
    obtain ⟨e, hmem, rfl⟩ := hmem
    have hages := hf e hmem
    exact (hages.seats _).2 (hseated.seat hopen' e hmem (hages.alive halive))

/-- An evaluator starts and is entered in the table. -/
lemma enter (hseated : s.Seated) {e : Evaluator} (hclosed : s'.closed = s.closed)
    (he : s'.evaluators = s.evaluators ++ [e])
    (hname : e.name = if e.worker then workerName e.id else replName)
    (hworkers : ∀ a ∈ s'.table.workers, a ∈ s.table.workers ∨ a = e.id ∧ e.worker = true)
    (hseat : s'.table.Seats e) (hothers : s.closed = false → ∀ e₁ ∈ s.evaluators,
      e₁.isAlive = true → s.table.Seats e₁ → s'.table.Seats e₁) : s'.Seated := by
  refine ⟨fun e₁ hmem => ?_, fun a ha => ?_, fun hopen e₁ hmem halive => ?_⟩
  · rw [he, List.mem_append, List.mem_singleton] at hmem
    rcases hmem with hmem | rfl
    · exact hseated.name e₁ hmem
    · exact hname
  · rw [he]
    rcases hworkers a ha with ha | ⟨rfl, hworker⟩
    · obtain ⟨e₁, hmem, hid⟩ := hseated.workers a ha
      exact ⟨e₁, List.mem_append_left _ hmem, hid⟩
    · exact ⟨e, List.mem_append_right _ List.mem_cons_self, rfl, hworker⟩
  · rw [hclosed] at hopen
    rw [he, List.mem_append, List.mem_singleton] at hmem
    rcases hmem with hmem | rfl
    · exact hothers hopen e₁ hmem halive (hseated.seat hopen e₁ hmem halive)
    · exact hseat

/-- Workers are told from the REPL by their names. -/
lemma repl_iff (hseated : s.Seated) {e : Evaluator} (he : e ∈ s.evaluators) :
    e.name = replName ↔ e.worker = false := by
  rw [hseated.name e he]
  cases e.worker with
  | true => simp [workerName, replName, String.ext_iff]
  | false => simp

/-- Until the session is closed a live REPL is that of the table. -/
lemma repl_eq (hseated : s.Seated) (hopen : s.closed = false) {e : Evaluator}
    (he : e ∈ s.evaluators) (halive : e.isAlive = true) (hname : e.name = replName) :
    s.table.repl = some e.id := by
  have hseat := hseated.seat hopen e he halive
  rwa [ActorTable.Seats, (hseated.repl_iff he).1 hname, if_neg (by simp)] at hseat

end Seated

end Session

namespace World

/-- Nobody starts in a step, and who leaves the table has ended unless the session is closed. -/
def Keeps (w w' : World) : Prop :=
  w.session.Keeps w'.session

variable {w w' : World}

section steps

lemma keeps_same (hsame : (w'.session.evaluators, w'.session.table, w'.session.closed) =
    (w.session.evaluators, w.session.table, w.session.closed)) : w.Keeps w' :=
  .of_same hsame

/-- An evaluator that has not ended goes on, while others see to the rest of the session. -/
lemma keeps_goOn {w₁ : World} {e : Evaluator} (hsound : w.traffic.Sound)
    (he : e ∈ w.session.evaluators) (hphase : e.phase ≠ .ended) {f : Evaluator → Evaluator}
    (hf : ∀ e, ((f e).id, (f e).name, (f e).worker) = (e.id, e.name, e.worker))
    (hkeeps : w.Keeps w₁) (hsame : w₁.session.evaluators = w.session.evaluators) :
    w.Keeps (w₁.change (·.changeEvaluator e.id f)) := by
  refine hkeeps.trans (.change fun e₁ he₁ hid => ?_)
  rw [hsame] at he₁
  obtain rfl : e₁ = e := hsound.eq_of_id he₁ he hid
  have hsame := hf e₁
  simp only [Prod.mk.injEq] at hsame
  exact ⟨hsame.1, hsame.2.1, hsame.2.2, fun _ => by simpa [Evaluator.isAlive] using hphase⟩

lemma keeps_evaluator {a : ActorId} (hsound : w.traffic.Sound)
    (h : w.evaluatorStep? a = some w') : w.Keeps w' := by
  obtain ⟨e, he, rfl, hactive, hgoes⟩ := evaluator_goes h
  unfold Keeps
  rcases hgoes with ⟨jobs, hints, f, hsession, hf⟩ | hsession
  · let rest := w.change fun s => { s with jobs, hints }
    have hrest : w.Keeps rest := keeps_same rfl
    have hnamed (e : Evaluator) :
        ((f e).id, (f e).name, (f e).worker) = (e.id, e.name, e.worker) :=
      congrArg (fun (id, name, worker, _) => (id, name, worker)) (hf e)
    rw [hsession]
    exact keeps_goOn hsound he hactive hnamed hrest rfl
  · -- a worker takes itself off the table as it ends
    have hended : w.Keeps (w.change (·.setPhase e.id .ended)) :=
      keeps_goOn (f := fun e => { e with phase := .ended }) hsound he hactive (fun _ => rfl)
        (keeps_same rfl) rfl
    rw [hsession]
    refine ⟨hended.evaluators, List.filter_subset_self _, fun hopen => ⟨hopen, ?_⟩⟩
    intro e' hmem halive hseat
    have hne : e'.id ≠ e.id := by
      obtain ⟨e₁, -, rfl⟩ := List.mem_map.1 hmem
      by_cases hid : e₁.id = e.id
      · rw [if_pos hid] at halive
        cases halive
      · rwa [if_neg hid]
    unfold ActorTable.Seats at hseat ⊢
    split
    · next hworker =>
      rw [if_pos hworker] at hseat
      exact List.mem_filter.2 ⟨hseat, by simpa using hne⟩
    · next hworker =>
      rw [if_neg hworker] at hseat
      exact hseat

lemma keeps_close {p p' : ClosePhase} (hmarked : p.isUnderWay = true → w.session.closed = true)
    (h : w.closeStep? p = some (w', p')) : w.Keeps w' := by
  have hclosed := closed_of_closeStep hmarked h
  cases p with
  | marking =>
    simp only [closeStep?] at h
    split at h <;> cases h
    · exact keeps_same rfl
    · exact .of_closed hclosed rfl fun _ h => h
  | taking =>
    cases h
    exact .of_closed hclosed rfl (List.nil_subset _)
  | killing handles =>
    cases handles with
    | nil =>
      cases h
      exact keeps_same rfl
    | cons handle rest =>
      cases h
      exact .kill _ handle
  | aborting | silencing =>
    cases h
    exact keeps_same rfl
  | ended => cases h

end steps

/-! ## Those who start -/

section starting

/-- A REPL starts where none lives. -/
lemma seated_startRepl (hseated : w.session.Seated) (hdead : w.session.closed = false →
    ∀ e ∈ w.session.evaluators, e.isAlive = true → e.worker = true) :
    w.startRepl.2.session.Seated := by
  refine hseated.enter (e := ⟨w.startRepl.1, Session.replName, false, w.session.closed,
    w.session.closed, .receiving⟩) rfl rfl rfl (fun a ha => .inl ha) rfl ?_
  intro hopen e he halive hseat
  unfold ActorTable.Seats at hseat ⊢
  rwa [if_pos (hdead hopen e he halive)] at hseat ⊢

lemma seated_startWorker (hseated : w.session.Seated) : w.startWorker.2.session.Seated := by
  have hworkers : w.startWorker.2.session.table.workers =
      w.session.table.workers ++ [w.startWorker.1] := rfl
  refine hseated.enter (e := ⟨w.startWorker.1, Session.workerName w.startWorker.1, true,
    w.session.closed, w.session.closed, .receiving⟩) rfl rfl rfl (fun a ha => ?_) ?_ ?_
  · rw [hworkers, List.mem_append, List.mem_singleton] at ha
    exact ha.imp_right fun ha => ⟨ha, rfl⟩
  · rw [ActorTable.Seats, if_pos rfl, hworkers]
    exact List.mem_append_right _ List.mem_cons_self
  · intro _ e _ _ hseat
    unfold ActorTable.Seats at hseat ⊢
    split
    · next hworker =>
      rw [if_pos hworker] at hseat
      exact hworkers ▸ List.mem_append_left _ hseat
    · next hworker =>
      rw [if_neg hworker] at hseat
      exact hseat

lemma seated_ensureRepl (hsound : w.traffic.Sound) (hseated : w.session.Seated) :
    w.ensureRepl.2.session.Seated := by
  have worker_of : ∀ e : Evaluator, w.session.table.repl ≠ some e.id →
      w.session.table.Seats e → e.worker = true := by
    intro e hrepl hseat
    by_contra hworker
    rw [ActorTable.Seats, if_neg hworker] at hseat
    exact hrepl hseat
  unfold ensureRepl
  cases hrepl : w.session.table.repl with
  | none =>
    refine seated_startRepl hseated fun hopen e he halive => ?_
    exact worker_of e (by simp [hrepl]) (hseated.seat hopen e he halive)
  | some repl =>
    by_cases halive : w.session.isAlive repl = true
    · simp only [halive, if_true]
      exact hseated
    · simp only [halive]
      let aborted := w.change fun s =>
        { s.abortPrompts repl with active := s.active.remove repl }
      have haborted : aborted.session.Seated := hseated.keep (.of_same rfl)
      refine seated_startRepl (w := aborted) haborted fun hopen e he halive' => ?_
      refine worker_of e ?_ (hseated.seat hopen e he halive')
      rw [hrepl]
      rintro ⟨rfl⟩
      have hended := ended_of_not_isAlive hsound halive e he rfl
      simp [Evaluator.isAlive, hended] at halive'

lemma seated_resolve (hsound : w.traffic.Sound) (hseated : w.session.Seated) {thread : Thread}
    {found : Option ActorId} (h : w.resolve thread = (found, w')) : w'.session.Seated := by
  cases thread with
  | any =>
    cases h
    exact seated_startWorker hseated
  | repl =>
    cases h
    exact seated_ensureRepl hsound hseated
  | id | name =>
    cases h
    exact hseated

lemma seated_handle (hsound : w.traffic.Sound) (hseated : w.session.Seated) (m : Message) :
    (w.handle m).session.Seated := by
  cases m with
  | start | evaluate => exact hseated
  | emit | debug | result => exact hseated.keep (.of_same rfl)
  | client event =>
    cases event with
    | evaluate form package thread id =>
      simp only [handle, handleClient]
      cases hresolve : w.resolve thread with
      | mk found w₂ =>
        have hseated₂ := seated_resolve hsound hseated hresolve
        cases found with
        | none => exact hseated₂
        | some target => exact hseated₂.keep (.of_same rfl)
    | interrupt thread =>
      simp only [handle, handleClient]
      split
      · exact hseated.keep (.of_same rfl)
      · exact hseated
    | returnString | returnValue => exact hseated.keep (.of_same rfl)
    | unknown => exact hseated

lemma seated_control (hsound : w.traffic.Sound) (hseated : w.session.Seated)
    (h : w.controlStep? = some w') : w'.session.Seated := by
  unfold controlStep? at h
  cases hc : w.session.control with
  | absent | ended => simp [hc] at h
  | receiving =>
    simp only [hc, Option.bind_eq_bind, Option.bind_eq_some_iff, Option.pure_def,
      Option.some.injEq, Prod.exists] at h
    obtain ⟨m, ⟨image, session⟩, hreceive, rfl⟩ := h
    obtain ⟨rest, -, htraffic, rfl⟩ := receive?_spec hreceive
    have hsound' : Sound (traffic { image, session := w.session }) :=
      htraffic ▸ hsound.setControlQueue rest
    exact seated_handle (w := { image, session := w.session }) hsound' hseated m
  | raising target =>
    simp only [hc, Session.raise] at h
    split at h
    · next session hraise =>
      cases h
      split at hraise <;> cases hraise
      have hraised : w.session.Keeps
          (w.session.changeEvaluator target fun e => { e with raised := true }) :=
        .change fun e _ _ => ⟨rfl, rfl, rfl, fun h => h⟩
      exact hseated.keep (hraised.trans (.of_same rfl))
    · cases h
      exact hseated.keep (.of_same rfl)
  | entering | handing | aborting =>
    simp only [hc, Option.some.injEq] at h
    subst h
    exact hseated.keep (.of_same rfl)
  | writing event =>
    simp only [hc, Option.some.injEq] at h
    subst h
    simp only [write]
    split <;> exact hseated.keep (.of_same rfl)

lemma seated_serve (hsound : w.traffic.Sound) (henrolled : w.Enrolled w.session.closes)
    (hseated : w.session.Seated) (h : w.serveStep? = some w') : w'.session.Seated := by
  unfold serveStep? at h
  cases hservice : w.session.service with
  | absent | ended => simp [hservice] at h
  | startingRepl =>
    simp only [hservice, Option.some.injEq] at h
    subst h
    exact (seated_ensureRepl hsound hseated).keep (.of_same rfl)
  | startingControl | startingReader | announcingOutput | starting =>
    simp only [hservice, Option.some.injEq] at h
    subst h
    exact hseated.keep (.of_same rfl)
  | recording | recordingOutput =>
    simp only [hservice, Option.some.injEq] at h
    subst h
    exact ⟨hseated.name, hseated.workers, hseated.seat⟩
  | opening | serving =>
    simp only [hservice] at h
    split at h <;> cases h <;> exact hseated.keep (.of_same rfl)
  | closing phase =>
    simp only [hservice] at h
    split at h
    · next w₁ phase' hclose =>
      cases h
      have hmarked := henrolled.marked phase (by simp [Session.closes, hservice, ServePhase.close?])
      exact hseated.keep ((keeps_close hmarked hclose).trans (.of_same rfl))
    · cases h
      exact hseated.keep (.of_same rfl)

theorem seated_step (hsound : w.traffic.Sound) (henrolled : w.Enrolled w.session.closes)
    (hseated : w.session.Seated) {action : Action} (h : w.step? action = some w') :
    w'.session.Seated := by
  cases action with
  | serve => exact seated_serve hsound henrolled hseated h
  | control => exact seated_control hsound hseated h
  | evaluator a => exact hseated.keep (keeps_evaluator hsound h)
  | reader =>
    obtain ⟨-, _, _, hsession⟩ := reader_frame (Nat.ne_of_lt hsound.reader_lt) h
    exact hseated.keep (.of_same (by rw [hsession]))
  | job index =>
    obtain ⟨-, _, _, _, hsession⟩ := job_frame h
    exact hseated.keep (.of_same (by rw [hsession]))
  | output =>
    obtain ⟨output, rfl⟩ := output_frame (.inl h)
    exact hseated.keep (.of_same rfl)
  | connectOutput =>
    obtain ⟨output, rfl⟩ := output_frame (.inr (.inl h))
    exact hseated.keep (.of_same rfl)
  | close index =>
    obtain ⟨phase, phase', w₁, hphase, hclose, rfl⟩ := closer_spec h
    have hmarked := henrolled.marked phase
      (List.mem_append_right _ (List.mem_of_getElem? hphase))
    exact hseated.keep ((keeps_close hmarked hclose).trans (.of_same rfl))
  | finish handle =>
    cases handle with
    | reader => exact readerEnd_frame h ▸ hseated.keep (.of_same rfl)
    | control =>
      obtain ⟨-, -, rfl⟩ := controlEnd_spec h
      exact hseated.keep (.of_same rfl)
    | evaluator a =>
      rw [evaluatorEnd_frame h]
      exact hseated.keep (.change fun e _ _ => ⟨rfl, rfl, rfl, fun h => by cases h⟩)
    | output =>
      obtain ⟨output, rfl⟩ := output_frame (.inr (.inr h))
      exact hseated.keep (.of_same rfl)
  | cut calls =>
    obtain ⟨_, _, -, -, -, rfl⟩ := cutShort_spec h
    exact hseated.keep (.of_same rfl)
  | wake index =>
    obtain ⟨jobs, rfl⟩ := wake_frame h
    exact hseated.keep (.of_same rfl)
  | deliver arrival =>
    simp only [step?] at h
    split at h <;> cases h
    exact hseated.keep (.of_same rfl)
  | endInput | hangUp | beginClose =>
    cases h
    exact hseated.keep (.of_same rfl)

end starting

/-! ## Runs -/

/-- What holds of a session at any time. -/
structure Staffed (w : World) : Prop where
  sound : w.traffic.Sound
  staged : w.Staged
  enrolled : w.Enrolled w.session.closes
  seated : w.session.Seated

namespace Staffed

lemma kill (h : w.Staffed) (handle : Handle) : (w.change (·.kill handle)).Staffed := by
  have hturn : w.turn? (.kill handle) = some (w.change (·.kill handle)) := rfl
  have hseated : (w.change (·.kill handle)).session.Seated := h.seated.keep (.kill _ handle)
  refine ⟨h.sound.move (turn_move h.sound hturn), ?_, ?_, hseated⟩
  · cases handle <;> exact ⟨h.staged.reader, h.staged.output⟩
  · obtain ⟨hcontrol, hreader, hmarked, hrecorded, houtput⟩ := h.enrolled
    cases handle <;> exact ⟨hcontrol, hreader, hmarked, hrecorded, houtput⟩

lemma turn (h : w.Staffed) {turn : Turn} (hturn : w.turn? turn = some w') : w'.Staffed := by
  cases turn with
  | kill handle =>
    cases hturn
    exact h.kill handle
  | step action =>
    have henrolled := (bears_step (x := []) h.sound h.staged hturn).enrolled
    rw [List.append_nil, List.append_nil] at henrolled
    exact ⟨h.sound.move (turn_move h.sound hturn), step_staged h.sound h.staged hturn,
      henrolled h.enrolled, seated_step h.sound h.enrolled h.seated hturn⟩

lemma numbers_le (h : w.Staffed) {a : ActorId} (ha : a ∈ w.session.numbers) :
    a ≤ w.image.mailboxes.lastActor := by
  rcases List.mem_cons.1 ha with rfl | ha
  · exact Nat.le_trans (Nat.le_of_lt h.sound.reader_lt) h.sound.control_le
  · rcases List.mem_cons.1 ha with rfl | ha
    · exact h.sound.control_le
    · exact h.sound.le_last a ha

end Staffed

theorem opened_staffed {image : Image} {id : Nat} {host : Host} {wantsOutput : Bool}
    {outputPort : Option UInt16} {connection : Connection} {turns : List Turn} {h : History}
    {last : World} (hfresh : image.mailboxes.Fresh)
    (hrun : (opened image id host wantsOutput outputPort connection).play? turns = some (h, last)) :
    last.Staffed := by
  have hblank := opened_blank hfresh id host wantsOutput outputPort connection
  refine play_induction (P := fun _ w => w.Staffed) ⟨hblank.toSound, ?_, ?_, ?_⟩
    (fun _ _ _ _ hstaffed hturn => hstaffed.turn hturn) hrun
  · exact ⟨fun _ => rfl, fun _ => rfl⟩
  · have hstage : (opened image id host wantsOutput outputPort connection).session.service.stage =
        1 := rfl
    exact ⟨fun h => by omega, fun h => by omega, fun p hp => (List.not_mem_nil hp).elim,
      fun h => by omega, fun h => by omega⟩
  · exact ⟨fun e he => (List.not_mem_nil he).elim, fun a ha => (List.not_mem_nil ha).elim,
      fun _ e he => (List.not_mem_nil he).elim⟩

/-! ## The REPL -/

/-- A REPL with a number that nobody had takes the place of one that is not there or has ended. Of
that one nobody waits for an answer any more, and nothing else changes. -/
structure Respawns (w : World) (id : ActorId) (w' : World) : Prop where
  fresh : w.image.mailboxes.lastActor < id ∧ id ∉ w.session.numbers ∧
    w.image.mailboxes.queue id = []
  image : w'.image = { w.image with mailboxes := { w.image.mailboxes with lastActor := id } }
  session : w'.session =
    { w.session with
      evaluators := w.session.evaluators ++ [{ id, name := Session.replName, worker := false }]
      table := { w.session.table with repl := some id }
      active := w'.session.active
      prompts := w'.session.prompts }
  lives : w'.session.replId = some id
  active : ∀ a, a ∈ w'.session.active.members ↔
    a ∈ w.session.active.members ∧ w.session.table.repl ≠ some a
  prompts : ∀ tag, w'.session.prompts.prompt? tag = (w.session.prompts.prompt? tag).map fun x =>
    if w.session.table.repl = some x.actor then { x with state := x.state.abort } else x
  withdrawn : ∀ tag x, w'.session.prompts.prompt? tag = some x →
    w.session.table.repl = some x.actor → x.state.isPending = false
  wakes : ∀ index job tag question next x, w.session.jobs[index]? = some job →
    job.phase = .prompting .waiting tag question next → w.session.prompts.prompt? tag = some x →
    w.session.table.repl = some x.actor → x.state = .pending true →
    w.jobStep? index = none ∧
      (w'.jobStep? index).bind (·.session.jobs[index]?) =
        some { job with phase := .prompting .withdrawing tag question next }

section repl

lemma replId_eq_some_iff {s : Session} {a : ActorId} :
    s.replId = some a ↔ s.table.repl = some a ∧ s.isAlive a = true :=
  Option.filter_eq_some_iff

/-- A job waits while its prompt is pending, and goes on to withdraw it once it is aborted. -/
lemma jobStep_waiting {index tag : Nat} {job : Job} {question : Question}
    {next : Option question.Answer → Course} (hjob : w.session.jobs[index]? = some job)
    (hphase : job.phase = .prompting .waiting tag question next) :
    (w.session.prompts.state tag = .pending true → w.jobStep? index = none) ∧
    (w.session.prompts.state tag = .closed →
      (w.jobStep? index).bind (·.session.jobs[index]?) =
        some { job with phase := .prompting .withdrawing tag question next }) := by
  constructor
  · intro hstate
    simp [jobStep?, hjob, hphase, promptStep?, awaitAnswer?, hstate]
  · intro hstate
    simp [jobStep?, hjob, hphase, promptStep?, awaitAnswer?, hstate, World.setJob, Session.setJob,
      Session.changeJob, change]

/-- Where no REPL lives one starts, once what the last one left has been put away. -/
lemma ensureRepl_vacates (hnone : w.session.replId = none) : ∃ v : World,
    w.ensureRepl = v.startRepl ∧ v.image = w.image ∧
    v.session = { w.session with active := v.session.active, prompts := v.session.prompts } ∧
    (∀ a, a ∈ v.session.active.members ↔
      a ∈ w.session.active.members ∧ w.session.table.repl ≠ some a) ∧
    ∀ tag, v.session.prompts.prompt? tag = (w.session.prompts.prompt? tag).map fun x =>
      if w.session.table.repl = some x.actor then { x with state := x.state.abort } else x := by
  cases hrepl : w.session.table.repl with
  | none => exact ⟨w, by simp [ensureRepl, hrepl], rfl, rfl, by simp, by simp⟩
  | some dead =>
    have hdead : w.session.isAlive dead = false := by
      simpa [Session.replId, hrepl, Option.filter_eq_none_iff] using hnone
    refine ⟨w.change fun s => { s.abortPrompts dead with active := s.active.remove dead },
      by simp [ensureRepl, hrepl, hdead], rfl, rfl, fun a => ?_, fun tag => ?_⟩
    · simp [change, eq_comm]
    · simp only [Option.some.injEq, eq_comm (a := dead)]
      exact w.session.prompts.prompt?_abort dead tag

lemma Staffed.respawns (h : w.Staffed) (hopen : w.session.closed = false)
    (hnone : w.session.replId = none) : w.Respawns w.ensureRepl.1 w.ensureRepl.2 := by
  obtain ⟨v, hensure, himage, hsession, hactive, hprompts⟩ := ensureRepl_vacates hnone
  have hopen' : v.session.closed = false := by rw [hsession, hopen]
  have hid : w.ensureRepl.1 = w.image.mailboxes.lastActor + 1 := by
    rw [hensure, ← himage]
    rfl
  have hsession' : w.ensureRepl.2.session =
      { v.session with
        evaluators := v.session.evaluators ++
          [{ id := w.ensureRepl.1, name := Session.replName, worker := false }]
        table := { v.session.table with repl := some w.ensureRepl.1 } } := by
    rw [hensure]
    simp [startRepl, allocate, change, Session.spawn, hopen']
  have hactive' : w.ensureRepl.2.session.active = v.session.active := by rw [hsession']
  have hprompts' : w.ensureRepl.2.session.prompts = v.session.prompts := by rw [hsession']
  have habort : ∀ tag x, w.session.prompts.prompt? tag = some x →
      w.session.table.repl = some x.actor →
      w.ensureRepl.2.session.prompts.prompt? tag = some { x with state := x.state.abort } := by
    intro tag x hx hrepl
    rw [hprompts', hprompts tag, hx, Option.map_some, if_pos hrepl]
  have hlast : w.image.mailboxes.lastActor < w.ensureRepl.1 := by
    rw [hid]
    exact Nat.lt_succ_self _
  have hnew : ∀ a ∈ w.session.numbers, a ≠ w.ensureRepl.1 := fun a ha =>
    Nat.ne_of_lt (Nat.lt_of_le_of_lt (h.numbers_le ha) hlast)
  have hfree : w.session.evaluators.find? (·.id == w.ensureRepl.1) = none := by
    refine List.find?_eq_none.2 fun e he hid => hnew e.id ?_ (by simpa using hid)
    exact List.mem_cons_of_mem _ (List.mem_cons_of_mem _ (List.mem_map_of_mem he))
  exact {
    fresh := ⟨hlast, fun ha => hnew _ ha rfl, h.sound.unborn _ hlast⟩
    image := by
      rw [hensure, ← himage]
      rfl
    session := by rw [hsession', hsession]
    lives := by
      refine replId_eq_some_iff.2 ⟨by rw [hsession'], ?_⟩
      rw [hsession', hsession]
      simp [Session.isAlive, Session.evaluator?, hfree, Evaluator.isAlive]
    active := hactive' ▸ hactive
    prompts := hprompts' ▸ hprompts
    withdrawn := by
      intro tag x hx hrepl
      rw [hprompts', hprompts tag, Option.map_eq_some_iff] at hx
      obtain ⟨y, -, rfl⟩ := hx
      split at hrepl
      · next hactor =>
        rw [if_pos hactor]
        exact y.state.isPending_abort
      · next hactor => exact absurd hrepl hactor
    wakes := by
      intro index job tag question next x hjob hphase hx hrepl hstate
      have hjob' : w.ensureRepl.2.session.jobs[index]? = some job := by
        rw [hsession', hsession]
        exact hjob
      refine ⟨(jobStep_waiting hjob hphase).1 ?_, (jobStep_waiting hjob' hphase).2 ?_⟩
      · rw [Prompts.state, hx]
        exact hstate
      · rw [Prompts.state, habort tag x hx hrepl, hstate]
        rfl }

end repl

/-- Whatever turns are taken, kills among them: until the session is closed, at most one evaluator
that lives has the REPL's name, and it is the one that requests for the REPL find. It stays if it is
there, and then nothing changes; if it is not, another starts in its place. -/
theorem repl_unique {image : Image} {id : Nat} {host : Host} {wantsOutput : Bool}
    {outputPort : Option UInt16} {connection : Connection} {turns : List Turn} {h : History}
    {last : World} (hfresh : image.mailboxes.Fresh)
    (hrun : (opened image id host wantsOutput outputPort connection).play? turns = some (h, last))
    (hopen : last.session.closed = false) :
    (∀ e ∈ last.session.evaluators, ∀ e' ∈ last.session.evaluators,
      e.isAlive = true → e'.isAlive = true → e.name = Session.replName →
      e'.name = Session.replName → e = e') ∧
    (∀ a, last.session.replId = some a ↔ ∃ e ∈ last.session.evaluators,
      e.id = a ∧ e.name = Session.replName ∧ e.isAlive = true) ∧
    (∀ a, last.session.replId = some a → last.ensureRepl = (a, last)) ∧
    (last.session.replId = none → last.Respawns last.ensureRepl.1 last.ensureRepl.2) := by
  have hstaffed := opened_staffed hfresh hrun
  have hseated := hstaffed.seated
  refine ⟨fun e he e' he' halive halive' hname hname' => ?_, fun a => ⟨fun hrepl => ?_, ?_⟩,
    fun a hrepl => ?_, hstaffed.respawns hopen⟩
  · have hrepl := hseated.repl_eq hopen he halive hname
    rw [hseated.repl_eq hopen he' halive' hname', Option.some.injEq] at hrepl
    exact hstaffed.sound.eq_of_id he he' hrepl.symm
  · obtain ⟨htable, halive⟩ := replId_eq_some_iff.1 hrepl
    rw [Session.isAlive, Option.any_eq_true] at halive
    obtain ⟨e, hfind, halive⟩ := halive
    obtain ⟨he, rfl⟩ := mem_of_evaluator? hfind
    obtain ⟨hblank, hmoves⟩ := opened_run hfresh hrun
    obtain ⟨e', he', heq⟩ := List.mem_map.1 ((Allotted.run hblank hmoves).home _ htable)
    obtain ⟨hid, hworker⟩ := Prod.mk.inj heq
    obtain rfl : e' = e := hstaffed.sound.eq_of_id he' he hid
    exact ⟨e', he, rfl, (hseated.repl_iff he).2 hworker, halive⟩
  · rintro ⟨e, he, rfl, hname, halive⟩
    refine replId_eq_some_iff.2 ⟨hseated.repl_eq hopen he halive hname, ?_⟩
    rwa [Session.isAlive, evaluator?_of_mem hstaffed.sound he, Option.any_some]
  · obtain ⟨htable, halive⟩ := replId_eq_some_iff.1 hrepl
    simp [ensureRepl, htable, halive]

/-- The REPL is killed and ends while a request waits for it. -/
def replLost : List Turn :=
  sampleStart ++ sampleMessage "(:emacs-rex (swank/x) nil :repl-thread 1)" ++
    List.replicate 3 (.step .control) ++
    [.kill (.evaluator 3), .step (.finish (.evaluator 3))]

theorem repl_unique_lost : ∃ h last, sample.play? replLost = some (h, last) ∧
    last.session.closed = false ∧ last.session.replId = none ∧
    last.session.active.members = [3] ∧ last.ensureRepl.1 = 4 ∧
    last.Respawns 4 last.ensureRepl.2 := by
  have hall : (sample.play? replLost).any (fun p =>
      p.2.session.closed = false ∧ p.2.session.replId = none ∧
      p.2.session.active.members = [3] ∧ p.2.ensureRepl.1 = 4) = true := by
    decide +kernel
  obtain ⟨⟨h, last⟩, hrun, hshows⟩ := (Option.any_eq_true _ _).1 hall
  obtain ⟨hopen, hnone, hactive, hid⟩ := of_decide_eq_true hshows
  have hfresh : Mailboxes.Fresh {} := fun _ _ => rfl
  obtain ⟨-, -, -, hrespawns⟩ := repl_unique hfresh hrun hopen
  exact ⟨h, last, hrun, hopen, hnone, hactive, hid, hid ▸ hrespawns hnone⟩

end World

end EvalServer
