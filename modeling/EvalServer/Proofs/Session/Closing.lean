import EvalServer.Proofs.Session.Frames

/-!
# Closing a session

Whoever closes a session marks it, takes the table of its actors and kills each of them. Up to the
taking an actor on the table has its kill still to come, and an evaluator that starts in a marked
session is killed at once. So an actor that is accounted for stays so, whatever step is taken.
-/

namespace EvalServer

open Traffic

def Evaluator.IsStopped (e : Evaluator) : Prop :=
  e.killed = true ∨ e.phase = .ended

/-- Whether a close has begun in earnest and has not ended. -/
def ClosePhase.isUnderWay : ClosePhase → Bool
  | .taking | .killing _ | .aborting | .silencing => true
  | .marking | .ended => false

/-- What the service does next to close the session. -/
def ServePhase.close? : ServePhase → Option ClosePhase
  | .closing phase => some phase
  | _ => none

namespace Session

/-- An actor has been killed or has ended. -/
def IsStopped (s : Session) : Handle → Prop
  | .reader => s.readerKilled = true ∨ s.reader = .ended
  | .control => s.controlKilled = true ∨ s.control = .ended
  | .evaluator id => ∀ e ∈ s.evaluators, e.id = id → e.IsStopped
  | .output => s.output.killed = true ∨ s.output.phase = .ended

/-- The closes that somebody has begun, by what they do next. -/
def closes (s : Session) : List ClosePhase :=
  s.service.close?.toList ++ s.closers

/-- The table is still to be taken. -/
def Untaken (s : Session) (c : List ClosePhase) : Prop :=
  s.closed = false ∨ .taking ∈ c

/-- The kill of an actor is still to come. -/
def Due (s : Session) (c : List ClosePhase) (hd : Handle) : Prop :=
  (hd ∈ s.table.handles ∧ s.Untaken c) ∨ ∃ rest, .killing rest ∈ c ∧ hd ∈ rest

def Accounted (s : Session) (c : List ClosePhase) (hd : Handle) : Prop :=
  s.IsStopped hd ∨ s.Due c hd

/-- The dedicated stream has been installed once, and output leaves it before all closes end. -/
def Muted (s : Session) (c : List ClosePhase) : Prop :=
  s.output.phase ∈ [OutputPhase.serving, .failing, .ended] ∧
    (s.output.installed = false ∨ s.closed = false ∨ ∃ p ∈ c, p.isUnderWay = true)

/-- What is accounted for stays so. -/
structure Carries (s : Session) (c : List ClosePhase) (s' : Session) (c' : List ClosePhase) :
    Prop where
  handles : ∀ hd, s.Accounted c hd → s'.Accounted c' hd
  output : s.Muted c → s'.Muted c'
  table : ∀ hd ∈ s.table.handles, hd ∈ s'.table.handles ∨ s'.Accounted c' hd

namespace Carries

variable {s s' s'' : Session} {c c' c'' : List ClosePhase}

lemma refl (s : Session) (c : List ClosePhase) : s.Carries c s c :=
  ⟨fun _ h => h, fun h => h, fun _ h => .inl h⟩

lemma trans (h : s.Carries c s' c') (h' : s'.Carries c' s'' c'') : s.Carries c s'' c'' where
  handles hd hs := h'.handles hd (h.handles hd hs)
  output hs := h'.output (h.output hs)
  table hd hmem := (h.table hd hmem).elim (h'.table hd) fun hs => .inr (h'.handles hd hs)

/-- A step that closes nothing keeps the account if it keeps the table, or replaces on it only what
has stopped, and starts no actor that is not on it. -/
lemma of_open (hclosed : s'.closed = s.closed)
    (hcloses : ∀ p ∈ c, p.isUnderWay = true → p ∈ c')
    (htable : ∀ hd ∈ s.table.handles, hd ∈ s'.table.handles ∨ s'.Accounted c' hd)
    (hstopped : ∀ hd, s.IsStopped hd → s'.Accounted c' hd)
    (houtput : s.output.phase ∈ [OutputPhase.serving, .failing, .ended] →
      s'.output.phase ∈ [OutputPhase.serving, .failing, .ended] ∧
        (s.output.installed = false → s'.output.installed = false)) :
    s.Carries c s' c' where
  handles := by
    rintro hd (hs | ⟨hmem, huntaken⟩ | ⟨rest, hkilling, hmem⟩)
    · exact hstopped hd hs
    · rcases htable hd hmem with hmem' | hs
      · refine .inr (.inl ⟨hmem', ?_⟩)
        exact huntaken.imp (hclosed.trans ·) (hcloses _ · rfl)
      · exact hs
    · exact .inr (.inr ⟨rest, hcloses _ hkilling rfl, hmem⟩)
  table := htable
  output := by
    rintro ⟨hphase, hinstalled⟩
    obtain ⟨hphase', hsilent⟩ := houtput hphase
    refine ⟨hphase', ?_⟩
    rcases hinstalled with hinstalled | hopen | ⟨p, hp, hunder⟩
    · exact .inl (hsilent hinstalled)
    · exact .inr (.inl (hclosed.trans hopen))
    · exact .inr (.inr ⟨p, hcloses p hp hunder, hunder⟩)

/-- A step that touches one actor, which it does not bring back. -/
lemma of_actor (hsame : (s'.closed, s'.service, s'.closers, s'.table) =
      (s.closed, s.service, s.closers, s.table))
    (hstopped : ∀ hd, s.IsStopped hd → s'.IsStopped hd)
    (houtput : s.output.phase ∈ [OutputPhase.serving, .failing, .ended] →
      s'.output.phase ∈ [OutputPhase.serving, .failing, .ended] ∧
        (s.output.installed = false → s'.output.installed = false)) :
    s.Carries s.closes s' s'.closes := by
  simp only [Prod.mk.injEq] at hsame
  obtain ⟨hclosed, hservice, hclosers, htable⟩ := hsame
  have hcloses : s'.closes = s.closes := by rw [closes, closes, hservice, hclosers]
  refine of_open hclosed (fun p hp _ => hcloses ▸ hp) (fun hd hmem => .inl (htable ▸ hmem)) ?_
    houtput
  exact fun hd hs => .inl (hstopped hd hs)

/-- Closes that a step does not touch keep what they have to do. -/
lemma extend (h : s.Carries c s' c') (x : List ClosePhase) {hd : Handle}
    (hs : s.Accounted (c ++ x) hd) : s'.Accounted (c' ++ x) hd := by
  have wider : s'.Accounted c' hd → s'.Accounted (c' ++ x) hd :=
    Or.imp_right (Or.imp (And.imp_right (Or.imp_right (List.mem_append_left x)))
      fun ⟨rest, hkilling, hmem⟩ => ⟨rest, List.mem_append_left x hkilling, hmem⟩)
  rcases hs with hs | ⟨hmem, hopen | htaking⟩ | ⟨rest, hkilling, hmem⟩
  · exact wider (h.handles hd (.inl hs))
  · exact wider (h.handles hd (.inr (.inl ⟨hmem, .inl hopen⟩)))
  · rcases List.mem_append.1 htaking with htaking | htaking
    · exact wider (h.handles hd (.inr (.inl ⟨hmem, .inr htaking⟩)))
    · rcases h.table hd hmem with hmem | hs
      · exact .inr (.inl ⟨hmem, .inr (List.mem_append_right c' htaking)⟩)
      · exact wider hs
  · rcases List.mem_append.1 hkilling with hkilling | hkilling
    · exact wider (h.handles hd (.inr (.inr ⟨rest, hkilling, hmem⟩)))
    · exact .inr (.inr ⟨rest, List.mem_append_right c' hkilling, hmem⟩)

end Carries

variable {s s' : Session} {c : List ClosePhase}

lemma mem_handles {t : ActorTable} {hd : Handle} : hd ∈ t.handles ↔
    hd = .reader ∧ t.reader = true ∨ hd = .control ∧ t.control = true ∨
      (∃ id ∈ t.evaluators, hd = .evaluator id) ∨ hd = .output ∧ t.output = true := by
  simp only [ActorTable.handles, List.mem_append, List.mem_map, List.mem_ite_nil_right,
    List.mem_singleton]
  grind

/-- A change of an evaluator that does not bring it back. -/
lemma carries_change {a : ActorId} {f : Evaluator → Evaluator} (hid : ∀ e, (f e).id = e.id)
    (hf : ∀ e ∈ s.evaluators, e.id = a → e.IsStopped → (f e).IsStopped) :
    s.Carries s.closes (s.changeEvaluator a f) (s.changeEvaluator a f).closes := by
  refine .of_actor rfl (fun hd hs => ?_) fun h => ⟨h, fun h => h⟩
  cases hd with
  | reader | control | output => exact hs
  | evaluator id =>
    intro e' he' hid'
    obtain ⟨e, he, rfl⟩ := List.mem_map.1 he'
    by_cases ha : e.id = a
    · rw [if_pos ha] at hid' ⊢
      exact hf e he ha (hs e he ((hid e).symm.trans hid'))
    · rw [if_neg ha] at hid' ⊢
      exact hs e he hid'

/-- An evaluator that starts is entered in the table, and killed if the session is marked. -/
lemma carries_spawn {e : Evaluator} (hkilled : e.killed = s.closed)
    (hsame : (s'.closed, s'.service, s'.closers, s'.readerKilled, s'.reader, s'.controlKilled,
      s'.control, s'.output) = (s.closed, s.service, s.closers, s.readerKilled, s.reader,
      s.controlKilled, s.control, s.output))
    (hevaluators : s'.evaluators = s.evaluators ++ [e])
    (hentered : .evaluator e.id ∈ s'.table.handles)
    (htable : ∀ hd ∈ s.table.handles, hd ∈ s'.table.handles ∨ s.IsStopped hd) :
    s.Carries s.closes s' s'.closes := by
  simp only [Prod.mk.injEq] at hsame
  obtain ⟨hclosed, hservice, hclosers, hrk, hr, hck, hc, hout⟩ := hsame
  have hcloses : s'.closes = s.closes := by rw [closes, closes, hservice, hclosers]
  suffices hstopped : ∀ hd, s.IsStopped hd → s'.Accounted s'.closes hd by
    refine .of_open hclosed (fun p hp _ => hcloses ▸ hp) (fun hd hmem => ?_) hstopped ?_
    · exact (htable hd hmem).imp_right (hstopped hd)
    · exact fun h => by rw [hout]; exact ⟨h, fun h => h⟩
  intro hd hs
  cases hd with
  | reader => exact .inl (by simpa only [IsStopped, hrk, hr] using hs)
  | control => exact .inl (by simpa only [IsStopped, hck, hc] using hs)
  | output => exact .inl (by simpa only [IsStopped, hout] using hs)
  | evaluator id =>
    have hold : ∀ e' ∈ s'.evaluators, e'.id = id → e'.IsStopped ∨ e' = e := by
      intro e' he' hid
      rw [hevaluators, List.mem_append, List.mem_singleton] at he'
      exact he'.imp_left (hs e' · hid)
    cases hmarked : s.closed with
    | true =>
      refine .inl fun e' he' hid => (hold e' he' hid).elim (fun h => h) ?_
      rintro rfl
      exact .inl (hkilled.trans hmarked)
    | false =>
      by_cases hid : e.id = id
      · exact .inr (.inl ⟨hid ▸ hentered, .inl (hclosed.trans hmarked)⟩)
      · refine .inl fun e' he' hid' => (hold e' he' hid').resolve_right ?_
        rintro rfl
        exact hid hid'

end Session

namespace World

/-- What is accounted for in a world is accounted for in another. -/
def Carries (w w' : World) : Prop :=
  w.session.Carries w.session.closes w'.session w'.session.closes

/-- Reader and output stream have not started before the service starts them. -/
structure Staged (w : World) : Prop where
  reader : w.session.service ∈ [ServePhase.absent, .startingControl, .startingReader] →
    w.session.reader = .absent
  output : w.session.service ∈ [ServePhase.absent, .startingControl, .startingReader, .recording,
    .startingRepl, .opening] → w.session.output.phase = .absent

variable {w w' : World}

section steps

lemma carries_same (hsame : (w'.session.closed, w'.session.service, w'.session.closers,
      w'.session.table, w'.session.readerKilled, w'.session.reader, w'.session.controlKilled,
      w'.session.control, w'.session.evaluators, w'.session.output.killed,
      w'.session.output.phase, w'.session.output.installed) =
    (w.session.closed, w.session.service, w.session.closers, w.session.table,
      w.session.readerKilled, w.session.reader, w.session.controlKilled, w.session.control,
      w.session.evaluators, w.session.output.killed, w.session.output.phase,
      w.session.output.installed)) : w.Carries w' := by
  simp only [Prod.mk.injEq] at hsame
  obtain ⟨hclosed, hservice, hclosers, htable, hrk, hr, hck, hc, he, hok, hop, hoi⟩ := hsame
  refine .of_actor (by rw [hclosed, hservice, hclosers, htable]) (fun hd hs => ?_)
    (fun h => by rw [hop, hoi]; exact ⟨h, id⟩)
  cases hd <;> simpa only [Session.IsStopped, hrk, hr, hck, hc, he, hok, hop] using hs

lemma carries_goControl (hc : w.session.control ≠ .ended) (c : ControlPhase) :
    w.Carries (w.goControl c) := by
  refine .of_actor rfl (fun hd hs => ?_) fun h => ⟨h, id⟩
  cases hd with
  | control => exact .inl (hs.resolve_right hc)
  | reader | evaluator | output => exact hs

lemma carries_reader (hne : w.session.readerId ≠ w.session.controlId)
    (h : w.readerStep? = some w') : w.Carries w' := by
  have hactive : w.session.reader ≠ .ended := by
    intro hended
    simp [readerStep?, hended] at h
  obtain ⟨-, inbound, reader, hsession⟩ := reader_frame hne h
  unfold Carries
  rw [hsession]
  refine .of_actor rfl (fun hd hs => ?_) fun h => ⟨h, id⟩
  cases hd with
  | reader => exact .inl (hs.resolve_right hactive)
  | control | evaluator | output => exact hs

lemma carries_startRepl (htable : ∀ id, w.session.table.repl = some id →
    w.session.IsStopped (.evaluator id)) : w.Carries w.startRepl.2 := by
  have hrepl : w.startRepl.2.session.table =
      { w.session.table with repl := some w.startRepl.1 } := rfl
  refine Session.carries_spawn rfl rfl rfl ?_ fun hd hmem => ?_
  · rw [hrepl]
    exact Session.mem_handles.2 (.inr (.inr (.inl ⟨_, List.mem_cons_self, rfl⟩)))
  · rw [Session.mem_handles] at hmem
    rw [hrepl, Session.mem_handles]
    rcases hmem with hr | hc | ⟨a, ha, rfl⟩ | ho
    · exact .inl (.inl hr)
    · exact .inl (.inr (.inl hc))
    · rcases List.mem_append.1 ha with ha | ha
      · exact .inr (htable a (Option.mem_toList.1 ha))
      · exact .inl (.inr (.inr (.inl ⟨a, List.mem_append_right _ ha, rfl⟩)))
    · exact .inl (.inr (.inr (.inr ho)))

lemma carries_ensureRepl (hsound : w.traffic.Sound) : w.Carries w.ensureRepl.2 := by
  unfold ensureRepl
  cases hrepl : w.session.table.repl with
  | none => exact carries_startRepl fun a ha => by simp [hrepl] at ha
  | some repl =>
    by_cases halive : w.session.isAlive repl = true
    · simp only [halive, if_true]
      exact .refl _ _
    · simp only [halive]
      let aborted := w.change fun s =>
        { s.abortPrompts repl with active := s.active.remove repl }
      have hdead : ∀ a, aborted.session.table.repl = some a →
          aborted.session.IsStopped (.evaluator a) := by
        intro a ha e he hid
        obtain rfl : repl = a := Option.some.inj (hrepl.symm.trans ha)
        exact .inr (ended_of_not_isAlive hsound halive e he hid)
      have haborted : w.Carries aborted := carries_same rfl
      exact haborted.trans (carries_startRepl hdead)

lemma carries_startWorker (w : World) : w.Carries w.startWorker.2 := by
  have hworkers : w.startWorker.2.session.table =
      { w.session.table with workers := w.session.table.workers ++ [w.startWorker.1] } := rfl
  have hgrows : ∀ a ∈ w.session.table.evaluators,
      a ∈ w.startWorker.2.session.table.evaluators := by
    intro a ha
    rw [hworkers, ActorTable.evaluators, ← List.append_assoc]
    exact List.mem_append_left _ ha
  refine Session.carries_spawn rfl rfl rfl ?_ fun hd hmem => .inl ?_
  · refine Session.mem_handles.2 (.inr (.inr (.inl ⟨w.startWorker.1, ?_, rfl⟩)))
    rw [hworkers]
    exact List.mem_append_right _ (List.mem_append_right _ List.mem_cons_self)
  · rw [Session.mem_handles] at hmem ⊢
    exact hmem.imp_right (Or.imp_right (Or.imp_left fun ⟨a, ha, heq⟩ => ⟨a, hgrows a ha, heq⟩))

lemma carries_resolve (hsound : w.traffic.Sound) {thread : Thread} {found : Option ActorId}
    (h : w.resolve thread = (found, w')) : w.Carries w' := by
  cases thread with
  | any =>
    cases h
    exact carries_startWorker w
  | repl =>
    cases h
    exact carries_ensureRepl hsound
  | id | name =>
    cases h
    exact .refl _ _

lemma carries_handle (hsound : w.traffic.Sound) (hc : w.session.control = .receiving)
    (m : Message) : w.Carries (w.handle m) := by
  have go : ∀ c, w.Carries (w.goControl c) := carries_goControl (by simp [hc])
  cases m with
  | start | evaluate => exact .refl _ _
  | emit | debug => exact go _
  | result actor status id =>
    let left := w.change fun s => { s with active := s.active.remove actor }
    have hleft : left.session.control ≠ .ended := by simp [left, change, hc]
    have hcarries : w.Carries left := carries_same rfl
    exact hcarries.trans (carries_goControl hleft _)
  | client event =>
    cases event with
    | evaluate form package thread id =>
      simp only [handle, handleClient]
      cases hresolve : w.resolve thread with
      | mk found w₂ =>
        have hcarries := carries_resolve hsound hresolve
        have hc' : w₂.session.control = .receiving := by
          obtain ⟨-, evaluators, table, active, prompts, hsession, -⟩ := resolve_frame hresolve
          rw [hsession]
          exact hc
        cases found with
        | none => exact hcarries
        | some target => exact hcarries.trans (carries_goControl (by simp [hc']) _)
    | interrupt thread =>
      simp only [handle, handleClient]
      split
      · exact go _
      · exact .refl _ _
    | returnString | returnValue | unknown => exact carries_same rfl

lemma carries_control (hsound : w.traffic.Sound) (h : w.controlStep? = some w') :
    w.Carries w' := by
  have hactive : w.session.control ≠ .ended := by
    intro hended
    simp [controlStep?, hended] at h
  have go : ∀ w₁ : World, w.Carries w₁ → w₁.session.control = w.session.control → ∀ c,
      w.Carries (w₁.goControl c) := by
    intro w₁ hcarries hsame c
    exact hcarries.trans (carries_goControl (hsame ▸ hactive) c)
  unfold controlStep? at h
  cases hc : w.session.control with
  | absent | ended => simp [hc] at h
  | receiving =>
    simp only [hc, Option.bind_eq_bind, Option.bind_eq_some_iff, Option.pure_def,
      Option.some.injEq, Prod.exists] at h
    obtain ⟨m, ⟨image, session⟩, hreceive, rfl⟩ := h
    obtain ⟨rest, -, htraffic, rfl⟩ := receive?_spec hreceive
    have hsound' : Sound (traffic { image, session := w.session }) :=
      htraffic ▸ hsound.setControlQueue rest
    exact carries_handle (w := { image, session := w.session }) hsound' hc m
  | entering target work =>
    simp only [hc, Option.some.injEq] at h
    subst h
    let entered := w.change fun s => { s with active := s.active.add target }
    exact go entered (carries_same rfl) rfl _
  | handing target work =>
    simp only [hc, Option.some.injEq] at h
    subst h
    exact go (w.send target (.evaluate work)) (carries_same rfl) rfl _
  | raising target =>
    simp only [hc] at h
    unfold Session.raise at h
    split at h
    · next session hraise =>
      cases h
      split at hraise
      · cases hraise
        let raised := w.change (·.changeEvaluator target fun e => { e with raised := true })
        refine go raised ?_ rfl _
        exact Session.carries_change (fun _ => rfl) fun _ _ _ hs => hs
      · cases hraise
    · cases h
      exact go w (.refl _ _) rfl _
  | aborting target =>
    simp only [hc, Option.some.injEq] at h
    subst h
    exact go (w.change (·.abortPrompts target)) (carries_same rfl) rfl _
  | writing event =>
    simp only [hc, Option.some.injEq] at h
    subst h
    simp only [write]
    split
    · refine go _ ?_ ?_ _
      · exact carries_same rfl
      · rfl
    · refine go _ ?_ ?_ _
      · exact carries_same rfl
      · rfl

/-- An evaluator that has not ended goes on. -/
lemma carries_goOn {w₁ : World} {e : Evaluator} (hsound : w.traffic.Sound)
    (he : e ∈ w.session.evaluators) (hphase : e.phase ≠ .ended) {f : Evaluator → Evaluator}
    (hid : ∀ e, (f e).id = e.id) (hf : ∀ e, e.killed = true → (f e).killed = true)
    (hcarries : w.Carries w₁) (hsame : w₁.session.evaluators = w.session.evaluators) :
    w.Carries (w₁.change (·.changeEvaluator e.id f)) := by
  refine hcarries.trans (Session.carries_change hid fun e₁ he₁ hid₁ hs => ?_)
  rw [hsame] at he₁
  obtain rfl : e₁ = e := hsound.eq_of_id he₁ he hid₁
  exact .inl (hf e₁ (hs.resolve_right hphase))

/-- An evaluator goes on, or takes itself off the table as it ends; besides it and the table only
jobs and hints change. -/
lemma evaluator_goes {a : ActorId} (h : w.evaluatorStep? a = some w') :
    ∃ e ∈ w.session.evaluators, e.id = a ∧ e.phase ≠ .ended ∧
      ((∃ jobs hints, ∃ f : Evaluator → Evaluator,
        w'.session = { w.session with jobs, hints }.changeEvaluator e.id f ∧
        ∀ e, ((f e).id, (f e).name, (f e).worker, (f e).killed) =
          (e.id, e.name, e.worker, e.killed)) ∨
      w'.session = { w.session with
        table := { w.session.table with
          workers := w.session.table.workers.filter (· ≠ e.id) } }.setPhase e.id .ended) := by
  simp only [evaluatorStep?, Option.bind_eq_bind, Option.bind_eq_some_iff] at h
  obtain ⟨e, hfind, h⟩ := h
  obtain ⟨he, rfl⟩ := mem_of_evaluator? hfind
  refine ⟨e, he, rfl, fun hended => by simp [hended, evaluatorPhase?] at h, ?_⟩
  cases hphase : e.phase with
  | receiving =>
    simp only [hphase, evaluatorPhase?, Option.bind_eq_bind, Option.bind_eq_some_iff,
      Option.pure_def, Option.some.injEq, Prod.exists] at h
    obtain ⟨m, ⟨image, session⟩, hreceive, rfl⟩ := h
    obtain ⟨-, -, -, rfl⟩ := receive?_spec hreceive
    exact .inl ⟨_, _, _, rfl, fun _ => rfl⟩
  | taken work =>
    simp only [hphase, evaluatorPhase?, Option.some.injEq] at h
    subst h
    exact .inl ⟨_, _, _, rfl, fun _ => rfl⟩
  | evaluating work index =>
    simp only [hphase, evaluatorPhase?, Option.bind_eq_bind, Option.bind_eq_some_iff,
      Option.pure_def] at h
    obtain ⟨job, -, h⟩ := h
    split at h
    · cases h
      exact .inl ⟨_, _, _, rfl, fun _ => rfl⟩
    · cases h
  | announcing work value ns =>
    simp only [hphase, evaluatorPhase?, Option.some.injEq] at h
    subst h
    split <;> exact .inl ⟨_, _, _, rfl, fun _ => rfl⟩
  | hinting work value ns =>
    simp only [hphase, evaluatorPhase?, Option.some.injEq] at h
    subst h
    exact .inl ⟨_, _, _, rfl, fun _ => rfl⟩
  | posting messages =>
    cases messages with
    | nil | cons =>
      simp only [hphase, evaluatorPhase?, Option.some.injEq] at h
      subst h
      exact .inl ⟨_, _, _, rfl, fun _ => rfl⟩
  | leaving =>
    simp only [hphase, evaluatorPhase?, Option.some.injEq] at h
    subst h
    exact .inr rfl
  | ended => simp [hphase, evaluatorPhase?] at h

lemma carries_evaluator {a : ActorId} (hsound : w.traffic.Sound)
    (h : w.evaluatorStep? a = some w') : w.Carries w' := by
  obtain ⟨e, he, rfl, hactive, hgoes⟩ := evaluator_goes h
  unfold Carries
  rcases hgoes with ⟨jobs, hints, f, hsession, hf⟩ | hsession
  · let rest := w.change fun s => { s with jobs, hints }
    have hrest : w.Carries rest := carries_same rfl
    rw [hsession]
    exact carries_goOn hsound he hactive (fun e => congrArg Prod.fst (hf e))
      (fun e hkilled => (congrArg (·.2.2.2) (hf e)).trans hkilled) hrest rfl
  · have hended : w.Carries (w.change (·.setPhase e.id .ended)) :=
      carries_goOn (f := fun e => { e with phase := .ended }) hsound he hactive (fun _ => rfl)
        (fun _ => id) (.refl _ _) rfl
    have hstopped : (w.session.setPhase e.id .ended).IsStopped (.evaluator e.id) := by
      intro e' he' hid
      obtain ⟨e₁, he₁, rfl⟩ := List.mem_map.1 he'
      by_cases hsame : e₁.id = e.id
      · exact .inr (by rw [if_pos hsame])
      · rw [if_neg hsame] at hid
        exact absurd hid hsame
    rw [hsession]
    refine hended.trans (.of_open rfl (fun p hp _ => hp) (fun hd hmem => ?_) (fun hd hs => ?_)
      fun h => ⟨h, id⟩)
    · by_cases hown : hd = .evaluator e.id
      · exact .inr (.inl (hown ▸ hstopped))
      · refine .inl (Session.mem_handles.2 ?_)
        rcases Session.mem_handles.1 hmem with hr | hc | ⟨a, ha, rfl⟩ | ho
        · exact .inl hr
        · exact .inr (.inl hc)
        · refine .inr (.inr (.inl ⟨a, ?_, rfl⟩))
          have hne : a ≠ e.id := fun heq => hown (heq ▸ rfl)
          refine (List.mem_append.1 ha).elim (List.mem_append_left _) fun hmem => ?_
          exact List.mem_append_right _ (List.mem_filter.2 ⟨hmem, by simpa using hne⟩)
        · exact .inr (.inr (.inr ho))
    · cases hd <;> exact .inl hs

lemma carries_job {index : Nat} (h : w.jobStep? index = some w') : w.Carries w' := by
  obtain ⟨-, jobs, prompts, queue, hsession⟩ := job_frame h
  exact carries_same (by rw [hsession])

lemma carries_changeOutput {f : Output → Output}
    (hactive : w.session.output.phase ≠ .ended)
    (hkilled : w.session.output.killed = true → (f w.session.output).killed = true)
    (hpast : w.session.output.phase ∈ [OutputPhase.serving, .failing, .ended] →
      (f w.session.output).phase ∈ [OutputPhase.serving, .failing, .ended] ∧
        (w.session.output.installed = false → (f w.session.output).installed = false)) :
    w.Carries (w.changeOutput f) := by
  refine .of_actor rfl (fun hd hs => ?_) hpast
  cases hd with
  | output => exact .inl (hkilled (hs.resolve_right hactive))
  | reader | control | evaluator => exact hs

lemma write_output (o : Output) (coding : Coding) (text : String) :
    (o.write coding text).killed = o.killed ∧ (o.write coding text).installed = o.installed ∧
      ((o.write coding text).phase = o.phase ∨ (o.write coding text).phase = .failing) := by
  unfold Output.write
  split
  · exact ⟨rfl, rfl, .inl rfl⟩
  · refine ⟨rfl, rfl, ?_⟩
    dsimp only
    split
    · exact .inr rfl
    · exact .inl rfl

lemma carries_outputStep (h : w.outputStep? = some w') : w.Carries w' := by
  unfold outputStep? at h
  cases hphase : w.session.output.phase with
  | absent | listening | ended => simp [hphase] at h
  | connected =>
    simp only [hphase, Option.some.injEq] at h
    subst h
    exact carries_changeOutput (by simp [hphase]) id (by simp [hphase])
  | failing =>
    simp only [hphase, Option.some.injEq] at h
    subst h
    exact carries_changeOutput (by simp [hphase]) id (by simp)
  | serving =>
    simp only [hphase] at h
    split at h
    · next text queue _ =>
      cases h
      obtain ⟨hkilled, hinstalled, hnext⟩ :=
        write_output { w.session.output with queue } w.session.host.coding text
      refine carries_changeOutput (by simp [hphase]) (hkilled.trans ·) fun _ => ⟨?_, ?_⟩
      · rcases hnext with hnext | hnext
        · rw [hnext]
          simp [hphase]
        · rw [hnext]
          simp
      · exact (hinstalled.trans ·)
    · split at h
      · cases h
      · cases h
        exact carries_changeOutput (by simp [hphase]) id (by simp)

lemma carries_connectOutput (h : w.connectOutput? = some w') : w.Carries w' := by
  unfold connectOutput? at h
  split at h
  · next hphase =>
    cases h
    exact carries_changeOutput (by simp [hphase]) id (by simp [hphase])
  · cases h

lemma carries_outputEnd (h : w.outputEnd? = some w') : w.Carries w' := by
  unfold outputEnd? at h
  cases hphase : w.session.output.phase with
  | listening | serving =>
    simp only [hphase] at h
    split at h
    · cases h
      exact carries_changeOutput (by simp [hphase]) id (by simp)
    · cases h
  | absent | connected | failing | ended => simp [hphase] at h

lemma carries_controlEnd (w : World) (connection : Connection) :
    w.Carries ((w.change fun s => { s with connection }).goControl .ended) := by
  refine .of_actor rfl (fun hd hs => ?_) fun h => ⟨h, id⟩
  cases hd with
  | control => exact .inr rfl
  | reader | evaluator | output => exact hs

lemma carries_finish {handle : Handle} (h : w.finish? handle = some w') : w.Carries w' := by
  cases handle with
  | reader =>
    rw [readerEnd_frame h]
    refine .of_actor rfl (fun hd hs => ?_) fun h => ⟨h, id⟩
    cases hd with
    | reader => exact .inr rfl
    | control | evaluator | output => exact hs
  | control =>
    obtain ⟨-, -, rfl⟩ := controlEnd_spec h
    exact carries_controlEnd w w.session.connection
  | evaluator a =>
    rw [evaluatorEnd_frame h]
    exact Session.carries_change (fun _ => rfl) fun _ _ _ _ => .inr rfl
  | output => exact carries_outputEnd h

end steps

section closing

variable {s s' : Session}

/-- The kill of an actor stops it and brings no other back. -/
lemma kill_stops (s : Session) (handle hd : Handle)
    (hs : hd = handle ∨ s.IsStopped hd) : (s.kill handle).IsStopped hd := by
  cases handle with
  | reader =>
    rcases hs with rfl | hs
    · exact .inl rfl
    · cases hd with
      | reader => exact .inl rfl
      | control | evaluator | output => exact hs
  | control =>
    rcases hs with rfl | hs
    · exact .inl rfl
    · cases hd with
      | control => exact .inl rfl
      | reader | evaluator | output => exact hs
  | output =>
    rcases hs with rfl | hs
    · exact .inl rfl
    · cases hd with
      | output => exact .inl rfl
      | reader | control | evaluator => exact hs
  | evaluator a =>
    cases hd with
    | reader | control | output => exact hs.resolve_left (by simp)
    | evaluator id =>
      intro e' he' hid
      obtain ⟨e, he, rfl⟩ := List.mem_map.1 he'
      by_cases ha : e.id = a
      · exact .inl (by rw [if_pos ha])
      · rw [if_neg ha] at hid ⊢
        rcases hs with heq | hs
        · cases heq
          exact absurd hid ha
        · exact hs e he hid

/-- A close that leaves the table goes on, and others stay where they are. -/
lemma accounted_next {p p' : ClosePhase} {l r : List ClosePhase}
    (hstopped : ∀ hd, s.IsStopped hd → s'.IsStopped hd) (htable : s'.table = s.table)
    (hclosed : s'.closed = s.closed) (hp : p ≠ .taking)
    (hown : ∀ rest, p = .killing rest → ∀ hd ∈ rest, s'.Accounted (l ++ p' :: r) hd) (hd : Handle)
    (h : s.Accounted (l ++ p :: r) hd) : s'.Accounted (l ++ p' :: r) hd := by
  have others : ∀ {q : ClosePhase}, p ≠ q → q ∈ l ++ p :: r → q ∈ l ++ p' :: r := by
    intro q hne hq
    simp only [List.mem_append, List.mem_cons] at hq ⊢
    exact hq.imp_right fun hq => .inr (hq.resolve_left hne.symm)
  rcases h with hs | ⟨hmem, hopen⟩ | ⟨rest, hkilling, hmem⟩
  · exact .inl (hstopped hd hs)
  · exact .inr (.inl ⟨htable ▸ hmem, hopen.imp (hclosed.trans ·) (others hp)⟩)
  · by_cases heq : p = .killing rest
    · exact hown rest heq hd hmem
    · exact .inr (.inr ⟨rest, others heq hkilling, hmem⟩)

lemma carries_closeStep {p p' : ClosePhase} (l r : List ClosePhase)
    (h : w.closeStep? p = some (w', p')) :
    w.session.Carries (l ++ p :: r) w'.session (l ++ p' :: r) := by
  have own : ∀ q : ClosePhase, q ∈ l ++ q :: r := by simp
  cases p with
  | marking =>
    simp only [closeStep?] at h
    split at h
    · cases h
      refine ⟨accounted_next (fun _ => id) rfl rfl (by simp) (by simp), ?_, fun _ => .inl⟩
      rintro ⟨hphase, hsilent⟩
      refine ⟨hphase, hsilent.imp_right (.imp_right ?_)⟩
      rintro ⟨q, hq, hunder⟩
      refine ⟨q, ?_, hunder⟩
      simp only [List.mem_append, List.mem_cons] at hq ⊢
      refine hq.imp_right fun hq => .inr (hq.resolve_left ?_)
      rintro rfl
      cases hunder
    · cases h
      refine ⟨fun hd hs => ?_, fun hs => ⟨hs.1, .inr (.inr ⟨.taking, own _, rfl⟩)⟩, fun _ => .inl⟩
      rcases hs with hs | ⟨hmem, -⟩ | ⟨rest, hkilling, hmem⟩
      · exact .inl (by cases hd <;> exact hs)
      · exact .inr (.inl ⟨hmem, .inr (own _)⟩)
      · refine .inr (.inr ⟨rest, ?_, hmem⟩)
        simp only [List.mem_append, List.mem_cons, reduceCtorEq, false_or] at hkilling ⊢
        exact hkilling
  | taking =>
    cases h
    refine ⟨fun hd hs => ?_, fun hs => ⟨hs.1, .inr (.inr ⟨_, own _, rfl⟩)⟩,
      fun hd hmem => .inr (.inr (.inr ⟨_, own _, hmem⟩))⟩
    rcases hs with hs | ⟨hmem, -⟩ | ⟨rest, hkilling, hmem⟩
    · exact .inl (by cases hd <;> exact hs)
    · exact .inr (.inr ⟨_, own _, hmem⟩)
    · refine .inr (.inr ⟨rest, ?_, hmem⟩)
      simp only [List.mem_append, List.mem_cons, reduceCtorEq, false_or] at hkilling ⊢
      exact hkilling.imp_right .inr
  | killing handles =>
    cases handles with
    | nil =>
      cases h
      refine ⟨accounted_next (fun _ => id) rfl rfl (by simp) (by simp), fun hs => ?_,
        fun _ => .inl⟩
      exact ⟨hs.1, .inr (.inr ⟨.aborting, own _, rfl⟩)⟩
    | cons handle rest =>
      cases h
      obtain ⟨readerKilled, controlKilled, evaluators, killed, hkill, -⟩ :=
        kill_frame w.session handle
      refine ⟨accounted_next (fun hd hs => ?_) ?_ ?_ (by simp) (fun rest' heq hd hmem => ?_),
        fun hs => ⟨?_, .inr (.inr ⟨.killing rest, own _, rfl⟩)⟩, fun hd hmem => .inl ?_⟩
      · exact kill_stops w.session handle hd (.inr hs)
      · simp only [change, hkill]
      · simp only [change, hkill]
      · cases heq
        rcases List.mem_cons.1 hmem with rfl | hmem
        · exact .inl (kill_stops w.session _ _ (.inl rfl))
        · exact .inr (.inr ⟨rest, own _, hmem⟩)
      · simpa only [change, hkill] using hs.1
      · simpa only [change, hkill] using hmem
  | aborting =>
    cases h
    refine ⟨accounted_next (fun hd hs => ?_) rfl rfl (by simp) (by simp), fun hs => ?_,
      fun _ => .inl⟩
    · cases hd <;> exact hs
    · exact ⟨hs.1, .inr (.inr ⟨.silencing, own _, rfl⟩)⟩
  | silencing =>
    cases h
    refine ⟨accounted_next (fun hd hs => ?_) rfl rfl (by simp) (by simp), fun hs => ?_,
      fun _ => .inl⟩
    · cases hd <;> exact hs
    · exact ⟨hs.1, .inl rfl⟩
  | ended => cases h

/-- The account stays if no close is lost that is under way. -/
lemma carries_closes {c : List ClosePhase}
    (hcloses : ∀ p ∈ c, p.isUnderWay = true → p ∈ w'.session.closes)
    (hsame : (w'.session.closed, w'.session.table, w'.session.readerKilled, w'.session.reader,
      w'.session.controlKilled, w'.session.control, w'.session.evaluators, w'.session.output) =
    (w.session.closed, w.session.table, w.session.readerKilled, w.session.reader,
      w.session.controlKilled, w.session.control, w.session.evaluators, w.session.output)) :
    w.session.Carries c w'.session w'.session.closes := by
  simp only [Prod.mk.injEq] at hsame
  obtain ⟨hclosed, htable, hrk, hr, hck, hc, he, ho⟩ := hsame
  have hstopped : ∀ hd, w.session.IsStopped hd → w'.session.IsStopped hd := by
    intro hd hs
    cases hd <;> simpa only [Session.IsStopped, hrk, hr, hck, hc, he, ho] using hs
  refine .of_open hclosed hcloses (fun hd hmem => .inl (htable ▸ hmem))
    (fun hd hs => .inl (hstopped hd hs)) fun h => by rw [ho]; exact ⟨h, id⟩

/-- One of the closes that have begun takes its next step, and the others stay where they are. -/
def ClosesOn (w w' : World) : Prop :=
  ∃ p p' l r w₁, w.closeStep? p = some (w₁, p') ∧ w.session.closes = l ++ p :: r ∧
    w'.session.closes = l ++ p' :: r ∧
    ∃ service closers, w'.session = { w₁.session with service, closers }

lemma carries_on (h : w.ClosesOn w') : w.Carries w' := by
  obtain ⟨p, p', l, r, w₁, hclose, hbefore, hafter, service, closers, hsession⟩ := h
  have hcarries := carries_closeStep l r hclose
  rw [← hbefore] at hcarries
  exact hcarries.trans (carries_closes (fun q hq _ => hafter ▸ hq) (by rw [hsession]))

lemma closer_on {index : Nat} (h : w.closerStep? index = some w') : w.ClosesOn w' := by
  obtain ⟨p, p', w₁, hp, hclose, rfl⟩ := closer_spec h
  obtain ⟨-, _, _, _, _, _, _, _, _, hsession, -⟩ := closeStep_frame hclose
  obtain ⟨hlt, rfl⟩ := List.getElem?_eq_some_iff.1 hp
  refine ⟨_, p', w.session.service.close?.toList ++ w.session.closers.take index,
    w.session.closers.drop (index + 1), w₁, hclose, ?_, ?_, _, _, rfl⟩
  · simp [Session.closes]
  · simp only [Session.closes, change, hsession, List.set_eq_take_append_cons_drop, if_pos hlt]
    simp

lemma serve_on {phase : ClosePhase} (hservice : w.session.service = .closing phase)
    (h : w.serveStep? = some w') :
    w.ClosesOn w' ∨ phase = .ended ∧ w' = w.goServe .ended := by
  simp only [serveStep?, hservice] at h
  split at h
  · next w₁ phase' hclose =>
    cases h
    obtain ⟨-, _, _, _, _, _, _, _, _, hsession, -⟩ := closeStep_frame hclose
    refine .inl ⟨phase, phase', [], w.session.closers, w₁, hclose, ?_, ?_, _, _, rfl⟩
    · simp [Session.closes, hservice, ServePhase.close?]
    · simp [Session.closes, goServe, change, hsession, ServePhase.close?]
  · next hnone =>
    cases h
    exact .inr ⟨closeStep?_eq_none hnone, rfl⟩

/-- The service goes on, and closes nothing before and after. -/
lemma carries_start {w₁ : World} {service : ServePhase} (hcarries : w.Carries w₁)
    (hbefore : w₁.session.service.close? = none) (hafter : service.close? = none) :
    w.Carries (w₁.goServe service) := by
  refine hcarries.trans (carries_closes (fun p hp _ => ?_) rfl)
  simp only [Session.closes, hbefore] at hp
  simp only [Session.closes, goServe, change, hafter]
  exact hp

lemma carries_serve (hsound : w.traffic.Sound) (hstaged : w.Staged)
    (h : w.serveStep? = some w') : w.Carries w' := by
  have hserve := h
  unfold serveStep? at h
  cases hservice : w.session.service with
  | absent | ended => simp [hservice] at h
  | startingControl =>
    simp only [hservice, Option.some.injEq] at h
    subst h
    have hcontrol : w.session.control = .absent := hsound.absent (.inl hservice)
    refine carries_start (carries_goControl (by simp [hcontrol]) _) ?_ rfl
    simp [goControl, change, hservice, ServePhase.close?]
  | startingReader =>
    simp only [hservice, Option.some.injEq] at h
    subst h
    have hreader : w.session.reader = .absent := hstaged.reader (by simp [hservice])
    refine carries_start (.of_actor rfl (fun hd hs => ?_) fun h => ⟨h, id⟩) ?_ rfl
    · cases hd with
      | reader => exact .inl (hs.resolve_right (by simp [hreader]))
      | control | evaluator | output => exact hs
    · simp [goReader, change, hservice, ServePhase.close?]
  | recording =>
    simp only [hservice, Option.some.injEq] at h
    subst h
    refine carries_start (.of_open rfl (fun p hp _ => hp) (fun hd hmem => .inl ?_)
      (fun hd hs => .inl ?_) fun h => ⟨h, id⟩) ?_ rfl
    · rw [Session.mem_handles] at hmem ⊢
      exact hmem.imp (.imp_right fun _ => rfl) (.imp (.imp_right fun _ => rfl) id)
    · cases hd <;> exact hs
    · simp [change, hservice, ServePhase.close?]
  | startingRepl =>
    simp only [hservice, Option.some.injEq] at h
    subst h
    refine carries_start (carries_ensureRepl hsound) ?_ (by split <;> rfl)
    rw [service_ensureRepl, hservice]
    rfl
  | opening =>
    have hphase : w.session.output.phase = .absent := hstaged.output (by simp [hservice])
    simp only [hservice] at h
    split at h
    · cases h
      refine carries_start (carries_changeOutput (by simp [hphase]) id (by simp [hphase])) ?_ rfl
      simp [changeOutput, change, hservice, ServePhase.close?]
    · cases h
      exact carries_start (.refl _ _) (by simp [hservice, ServePhase.close?]) rfl
  | recordingOutput port =>
    simp only [hservice, Option.some.injEq] at h
    subst h
    refine carries_start (.of_open rfl (fun p hp _ => hp) (fun hd hmem => .inl ?_)
      (fun hd hs => .inl ?_) fun h => ⟨h, id⟩) ?_ rfl
    · rw [Session.mem_handles] at hmem ⊢
      exact hmem.imp_right (.imp_right (.imp_right (.imp_right fun _ => rfl)))
    · cases hd <;> exact hs
    · simp [change, hservice, ServePhase.close?]
  | announcingOutput port =>
    simp only [hservice, Option.some.injEq] at h
    subst h
    have htold : w.Carries (w.emit (.openDedicatedOutput port)) := carries_same rfl
    exact carries_start htold
      (by simp [emit, tell, send, hservice, ServePhase.close?]) rfl
  | starting =>
    simp only [hservice, Option.some.injEq] at h
    subst h
    have hsent : w.Carries (w.send w.session.readerId .start) := carries_same rfl
    exact carries_start hsent
      (by simp [send, hservice, ServePhase.close?]) rfl
  | serving =>
    simp only [hservice] at h
    split at h
    · cases h
      refine carries_closes (fun p hp _ => ?_) rfl
      simp only [Session.closes, hservice, ServePhase.close?, goServe, change] at hp ⊢
      exact List.mem_append_right _ hp
    · cases h
  | closing phase =>
    rcases serve_on hservice hserve with hon | ⟨rfl, rfl⟩
    · exact carries_on hon
    · refine carries_closes (fun p hp hunder => ?_) rfl
      simp only [Session.closes, hservice, ServePhase.close?, Option.toList_some,
        List.singleton_append, List.mem_cons] at hp
      refine hp.resolve_left ?_
      rintro rfl
      cases hunder

/-- No step loses an actor that is accounted for. -/
theorem carries_step (hsound : w.traffic.Sound) (hstaged : w.Staged) {action : Action}
    (h : w.step? action = some w') : w.Carries w' := by
  cases action with
  | serve => exact carries_serve hsound hstaged h
  | reader => exact carries_reader (Nat.ne_of_lt hsound.reader_lt) h
  | control => exact carries_control hsound h
  | evaluator a => exact carries_evaluator hsound h
  | job index => exact carries_job h
  | output => exact carries_outputStep h
  | close index => exact carries_on (closer_on h)
  | finish handle => exact carries_finish h
  | cut calls =>
    obtain ⟨_, _, -, -, -, rfl⟩ := cutShort_spec h
    exact carries_controlEnd w _
  | wake index =>
    obtain ⟨jobs, rfl⟩ := wake_frame h
    exact carries_same rfl
  | connectOutput => exact carries_connectOutput h
  | deliver arrival =>
    simp only [step?] at h
    split at h
    · cases h
    · cases h
      exact carries_same rfl
  | endInput | hangUp =>
    cases h
    exact carries_same rfl
  | beginClose =>
    cases h
    refine carries_closes (fun p hp _ => ?_) rfl
    simp only [Session.closes, change, ← List.append_assoc]
    exact List.mem_append_left _ hp

end closing

end World

end EvalServer
