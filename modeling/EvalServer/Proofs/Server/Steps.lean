import EvalServer.Proofs.Session.Belongings
import EvalServer.Server.Step

/-!
# What a step of a server does

A step of a server is a step of one of its sessions, or starts or closes one, or makes one, or
leaves them all alone; and it takes each visit at most one phase further.
-/

namespace EvalServer

/-- Whether a call may still enter a port. -/
def CallPhase.mayEnter : CallPhase → Bool
  | .attending _ _ | .ended _ => false
  | _ => true

/-- The session that a visit has. -/
def Visit.session? (v : Visit) : Option Nat :=
  match v.phase with
  | .entering session | .serving session => some session
  | _ => none

namespace Server

/-- The action of a session that an action of its server is. -/
inductive Inner (s : Server) : Action → Nat → EvalServer.Action → Prop
  | session (i : Nat) (action : EvalServer.Action) : Inner s (.session i action) i action
  | deliver {v i : Nat} {visit : Visit} (arrival : Arrival) : s.visits[v]? = some visit →
      visit.session? = some i → Inner s (.deliver v arrival) i (.deliver arrival)
  | endInput {v i : Nat} {visit : Visit} : s.visits[v]? = some visit →
      visit.session? = some i → Inner s (.endInput v) i .endInput

/-- What a step does to the sessions and their mailboxes. -/
inductive Stirs (s : Server) : Action → Server → Prop
  | still {action : Action} {s' : Server} : (∀ i a, ¬ s.Inner action i a) →
      s'.sessions = s.sessions → s'.image.mailboxes = s.image.mailboxes → Stirs s action s'
  | act {action : Action} {i : Nat} {a : EvalServer.Action} {w w' : World} :
      s.Inner action i a → s.world? i = some w → w.step? a = some w' →
      Stirs s action (s.putWorld i w')
  | start {v i : Nat} {visit : Visit} {w : World} {s' : Server} : s.visits[v]? = some visit →
      visit.phase = .entering i → s.world? i = some w →
      s'.sessions = s.sessions.set i w.start.session → s'.image = s.image → Stirs s (.visit v) s'
  | close {k i : Nat} {phase phase' : ClosePhase} {w w' : World} {s' : Server} :
      s.world? i = some w → w.closeStep? phase = some (w', phase') →
      s'.sessions = s.sessions.set i w'.session → s'.image = w'.image → Stirs s (.shutdown k) s'
  | make {v : Nat} {visit : Visit} {s' : Server} : s.visits[v]? = some visit →
      visit.phase = .creating → s'.sessions = (s.createSession visit).2.sessions →
      s'.image = (s.createSession visit).2.image → Stirs s (.visit v) s'

variable {s s' : Server} {action : Action}

lemma world?_eq_some {i : Nat} {w : World} : s.world? i = some w ↔
    s.sessions[i]? = some w.session ∧ s.image = w.image := by
  simp only [world?, Option.map_eq_some_iff]
  constructor
  · rintro ⟨session, hget, rfl⟩
    exact ⟨hget, rfl⟩
  · rintro ⟨hget, himage⟩
    exact ⟨w.session, hget, by rw [himage]⟩

/-! ## Transitions -/

/-- What a step of an accept loop does. -/
inductive LoopMoves (s : Server) (j : Nat) (l : AcceptLoop) : Server → Prop
  | halt : l.phase = .accepting → l.stopped = true → LoopMoves s j l (s.setLoop j .closing)
  | accept {v : Nat} : l.phase = .accepting → l.stopped = false → s.waiting? j = some v →
      LoopMoves s j l ((s.setVisit v .loading).setLoop j (match l.listening.style with
        | .spawn => afterVisit l
        | .inline => .attending v))
  | attended {v : Nat} : l.phase = .attending v →
      ((s.visits[v]?).any fun visit => visit.phase = .ended) = true →
      LoopMoves s j l (s.setLoop j (afterVisit l))
  | close : l.phase = .closing → LoopMoves s j l ((s.closeSocket j).setLoop j .leaving)
  | leave : l.phase = .leaving → LoopMoves s j l
      ({ s with registry := s.registry.filter (· ≠ (l.listening.port, j)) }.setLoop j .ended)

/-- What a step of a visit does. -/
inductive VisitMoves (s : Server) (v : Nat) (visit : Visit) : Server → Prop
  | load (secret : Option String) : visit.phase = .loading →
      Handshake.loadSecret s.image.files s.config.secretFile = .ok secret →
      VisitMoves s v visit (s.setVisit v (.authenticating secret))
  | fail (e : AuthenticationError) : visit.phase = .loading →
      Handshake.loadSecret s.image.files s.config.secretFile = .error e →
      VisitMoves s v visit (s.setVisit v .ended)
  | pass {secret : Option String} {inbound : Delivery} : visit.phase = .authenticating secret →
      Handshake.authenticate s.config.coding secret visit.connection.inbound =
        (.ok (), inbound) →
      VisitMoves s v visit (s.changeVisit v fun visit =>
        { visit with connection := { visit.connection with inbound }, phase := .creating })
  | refuse {secret : Option String} {e : AuthenticationError} {inbound : Delivery} :
      visit.phase = .authenticating secret →
      Handshake.authenticate s.config.coding secret visit.connection.inbound =
        (.error e, inbound) → (isShortage e && !visit.connection.ended) = false →
      VisitMoves s v visit (s.changeVisit v fun visit =>
        { visit with connection := { visit.connection with inbound }, phase := .ended })
  | create : visit.phase = .creating → VisitMoves s v visit
      ((s.createSession visit).2.setVisit v (.entering s.sessions.length))
  | serve {i : Nat} {w : World} : visit.phase = .entering i → s.world? i = some w →
      VisitMoves s v visit
        (({ s with entered := s.entered ++ [i] }.putWorld i w.start).setVisit v (.serving i))
  | leave {i : Nat} {w : World} : visit.phase = .serving i → s.world? i = some w →
      w.session.service = .ended → VisitMoves s v visit (s.setVisit v .ended)

/-- What a client does at the end of the connection that a visit, or its session, has. -/
inductive ClientMoves (s : Server) (v : Nat) (a : EvalServer.Action)
    (f : Connection → Connection) : Server → Prop
  | inside {visit : Visit} {i : Nat} {w w' : World} : s.visits[v]? = some visit →
      visit.session? = some i → s.world? i = some w → w.step? a = some w' →
      ClientMoves s v a f (s.putWorld i w')
  | outside {visit : Visit} : s.visits[v]? = some visit → visit.session? = none →
      visit.connection.ended = false →
      ClientMoves s v a f (s.changeVisit v fun v => { v with connection := f v.connection })

/-- What a step of a call does before it sets what comes next. -/
inductive CallGoes (s : Server) (answer : Except String UInt16) :
    CallPhase → CallPhase → Server → Prop
  | unknown {port : UInt16} : (s.registry.lookup port).bind (s.loops[·]?) = none →
      CallGoes s answer (.finding port) (.ended (.error (.unknownPort port))) s
  | found {port : UInt16} {l : AcceptLoop} :
      (s.registry.lookup port).bind (s.loops[·]?) = some l →
      CallGoes s answer (.finding port) (.stopping l.listening) s
  | stop (l : Listening) : CallGoes s answer (.stopping l) (.pausing l) (s.stop l.port).2
  | pause (l : Listening) : CallGoes s answer (.pausing l) (.binding l) s
  | refuse {description : String} (l : Listening) : answer = .error description →
      CallGoes s answer (.binding l) (.ended (.error (.bind (s.address l.port) description))) s
  | bind {port : UInt16} (l : Listening) : answer = .ok port → s.mayBind l.port port = true →
      CallGoes s answer (.binding l) (.writing { l with port }) s
  | unwritten {e : ListenerError} (l : Listening) : s.writePort l.port = .error e →
      CallGoes s answer (.writing l) (.ended (.error e)) s
  | write {s₁ : Server} (l : Listening) : s.writePort l.port = .ok s₁ →
      CallGoes s answer (.writing l) (.entering l) s₁
  | enter (l : Listening) : CallGoes s answer (.entering l) (match l.style with
      | .spawn => .ended (.ok l.port)
      | .inline => .attending l.port s.loops.length) (s.enter l).2
  | attended {port : UInt16} {loop : Nat} :
      ((s.loops[loop]?).any fun l => l.phase = .ended) = true →
      CallGoes s answer (.attending port loop) (.ended (.ok port)) s

/-- What a step of a call does; most steps only decide what the call does next. -/
inductive CallMoves (s : Server) (index : Nat) : CallPhase → Server → Prop
  | go {phase phase' : CallPhase} : (phase.mayEnter = false → phase'.mayEnter = false) →
      CallMoves s index phase (s.setCall index phase')
  | stop (l : Listening) :
      CallMoves s index (.stopping l) ((s.stop l.port).2.setCall index (.pausing l))
  | written {path : String} {files : File.Store} (l : Listening) : s.config.portFile = some path →
      s.image.files.writeText path (Text.Decimal.natText l.port.toNat ++ "\n") = .ok files →
      CallMoves s index (.writing l)
        ({ s with image := { s.image with files } }.setCall index (.entering l))
  | enter {phase' : CallPhase} (l : Listening) :
      CallMoves s index (.entering l) ((s.enter l).2.setCall index phase')

/-- What a step of a shutdown does, and how the shutdown goes on. -/
inductive Shuts (s : Server) : ShutdownPhase → ShutdownPhase → Server → Prop
  | list : Shuts s .listing (.stopping s.ports) s
  | stop (port : UInt16) (rest : List UInt16) :
      Shuts s (.stopping (port :: rest)) (.stopping rest) (s.stop port).2
  | stopped : Shuts s (.stopping []) .taking s
  | take : Shuts s .taking (.closing s.entered) { s with entered := [] }
  | next (i : Nat) (rest : List Nat) :
      Shuts s (.closing (i :: rest)) (.closingOne .marking i rest) s
  | close {i : Nat} {p p' : ClosePhase} {w w' : World} (rest : List Nat) : s.world? i = some w →
      w.closeStep? p = some (w', p') →
      Shuts s (.closingOne p i rest) (.closingOne p' i rest) (s.putWorld i w')
  | closed {i : Nat} {p : ClosePhase} (rest : List Nat) :
      (∀ w, s.world? i = some w → p = .ended) → Shuts s (.closingOne p i rest) (.closing rest) s
  | done : Shuts s (.closing []) .ended s

section transitions

variable {j k v : Nat}

lemma changeVisit_changeVisit (s : Server) (u : Nat) (f g : Visit → Visit) :
    (s.changeVisit u f).changeVisit u g = s.changeVisit u fun visit => g (f visit) := by
  simp only [changeVisit, List.modify_modify_eq]
  rfl

lemma loop_moves (h : s.loopStep? j = some s') : ∃ l, s.loops[j]? = some l ∧
    s.LoopMoves j l s' := by
  simp only [loopStep?, Option.bind_eq_bind, Option.bind_eq_some_iff, Option.pure_def] at h
  obtain ⟨l, hl, h⟩ := h
  refine ⟨l, hl, ?_⟩
  cases hphase : l.phase with
  | accepting =>
    simp only [hphase] at h
    split at h
    · next hstopped =>
      cases h
      exact .halt hphase hstopped
    · next hstopped =>
      simp only [Option.bind_eq_some_iff, Option.some.injEq] at h
      obtain ⟨v, hwaiting, rfl⟩ := h
      exact .accept hphase (Bool.eq_false_iff.2 hstopped) hwaiting
  | attending v =>
    simp only [hphase] at h
    split at h <;> cases h
    exact .attended hphase ‹_›
  | closing =>
    simp only [hphase, Option.some.injEq] at h
    exact h ▸ .close hphase
  | leaving =>
    simp only [hphase, Option.some.injEq] at h
    exact h ▸ .leave hphase
  | ended => simp [hphase] at h

lemma visit_moves (h : s.visitStep? v = some s') : ∃ visit, s.visits[v]? = some visit ∧
    s.VisitMoves v visit s' := by
  simp only [visitStep?, Option.bind_eq_bind, Option.bind_eq_some_iff, Option.pure_def] at h
  obtain ⟨visit, hvisit, h⟩ := h
  refine ⟨visit, hvisit, ?_⟩
  cases hphase : visit.phase with
  | queued | ended => simp [hphase] at h
  | loading =>
    simp only [hphase] at h
    split at h
    · next e hload =>
      cases h
      exact .fail e hphase hload
    · next secret hload =>
      cases h
      exact .load secret hphase hload
  | authenticating secret =>
    simp only [hphase, authenticate?] at h
    cases hauth : Handshake.authenticate s.config.coding secret visit.connection.inbound with
    | mk result inbound =>
      rw [hauth] at h
      cases result with
      | ok =>
        cases h
        rw [setVisit, changeVisit_changeVisit]
        exact .pass hphase hauth
      | error e =>
        simp only at h
        split at h <;> cases h
        rw [setVisit, changeVisit_changeVisit]
        exact .refuse hphase hauth (Bool.eq_false_iff.2 ‹_›)
  | creating =>
    simp only [hphase, Option.some.injEq] at h
    exact h ▸ .create hphase
  | entering i =>
    simp only [hphase, Option.bind_eq_some_iff, Option.some.injEq] at h
    obtain ⟨w, hw, rfl⟩ := h
    exact .serve hphase hw
  | serving i =>
    simp only [hphase, Option.bind_eq_some_iff] at h
    obtain ⟨w, hw, h⟩ := h
    split at h <;> cases h
    exact .leave hphase hw ‹_›

lemma client_moves {a : EvalServer.Action} {f : Connection → Connection}
    (h : s.clientStep? v a f = some s') : s.ClientMoves v a f s' := by
  simp only [clientStep?, Option.bind_eq_bind, Option.bind_eq_some_iff, Option.pure_def] at h
  obtain ⟨visit, hvisit, h⟩ := h
  cases hphase : visit.phase with
  | entering i | serving i =>
    simp only [hphase, Option.bind_eq_some_iff, Option.some.injEq] at h
    obtain ⟨w, hw, w', hstep, rfl⟩ := h
    exact .inside hvisit (by simp only [Visit.session?, hphase]) hw hstep
  | _ =>
    simp only [hphase] at h
    split at h <;> cases h
    exact .outside hvisit (by simp only [Visit.session?, hphase]) (Bool.eq_false_iff.2 ‹_›)

lemma call_goes {answer : Except String UInt16} (h : s.callStep? k answer = some s') :
    ∃ phase phase' s₁, s.calls[k]? = some phase ∧ s.CallGoes answer phase phase' s₁ ∧
      s' = s₁.setCall k phase' := by
  simp only [callStep?, Option.bind_eq_bind, Option.bind_eq_some_iff, Option.pure_def] at h
  obtain ⟨phase, hphase, h⟩ := h
  cases phase with
  | finding port =>
    simp only at h
    split at h <;> cases h
    · exact ⟨_, _, _, hphase, .unknown ‹_›, rfl⟩
    · exact ⟨_, _, _, hphase, .found ‹_›, rfl⟩
  | stopping l =>
    cases h
    exact ⟨_, _, _, hphase, .stop l, rfl⟩
  | pausing l =>
    cases h
    exact ⟨_, _, _, hphase, .pause l, rfl⟩
  | binding l =>
    simp only at h
    split at h
    · cases h
      exact ⟨_, _, _, hphase, .refuse l rfl, rfl⟩
    · split at h <;> cases h
      exact ⟨_, _, _, hphase, .bind l rfl ‹_›, rfl⟩
  | writing l =>
    simp only at h
    split at h <;> cases h
    · exact ⟨_, _, _, hphase, .unwritten l ‹_›, rfl⟩
    · exact ⟨_, _, _, hphase, .write l ‹_›, rfl⟩
  | entering l =>
    cases h
    exact ⟨_, _, _, hphase, .enter l, rfl⟩
  | attending port loop =>
    simp only at h
    split at h <;> cases h
    exact ⟨_, _, _, hphase, .attended ‹_›, rfl⟩
  | ended => cases h

lemma call_moves {index : Nat} {answer : Except String UInt16}
    (h : s.callStep? index answer = some s') : ∃ phase, s.calls[index]? = some phase ∧
      s.CallMoves index phase s' := by
  obtain ⟨phase, phase', s₁, hphase, hgoes, rfl⟩ := call_goes h
  refine ⟨phase, hphase, ?_⟩
  cases hgoes with
  | unknown | found | pause | refuse | bind | unwritten | attended =>
    exact .go (by simp [CallPhase.mayEnter])
  | stop l => exact .stop l
  | write l hwrite =>
    unfold writePort at hwrite
    split at hwrite
    · cases hwrite
      exact .go (by simp [CallPhase.mayEnter])
    · split at hwrite <;> cases hwrite
      exact .written l ‹_› ‹_›
  | enter l => exact .enter l

lemma shutdown_shuts (h : s.shutdownStep? k = some s') : ∃ phase phase' s₁,
    s.shutdowns[k]? = some phase ∧ s.Shuts phase phase' s₁ ∧ s' = s₁.setShutdown k phase' := by
  simp only [shutdownStep?, Option.bind_eq_bind, Option.bind_eq_some_iff, Option.pure_def] at h
  obtain ⟨phase, hk, h⟩ := h
  cases phase with
  | listing =>
    cases h
    exact ⟨_, _, _, hk, .list, rfl⟩
  | stopping ports =>
    cases ports with
    | nil =>
      cases h
      exact ⟨_, _, _, hk, .stopped, rfl⟩
    | cons port rest =>
      cases h
      exact ⟨_, _, _, hk, .stop port rest, rfl⟩
  | taking =>
    cases h
    exact ⟨_, _, _, hk, .take, rfl⟩
  | closing sessions =>
    cases sessions with
    | nil =>
      cases h
      exact ⟨_, _, _, hk, .done, rfl⟩
    | cons i rest =>
      cases h
      exact ⟨_, _, _, hk, .next i rest, rfl⟩
  | closingOne p i rest =>
    simp only at h
    split at h
    · next w' p' hclose =>
      cases h
      obtain ⟨w, hw, hclose⟩ := Option.bind_eq_some_iff.1 hclose
      exact ⟨_, _, _, hk, .close rest hw hclose, rfl⟩
    · next hnone =>
      cases h
      refine ⟨_, _, _, hk, .closed rest fun w hw => ?_, rfl⟩
      rw [hw, Option.bind_some] at hnone
      exact World.closeStep?_eq_none hnone
  | ended => cases h

end transitions

section outer

lemma stop_sessions (s : Server) (port : UInt16) : (s.stop port).2.sessions = s.sessions ∧
    (s.stop port).2.image = s.image ∧ (s.stop port).2.visits = s.visits ∧
    (s.stop port).2.config = s.config := by
  unfold stop
  split <;> exact ⟨rfl, rfl, rfl, rfl⟩

lemma loop_still {index : Nat} (h : s.loopStep? index = some s') :
    s'.sessions = s.sessions ∧ s'.image = s.image ∧ s'.config = s.config := by
  obtain ⟨l, -, hmoves⟩ := loop_moves h
  cases hmoves <;> exact ⟨rfl, rfl, rfl⟩

lemma call_still {index : Nat} {answer : Except String UInt16}
    (h : s.callStep? index answer = some s') : s'.sessions = s.sessions ∧
      s'.image.mailboxes = s.image.mailboxes ∧ s'.visits = s.visits ∧ s'.config = s.config := by
  obtain ⟨phase, -, hmoves⟩ := call_moves h
  cases hmoves with
  | go | written | enter => exact ⟨rfl, rfl, rfl, rfl⟩
  | stop l =>
    obtain ⟨hsessions, himage, hvisits, hconfig⟩ := s.stop_sessions l.port
    exact ⟨hsessions, congrArg Image.mailboxes himage, hvisits, hconfig⟩

end outer

/-! ## Sessions -/

section sessions

lemma stirs_visit {v : Nat} (h : s.visitStep? v = some s') :
    s.Stirs (.visit v) s' ∧ s'.config = s.config := by
  have outside : ∀ i a, ¬ s.Inner (.visit v) i a := by
    rintro i a ⟨⟩
  obtain ⟨visit, hvisit, hmoves⟩ := visit_moves h
  cases hmoves with
  | create hphase => exact ⟨.make hvisit hphase rfl rfl, rfl⟩
  | serve hphase hw => exact ⟨.start hvisit hphase hw rfl (world?_eq_some.1 hw).2.symm, rfl⟩
  | load | fail | pass | refuse | leave => exact ⟨.still outside rfl rfl, rfl⟩

lemma stirs_shutdown {k : Nat} (h : s.shutdownStep? k = some s') :
    s.Stirs (.shutdown k) s' ∧ s'.config = s.config := by
  have outside : ∀ i a, ¬ s.Inner (.shutdown k) i a := by
    rintro i a ⟨⟩
  obtain ⟨phase, phase', s₁, -, hshuts, rfl⟩ := shutdown_shuts h
  cases hshuts with
  | list | stopped | take | next | closed | done => exact ⟨.still outside rfl rfl, rfl⟩
  | stop port rest =>
    obtain ⟨hsessions, himage, -, hconfig⟩ := s.stop_sessions port
    exact ⟨.still outside hsessions (congrArg Image.mailboxes himage), hconfig⟩
  | close rest hw hclose => exact ⟨.close hw hclose rfl rfl, rfl⟩

lemma stirs_client {v : Nat} {a : EvalServer.Action} {f : Connection → Connection}
    (hinner : ∀ visit i, s.visits[v]? = some visit → visit.session? = some i → s.Inner action i a)
    (houter : ∀ i b, s.Inner action i b →
      ∃ visit, s.visits[v]? = some visit ∧ visit.session? = some i)
    (h : s.clientStep? v a f = some s') : s.Stirs action s' ∧ s'.config = s.config := by
  cases client_moves h with
  | inside hvisit hsession hw hstep => exact ⟨.act (hinner _ _ hvisit hsession) hw hstep, rfl⟩
  | outside hvisit hnone =>
    refine ⟨.still (fun i b hib => ?_) rfl rfl, rfl⟩
    obtain ⟨visit', hvisit', hsession⟩ := houter i b hib
    rw [hvisit, Option.some.injEq] at hvisit'
    rw [← hvisit', hnone] at hsession
    cases hsession

/-- Every step of a server is one of these, and none changes its settings. -/
theorem step_stirs (h : s.step? action = some s') : s.Stirs action s' ∧ s'.config = s.config := by
  cases action with
  | visit v => exact stirs_visit h
  | shutdown k => exact stirs_shutdown h
  | session i a =>
    simp only [step?, Option.bind_eq_bind, Option.bind_eq_some_iff, Option.pure_def,
      Option.some.injEq] at h
    obtain ⟨w, hw, w', hstep, rfl⟩ := h
    exact ⟨.act (.session i a) hw hstep, rfl⟩
  | deliver v arrival =>
    refine stirs_client (f := (·.arrive arrival))
      (fun visit i hvisit hi => .deliver arrival hvisit hi) ?_ h
    rintro i b ⟨⟩
    exact ⟨_, ‹_›, ‹_›⟩
  | endInput v =>
    refine stirs_client (f := fun c => { c with ended := true })
      (fun visit i hvisit hi => .endInput hvisit hi) ?_ h
    rintro i b ⟨⟩
    exact ⟨_, ‹_›, ‹_›⟩
  | loop index =>
    obtain ⟨hsessions, himage, hconfig⟩ := loop_still h
    exact ⟨.still (by rintro i a ⟨⟩) hsessions (congrArg Image.mailboxes himage), hconfig⟩
  | call index answer =>
    obtain ⟨hsessions, hmail, -, hconfig⟩ := call_still h
    exact ⟨.still (by rintro i a ⟨⟩) hsessions hmail, hconfig⟩
  | waiter index =>
    simp only [step?, Option.bind_eq_bind, Option.bind_eq_some_iff, Option.pure_def,
      Option.some.injEq] at h
    obtain ⟨quit, -, rfl⟩ := h
    exact ⟨.still (by rintro i a ⟨⟩) rfl rfl, rfl⟩
  | connect loop =>
    simp only [step?, Option.bind_eq_bind, Option.bind_eq_some_iff, Option.pure_def] at h
    obtain ⟨l, -, h⟩ := h
    split at h <;> cases h
    exact ⟨.still (by rintro i a ⟨⟩) rfl rfl, rfl⟩
  | stop port =>
    cases h
    obtain ⟨hsessions, himage, -, hconfig⟩ := s.stop_sessions port
    exact ⟨.still (by rintro i a ⟨⟩) hsessions (congrArg Image.mailboxes himage), hconfig⟩
  | beginListen | beginRestart | beginShutdown | beginWait =>
    cases h
    exact ⟨.still (by rintro i a ⟨⟩) rfl rfl, rfl⟩

end sessions

/-! ## Visits -/

/-- How a step takes a visit further. -/
inductive Passes (s : Server) (v : Nat) : Action → Visit → Visit → Prop
  | still {action : Action} {visit : Visit} : action ≠ .visit v →
      (∀ arrival, action = .deliver v arrival → visit.session? ≠ none) →
      Passes s v action visit visit
  | accept {j : Nat} {visit : Visit} : visit.phase = .queued →
      Passes s v (.loop j) visit { visit with phase := .loading }
  | drop {j : Nat} {visit : Visit} : visit.phase = .queued →
      Passes s v (.loop j) visit { visit with phase := .ended }
  | load {visit : Visit} (secret : Option String) : visit.phase = .loading →
      Handshake.loadSecret s.image.files s.config.secretFile = .ok secret →
      Passes s v (.visit v) visit { visit with phase := .authenticating secret }
  | fail {visit : Visit} (e : AuthenticationError) : visit.phase = .loading →
      Handshake.loadSecret s.image.files s.config.secretFile = .error e →
      Passes s v (.visit v) visit { visit with phase := .ended }
  | pass {visit : Visit} {secret : Option String} {inbound : Delivery} :
      visit.phase = .authenticating secret →
      Handshake.authenticate s.config.coding secret visit.connection.inbound =
        (.ok (), inbound) →
      Passes s v (.visit v) visit
        { visit with connection := { visit.connection with inbound }, phase := .creating }
  | refuse {visit : Visit} {secret : Option String} {e : AuthenticationError}
      {inbound : Delivery} : visit.phase = .authenticating secret →
      Handshake.authenticate s.config.coding secret visit.connection.inbound =
        (.error e, inbound) → (isShortage e && !visit.connection.ended) = false →
      Passes s v (.visit v) visit
        { visit with connection := { visit.connection with inbound }, phase := .ended }
  | create {visit : Visit} : visit.phase = .creating →
      Passes s v (.visit v) visit { visit with phase := .entering s.sessions.length }
  | serve {visit : Visit} {i : Nat} {w : World} : visit.phase = .entering i →
      s.world? i = some w → Passes s v (.visit v) visit { visit with phase := .serving i }
  | leave {visit : Visit} {i : Nat} {w : World} : visit.phase = .serving i →
      s.world? i = some w → w.session.service = .ended →
      Passes s v (.visit v) visit { visit with phase := .ended }
  | arrive {visit : Visit} (arrival : Arrival) : visit.session? = none →
      visit.connection.ended = false → Passes s v (.deliver v arrival) visit
        { visit with connection := visit.connection.arrive arrival }
  | endInput {visit : Visit} : visit.session? = none → visit.connection.ended = false →
      Passes s v (.endInput v) visit
        { visit with connection := { visit.connection with ended := true } }

section visits

variable {v : Nat} {visit' : Visit}

lemma visits_changeVisit {u : Nat} {f : Visit → Visit} :
    (s.changeVisit u f).visits[v]? = some visit' ↔
      ∃ visit, s.visits[v]? = some visit ∧ visit' = if u = v then f visit else visit := by
  simp only [changeVisit, List.getElem?_modify]
  cases s.visits[v]? with
  | none => simp
  | some visit => simp [eq_comm]

/-- A step that only a certain visit can see. -/
lemma passes_of_change {u : Nat} {f : Visit → Visit} (haction : u ≠ v → action ≠ .visit v)
    (hdeliver : u ≠ v → ∀ arrival, action ≠ .deliver v arrival)
    (hpass : ∀ visit, u = v → s.visits[v]? = some visit → s.Passes v action visit (f visit))
    (hv : (s.changeVisit u f).visits[v]? = some visit') :
    ∃ visit, s.visits[v]? = some visit ∧ s.Passes v action visit visit' := by
  obtain ⟨visit, hvisit, rfl⟩ := visits_changeVisit.1 hv
  refine ⟨visit, hvisit, ?_⟩
  by_cases hu : u = v
  · rw [if_pos hu]
    exact hpass visit hu hvisit
  · rw [if_neg hu]
    exact .still (haction hu) fun arrival h => absurd h (hdeliver hu arrival)

lemma loop_passes {j : Nat} (h : s.loopStep? j = some s') (hv : s'.visits[v]? = some visit') :
    ∃ visit, s.visits[v]? = some visit ∧ s.Passes v (.loop j) visit visit' := by
  have still : s.visits[v]? = some visit' → ∃ visit, s.visits[v]? = some visit ∧
      s.Passes v (.loop j) visit visit' :=
    fun hvisit => ⟨visit', hvisit, .still (by simp) (by simp)⟩
  obtain ⟨l, -, hmoves⟩ := loop_moves h
  cases hmoves with
  | halt | attended | leave => exact still hv
  | @accept u _ _ hwaiting =>
    refine passes_of_change (u := u) (fun _ => by simp) (fun _ _ => by simp) ?_ hv
    rintro visit rfl hvisit
    -- the visit that is accepted has waited in the queue
    obtain ⟨hlt, hboth, -⟩ := List.findIdx?_eq_some_iff_getElem.1 hwaiting
    rw [List.getElem?_eq_getElem hlt, Option.some.injEq] at hvisit
    rw [hvisit, decide_eq_true_eq] at hboth
    exact .accept hboth.2
  | close =>
    simp only [setLoop, changeLoop, closeSocket, List.getElem?_map, Option.map_eq_some_iff] at hv
    obtain ⟨visit, hvisit, rfl⟩ := hv
    refine ⟨visit, hvisit, ?_⟩
    split
    · next hboth => exact .drop hboth.2
    · exact .still (by simp) (by simp)

lemma visit_passes {u : Nat} (h : s.visitStep? u = some s') (hv : s'.visits[v]? = some visit') :
    ∃ visit, s.visits[v]? = some visit ∧ s.Passes v (.visit u) visit visit' := by
  obtain ⟨visit, hvisit, hmoves⟩ := visit_moves h
  have change : ∀ f : Visit → Visit, (u = v → s.Passes v (.visit u) visit (f visit)) →
      (s.changeVisit u f).visits[v]? = some visit' →
      ∃ visit, s.visits[v]? = some visit ∧ s.Passes v (.visit u) visit visit' := by
    intro f hpass hv
    refine passes_of_change (u := u) (fun hu => by simpa using hu) (fun _ _ => by simp) ?_ hv
    rintro visit₁ rfl hvisit₁
    rw [hvisit, Option.some.injEq] at hvisit₁
    exact hvisit₁ ▸ hpass rfl
  cases hmoves with
  | load secret hphase hload => exact change _ (fun hu => hu ▸ .load secret hphase hload) hv
  | fail e hphase hload => exact change _ (fun hu => hu ▸ .fail e hphase hload) hv
  | pass hphase hauth => exact change _ (fun hu => hu ▸ .pass hphase hauth) hv
  | refuse hphase hauth hrefused =>
    exact change _ (fun hu => hu ▸ .refuse hphase hauth hrefused) hv
  | create hphase =>
    exact change (fun v => { v with phase := .entering s.sessions.length })
      (fun hu => hu ▸ .create hphase) hv
  | @serve i _ hphase hw =>
    exact change (fun v => { v with phase := .serving i }) (fun hu => hu ▸ .serve hphase hw) hv
  | leave hphase hw hended => exact change _ (fun hu => hu ▸ .leave hphase hw hended) hv

lemma client_passes {u : Nat} {a : EvalServer.Action} {f : Connection → Connection}
    (haction : ∀ u', action ≠ .visit u')
    (hdeliver : ∀ u' arrival, action = .deliver u' arrival → u' = u)
    (hpass : ∀ visit, u = v → visit.session? = none → visit.connection.ended = false →
      s.Passes v action visit { visit with connection := f visit.connection })
    (h : s.clientStep? u a f = some s') (hv : s'.visits[v]? = some visit') :
    ∃ visit, s.visits[v]? = some visit ∧ s.Passes v action visit visit' := by
  cases client_moves h with
  | inside hvisit hsession =>
    -- a session that has the connection takes the step, and the visit stays as it is
    refine ⟨visit', hv, .still (haction v) fun arrival heq hnone => ?_⟩
    obtain rfl := hdeliver v arrival heq
    replace hv : s.visits[v]? = some visit' := hv
    rw [hvisit, Option.some.injEq] at hv
    rw [hv, hnone] at hsession
    cases hsession
  | outside hvisit hnone hended =>
    refine passes_of_change (u := u) (fun _ => haction v) ?_ ?_ hv
    · intro hu arrival heq
      exact hu (hdeliver v arrival heq).symm
    · rintro visit₁ rfl hvisit₁
      rw [hvisit, Option.some.injEq] at hvisit₁
      exact hvisit₁ ▸ hpass _ rfl hnone hended

lemma shutdown_visits {k : Nat} (h : s.shutdownStep? k = some s') : s'.visits = s.visits := by
  obtain ⟨phase, phase', s₁, -, hshuts, rfl⟩ := shutdown_shuts h
  cases hshuts with
  | stop port rest => exact (s.stop_sessions port).2.2.1
  | list | stopped | take | next | close | closed | done => rfl

/-- A step takes a visit further or makes a new one. -/
theorem step_passes (h : s.step? action = some s') (hv : s'.visits[v]? = some visit') :
    (∃ visit, s.visits[v]? = some visit ∧ s.Passes v action visit visit') ∨
      ∃ loop, action = .connect loop ∧ v = s.visits.length ∧ visit' = { loop } := by
  have still : s'.visits = s.visits → action ≠ .visit v →
      (∀ arrival, action ≠ .deliver v arrival) →
      ∃ visit, s.visits[v]? = some visit ∧ s.Passes v action visit visit' :=
    fun hsame hne hne' => ⟨visit', hsame ▸ hv, .still hne fun arrival heq => absurd heq (hne' arrival)⟩
  cases action with
  | visit u => exact .inl (visit_passes h hv)
  | loop j => exact .inl (loop_passes h hv)
  | deliver u arrival =>
    refine .inl (client_passes (f := (·.arrive arrival)) (by simp) ?_ ?_ h hv)
    · rintro u' _ ⟨⟩
      rfl
    · rintro visit rfl hnone hended
      exact .arrive arrival hnone hended
  | endInput u =>
    refine .inl (client_passes (f := fun c => { c with ended := true }) (by simp) (by simp) ?_ h hv)
    rintro visit rfl hnone hended
    exact .endInput hnone hended
  | connect loop =>
    simp only [step?, Option.bind_eq_bind, Option.bind_eq_some_iff, Option.pure_def] at h
    obtain ⟨l, -, h⟩ := h
    split at h
    · cases h
      rcases Nat.lt_trichotomy v s.visits.length with hlt | heq | hgt
      · rw [List.getElem?_append_left hlt] at hv
        exact .inl ⟨visit', hv, .still (by simp) (by simp)⟩
      · subst heq
        rw [List.getElem?_concat_length, Option.some.injEq] at hv
        exact .inr ⟨loop, rfl, rfl, hv.symm⟩
      · rw [List.getElem?_eq_none (by simp; omega)] at hv
        cases hv
    · cases h
  | shutdown k => exact .inl (still (shutdown_visits h) (by simp) (by simp))
  | call index answer => exact .inl (still (call_still h).2.2.1 (by simp) (by simp))
  | stop port =>
    cases h
    exact .inl (still (s.stop_sessions port).2.2.1 (by simp) (by simp))
  | session i a =>
    simp only [step?, Option.bind_eq_bind, Option.bind_eq_some_iff, Option.pure_def,
      Option.some.injEq] at h
    obtain ⟨w, -, w', -, rfl⟩ := h
    exact .inl (still rfl (by simp) (by simp))
  | waiter index =>
    simp only [step?, Option.bind_eq_bind, Option.bind_eq_some_iff, Option.pure_def,
      Option.some.injEq] at h
    obtain ⟨quit, -, rfl⟩ := h
    exact .inl (still rfl (by simp) (by simp))
  | beginListen | beginRestart | beginShutdown | beginWait =>
    cases h
    exact .inl (still rfl (by simp) (by simp))

lemma length_visits_client {u : Nat} {a : EvalServer.Action} {f : Connection → Connection}
    (h : s.clientStep? u a f = some s') : s'.visits.length = s.visits.length := by
  cases client_moves h with
  | inside => rfl
  | outside => exact List.length_modify ..

/-- No visit is forgotten. -/
lemma length_visits (h : s.step? action = some s') : s.visits.length ≤ s'.visits.length := by
  have same : s'.visits.length = s.visits.length → s.visits.length ≤ s'.visits.length :=
    fun heq => Nat.le_of_eq heq.symm
  cases action with
  | visit u =>
    obtain ⟨visit, -, hmoves⟩ := visit_moves h
    cases hmoves <;> exact same (List.length_modify ..)
  | loop j =>
    obtain ⟨l, -, hmoves⟩ := loop_moves h
    cases hmoves with
    | halt | attended | leave => exact Nat.le_refl _
    | accept => exact same (List.length_modify ..)
    | close => exact same (List.length_map ..)
  | deliver u arrival =>
    exact same (length_visits_client (a := .deliver arrival) (f := (·.arrive arrival)) h)
  | endInput u =>
    exact same (length_visits_client (a := .endInput) (f := fun c => { c with ended := true }) h)
  | connect loop =>
    simp only [step?, Option.bind_eq_bind, Option.bind_eq_some_iff, Option.pure_def] at h
    obtain ⟨l, -, h⟩ := h
    split at h <;> cases h
    simp
  | shutdown k => exact same (congrArg List.length (shutdown_visits h))
  | call index answer => exact same (congrArg List.length (call_still h).2.2.1)
  | stop port =>
    cases h
    exact same (congrArg List.length (s.stop_sessions port).2.2.1)
  | session i a =>
    simp only [step?, Option.bind_eq_bind, Option.bind_eq_some_iff, Option.pure_def,
      Option.some.injEq] at h
    obtain ⟨w, -, w', -, rfl⟩ := h
    exact Nat.le_refl _
  | waiter index =>
    simp only [step?, Option.bind_eq_bind, Option.bind_eq_some_iff, Option.pure_def,
      Option.some.injEq] at h
    obtain ⟨quit, -, rfl⟩ := h
    exact Nat.le_refl _
  | beginListen | beginRestart | beginShutdown | beginWait =>
    cases h
    exact Nat.le_refl _

end visits

/-! ## Runs -/

section runs

variable {L : Type} {note : Server → Action → Server → L → L} {last : Server}
  {actions : List Action}

/-- The record of a run: what was on it before, with what is noted of each step. -/
def recorded (note : Server → Action → Server → L → L) (s : Server) (record : L) :
    List Action → L
  | [] => record
  | action :: rest =>
    match s.step? action with
    | none => record
    | some s' => s'.recorded note (note s action s' record) rest

/-- What every step keeps of a server and the record of what has happened holds at the end. -/
theorem recorded_induction {P : Server → L → Prop} {record : L} (start : P s record)
    (next : ∀ s₁ record₁ action s₂, P s₁ record₁ → s₁.step? action = some s₂ →
      P s₂ (note s₁ action s₂ record₁))
    (hrun : s.run? actions = some last) : P last (s.recorded note record actions) := by
  induction actions generalizing s record with
  | nil =>
    cases hrun
    exact start
  | cons action rest ih =>
    simp only [run?, Option.bind_eq_bind, Option.bind_eq_some_iff] at hrun
    obtain ⟨s₁, hstep, hrest⟩ := hrun
    simp only [recorded, hstep]
    exact ih (next s record action s₁ start hstep) hrest

/-- What every step keeps holds at the end. -/
theorem run_induction {P : Server → Prop} (start : P s)
    (next : ∀ s₁ action s₂, P s₁ → s₁.step? action = some s₂ → P s₂)
    (hrun : s.run? actions = some last) : P last :=
  @recorded_induction s Unit (fun _ _ _ record => record) last actions (fun s _ => P s) () start
    (fun s₁ _ action s₂ => next s₁ action s₂) hrun

end runs

end Server

end EvalServer
