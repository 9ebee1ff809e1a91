import EvalServer.Proofs.Server.Listeners
import Mathlib.Data.List.Perm.Subperm

/-!
# Calls that listen

A call takes its steps among those of everything else. One that listens and fails has left the
registry alone; a restart listens again in just the way in which the port was listened on; and a
loop that is not to keep listening takes one connection at most.
-/

namespace EvalServer

/-- Whether a call has come to listen; a restart does so once it has found the port, stopped it and
waited. -/
def CallPhase.listens : CallPhase → Bool
  | .finding _ | .stopping _ | .pausing _ => false
  | _ => true

/-- Whether a call has entered a port. -/
def CallPhase.hasEntered : CallPhase → Bool
  | .attending _ _ | .ended (.ok _) => true
  | _ => false

/-- Whether a call has failed. -/
def CallPhase.hasFailed : CallPhase → Bool
  | .ended (.error _) => true
  | _ => false

namespace Server

variable {s s' : Server} {action : Action} {j k n : Nat} {l : AcceptLoop} {phase : CallPhase}

/-! ## What a step leaves of loops and calls -/

/-- What a step leaves of an accept loop: it never listens in another way, and only one that keeps
listening accepts again. -/
structure LoopKept (l l' : AcceptLoop) : Prop where
  listening : l'.listening = l.listening
  accepting : l'.phase = .accepting → l.phase = .accepting ∨ l.listening.keep = true

section kept

lemma LoopKept.refl (l : AcceptLoop) : LoopKept l l :=
  ⟨rfl, .inl⟩

lemma afterVisit_accepting (h : afterVisit l = .accepting) : l.listening.keep = true := by
  unfold afterVisit at h
  split at h
  · assumption
  · cases h

lemma LoopMoves.sets (h : s.LoopMoves j l s') : ∃ phase, s'.loops = (s.setLoop j phase).loops ∧
    (phase = .accepting → l.phase = .accepting ∨ l.listening.keep = true) := by
  cases h with
  | halt | close | leave => exact ⟨_, rfl, by simp⟩
  | accept hphase => exact ⟨_, rfl, fun _ => .inl hphase⟩
  | attended => exact ⟨_, rfl, fun h => .inr (afterVisit_accepting h)⟩

lemma loops_stop (port : UInt16) (hl : s.loops[j]? = some l) :
    ∃ l', (s.stop port).2.loops[j]? = some l' ∧ LoopKept l l' := by
  unfold stop
  split
  · exact ⟨l, hl, .refl l⟩
  · refine ⟨_, loops_changeLoop.2 ⟨l, hl, rfl⟩, ?_⟩
    split <;> exact ⟨rfl, .inl⟩

lemma loops_enter (l₁ : Listening) (hl : s.loops[j]? = some l) :
    (s.enter l₁).2.loops[j]? = some l :=
  List.getElem?_append_left (List.getElem?_eq_some_iff.1 hl).1 ▸ hl

lemma loops_kept (h : s.step? action = some s') (hl : s.loops[j]? = some l) :
    ∃ l', s'.loops[j]? = some l' ∧ LoopKept l l' := by
  have same : s'.loops = s.loops → ∃ l', s'.loops[j]? = some l' ∧ LoopKept l l' :=
    fun hsame => ⟨l, hsame ▸ hl, .refl l⟩
  cases step_tends h with
  | still _ _ hsame => exact same (congrArg (·.2.1) hsame)
  | stop port _ _ hsame =>
    obtain ⟨l', hl', hkept⟩ := loops_stop port hl
    exact ⟨l', (congrArg (·.2.1) hsame : s'.loops = _) ▸ hl', hkept⟩
  | listen | restart => exact same rfl
  | @loop i l₁ _ hl₁ hmoves =>
    obtain ⟨phase, hloops, haccepting⟩ := hmoves.sets
    rw [hloops]
    refine ⟨_, loops_changeLoop.2 ⟨l, hl, rfl⟩, ?_⟩
    split
    · next hi =>
      subst hi
      rw [hl₁, Option.some.injEq] at hl
      exact ⟨rfl, fun hphase => hl ▸ haccepting hphase⟩
    · exact .refl l
  | call _ hgoes =>
    cases hgoes with
    | unknown | found | pause | refuse | bind | unwritten | attended => exact same rfl
    | stop l₁ => exact loops_stop l₁.port hl
    | write l₁ hwrite => exact same (writePort_same hwrite).2.1
    | enter l₁ => exact ⟨l, loops_enter l₁ hl, .refl l⟩

variable {answer : Except String UInt16} {phase' : CallPhase} {s₁ : Server}

lemma CallGoes.calls (h : s.CallGoes answer phase phase' s₁) : s₁.calls = s.calls := by
  cases h with
  | stop l => exact (s.stop_same l.port).2.2.2
  | write l hwrite => exact (writePort_same hwrite).2.2
  | _ => rfl

/-- Only its own steps take a call further. -/
lemma call_kept (h : s.step? action = some s') (hk : s.calls[k]? = some phase) :
    s'.calls[k]? = some phase ∨ ∃ answer phase' s₁, s.CallGoes answer phase phase' s₁ ∧
      s' = s₁.setCall k phase' ∧ s'.calls[k]? = some phase' := by
  cases step_tends h with
  | still _ _ hsame | stop _ _ _ hsame => exact .inl ((congrArg (·.2.2) hsame : s'.calls = _) ▸ hk)
  | listen | restart =>
    exact .inl (List.getElem?_append_left (List.getElem?_eq_some_iff.1 hk).1 ▸ hk)
  | loop _ hmoves => cases hmoves <;> exact .inl hk
  | @call k' answer phase₁ phase' s₁ hphase hgoes =>
    have hcalls : (s₁.setCall k' phase').calls = s.calls.set k' phase' := by
      rw [setCall, hgoes.calls]
    rw [hcalls]
    by_cases hk' : k' = k
    · subst hk'
      rw [hk, Option.some.injEq] at hphase
      subst hphase
      refine .inr ⟨answer, phase', s₁, hgoes, rfl, ?_⟩
      exact List.getElem?_set_self (List.getElem?_eq_some_iff.1 hk).1
    · rw [List.getElem?_set_ne hk']
      exact .inl hk

end kept

/-! ## To listen in vain -/

section listens

variable {answer : Except String UInt16} {phase' : CallPhase} {s₁ : Server}

/-- A call that listens changes the registry only as it enters a port. -/
lemma CallGoes.registry (h : s.CallGoes answer phase phase' s₁) (hlistens : phase.listens = true) :
    phase'.hasEntered = true ∨ s₁.registry = s.registry ∧ s₁.loops = s.loops := by
  cases h with
  | unknown | found | stop | pause => cases hlistens
  | refuse | bind | unwritten => exact .inr ⟨rfl, rfl⟩
  | write l hwrite => exact .inr ⟨(writePort_same hwrite).1, (writePort_same hwrite).2.1⟩
  | enter l => cases l.style <;> exact .inl rfl
  | attended => exact .inl rfl

lemma CallGoes.listens (h : s.CallGoes answer phase phase' s₁) (hlistens : phase.listens = true) :
    phase'.listens = true := by
  cases h with
  | unknown | found | stop | pause => cases hlistens
  | refuse | bind | unwritten | write | attended => rfl
  | enter l => cases l.style <;> rfl

lemma CallGoes.hasEntered (h : s.CallGoes answer phase phase' s₁)
    (hentered : phase.hasEntered = true) : phase'.hasEntered = true := by
  cases h with
  | attended => rfl
  | _ => cases hentered

/-- A call that has come to listen: if it comes to an error, a step of its own changes no entry and
makes no loop. -/
def FailsAlone (s : Server) : Prop :=
  ∀ k phase answer s' after last e, s.calls[k]? = some phase → phase.listens = true →
    s.step? (.call k answer) = some s' → s'.run? after = some last →
    last.calls[k]? = some (.ended (.error e)) → s'.registry = s.registry ∧ s'.loops = s.loops

lemma failsAlone (s : Server) : s.FailsAlone := by
  intro k phase answer s' after last e hphase hlistens hstep hafter hfailed
  obtain ⟨phase₁, phase', s₁, hphase₁, hgoes, rfl⟩ := call_goes hstep
  rw [hphase, Option.some.injEq] at hphase₁
  subst hphase₁
  refine (hgoes.registry hlistens).resolve_left fun hentered => ?_
  -- otherwise the call would have come to a port
  have hphase' : (s₁.setCall k phase').calls[k]? = some phase' := by
    rw [setCall, hgoes.calls]
    exact List.getElem?_set_self (List.getElem?_eq_some_iff.1 hphase).1
  obtain ⟨phase, hlast, hentered⟩ : ∃ phase, last.calls[k]? = some phase ∧
      phase.hasEntered = true := by
    refine run_induction (P := fun u => ∃ phase, u.calls[k]? = some phase ∧
      phase.hasEntered = true) ⟨phase', hphase', hentered⟩ ?_ hafter
    rintro u action u' ⟨phase, hphase, hentered⟩ h
    rcases call_kept h hphase with hkept | ⟨answer, phase', s₁, hgoes, -, hphase'⟩
    · exact ⟨phase, hkept, hentered⟩
    · exact ⟨phase', hphase', hgoes.hasEntered hentered⟩
  rw [hfailed, Option.some.injEq] at hlast
  subst hlast
  cases hentered

/-- However a call to listen that begins now goes: if it comes to an error, no step of its own has
changed an entry or made a loop. -/
def ListensOrLeaves (s : Server) (l : Listening) : Prop :=
  ∀ before u answer u' after last e, s.run? (.beginListen l :: before) = some u →
    u.step? (.call s.calls.length answer) = some u' → u'.run? after = some last →
    last.calls[s.calls.length]? = some (.ended (.error e)) →
    u'.registry = u.registry ∧ u'.loops = u.loops

lemma listensOrLeaves (s : Server) (l : Listening) : s.ListensOrLeaves l := by
  intro before u answer u' after last e hbefore hstep hafter hfailed
  obtain ⟨phase, hphase, hlistens⟩ : ∃ phase, u.calls[s.calls.length]? = some phase ∧
      phase.listens = true := by
    refine run_induction (P := fun u => ∃ phase, u.calls[s.calls.length]? = some phase ∧
      phase.listens = true) (s := { s with calls := s.calls ++ [.binding l] })
      ⟨_, List.getElem?_concat_length, rfl⟩ ?_ hbefore
    rintro u₁ action u₂ ⟨phase, hphase, hlistens⟩ h
    rcases call_kept h hphase with hkept | ⟨answer, phase', s₁, hgoes, -, hphase'⟩
    · exact ⟨phase, hkept, hlistens⟩
    · exact ⟨phase', hphase', hgoes.listens hlistens⟩
  exact u.failsAlone _ phase answer u' after last e hphase hlistens hstep hafter hfailed

end listens

/-! ## To listen again -/

/-- A restart has found the port to be listened on in a certain way, and listens on it again: in
that very way, with a loop that is not among the first `n`. -/
inductive Resumes (s : Server) (l : Listening) (n : Nat) : CallPhase → Prop
  | stopping : Resumes s l n (.stopping l)
  | pausing : Resumes s l n (.pausing l)
  | binding : Resumes s l n (.binding l)
  | refused (description : String) :
      Resumes s l n (.ended (.error (.bind (s.address l.port) description)))
  | writing : Resumes s l n (.writing l)
  | unwritten (path : String) (cause : FileError) :
      Resumes s l n (.ended (.error (.portFile path cause)))
  | entering : Resumes s l n (.entering l)
  | attending {j : Nat} {loop : AcceptLoop} : n ≤ j → s.loops[j]? = some loop →
      loop.listening = l → Resumes s l n (.attending l.port j)
  | listens {j : Nat} {loop : AcceptLoop} : n ≤ j → s.loops[j]? = some loop →
      loop.listening = l → Resumes s l n (.ended (.ok l.port))

section resumes

variable {l : Listening}

lemma writePort_error {port : UInt16} {e : ListenerError} (h : s.writePort port = .error e) :
    ∃ path cause, e = .portFile path cause := by
  unfold writePort at h
  split at h
  · cases h
  · split at h <;> cases h
    exact ⟨_, _, rfl⟩

lemma CallGoes.resumes {answer : Except String UInt16} {phase' : CallPhase} {s₁ : Server}
    (hport : l.port ≠ 0) (hn : n ≤ s.loops.length) (h : s.CallGoes answer phase phase' s₁)
    (hresumes : s.Resumes l n phase) : (s₁.setCall k phase').Resumes l n phase' := by
  cases h with
  | unknown | found => cases hresumes
  | stop =>
    cases hresumes
    exact .pausing
  | pause =>
    cases hresumes
    exact .binding
  | refuse =>
    cases hresumes
    exact .refused _
  | @bind port _ _ hbind =>
    cases hresumes
    -- the port that is asked for is not zero, so there is no other that can be given
    obtain rfl : l.port = port := by
      simp only [mayBind, Bool.and_eq_true, decide_eq_true_eq, Bool.or_eq_true] at hbind
      exact hbind.1.2.resolve_left hport
    exact .writing
  | unwritten _ hwrite =>
    cases hresumes
    obtain ⟨path, cause, rfl⟩ := writePort_error hwrite
    exact .unwritten path cause
  | write =>
    cases hresumes
    exact .entering
  | enter =>
    cases hresumes
    have hnew : (s.enter l).2.loops[s.loops.length]? = some { listening := l } :=
      List.getElem?_concat_length
    cases l.style with
    | spawn => exact .listens hn hnew rfl
    | inline => exact .attending hn hnew rfl
  | attended =>
    cases hresumes with
    | attending hle hloop hlistening => exact .listens hle hloop hlistening

/-- The steps of everything else leave it at that. -/
lemma Resumes.kept (h : s.step? action = some s') (hresumes : s.Resumes l n phase) :
    s'.Resumes l n phase := by
  cases hresumes with
  | stopping => exact .stopping
  | pausing => exact .pausing
  | binding => exact .binding
  | refused description =>
    have haddress : s'.address l.port = s.address l.port := by
      rw [address, address, (step_stirs h).2]
    exact haddress ▸ .refused description
  | writing => exact .writing
  | unwritten path cause => exact .unwritten path cause
  | entering => exact .entering
  | attending hle hloop hlistening =>
    obtain ⟨loop', hloop', hkept⟩ := loops_kept h hloop
    exact .attending hle hloop' (hkept.listening.trans hlistening)
  | listens hle hloop hlistening =>
    obtain ⟨loop', hloop', hkept⟩ := loops_kept h hloop
    exact .listens hle hloop' (hkept.listening.trans hlistening)

/-- A restart never waits on its way, but for what the system says to its socket. -/
lemma Resumes.goes_on (hport : l.port ≠ 0) (hk : s.calls[k]? = some phase)
    (hresumes : s.Resumes l n phase) (henters : phase.mayEnter = true) :
    (∀ description, (s.step? (.call k (.error description))).isSome) ∧
    (s.holds l.port = false → (s.step? (.call k (.ok l.port))).isSome) := by
  simp only [step?, callStep?, hk, Option.bind_eq_bind, Option.bind_some, Option.pure_def]
  cases hresumes with
  | refused | unwritten | attending | listens => cases henters
  | stopping | pausing | entering => exact ⟨fun _ => rfl, fun _ => rfl⟩
  | writing => cases hwrite : s.writePort l.port <;> simp [hwrite]
  | binding =>
    refine ⟨fun _ => rfl, fun hfree => ?_⟩
    have hbind : s.mayBind l.port l.port = true := by simp [mayBind, hport, hfree]
    simp only [hbind, if_true, Option.isSome_some]

/-- However a restart that begins now goes, once it looks for the port: if the port is unknown, it
fails and that is all; otherwise it goes on to listen as the loop of the port does. -/
def RestartsAlike (s : Server) (port : UInt16) : Prop :=
  ∀ before u answer u', s.run? (.beginRestart port :: before) = some u →
    u.calls[s.calls.length]? = some (.finding port) →
    u.step? (.call s.calls.length answer) = some u' →
    (∀ entry ∈ u.registry, entry.1 ≠ port) ∧
      u' = u.setCall s.calls.length (.ended (.error (.unknownPort port))) ∨
    ∃ j loop, (port, j) ∈ u.registry ∧ u.loops[j]? = some loop ∧ loop.listening.port = port ∧
      u' = u.setCall s.calls.length (.stopping loop.listening) ∧
      ∀ after last, u'.run? after = some last → ∃ phase, last.calls[s.calls.length]? = some phase ∧
        last.Resumes loop.listening u.loops.length phase ∧ (phase.mayEnter = true →
          (∀ description, (last.step? (.call s.calls.length (.error description))).isSome) ∧
          (last.holds port = false → (last.step? (.call s.calls.length (.ok port))).isSome))

lemma Agrees.finds (h : s.Agrees) (port : UInt16) :
    (∀ entry ∈ s.registry, entry.1 ≠ port) ∧ (s.registry.lookup port).bind (s.loops[·]?) = none ∨
    ∃ j loop, (port, j) ∈ s.registry ∧ s.loops[j]? = some loop ∧ loop.listening.port = port ∧
      (s.registry.lookup port).bind (s.loops[·]?) = some loop := by
  by_cases hknown : ∃ j, (port, j) ∈ s.registry
  · obtain ⟨j, hmem⟩ := hknown
    obtain ⟨loop, hloop, hport, -⟩ := h.entry _ hmem
    refine .inr ⟨j, loop, hmem, hloop, hport, ?_⟩
    rw [h.lookup hmem, Option.bind_some, hloop]
  · have hunknown : ∀ entry ∈ s.registry, entry.1 ≠ port :=
      fun entry hmem heq => hknown ⟨entry.2, heq ▸ hmem⟩
    refine .inl ⟨hunknown, ?_⟩
    rw [List.lookup_eq_none_iff.2 fun entry hmem => by simpa using (hunknown entry hmem).symm]
    rfl

lemma Agrees.port_ne (h : s.Agrees) {port : UInt16} (hmem : (port, j) ∈ s.registry) : port ≠ 0 := by
  rintro rfl
  exact (List.nodup_cons.1 h.ports).1 (List.mem_map_of_mem hmem)

lemma Agrees.run {actions : List Action} {last : Server} (h : s.Agrees)
    (hrun : s.run? actions = some last) : last.Agrees :=
  run_induction (P := Agrees) h (fun _ _ _ hs h => hs.step h) hrun

lemma Agrees.restartsAlike (h : s.Agrees) (port : UInt16) : s.RestartsAlike port := by
  intro before u answer u' hbefore hphase hstep
  have hagrees : u.Agrees := h.run hbefore
  have hlt := (List.getElem?_eq_some_iff.1 hphase).1
  simp only [step?, callStep?, hphase, Option.bind_eq_bind, Option.bind_some, Option.pure_def]
    at hstep
  rcases hagrees.finds port with ⟨hunknown, hnone⟩ | ⟨j, loop, hmem, hloop, hport, hsome⟩
  · rw [hnone] at hstep
    cases hstep
    exact .inl ⟨hunknown, rfl⟩
  · rw [hsome] at hstep
    cases hstep
    refine .inr ⟨j, loop, hmem, hloop, hport, rfl, fun after last hafter => ?_⟩
    have hne : loop.listening.port ≠ 0 := hport ▸ hagrees.port_ne hmem
    obtain ⟨-, phase, hk, hresumes⟩ : u.loops.length ≤ last.loops.length ∧ ∃ phase,
        last.calls[s.calls.length]? = some phase ∧
        last.Resumes loop.listening u.loops.length phase := by
      have hstart : (u.setCall s.calls.length (.stopping loop.listening)).calls[s.calls.length]? =
          some (.stopping loop.listening) := List.getElem?_set_self hlt
      refine run_induction (P := fun u' => u.loops.length ≤ u'.loops.length ∧ ∃ phase,
        u'.calls[s.calls.length]? = some phase ∧ u'.Resumes loop.listening u.loops.length phase)
        (s := u.setCall s.calls.length (.stopping loop.listening))
        ⟨Nat.le_refl _, _, hstart, .stopping⟩ ?_ hafter
      rintro u₁ action u₂ ⟨hle, phase, hk, hresumes⟩ hstep
      refine ⟨Nat.le_trans hle (registry_step hstep).1, ?_⟩
      rcases call_kept hstep hk with hkept | ⟨answer, phase', s₁, hgoes, rfl, hphase'⟩
      · exact ⟨phase, hkept, hresumes.kept hstep⟩
      · exact ⟨phase', hphase', hgoes.resumes hne hle hresumes⟩
    exact ⟨phase, hk, hresumes, fun henters => hport ▸ hresumes.goes_on hne hk henters⟩

end resumes

/-! ## One connection -/

/-- Whether a step takes a connection from the queue of a loop and goes on with it. -/
def takes (s s' : Server) (j v : Nat) : Bool :=
  (s.visits[v]?).any (fun visit => visit.loop = j ∧ visit.phase = .queued) &&
    (s'.visits[v]?).any fun visit => visit.phase = .loading

/-- The connections that a loop has handed out in a run. -/
def handedOut (s : Server) (j : Nat) (actions : List Action) : List Nat :=
  s.recorded (fun s _ s' record =>
    record ++ (List.range s'.visits.length).filter (s.takes s' j)) [] actions

/-- What a loop that is not to keep listening has handed out. -/
def HandsOne (s : Server) (j : Nat) (record : List Nat) : Prop :=
  (s.loops.length ≤ j → record = []) ∧ ∀ l, s.loops[j]? = some l → l.listening.keep = false →
    record.length ≤ 1 ∧ (l.phase = .accepting → record = [])

section handsOut

variable {v : Nat}

/-- Only the loop of a connection takes it, as it accepts. -/
lemma takes_moves (h : s.step? action = some s') (htakes : s.takes s' j v = true) :
    action = .loop j ∧ s.waiting? j = some v ∧ ∃ l, s.loops[j]? = some l ∧ l.phase = .accepting ∧
      ∀ l', s'.loops[j]? = some l' → l'.phase = .accepting → l.listening.keep = true := by
  obtain ⟨hbefore, hafter⟩ := Bool.and_eq_true_iff.1 htakes
  obtain ⟨visit, hvisit, hqueued⟩ := (Option.any_eq_true _ _).1 hbefore
  obtain ⟨visit', hvisit', hloading⟩ := (Option.any_eq_true _ _).1 hafter
  obtain ⟨hloop, hqueued⟩ := of_decide_eq_true hqueued
  replace hloading := of_decide_eq_true hloading
  have hne : visit' ≠ visit := by
    rintro rfl
    rw [hqueued] at hloading
    cases hloading
  -- who can take a visit from its queue is a loop
  obtain ⟨i, rfl⟩ : ∃ i, action = .loop i := by
    rcases step_passes h hvisit' with ⟨visit₁, hvisit₁, hpasses⟩ | ⟨_, -, rfl, -⟩
    · rw [hvisit, Option.some.injEq] at hvisit₁
      subst hvisit₁
      cases hpasses with
      | still => exact absurd rfl hne
      | accept | drop => exact ⟨_, rfl⟩
      | _ => simp_all
    · rw [List.getElem?_eq_none (Nat.le_refl _)] at hvisit
      cases hvisit
  have same : s'.visits[v]? = s.visits[v]? → False := by
    intro hsame
    rw [hsame, hvisit, Option.some.injEq] at hvisit'
    exact hne hvisit'.symm
  obtain ⟨l, hl, hmoves⟩ := loop_moves h
  cases hmoves with
  | halt | attended | leave => exact (same rfl).elim
  | close =>
    simp only [setLoop, changeLoop, closeSocket, List.getElem?_map, hvisit, Option.map_some,
      Option.some.injEq] at hvisit'
    rw [← hvisit'] at hloading
    split at hloading
    · cases hloading
    · rw [hqueued] at hloading
      cases hloading
  | @accept u hphase hrunning hwaiting =>
    obtain ⟨visit₁, hvisit₁, heq⟩ := visits_changeVisit.1 hvisit'
    rw [hvisit, Option.some.injEq] at hvisit₁
    subst hvisit₁
    obtain rfl : u = v := by
      by_contra hu
      rw [if_neg hu] at heq
      exact hne heq
    obtain ⟨hlt, hboth, -⟩ := List.findIdx?_eq_some_iff_getElem.1 hwaiting
    rw [(List.getElem?_eq_some_iff.1 hvisit).2, decide_eq_true_eq, hloop] at hboth
    obtain rfl := hboth.1
    refine ⟨rfl, hwaiting, l, hl, hphase, fun l' hl' haccepting => ?_⟩
    obtain ⟨l₁, hl₁, rfl⟩ := loops_changeLoop.1 hl'
    rw [if_pos rfl] at haccepting
    cases hstyle : l.listening.style with
    | spawn =>
      simp only [hstyle] at haccepting
      exact afterVisit_accepting haccepting
    | inline =>
      simp only [hstyle] at haccepting
      cases haccepting

lemma HandsOne.step {record : List Nat} (hone : s.HandsOne j record)
    (h : s.step? action = some s') : s'.HandsOne j
      (record ++ (List.range s'.visits.length).filter (s.takes s' j)) := by
  obtain ⟨hnone, hrecord⟩ := hone
  by_cases htaken : ∃ v, s.takes s' j v = true
  · obtain ⟨v, htakes⟩ := htaken
    obtain ⟨-, hwaiting, l, hl, hphase, honce⟩ := takes_moves h htakes
    have hlength : ((List.range s'.visits.length).filter (s.takes s' j)).length ≤ 1 := by
      have hsub : (List.range s'.visits.length).filter (s.takes s' j) ⊆ [v] := by
        intro u hu
        have hu' := (takes_moves h (List.mem_filter.1 hu).2).2.1
        rw [hwaiting, Option.some.injEq] at hu'
        exact List.mem_singleton.2 hu'.symm
      exact ((List.nodup_range.filter _).subperm hsub).length_le
    obtain ⟨l₁, hl₁, hkept⟩ := loops_kept h hl
    refine ⟨fun hle => ?_, fun l' hl' hkeep => ?_⟩
    · have hlt := (List.getElem?_eq_some_iff.1 hl₁).1
      omega
    · rw [hl₁, Option.some.injEq] at hl'
      subst hl'
      rw [hkept.listening] at hkeep
      rw [(hrecord l hl hkeep).2 hphase, List.nil_append]
      refine ⟨hlength, fun haccepting => ?_⟩
      rw [honce l₁ hl₁ haccepting] at hkeep
      cases hkeep
  · have hnil : (List.range s'.visits.length).filter (s.takes s' j) = [] :=
      List.filter_eq_nil_iff.2 fun v _ htakes => htaken ⟨v, htakes⟩
    rw [hnil, List.append_nil]
    refine ⟨fun hle => hnone (Nat.le_trans (registry_step h).1 hle), fun l' hl' hkeep => ?_⟩
    by_cases hlt : j < s.loops.length
    · obtain ⟨l₁, hl₁, hkept⟩ := loops_kept h (List.getElem?_eq_getElem hlt)
      rw [hl', Option.some.injEq] at hl₁
      subst hl₁
      rw [hkept.listening] at hkeep
      obtain ⟨hlength, hfresh⟩ := hrecord _ (List.getElem?_eq_getElem hlt) hkeep
      refine ⟨hlength, fun haccepting => hfresh ?_⟩
      exact (hkept.accepting haccepting).resolve_right (by simp [hkeep])
    · have hfresh := hnone (Nat.le_of_not_lt hlt)
      exact ⟨by simp [hfresh], fun _ => hfresh⟩

lemma handsOne {last : Server} {actions : List Action} (hrun : s.run? actions = some last)
    (hj : s.loops.length ≤ j) : last.HandsOne j (s.handedOut j actions) := by
  refine recorded_induction (P := fun s record => s.HandsOne j record)
    ⟨fun _ => rfl, fun l hl => ?_⟩ (fun _ _ _ _ hone h => hone.step h) hrun
  rw [List.getElem?_eq_none hj] at hl
  cases hl

end handsOut

/-- A loop takes off no entry but its own. -/
lemma loop_spares (h : s.step? (.loop j) = some s') :
    ∀ entry ∈ s.registry, entry.2 ≠ j → entry ∈ s'.registry := by
  intro entry hmem hne
  obtain ⟨l, -, hmoves⟩ := loop_moves h
  cases hmoves with
  | halt | accept | attended | close => exact hmem
  | leave =>
    refine List.mem_filter.2 ⟨hmem, decide_eq_true fun heq => hne ?_⟩
    rw [heq]

/-- Whatever happens on a server: a loop that has its socket and has not been told to stop is the
one that is registered for its port, and a loop takes no entry off but its own. A call to listen
that fails has not changed the registry, and nor has a restart since it has come to listen; a
restart fails on an unknown port and listens on a known one as before; and a loop that is not to
keep listening hands out one connection at most. -/
theorem registry_agrees {s t : Server} {actions : List Action} (hnew : s.New)
    (hrun : s.run? actions = some t) :
    (∀ j l, t.loops[j]? = some l → l.holdsSocket = true → l.stopped = false →
      t.registry.lookup l.listening.port = some j) ∧
    (∀ j t', t.step? (.loop j) = some t' →
      ∀ entry ∈ t.registry, entry.2 ≠ j → entry ∈ t'.registry) ∧
    t.FailsAlone ∧ (∀ l, t.ListensOrLeaves l) ∧ (∀ port, t.RestartsAlike port) ∧
    ∀ j l, t.loops[j]? = some l → l.listening.keep = false →
      (s.handedOut j actions).length ≤ 1 := by
  have hagrees : t.Agrees := hnew.agrees.run hrun
  refine ⟨fun j l hl hholds hrunning => hagrees.lookup (hagrees.loop j l hl hholds hrunning),
    fun j t' h => loop_spares h, t.failsAlone, t.listensOrLeaves, hagrees.restartsAlike,
    fun j l hl hkeep => ?_⟩
  have hone : t.HandsOne j (s.handedOut j actions) :=
    handsOne hrun (by simp [hnew.loops])
  exact (hone.2 l hl hkeep).1

/-- A loop that has closed its socket after one connection has not taken its entry off yet, when
the port is listened on again. -/
def sampleTurnover : List Action :=
  .beginListen ⟨4005, .spawn, false⟩ :: List.replicate 3 (.call 0 (.ok 4005)) ++
    [.connect 0, .loop 0, .loop 0] ++
    .beginListen ⟨4005, .inline, true⟩ :: List.replicate 3 (.call 1 (.ok 4005))

/-- The new entry outlives the old loop; to listen once more is refused and changes nothing; and a
restart, once it has found the port, goes on to listen as the new loop does. -/
theorem registry_agrees_turnover : ∃ t t' u u' v v' phase,
    sample.run? sampleTurnover = some t ∧ t.registry.lookup 4005 = some 1 ∧
    t.step? (.loop 0) = some t' ∧ (4005, 1) ∈ t'.registry ∧
    t.run? [.beginListen ⟨4005, .spawn, true⟩] = some u ∧
    u.step? (.call 2 (.error "in use")) = some u' ∧ u'.registry = u.registry ∧
    t.run? [.beginRestart 4005] = some v ∧ v.step? (.call 2 (.ok 0)) = some v' ∧
    v'.calls[2]? = some phase ∧ v'.Resumes ⟨4005, .inline, true⟩ 2 phase ∧
    sample.handedOut 0 sampleTurnover = [0] ∧ (sample.handedOut 0 sampleTurnover).length ≤ 1 := by
  have hall : (sample.run? sampleTurnover).any (fun t =>
      t.loops[0]? = some ⟨⟨4005, .spawn, false⟩, false, .leaving⟩ ∧
      t.loops[1]? = some ⟨⟨4005, .inline, true⟩, false, .accepting⟩ ∧ t.registry = [(4005, 1)] ∧
      t.calls.length = 2 ∧ (t.step? (.loop 0)).isSome ∧
      ((t.run? [.beginListen ⟨4005, .spawn, true⟩]).any fun u =>
        (u.step? (.call 2 (.error "in use"))).any fun u' => (u'.calls[2]?).any (·.hasFailed)) ∧
      (t.run? [.beginRestart 4005]).any fun v => v.registry = [(4005, 1)] ∧ v.loops = t.loops ∧
        v.loops.length = 2 ∧ (v.step? (.call 2 (.ok 0))).isSome) = true := by
    decide +kernel
  have hhands : sample.handedOut 0 sampleTurnover = [0] := by
    decide +kernel
  obtain ⟨t, hrun, hshows⟩ := (Option.any_eq_true _ _).1 hall
  obtain ⟨hold, hyoung, hregistry, hcalls, hleaves, hfails, hrestarts⟩ := of_decide_eq_true hshows
  obtain ⟨t', hleave⟩ := Option.isSome_iff_exists.1 hleaves
  obtain ⟨u, hlisten, hfails⟩ := (Option.any_eq_true _ _).1 hfails
  obtain ⟨u', hrefuse, hfails⟩ := (Option.any_eq_true _ _).1 hfails
  obtain ⟨phase, hphase, hfailed⟩ := (Option.any_eq_true _ _).1 hfails
  obtain ⟨v, hrestart, hfinds⟩ := (Option.any_eq_true _ _).1 hrestarts
  obtain ⟨hregistry', hloops', hlength, hfinds⟩ := of_decide_eq_true hfinds
  obtain ⟨v', hfind⟩ := Option.isSome_iff_exists.1 hfinds
  obtain ⟨hentry, hspares, -, hlistens, hrestartsAlike, hone⟩ := registry_agrees sample_new hrun
  have hsame : u'.registry = u.registry := by
    obtain ⟨e, rfl⟩ : ∃ e, phase = .ended (.error e) := by
      cases phase with
      | ended result => cases result with
        | error e => exact ⟨e, rfl⟩
        | ok => cases hfailed
      | _ => cases hfailed
    exact (hlistens _ [] u (.error "in use") u' [] u' e hlisten (hcalls ▸ hrefuse) rfl
      (hcalls ▸ hphase)).1
  have hresumes : ∃ phase, v'.calls[2]? = some phase ∧
      v'.Resumes ⟨4005, .inline, true⟩ 2 phase := by
    have hbegun : v.calls[t.calls.length]? = some (.finding 4005) := by
      cases hrestart
      exact List.getElem?_concat_length
    rcases hrestartsAlike 4005 [] v (.ok 0) v' hrestart hbegun (hcalls ▸ hfind) with
      ⟨hunknown, -⟩ | ⟨j, loop, hmem, hloop, -, -, hgoes⟩
    · exact absurd rfl (hunknown (4005, 1) (hregistry' ▸ List.mem_cons_self))
    · obtain ⟨phase, hphase, hresumes, -⟩ := hgoes [] v' rfl
      rw [hregistry', List.mem_singleton] at hmem
      cases hmem
      rw [hloops', hyoung, Option.some.injEq] at hloop
      subst hloop
      exact ⟨phase, hcalls ▸ hphase, hlength ▸ hresumes⟩
  obtain ⟨phase', hphase', hresumes⟩ := hresumes
  exact ⟨t, t', u, u', v, v', phase', hrun, hentry 1 _ hyoung rfl rfl, hleave,
    hspares 0 t' hleave (4005, 1) (hregistry ▸ List.mem_cons_self) (by decide), hlisten, hrefuse,
    hsame, hrestart, hfind, hphase', hresumes, hhands, hone 0 _ hold rfl⟩

end Server

end EvalServer
