import EvalServer.Proofs.Server.Shutdown

/-!
# Ports and accept loops

The registry names for each port the loop that listens on it. A loop closes its socket before it
takes its entry off, so another listener may have entered the port in between; no two sockets are
on one port, and a loop takes off no entry but its own. So a loop that has its socket and has not
been told to stop is always to be found under its port.
-/

namespace EvalServer

/-- The port that an accept loop has its socket on. -/
def AcceptLoop.socket? (l : AcceptLoop) : Option UInt16 :=
  if l.holdsSocket then some l.listening.port else none

/-- The port that a call has a socket on, before a loop has it. -/
def CallPhase.socket? : CallPhase → Option UInt16
  | .writing l | .entering l => some l.port
  | _ => none

namespace Server

variable {s s' : Server} {action : Action} {j k : Nat}

/-- The ports of all sockets. -/
def sockets (s : Server) : List UInt16 :=
  s.loops.filterMap (·.socket?) ++ s.calls.filterMap (·.socket?)

lemma holds_iff {port : UInt16} : s.holds port = true ↔ port ∈ s.sockets := by
  rw [holds, Bool.or_eq_true, List.any_eq_true, List.any_eq_true, sockets, List.mem_append,
    List.mem_filterMap, List.mem_filterMap]
  refine or_congr (exists_congr fun l => and_congr_right fun _ => ?_)
    (exists_congr fun call => and_congr_right fun _ => ?_)
  · simp [AcceptLoop.socket?]
  · cases call <;> simp [CallPhase.socket?]

/-! ## Steps -/

lemma writePort_same {port : UInt16} (h : s.writePort port = .ok s') :
    s'.registry = s.registry ∧ s'.loops = s.loops ∧ s'.calls = s.calls := by
  unfold writePort at h
  split at h
  · cases h
    exact ⟨rfl, rfl, rfl⟩
  · split at h <;> cases h
    exact ⟨rfl, rfl, rfl⟩

/-- What a step does to the registry, the loops and the calls. -/
inductive Tends (s : Server) : Action → Server → Prop
  | still {action : Action} {s' : Server} : (∀ j, action ≠ .loop j) →
      (∀ k answer, action ≠ .call k answer) →
      (s'.registry, s'.loops, s'.calls) = (s.registry, s.loops, s.calls) → Tends s action s'
  | stop {action : Action} {s' : Server} (port : UInt16) : (∀ j, action ≠ .loop j) →
      (∀ k answer, action ≠ .call k answer) →
      (s'.registry, s'.loops, s'.calls) =
        ((s.stop port).2.registry, (s.stop port).2.loops, s.calls) → Tends s action s'
  | listen (l : Listening) : Tends s (.beginListen l) { s with calls := s.calls ++ [.binding l] }
  | restart (port : UInt16) :
      Tends s (.beginRestart port) { s with calls := s.calls ++ [.finding port] }
  | loop {j : Nat} {l : AcceptLoop} {s' : Server} : s.loops[j]? = some l → s.LoopMoves j l s' →
      Tends s (.loop j) s'
  | call {k : Nat} {answer : Except String UInt16} {phase phase' : CallPhase} {s₁ : Server} :
      s.calls[k]? = some phase → s.CallGoes answer phase phase' s₁ →
      Tends s (.call k answer) (s₁.setCall k phase')

lemma step_tends (h : s.step? action = some s') : s.Tends action s' := by
  cases action with
  | loop j =>
    obtain ⟨l, hl, hmoves⟩ := loop_moves h
    exact .loop hl hmoves
  | call k answer =>
    obtain ⟨phase, phase', s₁, hphase, hgoes, rfl⟩ := call_goes h
    exact .call hphase hgoes
  | visit v =>
    obtain ⟨visit, -, hmoves⟩ := visit_moves h
    cases hmoves <;> exact .still (by simp) (by simp) rfl
  | shutdown k =>
    obtain ⟨phase, phase', s₁, -, hshuts, rfl⟩ := shutdown_shuts h
    cases hshuts with
    | stop port rest =>
      refine .stop port (by simp) (by simp) ?_
      simp only [setShutdown, (s.stop_same port).2.2.2]
    | _ => exact .still (by simp) (by simp) rfl
  | stop port =>
    cases h
    refine .stop port (by simp) (by simp) ?_
    rw [(s.stop_same port).2.2.2]
  | deliver v arrival =>
    cases client_moves (a := .deliver arrival) (f := (·.arrive arrival)) h <;>
      exact .still (by simp) (by simp) rfl
  | endInput v =>
    cases client_moves (a := .endInput) (f := fun c => { c with ended := true }) h <;>
      exact .still (by simp) (by simp) rfl
  | session i a =>
    simp only [step?, Option.bind_eq_bind, Option.bind_eq_some_iff, Option.pure_def,
      Option.some.injEq] at h
    obtain ⟨w, -, w', -, rfl⟩ := h
    exact .still (by simp) (by simp) rfl
  | waiter index =>
    simp only [step?, Option.bind_eq_bind, Option.bind_eq_some_iff, Option.pure_def,
      Option.some.injEq] at h
    obtain ⟨quit, -, rfl⟩ := h
    exact .still (by simp) (by simp) rfl
  | connect loop =>
    simp only [step?, Option.bind_eq_bind, Option.bind_eq_some_iff, Option.pure_def] at h
    obtain ⟨l, -, h⟩ := h
    split at h <;> cases h
    exact .still (by simp) (by simp) rfl
  | beginListen l =>
    cases h
    exact .listen l
  | beginRestart port =>
    cases h
    exact .restart port
  | beginShutdown | beginWait =>
    cases h
    exact .still (by simp) (by simp) rfl

/-! ## The registry -/

/-- The registry and the loops agree. -/
structure Agrees (s : Server) : Prop where
  /-- No two sockets are on one port, and none is on port zero. -/
  sockets : (0 :: s.sockets).Nodup
  /-- No port has two entries, and port zero has none. -/
  ports : (0 :: s.registry.map (·.1)).Nodup
  /-- What is entered for a port is a loop that listens on it and has not been told to stop. -/
  entry : ∀ entry ∈ s.registry, ∃ l, s.loops[entry.2]? = some l ∧ l.listening.port = entry.1 ∧
    l.stopped = false ∧ l.phase ≠ .ended
  /-- A loop that has its socket and has not been told to stop is entered for its port. -/
  loop : ∀ j l, s.loops[j]? = some l → l.holdsSocket = true → l.stopped = false →
    (l.listening.port, j) ∈ s.registry

section registry

lemma New.agrees (h : s.New) : s.Agrees := by
  refine ⟨?_, ?_, ?_, ?_⟩
  · simp [Server.sockets, h.loops, h.calls]
  · simp [h.registry]
  · simp [h.registry]
  · simp [h.loops]

lemma Agrees.lookup (h : s.Agrees) {port : UInt16} (hmem : (port, j) ∈ s.registry) :
    s.registry.lookup port = some j := by
  obtain ⟨l, r, hsplit⟩ := List.append_of_mem hmem
  have hports := (List.nodup_cons.1 h.ports).2
  rw [hsplit, List.map_append, List.map_cons, List.nodup_append] at hports
  rw [List.lookup_eq_some_iff]
  refine ⟨l, r, hsplit, fun entry hentry => ?_⟩
  have hne := hports.2.2 entry.1 (List.mem_map_of_mem hentry) port List.mem_cons_self
  simpa using hne.symm

lemma Agrees.congr (h : s.Agrees)
    (hsame : (s'.registry, s'.loops, s'.calls) = (s.registry, s.loops, s.calls)) : s'.Agrees := by
  simp only [Prod.mk.injEq] at hsame
  obtain ⟨hregistry, hloops, hcalls⟩ := hsame
  have hsockets : s'.sockets = s.sockets := by rw [Server.sockets, hloops, hcalls, Server.sockets]
  refine ⟨hsockets ▸ h.sockets, hregistry ▸ h.ports, ?_, ?_⟩
  · rw [hregistry, hloops]
    exact h.entry
  · rw [hregistry, hloops]
    exact h.loop

lemma sockets_setCall {phase : CallPhase} (hphase : s.calls[k]? = some phase)
    (phase' : CallPhase) : ∃ l r, s.sockets = l ++ phase.socket?.toList ++ r ∧
      (s.setCall k phase').sockets = l ++ phase'.socket?.toList ++ r := by
  obtain ⟨l, r, hbefore, hafter⟩ := filterMap_set (·.socket?) hphase phase'
  refine ⟨s.loops.filterMap (·.socket?) ++ l, r, ?_, ?_⟩
  · rw [sockets, hbefore]
    simp only [List.append_assoc]
  · rw [sockets, setCall, hafter]
    simp only [List.append_assoc]

lemma sockets_changeLoop {l : AcceptLoop} (hl : s.loops[j]? = some l)
    (f : AcceptLoop → AcceptLoop) : ∃ left right, s.sockets = left ++ l.socket?.toList ++ right ∧
      (s.changeLoop j f).sockets = left ++ (f l).socket?.toList ++ right := by
  obtain ⟨left, right, hbefore, hafter⟩ := filterMap_set (·.socket?) hl (f l)
  have hset : s.loops.modify j f = s.loops.set j (f l) := by
    rw [List.modify_eq_set_getElem?, hl]
    rfl
  refine ⟨left, right ++ s.calls.filterMap (·.socket?), ?_, ?_⟩
  · rw [sockets, hbefore]
    simp only [List.append_assoc]
  · rw [sockets, changeLoop, hset, hafter]
    simp only [List.append_assoc]

/-- A socket that is kept or closed. -/
lemma sublist_socket {port port' : Option UInt16} (h : port' = port ∨ port' = none)
    (l r : List UInt16) : (l ++ port'.toList ++ r).Sublist (l ++ port.toList ++ r) := by
  refine (List.Sublist.append_left ?_ l).append_right r
  rcases h with rfl | rfl
  · exact .refl _
  · exact List.nil_sublist _

lemma loops_changeLoop {i : Nat} {l' : AcceptLoop} {f : AcceptLoop → AcceptLoop} :
    (s.changeLoop j f).loops[i]? = some l' ↔
      ∃ l, s.loops[i]? = some l ∧ l' = if j = i then f l else l := by
  simp only [changeLoop, List.getElem?_modify]
  cases s.loops[i]? with
  | none => simp
  | some l => simp [eq_comm]

/-- A loop goes on, or has its socket closed, or ends when it is not entered any more. -/
lemma Agrees.changeLoop (h : s.Agrees) {l : AcceptLoop} (hl : s.loops[j]? = some l)
    {f : AcceptLoop → AcceptLoop} (hlistening : (f l).listening = l.listening)
    (hstopped : (f l).stopped = l.stopped)
    (hholds : (f l).holdsSocket = true → l.holdsSocket = true)
    (hended : (f l).phase = .ended → (l.listening.port, j) ∉ s.registry) :
    (s.changeLoop j f).Agrees := by
  refine ⟨?_, h.ports, fun entry hentry => ?_, fun i l' hl' hholds' hstopped' => ?_⟩
  · obtain ⟨left, right, hbefore, hafter⟩ := sockets_changeLoop hl f
    have hsockets := h.sockets
    rw [hbefore] at hsockets
    rw [hafter]
    refine hsockets.sublist ((sublist_socket ?_ left right).cons_cons 0)
    cases hnow : (f l).holdsSocket with
    | false => exact .inr (by simp [AcceptLoop.socket?, hnow])
    | true => exact .inl (by simp [AcceptLoop.socket?, hnow, hholds hnow, hlistening])
  · obtain ⟨l₁, hl₁, hport, hrunning, hphase⟩ := h.entry entry hentry
    refine ⟨_, loops_changeLoop.2 ⟨l₁, hl₁, rfl⟩, ?_⟩
    split
    · next hj =>
      rw [← hj, hl, Option.some.injEq] at hl₁
      subst hl₁
      refine ⟨hlistening ▸ hport, hstopped ▸ hrunning, fun hend => hended hend ?_⟩
      rw [hport, hj]
      exact hentry
    · exact ⟨hport, hrunning, hphase⟩
  · obtain ⟨l₁, hl₁, rfl⟩ := loops_changeLoop.1 hl'
    by_cases hj : j = i
    · subst hj
      rw [if_pos rfl] at hholds' hstopped' ⊢
      rw [hl, Option.some.injEq] at hl₁
      subst hl₁
      rw [hlistening]
      exact h.loop j l hl (hholds hholds') (hstopped ▸ hstopped')
    · rw [if_neg hj] at hholds' hstopped' ⊢
      exact h.loop i l₁ hl₁ hholds' hstopped'

/-- A loop without a socket takes its entry off. -/
lemma Agrees.erase (h : s.Agrees) {l : AcceptLoop} (hl : s.loops[j]? = some l)
    (hholds : l.holdsSocket = false) :
    Agrees { s with registry := s.registry.filter (· ≠ (l.listening.port, j)) } := by
  refine ⟨h.sockets, h.ports.sublist ((List.filter_sublist.map _).cons_cons 0),
    fun entry hentry => h.entry entry (List.mem_of_mem_filter hentry),
    fun i l' hl' hholds' hstopped' => ?_⟩
  refine List.mem_filter.2 ⟨h.loop i l' hl' hholds' hstopped', ?_⟩
  have hne : i ≠ j := by
    rintro rfl
    have heq := hl.symm.trans hl'
    rw [Option.some.injEq] at heq
    rw [← heq, hholds] at hholds'
    cases hholds'
  simp [hne]

/-- To stop a port tells its loop, and no other. -/
lemma Agrees.stop (h : s.Agrees) (port : UInt16) : (s.stop port).2.Agrees := by
  unfold Server.stop
  cases hlookup : s.registry.lookup port with
  | none => exact h
  | some j =>
    have hmem : (port, j) ∈ s.registry := by
      obtain ⟨l, r, hsplit, -⟩ := List.lookup_eq_some_iff.1 hlookup
      rw [hsplit]
      exact List.mem_append_right _ List.mem_cons_self
    obtain ⟨l, hl, hport, -⟩ := h.entry _ hmem
    refine ⟨?_, h.ports.sublist ((List.filter_sublist.map _).cons_cons 0), fun entry hentry => ?_,
      fun i l' hl' hholds' hstopped' => ?_⟩
    · obtain ⟨left, right, hbefore, hafter⟩ :=
        sockets_changeLoop hl fun l => { l with stopped := true }
      have hsockets := h.sockets
      rw [hbefore] at hsockets
      exact hafter ▸ hsockets
    · obtain ⟨hentry, hne⟩ := List.mem_filter.1 hentry
      obtain ⟨l₁, hl₁, hport₁, hrest⟩ := h.entry entry hentry
      refine ⟨_, loops_changeLoop.2 ⟨l₁, hl₁, rfl⟩, ?_⟩
      have hother : j ≠ entry.2 := by
        rintro rfl
        rw [hl, Option.some.injEq] at hl₁
        rw [← hport₁, ← hl₁, hport] at hne
        simp at hne
      rw [if_neg hother]
      exact ⟨hport₁, hrest⟩
    · obtain ⟨l₁, hl₁, rfl⟩ := loops_changeLoop.1 hl'
      by_cases hj : j = i
      · rw [if_pos hj] at hstopped'
        cases hstopped'
      · rw [if_neg hj] at hholds' hstopped' ⊢
        have hentry := h.loop i l₁ hl₁ hholds' hstopped'
        refine List.mem_filter.2 ⟨hentry, ?_⟩
        have hother : l₁.listening.port ≠ port := by
          rintro rfl
          exact hj (Option.some.inj (hlookup.symm.trans (h.lookup hentry)))
        simpa using hother

/-- A call goes on with its socket, or has it closed, or has none. -/
lemma Agrees.setCall (h : s.Agrees) {phase phase' : CallPhase} (hphase : s.calls[k]? = some phase)
    (hsocket : phase'.socket? = phase.socket? ∨ phase'.socket? = none) :
    (s.setCall k phase').Agrees := by
  obtain ⟨l, r, hbefore, hafter⟩ := sockets_setCall hphase phase'
  have hsockets := h.sockets
  rw [hbefore] at hsockets
  refine ⟨?_, h.ports, h.entry, h.loop⟩
  rw [hafter]
  exact hsockets.sublist ((sublist_socket hsocket l r).cons_cons 0)

/-- The system gives a port on which there is no socket. -/
lemma Agrees.bind (h : s.Agrees) {l : Listening} {port : UInt16}
    (hphase : s.calls[k]? = some (.binding l)) (hbind : s.mayBind l.port port = true) :
    (s.setCall k (.writing { l with port })).Agrees := by
  obtain ⟨left, right, hbefore, hafter⟩ := sockets_setCall hphase (.writing { l with port })
  have hfree : port ∉ 0 :: s.sockets := by
    simp only [mayBind, Bool.and_eq_true, Bool.not_eq_true', decide_eq_true_eq] at hbind
    rw [List.mem_cons, ← holds_iff, hbind.2]
    simp [hbind.1.1]
  refine ⟨?_, h.ports, h.entry, h.loop⟩
  have hsockets := List.nodup_cons.2 ⟨hfree, h.sockets⟩
  rw [hbefore] at hsockets
  rw [hafter]
  refine (List.Perm.nodup_iff ?_).1 hsockets
  refine (List.Perm.swap 0 port _).trans (.cons 0 ?_)
  simpa [CallPhase.socket?] using List.perm_middle.symm

/-- A port on which there is no socket is entered with a new loop. -/
lemma Agrees.enter (h : s.Agrees) {l : Listening} (hfree : l.port ∉ 0 :: s.sockets) :
    (s.enter l).2.Agrees := by
  have hloops : ∀ {i : Nat} {l' : AcceptLoop}, (s.enter l).2.loops[i]? = some l' →
      s.loops[i]? = some l' ∨ i = s.loops.length ∧ l' = { listening := l } := by
    intro i l' hl'
    rw [Server.enter, List.getElem?_append] at hl'
    split at hl'
    · exact .inl hl'
    · next hge =>
      rw [List.getElem?_singleton] at hl'
      split at hl' <;> cases hl'
      exact .inr ⟨by omega, rfl⟩
  refine ⟨?_, ?_, fun entry hentry => ?_, fun i l' hl' hholds hrunning => ?_⟩
  · refine (List.Perm.nodup_iff ?_).1 (List.nodup_cons.2 ⟨hfree, h.sockets⟩)
    refine (List.Perm.swap 0 l.port _).trans (.cons 0 ?_)
    rw [Server.sockets, Server.sockets, Server.enter, List.filterMap_append, List.append_assoc]
    exact List.perm_middle.symm
  · rw [Server.enter, List.map_append, ← List.cons_append, List.nodup_append]
    refine ⟨h.ports.sublist ((List.filter_sublist.map _).cons_cons 0), List.nodup_singleton _, ?_⟩
    rintro port hmem _ hport rfl
    obtain rfl := List.mem_singleton.1 hport
    rcases List.mem_cons.1 hmem with hzero | hmem
    · exact hfree (hzero ▸ List.mem_cons_self)
    · obtain ⟨entry, hentry, heq⟩ := List.mem_map.1 hmem
      exact absurd heq (by simpa using (List.mem_filter.1 hentry).2)
  · rcases List.mem_append.1 hentry with hold | hnew
    · obtain ⟨l', hl', hrest⟩ := h.entry entry (List.mem_of_mem_filter hold)
      exact ⟨l', List.getElem?_append_left (List.getElem?_eq_some_iff.1 hl').1 ▸ hl', hrest⟩
    · rw [List.mem_singleton.1 hnew]
      exact ⟨{ listening := l }, List.getElem?_concat_length, rfl, rfl, by simp⟩
  · rcases hloops hl' with hold | ⟨rfl, rfl⟩
    · refine List.mem_append_left _ (List.mem_filter.2 ⟨h.loop i l' hold hholds hrunning, ?_⟩)
      have hmem : l'.listening.port ∈ s.sockets :=
        List.mem_append_left _ (List.mem_filterMap.2 ⟨l', List.mem_of_getElem? hold, if_pos hholds⟩)
      have hne : l'.listening.port ≠ l.port := fun heq => hfree (.tail 0 (heq ▸ hmem))
      simpa using hne
    · exact List.mem_append_right _ List.mem_cons_self

lemma Agrees.step (h : s.Agrees) (hstep : s.step? action = some s') : s'.Agrees := by
  cases step_tends hstep with
  | still _ _ hsame => exact h.congr hsame
  | stop port _ _ hsame =>
    refine (h.stop port).congr ?_
    rw [hsame, (s.stop_same port).2.2.2]
  | listen | restart =>
    have hsockets := h.sockets
    rw [Server.sockets] at hsockets
    exact ⟨by simpa [Server.sockets, CallPhase.socket?] using hsockets, h.ports, h.entry, h.loop⟩
  | @loop j l _ hl hmoves =>
    cases hmoves with
    | halt hphase hstopped =>
      exact h.changeLoop hl rfl rfl (fun _ => by simp [AcceptLoop.holdsSocket, hphase]) (by simp)
    | @accept v hphase hrunning hwaiting =>
      have hagrees : (s.setVisit v .loading).Agrees := h.congr rfl
      refine hagrees.changeLoop hl rfl rfl (fun _ => by simp [AcceptLoop.holdsSocket, hphase]) ?_
      cases hstyle : l.listening.style <;> simp [afterVisit]
      split <;> simp
    | attended hphase hended =>
      refine h.changeLoop hl rfl rfl (fun _ => by simp [AcceptLoop.holdsSocket, hphase]) ?_
      simp only [afterVisit]
      split <;> simp
    | close hphase =>
      have hagrees : (s.closeSocket j).Agrees := h.congr rfl
      exact hagrees.changeLoop hl rfl rfl (by simp [AcceptLoop.holdsSocket]) (by simp)
    | leave hphase =>
      have hagrees := h.erase hl (by simp [AcceptLoop.holdsSocket, hphase])
      refine hagrees.changeLoop hl rfl rfl (by simp [AcceptLoop.holdsSocket]) fun _ hmem => ?_
      simpa using (List.mem_filter.1 hmem).2
  | @call k answer phase phase' s₁ hphase hgoes =>
    cases hgoes with
    | unknown | found | pause | refuse | unwritten | attended =>
      exact h.setCall hphase (by simp [CallPhase.socket?])
    | stop l =>
      have hcalls := (s.stop_same l.port).2.2.2
      exact (h.stop l.port).setCall (hcalls ▸ hphase) (by simp [CallPhase.socket?])
    | bind l _ hbind => exact h.bind hphase hbind
    | write l hwrite =>
      obtain ⟨hregistry, hloops, hcalls⟩ := writePort_same hwrite
      have hagrees : s₁.Agrees := h.congr (by rw [hregistry, hloops, hcalls])
      exact hagrees.setCall (hcalls ▸ hphase) (by simp [CallPhase.socket?])
    | enter l =>
      -- the call lets go of the socket as the loop takes it
      have hsocket : ∀ phase' : CallPhase, phase'.socket? = none →
          ((s.enter l).2.setCall k phase').Agrees := by
        intro phase' hnone
        have hagrees : (s.setCall k phase').Agrees := h.setCall hphase (.inr hnone)
        obtain ⟨left, right, hbefore, hafter⟩ := sockets_setCall hphase phase'
        have hsockets := h.sockets
        rw [hbefore, List.append_assoc] at hsockets
        have hfree : l.port ∉ (0 :: left) ++ right :=
          (List.nodup_cons.1 (List.nodup_middle.1 hsockets)).1
        refine hagrees.enter (l := l) ?_
        rw [hafter, hnone]
        simpa using hfree
      exact hsocket _ (by cases l.style <;> rfl)

end registry

end Server

end EvalServer
