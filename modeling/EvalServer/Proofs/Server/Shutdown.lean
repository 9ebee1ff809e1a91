import EvalServer.Proofs.Server.Sessions
import EvalServer.Proofs.Session.Ending

/-!
# Shutting a server down

A shutdown stops the ports that it finds in the registry and closes the sessions that it finds
entered. When it has returned and nothing more can happen, the loops that there were when it began
are off the registry, and the sessions whose handles had been entered are dead. Sessions that were
only starting, and ports that were only being bound, may come to life behind it.
-/

namespace EvalServer

namespace ShutdownPhase

/-- What a shutdown does next to close a session. -/
def close? (i : Nat) : ShutdownPhase → Option ClosePhase
  | .closingOne phase j _ => if j = i then some phase else none
  | _ => none

/-- A shutdown has still to close a session. -/
def Lists (i : Nat) : ShutdownPhase → Prop
  | .closing sessions => i ∈ sessions
  | .closingOne phase j rest => i ∈ rest ∨ j = i ∧ phase = .marking
  | _ => False

/-- A shutdown has still to stop a port, if that is listened on when it lists the ports. -/
def Stops (port : UInt16) : ShutdownPhase → Prop
  | .listing => True
  | .stopping ports => port ∈ ports
  | _ => False

/-- Whether the list of sessions is still to be taken. -/
def isEarly : ShutdownPhase → Bool
  | .listing | .stopping _ | .taking => true
  | _ => false

end ShutdownPhase

namespace Server

variable {s s' : Server} {action : Action} {i k : Nat} {w w' : World}

/-! ## Steps -/

/-- What a step that is not of a shutdown leaves of what shutdowns go by. -/
structure Drifts (s s' : Server) : Prop where
  shutdowns : s'.shutdowns = s.shutdowns ∨ s'.shutdowns = s.shutdowns ++ [.listing]
  entered : s.entered ⊆ s'.entered
  registry : ∀ entry ∈ s'.registry, entry ∈ s.registry ∨
    s.loops.length ≤ entry.2 ∧ entry.2 < s'.loops.length
  loops : s.loops.length ≤ s'.loops.length

section steps

lemma drifts_of_same (hsame : (s'.shutdowns, s'.entered, s'.registry) =
      (s.shutdowns, s.entered, s.registry)) (hloops : s'.loops.length = s.loops.length) :
    s.Drifts s' := by
  simp only [Prod.mk.injEq] at hsame
  obtain ⟨hshutdowns, hentered, hregistry⟩ := hsame
  exact ⟨.inl hshutdowns, hentered ▸ List.Subset.refl _, fun _ h => .inl (hregistry ▸ h),
    Nat.le_of_eq hloops.symm⟩

/-- To stop a port takes it off the registry. -/
lemma mem_stop {port : UInt16} {entry : UInt16 × Nat} (h : entry ∈ (s.stop port).2.registry) :
    entry ∈ s.registry ∧ entry.1 ≠ port := by
  unfold stop at h
  split at h
  · next hnone =>
    refine ⟨h, fun heq => ?_⟩
    have hne := List.lookup_eq_none_iff.1 hnone entry h
    simp [heq] at hne
  · simpa [changeLoop] using h

lemma stop_same (s : Server) (port : UInt16) : (s.stop port).2.shutdowns = s.shutdowns ∧
    (s.stop port).2.entered = s.entered ∧ (s.stop port).2.loops.length = s.loops.length ∧
    (s.stop port).2.calls = s.calls := by
  unfold stop
  split
  · exact ⟨rfl, rfl, rfl, rfl⟩
  · exact ⟨rfl, rfl, List.length_modify .., rfl⟩

lemma drifts_stop (s : Server) (port : UInt16) : s.Drifts (s.stop port).2 := by
  obtain ⟨hshutdowns, hentered, hloops, -⟩ := s.stop_same port
  exact ⟨.inl hshutdowns, hentered ▸ List.Subset.refl _, fun _ h => .inl (mem_stop h).1,
    Nat.le_of_eq hloops.symm⟩

lemma drifts_loop {index : Nat} (h : s.loopStep? index = some s') : s.Drifts s' := by
  obtain ⟨l, -, hmoves⟩ := loop_moves h
  cases hmoves with
  | halt | attended | accept | close => exact drifts_of_same rfl (List.length_modify ..)
  | leave =>
    exact ⟨.inl rfl, List.Subset.refl _, fun entry hmem => .inl (List.mem_of_mem_filter hmem),
      Nat.le_of_eq (List.length_modify ..).symm⟩

lemma drifts_call {index : Nat} {answer : Except String UInt16}
    (h : s.callStep? index answer = some s') : s.Drifts s' := by
  obtain ⟨phase, -, hmoves⟩ := call_moves h
  cases hmoves with
  | go | written => exact drifts_of_same rfl rfl
  | stop l =>
    obtain ⟨hshutdowns, hentered, hregistry, hloops⟩ := s.drifts_stop l.port
    exact ⟨hshutdowns, hentered, hregistry, hloops⟩
  | enter l =>
    refine ⟨.inl rfl, List.Subset.refl _, fun entry hmem => ?_, by simp [setCall, enter]⟩
    rcases List.mem_append.1 hmem with hmem | hmem
    · exact .inl (List.mem_of_mem_filter hmem)
    · rw [List.mem_singleton.1 hmem]
      exact .inr ⟨Nat.le_refl _, by simp [setCall, enter]⟩

lemma drifts_visit {v : Nat} (h : s.visitStep? v = some s') : s.Drifts s' := by
  obtain ⟨visit, -, hmoves⟩ := visit_moves h
  cases hmoves with
  | serve => exact ⟨.inl rfl, List.subset_append_left _ _, fun _ => .inl, Nat.le_refl _⟩
  | load | fail | pass | refuse | create | leave => exact drifts_of_same rfl rfl

/-- A session that starts is entered. -/
lemma entered_of_start {v : Nat} {visit : Visit} (h : s.visitStep? v = some s')
    (hvisit : s.visits[v]? = some visit) (hphase : visit.phase = .entering i) :
    i ∈ s'.entered := by
  obtain ⟨visit', hvisit', hmoves⟩ := visit_moves h
  rw [hvisit, Option.some.injEq] at hvisit'
  subst hvisit'
  cases hmoves with
  | serve hphase' =>
    rw [hphase, VisitPhase.entering.injEq] at hphase'
    exact List.mem_append_right _ (List.mem_singleton.2 hphase')
  | load _ hphase' | fail _ hphase' | pass hphase' | refuse hphase' | create hphase'
  | leave hphase' =>
    rw [hphase] at hphase'
    cases hphase'

lemma drifts_client {v : Nat} {a : EvalServer.Action} {f : Connection → Connection}
    (h : s.clientStep? v a f = some s') : s.Drifts s' := by
  cases client_moves h <;> exact drifts_of_same rfl rfl

lemma step_drifts (haction : ∀ k, action ≠ .shutdown k) (h : s.step? action = some s') :
    s.Drifts s' := by
  cases action with
  | shutdown k => exact absurd rfl (haction k)
  | loop index => exact drifts_loop h
  | visit v => exact drifts_visit h
  | call index answer => exact drifts_call h
  | stop port =>
    cases h
    exact s.drifts_stop port
  | deliver v arrival => exact drifts_client (a := .deliver arrival) (f := (·.arrive arrival)) h
  | endInput v =>
    exact drifts_client (a := .endInput) (f := fun c => { c with ended := true }) h
  | session i a =>
    simp only [step?, Option.bind_eq_bind, Option.bind_eq_some_iff, Option.pure_def,
      Option.some.injEq] at h
    obtain ⟨w, -, w', -, rfl⟩ := h
    exact drifts_of_same rfl rfl
  | waiter index =>
    simp only [step?, Option.bind_eq_bind, Option.bind_eq_some_iff, Option.pure_def,
      Option.some.injEq] at h
    obtain ⟨quit, -, rfl⟩ := h
    exact drifts_of_same rfl rfl
  | connect loop =>
    simp only [step?, Option.bind_eq_bind, Option.bind_eq_some_iff, Option.pure_def] at h
    obtain ⟨l, -, h⟩ := h
    split at h <;> cases h
    exact drifts_of_same rfl rfl
  | beginShutdown =>
    cases h
    exact ⟨.inr rfl, List.Subset.refl _, fun _ => .inl, Nat.le_refl _⟩
  | beginListen | beginRestart | beginWait =>
    cases h
    exact drifts_of_same rfl rfl

end steps

/-! ## Sessions -/

/-- What shutdowns do next to close a session. -/
def shutting (s : Server) (i : Nat) : List ClosePhase :=
  s.shutdowns.filterMap (·.close? i)

/-- The closes of a session that have begun, its own and those of shutdowns. -/
def closesOf (s : Server) (i : Nat) (w : World) : List ClosePhase :=
  w.session.closes ++ s.shutting i

/-- A shutdown has still to close a session, or it has been closed. -/
def Booked (s : Server) (i : Nat) : Prop :=
  (∃ phase ∈ s.shutdowns, phase.Lists i) ∨ ∃ w, s.world? i = some w ∧ w.session.closed = true

section sessions

lemma filterMap_set {α β : Type} {xs : List α} {x : α} (f : α → Option β) (hk : xs[k]? = some x)
    (y : α) : ∃ l r, xs.filterMap f = l ++ (f x).toList ++ r ∧
      (xs.set k y).filterMap f = l ++ (f y).toList ++ r := by
  have around : ∀ (l r : List α) (x : α),
      (l ++ x :: r).filterMap f = l.filterMap f ++ (f x).toList ++ r.filterMap f := by
    intro l r x
    cases hx : f x <;> simp [hx]
  obtain ⟨hlt, rfl⟩ := List.getElem?_eq_some_iff.1 hk
  refine ⟨(xs.take k).filterMap f, (xs.drop (k + 1)).filterMap f, ?_, ?_⟩
  · rw [← around, ← List.drop_eq_getElem_cons hlt, List.take_append_drop]
  · rw [List.set_eq_take_append_cons_drop, if_pos hlt, around]

lemma Drifts.shutting (h : s.Drifts s') (i : Nat) : s'.shutting i = s.shutting i := by
  unfold Server.shutting
  rcases h.shutdowns with heq | heq
  · rw [heq]
  · rw [heq, List.filterMap_append]
    exact List.append_nil _

/-- A step of a shutdown that is not of a close under way changes no close that is. -/
lemma shutting_calm {phase phase' : ShutdownPhase} (hk : s.shutdowns[k]? = some phase)
    (hset : s'.shutdowns = s.shutdowns.set k phase')
    (hphase : ∀ p, phase.close? i = some p → p.isUnderWay = false)
    (hphase' : ∀ p, phase'.close? i = some p → p.isUnderWay = false) (p : ClosePhase)
    (hunder : p.isUnderWay = true) : p ∈ s.shutting i ↔ p ∈ s'.shutting i := by
  obtain ⟨l, r, hbefore, hafter⟩ := filterMap_set (·.close? i) hk phase'
  have hne : ∀ q, (∀ p, q = some p → p.isUnderWay = false) → p ∉ q.toList := by
    intro q hq hmem
    rw [hq p (Option.mem_toList.1 hmem)] at hunder
    cases hunder
  rw [shutting, shutting, hset, hbefore, hafter]
  simp only [List.mem_append, hne _ hphase, hne _ hphase']

lemma setShutdown_shutdowns {phase' : ShutdownPhase} {s₁ : Server} {phase : ShutdownPhase}
    (h : s.Shuts phase phase' s₁) :
    (s₁.setShutdown k phase').shutdowns = s.shutdowns.set k phase' := by
  cases h with
  | stop port rest =>
    rw [setShutdown, (s.stop_same port).1]
  | _ => rfl

/-- Only its own steps take a shutdown further. -/
lemma shutdown_kept {phase : ShutdownPhase} (h : s.step? action = some s')
    (haction : action ≠ .shutdown k) (hk : s.shutdowns[k]? = some phase) :
    s'.shutdowns[k]? = some phase := by
  by_cases hshutdown : ∃ m, action = .shutdown m
  · obtain ⟨m, rfl⟩ := hshutdown
    obtain ⟨before, phase', s₁, -, hshuts, rfl⟩ := shutdown_shuts h
    rw [setShutdown_shutdowns hshuts, List.getElem?_set_ne (by simpa using haction), hk]
  · rcases (step_drifts (fun m hm => hshutdown ⟨m, hm⟩) h).shutdowns with heq | heq
    · rw [heq, hk]
    · rw [heq, List.getElem?_append_left (List.getElem?_eq_some_iff.1 hk).1, hk]

lemma shutdown_goes {phase : ShutdownPhase} (h : s.shutdownStep? k = some s')
    (hk : s.shutdowns[k]? = some phase) : ∃ phase' s₁, s.Shuts phase phase' s₁ ∧
      s' = s₁.setShutdown k phase' ∧ s'.shutdowns[k]? = some phase' := by
  obtain ⟨before, phase', s₁, hk', hshuts, rfl⟩ := shutdown_shuts h
  rw [hk, Option.some.injEq] at hk'
  subst hk'
  refine ⟨phase', s₁, hshuts, rfl, ?_⟩
  rw [setShutdown_shutdowns hshuts, List.getElem?_set_self (List.getElem?_eq_some_iff.1 hk).1]

lemma shutdown_bears (h : s.shutdownStep? k = some s') (hw : s.world? i = some w) :
    ∃ w', s'.world? i = some w' ∧ w.Bears (s.closesOf i w) (s'.closesOf i w') w' := by
  obtain ⟨phase, phase', s₁, hk, hshuts, rfl⟩ := shutdown_shuts h
  have hset := setShutdown_shutdowns (k := k) hshuts
  have calm : s₁.world? i = some w → (∀ p, phase.close? i = some p → p.isUnderWay = false) →
      (∀ p, phase'.close? i = some p → p.isUnderWay = false) →
      ∃ w', (s₁.setShutdown k phase').world? i = some w' ∧
        w.Bears (s.closesOf i w) ((s₁.setShutdown k phase').closesOf i w') w' := by
    intro hw' hphase hphase'
    refine ⟨w, hw', World.bears_same rfl fun p hunder => ?_⟩
    simp only [closesOf, List.mem_append, shutting_calm hk hset hphase hphase' p hunder]
  cases hshuts with
  | list | stopped | take | done => exact calm hw (by rintro p ⟨⟩) (by rintro p ⟨⟩)
  | stop port rest =>
    obtain ⟨hsessions, himage, -⟩ := s.stop_sessions port
    refine calm ?_ (by rintro p ⟨⟩) (by rintro p ⟨⟩)
    rw [world?, hsessions, himage]
    exact hw
  | next j rest =>
    refine calm hw (by rintro p ⟨⟩) fun p hp => ?_
    simp only [ShutdownPhase.close?] at hp
    split at hp <;> cases hp
    rfl
  | closed rest hended =>
    refine calm hw (fun p hp => ?_) (by rintro p ⟨⟩)
    simp only [ShutdownPhase.close?] at hp
    split at hp <;> cases hp
    subst_vars
    rw [hended w hw]
    rfl
  | @close j p p' w₁ w₂ rest hw₁ hclose =>
    obtain ⟨hget, -⟩ := world?_eq_some.1 hw
    by_cases hj : j = i
    · subst hj
      rw [hw, Option.some.injEq] at hw₁
      subst hw₁
      obtain ⟨hlt, -⟩ := List.getElem?_eq_some_iff.1 hget
      refine ⟨w₂, world?_eq_some.2 ⟨List.getElem?_set_self hlt, rfl⟩, ?_⟩
      obtain ⟨l, r, hbefore, hafter⟩ := filterMap_set (·.close? j) hk (.closingOne p' j rest)
      have hcloses : w₂.session.closes = w.session.closes := by
        obtain ⟨-, _, _, _, _, _, _, _, _, hsession, -⟩ := World.closeStep_frame hclose
        rw [hsession]
        rfl
      have hleft : s.closesOf j w = (w.session.closes ++ l) ++ p :: r := by
        rw [closesOf, shutting, hbefore]
        simp [ShutdownPhase.close?]
      have hright : ((s.putWorld j w₂).setShutdown k (.closingOne p' j rest)).closesOf j w₂ =
          (w.session.closes ++ l) ++ p' :: r := by
        rw [closesOf, shutting, hset, hafter, hcloses]
        simp [ShutdownPhase.close?]
      rw [hleft, hright]
      exact World.bears_close _ _ hclose
    · have hnone : ∀ q q', (ShutdownPhase.closingOne q j rest).close? i = some q' →
          q'.isUnderWay = false := by
        intro q q' hq
        simp [ShutdownPhase.close?, hj] at hq
      refine ⟨⟨w₂.image, w.session⟩, world?_eq_some.2 ⟨?_, rfl⟩, World.bears_same rfl ?_⟩
      · exact (List.getElem?_set_ne hj).trans hget
      · intro q hunder
        simp only [closesOf, List.mem_append, shutting_calm hk hset (hnone p) (hnone p') q hunder]

/-- Whatever a server does, each of its sessions bears it. -/
theorem step_bears (horderly : s.Orderly) (h : s.step? action = some s')
    (hw : s.world? i = some w) :
    ∃ w', s'.world? i = some w' ∧ w.Bears (s.closesOf i w) (s'.closesOf i w') w' := by
  by_cases hshutdown : ∃ k, action = .shutdown k
  · obtain ⟨k, rfl⟩ := hshutdown
    exact shutdown_bears h hw
  · have hdrifts := step_drifts (fun k hk => hshutdown ⟨k, hk⟩) h
    have hlt := Nat.lt_of_lt_of_le (world?_isSome.1 ⟨w, hw⟩) (length_le (step_stirs h).1)
    obtain ⟨w', hw'⟩ := world?_isSome.2 hlt
    refine ⟨w', hw', ?_⟩
    rw [closesOf, closesOf, hdrifts.shutting]
    rcases step_world h hw' with ⟨w₀, hw₀, hturned⟩ | ⟨-, -, -, -, -, hi, -⟩
    · rw [hw, Option.some.injEq] at hw₀
      subst hw₀
      have hworld := horderly.session i w hw
      cases hturned with
      | rest => exact World.bears_same rfl fun _ _ => Iff.rfl
      | act _ hstep => exact World.bears_step hworld.sound hworld.staged hstep
      | start _ hvisit hphase =>
        obtain ⟨w₁, hw₁, habsent⟩ := horderly.entering _ _ i hvisit hphase
        rw [hw, Option.some.injEq] at hw₁
        exact World.bears_start (hw₁ ▸ habsent)
      | close haction => exact absurd ⟨_, haction⟩ hshutdown
    · exact absurd (world?_isSome.1 ⟨w, hw⟩) (by omega)

/-- Nothing that a server does brings a session back. -/
theorem step_dead (horderly : s.Orderly) (h : s.step? action = some s') (hw : s.world? i = some w)
    (hdead : w.session.IsDead) : ∃ w', s'.world? i = some w' ∧ w'.session.IsDead ∧
      (w.session.output.IsQuiet → w'.session.output.IsQuiet) := by
  obtain ⟨w', hw', -⟩ := step_bears horderly h hw
  refine ⟨w', hw', ?_⟩
  rcases step_world h hw' with ⟨w₀, hw₀, hturned⟩ | ⟨-, -, -, -, -, hi, -⟩
  · rw [hw, Option.some.injEq] at hw₀
    subst hw₀
    cases hturned with
    | rest => exact ⟨hdead, id⟩
    | act _ hstep => exact World.dead_step hdead hstep
    | start _ hvisit hphase =>
      obtain ⟨w₁, hw₁, habsent⟩ := horderly.entering _ _ i hvisit hphase
      rw [hw, Option.some.injEq] at hw₁
      subst hw₁
      rw [hdead.service] at habsent
      cases habsent
    | close _ hclose => exact World.dead_close hdead hclose
  · exact absurd (world?_isSome.1 ⟨w, hw⟩) (by omega)

/-- A shutdown closes the sessions on its list one after the other. -/
lemma Shuts.booked {phase phase' : ShutdownPhase} {s₁ : Server} (h : s.Shuts phase phase' s₁)
    (hw : s.world? i = some w) (hlists : phase.Lists i)
    (hafter : (s₁.setShutdown k phase').shutdowns[k]? = some phase') :
    (s₁.setShutdown k phase').Booked i := by
  have listed : phase'.Lists i → (s₁.setShutdown k phase').Booked i :=
    fun hlists' => .inl ⟨phase', List.mem_of_getElem? hafter, hlists'⟩
  cases h with
  | list | stop | stopped | take => cases hlists
  | done => exact absurd hlists List.not_mem_nil
  | next j rest => exact listed ((List.mem_cons.1 hlists).elim (fun h => .inr ⟨h.symm, rfl⟩) .inl)
  | closed rest hended =>
    refine listed (hlists.resolve_right ?_)
    rintro ⟨rfl, rfl⟩
    cases hended w hw
  | close rest hw₁ hclose =>
    rcases hlists with hrest | ⟨rfl, rfl⟩
    · exact listed (.inl hrest)
    · have hlt := (List.getElem?_eq_some_iff.1 (world?_eq_some.1 hw).1).1
      refine .inr ⟨_, world?_eq_some.2 ⟨List.getElem?_set_self hlt, rfl⟩, ?_⟩
      exact World.closed_of_closeStep (by rintro ⟨⟩) hclose

lemma Booked.step (horderly : s.Orderly) (h : s.step? action = some s') (hw : s.world? i = some w)
    (hbooked : s.Booked i) : s'.Booked i := by
  obtain ⟨w', hw', hbears⟩ := step_bears horderly h hw
  rcases hbooked with ⟨phase, hmem, hlists⟩ | ⟨w₀, hw₀, hclosed⟩
  · obtain ⟨k, hk⟩ := List.mem_iff_getElem?.1 hmem
    by_cases haction : action = .shutdown k
    · subst haction
      obtain ⟨phase', s₁, hshuts, rfl, hk'⟩ := shutdown_goes h hk
      exact hshuts.booked hw hlists hk'
    · exact .inl ⟨phase, List.mem_of_getElem? (shutdown_kept h haction hk), hlists⟩
  · rw [hw, Option.some.injEq] at hw₀
    subst hw₀
    exact .inr ⟨w', hw', hbears.closed hclosed⟩

/-- A session stays entered until a shutdown takes the list that it is on. -/
lemma entered_step (horderly : s.Orderly) (h : s.step? action = some s')
    (hw : s.world? i = some w) (hentered : i ∈ s.entered ∨ s.Booked i) :
    i ∈ s'.entered ∨ s'.Booked i := by
  rcases hentered with hmem | hbooked
  · by_cases hshutdown : ∃ k, action = .shutdown k
    · obtain ⟨k, rfl⟩ := hshutdown
      obtain ⟨phase, phase', s₁, hk, hshuts, rfl⟩ := shutdown_shuts h
      cases hshuts with
      | take =>
        refine .inr (.inl ⟨.closing s.entered, ?_, hmem⟩)
        exact List.mem_of_getElem? (List.getElem?_set_self (List.getElem?_eq_some_iff.1 hk).1)
      | stop port rest =>
        left
        simpa only [setShutdown, (s.stop_same port).2.1] using hmem
      | _ => exact .inl hmem
    · exact .inl ((step_drifts (fun k hk => hshutdown ⟨k, hk⟩) h).entered hmem)
  · exact .inr (hbooked.step horderly h hw)

/-- A shutdown is still to close a session, or to take the list of those that it closes. -/
def Doomed (s : Server) (k i : Nat) : Prop :=
  (∃ phase, s.shutdowns[k]? = some phase ∧ phase.isEarly = true) ∨ s.Booked i

lemma Doomed.step (horderly : s.Orderly) (h : s.step? action = some s')
    (hw : s.world? i = some w) (hentered : i ∈ s.entered ∨ s.Booked i) (hdoomed : s.Doomed k i) :
    s'.Doomed k i := by
  rcases hdoomed with ⟨phase, hk, hearly⟩ | hbooked
  · by_cases haction : action = .shutdown k
    · subst haction
      have hafter := entered_step horderly h hw hentered
      obtain ⟨phase', s₁, hshuts, rfl, hk'⟩ := shutdown_goes h hk
      cases hshuts with
      | list | stop | stopped => exact .inl ⟨_, hk', rfl⟩
      | take => exact .inr (hafter.resolve_left List.not_mem_nil)
      | next | close | closed | done => cases hearly
    · exact .inl ⟨phase, shutdown_kept h haction hk, hearly⟩
  · exact .inr (hbooked.step horderly h hw)

end sessions

/-! ## Ports -/

/-- A shutdown has still to stop each port that is entered with one of the first `n` loops. -/
structure Clears (s : Server) (k n : Nat) : Prop where
  loops : n ≤ s.loops.length
  ports : ∃ phase, s.shutdowns[k]? = some phase ∧
    ∀ entry ∈ s.registry, entry.2 < n → phase.Stops entry.1

/-- Whether a call begins. -/
def Action.beginsCall : Action → Bool
  | .beginListen _ | .beginRestart _ => true
  | _ => false

/-- There are `n` loops, and no call will make another. -/
structure Calm (s : Server) (n : Nat) : Prop where
  calls : ∀ call ∈ s.calls, call.mayEnter = false
  loops : s.loops.length = n

section ports

variable {n : Nat}

lemma mem_ports {entry : UInt16 × Nat} (h : entry ∈ s.registry) : entry.1 ∈ s.ports := by
  rw [ports, List.mem_mergeSort]
  exact List.mem_map_of_mem h

/-- Ports are entered with new loops only. -/
lemma registry_step (h : s.step? action = some s') : s.loops.length ≤ s'.loops.length ∧
    ∀ entry ∈ s'.registry, entry ∈ s.registry ∨
      s.loops.length ≤ entry.2 ∧ entry.2 < s'.loops.length := by
  by_cases hshutdown : ∃ k, action = .shutdown k
  · obtain ⟨k, rfl⟩ := hshutdown
    obtain ⟨phase, phase', s₁, -, hshuts, rfl⟩ := shutdown_shuts h
    cases hshuts with
    | stop port rest => exact ⟨(s.drifts_stop port).loops, (s.drifts_stop port).registry⟩
    | _ => exact ⟨Nat.le_refl _, fun _ => .inl⟩
  · have hdrifts := step_drifts (fun k hk => hshutdown ⟨k, hk⟩) h
    exact ⟨hdrifts.loops, hdrifts.registry⟩

lemma Clears.step (hclears : s.Clears k n) (h : s.step? action = some s') : s'.Clears k n := by
  obtain ⟨hloops, phase, hk, hports⟩ := hclears
  obtain ⟨hgrown, hregistry⟩ := registry_step h
  have hold : ∀ entry ∈ s'.registry, entry.2 < n → phase.Stops entry.1 := fun entry hmem hlt =>
    hports entry ((hregistry entry hmem).resolve_right fun hle => by omega) hlt
  refine ⟨Nat.le_trans hloops hgrown, ?_⟩
  by_cases haction : action = .shutdown k
  · subst haction
    obtain ⟨phase', s₁, hshuts, rfl, hk'⟩ := shutdown_goes h hk
    refine ⟨phase', hk', ?_⟩
    cases hshuts with
    | list => exact fun entry hmem _ => mem_ports hmem
    | stop port rest =>
      exact fun entry hmem hlt =>
        (List.mem_cons.1 (hold entry hmem hlt)).resolve_left (mem_stop hmem).2
    | stopped => exact fun entry hmem hlt => absurd (hold entry hmem hlt) List.not_mem_nil
    | take | next | closed | done | close => exact hold
  · exact ⟨phase, shutdown_kept h haction hk, hold⟩

/-- A shutdown that has returned does nothing more. -/
lemma ended_step (h : s.step? action = some s') (hk : s.shutdowns[k]? = some .ended) :
    s'.shutdowns[k]? = some .ended := by
  refine shutdown_kept h ?_ hk
  rintro rfl
  obtain ⟨phase', s₁, hshuts, -⟩ := shutdown_goes h hk
  cases hshuts

lemma Clears.cleared (hclears : s.Clears k n) (hk : s.shutdowns[k]? = some .ended) :
    ∀ entry ∈ s.registry, n ≤ entry.2 := by
  obtain ⟨-, phase, hphase, hports⟩ := hclears
  rw [hk, Option.some.injEq] at hphase
  subst hphase
  exact fun entry hmem => Nat.le_of_not_lt fun hlt => hports entry hmem hlt

/-- Every port is entered with a loop. -/
def Bounded (s : Server) : Prop :=
  ∀ entry ∈ s.registry, entry.2 < s.loops.length

lemma Bounded.step (hbounded : s.Bounded) (h : s.step? action = some s') : s'.Bounded := by
  obtain ⟨hgrown, hregistry⟩ := registry_step h
  exact fun entry hmem => (hregistry entry hmem).elim
    (fun hold => Nat.lt_of_lt_of_le (hbounded entry hold) hgrown) And.right

lemma New.bounded (h : s.New) : s.Bounded := by
  intro entry hmem
  rw [h.registry] at hmem
  cases hmem

lemma Calm.step (hcalm : s.Calm n) (haction : action.beginsCall = false)
    (h : s.step? action = some s') : s'.Calm n := by
  obtain ⟨hcalls, hloops⟩ := hcalm
  have same : s'.calls = s.calls → s'.loops.length = s.loops.length → s'.Calm n :=
    fun hcalls' hloops' => ⟨hcalls' ▸ hcalls, hloops'.trans hloops⟩
  cases action with
  | loop index =>
    obtain ⟨l, -, hmoves⟩ := loop_moves h
    cases hmoves <;> exact same rfl (List.length_modify ..)
  | visit v =>
    obtain ⟨visit, -, hmoves⟩ := visit_moves h
    cases hmoves <;> exact same rfl rfl
  | call index answer =>
    obtain ⟨phase, hphase, hmoves⟩ := call_moves h
    have hover := hcalls phase (List.mem_of_getElem? hphase)
    cases hmoves with
    | go hkeeps =>
      refine ⟨fun call hcall => ?_, hloops⟩
      rcases List.mem_or_eq_of_mem_set hcall with hcall | rfl
      · exact hcalls call hcall
      · exact hkeeps hover
    | stop | written | enter => cases hover
  | shutdown k =>
    obtain ⟨phase, phase', s₁, -, hshuts, rfl⟩ := shutdown_shuts h
    cases hshuts with
    | stop port rest =>
      obtain ⟨-, -, hloops', hcalls'⟩ := s.stop_same port
      exact same hcalls' hloops'
    | _ => exact same rfl rfl
  | stop port =>
    cases h
    obtain ⟨-, -, hloops', hcalls'⟩ := s.stop_same port
    exact same hcalls' hloops'
  | deliver v arrival =>
    cases client_moves (a := .deliver arrival) (f := (·.arrive arrival)) h <;> exact same rfl rfl
  | endInput v =>
    cases client_moves (a := .endInput) (f := fun c => { c with ended := true }) h <;>
      exact same rfl rfl
  | session i a =>
    simp only [step?, Option.bind_eq_bind, Option.bind_eq_some_iff, Option.pure_def,
      Option.some.injEq] at h
    obtain ⟨w, -, w', -, rfl⟩ := h
    exact same rfl rfl
  | waiter index =>
    simp only [step?, Option.bind_eq_bind, Option.bind_eq_some_iff, Option.pure_def,
      Option.some.injEq] at h
    obtain ⟨quit, -, rfl⟩ := h
    exact same rfl rfl
  | connect loop =>
    simp only [step?, Option.bind_eq_bind, Option.bind_eq_some_iff, Option.pure_def] at h
    obtain ⟨l, -, h⟩ := h
    split at h <;> cases h
    exact same rfl rfl
  | beginShutdown | beginWait =>
    cases h
    exact same rfl rfl
  | beginListen | beginRestart => cases haction

lemma Bounded.run {actions : List Action} {last : Server} (hbounded : s.Bounded)
    (hrun : s.run? actions = some last) : last.Bounded :=
  run_induction (P := Bounded) hbounded (fun _ _ _ hs h => hs.step h) hrun

lemma Calm.run {actions : List Action} {last : Server} (hcalm : s.Calm n)
    (hactions : ∀ a ∈ actions, a.beginsCall = false) (hrun : s.run? actions = some last) :
    last.Calm n := by
  induction actions generalizing s with
  | nil =>
    cases hrun
    exact hcalm
  | cons action rest ih =>
    simp only [run?, Option.bind_eq_bind, Option.bind_eq_some_iff] at hrun
    obtain ⟨s₁, hstep, hrest⟩ := hrun
    obtain ⟨haction, hothers⟩ := List.forall_mem_cons.1 hactions
    exact ih (hcalm.step haction hstep) hothers hrest

end ports

/-! ## Runs -/

/-- What holds of a server and its sessions at any time. -/
structure Attended (s : Server) : Prop where
  orderly : s.Orderly
  known : ∀ i, ∀ p ∈ s.shutting i, p.isUnderWay = true → ∃ w, s.world? i = some w
  enrolled : ∀ i w, s.world? i = some w → w.Enrolled (s.closesOf i w)
  evaluators : ∀ i w, s.world? i = some w →
    ∀ id, w.session.Accounted (s.closesOf i w) (.evaluator id)
  entered : ∀ i w, s.world? i = some w → w.session.service ≠ .absent →
    i ∈ s.entered ∨ s.Booked i

section runs

variable {actions : List Action} {last : Server}

lemma New.attended (h : s.New) : s.Attended := by
  have hworld : ∀ i, s.world? i = none := by
    intro i
    rw [world?, h.sessions]
    rfl
  have hshutting : ∀ i, s.shutting i = [] := by
    intro i
    rw [shutting, h.shutdowns]
    rfl
  refine ⟨h.orderly, ?_, ?_, ?_, ?_⟩
  · simp [hshutting]
  all_goals simp [hworld]

/-- Shutdowns close sessions that are there. -/
lemma shutting_step (hknown : ∀ p ∈ s.shutting i, p.isUnderWay = true → ∃ w, s.world? i = some w)
    (h : s.step? action = some s') {p : ClosePhase} (hp : p ∈ s'.shutting i)
    (hunder : p.isUnderWay = true) : ∃ w, s.world? i = some w := by
  by_cases hshutdown : ∃ k, action = .shutdown k
  · obtain ⟨k, rfl⟩ := hshutdown
    obtain ⟨phase, phase', s₁, hk, hshuts, rfl⟩ := shutdown_shuts h
    obtain ⟨l, r, hbefore, hafter⟩ := filterMap_set (·.close? i) hk phase'
    rw [shutting, setShutdown_shutdowns hshuts, hafter] at hp
    rw [shutting, hbefore] at hknown
    have old : p ∉ (phase'.close? i).toList → ∃ w, s.world? i = some w := by
      intro hne
      refine hknown p ?_ hunder
      simp only [List.mem_append] at hp ⊢
      exact hp.imp_left fun hp => .inl (hp.resolve_right hne)
    cases hshuts with
    | list | stop | stopped | take | closed | done => exact old List.not_mem_nil
    | next j rest =>
      refine old fun hmem => ?_
      simp only [ShutdownPhase.close?, Option.mem_toList] at hmem
      split at hmem <;> cases hmem
      cases hunder
    | @close j _ _ w _ rest hw hclose =>
      by_cases hj : j = i
      · exact ⟨w, hj ▸ hw⟩
      · exact old (by simp [ShutdownPhase.close?, hj])
  · rw [(step_drifts (fun k hk => hshutdown ⟨k, hk⟩) h).shutting] at hp
    exact hknown p hp hunder

/-- A session that has just been made has started nothing. -/
lemma created_blank {visit : Visit}
    (hw : (s.createSession visit).2.world? s.sessions.length = some w) :
    w.session.service = .absent ∧ w.session.closes = [] ∧ w.session.evaluators = [] := by
  obtain ⟨hget, -⟩ := world?_eq_some.1 hw
  simp only [createSession, List.getElem?_concat_length, Option.some.injEq] at hget
  rw [← hget]
  exact ⟨rfl, rfl, rfl⟩

lemma Attended.step (hattended : s.Attended) (h : s.step? action = some s') : s'.Attended := by
  have horderly := hattended.orderly
  -- a session was there before, or has only been made
  have cases : ∀ {i w'}, s'.world? i = some w' →
      (∃ w, s.world? i = some w ∧ w.Bears (s.closesOf i w) (s'.closesOf i w') w') ∨
      w'.session.service = .absent ∧ w'.session.evaluators = [] ∧
        ∀ p ∈ s'.closesOf i w', p.isUnderWay = false := by
    intro i w' hw'
    rcases step_world h hw' with ⟨w, hw, -⟩ | ⟨v, visit, -, -, -, rfl, hmade⟩
    · obtain ⟨w₁, hw₁, hbears⟩ := step_bears horderly h hw
      rw [hw', Option.some.injEq] at hw₁
      exact .inl ⟨w, hw, hw₁ ▸ hbears⟩
    · obtain ⟨hservice, hcloses, hevaluators⟩ := created_blank hmade
      refine .inr ⟨hservice, hevaluators, fun p hp => Bool.eq_false_iff.2 fun hunder => ?_⟩
      rw [closesOf, hcloses, List.nil_append] at hp
      exact absurd (world?_isSome.1 (shutting_step (hattended.known _) h hp hunder))
        (Nat.lt_irrefl _)
  refine ⟨horderly.step h, fun i p hp hunder => ?_, fun i w' hw' => ?_, fun i w' hw' id => ?_,
    fun i w' hw' hservice => ?_⟩
  · obtain ⟨w, hw⟩ := shutting_step (hattended.known i) h hp hunder
    obtain ⟨w', hw', -⟩ := step_bears horderly h hw
    exact ⟨w', hw'⟩
  · rcases cases hw' with ⟨w, hw, hbears⟩ | ⟨habsent, -, hcalm⟩
    · exact hbears.enrolled (hattended.enrolled i w hw)
    · refine ⟨?_, ?_, fun p hp hunder => ?_, ?_, ?_⟩
      case refine_3 =>
        rw [hcalm p hp] at hunder
        cases hunder
      all_goals simp [habsent, ServePhase.stage]
  · rcases cases hw' with ⟨w, hw, hbears⟩ | ⟨-, hnone, -⟩
    · exact hbears.accounted _ (hattended.evaluators i w hw id)
    · refine .inl fun e he => ?_
      rw [hnone] at he
      cases he
  · rcases step_world h hw' with ⟨w, hw, hturned⟩ | ⟨-, visit, -, -, -, rfl, hmade⟩
    · by_cases habsent : w.session.service = .absent
      · cases hturned with
        | rest => exact absurd habsent hservice
        | act _ hstep =>
          exact absurd (World.step_absent (horderly.session i w hw).sound hstep habsent) hservice
        | start haction hvisit hphase =>
          subst haction
          exact .inl (entered_of_start h hvisit hphase)
        | close _ hclose =>
          rw [(World.closeStep?_spec (s := none) hclose).2] at hservice
          exact absurd habsent hservice
      · exact entered_step horderly h hw (hattended.entered i w hw habsent)
    · exact absurd (created_blank hmade).1 hservice

/-- The actors of a session are accounted for, and so is its stream if it was open. -/
def Holds (s : Server) (i : Nat) (opened : Prop) : Prop :=
  ∃ w, s.world? i = some w ∧ w.Manned (s.closesOf i w) ∧ (opened → w.Piped (s.closesOf i w))

variable {opened : Prop}

lemma Holds.step (horderly : s.Orderly) (hholds : s.Holds i opened)
    (h : s.step? action = some s') : s'.Holds i opened := by
  obtain ⟨w, hw, hmanned, hpiped⟩ := hholds
  obtain ⟨w', hw', hbears⟩ := step_bears horderly h hw
  exact ⟨w', hw', hbears.manned hmanned, fun hopen => hbears.piped (hpiped hopen)⟩

lemma Attended.holds (hattended : s.Attended) (hw : s.world? i = some w)
    (hopen : w.session.closed = false) (hrecorded : w.session.service.isRecorded = true) :
    s.Holds i (w.session.service.isOpen = true) :=
  ⟨w, hw, (hattended.enrolled i w hw).manned hopen hrecorded,
    (hattended.enrolled i w hw).piped hopen⟩

lemma Holds.started (hattended : s.Attended) (hholds : s.Holds i opened) :
    ∃ w, s.world? i = some w ∧ (i ∈ s.entered ∨ s.Booked i) := by
  obtain ⟨w, hw, hmanned, -⟩ := hholds
  refine ⟨w, hw, hattended.entered i w hw fun habsent => ?_⟩
  have hstage := hmanned.recorded
  simp [habsent, ServePhase.stage] at hstage

/-- At rest, shutdowns have returned, and no session can do anything. -/
lemma rest_of_next {base : UInt16} (h : s.next? base = none) :
    (∀ phase ∈ s.shutdowns, phase = .ended) ∧ ∀ i w, s.world? i = some w →
      ∀ a ∈ World.agenda w.session, w.step? a = none := by
  simp only [next?, Option.or_eq_none_iff, List.findSome?_eq_none_iff, List.mem_range] at h
  obtain ⟨hshutdowns, -, -, -, -, hsessions⟩ := h
  refine ⟨fun phase hphase => ?_, fun i w hw => ?_⟩
  · obtain ⟨k, hk⟩ := List.mem_iff_getElem?.1 hphase
    have hnone := hshutdowns k (List.getElem?_eq_some_iff.1 hk).1
    simp only [shutdownStep?, hk, Option.bind_eq_bind, Option.bind_some, Option.pure_def] at hnone
    cases phase with
    | ended => rfl
    | listing | taking => cases hnone
    | stopping ports => cases ports <;> cases hnone
    | closing sessions => cases sessions <;> cases hnone
    | closingOne phase session rest =>
      simp only at hnone
      split at hnone <;> cases hnone
  · have hnone := hsessions i (world?_isSome.1 ⟨w, hw⟩)
    rw [hw, Option.bind_some, Option.map_eq_none_iff] at hnone
    exact List.findSome?_eq_none_iff.1 hnone

/-- At rest, a session is dead that a shutdown has come to. -/
lemma dead_of_rest {base : UInt16} (hattended : s.Attended) (hrest : s.next? base = none)
    (hholds : s.Holds i opened) (hdoomed : s.Doomed k i) : ∃ w, s.world? i = some w ∧
      w.session.IsDead ∧ (opened → w.session.output.IsQuiet) := by
  obtain ⟨w, hw, hmanned, hpiped⟩ := hholds
  obtain ⟨hshutdowns, hworlds⟩ := rest_of_next hrest
  have hclosed : w.session.closed = true := by
    rcases hdoomed with ⟨phase, hk, hearly⟩ | ⟨phase, hmem, hlists⟩ | ⟨w₁, hw₁, hclosed⟩
    · rw [hshutdowns phase (List.mem_of_getElem? hk)] at hearly
      cases hearly
    · rw [hshutdowns phase hmem] at hlists
      cases hlists
    · rw [hw, Option.some.injEq] at hw₁
      exact hw₁ ▸ hclosed
  have hdone : ∀ p ∈ s.closesOf i w, p = .ended := by
    intro p hp
    rcases List.mem_append.1 hp with hp | hp
    · exact World.closes_of_rest (hworlds i w hw) p hp
    · obtain ⟨phase, hphase, hclose⟩ := List.mem_filterMap.1 hp
      rw [hshutdowns phase hphase] at hclose
      cases hclose
  refine ⟨w, hw, ?_, fun hopen => (hpiped hopen).quiet_of_rest hclosed hdone (hworlds i w hw)⟩
  exact World.dead_of_rest (hattended.orderly.session i w hw).sound (hattended.enrolled i w hw)
    hmanned (hattended.evaluators i w hw) hclosed hdone (hworlds i w hw)

end runs

/-- Whatever else a server does meanwhile: once a shutdown has returned and nothing more can happen
but that time goes by or a client does something, every port that is registered was entered with a
loop made after the shutdown began, and none is registered if no call was under way then and none
has begun since. Every session is dead whose service had entered the handles of reader and control
loop, at any time before, and that nobody had closed by then. And so it stays whatever the clients
send. -/
theorem shutdown_final {s₀ t₀ t last s : Server} {before between after later : List Action}
    {k : Nat} {base : UInt16} (hnew : s₀.New) (hbefore : s₀.run? before = some t₀)
    (hbetween : t₀.run? between = some t) (hbegun : t.shutdowns[k]? = some .listing)
    (hafter : t.run? after = some last) (hreturned : last.shutdowns[k]? = some .ended)
    (hrest : last.next? base = none) (hlater : last.run? later = some s) :
    (∀ entry ∈ s.registry, t.loops.length ≤ entry.2) ∧
    ((∀ call ∈ t.calls, call.mayEnter = false) →
      (∀ a ∈ after ++ later, a.beginsCall = false) → s.registry = []) ∧
    ∀ i w, t₀.world? i = some w → w.session.closed = false →
      w.session.service.isRecorded = true → ∃ w', s.world? i = some w' ∧ w'.session.IsDead ∧
        (w.session.service.isOpen = true → w'.session.output.IsQuiet) := by
  have hcleared : ∀ entry ∈ s.registry, t.loops.length ≤ entry.2 := by
    have hlast : last.Clears k t.loops.length :=
      run_induction (P := fun s => s.Clears k t.loops.length)
        ⟨Nat.le_refl _, .listing, hbegun, fun _ _ _ => trivial⟩ (fun _ _ _ hs h => hs.step h) hafter
    obtain ⟨hclears, hended⟩ : s.Clears k t.loops.length ∧ s.shutdowns[k]? = some .ended :=
      run_induction (P := fun s => s.Clears k t.loops.length ∧ s.shutdowns[k]? = some .ended)
        ⟨hlast, hreturned⟩ (fun _ _ _ hs h => ⟨hs.1.step h, ended_step h hs.2⟩) hlater
    exact hclears.cleared hended
  refine ⟨hcleared, fun hcalls hactions => ?_, fun i w hw hopen hrecorded => ?_⟩
  · obtain ⟨hduring, hsince⟩ := List.forall_mem_append.1 hactions
    have hcalm : s.Calm t.loops.length := (Calm.run ⟨hcalls, rfl⟩ hduring hafter).run hsince hlater
    have hbounded : s.Bounded :=
      (((hnew.bounded.run hbefore).run hbetween).run hafter).run hlater
    refine List.eq_nil_iff_forall_not_mem.2 fun entry hmem => ?_
    have hlt := hbounded entry hmem
    have hle := hcleared entry hmem
    rw [hcalm.loops] at hlt
    omega
  · have hattended : t₀.Attended :=
      run_induction hnew.attended (fun _ _ _ hs h => hs.step h) hbefore
    have hheld : t.Attended ∧ t.Holds i (w.session.service.isOpen = true) := by
      refine run_induction (P := fun s => s.Attended ∧ s.Holds i _)
        ⟨hattended, hattended.holds hw hopen hrecorded⟩ ?_ hbetween
      rintro s₁ action s₂ ⟨hattended, hholds⟩ h
      exact ⟨hattended.step h, hholds.step hattended.orderly h⟩
    obtain ⟨⟨hattended, hholds⟩, hdoomed⟩ : (last.Attended ∧
        last.Holds i (w.session.service.isOpen = true)) ∧ last.Doomed k i := by
      refine run_induction (P := fun s => (s.Attended ∧ s.Holds i _) ∧ s.Doomed k i)
        ⟨hheld, .inl ⟨.listing, hbegun, rfl⟩⟩ ?_ hafter
      rintro s₁ action s₂ ⟨⟨hattended, hholds⟩, hdoomed⟩ h
      obtain ⟨w₁, hw₁, hentered⟩ := hholds.started hattended
      exact ⟨⟨hattended.step h, hholds.step hattended.orderly h⟩,
        hdoomed.step hattended.orderly h hw₁ hentered⟩
    have hdead := dead_of_rest hattended hrest hholds hdoomed
    refine (run_induction (P := fun s => s.Orderly ∧ ∃ w', s.world? i = some w' ∧
      w'.session.IsDead ∧ (w.session.service.isOpen = true → w'.session.output.IsQuiet))
      ⟨hattended.orderly, hdead⟩ ?_ hlater).2
    rintro s₁ action s₂ ⟨horderly, w₁, hw₁, hdead₁, hquiet⟩ h
    obtain ⟨w₂, hw₂, hdead₂, hkept⟩ := step_dead horderly h hw₁ hdead₁
    exact ⟨horderly.step h, w₂, hw₂, hdead₂, fun hopen => hkept (hquiet hopen)⟩

/-- The shutdown returns, and what it has told to end does so. -/
def sampleShutdown : List Action :=
  List.replicate 15 (.shutdown 0) ++ List.replicate 3 (.loop 0) ++
    [.session 0 (.finish .reader), .session 0 (.finish .control),
      .session 0 (.finish (.evaluator 3))] ++
    List.replicate 3 (.session 0 .serve) ++ [.visit 0]

/-- A request that comes after the shutdown. -/
def sampleLate : List Action :=
  [sampleMessage 0 "(:emacs-interrupt t)"]

theorem shutdown_final_serving : ∃ t₀ t last s w w',
    sample.run? (sampleListening ++ sampleVisit 0) = some t₀ ∧ t₀.registry = [(4005, 0)] ∧
    t₀.world? 0 = some w ∧ w.session.service = .serving ∧ t₀.run? [.beginShutdown] = some t ∧
    t.run? sampleShutdown = some last ∧ last.run? sampleLate = some s ∧ s.registry = [] ∧
    s.world? 0 = some w' ∧ w'.session.IsDead ∧ w'.session.output.IsQuiet := by
  have hall : (sample.run? (sampleListening ++ sampleVisit 0)).any (fun t₀ =>
      t₀.registry = [(4005, 0)] ∧ ((t₀.world? 0).any fun w =>
        w.session.service = .serving ∧ w.session.closed = false) ∧
      (t₀.run? [.beginShutdown]).any fun t => t.shutdowns[0]? = some .listing ∧
        (∀ call ∈ t.calls, call.mayEnter = false) ∧ (t.run? sampleShutdown).any fun last =>
          last.shutdowns[0]? = some .ended ∧ (last.next? 4005).isNone ∧
          (last.run? sampleLate).isSome) = true := by
    decide +kernel
  obtain ⟨t₀, hbefore, hshows⟩ := (Option.any_eq_true _ _).1 hall
  obtain ⟨hregistry, hserves, hbegins⟩ := of_decide_eq_true hshows
  obtain ⟨w, hw, hserves⟩ := (Option.any_eq_true _ _).1 hserves
  obtain ⟨hservice, hopen⟩ := of_decide_eq_true hserves
  obtain ⟨t, hbetween, hbegins⟩ := (Option.any_eq_true _ _).1 hbegins
  obtain ⟨hbegun, hcalls, hends⟩ := of_decide_eq_true hbegins
  obtain ⟨last, hafter, hends⟩ := (Option.any_eq_true _ _).1 hends
  obtain ⟨hreturned, hrest, hlater⟩ := of_decide_eq_true hends
  obtain ⟨s, hlater⟩ := Option.isSome_iff_exists.1 hlater
  obtain ⟨-, hnone, hsessions⟩ := shutdown_final sample_new hbefore hbetween hbegun hafter
    hreturned (Option.isNone_iff_eq_none.1 hrest) hlater
  obtain ⟨w', hw', hdead, hquiet⟩ := hsessions 0 w hw hopen (by rw [hservice]; rfl)
  exact ⟨t₀, t, last, s, w, w', hbefore, hregistry, hw, hservice, hbetween, hafter, hlater,
    hnone hcalls (by decide), hw', hdead, hquiet (by rw [hservice]; rfl)⟩

/-- The server is shut down when a session has been entered and has not started anything. -/
def sampleHaste : List Action :=
  sampleListening ++ [.connect 0, .loop 0] ++ List.replicate 4 (.visit 0) ++
    .beginShutdown :: List.replicate 12 (.shutdown 0)

/-- The port is left, and the session starts. -/
def sampleStart : List Action :=
  List.replicate 3 (.loop 0) ++ List.replicate 4 (.session 0 .serve) ++
    [.session 0 (.finish (.evaluator 3)), .session 0 .serve, .session 0 .reader]

/-- A session that has been entered and has not entered its handles yet is closed without effect:
when nothing more can happen it serves its client. -/
theorem shutdown_misses_starting : ∃ t last w, sample.run? sampleHaste = some t ∧
    t.shutdowns = [.ended] ∧ t.entered = [] ∧ t.run? sampleStart = some last ∧
    last.next? 4005 = none ∧ last.world? 0 = some w ∧ w.session.service = .serving ∧
    w.session.reader = .reading ∧ w.session.control = .receiving ∧ ¬ w.session.IsDead := by
  have hall : (sample.run? sampleHaste).any (fun t => t.shutdowns = [.ended] ∧ t.entered = [] ∧
      (t.run? sampleStart).any fun last => (last.next? 4005).isNone ∧
        (last.world? 0).any fun w => w.session.service = .serving ∧
          w.session.reader = .reading ∧ w.session.control = .receiving) = true := by
    decide +kernel
  obtain ⟨t, hbefore, hshows⟩ := (Option.any_eq_true _ _).1 hall
  obtain ⟨hended, hentered, hstarts⟩ := of_decide_eq_true hshows
  obtain ⟨last, hafter, hstarts⟩ := (Option.any_eq_true _ _).1 hstarts
  obtain ⟨hrest, hserves⟩ := of_decide_eq_true hstarts
  obtain ⟨w, hw, hserves⟩ := (Option.any_eq_true _ _).1 hserves
  obtain ⟨hservice, hreader, hcontrol⟩ := of_decide_eq_true hserves
  refine ⟨t, last, w, hbefore, hended, hentered, hafter, Option.isNone_iff_eq_none.1 hrest, hw,
    hservice, hreader, hcontrol, fun hdead => ?_⟩
  rw [hdead.service] at hservice
  cases hservice

end Server

end EvalServer
