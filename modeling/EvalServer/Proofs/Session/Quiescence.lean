import EvalServer.Proofs.Session.ActiveActors
import EvalServer.Proofs.Session.Wire

/-!
# Sessions at rest

When nothing is left to do, nobody was killed and all that control wrote was sent whole, control
still waits for messages, the REPL has answered all its requests and every worker the one that it
was started for. A worker ends after that request, so others that were addressed to it in the
meantime get no answer.
-/

namespace EvalServer

namespace History

/-- The requests that were accepted for an evaluator, with their designators. -/
def acceptedFor (h : History) (a : ActorId) : List (Thread × Work) :=
  h.accepted.filterMap fun r => if r.2.1 = a then some (r.1, r.2.2) else none

variable {h : History}

lemma threadsTo_eq (h : History) (a : ActorId) :
    h.threadsTo a = (h.acceptedFor a).map Prod.fst := by
  rw [threadsTo, acceptedFor, List.map_filterMap]
  congr 1
  funext r
  split <;> rfl

lemma handedTo_eq (hhanded : h.accepted.map Prod.snd = h.handed) (a : ActorId) :
    h.handedTo a = (h.acceptedFor a).map Prod.snd := by
  rw [handedTo, ← hhanded, List.filterMap_map, acceptedFor, List.map_filterMap]
  congr 1
  funext r
  rw [Function.comp_apply]
  split <;> rfl

end History

namespace Desk

variable {host : Host} {streams : Bool} {a : ActorId} {d : Desk} {p : Progress}

/-- An evaluator at rest has finished all requests, or the first if it is a worker. -/
lemma Traced.at_rest (h : d.Traced host streams a p) (hrest : d.phase = .ended ∧ d.killed = false ∨
    d.phase = .receiving ∧ d.queue = []) :
    p.said = [] ∧ ∃ waiting, d.handed = p.finished.map Evaluation.work ++ waiting ∧
      (d.worker = false → waiting = []) ∧
      (d.worker = true → d.handed ≠ [] → p.finished.length = 1) := by
  obtain ⟨waiting, hqueue, hhanded⟩ := h.exists_waiting
  have hstage := h.stage
  rcases hrest with ⟨hphase, hkill⟩ | ⟨hphase, hempty⟩
  · rw [hphase] at hstage
    cases hstage with
    | left _ hworker hone =>
      rw [Option.toList_none, List.append_nil] at hhanded
      exact ⟨rfl, waiting, hhanded, by simp [hworker], fun _ _ => hone⟩
    | killed _ _ hk | orphaned _ _ hk =>
      rw [hkill] at hk
      cases hk
  · rw [hempty, eq_comm, List.map_eq_nil_iff] at hqueue
    subst hqueue
    rw [hphase] at hstage
    cases hstage with
    | @receiving finished _ hunused =>
      rw [Option.toList_none, List.append_nil] at hhanded
      refine ⟨rfl, [], hhanded, fun _ => rfl, fun hworker hne => absurd ?_ hne⟩
      rw [hhanded, hunused hworker]
      rfl

end Desk

namespace Traffic

variable {o o' : Traffic} {h h' : History} {a : ActorId}

lemma Run.outbound {o₀ : Traffic} (hrun : Run o₀ h o) :
    o.outbound = o₀.outbound ++ h.written.flatMap Prod.snd := by
  induction hrun with
  | start => simp [History.written]
  | next _ hmove ih =>
    rw [hmove.outbound, ih, History.written_append, List.flatMap_append, List.append_assoc]

/-- Whether an evaluator deals with a request: the REPL with all, a worker with the one that was
for any thread. -/
def Serves (o : Traffic) (thread : Thread) (target : ActorId) : Prop :=
  thread = .any ∨ (target, true) ∉ o.roles

instance (thread : Thread) (target : ActorId) : Decidable (o.Serves thread target) :=
  inferInstanceAs (Decidable (thread = .any ∨ (target, true) ∉ o.roles))

def served (o : Traffic) (h : History) : List (Thread × ActorId × Work) :=
  h.accepted.filter fun r => o.Serves r.1 r.2.1

def idsFor (o : Traffic) (h : History) (a : ActorId) : List Int64 :=
  (o.served h).filterMap fun r => if r.2.1 = a then some r.2.2.id else none

lemma idsFor_eq (o : Traffic) (h : History) (a : ActorId) :
    o.idsFor h a = ((h.acceptedFor a).filter fun r => o.Serves r.1 a).map (·.2.id) := by
  simp only [idsFor, served, History.acceptedFor, List.filterMap_filter, List.filter_filterMap,
    List.map_filterMap]
  congr 1
  funext r
  by_cases ha : r.2.1 = a
  · subst ha
    by_cases hserves : o.Serves r.1 r.2.1 <;> simp [Option.filter, hserves]
  · simp [ha]

lemma idsFor_repl (ha : (a, true) ∉ o.roles) (h : History) :
    o.idsFor h a = ((h.acceptedFor a).map Prod.snd).map Work.id := by
  have hserves : ∀ r ∈ h.acceptedFor a, o.Serves r.1 a := fun _ _ => .inr ha
  rw [idsFor_eq, List.filter_eq_self.2 (by simpa using hserves), List.map_map]
  rfl

lemma Allotted.idsFor_worker (hallot : o.Allotted h) (ha : (a, true) ∈ o.roles) :
    ∃ work others, (h.acceptedFor a).map Prod.snd = work :: others ∧ o.idsFor h a = [work.id] := by
  obtain ⟨rest, hthreads, hany⟩ := hallot.workers a ha
  rw [History.threadsTo_eq] at hthreads
  obtain ⟨⟨first, work⟩, others, haccepted, hfirst, hothers⟩ := List.map_eq_cons_iff.1 hthreads
  have hserves : o.Serves first a := .inl hfirst
  have hnone : ∀ r ∈ others, ¬ o.Serves r.1 a := by
    rintro r hr (heq | hnot)
    · exact hany (hothers ▸ heq ▸ List.mem_map_of_mem hr)
    · exact hnot ha
  refine ⟨work, others.map Prod.snd, by rw [haccepted, List.map_cons], ?_⟩
  rw [idsFor_eq, haccepted, List.filter_cons_of_pos (by simpa using hserves),
    List.filter_eq_nil_iff.2 (by simpa using hnone)]
  rfl

lemma Sound.worker_eq (hsound : o.Sound) {e : Evaluator} (he : e ∈ o.evaluators) :
    e.worker = true ↔ (e.id, true) ∈ o.roles := by
  constructor
  · intro hw
    exact hw ▸ List.mem_map_of_mem he
  · intro hmem
    obtain ⟨e', he', heq⟩ := List.mem_map.1 hmem
    obtain ⟨hid, hw⟩ := Prod.mk.inj heq
    rwa [hsound.eq_of_id he' he hid] at hw

/-- Pairs that agree for each first component are the same up to their order. -/
lemma perm_of_filterMap {α β : Type} [DecidableEq α] [DecidableEq β] {l l' : List (α × β)}
    (heq : ∀ a, l.filterMap (fun p => if p.1 = a then some p.2 else none) =
      l'.filterMap fun p => if p.1 = a then some p.2 else none) : l.Perm l' := by
  have hcount : ∀ (l : List (α × β)) (a : α) (b : β), l.count (a, b) =
      (l.filterMap fun p => if p.1 = a then some p.2 else none).count b := by
    intro l a b
    rw [List.count_filterMap, List.count]
    refine List.countP_congr fun p _ => ?_
    by_cases ha : p.1 = a <;> simp [Prod.ext_iff, ha]
  rw [List.perm_iff_count]
  rintro ⟨a, b⟩
  rw [hcount, hcount, heq]

/-- Control waits for a message, or has not started, and nothing is left to do for an evaluator. -/
structure Quiet (o : Traffic) : Prop where
  control : o.control = .receiving ∨ o.control = .absent
  mail : o.controlQueue = []
  evaluators : ∀ e ∈ o.evaluators, e.phase = .ended ∨ e.phase = .receiving ∧ o.queue e.id = []

namespace Quiet

lemma accepted_eq (hrest : o.Quiet) (hbooks : o.Books h) : h.accepted.map Prod.snd = h.handed := by
  have hnone : o.underway = [] := by
    rcases hrest.control with hc | hc
    · rw [underway, hc]
    · rw [underway, hc]
  rw [hbooks.handed, hnone, List.append_nil]

lemma returns_eq (hrest : o.Quiet) (hbooks : o.Books h) : h.returns = h.results.map Prod.snd := by
  have hreturned := hbooks.returned
  unfold Returned at hreturned
  rcases hrest.control with hc | hc
  · rw [hc] at hreturned
    exact hreturned.symm
  · rw [hc] at hreturned
    exact hreturned.symm

lemma not_handing (hrest : o.Quiet) : ¬ o.Handing a := by
  rcases hrest.control with hc | hc
  · exact Traffic.not_handing hc (by simp)
  · exact Traffic.not_handing hc (by simp)

/-- An evaluator at rest has answered the requests that it deals with, and no others. -/
lemma exists_evaluations (hrest : o.Quiet) (hkill : o.Unkilled) (hsound : o.Sound)
    (hledger : o.Ledger h) (hbooks : o.Books h) (hallot : o.Allotted h) (a : ActorId) :
    ∃ vs : List Evaluation, (∀ v ∈ vs, v.Genuine o.host o.wantsOutput a) ∧
      h.sentBy a = vs.flatMap (·.block a) ∧ vs.map (·.work.id) = o.idsFor h a := by
  have hto := History.handedTo_eq (hrest.accepted_eq hbooks) a
  by_cases ha : a ∈ o.ids
  · obtain ⟨e, he, rfl⟩ := List.mem_map.1 ha
    obtain ⟨p, hp⟩ := hledger.desks e he
    obtain ⟨hsaid, waiting, hhanded, hrepl, hworker⟩ :=
      hp.at_rest ((hrest.evaluators e he).imp_left fun hended => ⟨hended, hkill e he⟩)
    change h.handedTo e.id = p.finished.map Evaluation.work ++ waiting at hhanded
    change e.worker = false → waiting = [] at hrepl
    change e.worker = true → h.handedTo e.id ≠ [] → p.finished.length = 1 at hworker
    have hsent : h.sentBy e.id = p.finished.flatMap (·.block e.id) ++ p.said := hp.sent
    rw [hsaid, List.append_nil] at hsent
    refine ⟨p.finished, hp.genuine, hsent, ?_⟩
    rw [hto] at hhanded hworker
    by_cases hrole : (e.id, true) ∈ o.roles
    -- a worker: its one finished request is the first that was accepted for it
    · obtain ⟨work, others, haccepted, hids⟩ := hallot.idsFor_worker hrole
      rw [haccepted] at hhanded hworker
      obtain ⟨v, hv⟩ := List.length_eq_one_iff.1
        (hworker ((hsound.worker_eq he).2 hrole) (List.cons_ne_nil work others))
      rw [hv] at hhanded ⊢
      rw [hids, (List.cons.inj hhanded).1]
      rfl
    · have hfalse : e.worker = false :=
        Bool.eq_false_iff.2 fun hw => hrole ((hsound.worker_eq he).1 hw)
      rw [hrepl hfalse, List.append_nil] at hhanded
      rw [idsFor_repl hrole, hhanded, List.map_map]
      rfl
  · have hnone := hallot.threadsTo_eq_nil ha
    rw [History.threadsTo_eq, List.map_eq_nil_iff] at hnone
    refine ⟨[], by simp, (hledger.strangers a ha).1.sentBy, ?_⟩
    rw [idsFor_eq, hnone]
    rfl

lemma ids_eq (hrest : o.Quiet) (hkill : o.Unkilled) (hsound : o.Sound)
    (hledger : o.Ledger h) (hbooks : o.Books h) (hallot : o.Allotted h) (a : ActorId) :
    (h.resultsOf a).map Prod.snd = o.idsFor h a := by
  obtain ⟨vs, hgenuine, hsent, hids⟩ :=
    hrest.exists_evaluations hkill hsound hledger hbooks hallot a
  rw [hbooks.resultsOf_eq hledger hrest.mail, hsent, results_of_blocks hgenuine, List.map_map,
    ← hids]
  rfl

lemma results_perm (hids : ∀ a, (h.resultsOf a).map Prod.snd = o.idsFor h a) :
    (h.results.map (·.2.2)).Perm ((o.served h).map (·.2.2.id)) := by
  have hperm : (h.results.map fun r => (r.1, r.2.2)).Perm
      ((o.served h).map fun r => (r.2.1, r.2.2.id)) := by
    refine perm_of_filterMap fun a => ?_
    have hida := hids a
    rw [History.resultsOf, List.map_filterMap, idsFor] at hida
    rw [List.filterMap_map, List.filterMap_map]
    refine Eq.trans (congrArg (List.filterMap · h.results) ?_) hida
    funext r
    by_cases ha : r.1 = a <;> simp [ha]
  have hsnd := hperm.map Prod.snd
  rw [List.map_map, List.map_map] at hsnd
  exact hsnd

lemma worker_of_active (hrest : o.Quiet) (hatt : o.Attended h) (hallot : o.Allotted h)
    (hbooks : o.Books h) (hids : ∀ a, (h.resultsOf a).map Prod.snd = o.idsFor h a)
    (ha : a ∈ o.active.members) : (a, true) ∈ o.roles ∧ 1 < (h.handedTo a).length := by
  have hengaged : h.engaged a :=
    ((hatt.active a).1 ha).resolve_left hrest.not_handing
  have howed := hatt.owed a hengaged
  have hlength := congrArg List.length (hids a)
  rw [List.length_map] at hlength
  rw [hlength] at howed
  by_cases hrole : (a, true) ∈ o.roles
  · obtain ⟨work, others, -, hone⟩ := hallot.idsFor_worker hrole
    rw [hone] at howed
    exact ⟨hrole, howed⟩
  · rw [idsFor_repl hrole, ← History.handedTo_eq (hrest.accepted_eq hbooks),
      List.length_map] at howed
    exact absurd howed (Nat.lt_irrefl _)

end Quiet

end Traffic

namespace World

open Traffic

/-- Control does not write in this turn, or what it writes is sent whole. -/
def sends (w : World) : Turn → Bool
  | .step .control =>
    match w.session.control with
    | .writing event =>
      (Frame.send w.session.host.coding w.session.connection.writer event.toSexp).2.1.isNone
    | _ => true
  | _ => true

/-- All that control writes in these turns is sent whole. -/
def sendsAll (w : World) : List Turn → Bool
  | [] => true
  | turn :: rest => w.sends turn && ((w.turn? turn).map (·.sendsAll rest)).getD true

/-- Control can do nothing and has no mail, and no evaluator is at work or has mail. -/
structure AtRest (w : World) : Prop where
  control : w.step? .control = none
  mail : w.controlQueue = []
  evaluators : ∀ e ∈ w.session.evaluators, e.phase = .ended ∨
    e.phase = .receiving ∧ w.image.mailboxes.queue e.id = []

section sending

variable {w w' last : World} {turn : Turn} {h : History}

lemma frame_of_sends {event : ServerEvent} (hc : w.session.control = .writing event)
    (hsends : w.sends (.step .control) = true) :
    ∃ frame, Frame.encode w.session.host.coding event.toSexp = .ok frame ∧
      (w.session.connection.writer.transmit frame).failure = none := by
  simp only [sends, hc, Frame.send] at hsends
  cases hframe : Frame.encode w.session.host.coding event.toSexp with
  | error e => simp [hframe] at hsends
  | ok frame => exact ⟨frame, rfl, by simpa [hframe] using hsends⟩

/-- Control ends by itself only where it writes. -/
lemma control_lives (h : w.controlStep? = some w') :
    (w.session.controlKilled = true → w'.session.controlKilled = true) ∧
    (w'.session.control = .ended → ∃ event, w.session.control = .writing event) := by
  unfold controlStep? at h
  cases hc : w.session.control with
  | absent | ended => simp [hc] at h
  | receiving =>
    simp only [hc, Option.bind_eq_bind, Option.bind_eq_some_iff, Option.pure_def,
      Option.some.injEq, Prod.exists] at h
    obtain ⟨m, w₁, hreceive, rfl⟩ := h
    obtain ⟨rest, -, -, hsession⟩ := receive?_spec hreceive
    obtain ⟨c, haside, hevent, -⟩ := handle_aside (hsession ▸ hc) m
    have hsame : w₁.session.controlKilled = w.session.controlKilled := by rw [hsession]
    refine ⟨fun hkilled => haside.killed (hsame.trans hkilled), fun hended => ?_⟩
    obtain rfl : c = .ended := haside.control.symm.trans hended
    split at hevent
    · cases hevent
    · exact absurd hevent.1 (by simp [ControlPhase.isCalm])
  | entering target work | handing target work | aborting target =>
    simp only [hc, Option.some.injEq] at h
    subst h
    exact ⟨id, by simp [goControl, change]⟩
  | raising target =>
    simp only [hc, Session.raise] at h
    by_cases hknown : w.session.table.evaluators.contains target = true
    · simp only [hknown, if_true, Option.some.injEq] at h
      subst h
      exact ⟨id, by simp [goControl, change]⟩
    · simp only [hknown, Bool.false_eq_true, if_false, Option.some.injEq] at h
      subst h
      exact ⟨id, by simp [goControl, change]⟩
  | writing event =>
    simp only [hc, Option.some.injEq] at h
    subst h
    refine ⟨fun hkilled => ?_, fun _ => ⟨event, rfl⟩⟩
    simp only [World.write]
    split
    · exact hkilled
    · exact hkilled

/-- A killed control stays killed. -/
lemma turn_killed (hsound : w.traffic.Sound) (hturn : w.turn? turn = some w')
    (hkilled : w.session.controlKilled = true) : w'.session.controlKilled = true := by
  by_cases hcontrol : turn = .step .control
  · subst hcontrol
    exact (control_lives hturn).1 hkilled
  · have hne : Happening.turn turn ≠ .turn (.step .control) := fun heq =>
      hcontrol (Happening.turn.inj heq)
    cases happen_besides hsound hne hturn with
    | aside haside | start _ haside => exact haside.killed hkilled
    | hangUp | stop | breaks => exact hkilled

/-- Control that is not killed goes on if what it writes is sent whole. -/
lemma turn_goes (hsound : w.traffic.Sound) (hturn : w.turn? turn = some w')
    (hkill : w.session.controlKilled = false) (hsends : w.sends turn = true)
    (hgoes : w.session.control ≠ .ended) : w'.session.control ≠ .ended := by
  intro hended
  by_cases hcontrol : turn = .step .control
  · subst hcontrol
    obtain ⟨event, hc⟩ := (control_lives hturn).2 hended
    obtain ⟨w₁, hstep, hwrites⟩ := control_writes hc
    obtain rfl : w₁ = w' := Option.some.inj (hstep.symm.trans hturn)
    obtain ⟨frame, hframe, hwhole⟩ := frame_of_sends hc hsends
    rcases hwrites with ⟨hback, -⟩ | ⟨-, part, hbreaks⟩
    · simp [hended] at hback
    · cases hbreaks with
      | fails hframe' hfails =>
        obtain rfl := Except.ok.inj (hframe.symm.trans hframe')
        simp [hwhole] at hfails
  · have hne : Happening.turn turn ≠ .turn (.step .control) := fun heq =>
      hcontrol (Happening.turn.inj heq)
    cases happen_besides hsound hne hturn with
    | aside haside => exact hgoes (haside.control ▸ hended)
    | start _ haside => simp [haside.control, goControl, change] at hended
    | hangUp => exact hgoes hended
    | stop _ hkilled => simp [hkill] at hkilled
    | breaks _ hbreaks =>
      cases hbreaks with
      | fails => exact hne rfl
      | stopped hkilled | cut _ hkilled => simp [hkill] at hkilled

lemma of_mem_written {x : ServerEvent × List UInt8} (hx : x ∈ (w.observe turn w').written) :
    w.session.control = .writing x.1 ∧
      x.2 = w'.session.connection.outbound.drop w.session.connection.outbound.length ∧
      (turn = .step .control ∨ ∃ calls, turn = .step (.cut calls)) := by
  have hmail : (mailEvents (w.sender? turn) w.controlQueue w'.controlQueue).written = [] := by
    simp [mailEvents, History.written, -List.map_drop, -List.map_take]
  have hevents : x ∈ (w.controlEvents w').written → w.session.control = .writing x.1 ∧
      x.2 = w'.session.connection.outbound.drop w.session.connection.outbound.length := by
    intro hmem
    unfold controlEvents at hmem
    split at hmem
    · split at hmem
      all_goals simp [History.written] at hmem
    · simp [History.written] at hmem
    · next event _ hc =>
      obtain rfl := List.mem_singleton.1 hmem
      exact ⟨hc, rfl⟩
    · simp [History.written] at hmem
  simp only [observe, History.written_append, hmail, List.nil_append] at hx
  split at hx
  · exact ⟨(hevents hx).1, (hevents hx).2, .inl rfl⟩
  · next calls => exact ⟨(hevents hx).1, (hevents hx).2, .inr ⟨calls, rfl⟩⟩
  · unfold hintEvents at hx
    split at hx
    all_goals simp [History.written] at hx
  · simp [History.written] at hx

/-- Of what control writes whole the frame is on the connection. -/
lemma turn_written (hturn : w.turn? turn = some w') (hkill : w.session.controlKilled = false)
    (hsends : w.sends turn = true) : ∀ x ∈ (w.observe turn w').written,
      Frame.encode w.session.host.coding x.1.toSexp = .ok x.2 := by
  intro x hx
  obtain ⟨hc, hbytes, rfl | ⟨calls, rfl⟩⟩ := of_mem_written hx
  · obtain ⟨frame, hframe, hwhole⟩ := frame_of_sends hc hsends
    obtain ⟨bytes, next, hnext, -, hdrop⟩ := w.write_spec x.1
    obtain rfl : w.write x.1 = w' := by
      simpa only [turn?, step?, controlStep?, hc, Option.some.injEq] using hturn
    rw [hbytes, hdrop, hframe]
    rcases hnext with ⟨-, rfl, -⟩ | ⟨-, frame', hframe', -, hfails⟩
    · simp [ServerEvent.frame, hframe]
    · obtain rfl := Except.ok.inj (hframe.symm.trans hframe')
      simp [hwhole] at hfails
  · obtain ⟨-, -, -, hkilled, -⟩ := cutShort_spec hturn
    simp [hkill] at hkilled

/-- Control that is not killed goes on, and all its frames are on the connection, if all that it
writes is sent whole. -/
lemma play_goes (hsound : w.traffic.Sound) {turns : List Turn}
    (hrun : w.play? turns = some (h, last)) (hsends : w.sendsAll turns = true)
    (hkill : last.session.controlKilled = false) :
    w.session.controlKilled = false ∧
      (w.session.control ≠ .ended → last.session.control ≠ .ended) ∧
      ∀ x ∈ h.written, Frame.encode w.session.host.coding x.1.toSexp = .ok x.2 := by
  induction turns generalizing w h with
  | nil =>
    simp only [play?, Option.some.injEq, Prod.mk.injEq] at hrun
    obtain ⟨rfl, rfl⟩ := hrun
    exact ⟨hkill, id, by simp [History.written]⟩
  | cons turn rest ih =>
    simp only [play?, Option.bind_eq_bind, Option.bind_eq_some_iff, Option.pure_def,
      Option.some.injEq, Prod.mk.injEq, Prod.exists] at hrun
    obtain ⟨w', hturn, h', last', hrest, rfl, rfl⟩ := hrun
    simp only [sendsAll, hturn, Option.map_some, Option.getD_some, Bool.and_eq_true] at hsends
    have hmove := turn_move hsound hturn
    obtain ⟨hkill', hgoes', hwritten'⟩ := ih (hsound.move hmove) hrest hsends.2
    have hkill₀ : w.session.controlKilled = false := by
      rw [Bool.eq_false_iff] at hkill' ⊢
      exact fun hkilled => hkill' (turn_killed hsound hturn hkilled)
    refine ⟨hkill₀, fun hgoes => hgoes' (turn_goes hsound hturn hkill₀ hsends.1 hgoes), ?_⟩
    have hhost : w'.session.host = w.session.host := hmove.same.1
    intro x hx
    rw [History.written_append, List.mem_append] at hx
    rcases hx with hx | hx
    · exact turn_written hturn hkill₀ hsends.1 x hx
    · exact hhost ▸ hwritten' x hx

/-- Control that has not ended waits for a message, or has not started, if it can do nothing. -/
lemma AtRest.quiet (hrest : w.AtRest) (hgoes : w.session.control ≠ .ended) : w.traffic.Quiet where
  control := by
    have hstuck : ¬ ∃ w', w.step? .control = some w' := by simp [hrest.control]
    cases hc : w.session.control with
    | receiving => exact .inl hc
    | absent => exact .inr hc
    | ended => exact absurd hc hgoes
    | _ =>
      refine absurd (control_goes ⟨?_, hgoes⟩ ?_) hstuck
      · simp [hc]
      · simp [hc]
  mail := hrest.mail
  evaluators := hrest.evaluators

end sending

/-- Once nothing is left to do, if nobody was killed and control has sent whole all that it wrote:
every request for the REPL and every request for any thread has got exactly one return with its id,
in the order of the requests of each evaluator; no other has. Control still waits for messages, or
has not started; all returns are written as whole frames; and neither the REPL nor a worker that was
handed no more than its one request is active. -/
theorem returns_perm_served {image : Image} {id : Nat} {host : Host} {wantsOutput : Bool}
    {outputPort : Option UInt16} {connection : Connection} {turns : List Turn} {h : History}
    {last : World} (hfresh : image.mailboxes.Fresh)
    (hrun : (opened image id host wantsOutput outputPort connection).play? turns = some (h, last))
    (hrest : last.AtRest)
    (hkill : last.session.controlKilled = false ∧
      ∀ e ∈ last.session.evaluators, e.killed = false)
    (hsends : (opened image id host wantsOutput outputPort connection).sendsAll turns = true) :
    (last.session.control = .receiving ∨ last.session.control = .absent) ∧
    (∀ a, (h.resultsOf a).map Prod.snd = last.traffic.idsFor h a) ∧
    h.returns = h.results.map Prod.snd ∧
    (h.returns.map Prod.snd).Perm ((last.traffic.served h).map (·.2.2.id)) ∧
    (∀ x ∈ h.written, Frame.encode host.coding x.1.toSexp = .ok x.2) ∧
    last.session.connection.outbound = connection.outbound ++ h.written.flatMap Prod.snd ∧
    ∀ a, (a, true) ∉ last.traffic.roles ∨ (h.handedTo a).length ≤ 1 →
      a ∉ last.session.active.members := by
  obtain ⟨hblank, hmoves⟩ := opened_run hfresh hrun
  obtain ⟨-, hgoes, hwritten⟩ := play_goes hblank.toSound hrun hsends hkill.1
  have hstart : (opened image id host wantsOutput outputPort connection).session.control =
    .absent := rfl
  have hquiet := hrest.quiet (hgoes (by simp [hstart]))
  have hsound := hblank.toSound.run hmoves
  have hbooks := Books.run hblank hmoves
  have hids : ∀ a, (h.resultsOf a).map Prod.snd = last.traffic.idsFor h a :=
    hquiet.ids_eq hkill.2 hsound (.run hblank hmoves) hbooks (.run hblank hmoves)
  have hreturns := hquiet.returns_eq hbooks
  refine ⟨hquiet.control, hids, hreturns, ?_, hwritten, hmoves.outbound, fun a hserved ha => ?_⟩
  · rw [hreturns, List.map_map]
    exact Quiet.results_perm hids
  · obtain ⟨hworker, hmore⟩ := hquiet.worker_of_active (.run hblank hmoves hkill.2)
      (.run hblank hmoves) hbooks hids ha
    rcases hserved with hrepl | hone
    · exact hrepl hworker
    · exact absurd hmore (Nat.not_lt_of_le hone)

/-- A worker answers a request for any thread and gets another, by its number, before it ends. -/
def lateTurns : List Turn :=
  sampleStart ++ sampleMessage "(:emacs-rex (swank/x) nil t 1)" ++
    List.replicate 3 (.step .control) ++ List.replicate 2 (.step (.evaluator 4)) ++
    List.replicate 2 (.step (.job 0)) ++ List.replicate 3 (.step (.evaluator 4)) ++
    List.replicate 4 (.step .control) ++ sampleMessage "(:emacs-rex (swank/x) nil 4 2)" ++
    List.replicate 3 (.step .control) ++ List.replicate 2 (.step (.evaluator 4))

lemma lateTurns_shows : ∃ h last, sample.play? lateTurns = some (h, last) ∧
    last.AtRest ∧ (last.session.controlKilled = false ∧
      ∀ e ∈ last.session.evaluators, e.killed = false) ∧
    sample.sendsAll lateTurns = true ∧
    h.accepted = [(.any, 4, ⟨.list [.symbol "swank/x"], "user", 1⟩),
      (.id 4, 4, ⟨.list [.symbol "swank/x"], "user", 2⟩)] ∧ h.returns = [(.abort, 1)] ∧
    (3, true) ∉ last.traffic.roles := by
  have hall : (sample.play? lateTurns).any (fun p => p.2.session.control = .receiving ∧
      p.2.controlQueue = [] ∧ (∀ e ∈ p.2.session.evaluators, e.phase = .ended ∨
        e.phase = .receiving ∧ p.2.image.mailboxes.queue e.id = []) ∧
      (p.2.session.controlKilled = false ∧ ∀ e ∈ p.2.session.evaluators, e.killed = false) ∧
      p.1.accepted = [(.any, 4, ⟨.list [.symbol "swank/x"], "user", 1⟩),
        (.id 4, 4, ⟨.list [.symbol "swank/x"], "user", 2⟩)] ∧
      p.1.returns = [(.abort, 1)] ∧
      (3, true) ∉ p.2.session.evaluators.map fun e => (e.id, e.worker)) = true := by
    decide +kernel
  obtain ⟨⟨h, last⟩, hrun, hshows⟩ := (Option.any_eq_true _ _).1 hall
  obtain ⟨hcontrol, hmail, hphases, hkill, hrest⟩ := of_decide_eq_true hshows
  have hstuck : last.step? .control = none := by
    have hnone : last.receive? last.session.controlId = none := by
      simp only [receive?, Option.map_eq_none_iff, Mailboxes.receive?_eq_none_iff]
      exact hmail
    have hwaiting : last.session.control = .receiving := hcontrol
    simp [step?, controlStep?, hwaiting, hnone]
  exact ⟨h, last, hrun, ⟨hstuck, hmail, hphases⟩, hkill, by decide +kernel, hrest⟩

theorem returns_perm_served_late : ∃ h last, sample.play? lateTurns = some (h, last) ∧
    last.AtRest ∧ (last.session.controlKilled = false ∧
      ∀ e ∈ last.session.evaluators, e.killed = false) ∧
    sample.sendsAll lateTurns = true ∧
    h.returns = [(.abort, 1)] ∧
    (h.returns.map Prod.snd).Perm ((last.traffic.served h).map (·.2.2.id)) ∧
    last.session.connection.outbound = h.written.flatMap Prod.snd ∧
    3 ∉ last.session.active.members := by
  obtain ⟨h, last, hrun, hrest, hkill, hsends, -, hreturns, hrepl⟩ := lateTurns_shows
  have hfresh : Mailboxes.Fresh {} := fun _ _ => rfl
  obtain ⟨-, -, -, hperm, -, houtbound, hactive⟩ :=
    returns_perm_served hfresh hrun hrest hkill hsends
  exact ⟨h, last, hrun, hrest, hkill, hsends, hreturns, hperm, houtbound, hactive 3 (.inl hrepl)⟩

/-- A request that was accepted for a worker need not be answered. -/
theorem accepted_unanswered : ∃ h last, sample.play? lateTurns = some (h, last) ∧
    last.AtRest ∧ (last.session.controlKilled = false ∧
      ∀ e ∈ last.session.evaluators, e.killed = false) ∧
    sample.sendsAll lateTurns = true ∧
    ∃ thread target work, (thread, target, work) ∈ h.accepted ∧
      work.id ∉ h.returns.map Prod.snd := by
  obtain ⟨h, last, hrun, hrest, hkill, hsends, haccepted, hreturns, -⟩ := lateTurns_shows
  refine ⟨h, last, hrun, hrest, hkill, hsends, .id 4, 4,
    ⟨.list [.symbol "swank/x"], "user", 2⟩, ?_, ?_⟩
  · simp [haccepted]
  · simp [hreturns]

end World

end EvalServer
