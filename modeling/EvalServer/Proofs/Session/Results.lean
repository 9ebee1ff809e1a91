import EvalServer.Proofs.Session.Ledger

/-!
# Results on their way

Control takes from its mailbox what was put into it, in the same order. A result names the
evaluator that sent it, and control writes one return for each result and for nothing else.
-/

namespace EvalServer

namespace History

section sent

variable (s : Option ActorId) (messages : List Message)

@[simp] lemma sent_map_sent :
    History.sent (messages.map (.sent s)) = messages.map fun m => (s, m) := by
  simp [sent, List.filterMap_map]

@[simp] lemma taken_map_sent : taken (messages.map (.sent s)) = [] := by
  simp [taken, List.filterMap_map]

@[simp] lemma accepted_map_sent : accepted (messages.map (.sent s)) = [] := by
  simp [accepted, List.filterMap_map]

@[simp] lemma handed_map_sent : handed (messages.map (.sent s)) = [] := by
  simp [handed, List.filterMap_map]

@[simp] lemma written_map_sent : written (messages.map (.sent s)) = [] := by
  simp [written, List.filterMap_map]

end sent

end History

namespace Traffic

variable {o o' : Traffic} {h h' : History}

/-- The request that control is about to send to its evaluator. -/
def underway (o : Traffic) : List (ActorId × Work) :=
  match o.control with
  | .entering target work | .handing target work => [(target, work)]
  | _ => []

/-- What is put into control's mailbox stays behind what is there, and control takes the first. -/
lemma Move.mail (hsound : o.Sound) (hmove : Move o h' o') :
    o.controlQueue ++ h'.sent.map Prod.snd = h'.taken ++ o'.controlQueue := by
  have took : ∀ {m : Message} {rest : List Message}, o.controlQueue = m :: rest →
      o.controlQueue ++ [] = [m] ++ (o.setQueue o.controlId rest).controlQueue := by
    intro m rest hqueue
    rw [List.append_nil, controlQueue_setQueue]
    exact hqueue
  have told : ∀ (s : Option ActorId) (messages : List Message),
      o.controlQueue ++ (History.sent (messages.map (.sent s))).map Prod.snd =
        [] ++ (o.tell messages).controlQueue := by
    intro s messages
    rw [controlQueue_tell, History.sent_map_sent, List.map_map, List.nil_append]
    exact congrArg (o.controlQueue ++ ·) (List.map_id messages)
  have elsewhere : ∀ {a : ActorId} (queue : List Message), a ≠ o.controlId →
      o.controlQueue ++ [] = (o.setQueue a queue).controlQueue := by
    intro a queue ha
    rw [List.append_nil, controlQueue_setQueue_of_ne _ _ _ ha]
  cases hmove with
  | still | start | clear | flag | enter | raise | turnBack | write | stop | begin | judge | hint
    | finish | leave | die => exact List.append_nil _
  | readerMail queue => exact elsewhere queue (Nat.ne_of_lt hsound.reader_lt)
  | host b hhost => exact (List.append_nil _).trans hhost.controlQueue_eq.symm
  | @tell m => exact told none [m]
  | pass _ hqueue => exact took hqueue
  | accept _ _ hqueue hres =>
    refine (took hqueue).trans ?_
    rw [← hres.controlQueue_eq]
    rfl
  | aim _ hqueue => exact took hqueue
  | conclude _ hqueue => exact took hqueue
  | pick _ _ hqueue => exact took hqueue
  | @hand target work hc =>
    have hlt := hsound.control_lt target (hsound.target target work (.inr hc))
    exact elsewhere _ (Nat.ne_of_gt hlt)
  | @take e _ rest he =>
    exact elsewhere rest (Nat.ne_of_gt (hsound.control_lt e.id (List.mem_map_of_mem he)))
  | @announce e work _ ns =>
    rw [History.taken_map_sent]
    exact told (some e.id) (Evaluation.announcement work ns)
  | @post e m => exact told (some e.id) [m]
  | @compute _ job _ messages =>
    rw [History.taken_map_sent]
    exact told (some job.actor) messages

lemma Move.outside (hmove : Move o h' o') : ∀ m, (none, m) ∈ h'.sent → m.IsPlain := by
  intro m hm
  cases hmove with
  | tell hkind =>
    simp only [History.sent, List.filterMap, List.mem_singleton, Prod.mk.injEq, true_and] at hm
    subst hm
    rcases hkind with ⟨event, rfl⟩ | ⟨port, rfl⟩
    · exact ⟨rfl, by simp⟩
    · exact ⟨rfl, by simp⟩
  | announce | compute => simp at hm
  | _ => simp [History.sent] at hm

/-- Every request that control accepts is sent to the evaluator that was found for it. -/
lemma Move.handed (hsound : o.Sound) (hmove : Move o h' o') :
    o.underway ++ h'.accepted.map Prod.snd = h'.handed ++ o'.underway := by
  cases hmove with
  | still | clear | flag | readerMail | tell | take | begin | judge | hint | post | finish | leave
    | die => exact List.append_nil _
  | announce | compute =>
    rw [History.accepted_map_sent, History.handed_map_sent]
    exact List.append_nil _
  | start hs => simp [underway, goControl, hsound.absent hs, History.accepted, History.handed]
  | host b hhost => simp [underway, hhost.control_eq, History.accepted, History.handed]
  | pass hc => simp [underway, hc, History.accepted, History.handed]
  | accept work hc _ hres => simp [underway, goControl, hc, History.accepted, History.handed]
  | aim hc | conclude hc | enter hc | hand hc | raise hc =>
    simp [underway, goControl, hc, History.accepted, History.handed]
  | pick _ hc => simp [underway, goControl, hc, History.accepted, History.handed]
  | turnBack hc =>
    rcases hc with hc | hc <;> simp [underway, goControl, hc, History.accepted, History.handed]
  | write _ next hc hnext =>
    rcases hnext with rfl | rfl <;>
      simp [underway, goControl, hc, History.accepted, History.handed]
  | stop hc =>
    rcases hc with hc | ⟨event, hc⟩ <;>
      simp [underway, goControl, hc, History.accepted, History.handed]

lemma Move.outbound (hmove : Move o h' o') :
    o'.outbound = o.outbound ++ h'.written.flatMap Prod.snd := by
  cases hmove with
  | host b hhost => simpa [History.written] using hhost.outbound_eq
  | accept _ _ _ hres => exact hres.outbound_eq.trans (List.append_nil _).symm
  | write bytes => simp [goControl, History.written]
  | announce | compute =>
    rw [History.written_map_sent]
    exact (List.append_nil _).symm
  | _ => exact (List.append_nil _).symm

/-- The returns written are for the results taken. The return for the last may still have to be
written; it is not if control ends before. -/
def Returned (o : Traffic) (h : History) : Prop :=
  match o.control with
  | .ended => h.returns <+: h.results.map Prod.snd
  | .writing (.return status id) => h.results.map Prod.snd = h.returns ++ [(status, id)]
  | _ => h.results.map Prod.snd = h.returns

namespace Returned

lemma isPrefix (hret : o.Returned h) : h.returns <+: h.results.map Prod.snd := by
  unfold Returned at hret
  split at hret
  · exact hret
  · exact hret ▸ List.prefix_append _ _
  · exact hret ▸ List.prefix_refl _

lemma congr (hret : o.Returned h) (hc : o'.control = o.control) (hresults : h'.results = [])
    (hreturns : h'.returns = []) : o'.Returned (h ++ h') := by
  unfold Returned
  rw [hc, History.results_append, History.returns_append, hresults, hreturns, List.append_nil,
    List.append_nil]
  exact hret

lemma turn {c : ControlPhase} (hret : o.Returned h) (hc : o.control = c)
    (hcalm : c ≠ .ended ∧ ∀ status id, c ≠ .writing (.return status id))
    (hcalm' : ∀ status id, o'.control ≠ .writing (.return status id))
    (hresults : h'.results = []) (hreturns : h'.returns = []) : o'.Returned (h ++ h') := by
  have heq : h.results.map Prod.snd = h.returns := by
    unfold Returned at hret
    rw [hc] at hret
    split at hret
    · exact absurd rfl hcalm.1
    · exact absurd rfl (hcalm.2 _ _)
    · exact hret
  unfold Returned
  rw [History.results_append, History.returns_append, hresults, hreturns, List.append_nil,
    List.append_nil]
  split
  · exact heq ▸ List.prefix_refl _
  · next hc' => exact absurd hc' (hcalm' _ _)
  · exact heq

lemma step (hret : o.Returned h) (hsound : o.Sound)
    (hqueue : ∀ status id, .emit (.return status id) ∉ o.controlQueue) (hmove : Move o h' o') :
    o'.Returned (h ++ h') := by
  have nothing : ∀ {m : Message}, m.result? = none → History.results [.taken m] = [] := by
    intro m hm
    simp [History.results, History.taken, hm]
  cases hmove with
  | still | clear | flag | readerMail | tell | take | begin | judge | hint | post | finish | leave
    | die => exact hret.congr rfl rfl rfl
  | announce | compute => exact hret.congr rfl (by simp [History.results]) (by simp [History.returns])
  | start hs => exact hret.turn (hsound.absent hs) (by simp) (by simp [goControl]) rfl rfl
  | host b hhost => exact hret.congr hhost.control_eq rfl rfl
  | pass _ _ hm => exact hret.congr rfl (nothing hm) rfl
  | accept _ hc => exact hret.turn hc (by simp) (by simp [goControl]) rfl rfl
  | aim hc _ hm => exact hret.turn hc (by simp) (by simp [goControl]) (nothing hm) rfl
  | enter hc | hand hc | raise hc =>
    exact hret.turn hc (by simp) (by simp [goControl]) rfl rfl
  | turnBack hc =>
    rcases hc with hc | hc
    · exact hret.turn hc (by simp) (by simp [goControl]) rfl rfl
    · exact hret.turn hc (by simp) (by simp [goControl]) rfl rfl
  | @conclude actor status id rest hc hq =>
    simp only [Returned, hc] at hret
    change (h ++ [Event.taken (.result actor status id)]).results.map Prod.snd = _
    rw [History.results_append, History.returns_append, List.map_append, hret,
      show History.returns [Event.taken (.result actor status id)] = [] from rfl, List.append_nil]
    rfl
  | @pick m rest event hc hq hm hevent =>
    refine hret.turn hc (by simp) ?_ (nothing hm) rfl
    intro status id heq
    obtain rfl : event = .return status id := ControlPhase.writing.inj heq
    refine hqueue status id ?_
    rw [controlQueue, hq, hevent rfl]
    exact List.mem_cons_self
  | @write event bytes next hc hnext =>
    have hwritten : (h ++ [Event.written event bytes]).results.map Prod.snd =
        (h ++ [Event.written event bytes]).returns := by
      rw [History.results_append, History.returns_append, List.map_append]
      cases event with
      | «return» status id =>
        simp only [Returned, hc] at hret
        rw [hret]
        exact List.append_nil _
      | _ =>
        simp only [Returned, hc] at hret
        rw [hret]
        rfl
    rcases hnext with rfl | rfl
    · exact hwritten
    · exact ⟨[], (List.append_nil _).trans hwritten.symm⟩
  | stop hc =>
    rcases hc with hc | ⟨event, hc⟩
    · exact hret.turn hc (by simp) (by simp [goControl]) rfl rfl
    · rw [List.append_nil]
      exact hret.isPrefix

end Returned

/-- What control has seen and done, besides the desks. -/
structure Books (o : Traffic) (h : History) : Prop where
  mail : h.sent.map Prod.snd = h.taken ++ o.controlQueue
  outside : ∀ m, (none, m) ∈ h.sent → m.IsPlain
  handed : h.accepted.map Prod.snd = h.handed ++ o.underway
  returned : o.Returned h

lemma Ledger.mem_block (hledger : o.Ledger h) {a : ActorId} {m : Message}
    (hm : (some a, m) ∈ h.sent) :
    ∃ v : Evaluation, v.Genuine o.host o.wantsOutput a ∧ m ∈ v.block a := by
  obtain ⟨vs, -, hgenuine, hsent, -⟩ := hledger.exists_evaluations a
  have hmem : m ∈ h.sentBy a := List.mem_filterMap.2 ⟨(some a, m), hm, if_pos rfl⟩
  obtain ⟨v, hv, hmv⟩ := List.mem_flatMap.1 (hsent.subset hmem)
  exact ⟨v, hgenuine v hv, hmv⟩

namespace Books

lemma return_notMem_sent (hbooks : o.Books h) (hledger : o.Ledger h) {p : Option ActorId × Message}
    (hp : p ∈ h.sent) (status : Status) (id : Int64) : p.2 ≠ .emit (.return status id) := by
  intro heq
  obtain ⟨_ | a, m⟩ := p
  · exact (hbooks.outside m hp).2 status id heq
  · obtain ⟨v, hv, hm⟩ := hledger.mem_block hp
    exact hv.return_notMem status id (heq ▸ hm)

lemma sender_of_result (hbooks : o.Books h) (hledger : o.Ledger h) {p : Option ActorId × Message}
    (hp : p ∈ h.sent) {r : ActorId × Status × Int64} (hr : p.2.result? = some r) :
    p.1 = some r.1 := by
  obtain ⟨_ | a, m⟩ := p
  · have hnone := (hbooks.outside m hp).1
    rw [hr] at hnone
    cases hnone
  · obtain ⟨v, hv, hm⟩ := hledger.mem_block hp
    have hmem : r ∈ (v.block a).filterMap Message.result? := List.mem_filterMap.2 ⟨m, hm, hr⟩
    rw [hv.results, List.mem_singleton] at hmem
    rw [hmem]

/-- The results of an actor among all messages are those among its own messages. -/
lemma results_of_sender {a : ActorId} {l : List (Option ActorId × Message)}
    (hl : ∀ p ∈ l, ∀ r, p.2.result? = some r → p.1 = some r.1) :
    ((l.map Prod.snd).filterMap Message.result?).filterMap
        (fun r => if r.1 = a then some r.2 else none) =
      ((l.filterMap fun p => if p.1 = some a then some p.2 else none).filterMap
        Message.result?).map Prod.snd := by
  induction l with
  | nil => rfl
  | cons p rest ih =>
    obtain ⟨s, m⟩ := p
    have ih := ih fun p hp => hl p (List.mem_cons_of_mem _ hp)
    cases hr : m.result? with
    | none => by_cases hs : s = some a <;> simpa [hr, hs] using ih
    | some r =>
      have hs : s = some r.1 := hl (s, m) List.mem_cons_self r hr
      subst hs
      by_cases ha : r.1 = a
      · simpa [hr, ha] using ih
      · simpa [hr, ha] using ih

lemma resultsOf_isPrefix (hbooks : o.Books h) (hledger : o.Ledger h) (a : ActorId) :
    h.resultsOf a <+: ((h.sentBy a).filterMap Message.result?).map Prod.snd := by
  have hall := results_of_sender (a := a) fun p hp r hr => hbooks.sender_of_result hledger hp hr
  rw [hbooks.mail, List.filterMap_append, List.filterMap_append] at hall
  exact ⟨_, hall⟩

lemma resultsOf_eq (hbooks : o.Books h) (hledger : o.Ledger h) (hqueue : o.controlQueue = [])
    (a : ActorId) : h.resultsOf a = ((h.sentBy a).filterMap Message.result?).map Prod.snd := by
  have hall := results_of_sender (a := a) fun p hp r hr => hbooks.sender_of_result hledger hp hr
  rwa [hbooks.mail, hqueue, List.append_nil] at hall

lemma step (hbooks : o.Books h) (hledger : o.Ledger h) (hsound : o.Sound)
    (hmove : Move o h' o') : o'.Books (h ++ h') where
  mail := by
    rw [History.sent_append, History.taken_append, List.map_append, hbooks.mail,
      List.append_assoc, hmove.mail hsound, List.append_assoc]
  outside := by
    intro m hm
    rw [History.sent_append, List.mem_append] at hm
    exact hm.elim (hbooks.outside m) (hmove.outside m)
  handed := by
    rw [History.accepted_append, History.handed_append, List.map_append, hbooks.handed,
      List.append_assoc, hmove.handed hsound, List.append_assoc]
  returned := by
    refine hbooks.returned.step hsound ?_ hmove
    intro status id hmem
    have hsent : .emit (.return status id) ∈ h.sent.map Prod.snd := by
      rw [hbooks.mail]
      exact List.mem_append_right _ hmem
    obtain ⟨p, hp, heq⟩ := List.mem_map.1 hsent
    exact hbooks.return_notMem_sent hledger hp status id heq

theorem run {o₀ : Traffic} (hblank : o₀.Blank) (hrun : Run o₀ h o) : o.Books h := by
  induction hrun with
  | start =>
    refine ⟨hblank.queue_eq.symm, by simp [History.sent], ?_, ?_⟩
    · rw [underway, hblank.control_eq]
      rfl
    · unfold Returned
      rw [hblank.control_eq]
      rfl
  | next hrun hmove ih =>
    exact ih.step (.run hblank hrun) (hblank.toSound.run hrun) hmove

end Books

lemma results_of_blocks {host : Host} {streams : Bool} {a : ActorId} {vs : List Evaluation}
    (hvs : ∀ v ∈ vs, v.Genuine host streams a) :
    ((vs.flatMap (·.block a)).filterMap Message.result?).map Prod.snd =
      vs.map fun v => (v.status, v.work.id) := by
  induction vs with
  | nil => rfl
  | cons v rest ih =>
    obtain ⟨hv, hrest⟩ := List.forall_mem_cons.1 hvs
    rw [List.flatMap_cons, List.filterMap_append, List.map_append, hv.results, ih hrest]
    rfl

/-- Control takes the results of an evaluator in the order of its requests. -/
lemma Books.ids_isPrefix (hbooks : o.Books h) (hledger : o.Ledger h) (a : ActorId) :
    (h.resultsOf a).map Prod.snd <+: (h.handedTo a).map Work.id := by
  obtain ⟨vs, hworks, hgenuine, hsent, -⟩ := hledger.exists_evaluations a
  have hprefix := (hbooks.resultsOf_isPrefix hledger a).trans ((hsent.filterMap _).map _)
  rw [results_of_blocks hgenuine] at hprefix
  have hids := hprefix.map Prod.snd
  rw [List.map_map] at hids
  rw [← hworks, List.map_map]
  exact hids

end Traffic

end EvalServer
