import EvalServer.Proofs.Session.Traffic

/-!
# Turns are moves

Every turn of a session moves its traffic, and shows what the move shows. Each function that takes
a step has one lemma here that says which move it makes.
-/

namespace EvalServer

open Traffic

namespace Mailboxes

variable (m : Mailboxes) (a : ActorId)

@[simp] lemma lastActor_setQueue (queue : List Message) :
    (m.setQueue a queue).lastActor = m.lastActor := by
  unfold setQueue locate
  cases m.boxes.findIdx? (·.owner == a) <;> rfl

lemma setQueue_eq_update (queue : List Message) :
    (m.setQueue a queue).queue = Function.update m.queue a queue := by
  funext b
  rw [queue_setQueue, Function.update_apply]

end Mailboxes

namespace World

section mail

variable (s : Option ActorId) (queue : List Message)

lemma mailEvents_self : mailEvents s queue queue = [] := by
  simp [mailEvents]

lemma mailEvents_append (messages : List Message) :
    mailEvents s queue (queue ++ messages) = messages.map (.sent s) := by
  simp [mailEvents]

lemma mailEvents_cons (m : Message) : mailEvents s (m :: queue) queue = [.taken m] := by
  simp [mailEvents]

end mail

lemma traffic_send (w : World) (a : ActorId) (m : Message) :
    (w.send a m).traffic = w.traffic.setQueue a (w.traffic.queue a ++ [m]) := by
  simp only [traffic, send, Mailboxes.send, Mailboxes.setQueue_eq_update,
    Mailboxes.lastActor_setQueue]
  rfl

lemma traffic_tell (w : World) (m : Message) : (w.tell m).traffic = w.traffic.tell [m] :=
  w.traffic_send _ m

lemma receive?_spec {w w' : World} {a : ActorId} {m : Message}
    (h : w.receive? a = some (m, w')) : ∃ rest, w.traffic.queue a = m :: rest ∧
      w'.traffic = w.traffic.setQueue a rest ∧ w'.session = w.session := by
  simp only [receive?, Option.map_eq_some_iff, Prod.exists, Prod.mk.injEq] at h
  obtain ⟨_, mailboxes, hreceive, rfl, rfl⟩ := h
  obtain ⟨rest, hqueue, rfl⟩ := Mailboxes.receive?_eq_some_iff.1 hreceive
  refine ⟨rest, hqueue, ?_, rfl⟩
  simp only [traffic, Mailboxes.setQueue_eq_update, Mailboxes.lastActor_setQueue,
    Traffic.setQueue]

/-- What a step does to control's mailbox can be read off the traffic after it. -/
lemma move_and {w w' : World} {s : Option ActorId} {o : Traffic} {h shown more : History}
    (ho : w'.traffic = o) (hmove : Move w.traffic (h ++ more) o)
    (hmail : mailEvents s w.controlQueue o.controlQueue = h) (hshown : shown = more) :
    Move w.traffic (mailEvents s w.controlQueue w'.controlQueue ++ shown) w'.traffic := by
  subst ho hmail hshown
  exact hmove

lemma move_of {w w' : World} {s : Option ActorId} {o : Traffic} {h : History}
    (ho : w'.traffic = o) (hmove : Move w.traffic h o)
    (hmail : mailEvents s w.controlQueue o.controlQueue = h) :
    Move w.traffic (mailEvents s w.controlQueue w'.controlQueue) w'.traffic := by
  subst ho hmail
  exact hmove

lemma mail_tell (w : World) (s : Option ActorId) (messages : List Message) :
    mailEvents s w.controlQueue (w.traffic.tell messages).controlQueue =
      messages.map (.sent s) := by
  rw [controlQueue_tell]
  exact mailEvents_append s _ messages

lemma mail_other {w : World} (s : Option ActorId) {a : ActorId} (queue : List Message)
    (h : a ≠ w.traffic.controlId) :
    mailEvents s w.controlQueue (w.traffic.setQueue a queue).controlQueue = [] := by
  rw [controlQueue_setQueue_of_ne _ _ _ h]
  exact mailEvents_self s _

lemma still_of {w w' : World} {s : Option ActorId} (b : Prop)
    (ho : w'.traffic = { w.traffic with streams := b })
    (hb : b → w.traffic.streams ∨ w.traffic.wantsOutput) :
    Move w.traffic (mailEvents s w.controlQueue w'.controlQueue) w'.traffic :=
  move_of ho (.still b hb) (mailEvents_self s _)

lemma still_of_eq {w w' : World} {s : Option ActorId} (ho : w'.traffic = w.traffic) :
    Move w.traffic (mailEvents s w.controlQueue w'.controlQueue) w'.traffic :=
  still_of w.traffic.streams ho .inl

section evaluators

variable {w w' : World} {id : ActorId} {e : Evaluator}

lemma mem_of_evaluator? (h : w.session.evaluator? id = some e) :
    e ∈ w.traffic.evaluators ∧ e.id = id :=
  ⟨List.mem_of_find?_eq_some h, by simpa using List.find?_some h⟩

lemma mem_ids_of_isAlive (h : w.session.isAlive id = true) : id ∈ w.traffic.ids := by
  rw [Session.isAlive, Option.any_eq_true] at h
  obtain ⟨e, he, -⟩ := h
  obtain ⟨hmem, rfl⟩ := mem_of_evaluator? he
  exact List.mem_map_of_mem hmem

/-- Every evaluator is found by its number. -/
lemma evaluator?_of_mem (hsound : w.traffic.Sound) (he : e ∈ w.traffic.evaluators) :
    w.session.evaluator? e.id = some e := by
  obtain ⟨e', he'⟩ : ∃ e', w.session.evaluator? e.id = some e' := by
    rw [← Option.isSome_iff_exists, Session.evaluator?, List.find?_isSome]
    exact ⟨e, he, by simp⟩
  obtain ⟨hmem, hid⟩ := mem_of_evaluator? he'
  rw [he', hsound.eq_of_id hmem he hid]

/-- An evaluator of which no living one has the number has ended. -/
lemma ended_of_not_isAlive (hsound : w.traffic.Sound) (h : ¬ w.session.isAlive id = true) :
    ∀ e ∈ w.traffic.evaluators, e.id = id → e.phase = .ended := by
  rintro e he rfl
  rw [Session.isAlive, evaluator?_of_mem hsound he, Option.any_some] at h
  simpa [Evaluator.isAlive] using h

lemma ensureRepl_hosts (hsound : w.traffic.Sound) :
    Hosts w.traffic w.ensureRepl.1 w.ensureRepl.2.traffic := by
  unfold ensureRepl
  cases hrepl : w.session.table.repl with
  | none => exact .first Session.replName w.session.closed
  | some id =>
    by_cases halive : w.session.isAlive id = true
    · simp only [halive, if_true]
      exact .live (mem_ids_of_isAlive halive) hrepl
    · simp only [halive]
      exact .again Session.replName w.session.closed hrepl (ended_of_not_isAlive hsound halive)

lemma mem_ids_of_findActor {thread : Thread} (h : w.session.findActor thread = some id) :
    id ∈ w.traffic.ids := by
  simp only [Session.findActor, Option.map_eq_some_iff, Option.filter_eq_some_iff] at h
  obtain ⟨e, ⟨hfind, -⟩, rfl⟩ := h
  obtain ⟨a, -, ha⟩ := List.mem_filterMap.1 (List.mem_of_find?_eq_some hfind)
  exact List.mem_map_of_mem (mem_of_evaluator? ha).1

lemma resolve_resolves (hsound : w.traffic.Sound) {thread : Thread}
    (h : w.resolve thread = (some id, w')) : Resolves w.traffic thread id w'.traffic := by
  cases thread with
  | any =>
    simp only [resolve, Prod.mk.injEq, Option.some.injEq] at h
    obtain ⟨rfl, rfl⟩ := h
    exact .any (Session.workerName (w.image.mailboxes.lastActor + 1)) w.session.closed
  | repl =>
    simp only [resolve, Prod.mk.injEq, Option.some.injEq] at h
    obtain ⟨rfl, rfl⟩ := h
    exact .repl (ensureRepl_hosts hsound)
  | id n =>
    simp only [resolve, Prod.mk.injEq] at h
    obtain ⟨hfind, rfl⟩ := h
    exact .other (by simp) (mem_ids_of_findActor hfind)
  | name name =>
    simp only [resolve, Prod.mk.injEq] at h
    obtain ⟨hfind, rfl⟩ := h
    exact .other (by simp) (mem_ids_of_findActor hfind)

lemma resolve_none {thread : Thread} (h : w.resolve thread = (none, w')) : w' = w := by
  cases thread with
  | any | repl => simp [resolve] at h
  | id | name =>
    simp only [resolve, Prod.mk.injEq] at h
    exact h.2.symm

end evaluators

section service

variable {w w' : World} {s : Option ActorId}

lemma kill_move (handle : Handle) : Move w.traffic
    (mailEvents s w.controlQueue (w.change (·.kill handle)).controlQueue)
    (w.change (·.kill handle)).traffic := by
  cases handle with
  | reader => exact still_of_eq rfl
  | control => exact still_of_eq rfl
  | output => exact still_of_eq rfl
  | evaluator id =>
    exact move_of rfl (.flag id _ fun e => ⟨rfl, rfl, rfl, fun _ => rfl, fun _ => rfl⟩)
      (mailEvents_self s _)

lemma closeStep?_spec {phase phase' : ClosePhase} (h : w.closeStep? phase = some (w', phase')) :
    Move w.traffic (mailEvents s w.controlQueue w'.controlQueue) w'.traffic ∧
      w'.session.service = w.session.service := by
  cases phase with
  | marking =>
    simp only [closeStep?] at h
    split at h
    · cases h
      exact ⟨still_of_eq rfl, rfl⟩
    · cases h
      exact ⟨still_of_eq rfl, rfl⟩
  | taking =>
    cases h
    exact ⟨move_of rfl .clear (mailEvents_self s _), rfl⟩
  | killing handles =>
    cases handles with
    | nil =>
      cases h
      exact ⟨still_of_eq rfl, rfl⟩
    | cons handle rest =>
      cases h
      exact ⟨kill_move handle, by cases handle <;> rfl⟩
  | aborting =>
    cases h
    exact ⟨still_of_eq rfl, rfl⟩
  | silencing =>
    cases h
    refine ⟨still_of _ rfl ?_, rfl⟩
    rintro (hb | hb | hb)
    · exact .inl (.inl hb)
    · exact .inl (.inr (.inl hb))
    · cases hb
  | ended => cases h

/-- Past its start the service only matters to the traffic while it opens a stream. -/
lemma traffic_goServe_streams (w : World) {service : ServePhase}
    (h : ∀ p ∈ [ServePhase.absent, .startingControl], w.session.service ≠ p ∧ service ≠ p) :
    (w.goServe service).traffic =
      { w.traffic with streams := (w.goServe service).traffic.streams } := by
  simp only [List.mem_cons, List.not_mem_nil, or_false, forall_eq_or_imp, forall_eq] at h
  obtain ⟨⟨h₁, h₁'⟩, h₂, h₂'⟩ := h
  simp [traffic, goServe, change, h₁, h₁', h₂, h₂']

lemma traffic_goServe (w : World) {service : ServePhase}
    (h : ∀ p ∈ [ServePhase.absent, .startingControl, .opening],
      w.session.service ≠ p ∧ service ≠ p) :
    (w.goServe service).traffic = w.traffic := by
  rw [traffic_goServe_streams w fun p hp => h p (by simp at hp ⊢; tauto)]
  have hopen := h .opening (by simp)
  simp [traffic, goServe, change, hopen.1, hopen.2]

lemma service_ensureRepl (w : World) : w.ensureRepl.2.session.service = w.session.service := by
  unfold ensureRepl
  split
  · rfl
  · split <;> rfl

lemma serve_move (hsound : w.traffic.Sound) (h : w.serveStep? = some w') :
    Move w.traffic (mailEvents none w.controlQueue w'.controlQueue) w'.traffic := by
  unfold serveStep? at h
  cases hservice : w.session.service with
  | absent | ended => simp [hservice] at h
  | startingControl =>
    simp only [hservice, Option.some.injEq] at h
    subst h
    refine move_of ?_ (.start (.inl hservice)) (mailEvents_self none _)
    simp [traffic, goServe, goControl, Traffic.goControl, change, hservice]
  | startingReader | recording =>
    simp only [hservice, Option.some.injEq] at h
    subst h
    refine still_of_eq ?_
    simp [traffic, goServe, goReader, change, hservice]
  | startingRepl =>
    simp only [hservice, Option.some.injEq] at h
    subst h
    have hhosts := ensureRepl_hosts hsound
    refine move_of (traffic_goServe_streams _ ?_) (.host _ hhosts ?_) ?_
    · rw [service_ensureRepl, hservice]
      by_cases hwants : w.session.wantsOutput <;> simp [hwants]
    · rintro (hopen | hout)
      · by_cases hwants : w.session.wantsOutput
        · exact .inr hwants
        · simp [goServe, change, hwants] at hopen
      · exact .inl (hhosts.streams_eq ▸ .inr hout)
    · change mailEvents none w.controlQueue w.ensureRepl.2.traffic.controlQueue = []
      rw [hhosts.controlQueue_eq]
      exact mailEvents_self none _
  | opening =>
    simp only [hservice] at h
    refine still_of w'.traffic.streams ?_ fun _ => .inl (.inl hservice)
    cases hport : w.session.outputPort with
    | some port =>
      simp only [hport, Option.some.injEq] at h
      subst h
      simp [traffic, changeOutput, goServe, change, hservice]
    | none =>
      simp only [hport, Option.some.injEq] at h
      subst h
      simp [traffic, goServe, change, hservice]
  | recordingOutput port =>
    simp only [hservice, Option.some.injEq] at h
    subst h
    refine still_of_eq ?_
    simp [traffic, goServe, change, hservice]
  | announcingOutput port =>
    simp only [hservice, Option.some.injEq] at h
    subst h
    refine move_of ?_ (.tell (.inr ⟨port, rfl⟩)) (w.mail_tell none _)
    rw [traffic_goServe _ (by simp [emit, tell, send, hservice])]
    exact w.traffic_tell _
  | starting =>
    simp only [hservice, Option.some.injEq] at h
    subst h
    refine move_of ?_ (.readerMail (w.traffic.queue w.traffic.readerId ++ [.start]))
      (mail_other none _ (Nat.ne_of_lt hsound.reader_lt))
    rw [traffic_goServe _ (by simp [send, hservice])]
    exact w.traffic_send _ _
  | serving =>
    simp only [hservice] at h
    split at h
    · cases h
      exact still_of_eq (traffic_goServe w (by simp [hservice]))
    · cases h
  | closing phase =>
    simp only [hservice] at h
    cases hclose : w.closeStep? phase with
    | none =>
      simp only [hclose, Option.some.injEq] at h
      subst h
      exact still_of_eq (traffic_goServe w (by simp [hservice]))
    | some next =>
      obtain ⟨w₁, phase'⟩ := next
      simp only [hclose, Option.some.injEq] at h
      subst h
      obtain ⟨hmove, hsame⟩ := closeStep?_spec (s := none) hclose
      have heq : (w₁.goServe (.closing phase')).traffic = w₁.traffic :=
        traffic_goServe w₁ (by simp [hsame, hservice])
      exact heq ▸ hmove

lemma closer_spec {index : Nat} (h : w.closerStep? index = some w') :
    ∃ phase phase' w₁, w.session.closers[index]? = some phase ∧
      w.closeStep? phase = some (w₁, phase') ∧
      w' = w₁.change fun s => { s with closers := s.closers.set index phase' } := by
  simp only [closerStep?, Option.bind_eq_bind, Option.bind_eq_some_iff, Option.pure_def,
    Option.some.injEq, Prod.exists] at h
  obtain ⟨phase, hphase, w₁, phase', hclose, rfl⟩ := h
  exact ⟨phase, phase', w₁, hphase, hclose, rfl⟩

lemma closer_move {index : Nat} (h : w.closerStep? index = some w') :
    Move w.traffic (mailEvents none w.controlQueue w'.controlQueue) w'.traffic := by
  obtain ⟨phase, phase', w₁, -, hclose, rfl⟩ := closer_spec h
  exact (closeStep?_spec hclose).1

end service

section streams

variable {w w' : World} {s : Option ActorId}

lemma receive_reader_move (hsound : w.traffic.Sound) {m : Message}
    (h : w.receive? w.session.readerId = some (m, w')) :
    Move w.traffic (mailEvents s w.controlQueue w'.controlQueue) w'.traffic := by
  obtain ⟨rest, -, htraffic, -⟩ := receive?_spec h
  exact move_of htraffic (.readerMail rest) (mail_other s rest (Nat.ne_of_lt hsound.reader_lt))

lemma reader_move (hsound : w.traffic.Sound) (h : w.readerStep? = some w') :
    Move w.traffic (mailEvents none w.controlQueue w'.controlQueue) w'.traffic := by
  unfold readerStep? at h
  cases hreader : w.session.reader with
  | absent | ended => simp [hreader] at h
  | waiting =>
    simp only [hreader, Option.bind_eq_bind, Option.bind_eq_some_iff, Option.pure_def,
      Option.some.injEq, Prod.exists] at h
    obtain ⟨m, w₁, hreceive, rfl⟩ := h
    have hmove := receive_reader_move (s := none) hsound hreceive
    split
    · exact hmove
    · exact hmove
  | reading =>
    simp only [hreader, readFrame?] at h
    cases hread : Frame.read w.session.host.coding w.session.connection.inbound with
    | mk result inbound =>
      rw [hread] at h
      cases result with
      | ok message =>
        cases h
        exact move_of (traffic_tell _ _) (.tell (.inl ⟨.ofSexp message, rfl⟩))
          (w.mail_tell none _)
      | error e =>
        simp only at h
        split at h
        · cases h
        · cases h
          exact still_of_eq rfl

/-- Once there is an output stream, nothing about it matters to the traffic. -/
lemma changeOutput_move (hpresent : w.session.output.phase ≠ .absent) (f : Output → Output) :
    Move w.traffic (mailEvents s w.controlQueue (w.changeOutput f).controlQueue)
      (w.changeOutput f).traffic :=
  still_of _ rfl fun _ => .inl (.inr (.inl hpresent))

lemma output_move (h : w.outputStep? = some w') :
    Move w.traffic (mailEvents s w.controlQueue w'.controlQueue) w'.traffic := by
  have hpresent : w.session.output.phase ≠ .absent := by
    intro habsent
    simp [outputStep?, habsent] at h
  have hsame : ∃ f, w' = w.changeOutput f := by
    unfold outputStep? at h
    repeat' split at h
    all_goals first
      | exact ⟨_, (Option.some.inj h).symm⟩
      | cases h
  obtain ⟨f, rfl⟩ := hsame
  exact changeOutput_move hpresent f

lemma connectOutput_move (h : w.connectOutput? = some w') :
    Move w.traffic (mailEvents s w.controlQueue w'.controlQueue) w'.traffic := by
  unfold connectOutput? at h
  split at h
  · next hphase =>
    cases h
    exact changeOutput_move (by simp [hphase]) _
  · cases h

lemma outputEnd_move (h : w.outputEnd? = some w') :
    Move w.traffic (mailEvents s w.controlQueue w'.controlQueue) w'.traffic := by
  unfold outputEnd? at h
  split at h
  · next hphase =>
    split at h
    · cases h
      exact changeOutput_move (by simp [hphase]) _
    · cases h
  · next hphase =>
    split at h
    · cases h
      exact changeOutput_move (by simp [hphase]) _
    · cases h
  · cases h

lemma readerEnd_move (h : w.readerEnd? = some w') :
    Move w.traffic (mailEvents s w.controlQueue w'.controlQueue) w'.traffic := by
  unfold readerEnd? at h
  split at h
  · split at h
    · cases h
      exact still_of_eq rfl
    · cases h
  · split at h
    · cases h
      exact still_of_eq rfl
    · cases h
  · cases h

end streams

section control

variable {w w' : World} {s : Option ActorId}

lemma controlEnd_spec (h : w.controlEnd? = some w') :
    (w.session.control = .receiving ∨ ∃ event, w.session.control = .writing event) ∧
      w.session.controlKilled = true ∧ w' = w.goControl .ended := by
  unfold controlEnd? at h
  split at h
  · next hc =>
    split at h
    · next hkilled =>
      cases h
      exact ⟨.inl hc, hkilled, rfl⟩
    · cases h
  · next event hc =>
    split at h
    · next hkilled =>
      cases h
      exact ⟨.inr ⟨event, hc⟩, hkilled, rfl⟩
    · cases h
  · cases h

lemma controlEnd_move (h : w.controlEnd? = some w') :
    Move w.traffic (mailEvents s w.controlQueue w'.controlQueue) w'.traffic := by
  obtain ⟨hc, -, rfl⟩ := controlEnd_spec h
  exact move_of rfl (.stop hc) (mailEvents_self s _)

lemma cutShort_spec {calls : Nat} (h : w.cutShort? calls = some w') :
    ∃ event outbound, w.session.control = .writing event ∧ w.session.controlKilled = true ∧
      outbound = w.session.connection.outbound ++
        Frame.sentIn w.session.host.coding calls w.session.connection.writer event.toSexp ∧
      w' = (w.change fun s =>
        { s with connection := { s.connection with outbound } }).goControl .ended := by
  unfold cutShort? at h
  split at h
  · next event hc =>
    split at h
    · next hkilled =>
      cases h
      exact ⟨event, _, hc, hkilled, rfl, rfl⟩
    · cases h
  · cases h

lemma taken_move {m : Message} {rest : List Message} {o : Traffic} {more : History}
    (hqueue : w.traffic.controlQueue = m :: rest) (ho : w'.traffic = o)
    (hmove : Move w.traffic (.taken m :: more) o) (hrest : o.controlQueue = rest)
    (hevents : w.controlEvents w' = more) :
    Move w.traffic (mailEvents none w.controlQueue w'.controlQueue ++ w.controlEvents w')
      w'.traffic := by
  refine move_and ho (h := [.taken m]) hmove ?_ hevents
  rw [hrest, show w.controlQueue = m :: rest from hqueue]
  exact mailEvents_cons none rest m

lemma handle_move {m : Message} {w₁ : World} (hsound : w.traffic.Sound)
    (hc : w.session.control = .receiving)
    (hreceive : w.receive? w.session.controlId = some (m, w₁)) :
    Move w.traffic (mailEvents none w.controlQueue (w₁.handle m).controlQueue ++
      w.controlEvents (w₁.handle m)) (w₁.handle m).traffic := by
  obtain ⟨rest, hqueue, htraffic, hsession⟩ := receive?_spec hreceive
  have hrest : (w.traffic.setQueue w.traffic.controlId rest).controlQueue = rest :=
    controlQueue_setQueue _ _
  have hc₁ : w₁.session.control = .receiving := hsession ▸ hc
  -- The message changes nothing else.
  have pass : ∀ w₂ : World, w₂.traffic = w₁.traffic → m.result? = none →
      Move w.traffic (mailEvents none w.controlQueue w₂.controlQueue ++ w.controlEvents w₂)
        w₂.traffic := by
    intro w₂ hsame hm
    have hc₂ : w₂.session.control = .receiving := (congrArg Traffic.control hsame).trans hc₁
    exact taken_move hqueue (hsame.trans htraffic) (.pass hc hqueue hm) hrest
      (by simp [controlEvents, hc, hc₂])
  -- Control goes on with a phase of which nothing is seen yet.
  have turn : ∀ (w₂ : World) (c : ControlPhase), (∀ t work, c ≠ .entering t work) →
      Move w.traffic [.taken m] (w₂.traffic.goControl c) → w₂.traffic.controlQueue = rest →
      Move w.traffic (mailEvents none w.controlQueue (w₂.goControl c).controlQueue ++
        w.controlEvents (w₂.goControl c)) (w₂.goControl c).traffic := by
    intro w₂ c hne hmove hrest₂
    refine taken_move hqueue rfl hmove hrest₂ ?_
    simp only [controlEvents, hc, goControl, change]
    cases c with
    | entering t work => exact absurd rfl (hne t work)
    | _ => rfl
  cases m with
  | start => exact pass w₁ rfl rfl
  | evaluate work => exact pass w₁ rfl rfl
  | emit event =>
    exact turn w₁ _ (by simp) (htraffic ▸ .pick event hc hqueue rfl fun _ => rfl) (htraffic ▸ hrest)
  | debug actor kind details =>
    refine turn w₁ _ (by simp) (htraffic ▸ .pick _ hc hqueue rfl ?_) (htraffic ▸ hrest)
    simp [ServerEvent.isReturn]
  | result actor status id =>
    let w₂ := w₁.change fun s => { s with active := s.active.remove actor }
    have hactive : w₂.traffic =
        (w.traffic.setQueue w.traffic.controlId rest).setActive (w.traffic.active.remove actor) :=
      congrArg (fun o => o.setActive (o.active.remove actor)) htraffic
    exact turn w₂ _ (by simp) (hactive ▸ .conclude hc hqueue) (hactive ▸ hrest)
  | client event =>
    cases event with
    | evaluate form package thread id =>
      simp only [handle, handleClient]
      have hsound₁ : w₁.traffic.Sound := htraffic ▸ hsound.setControlQueue rest
      cases hresolve : w₁.resolve thread with
      | mk found w₂ =>
        cases found with
        | none => exact pass w₂ (resolve_none hresolve ▸ rfl) rfl
        | some target =>
          have hresolves := resolve_resolves hsound₁ hresolve
          rw [htraffic] at hresolves
          refine taken_move hqueue rfl (.accept ⟨form, package, id⟩ hc hqueue hresolves)
            (hresolves.controlQueue_eq.trans hrest) ?_
          have hqueue' : w.controlQueue = .client (.evaluate form package thread id) :: rest :=
            hqueue
          simp [controlEvents, hc, hqueue', goControl, change]
    | interrupt thread =>
      simp only [handle, handleClient]
      cases htarget : w₁.session.interruptTarget thread with
      | none => exact pass w₁ rfl rfl
      | some target =>
        exact turn w₁ _ (by simp) (htraffic ▸ .aim hc hqueue rfl) (htraffic ▸ hrest)
    | returnString _ tag text => exact pass _ rfl rfl
    | returnValue _ tag value => exact pass _ rfl rfl
    | unknown _ => exact pass _ rfl rfl

lemma shown_move {o : Traffic} {more : History} (ho : w'.traffic = o)
    (hmove : Move w.traffic more o) (hsame : o.controlQueue = w.traffic.controlQueue)
    (hevents : w.controlEvents w' = more) :
    Move w.traffic (mailEvents none w.controlQueue w'.controlQueue ++ w.controlEvents w')
      w'.traffic := by
  refine move_and ho (h := []) hmove ?_ hevents
  rw [hsame]
  exact mailEvents_self none _

/-- Writing adds the frame of the event, or the part of it that the connection's writer took before
it failed; then control ends. -/
lemma write_spec (w : World) (event : ServerEvent) : ∃ bytes next,
    (next = .receiving ∧ bytes = event.frame w.session.host.coding ∧
        (∀ frame, Frame.encode w.session.host.coding event.toSexp = .ok frame →
          (w.session.connection.writer.transmit frame).failure = none) ∨
      next = .ended ∧ ∃ frame, Frame.encode w.session.host.coding event.toSexp = .ok frame ∧
        (w.session.connection.writer.transmit frame).taken = bytes ∧
        (w.session.connection.writer.transmit frame).failure.isSome) ∧
    (w.write event).traffic =
      ({ w.traffic with outbound := w.traffic.outbound ++ bytes }.goControl next) ∧
    (w.write event).session.connection.outbound.drop w.session.connection.outbound.length =
      bytes := by
  unfold write Frame.send ServerEvent.frame
  cases hencode : Frame.encode w.session.host.coding event.toSexp with
  | error e => exact ⟨[], .receiving, .inl ⟨rfl, rfl, by simp⟩, rfl, List.drop_left⟩
  | ok frame =>
    obtain ⟨hpart, hall⟩ := w.session.connection.writer.taken_transmit_isPrefix frame
    simp only
    cases hfailure : (w.session.connection.writer.transmit frame).failure with
    | none =>
      simp only [Option.map_none]
      exact ⟨_, .receiving, .inl ⟨rfl, hall hfailure, by simp [hfailure]⟩, rfl, List.drop_left⟩
    | some description =>
      simp only [Option.map_some]
      refine ⟨_, .ended, .inr ⟨rfl, frame, rfl, rfl, ?_⟩, rfl, List.drop_left⟩
      rw [hfailure]
      rfl

lemma control_move (hsound : w.traffic.Sound) (h : w.controlStep? = some w') :
    Move w.traffic (mailEvents none w.controlQueue w'.controlQueue ++ w.controlEvents w')
      w'.traffic := by
  unfold controlStep? at h
  cases hc : w.session.control with
  | absent | ended => simp [hc] at h
  | receiving =>
    simp only [hc, Option.bind_eq_bind, Option.bind_eq_some_iff, Option.pure_def,
      Option.some.injEq, Prod.exists] at h
    obtain ⟨m, w₁, hreceive, rfl⟩ := h
    exact handle_move hsound hc hreceive
  | entering target work =>
    simp only [hc, Option.some.injEq] at h
    subst h
    exact shown_move rfl (.enter hc) rfl (by simp [controlEvents, hc])
  | handing target work =>
    simp only [hc, Option.some.injEq] at h
    subst h
    have htarget := hsound.control_lt target (hsound.target target work (.inr hc))
    have htraffic := congrArg (·.goControl .receiving) (w.traffic_send target (.evaluate work))
    exact shown_move htraffic (.hand hc)
      (controlQueue_setQueue_of_ne _ _ _ (Nat.ne_of_gt htarget)) (by simp [controlEvents, hc])
  | raising target =>
    simp only [hc, Session.raise] at h
    by_cases hknown : w.session.table.evaluators.contains target = true
    · simp only [hknown, if_true, Option.some.injEq] at h
      subst h
      exact shown_move rfl (.raise hc) rfl (by simp [controlEvents, hc])
    · simp only [hknown, Bool.false_eq_true, if_false, Option.some.injEq] at h
      subst h
      exact shown_move rfl (.turnBack (.inl hc)) rfl (by simp [controlEvents, hc])
  | aborting target =>
    simp only [hc, Option.some.injEq] at h
    subst h
    exact shown_move rfl (.turnBack (.inr hc)) rfl (by simp [controlEvents, hc])
  | writing event =>
    simp only [hc, Option.some.injEq] at h
    subst h
    obtain ⟨bytes, next, hnext, htraffic, hbytes⟩ := w.write_spec event
    refine shown_move htraffic (.write bytes next hc (hnext.imp And.left And.left) ?_) rfl
      (by simp [controlEvents, hc, hbytes])
    rintro rfl frame hframe
    rcases hnext with ⟨-, hwhole, -⟩ | ⟨hended, -⟩
    · rw [hwhole, ServerEvent.frame]
      simp only [traffic] at hframe
      rw [hframe]
    · cases hended

/-- A kill in the middle of a frame leaves the part that has been taken. -/
lemma cut_move {calls : Nat} (h : w.cutShort? calls = some w') :
    Move w.traffic (mailEvents none w.controlQueue w'.controlQueue ++ w.controlEvents w')
      w'.traffic := by
  obtain ⟨event, outbound, hc, -, rfl, rfl⟩ := cutShort_spec h
  exact shown_move rfl (.write _ .ended hc (.inr rfl) (by simp)) rfl
    (by simp [controlEvents, hc, goControl, change])

end control

end World

end EvalServer
