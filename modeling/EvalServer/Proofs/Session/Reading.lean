import EvalServer.Proofs.Session.Closing

/-!
# What a session reads

Of what comes from the client only the reader takes anything, one frame after another, and it
forwards the message of each to the control loop. Once it has ended it does not start again.
-/

namespace EvalServer

open Traffic

/-- What an arrival adds to what has come. -/
def Delivery.arrived (arrival : Arrival) : Delivery :=
  if arrival = .bytes [] then [] else [arrival]

lemma Connection.inbound_arrive (c : Connection) (arrival : Arrival) :
    (c.arrive arrival).inbound = c.inbound ++ Delivery.arrived arrival := by
  unfold arrive Delivery.arrived
  split
  · rw [List.append_nil]
  · rfl

lemma Connection.outbound_arrive (c : Connection) (arrival : Arrival) :
    (c.arrive arrival).outbound = c.outbound := by
  unfold arrive
  split <;> rfl

namespace World

/-- What a step does to what has come from the client and has not been read. -/
inductive Draws (w : World) : Action → World → Prop
  | still {action : Action} {w' : World} : (∀ arrival, action ≠ .deliver arrival) →
      w'.session.connection.inbound = w.session.connection.inbound →
      (w.session.reader = .ended → w'.session.reader = .ended) →
      (w.session.reader ≠ .absent → w'.session.reader ≠ .absent) →
      (action = .reader → w'.controlQueue = w.controlQueue) → Draws w action w'
  | arrive {arrival : Arrival} {w' : World} :
      w'.session.connection.inbound = (w.session.connection.arrive arrival).inbound →
      w'.session.reader = w.session.reader → Draws w (.deliver arrival) w'
  | hear {v : Sexp} {rest : Delivery} {w' : World} : w.session.reader = .reading →
      Frame.read w.session.host.coding w.session.connection.inbound = (.ok v, rest) →
      w'.session.connection.inbound = rest → w'.session.reader = .reading →
      w'.controlQueue = w.controlQueue ++ [.client (.ofSexp v)] → Draws w .reader w'
  | stop {w' : World} : w'.session.reader = .ended → w'.controlQueue = w.controlQueue →
      Draws w .reader w'

variable {w w' : World}

/-- A step that leaves reader and connection as they are. -/
lemma draws_of_same {action : Action} (haction : ∀ arrival, action ≠ .deliver arrival)
    (hreader : action ≠ .reader)
    (hsame : (w'.session.connection.inbound, w'.session.reader, w'.session.host) =
      (w.session.connection.inbound, w.session.reader, w.session.host)) :
    w.Draws action w' ∧ w'.session.host = w.session.host := by
  simp only [Prod.mk.injEq] at hsame
  obtain ⟨hinbound, hphase, hhost⟩ := hsame
  refine ⟨.still haction hinbound hphase.trans ?_ fun h => absurd h hreader, hhost⟩
  rw [hphase]
  exact id

lemma draws_reader (hne : w.session.readerId ≠ w.session.controlId)
    (h : w.readerStep? = some w') : w.Draws .reader w' := by
  unfold readerStep? at h
  cases hreader : w.session.reader with
  | absent | ended => simp [hreader] at h
  | waiting =>
    simp only [hreader, Option.bind_eq_bind, Option.bind_eq_some_iff, Option.pure_def,
      Option.some.injEq, Prod.exists] at h
    obtain ⟨m, ⟨image, session⟩, hreceive, rfl⟩ := h
    obtain ⟨hqueue, rfl⟩ := receive_other hne hreceive
    refine .still (by simp) ?_ (by simp [hreader]) (fun _ => ?_) fun _ => ?_
    · split <;> rfl
    · split
      · simp [goReader, change]
      · simp [hreader]
    · split <;> exact hqueue
  | reading =>
    simp only [hreader, readFrame?] at h
    cases hread : Frame.read w.session.host.coding w.session.connection.inbound with
    | mk result rest =>
      rw [hread] at h
      cases result with
      | ok v =>
        cases h
        refine .hear hreader hread rfl hreader ?_
        simp [tell, send, controlQueue, change]
      | error e =>
        simp only at h
        split at h
        · cases h
        · cases h
          exact .stop rfl rfl

lemma draws_serve (hstaged : w.Staged) (h : w.serveStep? = some w') :
    w.Draws .serve w' ∧ w'.session.host = w.session.host := by
  have same : (w'.session.connection.inbound, w'.session.reader, w'.session.host) =
      (w.session.connection.inbound, w.session.reader, w.session.host) →
      w.Draws .serve w' ∧ w'.session.host = w.session.host :=
    draws_of_same (by simp) (by simp)
  unfold serveStep? at h
  cases hservice : w.session.service with
  | absent | ended => simp [hservice] at h
  | startingReader =>
    -- the reader starts here, and only here
    have hreader := hstaged.reader (by simp [hservice])
    simp only [hservice, Option.some.injEq] at h
    subst h
    refine ⟨.still (by simp) rfl (by simp [hreader]) ?_ (by simp), rfl⟩
    simp [goReader, goServe, change]
  | startingRepl =>
    simp only [hservice, Option.some.injEq] at h
    subst h
    obtain ⟨-, _, _, _, _, hsession, -⟩ := ensureRepl_frame w
    exact same (by simp only [goServe, change, hsession])
  | opening | serving =>
    simp only [hservice] at h
    split at h <;> cases h <;> exact same rfl
  | closing phase =>
    simp only [hservice] at h
    split at h
    · next w₁ phase' hclose =>
      cases h
      obtain ⟨-, _, _, _, _, _, _, _, _, hsession, -⟩ := closeStep_frame hclose
      exact same (by simp only [goServe, change, hsession])
    · cases h
      exact same rfl
  | _ =>
    simp only [hservice, Option.some.injEq] at h
    subst h
    exact same rfl

/-- Every step draws on the connection in one of these ways, and none changes its coding. -/
theorem step_draws (hsound : w.traffic.Sound) (hstaged : w.Staged) {action : Action}
    (h : w.step? action = some w') : w.Draws action w' ∧ w'.session.host = w.session.host := by
  have hne : w.session.readerId ≠ w.session.controlId := Nat.ne_of_lt hsound.reader_lt
  cases action with
  | serve => exact draws_serve hstaged h
  | reader =>
    obtain ⟨-, _, _, hsession⟩ := reader_frame hne h
    exact ⟨draws_reader hne h, by rw [hsession]⟩
  | control =>
    have hkeeps := (control_keeps h).1
    simp only [Prod.mk.injEq] at hkeeps
    exact draws_of_same (by simp) (by simp) (by simp only [hkeeps])
  | evaluator a =>
    obtain ⟨-, _, _, _, _, hsession, -⟩ := evaluator_frame (fun e he => ne_controlId hsound he) h
    exact draws_of_same (by simp) (by simp) (by rw [hsession])
  | job index =>
    obtain ⟨-, _, _, _, hsession⟩ := job_frame h
    exact draws_of_same (by simp) (by simp) (by rw [hsession])
  | output =>
    obtain ⟨output, rfl⟩ := output_frame (.inl h)
    exact draws_of_same (by simp) (by simp) rfl
  | connectOutput =>
    obtain ⟨output, rfl⟩ := output_frame (.inr (.inl h))
    exact draws_of_same (by simp) (by simp) rfl
  | close index =>
    obtain ⟨p, p', w₁, -, hclose, rfl⟩ := closer_spec h
    obtain ⟨-, _, _, _, _, _, _, _, _, hsession, -⟩ := closeStep_frame hclose
    exact draws_of_same (by simp) (by simp) (by simp only [change, hsession])
  | finish handle =>
    cases handle with
    | reader =>
      rw [readerEnd_frame h]
      exact ⟨.still (by simp) rfl (fun _ => rfl) (by simp [goReader, change]) (by simp), rfl⟩
    | control =>
      obtain ⟨-, -, rfl⟩ := controlEnd_spec h
      exact draws_of_same (by simp) (by simp) rfl
    | evaluator a =>
      rw [evaluatorEnd_frame h]
      exact draws_of_same (by simp) (by simp) rfl
    | output =>
      obtain ⟨output, rfl⟩ := output_frame (.inr (.inr h))
      exact draws_of_same (by simp) (by simp) rfl
  | cut calls =>
    obtain ⟨_, _, -, -, -, rfl⟩ := cutShort_spec h
    exact draws_of_same (by simp) (by simp) rfl
  | wake index =>
    obtain ⟨jobs, rfl⟩ := wake_frame h
    exact draws_of_same (by simp) (by simp) rfl
  | deliver arrival =>
    simp only [step?] at h
    split at h <;> cases h
    exact ⟨.arrive rfl rfl, rfl⟩
  | endInput | hangUp | beginClose =>
    cases h
    exact draws_of_same (by simp) (by simp) rfl

end World

end EvalServer
