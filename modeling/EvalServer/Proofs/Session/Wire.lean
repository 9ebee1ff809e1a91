import EvalServer.Proofs.Session.Frames

/-!
# What is on the wire

Control writes the frames of the events that the messages in its mailbox stand for, in their order,
with the connection's writer. An event that has no frame is left out as a whole; the first frame
that cannot be written whole is the last of which anything is written, and the writer fails at it
unless control is killed.
-/

namespace EvalServer

open Traffic

/-- The event for the client that a message to control stands for. -/
def Session.outgoing? (s : Session) : Message → Option ServerEvent
  | .result _ status id => some (.return status id)
  | .debug actor kind rest =>
    some (.debug kind ((s.actorName actor).getD (Text.Decimal.natText actor)) rest)
  | .emit event => some event
  | .start | .client _ | .evaluate _ => none

/-- A turn of the session, or a message that anybody sends to control. -/
inductive Happening where
  | turn (turn : Turn)
  | post (message : Message)
  deriving DecidableEq

/-- A message that control has taken, and the event that it stands for. -/
structure Pick where
  message : Message
  event? : Option ServerEvent
  deriving DecidableEq

/-- What becomes of a writer that the frames of these events are offered to. -/
def Writer.after (w : Writer) (coding : Coding) (events : List ServerEvent) : Writer :=
  events.foldl (fun w event => (Frame.send coding w event.toSexp).2.2) w

/-- Control neither writes nor has ended. -/
def ControlPhase.isCalm : ControlPhase → Bool
  | .writing _ | .ended => false
  | _ => true

namespace World

def happen? (w : World) : Happening → Option World
  | .turn turn => w.turn? turn
  | .post message => some (w.tell message)

/-- Things that happen one after the other, if they can. -/
def live? (w : World) : List Happening → Option World
  | [] => some w
  | x :: rest => do
    let w' ← w.happen? x
    w'.live? rest

/-- The message that control takes. -/
def picked (w : World) : Happening → List Pick
  | .turn (.step .control) =>
    match w.session.control, w.controlQueue with
    | .receiving, m :: _ => [⟨m, w.session.outgoing? m⟩]
    | _, _ => []
  | _ => []

def picks (w : World) : List Happening → List Pick
  | [] => []
  | x :: rest => w.picked x ++ ((w.happen? x).map (·.picks rest)).getD []

/-- Control ends with this while it writes an event, of whose frame this part has been taken: the
connection's writer has failed after it, or control has been killed between two calls. -/
inductive BreaksOff (w : World) (event : ServerEvent) : Happening → List UInt8 → Prop
  | fails {frame : List UInt8} : Frame.encode w.session.host.coding event.toSexp = .ok frame →
      (w.session.connection.writer.transmit frame).failure.isSome →
      BreaksOff w event (.turn (.step .control)) (w.session.connection.writer.transmit frame).taken
  | stopped : w.session.controlKilled = true →
      BreaksOff w event (.turn (.step (.finish .control))) []
  | cut (calls : Nat) : w.session.controlKilled = true →
      BreaksOff w event (.turn (.step (.cut calls)))
        (Frame.sentIn w.session.host.coding calls w.session.connection.writer event.toSexp)

/-- Some time in a run control has ended while it wrote an event. -/
def BrokeOff (w : World) (xs : List Happening) (event : ServerEvent) (part : List UInt8) : Prop :=
  ∃ earlier x later w₁, xs = earlier ++ x :: later ∧ w.live? earlier = some w₁ ∧
    w₁.session.control = .writing event ∧ w₁.BreaksOff event x part

/-- The events picked that are not written yet, and the bytes written of the last. Control leaves
one behind only where it has broken off; without one it ends only if it is killed. -/
def Unwritten (w : World) (broke : ServerEvent → List UInt8 → Prop)
    (pending : List ServerEvent) (part : List UInt8) : Prop :=
  match w.session.control with
  | .writing event => pending = [event] ∧ part = []
  | .ended => (w.session.controlKilled = true ∧ pending = [] ∧ part = []) ∨
      ∃ event, pending = [event] ∧ broke event part
  | _ => pending = [] ∧ part = []

lemma picks_concat {w w₁ : World} {xs : List Happening} (h : w.live? xs = some w₁)
    (x : Happening) : w.picks (xs ++ [x]) = w.picks xs ++ w₁.picked x := by
  induction xs generalizing w with
  | nil =>
    obtain rfl : w = w₁ := Option.some.inj h
    cases hx : w.happen? x <;> simp [picks, hx]
  | cons y rest ih =>
    simp only [live?, Option.bind_eq_bind, Option.bind_eq_some_iff] at h
    obtain ⟨w', hy, hrest⟩ := h
    simp [picks, hy, ih hrest]

theorem live_induction {w : World} {P : List Happening → World → Prop} (start : P [] w)
    (next : ∀ xs w₁ x w₂, w.live? xs = some w₁ → P xs w₁ → w₁.happen? x = some w₂ →
      P (xs ++ [x]) w₂)
    {happenings : List Happening} {last : World} (hrun : w.live? happenings = some last) :
    P happenings last := by
  have concat : ∀ {xs : List Happening} {x : Happening} {w w₁ w₂ : World},
      w.live? xs = some w₁ → w₁.happen? x = some w₂ → w.live? (xs ++ [x]) = some w₂ := by
    intro xs
    induction xs with
    | nil =>
      intro x w w₁ w₂ hxs hx
      cases hxs
      simp [live?, hx]
    | cons y rest ih =>
      intro x w w₁ w₂ hxs hx
      simp only [live?, Option.bind_eq_bind, Option.bind_eq_some_iff] at hxs
      obtain ⟨w', hy, hrest⟩ := hxs
      simp [live?, hy, ih hrest hx]
  have general : ∀ (more xs : List Happening) (w₁ : World), w.live? xs = some w₁ → P xs w₁ →
      w₁.live? more = some last → P (xs ++ more) last := by
    intro more
    induction more with
    | nil =>
      intro xs w₁ _ hw₁ hmore
      cases hmore
      simpa using hw₁
    | cons x rest ih =>
      intro xs w₁ hxs hw₁ hmore
      simp only [live?, Option.bind_eq_bind, Option.bind_eq_some_iff] at hmore
      obtain ⟨w₂, hx, hrest⟩ := hmore
      have hnext := ih (xs ++ [x]) w₂ (concat hxs hx) (next xs w₁ x w₂ hxs hw₁ hx) hrest
      rwa [List.append_assoc] at hnext
  exact general happenings [] w rfl start hrun

/-- What others than control leave of what control works on: its mailbox only grows, and the set
of active evaluations only shrinks. -/
structure Aside (w w' : World) : Prop where
  host : w'.session.host = w.session.host
  controlId : w'.session.controlId = w.session.controlId
  outbound : w'.session.connection.outbound = w.session.connection.outbound
  writer : w'.session.connection.writer = w.session.connection.writer
  active : w'.session.active.members ⊆ w.session.active.members
  control : w'.session.control = w.session.control
  killed : w.session.controlKilled = true → w'.session.controlKilled = true
  queue : w.controlQueue <+: w'.controlQueue

namespace Aside

variable {w w' w'' : World}

lemma still (hqueue : w.controlQueue <+: w'.controlQueue)
    (hsame : (w'.session.host, w'.session.controlId, w'.session.connection.outbound,
        w'.session.connection.writer, w'.session.active, w'.session.control,
        w'.session.controlKilled) =
      (w.session.host, w.session.controlId, w.session.connection.outbound,
        w.session.connection.writer, w.session.active, w.session.control,
        w.session.controlKilled)) : w.Aside w' := by
  simp only [Prod.mk.injEq] at hsame
  obtain ⟨hhost, hid, houtbound, hwriter, hactive, hcontrol, hkilled⟩ := hsame
  exact ⟨hhost, hid, houtbound, hwriter, hactive ▸ List.Subset.refl _, hcontrol,
    fun hk => hkilled ▸ hk, hqueue⟩

lemma same (hsame : (w'.controlQueue, w'.session.host, w'.session.controlId,
        w'.session.connection.outbound, w'.session.connection.writer, w'.session.active,
        w'.session.control, w'.session.controlKilled) =
      (w.controlQueue, w.session.host, w.session.controlId, w.session.connection.outbound,
        w.session.connection.writer, w.session.active, w.session.control,
        w.session.controlKilled)) : w.Aside w' := by
  obtain ⟨hqueue, hsame⟩ := Prod.mk.inj hsame
  exact still (hqueue ▸ List.prefix_refl _) hsame

lemma trans (h : w.Aside w') (h' : w'.Aside w'') : w.Aside w'' where
  host := h'.host.trans h.host
  controlId := h'.controlId.trans h.controlId
  outbound := h'.outbound.trans h.outbound
  writer := h'.writer.trans h.writer
  active := List.Subset.trans h'.active h.active
  control := h'.control.trans h.control
  killed := fun hk => h'.killed (h.killed hk)
  queue := h.queue.trans h'.queue

lemma send (w : World) (a : ActorId) (m : Message) : w.Aside (w.send a m) :=
  still (grows_send w a m) rfl

lemma tell (w : World) (m : Message) : w.Aside (w.tell m) :=
  send w _ m

lemma kill (w : World) (handle : Handle) : w.Aside (w.change (·.kill handle)) := by
  obtain ⟨readerKilled, controlKilled, evaluators, killed, hkill, hmono⟩ :=
    kill_frame w.session handle
  simp only [change, hkill]
  exact ⟨rfl, rfl, rfl, rfl, List.Subset.refl _, rfl, hmono, List.prefix_refl _⟩

lemma resolve {thread : Thread} {found : Option ActorId} (h : w.resolve thread = (found, w')) :
    w.Aside w' := by
  obtain ⟨hqueue, evaluators, table, active, prompts, hsession, hactive, -⟩ := resolve_frame h
  obtain ⟨image, session⟩ := w'
  subst hsession
  exact ⟨rfl, rfl, rfl, rfl, hactive, rfl, id, hqueue ▸ List.prefix_refl _⟩

lemma closeStep {phase phase' : ClosePhase} (h : w.closeStep? phase = some (w', phase')) :
    w.Aside w' := by
  obtain ⟨image, session⟩ := w'
  obtain ⟨rfl, _, _, _, _, _, _, _, _, rfl, hkilled, -⟩ := closeStep_frame h
  exact ⟨rfl, rfl, rfl, rfl, List.Subset.refl _, rfl, hkilled, List.prefix_refl _⟩

lemma closer {index : Nat} (h : w.closerStep? index = some w') : w.Aside w' := by
  obtain ⟨phase, phase', w₁, -, hclose, rfl⟩ := closer_spec h
  exact (closeStep hclose).trans (same rfl)

lemma serve (hstarted : w.session.service ≠ .startingControl) (h : w.serveStep? = some w') :
    w.Aside w' := by
  unfold serveStep? at h
  cases hservice : w.session.service with
  | absent | ended => simp [hservice] at h
  | startingControl => exact absurd hservice hstarted
  | startingReader | recording | recordingOutput =>
    simp only [hservice, Option.some.injEq] at h
    subst h
    exact same rfl
  | startingRepl =>
    simp only [hservice, Option.some.injEq] at h
    subst h
    have hrepl : w.resolve .repl = (some w.ensureRepl.1, w.ensureRepl.2) := rfl
    exact (resolve hrepl).trans (same rfl)
  | opening =>
    simp only [hservice] at h
    split at h
    · cases h
      exact same rfl
    · cases h
      exact same rfl
  | announcingOutput port =>
    simp only [hservice, Option.some.injEq] at h
    subst h
    exact (tell w _).trans (same rfl)
  | starting =>
    simp only [hservice, Option.some.injEq] at h
    subst h
    exact (send w _ _).trans (same rfl)
  | serving =>
    simp only [hservice] at h
    split at h
    · cases h
      exact same rfl
    · cases h
  | closing phase =>
    simp only [hservice] at h
    split at h
    · next w₁ phase' hclose =>
      cases h
      exact (closeStep hclose).trans (same rfl)
    · cases h
      exact same rfl

end Aside

section turns

variable {w w' : World}

/-- What happens besides the steps that control takes itself: others leave its work alone, but for
its start and, if it is killed, its end. Besides, the client may hang up. -/
inductive Besides (w : World) : Happening → World → Prop
  | aside {x : Happening} {w' : World} : w.Aside w' → Besides w x w'
  | start {x : Happening} {w' : World} : w.session.control = .absent →
      (w.goControl .receiving).Aside w' → Besides w x w'
  | hangUp (writer : Writer) :
      Besides w (.turn (.step .hangUp)) (w.changeConnection fun c => { c with writer })
  | stop {x : Happening} : w.session.control = .receiving → w.session.controlKilled = true →
      Besides w x (w.goControl .ended)
  | breaks {x : Happening} {event : ServerEvent} {part : List UInt8} :
      w.session.control = .writing event → w.BreaksOff event x part →
      Besides w x
        ((w.changeConnection fun c => { c with outbound := c.outbound ++ part }).goControl .ended)

lemma finish_besides {handle : Handle} (h : w.finish? handle = some w') :
    w.Besides (.turn (.step (.finish handle))) w' := by
  cases handle with
  | reader =>
    rw [readerEnd_frame h]
    exact .aside (.same rfl)
  | evaluator id =>
    rw [evaluatorEnd_frame h]
    exact .aside (.same rfl)
  | output =>
    obtain ⟨output, rfl⟩ := output_frame (.inr (.inr h))
    exact .aside (.same rfl)
  | control =>
    obtain ⟨hc | ⟨event, hc⟩, hkilled, rfl⟩ := controlEnd_spec h
    · exact .stop hc hkilled
    · have hbreaks := Besides.breaks hc (.stopped hkilled)
      simpa [changeConnection, change] using hbreaks

lemma happen_besides (hsound : w.traffic.Sound) {x : Happening}
    (hx : x ≠ .turn (.step .control)) (h : w.happen? x = some w') : w.Besides x w' := by
  cases x with
  | post m =>
    cases h
    exact .aside (.tell w m)
  | turn turn =>
    cases turn with
    | kill handle =>
      cases h
      exact .aside (.kill w handle)
    | step action =>
      replace h : w.step? action = some w' := h
      cases action with
      | control => exact absurd rfl hx
      | serve =>
        by_cases hstarting : w.session.service = .startingControl
        · simp only [step?, serveStep?, hstarting, Option.some.injEq] at h
          subst h
          exact .start (hsound.absent (.inl hstarting)) (.same rfl)
        · exact .aside (.serve hstarting h)
      | reader =>
        obtain ⟨hqueue, inbound, reader, hsession⟩ :=
          reader_frame (Nat.ne_of_lt hsound.reader_lt) h
        exact .aside (.still hqueue (by rw [hsession]))
      | evaluator id =>
        obtain ⟨hqueue, evaluators, jobs, hints, workers, hsession, -⟩ :=
          evaluator_frame (fun e he => ne_controlId hsound he) h
        exact .aside (.still hqueue (by rw [hsession]))
      | job index =>
        obtain ⟨hqueue, jobs, prompts, queue, hsession⟩ := job_frame h
        exact .aside (.still hqueue (by rw [hsession]))
      | output =>
        obtain ⟨output, rfl⟩ := output_frame (.inl h)
        exact .aside (.same rfl)
      | connectOutput =>
        obtain ⟨output, rfl⟩ := output_frame (.inr (.inl h))
        exact .aside (.same rfl)
      | wake index =>
        obtain ⟨jobs, rfl⟩ := wake_frame h
        exact .aside (.same rfl)
      | close index => exact .aside (.closer h)
      | finish handle => exact finish_besides h
      | cut calls =>
        obtain ⟨event, outbound, hc, hkilled, rfl, rfl⟩ := cutShort_spec h
        exact .breaks hc (.cut calls hkilled)
      | deliver arrival =>
        simp only [step?] at h
        split at h
        · cases h
        · cases h
          have harrive : (w.session.connection.arrive arrival).outbound =
                w.session.connection.outbound ∧
              (w.session.connection.arrive arrival).writer = w.session.connection.writer := by
            unfold Connection.arrive
            split <;> exact ⟨rfl, rfl⟩
          refine .aside (.still (List.prefix_refl _) ?_)
          simp [changeConnection, change, harrive]
      | hangUp =>
        cases h
        exact .hangUp _
      | endInput | beginClose =>
        cases h
        exact .aside (.same rfl)

lemma picked_other {x : Happening} (hx : x ≠ .turn (.step .control)) : w.picked x = [] := by
  unfold picked
  split
  · exact absurd rfl hx
  · rfl

lemma happen_sound (hsound : w.traffic.Sound) {x : Happening} (h : w.happen? x = some w') :
    w'.traffic.Sound := by
  cases x with
  | turn turn => exact hsound.move (turn_move hsound h)
  | post m =>
    cases h
    exact w.traffic_tell m ▸ hsound.tell [m]

/-- A message that stands for an event makes control write it, and any other does not; a result
takes its actor off the active evaluations. -/
lemma handle_aside (hc : w.session.control = .receiving) (m : Message) :
    ∃ c, (w.goControl c).Aside (w.handle m) ∧
      (match w.session.outgoing? m with
        | some event => c = .writing event
        | none => c.isCalm = true ∧ ∀ t work, c = .entering t work → ∃ event, m = .client event) ∧
      ∀ a status id, m = .result a status id → a ∉ (w.handle m).session.active.members := by
  have back : ∀ {w' : World}, w.Aside w' → (w.goControl .receiving).Aside w' := by
    intro w' h
    exact { h with control := h.control.trans hc }
  cases m with
  | start | evaluate =>
    refine ⟨.receiving, back (.same rfl), ⟨rfl, ?_⟩, ?_⟩
    · simp
    · simp
  | emit event => exact ⟨.writing event, .same rfl, rfl, by simp⟩
  | debug => exact ⟨_, .same rfl, rfl, by simp⟩
  | result actor status n =>
    refine ⟨.writing (.return status n), ?_, rfl, ?_⟩
    · exact ⟨rfl, rfl, rfl, rfl, List.filter_subset_self _, rfl, id, List.prefix_refl _⟩
    · intro a _ _ heq
      cases heq
      simp [handle, goControl, change]
  | client event =>
    suffices h : ∃ c, (w.goControl c).Aside (w.handle (.client event)) ∧ c.isCalm = true by
      obtain ⟨c, haside, hcalm⟩ := h
      exact ⟨c, haside, ⟨hcalm, fun _ _ _ => ⟨event, rfl⟩⟩, by simp⟩
    cases event with
    | evaluate form package thread id =>
      simp only [handle, handleClient]
      cases hresolve : w.resolve thread with
      | mk found w₂ =>
        have haside := Aside.resolve hresolve
        cases found with
        | none => exact ⟨.receiving, back haside, rfl⟩
        | some target =>
          exact ⟨.entering target ⟨form, package, id⟩, { haside with control := rfl }, rfl⟩
    | interrupt thread =>
      simp only [handle, handleClient]
      cases w.session.interruptTarget thread with
      | none => exact ⟨.receiving, back (.same rfl), rfl⟩
      | some target => exact ⟨.raising target, .same rfl, rfl⟩
    | returnString | returnValue | unknown =>
      exact ⟨.receiving, back (.same rfl), rfl⟩

end turns

/-- What the connection's writer takes before it fails, or control is killed, is the beginning of
the frame. -/
lemma BreaksOff.isPrefix {w : World} {event : ServerEvent} {x : Happening} {part : List UInt8}
    (h : w.BreaksOff event x part) : part <+: event.frame w.session.host.coding := by
  cases h with
  | fails hframe =>
    rw [ServerEvent.frame, hframe]
    exact (Writer.taken_transmit_isPrefix _ _).1
  | stopped => exact List.nil_prefix
  | cut calls =>
    simp only [ServerEvent.frame, Frame.sentIn]
    cases Frame.encode w.session.host.coding event.toSexp with
    | error => exact List.nil_prefix
    | ok frame => exact Writer.takenIn_isPrefix _ _ _

/-- Control writes with the connection's writer, and ends exactly if that fails. -/
lemma control_writes {w : World} {event : ServerEvent} (hc : w.session.control = .writing event) :
    ∃ w', w.step? .control = some w' ∧
      (w'.session.control = .receiving ∧
          (∀ part, ¬ w.BreaksOff event (.turn (.step .control)) part) ∨
        w'.session.control = .ended ∧
          ∃ part, w.BreaksOff event (.turn (.step .control)) part) := by
  refine ⟨w.write event, by simp only [step?, controlStep?, hc], ?_⟩
  obtain ⟨bytes, next, hnext, htraffic, -⟩ := w.write_spec event
  have hcontrol : (w.write event).session.control = next := congrArg Traffic.control htraffic
  rcases hnext with ⟨rfl, -, hdone⟩ | ⟨rfl, frame, hframe, -, hfails⟩
  · refine .inl ⟨hcontrol, ?_⟩
    rintro part ⟨hframe, hfails⟩
    rw [hdone _ hframe] at hfails
    cases hfails
  · exact .inr ⟨hcontrol, _, .fails hframe hfails⟩

/-- What a run that has picked these messages has written on a connection. Whether the client has
hung up and what has been broken off is handed in. -/
structure Wired (coding : Coding) (start : Connection) (p : List Pick) (hung : Prop)
    (broke : ServerEvent → List UInt8 → Prop) (w : World) : Prop where
  coding_eq : w.session.host.coding = coding
  written : ∃ done pending part, p.filterMap Pick.event? = done ++ pending ∧
    w.session.connection.outbound = start.outbound ++ done.flatMap (·.frame coding) ++ part ∧
    part <+: pending.flatMap (·.frame coding) ∧
    w.Unwritten broke pending part ∧
    (¬ hung → w.session.control ≠ .ended →
      w.session.connection.writer = start.writer.after coding done)
  concluded : ∀ a status id, p.getLast?.map Pick.message = some (.result a status id) →
    a ∉ w.session.active.members
  entering : ∀ t work, w.session.control = .entering t work →
    ∃ event, p.getLast?.map Pick.message = some (.client event)

namespace Wired

variable {coding : Coding} {start : Connection} {p : List Pick} {hung hung' : Prop}
  {broke broke' : ServerEvent → List UInt8 → Prop} {w w' : World} {c : ControlPhase}

lemma unwritten_calm {pending : List ServerEvent} {part : List UInt8}
    (hcalm : w.session.control.isCalm = true) :
    w.Unwritten broke pending part ↔ pending = [] ∧ part = [] := by
  unfold Unwritten
  split
  · next heq => simp [heq, ControlPhase.isCalm] at hcalm
  · next heq => simp [heq, ControlPhase.isCalm] at hcalm
  · rfl

lemma ne_ended (hcalm : w.session.control.isCalm = true) : w.session.control ≠ .ended := by
  intro hended
  simp [hended, ControlPhase.isCalm] at hcalm

/-- While control is calm, all events picked have been written. -/
lemma outbound_calm (h : Wired coding start p hung broke w)
    (hcalm : w.session.control.isCalm = true) :
    w.session.connection.outbound =
        start.outbound ++ (p.filterMap Pick.event?).flatMap (·.frame coding) ∧
      (¬ hung → w.session.connection.writer =
        start.writer.after coding (p.filterMap Pick.event?)) := by
  obtain ⟨done, pending, part, hevents, houtbound, -, hrest, hwriter⟩ := h.written
  obtain ⟨rfl, rfl⟩ := (unwritten_calm hcalm).1 hrest
  rw [List.append_nil] at hevents houtbound
  rw [hevents]
  exact ⟨houtbound, fun hnot => hwriter hnot (ne_ended hcalm)⟩

/-- Control is calm and all events picked have been written. -/
lemma written_calm (hcalm : w.session.control.isCalm = true)
    (houtbound : w.session.connection.outbound =
      start.outbound ++ (p.filterMap Pick.event?).flatMap (·.frame coding))
    (hwriter : ¬ hung → w.session.connection.writer =
      start.writer.after coding (p.filterMap Pick.event?)) :
    ∃ done pending part, p.filterMap Pick.event? = done ++ pending ∧
      w.session.connection.outbound = start.outbound ++ done.flatMap (·.frame coding) ++ part ∧
      part <+: pending.flatMap (·.frame coding) ∧
      w.Unwritten broke pending part ∧
      (¬ hung → w.session.control ≠ .ended →
        w.session.connection.writer = start.writer.after coding done) := by
  refine ⟨p.filterMap Pick.event?, [], [], by simp, by simpa using houtbound, by simp,
    (unwritten_calm hcalm).2 ⟨rfl, rfl⟩, fun hnot _ => hwriter hnot⟩

lemma mono (h : Wired coding start p hung broke w) (hhung : hung → hung')
    (hbroke : ∀ event part, broke event part → broke' event part) :
    Wired coding start p hung' broke' w where
  coding_eq := h.coding_eq
  written := by
    obtain ⟨done, pending, part, hevents, houtbound, hpart, hrest, hwriter⟩ := h.written
    refine ⟨done, pending, part, hevents, houtbound, hpart, ?_,
      fun hnot => hwriter fun hh => hnot (hhung hh)⟩
    unfold Unwritten at hrest ⊢
    cases hc : w.session.control with
    | ended =>
      simp only [hc] at hrest
      exact hrest.imp_right fun ⟨event, hpending, hb⟩ => ⟨event, hpending, hbroke event part hb⟩
    | _ => simpa only [hc] using hrest
  concluded := h.concluded
  entering := h.entering

lemma aside (h : Wired coding start p hung broke w) (haside : w.Aside w') :
    Wired coding start p hung broke w' where
  coding_eq := haside.host ▸ h.coding_eq
  written := by
    obtain ⟨done, pending, part, hevents, houtbound, hpart, hrest, hwriter⟩ := h.written
    refine ⟨done, pending, part, hevents, haside.outbound.trans houtbound, hpart, ?_, ?_⟩
    · unfold Unwritten at hrest ⊢
      rw [haside.control]
      cases hc : w.session.control with
      | ended =>
        simp only [hc] at hrest
        exact hrest.imp_left fun ⟨hkilled, hnone⟩ => ⟨haside.killed hkilled, hnone⟩
      | _ => simpa only [hc] using hrest
    · rw [haside.control, haside.writer]
      exact hwriter
  concluded := fun a status id hlast ha => h.concluded a status id hlast (haside.active ha)
  entering := fun t work hc => h.entering t work (haside.control ▸ hc)

/-- Control goes on without a message and without a word. -/
lemma go (h : Wired coding start p hung broke w) (hcalm : w.session.control.isCalm = true)
    (hc : c.isCalm = true ∧ ∀ t work, c ≠ .entering t work) :
    Wired coding start p hung broke (w.goControl c) where
  coding_eq := h.coding_eq
  written := written_calm hc.1 (h.outbound_calm hcalm).1 (h.outbound_calm hcalm).2
  concluded := h.concluded
  entering := fun t work heq => absurd heq (hc.2 t work)

/-- Control takes a message. -/
lemma pick {w₁ : World} {m : Message} (h : Wired coding start p hung broke w)
    (hc : w.session.control = .receiving) (hsession : w₁.session = w.session) :
    Wired coding start (p ++ [⟨m, w.session.outgoing? m⟩]) hung broke (w₁.handle m) := by
  obtain ⟨c, haside, hevent, hresult⟩ := handle_aside (hsession ▸ hc) m
  have hcalm : w.session.control.isCalm = true := by rw [hc]; rfl
  obtain ⟨hbefore, hwriter⟩ := h.outbound_calm hcalm
  rw [← hsession] at hbefore hwriter
  have houtbound : (w₁.handle m).session.connection.outbound =
      start.outbound ++ (p.filterMap Pick.event?).flatMap (·.frame coding) :=
    haside.outbound.trans hbefore
  have hlast : (p ++ [(⟨m, w.session.outgoing? m⟩ : Pick)]).getLast?.map Pick.message =
      some m := by simp
  have hcontrol : (w₁.handle m).session.control = c := haside.control
  rw [hsession] at hevent
  refine ⟨?_, ⟨p.filterMap Pick.event?, (w.session.outgoing? m).toList, [], ?_, ?_, ?_, ?_, ?_⟩,
    ?_, ?_⟩
  · have hhost : (w₁.handle m).session.host = w₁.session.host := haside.host
    rw [hhost, hsession]
    exact h.coding_eq
  · cases w.session.outgoing? m <;> simp
  · rw [List.append_nil]
    exact houtbound
  · exact List.nil_prefix
  · cases hout : w.session.outgoing? m with
    | some event =>
      rw [hout] at hevent
      simp [Unwritten, hcontrol, hevent]
    | none =>
      rw [hout] at hevent
      exact (unwritten_calm (hcontrol ▸ hevent.1)).2 ⟨rfl, rfl⟩
  · exact fun hnot _ => haside.writer.trans (hwriter hnot)
  · intro a status id heq
    rw [hlast] at heq
    exact hresult a status id (Option.some.inj heq)
  · intro t work heq
    rw [hlast]
    cases hout : w.session.outgoing? m with
    | some event =>
      rw [hout] at hevent
      rw [hcontrol, hevent] at heq
      cases heq
    | none =>
      rw [hout] at hevent
      obtain ⟨event, rfl⟩ := hevent.2 t work (hcontrol.symm.trans heq)
      exact ⟨event, rfl⟩

/-- Control ends while it writes. -/
lemma breaksOff {connection : Connection} {x : Happening} {event : ServerEvent}
    {part : List UInt8} (h : Wired coding start p hung broke w)
    (hc : w.session.control = .writing event) (hbreaks : w.BreaksOff event x part)
    (hbroke : broke event part) (hhost : w'.session.host = w.session.host)
    (hactive : w'.session.active = w.session.active)
    (hconnection : w'.session.connection = connection)
    (houtbound : connection.outbound = w.session.connection.outbound ++ part)
    (hended : w'.session.control = .ended) : Wired coding start p hung broke w' where
  coding_eq := hhost ▸ h.coding_eq
  written := by
    obtain ⟨done, pending, part', hevents, hbefore, -, hrest, -⟩ := h.written
    simp only [Unwritten, hc] at hrest
    obtain ⟨rfl, rfl⟩ := hrest
    rw [List.append_nil] at hbefore
    refine ⟨done, [event], part, hevents, ?_, ?_, ?_, fun _ hne => absurd hended hne⟩
    · rw [hconnection, houtbound, hbefore]
    · simpa [h.coding_eq] using hbreaks.isPrefix
    · simp only [Unwritten, hended]
      exact .inr ⟨event, rfl, hbroke⟩
  concluded := hactive ▸ h.concluded
  entering := by simp [hended]

lemma writer_write (w : World) (event : ServerEvent) :
    (w.write event).session.connection.writer =
      (Frame.send w.session.host.coding w.session.connection.writer event.toSexp).2.2 := by
  simp only [World.write]
  split <;> rfl

/-- Control writes the event that it has picked. -/
lemma write (h : Wired coding start p hung broke w) {event : ServerEvent}
    (hc : w.session.control = .writing event)
    (hbroke : ∀ part, w.BreaksOff event (.turn (.step .control)) part → broke event part) :
    Wired coding start p hung broke (w.write event) := by
  obtain ⟨bytes, next, hnext, htraffic, -⟩ := w.write_spec event
  have hhost : (w.write event).session.host = w.session.host := congrArg Traffic.host htraffic
  have hactive : (w.write event).session.active = w.session.active :=
    congrArg Traffic.active htraffic
  have hcontrol : (w.write event).session.control = next := congrArg Traffic.control htraffic
  have hmore : (w.write event).session.connection.outbound =
      w.session.connection.outbound ++ bytes := congrArg Traffic.outbound htraffic
  rcases hnext with ⟨rfl, rfl, -⟩ | ⟨rfl, frame, hframe, rfl, hfails⟩
  · obtain ⟨done, pending, part, hevents, houtbound, -, hrest, hwriter⟩ := h.written
    simp only [Unwritten, hc] at hrest
    obtain ⟨rfl, rfl⟩ := hrest
    rw [List.append_nil] at houtbound
    have hcalm : (w.write event).session.control.isCalm = true := by rw [hcontrol]; rfl
    refine ⟨hhost ▸ h.coding_eq, written_calm hcalm ?_ fun hnot => ?_, hactive ▸ h.concluded, ?_⟩
    · simp [hmore, houtbound, hevents, h.coding_eq]
    · rw [writer_write, hwriter hnot (by simp [hc]), hevents, h.coding_eq]
      simp [Writer.after]
    · simp [hcontrol]
  · have hbreaks : w.BreaksOff event (.turn (.step .control)) _ := .fails hframe hfails
    exact h.breaksOff hc hbreaks (hbroke _ hbreaks) hhost hactive rfl hmore hcontrol

/-- A step of control. -/
lemma control (h : Wired coding start p hung broke w) (hstep : w.controlStep? = some w')
    (hbroke : ∀ event part, w.session.control = .writing event →
      w.BreaksOff event (.turn (.step .control)) part → broke event part) :
    Wired coding start (p ++ w.picked (.turn (.step .control))) hung broke w' := by
  cases hc : w.session.control with
  | receiving =>
    simp only [controlStep?, hc, Option.bind_eq_bind, Option.bind_eq_some_iff, Option.pure_def,
      Option.some.injEq, Prod.exists] at hstep
    obtain ⟨m, w₁, hreceive, rfl⟩ := hstep
    obtain ⟨rest, hqueue, -, hsession⟩ := receive?_spec hreceive
    have hqueue' : w.controlQueue = m :: rest := hqueue
    simp only [picked, hc, hqueue']
    exact h.pick hc hsession
  | absent | ended => simp [controlStep?, hc] at hstep
  | entering target work =>
    simp only [controlStep?, hc, Option.some.injEq] at hstep
    subst hstep
    simp only [picked, hc, List.append_nil]
    have hgo := h.go (c := .handing target work) (by rw [hc]; rfl) ⟨rfl, by simp⟩
    refine ⟨hgo.coding_eq, hgo.written, ?_, by simp [goControl, change]⟩
    -- the last message picked is the client's
    intro a status id hlast
    obtain ⟨event, hevent⟩ := h.entering target work hc
    rw [hevent] at hlast
    cases hlast
  | handing target work =>
    simp only [controlStep?, hc, Option.some.injEq] at hstep
    subst hstep
    simp only [picked, hc, List.append_nil]
    exact (h.aside (.send w target (.evaluate work))).go (c := .receiving)
      (by simp [send, hc, ControlPhase.isCalm]) ⟨rfl, by simp⟩
  | raising target =>
    have hcalm : w.session.control.isCalm = true := by rw [hc]; rfl
    simp only [controlStep?, hc, Session.raise] at hstep
    simp only [picked, hc, List.append_nil]
    by_cases hknown : w.session.table.evaluators.contains target = true
    · simp only [hknown, if_true, Option.some.injEq] at hstep
      subst hstep
      exact (h.go (c := .aborting target) hcalm ⟨rfl, by simp⟩).aside (.same rfl)
    · simp only [hknown, Bool.false_eq_true, if_false, Option.some.injEq] at hstep
      subst hstep
      exact h.go hcalm ⟨rfl, by simp⟩
  | aborting target =>
    simp only [controlStep?, hc, Option.some.injEq] at hstep
    subst hstep
    simp only [picked, hc, List.append_nil]
    exact (h.go (c := .receiving) (by rw [hc]; rfl) ⟨rfl, by simp⟩).aside (.same rfl)
  | writing event =>
    simp only [controlStep?, hc, Option.some.injEq] at hstep
    subst hstep
    simp only [picked, hc, List.append_nil]
    exact h.write hc fun part => hbroke event part hc

/-- A killed control ends while it waits for a message. -/
lemma stop (h : Wired coding start p hung broke w) (hc : w.session.control = .receiving)
    (hkilled : w.session.controlKilled = true) :
    Wired coding start p hung broke (w.goControl .ended) where
  coding_eq := h.coding_eq
  written := by
    obtain ⟨done, pending, part, hevents, houtbound, hpart, hrest, -⟩ := h.written
    refine ⟨done, pending, part, hevents, houtbound, hpart, .inl ⟨hkilled, ?_⟩,
      fun _ hne => absurd rfl hne⟩
    simpa only [Unwritten, hc] using hrest
  concluded := h.concluded
  entering := by simp [goControl, change]

/-- The client hangs up. -/
lemma hangUp (h : Wired coding start p hung broke w) (hhung : hung) (writer : Writer) :
    Wired coding start p hung broke (w.changeConnection fun c => { c with writer }) where
  coding_eq := h.coding_eq
  written := by
    obtain ⟨done, pending, part, hevents, houtbound, hpart, hrest, -⟩ := h.written
    exact ⟨done, pending, part, hevents, houtbound, hpart, hrest, fun hnot => absurd hhung hnot⟩
  concluded := h.concluded
  entering := h.entering

lemma happen (h : Wired coding start p hung broke w) (hsound : w.traffic.Sound) {x : Happening}
    (hhung : x = .turn (.step .hangUp) → hung)
    (hbroke : ∀ event part, w.session.control = .writing event → w.BreaksOff event x part →
      broke event part)
    (hx : w.happen? x = some w') : Wired coding start (p ++ w.picked x) hung broke w' := by
  by_cases hcontrol : x = .turn (.step .control)
  · subst hcontrol
    exact h.control hx hbroke
  · rw [picked_other hcontrol, List.append_nil]
    cases happen_besides hsound hcontrol hx with
    | aside haside => exact h.aside haside
    | start hc haside =>
      exact (h.go (c := .receiving) (by rw [hc]; rfl) ⟨rfl, by simp⟩).aside haside
    | hangUp writer => exact h.hangUp (hhung rfl) writer
    | stop hc hkilled => exact h.stop hc hkilled
    | breaks hc hbreaks =>
      exact h.breaksOff hc hbreaks (hbroke _ _ hc hbreaks) rfl rfl rfl rfl rfl

end Wired

section runs

variable {w w' last : World} {xs : List Happening}

lemma live_sound (hsound : w.traffic.Sound) (hrun : w.live? xs = some last) :
    last.traffic.Sound :=
  live_induction (P := fun _ w' => w'.traffic.Sound) hsound
    (fun _ _ _ _ _ hsound₁ hx => happen_sound hsound₁ hx) hrun

lemma live_wired (hsound : w.traffic.Sound) (hcontrol : w.session.control = .absent)
    (hrun : w.live? xs = some last) :
    Wired w.session.host.coding w.session.connection (w.picks xs)
      (.turn (.step .hangUp) ∈ xs) (w.BrokeOff xs) last := by
  refine live_induction (P := fun xs w' => Wired w.session.host.coding w.session.connection
    (w.picks xs) (.turn (.step .hangUp) ∈ xs) (w.BrokeOff xs) w') ?_ ?_ hrun
  · refine ⟨rfl, ⟨[], [], [], rfl, by simp, by simp, by simp [Unwritten, hcontrol], ?_⟩,
      by simp [picks], by simp [hcontrol]⟩
    exact fun _ _ => rfl
  · intro xs w₁ x w₂ hxs hwired hx
    rw [picks_concat hxs]
    have hmore : Wired w.session.host.coding w.session.connection (w.picks xs)
        (.turn (.step .hangUp) ∈ xs ++ [x]) (w.BrokeOff (xs ++ [x])) w₁ := by
      refine hwired.mono (List.mem_append_left _) ?_
      rintro event part ⟨earlier, y, later, w', rfl, hbroke⟩
      exact ⟨earlier, y, later ++ [x], w', by simp, hbroke⟩
    refine hmore.happen (live_sound hsound hxs) (fun heq => by simp [heq]) ?_ hx
    exact fun event part hc hbreaks => ⟨xs, x, [], w₁, rfl, hxs, hc, hbreaks⟩

/-- Control only takes what is first in its mailbox, and everybody else adds behind. -/
lemma control_queue (hx : w.controlStep? = some w') :
    w.controlQueue <+: (w.picked (.turn (.step .control))).map Pick.message ++ w'.controlQueue := by
  cases hc : w.session.control with
  | absent | ended => simp [controlStep?, hc] at hx
  | receiving =>
    simp only [controlStep?, hc, Option.bind_eq_bind, Option.bind_eq_some_iff, Option.pure_def,
      Option.some.injEq, Prod.exists] at hx
    obtain ⟨m, w₁, hreceive, rfl⟩ := hx
    obtain ⟨rest, hqueue, htraffic, hsession⟩ := receive?_spec hreceive
    have hqueue' : w.controlQueue = m :: rest := hqueue
    have hrest : w₁.controlQueue = rest :=
      (congrArg Traffic.controlQueue htraffic).trans (controlQueue_setQueue _ _)
    obtain ⟨c, haside, -⟩ := handle_aside (hsession ▸ hc) m
    have hgrown : rest <+: (w₁.handle m).controlQueue := hrest ▸ haside.queue
    simpa [picked, hc, hqueue'] using hgrown
  | entering target work | aborting target =>
    simp only [controlStep?, hc, Option.some.injEq] at hx
    subst hx
    simp only [picked, hc]
    exact List.prefix_refl _
  | handing target work =>
    simp only [controlStep?, hc, Option.some.injEq] at hx
    subst hx
    simp only [picked, hc]
    exact (Aside.send w target (.evaluate work)).queue
  | raising target =>
    simp only [controlStep?, hc] at hx
    simp only [picked, hc]
    split at hx
    · next session hraise =>
      cases hx
      have hid : session.controlId = w.session.controlId := by
        unfold Session.raise at hraise
        split at hraise
        · cases hraise
          rfl
        · cases hraise
      simp [controlQueue, goControl, change, hid]
    · cases hx
      exact List.prefix_refl _
  | writing event =>
    simp only [controlStep?, hc, Option.some.injEq] at hx
    subst hx
    obtain ⟨bytes, next, -, htraffic, -⟩ := w.write_spec event
    have hsame : (w.write event).controlQueue = w.controlQueue :=
      congrArg Traffic.controlQueue htraffic
    simp only [picked, hc, hsame]
    exact List.prefix_refl _

lemma happen_queue (hsound : w.traffic.Sound) {x : Happening} (hx : w.happen? x = some w') :
    w.controlQueue <+: (w.picked x).map Pick.message ++ w'.controlQueue := by
  by_cases hcontrol : x = .turn (.step .control)
  · subst hcontrol
    exact control_queue hx
  · rw [picked_other hcontrol]
    cases happen_besides hsound hcontrol hx with
    | aside haside => exact haside.queue
    | start _ haside => exact haside.queue
    | hangUp | stop | breaks => exact List.prefix_refl _

/-- Control takes the messages in the order in which they came. -/
lemma live_queue (hsound : w.traffic.Sound) (hrun : w.live? xs = some last) :
    w.controlQueue <+: (w.picks xs).map Pick.message ++ last.controlQueue := by
  refine live_induction (P := fun xs w' =>
    w.controlQueue <+: (w.picks xs).map Pick.message ++ w'.controlQueue)
    (List.prefix_refl _) ?_ hrun
  intro xs w₁ x w₂ hxs hqueue hx
  refine hqueue.trans ?_
  rw [picks_concat hxs, List.map_append, List.append_assoc, List.prefix_append_right_inj]
  exact happen_queue (live_sound hsound hxs) hx

/-- Control does not come back, and nobody else writes. -/
lemma live_ended (hsound : w.traffic.Sound) (hended : w.session.control = .ended)
    (hrun : w.live? xs = some last) : last.session.control = .ended ∧
      last.session.connection.outbound = w.session.connection.outbound := by
  refine live_induction (P := fun _ w' => w'.session.control = .ended ∧
    w'.session.connection.outbound = w.session.connection.outbound) ⟨hended, rfl⟩ ?_ hrun
  rintro xs w₁ x w₂ hxs ⟨hended₁, hsame⟩ hx
  by_cases hcontrol : x = .turn (.step .control)
  · subst hcontrol
    replace hx : w₁.controlStep? = some w₂ := hx
    simp [controlStep?, hended₁] at hx
  · cases happen_besides (live_sound hsound hxs) hcontrol hx with
    | aside haside => exact ⟨haside.control.trans hended₁, haside.outbound.trans hsame⟩
    | hangUp => exact ⟨hended₁, hsame⟩
    | start hc | stop hc | breaks hc => simp [hended₁] at hc

/-- Control is never stuck: it can go on unless it waits for a message or is not there. -/
lemma control_goes (hc : w.session.control ≠ .absent ∧ w.session.control ≠ .ended)
    (hqueue : w.session.control = .receiving → w.controlQueue ≠ []) :
    ∃ w', w.step? .control = some w' := by
  simp only [step?, controlStep?]
  cases hcontrol : w.session.control with
  | absent => exact absurd hcontrol hc.1
  | ended => exact absurd hcontrol hc.2
  | receiving =>
    have hne := hqueue hcontrol
    cases hreceive : w.receive? w.session.controlId with
    | none =>
      simp only [receive?, Option.map_eq_none_iff, Mailboxes.receive?_eq_none_iff] at hreceive
      exact absurd hreceive hne
    | some received => exact ⟨_, rfl⟩
  | raising target =>
    simp only
    split
    · exact ⟨_, rfl⟩
    · exact ⟨_, rfl⟩
  | _ => exact ⟨_, rfl⟩

end runs

/-- An event has no frame if Latin-1 lacks one of its characters or if its payload is too large. -/
lemma no_frame_iff (coding : Coding) (v : Sexp) :
    (∀ frame, Frame.encode coding v ≠ .ok frame) ↔
      (coding = .latin1 ∧ ∃ c ∈ v.print.toList, 256 ≤ c.toNat) ∨
        ∃ payload, coding.encode v.print = .ok payload ∧ 0xFFFFFF < payload.length := by
  have large : ∀ payload : List UInt8,
      (∀ frame, Frame.ofPayload payload ≠ .ok frame) ↔ 0xFFFFFF < payload.length := by
    intro payload
    simp only [Frame.ofPayload, Frame.maxPayload]
    by_cases hsize : payload.length ≤ 0xFFFFFF
    · simp [hsize]
    · have hlarge := Nat.lt_of_not_le hsize
      simp [hsize, hlarge]
  cases coding with
  | utf8 =>
    have hpayload : Coding.encode .utf8 v.print = .ok (Text.Utf8.encode v.print.toList) := rfl
    simp only [Frame.encode, hpayload, large]
    simp
  | latin1 =>
    cases hfind : v.print.toList.find? fun c => 256 ≤ c.toNat with
    | some c =>
      have hc : 256 ≤ c.toNat := by simpa using List.find?_some hfind
      have hmem := List.mem_of_find?_eq_some hfind
      simp only [Frame.encode, Coding.encode, Coding.encodeLatin1, hfind]
      refine ⟨fun _ => .inl ⟨trivial, c, hmem, hc⟩, fun _ frame => ?_⟩
      simp
    | none =>
      have hall : ¬ ∃ c ∈ v.print.toList, 256 ≤ c.toNat := by
        rintro ⟨c, hmem, hc⟩
        have hlt := List.find?_eq_none.1 hfind c hmem
        simp [hc] at hlt
      have hpayload : Coding.encode .latin1 v.print =
          .ok (v.print.toList.map fun c => UInt8.ofNat c.toNat) := by
        simp only [Coding.encode, Coding.encodeLatin1, hfind]
      simp only [Frame.encode, hpayload, large]
      simp [hall]

/-- Whatever is sent to control, and however much its writer takes before it fails: what has been
written are the frames of the events that the messages picked so far stand for, in their order, and
then a part of the frame that control was writing when it ended. It ends while it writes only if the
connection's writer, which has taken all the frames before, fails at this one, or if it is killed;
otherwise it writes the frame and is back. An event without a frame adds nothing and ends nothing; a
result takes its actor off the active evaluations in any case; control goes on while it has
something to do; it picks the messages in the order in which they came; and once it has ended
nothing more is written. -/
theorem wire_intact {image : Image} {id : Nat} {host : Host} {wantsOutput : Bool}
    {outputPort : Option UInt16} {connection : Connection} {before : List Happening} {w : World}
    (hfresh : image.mailboxes.Fresh)
    (hrun : (opened image id host wantsOutput outputPort connection).live? before = some w) :
    (∃ done pending part,
      ((opened image id host wantsOutput outputPort connection).picks before).filterMap
        Pick.event? = done ++ pending ∧
      w.session.connection.outbound =
        connection.outbound ++ done.flatMap (·.frame host.coding) ++ part ∧
      part <+: pending.flatMap (·.frame host.coding) ∧
      w.Unwritten ((opened image id host wantsOutput outputPort connection).BrokeOff before)
        pending part ∧
      (.turn (.step .hangUp) ∉ before → w.session.control ≠ .ended →
        w.session.connection.writer = connection.writer.after host.coding done)) ∧
    (∀ event, w.session.control = .writing event → ∃ w', w.step? .control = some w' ∧
      (w'.session.control = .receiving ∧
          (∀ part, ¬ w.BreaksOff event (.turn (.step .control)) part) ∨
        w'.session.control = .ended ∧
          ∃ part, w.BreaksOff event (.turn (.step .control)) part)) ∧
    (∀ v, (∀ frame, Frame.encode host.coding v ≠ .ok frame) ↔
      (host.coding = .latin1 ∧ ∃ c ∈ v.print.toList, 256 ≤ c.toNat) ∨
        ∃ payload, host.coding.encode v.print = .ok payload ∧ 0xFFFFFF < payload.length) ∧
    (∀ a status n, ((opened image id host wantsOutput outputPort connection).picks
      before).getLast?.map Pick.message = some (.result a status n) →
      a ∉ w.session.active.members) ∧
    (w.session.control ≠ .absent ∧ w.session.control ≠ .ended →
      (w.session.control = .receiving → w.controlQueue ≠ []) →
      ∃ w', w.step? .control = some w') ∧
    ∀ (more : List Happening) (last : World), w.live? more = some last →
      w.controlQueue <+: (w.picks more).map Pick.message ++ last.controlQueue ∧
      (w.session.control = .ended → last.session.control = .ended ∧
        last.session.connection.outbound = w.session.connection.outbound) := by
  have hopened := (opened_blank hfresh id host wantsOutput outputPort connection).toSound
  have hwired := live_wired hopened rfl hrun
  have hsound := live_sound hopened hrun
  refine ⟨hwired.written, fun event => control_writes, no_frame_iff host.coding,
    hwired.concluded, control_goes, ?_⟩
  intro more last hmore
  exact ⟨live_queue hsound hmore, fun hended => live_ended hsound hended hmore⟩

/-- A session in Latin-1 whose connection takes little at a time and breaks in the second frame. -/
def brittle : World :=
  opened {} 1 ⟨"1", ".", [], .spawn, .latin1, 3⟩ false none
    { writer := [.takes 4, .takes 60, .takes 9, .fails "broken pipe"] }

/-- Control gets an event that has no frame, a result and another event. -/
def brittleHappenings : List Happening :=
  .turn (.step .serve) ::
    [.post (.emit (.writeString "\u20AC" none)), .post (.result 7 .abort 5),
      .post (.emit (.writeString "late" none))] ++ List.replicate 6 (.turn (.step .control))

theorem wire_intact_brittle : ∃ w, brittle.live? brittleHappenings = some w ∧
    w.session.control = .ended ∧ w.session.controlKilled = false ∧
    w.session.connection.outbound.length = 35 ∧
    (∃ done event part,
      (brittle.picks brittleHappenings).filterMap Pick.event? = done ++ [event] ∧
      w.session.connection.outbound = done.flatMap (·.frame .latin1) ++ part ∧
      part <+: event.frame .latin1 ∧ brittle.BrokeOff brittleHappenings event part) ∧
    (∃ step, (brittle.live? (brittleHappenings.take 7)).bind (·.step? .control) = some step) ∧
    ∀ more last, w.live? more = some last →
      last.session.connection.outbound = w.session.connection.outbound := by
  have hall : (brittle.live? brittleHappenings).any (fun w => w.session.control = .ended ∧
      w.session.controlKilled = false ∧ w.session.connection.outbound.length = 35) = true := by
    decide +kernel
  obtain ⟨w, hrun, hshows⟩ := (Option.any_eq_true _ _).1 hall
  obtain ⟨hended, hkilled, hlength⟩ := of_decide_eq_true hshows
  obtain ⟨⟨done, pending, part, hevents, houtbound, hpart, hrest, -⟩, -, -, -, -, hlater⟩ :=
    wire_intact (fun _ _ => rfl) hrun
  refine ⟨w, hrun, hended, hkilled, hlength, ?_, ?_, ?_⟩
  · simp only [Unwritten, hended, hkilled] at hrest
    -- nobody has killed control, so its writer has failed
    obtain ⟨hfalse, -⟩ | ⟨event, rfl, hbroke⟩ := hrest
    · cases hfalse
    · exact ⟨done, event, part, hevents, houtbound, by simpa using hpart, hbroke⟩
  · have hbusy : (brittle.live? (brittleHappenings.take 7)).any (fun w =>
        (w.session.control ≠ .absent ∧ w.session.control ≠ .ended) ∧
        w.session.control ≠ .receiving) = true := by decide +kernel
    obtain ⟨w₁, hrun₁, hshows₁⟩ := (Option.any_eq_true _ _).1 hbusy
    obtain ⟨hthere, hwriting⟩ := of_decide_eq_true hshows₁
    obtain ⟨-, -, -, -, hgoes, -⟩ := wire_intact (fun _ _ => rfl) hrun₁
    obtain ⟨w₂, hstep⟩ := hgoes hthere fun hc => absurd hc hwriting
    exact ⟨w₂, by rw [hrun₁]; exact hstep⟩
  · intro more last hmore
    exact ((hlater more last hmore).2 hended).2

end World

end EvalServer
