import EvalServer.Proofs.Session.Belongings
import EvalServer.Proofs.Session.Reading
import EvalServer.Proofs.Session.Teardown
import EvalServer.Proofs.Session.Wire

/-!
# Around the reader

Whatever else happens in a session, whatever goes on elsewhere, and whatever messages anybody sends
to its reader or its control loop: others add to the reader's mailbox and to what has come over the
connection, start the reader once, and end it where it waits after it has been killed. Everything
else about it is its own doing.
-/

namespace EvalServer

open Traffic

/-- What may occur while a session goes on. -/
inductive Occurrence where
  | happening (x : Happening)
  /-- Anybody sends a message to the reader. -/
  | notice (message : Message)
  /-- Others go on, and leave what they share with the session like this. -/
  | elsewhere (image : Image)
  deriving DecidableEq

namespace Occurrence

/-- A step of the reader. -/
abbrev reading : Occurrence :=
  .happening (.turn (.step .reader))

def isReaders : Occurrence → Bool
  | .happening (.turn (.step .reader)) => true
  | _ => false

lemma eq_reading {x : Occurrence} (hx : x.isReaders = true) : x = .reading := by
  unfold isReaders at hx
  split at hx
  · rfl
  · cases hx

/-- What it brings over the connection. -/
def brings : Occurrence → Delivery
  | .happening (.turn (.step (.deliver arrival))) => .arrived arrival
  | _ => []

end Occurrence

namespace World

/-- The messages that wait for the reader, the oldest first. -/
def readerQueue (w : World) : List Message :=
  w.image.mailboxes.queue w.session.readerId

/-- Others leave the mailboxes of a session's actors alone, and those that nobody has yet. -/
def Admits (w : World) (image : Image) : Prop :=
  (∀ a ∈ w.session.numbers, image.mailboxes.queue a = w.image.mailboxes.queue a) ∧
    w.image.mailboxes.lastActor ≤ image.mailboxes.lastActor ∧
    ∀ box ∈ image.mailboxes.boxes, image.mailboxes.lastActor < box.owner → box.queue = []

instance (w : World) (image : Image) : Decidable (w.Admits image) :=
  inferInstanceAs (Decidable (_ ∧ _ ∧ _))

def occur? (w : World) : Occurrence → Option World
  | .happening x => w.happen? x
  | .notice message => some (w.send w.session.readerId message)
  | .elsewhere image => if w.Admits image then some ⟨image, w.session⟩ else none

variable {w w' : World}

/-! ## Mailboxes -/

section mail

lemma elsewhere_spec {image : Image} (h : w.occur? (.elsewhere image) = some w') :
    w.Admits image ∧ w' = ⟨image, w.session⟩ := by
  simp only [occur?] at h
  split at h
  · next hadmits => exact ⟨hadmits, (Option.some.inj h).symm⟩
  · cases h

/-- A mailbox stays, or its oldest message is taken, or one is put into it. -/
def Moves (before after : List Message) : Prop :=
  after = before ∨ (∃ m, before = m :: after) ∨ ∃ m, after = before ++ [m]

/-- What is taken from a mailbox and what is put into it account for what it holds. -/
lemma Moves.account {before after : List Message} (h : Moves before after)
    (sender : Option ActorId) : (mailEvents sender before after).taken ++ after =
      before ++ (mailEvents sender before after).sent.map Prod.snd := by
  rcases h with rfl | ⟨m, rfl⟩ | ⟨m, rfl⟩
  · simp [mailEvents_self, History.taken, History.sent]
  · simp [mailEvents_cons, History.taken, History.sent]
  · simp [mailEvents_append, History.taken, History.sent]

lemma moves_send (w : World) (b : ActorId) (m : Message) (a : ActorId) :
    Moves (w.image.mailboxes.queue a) ((w.send b m).image.mailboxes.queue a) := by
  simp only [send, Mailboxes.queue_send]
  split
  · next h => exact .inr (.inr ⟨m, by rw [h]⟩)
  · exact .inl rfl

lemma occur_mail (hsound : w.traffic.Sound) {x : Occurrence} (h : w.occur? x = some w')
    {a : ActorId} (ha : a ∈ w.session.numbers) :
    Moves (w.image.mailboxes.queue a) (w'.image.mailboxes.queue a) := by
  cases x with
  | notice m =>
    cases h
    exact moves_send w _ m a
  | elsewhere image =>
    obtain ⟨hadmits, rfl⟩ := elsewhere_spec h
    exact .inl (hadmits.1 a ha)
  | happening x =>
    cases x with
    | post m =>
      cases h
      exact moves_send w _ m a
    | turn turn =>
      cases turn with
      | kill handle =>
        cases h
        exact .inl rfl
      | step action =>
        exact (step_mail hsound h a).imp_right fun ⟨_, hmoves⟩ => hmoves.imp_right And.right

lemma fresh_of_boxes {m : Mailboxes}
    (h : ∀ box ∈ m.boxes, m.lastActor < box.owner → box.queue = []) : m.Fresh := by
  intro a ha
  unfold Mailboxes.queue
  cases hfind : m.boxes.find? (·.owner == a) with
  | none => rfl
  | some box =>
    have howner : box.owner = a := by simpa using List.find?_some hfind
    exact h box (List.mem_of_find?_eq_some hfind) (howner ▸ ha)

lemma occur_sound (hsound : w.traffic.Sound) {x : Occurrence} (h : w.occur? x = some w') :
    w'.traffic.Sound := by
  cases x with
  | happening x => exact happen_sound hsound h
  | notice m =>
    cases h
    exact w.traffic_send _ m ▸ hsound.move (.readerMail _)
  | elsewhere image =>
    obtain ⟨⟨hqueue, hlast, hboxes⟩, rfl⟩ := elsewhere_spec h
    exact sound_elsewhere hsound hqueue hlast (fresh_of_boxes hboxes)

/-- Nobody but the service and the reader itself changes the reader's mailbox. -/
lemma StaffMail.readerQueue (hsound : w.traffic.Sound) {mayPut : Prop}
    (hmail : StaffMail mayPut w w') : w'.image.mailboxes.queue w.session.readerId =
      w.image.mailboxes.queue w.session.readerId := by
  refine (hmail w.session.readerId).resolve_right fun ⟨hmem, _⟩ => ?_
  have hreader : w.session.readerId < w.session.controlId := hsound.reader_lt
  rcases List.mem_cons.1 hmem with hcontrol | hmem
  · exact Nat.ne_of_lt hreader hcontrol
  · exact Nat.lt_asymm hreader (hsound.control_lt _ hmem)

end mail

/-! ## Steps of others -/

section others

/-- What anything but a step of the reader leaves of the reader, and brings over its connection. -/
structure Spares (w : World) (brought : Delivery) (w' : World) : Prop where
  host : w'.session.host = w.session.host
  ids : w'.session.readerId = w.session.readerId ∧ w'.session.controlId = w.session.controlId
  inbound : w'.session.connection.inbound = w.session.connection.inbound ++ brought
  ended : w.session.connection.ended = true → brought = [] ∧ w'.session.connection.ended = true
  reader : w'.session.reader = w.session.reader ∨
    (w.session.reader = .absent ∧ w'.session.reader = .waiting) ∨
    (w.session.reader ∈ [.waiting, .reading] ∧ w.session.readerKilled = true ∧
      w'.session.reader = .ended)
  killed : w.session.readerKilled = true → w'.session.readerKilled = true
  queue : w.readerQueue <+: w'.readerQueue

lemma Spares.ended_of_ended {brought : Delivery} (h : w.Spares brought w')
    (hended : w.session.reader = .ended) : w'.session.reader = .ended := by
  rcases h.reader with hsame | ⟨habsent, -⟩ | ⟨hwaits, -⟩
  · exact hsame.trans hended
  · rw [hended] at habsent
    cases habsent
  · simp [hended] at hwaits

/-- The connection is left alone. -/
lemma spares_of_still (hsame : (w'.session.host, w'.session.readerId, w'.session.controlId,
      w'.session.connection.inbound, w'.session.connection.ended) =
    (w.session.host, w.session.readerId, w.session.controlId, w.session.connection.inbound,
      w.session.connection.ended))
    (hreader : w'.session.reader = w.session.reader ∨
      (w.session.reader = .absent ∧ w'.session.reader = .waiting) ∨
      (w.session.reader ∈ [.waiting, .reading] ∧ w.session.readerKilled = true ∧
        w'.session.reader = .ended))
    (hkilled : w.session.readerKilled = true → w'.session.readerKilled = true)
    (hqueue : w.image.mailboxes.queue w.session.readerId <+:
      w'.image.mailboxes.queue w.session.readerId) : w.Spares [] w' := by
  simp only [Prod.mk.injEq] at hsame
  obtain ⟨hhost, hreaderId, hcontrolId, hinbound, hended⟩ := hsame
  refine ⟨hhost, ⟨hreaderId, hcontrolId⟩, ?_, fun h => ⟨rfl, hended.trans h⟩, hreader, hkilled, ?_⟩
  · rw [hinbound, List.append_nil]
  · rw [readerQueue, readerQueue, hreaderId]
    exact hqueue

/-- Reader and connection are left alone. -/
lemma spares_of_same (hsame : (w'.session.host, w'.session.readerId, w'.session.controlId,
      w'.session.connection.inbound, w'.session.connection.ended, w'.session.reader) =
    (w.session.host, w.session.readerId, w.session.controlId, w.session.connection.inbound,
      w.session.connection.ended, w.session.reader))
    (hkilled : w.session.readerKilled = true → w'.session.readerKilled = true)
    (hqueue : w'.image.mailboxes.queue w.session.readerId =
      w.image.mailboxes.queue w.session.readerId) : w.Spares [] w' := by
  simp only [Prod.mk.injEq] at hsame
  obtain ⟨hhost, hreaderId, hcontrolId, hinbound, hended, hreader⟩ := hsame
  refine spares_of_still ?_ (.inl hreader) hkilled (hqueue ▸ List.prefix_refl _)
  rw [hhost, hreaderId, hcontrolId, hinbound, hended]

lemma kill_keeps (s : Session) (handle : Handle) (h : s.readerKilled = true) :
    (s.kill handle).readerKilled = true := by
  cases handle with
  | reader => rfl
  | control | evaluator | output => exact h

lemma closeStep_keeps {phase phase' : ClosePhase} (h : w.closeStep? phase = some (w', phase'))
    (hkilled : w.session.readerKilled = true) : w'.session.readerKilled = true := by
  cases phase with
  | marking =>
    simp only [closeStep?] at h
    split at h <;> cases h <;> exact hkilled
  | taking | aborting | silencing =>
    cases h
    exact hkilled
  | killing handles =>
    cases handles with
    | nil =>
      cases h
      exact hkilled
    | cons handle rest =>
      cases h
      exact kill_keeps _ handle hkilled
  | ended => cases h

/-- A reader that is ended from outside has been killed, and waits. -/
lemma readerEnd_spec (h : w.readerEnd? = some w') :
    w.session.reader ∈ [.waiting, .reading] ∧ w.session.readerKilled = true := by
  unfold readerEnd? at h
  cases hreader : w.session.reader with
  | absent | ended => simp [hreader] at h
  | waiting | reading =>
    simp only [hreader] at h
    split at h
    · next hkilled => exact ⟨by simp, hkilled⟩
    · cases h

lemma spares_close {phase phase' : ClosePhase} (h : w.closeStep? phase = some (w', phase')) :
    w.Spares [] w' := by
  obtain ⟨himage, _, _, _, _, _, _, _, _, hsession, -⟩ := closeStep_frame h
  exact spares_of_same (by rw [hsession]) (closeStep_keeps h) (by rw [himage])

lemma spares_serve (hsound : w.traffic.Sound) (hstaged : w.Staged)
    (h : w.serveStep? = some w') : w.Spares [] w' := by
  have hne : w.session.readerId ≠ w.session.controlId := Nat.ne_of_lt hsound.reader_lt
  unfold serveStep? at h
  cases hservice : w.session.service with
  | absent | ended => simp [hservice] at h
  | startingReader =>
    simp only [hservice, Option.some.injEq] at h
    subst h
    have habsent := hstaged.reader (by simp [hservice])
    exact spares_of_still rfl (.inr (.inl ⟨habsent, rfl⟩)) id (List.prefix_refl _)
  | startingRepl =>
    simp only [hservice, Option.some.injEq] at h
    subst h
    obtain ⟨-, _, _, _, _, hsession, -⟩ := ensureRepl_frame w
    refine spares_of_same ?_ ?_ (congrFun w.mails_ensureRepl.queue_eq _)
    · simp only [goServe, change, hsession]
    · simp only [goServe, change, hsession]
      exact id
  | announcingOutput port =>
    simp only [hservice, Option.some.injEq] at h
    subst h
    refine spares_of_same rfl id ?_
    simp only [goServe, change, emit, tell, send, Mailboxes.queue_send, if_neg hne]
  | starting =>
    -- the start message is the only one that the service sends to the reader
    simp only [hservice, Option.some.injEq] at h
    subst h
    refine spares_of_still rfl (.inl rfl) id ?_
    simp [goServe, change, send]
  | opening | serving =>
    simp only [hservice] at h
    split at h <;> cases h <;> exact spares_of_same rfl id rfl
  | closing phase =>
    simp only [hservice] at h
    split at h
    · next w₁ phase' hclose =>
      cases h
      obtain ⟨hhost, hids, hinbound, hended, hreader, hkilled, hqueue⟩ := spares_close hclose
      exact ⟨hhost, hids, hinbound, hended, hreader, hkilled, hqueue⟩
    · cases h
      exact spares_of_same rfl id rfl
  | _ =>
    simp only [hservice, Option.some.injEq] at h
    subst h
    exact spares_of_same rfl id rfl

lemma spares_step (hsound : w.traffic.Sound) (hstaged : w.Staged) {action : Action}
    (haction : action ≠ .reader) (h : w.step? action = some w') :
    w.Spares (Occurrence.happening (.turn (.step action))).brings w' := by
  by_cases hserve : action = .serve
  · subst hserve
    exact spares_serve hsound hstaged h
  · have hqueue := (staff_mail hsound hserve haction h).readerQueue hsound
    cases action with
    | serve => exact absurd rfl hserve
    | reader => exact absurd rfl haction
    | control =>
      have hkeeps := (control_keeps h).1
      simp only [Prod.mk.injEq] at hkeeps
      obtain ⟨_, _, _, _, _, _, hsession⟩ := control_frame h
      refine spares_of_same ?_ (by rw [hsession]; exact id) hqueue
      simp only [hkeeps]
      rw [hsession]
    | evaluator a =>
      obtain ⟨-, _, _, _, _, hsession, -⟩ :=
        evaluator_frame (fun e he => ne_controlId hsound he) h
      exact spares_of_same (by rw [hsession]) (by rw [hsession]; exact id) hqueue
    | job index =>
      obtain ⟨-, _, _, _, hsession⟩ := job_frame h
      exact spares_of_same (by rw [hsession]) (by rw [hsession]; exact id) hqueue
    | output =>
      obtain ⟨output, rfl⟩ := output_frame (.inl h)
      exact spares_of_same rfl id hqueue
    | connectOutput =>
      obtain ⟨output, rfl⟩ := output_frame (.inr (.inl h))
      exact spares_of_same rfl id hqueue
    | close index =>
      obtain ⟨p, p', w₁, -, hclose, rfl⟩ := closer_spec h
      obtain ⟨hhost, hids, hinbound, hended, hreader, hkilled, hqueue⟩ := spares_close hclose
      exact ⟨hhost, hids, hinbound, hended, hreader, hkilled, hqueue⟩
    | finish handle =>
      cases handle with
      | reader =>
        obtain ⟨hreader, hkilled⟩ := readerEnd_spec h
        rw [readerEnd_frame h]
        exact spares_of_still rfl (.inr (.inr ⟨hreader, hkilled, rfl⟩)) id (List.prefix_refl _)
      | control =>
        obtain ⟨-, -, rfl⟩ := controlEnd_spec h
        exact spares_of_same rfl id hqueue
      | evaluator a =>
        rw [evaluatorEnd_frame h] at hqueue ⊢
        exact spares_of_same rfl id hqueue
      | output =>
        obtain ⟨output, rfl⟩ := output_frame (.inr (.inr h))
        exact spares_of_same rfl id hqueue
    | cut calls =>
      obtain ⟨_, _, -, -, -, rfl⟩ := cutShort_spec h
      exact spares_of_same rfl id hqueue
    | wake index =>
      obtain ⟨jobs, rfl⟩ := wake_frame h
      exact spares_of_same rfl id hqueue
    | deliver arrival =>
      simp only [step?] at h
      split at h
      · cases h
      · next hopen =>
        cases h
        exact ⟨rfl, ⟨rfl, rfl⟩, Connection.inbound_arrive _ arrival, fun h => absurd h hopen,
          .inl rfl, id, List.prefix_refl _⟩
    | endInput =>
      cases h
      exact ⟨rfl, ⟨rfl, rfl⟩, (List.append_nil _).symm, fun _ => ⟨rfl, rfl⟩, .inl rfl, id,
        List.prefix_refl _⟩
    | hangUp | beginClose =>
      cases h
      exact spares_of_same rfl id hqueue

/-- Whatever happens but a step of the reader spares it. -/
theorem occur_spares (hsound : w.traffic.Sound) (hstaged : w.Staged) {x : Occurrence}
    (hx : x.isReaders = false) (h : w.occur? x = some w') : w.Spares x.brings w' := by
  have hne : w.session.readerId ≠ w.session.controlId := Nat.ne_of_lt hsound.reader_lt
  cases x with
  | notice m =>
    cases h
    refine spares_of_still rfl (.inl rfl) id ?_
    simp [send]
  | elsewhere image =>
    obtain ⟨hadmits, rfl⟩ := elsewhere_spec h
    exact spares_of_same rfl id (hadmits.1 _ List.mem_cons_self)
  | happening x =>
    cases x with
    | post m =>
      cases h
      refine spares_of_same rfl id ?_
      simp only [tell, send, Mailboxes.queue_send, if_neg hne]
    | turn turn =>
      cases turn with
      | kill handle =>
        cases h
        obtain ⟨_, _, _, _, hkill, -⟩ := kill_frame w.session handle
        exact spares_of_same (by simp only [change, hkill]) (kill_keeps _ handle) rfl
      | step action =>
        refine spares_step hsound hstaged ?_ h
        rintro rfl
        cases hx

end others

/-! ## Steps of the reader -/

section reading

/-- What a step of the reader does: it takes a message, which may be to start; it hears a message
from the client, of which it tells control; or it stops. -/
inductive Reads (w : World) : World → Prop
  | heed {m : Message} {w' : World} : w.session.reader = .waiting →
      w.readerQueue = m :: w'.readerQueue → w'.controlQueue = w.controlQueue →
      w'.session = { w.session with reader := if m = .start then .reading else .waiting } →
      Reads w w'
  | hear {v : Sexp} {inbound : Delivery} {w' : World} : w.session.reader = .reading →
      Frame.read w.session.host.coding w.session.connection.inbound = (.ok v, inbound) →
      w'.readerQueue = w.readerQueue →
      w'.controlQueue = w.controlQueue ++ [.client (.ofSexp v)] →
      w'.session = { w.session with connection := { w.session.connection with inbound } } →
      Reads w w'
  | stop {e : FramingError} {inbound : Delivery} {w' : World} : w.session.reader = .reading →
      Frame.read w.session.host.coding w.session.connection.inbound = (.error e, inbound) →
      (e.isShortage = true → w.session.connection.ended = true) →
      w'.readerQueue = w.readerQueue → w'.controlQueue = w.controlQueue →
      w'.session = { w.session with
        connection := { w.session.connection with inbound }, reader := .ended } → Reads w w'

theorem reader_reads (hsound : w.traffic.Sound) (h : w.readerStep? = some w') : w.Reads w' := by
  have hne : w.session.readerId ≠ w.session.controlId := Nat.ne_of_lt hsound.reader_lt
  unfold readerStep? at h
  cases hreader : w.session.reader with
  | absent | ended => simp [hreader] at h
  | waiting =>
    simp only [hreader, Option.bind_eq_bind, Option.bind_eq_some_iff, Option.pure_def,
      Option.some.injEq, Prod.exists] at h
    obtain ⟨m, ⟨image, session⟩, hreceive, rfl⟩ := h
    obtain ⟨hcontrol, -⟩ := receive_other hne hreceive
    obtain ⟨rest, hqueue, htraffic, rfl⟩ := receive?_spec hreceive
    have hrest : image.mailboxes.queue w.session.readerId = rest := by
      have hafter := congrFun (congrArg Traffic.queue htraffic) w.session.readerId
      rwa [queue_setQueue, if_pos rfl] at hafter
    have hheld : w.readerQueue = m :: image.mailboxes.queue w.session.readerId :=
      hrest ▸ hqueue
    split
    · next hstart => exact .heed hreader hheld hcontrol (by simp [hstart, goReader, change])
    · next hstart => exact .heed hreader hheld hcontrol (by simp [hstart, ← hreader])
  | reading =>
    simp only [hreader, readFrame?] at h
    cases hread : Frame.read w.session.host.coding w.session.connection.inbound with
    | mk result inbound =>
      rw [hread] at h
      cases result with
      | ok v =>
        cases h
        refine .hear hreader hread ?_ (controlQueue_tell _ _) rfl
        simp only [readerQueue, tell, send, change, Mailboxes.queue_send, if_neg hne]
      | error e =>
        simp only at h
        split at h
        · cases h
        · next hgo =>
          cases h
          exact .stop hreader hread (by simpa using hgo) rfl rfl rfl

end reading

end World

end EvalServer
