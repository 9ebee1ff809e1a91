import EvalServer.Message.Client
import EvalServer.Message.Server

/-!
# Mailboxes

The actors of all sessions talk through mailboxes, queues that are made when somebody first names
their owner and that stay for ever. A mailbox is known by its position in the order of making.
-/

namespace EvalServer

abbrev ActorId := Nat

/-- One evaluation request, as an evaluator gets it. -/
structure Work where
  form : Sexp
  package : String
  id : Int64
  deriving Repr, DecidableEq

/-- What actors tell each other. -/
inductive Message where
  | start
  | client (event : ClientEvent)
  | evaluate (work : Work)
  | result (actor : ActorId) (status : Status) (id : Int64)
  /-- A debugger event, before the actor is replaced by its name. -/
  | debug (actor : ActorId) (kind : DebugKind) (rest : List Sexp)
  | emit (event : ServerEvent)
  deriving Repr, DecidableEq

/-- A queue of messages and its owner. -/
structure Mailbox where
  owner : ActorId
  queue : List Message
  deriving Repr, DecidableEq

/-- All mailboxes, in the order of their making, and the last number given to an actor. -/
structure Mailboxes where
  lastActor : ActorId := 0
  boxes : List Mailbox := []
  deriving Repr, DecidableEq

namespace Mailboxes

/-- A number that no actor had before. -/
def allocate (m : Mailboxes) : ActorId × Mailboxes :=
  (m.lastActor + 1, { m with lastActor := m.lastActor + 1 })

/-- The position of an actor's mailbox, which is made if it is not there. -/
def locate (m : Mailboxes) (actor : ActorId) : Nat × Mailboxes :=
  match m.boxes.findIdx? (·.owner == actor) with
  | some i => (i, m)
  | none => (m.boxes.length, { m with boxes := m.boxes ++ [⟨actor, []⟩] })

/-- The messages that wait for an actor, the oldest first. -/
def queue (m : Mailboxes) (actor : ActorId) : List Message :=
  ((m.boxes.find? (·.owner == actor)).map (·.queue)).getD []

def setQueue (m : Mailboxes) (actor : ActorId) (queue : List Message) : Mailboxes :=
  let (i, m) := m.locate actor
  { m with boxes := m.boxes.set i ⟨actor, queue⟩ }

def send (m : Mailboxes) (actor : ActorId) (message : Message) : Mailboxes :=
  m.setQueue actor (m.queue actor ++ [message])

/-- Takes the oldest message from an actor's queue, if there is one. -/
def receive? (m : Mailboxes) (actor : ActorId) : Option (Message × Mailboxes) :=
  match m.queue actor with
  | [] => none
  | message :: rest => some (message, m.setQueue actor rest)

/-- The mailbox that a box list has for an actor after the box at its place is replaced. -/
theorem find?_set {boxes : List Mailbox} {i : Nat} {actor : ActorId} (queue : List Message)
    (h : boxes.findIdx? (·.owner == actor) = some i) (other : ActorId) :
    (boxes.set i ⟨actor, queue⟩).find? (·.owner == other) =
      if other = actor then some ⟨actor, queue⟩ else boxes.find? (·.owner == other) := by
  induction boxes generalizing i with
  | nil => simp at h
  | cons box rest ih =>
    rw [List.findIdx?_cons] at h
    by_cases ho : box.owner = actor
    · simp only [ho, beq_self_eq_true, if_true, Option.some.injEq] at h
      subst h
      by_cases hb : other = actor
      · simp [hb]
      · have hb' : ¬ actor = other := fun e => hb e.symm
        simp [hb, hb', ho]
    · simp only [beq_iff_eq, ho, if_false, Option.map_eq_some_iff] at h
      obtain ⟨j, hj, rfl⟩ := h
      by_cases hb : other = actor
      · subst hb
        simp [ho, ih hj]
      · simp [List.find?_cons, ih hj, hb]

/-- Replacing a queue changes what its owner gets, and nothing else. -/
@[simp] theorem queue_setQueue (m : Mailboxes) (actor other : ActorId) (queue : List Message) :
    (m.setQueue actor queue).queue other = if other = actor then queue else m.queue other := by
  unfold setQueue locate
  cases h : m.boxes.findIdx? (·.owner == actor) with
  | some i =>
    simp only [Mailboxes.queue, find?_set queue h]
    split <;> simp
  | none =>
    rw [List.findIdx?_eq_none_iff] at h
    simp only [Mailboxes.queue, List.set_append_right _ _ (Nat.le_refl _), Nat.sub_self,
      List.set_cons_zero, List.find?_append]
    by_cases hb : other = actor
    · subst hb
      have : m.boxes.find? (·.owner == other) = none := List.find?_eq_none.2 (by simpa using h)
      simp [this]
    · have hb' : ¬ actor = other := fun e => hb e.symm
      simp [hb, hb']

@[simp] theorem queue_send (m : Mailboxes) (actor other : ActorId) (message : Message) :
    (m.send actor message).queue other =
      if other = actor then m.queue actor ++ [message] else m.queue other := by
  simp [send]

/-- What is received was the oldest message, and only its owner's queue is shorter for it. -/
theorem receive?_eq_some_iff {m after : Mailboxes} {actor : ActorId} {message : Message} :
    m.receive? actor = some (message, after) ↔
      ∃ rest, m.queue actor = message :: rest ∧ after = m.setQueue actor rest := by
  unfold receive?
  cases m.queue actor with
  | nil => simp
  | cons a rest =>
    constructor
    · rintro ⟨rfl, rfl⟩
      exact ⟨rest, rfl, rfl⟩
    · rintro ⟨_, ⟨rfl, rfl⟩, rfl⟩
      rfl

theorem receive?_eq_none_iff {m : Mailboxes} {actor : ActorId} :
    m.receive? actor = none ↔ m.queue actor = [] := by
  unfold receive?
  cases m.queue actor <;> simp

end Mailboxes

end EvalServer
