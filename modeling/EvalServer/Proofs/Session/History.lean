import EvalServer.Proofs.Session.Evaluation
import EvalServer.Session.Step

/-!
# Runs and their histories

A run takes turns, each a step of the session or the kill of one of its actors, in any order.
What control, evaluators and jobs do to one another on the way is read off the worlds between
the turns: what enters and leaves control's mailbox, the requests that control accepts and sends
to evaluators, the hints that an evaluator finds missing and the bytes that control writes.
-/

namespace EvalServer

/-- What a turn shows of the way of requests and answers. -/
inductive Event where
  /-- Control has accepted a request and found the evaluator that its designator means. -/
  | accepted (thread : Thread) (target : ActorId) (work : Work)
  | handed (target : ActorId) (work : Work)
  /-- A message has been put into control's mailbox, by an evaluator or its job if one is named. -/
  | sent (sender : Option ActorId) (message : Message)
  | taken (message : Message)
  /-- An evaluator has brought the hints of a namespace up to date; the client lacked `delta`. -/
  | hinted (actor : ActorId) (ns : String) (delta : List Hint)
  /-- Control has written an event, of which these bytes have reached the connection. -/
  | written (event : ServerEvent) (bytes : List UInt8)
  deriving DecidableEq

abbrev History := List Event

namespace History

def accepted (h : History) : List (Thread × ActorId × Work) :=
  h.filterMap fun
    | .accepted thread target work => some (thread, target, work)
    | _ => none

def handed (h : History) : List (ActorId × Work) :=
  h.filterMap fun
    | .handed target work => some (target, work)
    | _ => none

def sent (h : History) : List (Option ActorId × Message) :=
  h.filterMap fun
    | .sent sender message => some (sender, message)
    | _ => none

def taken (h : History) : List Message :=
  h.filterMap fun
    | .taken message => some message
    | _ => none

def hinted (h : History) : List (ActorId × String × List Hint) :=
  h.filterMap fun
    | .hinted actor ns delta => some (actor, ns, delta)
    | _ => none

def written (h : History) : List (ServerEvent × List UInt8) :=
  h.filterMap fun
    | .written event bytes => some (event, bytes)
    | _ => none

def handedTo (h : History) (a : ActorId) : List Work :=
  h.handed.filterMap fun p => if p.1 = a then some p.2 else none

/-- The messages that an evaluator and its jobs have sent to control. -/
def sentBy (h : History) (a : ActorId) : List Message :=
  h.sent.filterMap fun p => if p.1 = some a then some p.2 else none

/-- The hints that an evaluator has found missing, each with their namespace. -/
def hintedBy (h : History) (a : ActorId) : List (String × List Hint) :=
  h.hinted.filterMap fun p => if p.1 = a then some p.2 else none

def results (h : History) : List (ActorId × Status × Int64) :=
  h.taken.filterMap Message.result?

def resultsOf (h : History) (a : ActorId) : List (Status × Int64) :=
  h.results.filterMap fun p => if p.1 = a then some p.2 else none

def returns (h : History) : List (Status × Int64) :=
  h.written.filterMap fun
    | (.return status id, _) => some (status, id)
    | _ => none

section append

variable (h more : History)

@[simp] lemma accepted_append : (h ++ more).accepted = h.accepted ++ more.accepted :=
  List.filterMap_append

@[simp] lemma handed_append : (h ++ more).handed = h.handed ++ more.handed :=
  List.filterMap_append

@[simp] lemma sent_append : (h ++ more).sent = h.sent ++ more.sent :=
  List.filterMap_append

@[simp] lemma taken_append : (h ++ more).taken = h.taken ++ more.taken :=
  List.filterMap_append

@[simp] lemma hinted_append : (h ++ more).hinted = h.hinted ++ more.hinted :=
  List.filterMap_append

@[simp] lemma written_append : (h ++ more).written = h.written ++ more.written :=
  List.filterMap_append

@[simp] lemma handedTo_append (a : ActorId) :
    (h ++ more).handedTo a = h.handedTo a ++ more.handedTo a := by
  simp [handedTo]

@[simp] lemma sentBy_append (a : ActorId) :
    (h ++ more).sentBy a = h.sentBy a ++ more.sentBy a := by
  simp [sentBy]

@[simp] lemma hintedBy_append (a : ActorId) :
    (h ++ more).hintedBy a = h.hintedBy a ++ more.hintedBy a := by
  simp [hintedBy]

@[simp] lemma results_append : (h ++ more).results = h.results ++ more.results := by
  simp [results]

@[simp] lemma resultsOf_append (a : ActorId) :
    (h ++ more).resultsOf a = h.resultsOf a ++ more.resultsOf a := by
  simp [resultsOf]

@[simp] lemma returns_append : (h ++ more).returns = h.returns ++ more.returns := by
  simp [returns]

end append

end History

inductive Turn where
  | step (action : Action)
  /-- An actor is killed, which takes effect when it next waits. -/
  | kill (handle : Handle)
  deriving DecidableEq

namespace World

def turn? (w : World) : Turn → Option World
  | .step action => w.step? action
  | .kill handle => some (w.change (·.kill handle))

/-- The messages that wait for control, the oldest first. -/
def controlQueue (w : World) : List Message :=
  w.image.mailboxes.queue w.session.controlId

/-- The evaluator that sends what a turn puts into control's mailbox. -/
def sender? (w : World) : Turn → Option ActorId
  | .step (.evaluator id) => some id
  | .step (.job index) => (w.session.jobs[index]?).map Job.actor
  | _ => none

/-- What enters and leaves a mailbox that held `before` and holds `after`. -/
def mailEvents (sender : Option ActorId) (before after : List Message) : History :=
  (after.drop before.length).map (.sent sender) ++
    (before.take (before.length - after.length)).map .taken

/-- What control does with requests and events in a step from `w` to `w'`. -/
def controlEvents (w w' : World) : History :=
  match w.session.control, w'.session.control with
  | .receiving, .entering target work =>
    match w.controlQueue with
    | .client (.evaluate _ _ thread _) :: _ => [.accepted thread target work]
    | _ => []
  | .handing target work, _ => [.handed target work]
  | .writing event, _ =>
    [.written event
      (w'.session.connection.outbound.drop w.session.connection.outbound.length)]
  | _, _ => []

/-- The hints that an evaluator brings up to date in its next step. -/
def hintEvents (w : World) (id : ActorId) : History :=
  match (w.session.evaluator? id).map Evaluator.phase with
  | some (.hinting _ _ ns) => [.hinted id ns (w.session.hints.update (indentationHints ns)).1]
  | _ => []

def observe (w : World) (turn : Turn) (w' : World) : History :=
  mailEvents (w.sender? turn) w.controlQueue w'.controlQueue ++
    match turn with
    | .step .control | .step (.cut _) => w.controlEvents w'
    | .step (.evaluator id) => w.hintEvents id
    | _ => []

/-- Turns taken one after the other, if they can be, and what they show. -/
def play? (w : World) : List Turn → Option (History × World)
  | [] => some ([], w)
  | turn :: rest => do
    let w' ← w.turn? turn
    let (h, last) ← w'.play? rest
    return (w.observe turn w' ++ h, last)

/-- A session as it starts to serve a connection, with numbers of its own. -/
def opened (image : Image) (id : Nat) (host : Host) (wantsOutput : Bool)
    (outputPort : Option UInt16) (connection : Connection) : World :=
  let (session, mailboxes) := Session.create image.mailboxes id host wantsOutput outputPort
  start ⟨{ image with mailboxes }, { session with connection }⟩

theorem play_induction {w : World} {P : History → World → Prop} (start : P [] w)
    (next : ∀ h w₁ turn w₂, P h w₁ → w₁.turn? turn = some w₂ → P (h ++ w₁.observe turn w₂) w₂)
    {turns : List Turn} {h : History} {last : World} (hrun : w.play? turns = some (h, last)) :
    P h last := by
  have general : ∀ (turns : List Turn) (w : World) (h₀ h : History) (last : World), P h₀ w →
      w.play? turns = some (h, last) → P (h₀ ++ h) last := by
    intro turns
    induction turns with
    | nil =>
      intro w h₀ h last hw hrun
      simp only [play?, Option.some.injEq, Prod.mk.injEq] at hrun
      obtain ⟨rfl, rfl⟩ := hrun
      simpa using hw
    | cons turn rest ih =>
      intro w h₀ h last hw hrun
      simp only [play?, Option.bind_eq_bind, Option.bind_eq_some_iff, Option.pure_def,
        Option.some.injEq, Prod.mk.injEq, Prod.exists] at hrun
      obtain ⟨w', hturn, h', last', hrest, rfl, rfl⟩ := hrun
      have := ih w' (h₀ ++ w.observe turn w') h' last' (next h₀ w turn w' hw hturn) hrest
      rwa [List.append_assoc] at this
  exact general turns w [] h last start hrun

end World

/-- No message waits for an actor whose number has not been given yet. -/
def Mailboxes.Fresh (m : Mailboxes) : Prop :=
  ∀ a, m.lastActor < a → m.queue a = []

end EvalServer
