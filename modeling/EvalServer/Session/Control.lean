import EvalServer.Session.Lifecycle

/-!
# The control loop

The control loop takes one message after another from its mailbox. It hands requests to
evaluators, raises interrupts, passes on answers, and is the only actor that writes to the
connection. A message that cannot be encoded is left out; a connection that cannot be written to
ends the loop. Unknown messages, and those that mean no actor or prompt, change nothing. A kill may
end the loop in the middle of a frame.
-/

namespace EvalServer

namespace World

def goControl (w : World) (control : ControlPhase) : World :=
  w.change fun s => { s with control }

/-- The evaluator that gets a request; requests to any thread get a worker of their own. -/
def resolve (w : World) : Thread → Option ActorId × World
  | .any => let (id, w) := w.startWorker; (some id, w)
  | .repl => let (id, w) := w.ensureRepl; (some id, w)
  | thread => (w.session.findActor thread, w)

def answerPrompt (w : World) (tag : Nat) (answer : ClientAnswer) : World :=
  w.change fun s => { s with prompts := (s.prompts.resolve tag answer).2 }

/-- Takes the first step of handling a client's message. -/
def handleClient (w : World) : ClientEvent → World
  | .evaluate form package thread id =>
    match w.resolve thread with
    | (some target, w) => w.goControl (.entering target ⟨form, package, id⟩)
    | (none, w) => w
  | .interrupt thread =>
    match w.session.interruptTarget thread with
    | some target => w.goControl (.raising target)
    | none => w
  | .returnString _ tag text => w.answerPrompt tag (.text text)
  | .returnValue _ tag value => w.answerPrompt tag (.value value)
  | .unknown _ => w

/-- Takes the first step of handling a message. -/
def handle (w : World) : Message → World
  | .client event => w.handleClient event
  | .result actor status id =>
    (w.change fun s => { s with active := s.active.remove actor }).goControl
      (.writing (.return status id))
  | .debug actor kind rest =>
    let name := (w.session.actorName actor).getD (Text.Decimal.natText actor)
    w.goControl (.writing (.debug kind name rest))
  | .emit event => w.goControl (.writing event)
  | .start | .evaluate _ => w

def write (w : World) (event : ServerEvent) : World :=
  let c := w.session.connection
  let (taken, failure, writer) := Frame.send w.session.host.coding c.writer event.toSexp
  let w := w.change fun s =>
    { s with connection := { c with outbound := c.outbound ++ taken, writer } }
  match failure with
  | some (.io _) => w.goControl .ended
  | _ => w.goControl .receiving

/-- The next step of the control loop, if it can do anything. -/
def controlStep? (w : World) : Option World :=
  match w.session.control with
  | .absent | .ended => none
  | .receiving => do
    let (message, w) ← w.receive? w.session.controlId
    return w.handle message
  | .entering target work =>
    some ((w.change fun s => { s with active := s.active.add target }).goControl
      (.handing target work))
  | .handing target work => some ((w.send target (.evaluate work)).goControl .receiving)
  | .raising target =>
    match w.session.raise target with
    | (true, session) => some (({ w with session } : World).goControl (.aborting target))
    | (false, _) => some (w.goControl .receiving)
  | .aborting target => some ((w.change (·.abortPrompts target)).goControl .receiving)
  | .writing event => some (w.write event)

/-- A killed control loop ends where it waits: for a message, or for the connection. -/
def controlEnd? (w : World) : Option World :=
  match w.session.control with
  | .receiving | .writing _ =>
    if w.session.controlKilled then some (w.goControl .ended) else none
  | _ => none

/-- A killed control loop ends while it writes, after so many calls of the connection's writer. -/
def cutShort? (w : World) (calls : Nat) : Option World :=
  let c := w.session.connection
  match w.session.control with
  | .writing event =>
    if w.session.controlKilled then
      let taken := Frame.sentIn w.session.host.coding calls c.writer event.toSexp
      some ((w.change fun s =>
        { s with connection := { c with outbound := c.outbound ++ taken } }).goControl .ended)
    else none
  | _ => none

end World

end EvalServer
