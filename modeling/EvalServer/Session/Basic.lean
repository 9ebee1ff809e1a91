import EvalServer.Evaluation.EditorCall
import EvalServer.Frame.Delivery
import EvalServer.Frame.Transmission
import EvalServer.Session.Active
import EvalServer.Session.Indentation
import EvalServer.Session.Prompts
import EvalServer.Session.Quit

/-!
# Sessions

A session serves one connection. Its reader forwards the client's messages to its control loop,
which hands requests to evaluators, one that stays (the REPL) and any number of workers for one
request each. Everything an actor does is a sequence of steps, and each type of phase below says
which step comes next; between two steps of one actor any others may be taken.
-/

namespace EvalServer

/-- What all sessions of a process share. -/
structure Image where
  mailboxes : Mailboxes := {}
  bindings : Bindings := {}
  files : File.Store := {}
  quit : QuitSignal := {}
  deriving Repr, DecidableEq

/-- Both ends of a connection, as the session finds them. -/
structure Connection where
  /-- What has come from the client and has not been read. -/
  inbound : Delivery := []
  ended : Bool := false
  writer : Writer := []
  outbound : List UInt8 := []
  deriving Repr, DecidableEq

/-- Something comes from the client; no bytes are nothing. -/
def Connection.arrive (c : Connection) (arrival : Arrival) : Connection :=
  if arrival = .bytes [] then c else { c with inbound := c.inbound ++ [arrival] }

/-- An actor's handle, kept for the closing of the session. -/
inductive Handle where
  | reader
  | control
  | evaluator (id : ActorId)
  /-- The task that serves the dedicated output stream. -/
  | output
  deriving Repr, DecidableEq

/-- The actors the session knows of. -/
structure ActorTable where
  reader : Bool := false
  control : Bool := false
  repl : Option ActorId := none
  workers : List ActorId := []
  output : Bool := false
  deriving Repr, DecidableEq

def ActorTable.evaluators (t : ActorTable) : List ActorId :=
  t.repl.toList ++ t.workers

/-- The handles of a table, in the order in which they are killed. -/
def ActorTable.handles (t : ActorTable) : List Handle :=
  (if t.reader then [.reader] else []) ++ (if t.control then [.control] else []) ++
    t.evaluators.map .evaluator ++ (if t.output then [.output] else [])

/-- What the reader does next. -/
inductive ReaderPhase where
  | absent
  /-- It waits for the start message. -/
  | waiting
  | reading
  | ended
  deriving Repr, DecidableEq

/-- What the control loop does next. -/
inductive ControlPhase where
  | absent
  | receiving
  /-- A request is entered among the active evaluations. -/
  | entering (target : ActorId) (work : Work)
  /-- A request is sent to its evaluator. -/
  | handing (target : ActorId) (work : Work)
  /-- The interrupt flag of an evaluator is raised. -/
  | raising (target : ActorId)
  /-- The prompts of an interrupted evaluator are aborted. -/
  | aborting (target : ActorId)
  | writing (event : ServerEvent)
  | ended
  deriving Repr, DecidableEq

/-- What an evaluator does next. -/
inductive EvaluatorPhase where
  | receiving
  /-- A request has been received; the interrupt flag is still to be lowered. -/
  | taken (work : Work)
  | evaluating (work : Work) (job : Nat)
  /-- The client is told of a change of namespace. -/
  | announcing (work : Work) (value : Sexp) (ns : String)
  /-- The client's table of hints is brought up to date. -/
  | hinting (work : Work) (value : Sexp) (ns : String)
  /-- The messages that end a request are sent. -/
  | posting (messages : List Message)
  /-- A worker takes itself off the table. -/
  | leaving
  | ended
  deriving Repr, DecidableEq

structure Evaluator where
  id : ActorId
  name : String
  /-- A worker ends after one message. -/
  worker : Bool
  raised : Bool := false
  killed : Bool := false
  phase : EvaluatorPhase := .receiving
  deriving Repr, DecidableEq

def Evaluator.isAlive (e : Evaluator) : Bool :=
  e.phase ≠ .ended

/-- A computation of a session. -/
abbrev Course := Computation (Except EvalError Sexp)

/-- What happens to a prompt next. -/
inductive PromptPhase where
  | showing
  | looking
  /-- The flag was raised: the actor's prompts are aborted. -/
  | aborting
  | waiting
  /-- The prompt was aborted: the client is told. -/
  | withdrawing
  deriving Repr, DecidableEq

/-- What a job does next. -/
inductive JobPhase where
  | computing (course : Course)
  | resting (milliseconds : Nat) (course : Course)
  /-- Output that the dedicated stream did not take is sent as an event. -/
  | printing (text : String) (course : Course)
  /-- Those who wait for the quit signal are woken. -/
  | waking (course : Course)
  | prompting (phase : PromptPhase) (tag : Nat) (question : Question)
      (next : Option question.Answer → Course)
  | ended (result : Except EvalError Sexp)

/-- The interrupt flag that a job looks at. -/
inductive JobFlag where
  /-- That of the evaluator it works for. -/
  | shared
  | own (raised : Bool)
  deriving Repr, DecidableEq

/-- A computation on behalf of an actor. It goes on if the actor is killed. -/
structure Job where
  actor : ActorId
  flag : JobFlag := .shared
  ns : String
  phase : JobPhase

/-- What the task that serves the dedicated output stream does next. -/
inductive OutputPhase where
  | absent
  | listening
  | connected
  | serving
  | failing
  | ended
  deriving Repr, DecidableEq

structure Output where
  phase : OutputPhase := .absent
  killed : Bool := false
  /-- Whether program output goes to the stream. -/
  installed : Bool := false
  queue : List String := []
  writer : Writer := []
  written : List UInt8 := []
  deriving Repr, DecidableEq

/-- What somebody who closes the session does next. -/
inductive ClosePhase where
  | marking
  | taking
  | killing (handles : List Handle)
  | aborting
  /-- Program output leaves the dedicated stream. -/
  | silencing
  | ended
  deriving Repr, DecidableEq

/-- What the task that serves the connection does next. -/
inductive ServePhase where
  | absent
  | startingControl
  | startingReader
  /-- The handles of reader and control loop are entered in the table. -/
  | recording
  | startingRepl
  /-- The dedicated output stream is opened on the port that the system gives. -/
  | opening
  | recordingOutput (port : UInt16)
  | announcingOutput (port : UInt16)
  /-- The reader is told to start. -/
  | starting
  | serving
  | closing (phase : ClosePhase)
  | ended
  deriving Repr, DecidableEq

structure Session where
  id : Nat
  host : Host
  /-- Whether the client gets a dedicated output stream. -/
  wantsOutput : Bool
  /-- The port that the system gives to the dedicated output stream, if it gives one. -/
  outputPort : Option UInt16
  readerId : ActorId
  controlId : ActorId
  connection : Connection := {}
  service : ServePhase := .absent
  closed : Bool := false
  table : ActorTable := {}
  active : ActiveSet := {}
  prompts : Prompts := {}
  hints : HintTable := {}
  reader : ReaderPhase := .absent
  readerKilled : Bool := false
  control : ControlPhase := .absent
  controlKilled : Bool := false
  evaluators : List Evaluator := []
  jobs : List Job := []
  output : Output := {}
  /-- Those who close the session from outside. -/
  closers : List ClosePhase := []

/-- A session and what it shares with others. -/
structure World where
  image : Image
  session : Session

namespace Session

/-- The evaluator of a number. -/
def evaluator? (s : Session) (id : ActorId) : Option Evaluator :=
  s.evaluators.find? (·.id == id)

/-- Whether an evaluator of a number has been started and has not ended. -/
def isAlive (s : Session) (id : ActorId) : Bool :=
  (s.evaluator? id).any Evaluator.isAlive

def changeEvaluator (s : Session) (id : ActorId) (f : Evaluator → Evaluator) : Session :=
  { s with evaluators := s.evaluators.map fun e => if e.id = id then f e else e }

def setPhase (s : Session) (id : ActorId) (phase : EvaluatorPhase) : Session :=
  s.changeEvaluator id fun e => { e with phase }

/-- Starts a job, of which it returns the position. -/
def startJob (s : Session) (job : Job) : Nat × Session :=
  (s.jobs.length, { s with jobs := s.jobs ++ [job] })

/-- A new session, with numbers for its reader and its control loop. -/
def create (mailboxes : Mailboxes) (id : Nat) (host : Host) (wantsOutput : Bool)
    (outputPort : Option UInt16) : Session × Mailboxes :=
  let (readerId, mailboxes) := mailboxes.allocate
  let (controlId, mailboxes) := mailboxes.allocate
  ({ id, host, wantsOutput, outputPort, readerId, controlId }, mailboxes)

end Session

namespace World

def send (w : World) (actor : ActorId) (message : Message) : World :=
  { w with image := { w.image with mailboxes := w.image.mailboxes.send actor message } }

def tell (w : World) (message : Message) : World :=
  w.send w.session.controlId message

/-- Sends an event for the client to the control loop. -/
def emit (w : World) (event : ServerEvent) : World :=
  w.tell (.emit event)

/-- Takes the oldest message from an actor's mailbox. -/
def receive? (w : World) (actor : ActorId) : Option (Message × World) :=
  (w.image.mailboxes.receive? actor).map fun (message, mailboxes) =>
    (message, { w with image := { w.image with mailboxes } })

def change (w : World) (f : Session → Session) : World :=
  { w with session := f w.session }

end World

end EvalServer
