import EvalServer.Session.Control
import EvalServer.Session.Evaluator
import EvalServer.Session.Output
import EvalServer.Session.Reader

/-!
# Steps of a session

`World.step?` is the step relation of a session: each action is one step of one actor, or something
that happens outside, and it answers nothing where that step cannot be taken now. Runs take any
actions in any order. `settle` takes steps in a fixed order until only time or the client could
bring about another.
-/

namespace EvalServer

/-- What can happen in a session. -/
inductive Action where
  /-- The task that serves the connection takes a step. -/
  | serve
  | reader
  | control
  | evaluator (id : ActorId)
  | job (index : Nat)
  | output
  /-- Somebody who closes the session takes a step. -/
  | close (index : Nat)
  /-- A killed actor ends. -/
  | finish (handle : Handle)
  /-- The killed control loop ends in the middle of a frame. -/
  | cut (calls : Nat)
  /-- The time of a resting job has gone by. -/
  | wake (index : Nat)
  | deliver (arrival : Arrival)
  | endInput
  | hangUp
  | connectOutput
  /-- Somebody begins to close the session. -/
  | beginClose
  deriving Repr, DecidableEq

namespace World

def goServe (w : World) (service : ServePhase) : World :=
  w.change fun s => { s with service }

def start (w : World) : World :=
  w.goServe .startingControl

/-- The next step of the task that serves the connection, if it can do anything. -/
def serveStep? (w : World) : Option World :=
  match w.session.service with
  | .absent | .ended => none
  | .startingControl => some ((w.goControl .receiving).goServe .startingReader)
  | .startingReader => some ((w.goReader .waiting).goServe .recording)
  | .recording =>
    some ((w.change fun s =>
      { s with table := { s.table with reader := true, control := true } }).goServe .startingRepl)
  | .startingRepl =>
    some (w.ensureRepl.2.goServe (if w.session.wantsOutput then .opening else .starting))
  | .opening =>
    match w.session.outputPort with
    | some port =>
      some ((w.changeOutput fun o => { o with phase := .listening }).goServe
        (.recordingOutput port))
    | none => some (w.goServe .starting)
  | .recordingOutput port =>
    some ((w.change fun s => { s with table := { s.table with output := true } }).goServe
      (.announcingOutput port))
  | .announcingOutput port => some ((w.emit (.openDedicatedOutput port)).goServe .starting)
  | .starting => some ((w.send w.session.readerId .start).goServe .serving)
  | .serving =>
    if w.session.reader = .ended ∨ w.session.control = .ended then
      some (w.goServe (.closing .marking))
    else none
  | .closing phase =>
    match w.closeStep? phase with
    | some (w, phase) => some (w.goServe (.closing phase))
    | none => some (w.goServe .ended)

/-- The next step of somebody who closes the session from outside. -/
def closerStep? (w : World) (index : Nat) : Option World := do
  let phase ← w.session.closers[index]?
  let (w, phase) ← w.closeStep? phase
  return w.change fun s => { s with closers := s.closers.set index phase }

/-- A killed actor ends, if it waits. -/
def finish? (w : World) : Handle → Option World
  | .reader => w.readerEnd?
  | .control => w.controlEnd?
  | .evaluator id => w.evaluatorEnd? id
  | .output => w.outputEnd?

def changeConnection (w : World) (f : Connection → Connection) : World :=
  w.change fun s => { s with connection := f s.connection }

/-- What an action makes of a session, if it can happen now. -/
def step? (w : World) : Action → Option World
  | .serve => w.serveStep?
  | .reader => w.readerStep?
  | .control => w.controlStep?
  | .evaluator id => w.evaluatorStep? id
  | .job index => w.jobStep? index
  | .output => w.outputStep?
  | .close index => w.closerStep? index
  | .finish handle => w.finish? handle
  | .cut calls => w.cutShort? calls
  | .wake index => w.wake? index
  | .deliver arrival =>
    if w.session.connection.ended then none
    else some (w.changeConnection (·.arrive arrival))
  | .endInput => some (w.changeConnection fun c => { c with ended := true })
  | .hangUp => some (w.changeConnection fun c => { c with writer := [.fails "broken pipe"] })
  | .connectOutput => w.connectOutput?
  | .beginClose => some (w.change fun s => { s with closers := s.closers ++ [.marking] })

/-- What actions make of a session, one after the other, if they can. -/
def run? (w : World) : List Action → Option World
  | [] => some w
  | action :: rest => do
    let w ← w.step? action
    w.run? rest

/-- The steps that may be taken without time going by, in the order in which `settle` tries them:
kills take effect before anything else is done. -/
def agenda (s : Session) : List Action :=
  let ids := s.evaluators.map Evaluator.id
  [.finish .reader, .finish .control, .finish .output] ++
    ids.map (fun id => .finish (.evaluator id)) ++
    (List.range s.closers.length).map .close ++ [.serve, .control, .reader, .output] ++
    ids.map .evaluator ++ (List.range s.jobs.length).map .job

/-- The first step of the agenda that can be taken. -/
def next? (w : World) : Option World :=
  (agenda w.session).findSome? w.step?

/-- Takes steps until none can be taken, at most `limit` of them. -/
def settle : (limit : Nat) → World → World
  | 0, w => w
  | limit + 1, w =>
    match w.next? with
    | none => w
    | some w => settle limit w

/-- Lets the time of the first job that rests go by. -/
def wakeFirst? (w : World) : Option World :=
  (List.range w.session.jobs.length).findSome? w.wake?

/-- Takes steps until `look` finds something when nothing else can happen but that time goes by;
time goes by at most `limit` times. -/
def await {α : Type} (look : World → Option α) : (limit : Nat) → World → Option α × World
  | 0, w => (none, w)
  | limit + 1, w =>
    let w := w.settle limit
    match look w with
    | some a => (some a, w)
    | none =>
      match w.wakeFirst? with
      | some w => await look limit w
      | none => (none, w)

end World

end EvalServer
