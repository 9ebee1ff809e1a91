import EvalServer.Session.Lookup

/-!
# The life of actors

Evaluators are started when requests need them, interrupted by raising their flag and aborting
their prompts, and killed when the session closes. An evaluator that starts in a closed session is
killed at once. A kill takes effect when the actor next waits.
-/

namespace EvalServer

namespace Session

def kill (s : Session) : Handle → Session
  | .reader => { s with readerKilled := true }
  | .control => { s with controlKilled := true }
  | .evaluator id => s.changeEvaluator id fun e => { e with raised := true, killed := true }
  | .output => { s with output := { s.output with killed := true } }

/-- Raises the interrupt flag of an evaluator on the table. -/
def raise (s : Session) (actor : ActorId) : Bool × Session :=
  if s.table.evaluators.contains actor then
    (true, s.changeEvaluator actor fun e => { e with raised := true })
  else (false, s)

def abortPrompts (s : Session) (actor : ActorId) : Session :=
  { s with prompts := (s.prompts.abort actor).2 }

/-- Raises the flag of an evaluator and aborts its prompts; whether there is such an evaluator. -/
def interrupt (s : Session) (actor : ActorId) : Bool × Session :=
  match s.raise actor with
  | (true, s) => (true, s.abortPrompts actor)
  | (false, s) => (false, s)

def spawn (s : Session) (id : ActorId) (name : String) (worker : Bool) : Session :=
  { s with evaluators := s.evaluators ++
      [{ id, name, worker, raised := s.closed, killed := s.closed }] }

end Session

namespace World

def allocate (w : World) : ActorId × World :=
  let (id, mailboxes) := w.image.mailboxes.allocate
  (id, { w with image := { w.image with mailboxes } })

def startRepl (w : World) : ActorId × World :=
  let (id, w) := w.allocate
  (id, w.change fun s =>
    { s.spawn id Session.replName false with table := { s.table with repl := some id } })

/-- The live REPL. One that has ended is replaced, and no longer active or prompting. -/
def ensureRepl (w : World) : ActorId × World :=
  match w.session.table.repl with
  | none => w.startRepl
  | some id =>
    if w.session.isAlive id then (id, w)
    else (w.change fun s =>
      { s.abortPrompts id with active := s.active.remove id }).startRepl

def startWorker (w : World) : ActorId × World :=
  let (id, w) := w.allocate
  (id, w.change fun s =>
    { s.spawn id (Session.workerName id) true with
      table := { s.table with workers := s.table.workers ++ [id] } })

/-- The next step of somebody who closes the session; only the first does anything. -/
def closeStep? (w : World) : ClosePhase → Option (World × ClosePhase)
  | .marking =>
    if w.session.closed then some (w, .ended)
    else some (w.change fun s => { s with closed := true }, .taking)
  | .taking =>
    some (w.change fun s => { s with table := {} }, .killing w.session.table.handles)
  | .killing [] => some (w, .aborting)
  | .killing (handle :: rest) => some (w.change (·.kill handle), .killing rest)
  | .aborting =>
    some (w.change fun s => { s with prompts := s.prompts.abortAll }, .silencing)
  | .silencing =>
    some (w.change fun s => { s with output := { s.output with installed := false } }, .ended)
  | .ended => none

end World

end EvalServer
