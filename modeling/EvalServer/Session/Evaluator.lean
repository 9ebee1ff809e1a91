import EvalServer.Session.Job

/-!
# Evaluators

An evaluator takes a request from its mailbox, lowers its interrupt flag, starts a job and waits
for its end. It then sends what the client is to know, and last the result: after a value a change
of namespace and hints that the client lacks, after a failure its description. The REPL goes on
with the next message; a worker leaves.
-/

namespace EvalServer

def Work.job (work : Work) (host : Host) (actor : ActorId) : Job where
  actor
  ns := work.package
  phase := .computing (evaluateRequest host work.form).run

/-- The messages that end a request with a value, with the hints that the client lacks. -/
def Work.report (work : Work) (actor : ActorId) (value : Sexp) (delta : List Hint) :
    List Message :=
  (if delta.isEmpty then [] else [.emit (.indentationUpdate delta)]) ++
    [.result actor (.ok value) work.id]

namespace EvaluatorPhase

/-- What an evaluator does with a message. -/
def ofMessage (worker : Bool) : Message → EvaluatorPhase
  | .evaluate work => .taken work
  | _ => if worker then .leaving else .receiving

/-- What an evaluator does after its job, which has ended in a namespace with a result. -/
def ofResult (actor : ActorId) (work : Work) (ns : String) :
    Except EvalError Sexp → EvaluatorPhase
  | .ok value => .announcing work value ns
  | .error e => .posting [
      .emit (.writeString (e.describe work.form work.package) none),
      .result actor .abort work.id]

end EvaluatorPhase

namespace World

/-- The next step of an evaluator in a phase, if it can do anything. -/
def evaluatorPhase? (w : World) (e : Evaluator) : EvaluatorPhase → Option World
  | .receiving => do
    let (message, w) ← w.receive? e.id
    return w.change (·.setPhase e.id (EvaluatorPhase.ofMessage e.worker message))
  | .taken work =>
    let (index, session) := w.session.startJob (work.job w.session.host e.id)
    some { w with session := session.changeEvaluator e.id fun e =>
      { e with raised := false, phase := .evaluating work index } }
  | .evaluating work index => do
    let job ← w.session.jobs[index]?
    match job.phase with
    | .ended result => return w.change (·.setPhase e.id (.ofResult e.id work job.ns result))
    | _ => none
  | .announcing work value ns =>
    let w := if ns = work.package then w else w.emit (.newPackage ns ns)
    some (w.change (·.setPhase e.id (.hinting work value ns)))
  | .hinting work value ns =>
    let (delta, hints) := w.session.hints.update (indentationHints ns)
    some (w.change fun s =>
      { s with hints }.setPhase e.id (.posting (work.report e.id value delta)))
  | .posting (message :: rest) =>
    some ((w.tell message).change (·.setPhase e.id (.posting rest)))
  | .posting [] =>
    some (w.change (·.setPhase e.id (if e.worker then .leaving else .receiving)))
  | .leaving =>
    some (w.change fun s =>
      { s with table := { s.table with workers := s.table.workers.filter (· ≠ e.id) } }.setPhase
        e.id .ended)
  | .ended => none

def evaluatorStep? (w : World) (id : ActorId) : Option World := do
  let e ← w.session.evaluator? id
  w.evaluatorPhase? e e.phase

/-- A killed evaluator ends where it waits: for a message, or for its job, which goes on. -/
def evaluatorEnd? (w : World) (id : ActorId) : Option World := do
  let e ← w.session.evaluator? id
  match e.phase with
  | .receiving | .evaluating _ _ =>
    if e.killed then return w.change (·.setPhase id .ended) else none
  | _ => none

end World

end EvalServer
