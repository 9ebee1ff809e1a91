import EvalServer.Session.Basic

/-!
# Looking up actors

Clients address evaluators by number or name; reader and control loop cannot be addressed.
-/

namespace EvalServer

def Session.readerName : String := "reader-thread"

def Session.controlName : String := "control-thread"

def Session.replName : String := "repl-thread"

def Session.workerName (id : ActorId) : String :=
  "worker-" ++ Text.Decimal.natText id

namespace Session

/-- The evaluators on the table. -/
def known (s : Session) : List Evaluator :=
  s.table.evaluators.filterMap s.evaluator?

/-- The REPL, if it lives. -/
def replId (s : Session) : Option ActorId :=
  s.table.repl.filter s.isAlive

/-- Whether a designator means an evaluator. -/
def designates (thread : Thread) (e : Evaluator) : Bool :=
  match thread with
  | .any => false
  | .repl => e.name == replName
  | .id n => e.id == n
  | .name name => e.name == name

/-- The live evaluator that a designator means. -/
def findActor (s : Session) (thread : Thread) : Option ActorId :=
  ((s.known.find? (designates thread)).filter Evaluator.isAlive).map Evaluator.id

/-- The first active evaluation whose evaluator lives. -/
def firstRunning (s : Session) : Option ActorId :=
  s.active.firstWhere fun actor => s.known.any fun e => e.id == actor && e.isAlive

/-- The evaluator that an interrupt is meant for. -/
def interruptTarget (s : Session) : Thread → Option ActorId
  | .any => s.firstRunning.or s.replId
  | .repl => s.replId
  | thread => s.findActor thread

def actorName (s : Session) (actor : ActorId) : Option String :=
  if s.table.reader && s.readerId == actor then some readerName
  else if s.table.control && s.controlId == actor then some controlName
  else (s.known.find? (·.id == actor)).map Evaluator.name

end Session

end EvalServer
