import EvalServer.Session.Lifecycle
import EvalServer.Text.Blank

/-!
# Jobs

A job runs the computation of an evaluation against the session: it answers the requests of the
computation one by one. Output goes to the dedicated stream if that takes it, and to the client as
an event otherwise. A question is registered, shown, and aborted at once if the interrupt flag is
found raised after that; only then does the job wait for the outcome.
-/

namespace EvalServer

namespace Question

/-- What a client's answer says. -/
def understand : (question : Question) → ClientAnswer → question.Answer
  | .line, .text text => text
  | .line, .value value => value.display
  | .yesOrNo _, .text text =>
    (Text.trimBlanks text).toList.head?.any fun c => c = 'y' || c = 'Y'
  | .yesOrNo _, .value value => value.isTrue

/-- The event that shows a question to the client. -/
def event (question : Question) (actor : ActorId) (tag : Nat) : ServerEvent :=
  match question with
  | .line => .readString (UInt64.ofNat actor) (UInt64.ofNat tag)
  | .yesOrNo prompt => .yesOrNo (UInt64.ofNat actor) (UInt64.ofNat tag) prompt

end Question

/-- The path that a job is about to look up in the files. -/
def Job.wants? (job : Job) : Option String :=
  match job.phase with
  | .computing (.step (.readText path) _) | .computing (.step (.isFile path) _) => some path
  | _ => none

namespace Session

/-- The channel of the values that the REPL shows. -/
def resultChannel : String := "repl-result"

/-- Whether the interrupt flag of a job is raised. -/
def isRaised (s : Session) (job : Job) : Bool :=
  match job.flag with
  | .own raised => raised
  | .shared => (s.evaluator? job.actor).any Evaluator.raised

def changeJob (s : Session) (index : Nat) (f : Job → Job) : Session :=
  { s with jobs := s.jobs.modify index f }

def setJob (s : Session) (index : Nat) (phase : JobPhase) : Session :=
  s.changeJob index fun job => { job with phase }

/-- Queues a text for the dedicated output stream, if that is there. -/
def writeDedicated (s : Session) (text : String) : Bool × Session :=
  if s.output.installed && s.output.phase ≠ .ended then
    (true, { s with output := { s.output with queue := s.output.queue ++ [text] } })
  else (false, s)

end Session

namespace World

def changeBindings (w : World) (f : Bindings → Bindings) : World :=
  { w with image := { w.image with bindings := f w.image.bindings } }

def changeQuit (w : World) (f : QuitSignal → QuitSignal) : World :=
  { w with image := { w.image with quit := f w.image.quit } }

def setJob (w : World) (index : Nat) (phase : JobPhase) : World :=
  w.change (·.setJob index phase)

/-- Answers a request of a computation, or takes the first step towards its answer. -/
def serve (w : World) (index : Nat) (job : Job) :
    (request : Request) → (request.Reply → Course) → World
  | .interrupted, next => w.setJob index (.computing (next (w.session.isRaised job)))
  | .bindings, next => w.setJob index (.computing (next w.image.bindings))
  | .define ns name definition, next =>
    (w.changeBindings (·.define ns name definition)).setJob index (.computing (next ()))
  | .openNamespace ns, next =>
    (w.changeBindings (·.openNamespace ns)).setJob index (.computing (next ()))
  | .currentNamespace, next => w.setJob index (.computing (next job.ns))
  | .enterNamespace ns, next =>
    w.change (·.changeJob index fun job => { job with ns, phase := .computing (next ()) })
  | .readText path, next => w.setJob index (.computing (next (w.image.files.readText path)))
  | .isFile path, next => w.setJob index (.computing (next (w.image.files.isFile path)))
  | .writeOutput text, next =>
    match w.session.writeDedicated text with
    | (true, session) => ({ w with session } : World).setJob index (.computing (next ()))
    | (false, _) => w.setJob index (.printing text (next ()))
  | .writeResult text, next =>
    (w.emit (.writeString text (some Session.resultChannel))).setJob index (.computing (next ()))
  | .ask question, next =>
    let (tag, prompts) := w.session.prompts.register job.actor
    (w.change fun s => { s with prompts }).setJob index (.prompting .showing tag question next)
  | .debug kind rest, next =>
    (w.tell (.debug job.actor kind rest)).setJob index (.computing (next ()))
  | .requestQuit, next => (w.changeQuit .set).setJob index (.waking (next ()))
  | .rest milliseconds, next => w.setJob index (.resting milliseconds (next ()))

/-- The next step of a job that waits for the outcome of a prompt, once there is one. -/
def awaitAnswer? (w : World) (index tag : Nat) (question : Question)
    (next : Option question.Answer → Course) : Option World :=
  match w.session.prompts.state tag with
  | .pending _ => none
  | .answered answer =>
    some ((w.change fun s => { s with prompts := s.prompts.forget tag }).setJob index
      (.computing (next (some (question.understand answer)))))
  | _ =>
    some ((w.change fun s => { s with prompts := s.prompts.forget tag }).setJob index
      (.prompting .withdrawing tag question next))

/-- The next step of a prompt. -/
def promptStep? (w : World) (index : Nat) (job : Job) (phase : PromptPhase) (tag : Nat)
    (question : Question) (next : Option question.Answer → Course) : Option World :=
  let goOn (phase : PromptPhase) : World → World :=
    fun w => w.setJob index (.prompting phase tag question next)
  match phase with
  | .showing => some (goOn .looking (w.emit (question.event job.actor tag)))
  | .looking => some (goOn (if w.session.isRaised job then .aborting else .waiting) w)
  | .aborting => some (goOn .waiting (w.change (·.abortPrompts job.actor)))
  | .waiting => w.awaitAnswer? index tag question next
  | .withdrawing =>
    some ((w.emit (.readAborted (UInt64.ofNat job.actor) (UInt64.ofNat tag))).setJob index
      (.computing (next none)))

/-- The next step of a job, if it can do anything without time going by. -/
def jobStep? (w : World) (index : Nat) : Option World := do
  let job ← w.session.jobs[index]?
  match job.phase with
  | .computing (.done result) => return w.setJob index (.ended result)
  | .computing (.step request next) => return w.serve index job request next
  | .resting _ _ => none
  | .printing text course =>
    return (w.emit (.writeString text none)).setJob index (.computing course)
  | .waking course => return (w.changeQuit .wakeAll).setJob index (.computing course)
  | .prompting phase tag question next => w.promptStep? index job phase tag question next
  | .ended _ => none

/-- A job that rests goes on, when its time has gone by. -/
def wake? (w : World) (index : Nat) : Option World := do
  let job ← w.session.jobs[index]?
  match job.phase with
  | .resting _ course => return w.setJob index (.computing course)
  | _ => none

end World

end EvalServer
