import EvalServer.Evaluation.EditorCall
import EvalServer.Message.Client

/-!
# Scripted consoles

A world for one evaluation at a time: bindings, files, a current namespace, an interrupt flag, the
lines of input that a user has typed ahead, and a record of what was printed and asked. Main
definition: `run`, which answers every request of a computation from such a world.
-/

namespace EvalServer

/-- What a console records. -/
inductive ConsoleEntry where
  | output (text : String)
  | result (text : String)
  | prompt (text : String)
  deriving Repr, DecidableEq

/-- A world with a scripted console. -/
structure Script where
  bindings : Bindings := {}
  files : File.Store := {}
  ns : String := ClientEvent.defaultNamespace
  /-- The number of cancellation points that still pass, if the flag is ever raised. -/
  checksLeft : Option Nat := none
  input : List String := []
  /-- What the console recorded, latest first. -/
  log : List ConsoleEntry := []
  quitRequested : Bool := false
  elapsed : Nat := 0
  deriving Repr

namespace Script

def takeLine (s : Script) : Option String × Script :=
  match s.input with
  | [] => (none, s)
  | line :: rest => (some line, { s with input := rest })

def record (s : Script) (entry : ConsoleEntry) : Script :=
  { s with log := entry :: s.log }

def check (s : Script) : Bool × Script :=
  match s.checksLeft with
  | none => (false, s)
  | some 0 => (true, s)
  | some (n + 1) => (false, { s with checksLeft := some n })

/-- The reply to a question. A yes starts with a lower-case letter. -/
def reply (s : Script) : (question : Question) → Option question.Answer × Script
  | .line => s.takeLine
  | .yesOrNo prompt =>
    let (line, s) := (s.record (.prompt prompt)).takeLine
    (line.map fun text => text.startsWith "y", s)

def answer (s : Script) : (request : Request) → request.Reply × Script
  | .interrupted => s.check
  | .bindings => (s.bindings, s)
  | .define ns name definition => ((), { s with bindings := s.bindings.define ns name definition })
  | .openNamespace ns => ((), { s with bindings := s.bindings.openNamespace ns })
  | .currentNamespace => (s.ns, s)
  | .enterNamespace ns => ((), { s with ns })
  | .readText path => (s.files.readText path, s)
  | .isFile path => (s.files.isFile path, s)
  | .writeOutput text => ((), s.record (.output text))
  | .writeResult text => ((), s.record (.result text))
  | .ask question => s.reply question
  | .debug _ _ => ((), s)
  | .requestQuit => ((), { s with quitRequested := true })
  | .rest milliseconds => ((), { s with elapsed := s.elapsed + milliseconds })

def run {α : Type} (s : Script) : Computation α → α × Script
  | .done result => (result, s)
  | .step request next =>
    let (reply, s) := s.answer request
    run s (next reply)

end Script

end EvalServer
