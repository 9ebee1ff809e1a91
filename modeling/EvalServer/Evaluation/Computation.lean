import EvalServer.Evaluation.Bindings
import EvalServer.Evaluation.Error
import EvalServer.Message.Server

/-!
# Computations

An evaluation does not touch the world: it is a tree of requests, each with what follows for every
reply. Who runs it answers the requests: a scripted console, or a session in which other actors
take their steps between any two of them.
-/

namespace EvalServer

/-- A question that the client answers. -/
inductive Question where
  | line
  | yesOrNo (prompt : String)
  deriving Repr, DecidableEq

def Question.Answer : Question → Type
  | .line => String
  | .yesOrNo _ => Bool

/-- What an evaluation asks of the world. -/
inductive Request where
  | interrupted
  | bindings
  | define (ns name : String) (definition : Definition)
  | openNamespace (ns : String)
  | currentNamespace
  | enterNamespace (ns : String)
  | readText (path : String)
  | isFile (path : String)
  | writeOutput (text : String)
  | writeResult (text : String)
  /-- Waits for the client; there is no answer if the question is aborted. -/
  | ask (question : Question)
  | debug (kind : DebugKind) (rest : List Sexp)
  | requestQuit
  | rest (milliseconds : Nat)

def Request.Reply : Request → Type
  | .interrupted => Bool
  | .bindings => Bindings
  | .currentNamespace => String
  | .readText _ => Except FileError String
  | .isFile _ => Bool
  | .ask question => Option question.Answer
  | _ => Unit

/-- A computation that ends in a value of type `α`. -/
inductive Computation (α : Type) where
  | done (result : α)
  | step (request : Request) (next : request.Reply → Computation α)

namespace Computation

/-- One request, ending in its reply. -/
def perform (request : Request) : Computation request.Reply :=
  .step request .done

/-- The computation that goes on with `f` where `c` ends. -/
protected def bind {α β : Type} (c : Computation α) (f : α → Computation β) : Computation β :=
  match c with
  | .done a => f a
  | .step request next => .step request fun reply => (next reply).bind f

instance : Monad Computation where
  pure := .done
  bind := Computation.bind

@[simp] theorem bind_done {α : Type} (c : Computation α) : c.bind .done = c := by
  induction c with
  | done a => rfl
  | step request next ih => simp only [Computation.bind, ih]

theorem bind_assoc {α β γ : Type} (c : Computation α) (f : α → Computation β)
    (g : β → Computation γ) : (c.bind f).bind g = c.bind fun a => (f a).bind g := by
  induction c with
  | done a => rfl
  | step request next ih => simp only [Computation.bind, ih]

instance : LawfulMonad Computation := LawfulMonad.mk' _
  (fun c => bind_done c)
  (fun _ _ => rfl)
  (fun c f g => bind_assoc c f g)

end Computation

/-- A computation that may fail. -/
abbrev Eval := ExceptT EvalError Computation

namespace Eval

def request (r : Request) : Eval r.Reply :=
  ExceptT.lift (Computation.perform r)

/-- A result that is there already. -/
def ofExcept {α : Type} (result : Except EvalError α) : Eval α :=
  ExceptT.mk (.done result)

/-- A cancellation point: fails if the interrupt flag is raised. -/
def checkInterrupt : Eval Unit := do
  let raised : Bool ← request .interrupted
  if raised then throw .interrupted

def currentNamespace : Eval String := request .currentNamespace

def bindings : Eval Bindings := request .bindings

def writeOutput (text : String) : Eval Unit := request (.writeOutput text)

def ask (question : Question) : Eval question.Answer := do
  let answer : Option question.Answer ← request (.ask question)
  match answer with
  | some answer => pure answer
  | none => throw .inputAborted

def readLine : Eval Sexp := do
  let line : String ← ask .line
  return .str line

def yesOrNo (prompt : String) : Eval Sexp := do
  let yes : Bool ← ask (.yesOrNo prompt)
  return Sexp.ofBool yes

end Eval

end EvalServer
