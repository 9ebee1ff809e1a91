import EvalServer.Message.Thread

/-!
# Client events

The messages an editor sends. A value of any other shape is an unknown event that carries the
value itself.
-/

namespace EvalServer

/-- A message from the client. -/
inductive ClientEvent where
  | evaluate (form : Sexp) (package : String) (thread : Thread) (id : Int64)
  | interrupt (thread : Thread)
  /-- The answer to a request for a line of input. -/
  | returnString (thread : Thread) (tag : Nat) (text : String)
  /-- The answer to a yes-or-no question. -/
  | returnValue (thread : Thread) (tag : Nat) (value : Sexp)
  | unknown (message : Sexp)
  deriving Repr, DecidableEq

namespace ClientEvent

/-- The namespace of requests that name none, and of fresh sessions. -/
def defaultNamespace : String := "user"

/-- The namespace a request names; `nil` stands for the default one. -/
def namespace? : Sexp → Option String
  | .nil => some defaultNamespace
  | v => v.str?

/-- A tag is a number that is not negative. -/
def tag? (v : Sexp) : Option Nat :=
  v.int?.bind fun n => if 0 ≤ n.toInt then some n.toInt.toNat else none

/-- The event of a head keyword and its arguments. -/
def ofParts? (head : String) (arguments : List Sexp) : Option ClientEvent :=
  match head, arguments with
  | "emacs-rex", [form, ns, thread, id] => do
    return .evaluate form (← namespace? ns) (← Thread.ofSexp? thread) (← id.int?)
  | "emacs-interrupt", [thread] => do
    return .interrupt (← Thread.ofSexp? thread)
  | "emacs-return-string", [thread, tag, text] => do
    return .returnString (← Thread.ofSexp? thread) (← tag? tag) (← text.str?)
  | "emacs-return", [thread, tag, value] => do
    return .returnValue (← Thread.ofSexp? thread) (← tag? tag) value
  | _, _ => none

def ofSexp (message : Sexp) : ClientEvent :=
  match message.items? with
  | some (head :: arguments) =>
    ((head.keyword?).bind fun keyword => ofParts? keyword arguments).getD (.unknown message)
  | _ => .unknown message

end ClientEvent

end EvalServer
