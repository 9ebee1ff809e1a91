import EvalServer.Sexp.Basic

/-!
# Server events

The messages the server sends, each with the value it is printed as. Numbers of actors and tags of
prompts are unsigned 64-bit words and print as the signed integers with the same bits.
-/

namespace EvalServer

/-- The outcome of an evaluation request. -/
inductive Status where
  | ok (value : Sexp)
  | abort
  deriving Repr, DecidableEq

def Status.toSexp : Status → Sexp
  | .ok value => .list [.keyword "ok", value]
  | .abort => .list [.keyword "abort"]

/-- The kinds of debugger event. -/
inductive DebugKind where
  | debug
  | condition
  | activate
  | return
  deriving Repr, DecidableEq

def DebugKind.tag : DebugKind → String
  | .debug => "debug"
  | .condition => "debug-condition"
  | .activate => "debug-activate"
  | .return => "debug-return"

def DebugKind.ofTag? (tag : String) : Option DebugKind :=
  [DebugKind.debug, .condition, .activate, .return].find? fun kind => kind.tag = tag

/-- An operator and the number of columns by which its body is indented. -/
abbrev Hint := String × Int64

/-- A message to the client. -/
inductive ServerEvent where
  | return (status : Status) (id : Int64)
  | writeString (text : String) (channel : Option String)
  | newPackage (name prompt : String)
  | readString (thread tag : UInt64)
  | readAborted (thread tag : UInt64)
  | yesOrNo (thread tag : UInt64) (prompt : String)
  | indentationUpdate (hints : List Hint)
  | openDedicatedOutput (port : UInt16)
  | debug (kind : DebugKind) (thread : String) (rest : List Sexp)
  /-- Any other message, sent as it is. -/
  | other (message : Sexp)
  deriving Repr, DecidableEq

namespace ServerEvent

/-- A list headed by a keyword. -/
def tagged (tag : String) (rest : List Sexp) : Sexp :=
  .list (.keyword tag :: rest)

def word (n : UInt64) : Sexp :=
  .int n.toInt64

def hintSexp (hint : Hint) : Sexp :=
  .list [.str hint.1, .int hint.2]

def toSexp : ServerEvent → Sexp
  | .return status id => tagged "return" [status.toSexp, .int id]
  | .writeString text channel =>
    tagged "write-string" (.str text :: (channel.map Sexp.keyword).toList)
  | .newPackage name prompt => tagged "new-package" [.str name, .str prompt]
  | .readString thread tag => tagged "read-string" [word thread, word tag]
  | .readAborted thread tag => tagged "read-aborted" [word thread, word tag]
  | .yesOrNo thread tag prompt => tagged "y-or-n-p" [word thread, word tag, .str prompt]
  | .indentationUpdate hints => tagged "indentation-update" [.list (hints.map hintSexp)]
  | .openDedicatedOutput port =>
    tagged "open-dedicated-output-stream" [.int (Int64.ofNat port.toNat)]
  | .debug kind thread rest => tagged kind.tag (.str thread :: rest)
  | .other message => message

end ServerEvent

end EvalServer
