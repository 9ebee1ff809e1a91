import EvalServer.Config.Basic
import EvalServer.Session.Step

/-!
# Servers

A server listens on ports and serves every connection with a session. The registry names the
accept loop of every port that is listened on; loops, connections and calls on the server take
their steps in any order, and the phases below say which step comes next.
-/

namespace EvalServer

/-- Why a server does not listen. -/
inductive ListenerError where
  | bind (address description : String)
  | portFile (path : String) (cause : FileError)
  | unknownPort (port : UInt16)
  deriving Repr, DecidableEq

def ListenerError.message : ListenerError → String
  | .bind address description => "failed to bind " ++ address ++ ": " ++ description
  | .portFile path cause => "failed to write port file " ++ path ++ ": " ++ cause.message
  | .unknownPort port => "no listener on port " ++ Text.Decimal.natText port.toNat

/-- How a port is listened on. -/
structure Listening where
  port : UInt16
  style : Style
  keep : Bool
  deriving Repr, DecidableEq

/-- What an accept loop does next. -/
inductive LoopPhase where
  | accepting
  /-- It serves a connection itself. -/
  | attending (visit : Nat)
  | closing
  | leaving
  | ended
  deriving Repr, DecidableEq

/-- An accept loop. -/
structure AcceptLoop where
  listening : Listening
  stopped : Bool := false
  phase : LoopPhase := .accepting
  deriving Repr, DecidableEq

def AcceptLoop.holdsSocket (l : AcceptLoop) : Bool :=
  match l.phase with
  | .accepting | .attending _ | .closing => true
  | .leaving | .ended => false

/-- What happens to a connection next. -/
inductive VisitPhase where
  | queued
  /-- The secret is read from its file. -/
  | loading
  | authenticating (secret : Option String)
  | creating
  /-- The session is entered among those that a shutdown closes. -/
  | entering (session : Nat)
  | serving (session : Nat)
  | ended
  deriving Repr, DecidableEq

/-- A connection to an accept loop. -/
structure Visit where
  loop : Nat
  /-- The connection until a session has it. -/
  connection : Connection := {}
  phase : VisitPhase := .queued
  deriving Repr, DecidableEq

/-- What a call on a server does next. -/
inductive CallPhase where
  /-- A restart looks for the port in the registry. -/
  | finding (port : UInt16)
  | stopping (listening : Listening)
  | pausing (listening : Listening)
  /-- A socket is bound to the port, or to any port if it is zero. -/
  | binding (listening : Listening)
  /-- The port is written to the port file. -/
  | writing (listening : Listening)
  | entering (listening : Listening)
  | attending (port : UInt16) (loop : Nat)
  | ended (result : Except ListenerError UInt16)
  deriving Repr

/-- What a shutdown does next. -/
inductive ShutdownPhase where
  | listing
  | stopping (ports : List UInt16)
  /-- The list of sessions is taken away. -/
  | taking
  | closing (sessions : List Nat)
  | closingOne (phase : ClosePhase) (session : Nat) (rest : List Nat)
  | ended
  deriving Repr, DecidableEq

/-- A server. -/
structure Server where
  config : Config
  processId : String
  workingDirectory : String
  loadDepth : Nat
  /-- The port that the system gives to dedicated output streams, if it gives one. -/
  outputPort : Option UInt16 := none
  image : Image := {}
  /-- The ports that are listened on, each with its accept loop. -/
  registry : List (UInt16 × Nat) := []
  loops : List AcceptLoop := []
  visits : List Visit := []
  calls : List CallPhase := []
  sessions : List Session := []
  /-- The sessions that a shutdown closes. -/
  entered : List Nat := []
  shutdowns : List ShutdownPhase := []

namespace Server

def ports (s : Server) : List UInt16 :=
  (s.registry.map (·.1)).mergeSort (· ≤ ·)

/-- Whether a port is taken by a socket of this server. -/
def holds (s : Server) (port : UInt16) : Bool :=
  s.loops.any (fun l => l.holdsSocket && l.listening.port == port) ||
    s.calls.any fun
      | .writing l | .entering l => l.port == port
      | _ => false

/-- What a session is told about its process and its connection. -/
def hostOf (s : Server) (style : Style) : Host where
  processId := s.processId
  workingDirectory := s.workingDirectory
  sourcePaths := s.config.sourcePaths
  style
  coding := s.config.coding
  loadDepth := s.loadDepth

def changeLoop (s : Server) (index : Nat) (f : AcceptLoop → AcceptLoop) : Server :=
  { s with loops := s.loops.modify index f }

def setLoop (s : Server) (index : Nat) (phase : LoopPhase) : Server :=
  s.changeLoop index fun l => { l with phase }

def changeVisit (s : Server) (index : Nat) (f : Visit → Visit) : Server :=
  { s with visits := s.visits.modify index f }

def setVisit (s : Server) (index : Nat) (phase : VisitPhase) : Server :=
  s.changeVisit index fun v => { v with phase }

def setCall (s : Server) (index : Nat) (phase : CallPhase) : Server :=
  { s with calls := s.calls.set index phase }

def setShutdown (s : Server) (index : Nat) (phase : ShutdownPhase) : Server :=
  { s with shutdowns := s.shutdowns.set index phase }

/-- Takes a port off the registry and tells its loop to stop; whether it was there. -/
def stop (s : Server) (port : UInt16) : Bool × Server :=
  match s.registry.lookup port with
  | none => (false, s)
  | some index =>
    (true, { s with registry := s.registry.filter (·.1 ≠ port) }.changeLoop index fun l =>
      { l with stopped := true })

/-- The session of a position, with what it shares with the others. -/
def world? (s : Server) (index : Nat) : Option World :=
  (s.sessions[index]?).map fun session => ⟨s.image, session⟩

def putWorld (s : Server) (index : Nat) (w : World) : Server :=
  { s with image := w.image, sessions := s.sessions.set index w.session }

end Server

end EvalServer
