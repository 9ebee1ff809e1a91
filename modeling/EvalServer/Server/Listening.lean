import EvalServer.Server.Basic

/-!
# Listening

To listen, a socket is bound, its port written to the port file if there is one, and the port
entered in the registry with a new accept loop. A loop that is told to stop, or has accepted its
one connection, closes its socket and then takes its own entry off the registry.
-/

namespace EvalServer

namespace Server

def address (s : Server) (port : UInt16) : String :=
  s.config.host ++ ":" ++ Text.Decimal.natText port.toNat

/-- Whether the system may give a port to a socket: the one asked for, or any free one. -/
def mayBind (s : Server) (asked port : UInt16) : Bool :=
  port ≠ 0 && (asked = 0 || asked = port) && !s.holds port

def writePort (s : Server) (port : UInt16) : Except ListenerError Server :=
  match s.config.portFile with
  | none => .ok s
  | some path =>
    match s.image.files.writeText path (Text.Decimal.natText port.toNat ++ "\n") with
    | .error cause => .error (.portFile path cause)
    | .ok files => .ok { s with image := { s.image with files } }

/-- Enters a port in the registry with a new loop, in place of an older entry. -/
def enter (s : Server) (listening : Listening) : Nat × Server :=
  let index := s.loops.length
  (index, { s with
    loops := s.loops ++ [{ listening }]
    registry := s.registry.filter (·.1 ≠ listening.port) ++ [(listening.port, index)] })

/-- The next step of a call. `answer` is what the system says where a socket is bound: the port,
or why there is none. -/
def callStep? (s : Server) (index : Nat) (answer : Except String UInt16) : Option Server := do
  match ← s.calls[index]? with
  | .finding port =>
    match (s.registry.lookup port).bind (s.loops[·]?) with
    | none => return s.setCall index (.ended (.error (.unknownPort port)))
    | some l => return s.setCall index (.stopping l.listening)
  | .stopping l => return (s.stop l.port).2.setCall index (.pausing l)
  | .pausing l => return s.setCall index (.binding l)
  | .binding l =>
    match answer with
    | .error description =>
      return s.setCall index (.ended (.error (.bind (s.address l.port) description)))
    | .ok port =>
      if s.mayBind l.port port then return s.setCall index (.writing { l with port }) else none
  | .writing l =>
    match s.writePort l.port with
    | .error e => return s.setCall index (.ended (.error e))
    | .ok s => return s.setCall index (.entering l)
  | .entering l =>
    let (loop, s) := s.enter l
    return s.setCall index (match l.style with
      | .spawn => .ended (.ok l.port)
      | .inline => .attending l.port loop)
  | .attending port loop =>
    if (s.loops[loop]?).any fun l => l.phase = .ended then
      return s.setCall index (.ended (.ok port))
    else none
  | .ended _ => none

def waiting? (s : Server) (loop : Nat) : Option Nat :=
  s.visits.findIdx? fun v => v.loop = loop ∧ v.phase = .queued

/-- What a loop does after a connection. -/
def afterVisit (l : AcceptLoop) : LoopPhase :=
  if l.listening.keep then .accepting else .closing

/-- Closes the socket of a loop; the connections that wait for it end. -/
def closeSocket (s : Server) (index : Nat) : Server :=
  { s with visits := s.visits.map fun v =>
    if v.loop = index ∧ v.phase = .queued then { v with phase := .ended } else v }

/-- The next step of an accept loop, if it can do anything. -/
def loopStep? (s : Server) (index : Nat) : Option Server := do
  let l ← s.loops[index]?
  match l.phase with
  | .accepting =>
    if l.stopped then return s.setLoop index .closing
    else
      let visit ← s.waiting? index
      let s := s.setVisit visit .loading
      return s.setLoop index (match l.listening.style with
        | .spawn => afterVisit l
        | .inline => .attending visit)
  | .attending visit =>
    if (s.visits[visit]?).any fun v => v.phase = .ended then
      return s.setLoop index (afterVisit l)
    else none
  | .closing => return (s.closeSocket index).setLoop index .leaving
  | .leaving =>
    return { s with registry := s.registry.filter (· ≠ (l.listening.port, index)) }.setLoop
      index .ended
  | .ended => none

end Server

end EvalServer
