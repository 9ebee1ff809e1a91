import EvalServer.Server.Listening
import EvalServer.Server.Visit

/-!
# Steps of a server

`Server.step?` is the step relation of a server with all its sessions: each action is one step of
a loop, a visit, a call, a shutdown or a session, or something that happens outside. `settle` takes
steps in a fixed order until only time or a client could bring about another.
-/

namespace EvalServer

namespace Server

/-- What can happen in a server. -/
inductive Action where
  | loop (index : Nat)
  | visit (index : Nat)
  /-- A call takes a step; `answer` is what the system says if it binds a socket. -/
  | call (index : Nat) (answer : Except String UInt16)
  | shutdown (index : Nat)
  | session (index : Nat) (action : EvalServer.Action)
  | waiter (index : Nat)
  | connect (loop : Nat)
  | deliver (visit : Nat) (arrival : Arrival)
  | endInput (visit : Nat)
  | beginListen (listening : Listening)
  | beginRestart (port : UInt16)
  | stop (port : UInt16)
  | beginShutdown
  | beginWait
  deriving Repr

/-- The next step of a shutdown. -/
def shutdownStep? (s : Server) (index : Nat) : Option Server := do
  match ← s.shutdowns[index]? with
  | .listing => return s.setShutdown index (.stopping s.ports)
  | .stopping [] => return s.setShutdown index .taking
  | .stopping (port :: rest) => return (s.stop port).2.setShutdown index (.stopping rest)
  | .taking => return { s with entered := [] }.setShutdown index (.closing s.entered)
  | .closing [] => return s.setShutdown index .ended
  | .closing (session :: rest) =>
    return s.setShutdown index (.closingOne .marking session rest)
  | .closingOne phase session rest =>
    match (s.world? session).bind fun w => w.closeStep? phase with
    | some (w, phase) =>
      return (s.putWorld session w).setShutdown index (.closingOne phase session rest)
    | none => return s.setShutdown index (.closing rest)
  | .ended => none

/-- What an action makes of a server, if it can happen now. -/
def step? (s : Server) : Action → Option Server
  | .loop index => s.loopStep? index
  | .visit index => s.visitStep? index
  | .call index answer => s.callStep? index answer
  | .shutdown index => s.shutdownStep? index
  | .session index action => do
    let w ← (← s.world? index).step? action
    return s.putWorld index w
  | .waiter index => do
    let quit ← s.image.quit.step? index
    return { s with image := { s.image with quit } }
  | .connect loop => do
    let l ← s.loops[loop]?
    if l.holdsSocket then return { s with visits := s.visits ++ [{ loop }] } else none
  | .deliver visit arrival => s.clientStep? visit (.deliver arrival) (·.arrive arrival)
  | .endInput visit => s.clientStep? visit .endInput fun c => { c with ended := true }
  | .beginListen listening => some { s with calls := s.calls ++ [.binding listening] }
  | .beginRestart port => some { s with calls := s.calls ++ [.finding port] }
  | .stop port => some (s.stop port).2
  | .beginShutdown => some { s with shutdowns := s.shutdowns ++ [.listing] }
  | .beginWait => some { s with image := { s.image with quit := s.image.quit.join } }

/-- What actions make of a server, one after the other, if they can. -/
def run? (s : Server) : List Action → Option Server
  | [] => some s
  | action :: rest => do
    let s ← s.step? action
    s.run? rest

/-- The first port from `port` on that no socket of the server holds, among `limit` of them. -/
def freePort? (s : Server) (port : UInt16) : (limit : Nat) → Option UInt16
  | 0 => none
  | limit + 1 => if s.holds port then s.freePort? (port + 1) limit else some port

/-- What a system answers that gives the ports from `base` on to sockets that ask for any port. -/
def systemAnswer (s : Server) (base asked : UInt16) : Except String UInt16 :=
  if asked = 0 then
    match s.freePort? base (s.loops.length + s.calls.length + 1) with
    | some port => .ok port
    | none => .error "Address already in use (os error 98)"
  else if s.holds asked then .error "Address already in use (os error 98)"
  else .ok asked

/-- The answer that a call gets if it binds a socket. -/
def answerFor (s : Server) (base : UInt16) : CallPhase → Except String UInt16
  | .binding l => s.systemAnswer base l.port
  | _ => .ok base

/-- The next step of the agenda of a server, on a system that gives ports from `base` on. -/
def next? (s : Server) (base : UInt16) : Option Server :=
  let indices {α : Type} (items : List α) := List.range items.length
  ((indices s.shutdowns).findSome? s.shutdownStep?).or <|
  ((indices s.loops).findSome? s.loopStep?).or <|
  ((indices s.visits).findSome? s.visitStep?).or <|
  ((indices s.calls).findSome? fun i =>
    (s.calls[i]?).bind fun call => s.callStep? i (s.answerFor base call)).or <|
  ((indices s.image.quit.waiters).findSome? fun i => s.step? (.waiter i)).or <|
  (indices s.sessions).findSome? fun i =>
    ((s.world? i).bind World.next?).map (s.putWorld i)

/-- Takes steps until none can be taken, at most `limit` of them. -/
def settle (base : UInt16) : (limit : Nat) → Server → Server
  | 0, s => s
  | limit + 1, s =>
    match s.next? base with
    | none => s
    | some s => settle base limit s

/-- What a call has come to: the port that is listened on, or why none is. -/
def callResult? : CallPhase → Option (Except ListenerError UInt16)
  | .ended result => some result
  | .attending port _ => some (.ok port)
  | _ => none

/-- Begins a call and takes steps until it has come to listen or has failed. -/
def call (s : Server) (base : UInt16) (limit : Nat) (phase : CallPhase) :
    Option (Except ListenerError UInt16) × Server :=
  let s := { s with calls := s.calls ++ [phase] }.settle base limit
  (s.calls.getLast?.bind callResult?, s)

/-- Listens on a port, or on any port if it is zero. -/
def listen (s : Server) (base : UInt16) (limit : Nat) (listening : Listening) :
    Option (Except ListenerError UInt16) × Server :=
  s.call base limit (.binding listening)

/-- Stops listening on a port and listens on it again in the same way. -/
def restart (s : Server) (base : UInt16) (limit : Nat) (port : UInt16) :
    Option (Except ListenerError UInt16) × Server :=
  s.call base limit (.finding port)

end Server

end EvalServer
