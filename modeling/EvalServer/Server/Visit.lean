import EvalServer.Handshake
import EvalServer.Server.Basic
import EvalServer.Session.Reader

/-!
# Visits

A connection that has been accepted must first pass the handshake. Only then is a session made for
it, which is entered among those that a shutdown closes and then serves the connection.
-/

namespace EvalServer

namespace Server

/-- Whether a refusal only says that not enough bytes have come. -/
def isShortage : AuthenticationError → Bool
  | .framing e => e.isShortage
  | _ => false

/-- Compares the first message of a visit with the secret, once it has come. -/
def authenticate? (s : Server) (index : Nat) (v : Visit) (secret : Option String) :
    Option Server :=
  let (result, inbound) := Handshake.authenticate s.config.coding secret v.connection.inbound
  let s' := s.changeVisit index fun v => { v with connection := { v.connection with inbound } }
  match result with
  | .ok () => some (s'.setVisit index .creating)
  | .error e =>
    if isShortage e && !v.connection.ended then none else some (s'.setVisit index .ended)

/-- Makes a session for a visit, on whose loop its style depends. -/
def createSession (s : Server) (v : Visit) : Nat × Server :=
  let style := ((s.loops[v.loop]?).map fun l => l.listening.style).getD s.config.style
  let index := s.sessions.length
  let (session, mailboxes) := Session.create s.image.mailboxes (index + 1) (s.hostOf style)
    s.config.dedicatedOutput s.outputPort
  (index, { s with
    image := { s.image with mailboxes }
    sessions := s.sessions ++ [{ session with connection := v.connection }] })

/-- The next step of a visit, if it can do anything. -/
def visitStep? (s : Server) (index : Nat) : Option Server := do
  let v ← s.visits[index]?
  match v.phase with
  | .queued | .ended => none
  | .loading =>
    match Handshake.loadSecret s.image.files s.config.secretFile with
    | .error _ => return s.setVisit index .ended
    | .ok secret => return s.setVisit index (.authenticating secret)
  | .authenticating secret => s.authenticate? index v secret
  | .creating =>
    let (session, s) := s.createSession v
    return s.setVisit index (.entering session)
  | .entering session =>
    let s := { s with entered := s.entered ++ [session] }
    let w ← s.world? session
    return (s.putWorld session w.start).setVisit index (.serving session)
  | .serving session =>
    let w ← s.world? session
    if w.session.service = .ended then return s.setVisit index .ended else none

/-- The client of a visit does something: at the end of the connection that a session has, if one
does. -/
def clientStep? (s : Server) (index : Nat) (action : EvalServer.Action)
    (f : Connection → Connection) : Option Server := do
  let v ← s.visits[index]?
  match v.phase with
  | .entering session | .serving session =>
    let w ← (← s.world? session).step? action
    return s.putWorld session w
  | _ =>
    if v.connection.ended then none
    else return s.changeVisit index fun v => { v with connection := f v.connection }

end Server

end EvalServer
