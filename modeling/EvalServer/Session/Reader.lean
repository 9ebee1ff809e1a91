import EvalServer.Session.Basic

/-!
# The reader

The reader waits for the start message, and then forwards the message of every frame to the
control loop, up to the first frame that it cannot read or the end of the connection.
-/

namespace EvalServer

/-- Whether an error only says that not enough bytes have come. -/
def FramingError.isShortage : FramingError → Bool
  | .closed | .truncated _ _ => true
  | _ => false

namespace World

def goReader (w : World) (reader : ReaderPhase) : World :=
  w.change fun s => { s with reader }

/-- Reads one frame, once enough of it has come or the client has ended its direction. -/
def readFrame? (w : World) : Option World :=
  let c := w.session.connection
  let (result, inbound) := Frame.read w.session.host.coding c.inbound
  let w' := w.change fun s => { s with connection := { c with inbound } }
  match result with
  | .ok message => some (w'.tell (.client (.ofSexp message)))
  | .error e =>
    if e.isShortage && !c.ended then none else some (w'.goReader .ended)

/-- The next step of the reader, if it can do anything. -/
def readerStep? (w : World) : Option World :=
  match w.session.reader with
  | .absent | .ended => none
  | .waiting => do
    let (message, w) ← w.receive? w.session.readerId
    return if message = .start then w.goReader .reading else w
  | .reading => w.readFrame?

/-- A killed reader ends where it waits, for a message or for the connection. -/
def readerEnd? (w : World) : Option World :=
  match w.session.reader with
  | .waiting | .reading =>
    if w.session.readerKilled then some (w.goReader .ended) else none
  | _ => none

end World

end EvalServer
