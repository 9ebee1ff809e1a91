import EvalServer.File.Store
import EvalServer.Frame.Delivery

/-!
# Handshake

When a secret is configured, the first message of a connection must be that secret as a string.
The secret is the first line of a file; a file that is missing means that none is required, and a
file that cannot be read means that no connection may proceed.
-/

namespace EvalServer

/-- Why a connection is refused. -/
inductive AuthenticationError where
  | mismatch
  | unreadableSecret (path : String) (cause : FileError)
  | framing (error : FramingError)
  deriving Repr, DecidableEq

def AuthenticationError.message : AuthenticationError → String
  | .mismatch => "client presented the wrong secret"
  | .unreadableSecret path cause =>
    "secret file " ++ path ++ " exists but could not be read: " ++ cause.message
  | .framing error => "failed to read handshake: " ++ error.message

namespace Handshake

/-- The secret of a file, if there is a file. -/
def loadSecret (files : File.Store) (path : Option String) :
    Except AuthenticationError (Option String) :=
  match path with
  | none => .ok none
  | some path =>
    if files.pathExists path then
      match files.readText path with
      | .ok text => .ok (some (File.firstLine text))
      | .error cause => .error (.unreadableSecret path cause)
    else .ok none

/-- Reads the first message if a secret is required, and compares it with the secret. -/
def authenticate (coding : Coding) (secret : Option String) (d : Delivery) :
    Except AuthenticationError Unit × Delivery :=
  match secret with
  | none => (.ok (), d)
  | some secret =>
    match Frame.read coding d with
    | (.error e, rest) => (.error (.framing e), rest)
    | (.ok v, rest) => if v = .str secret then (.ok (), rest) else (.error .mismatch, rest)

end Handshake

end EvalServer
