import EvalServer.Coding
import EvalServer.Sexp.Printer
import EvalServer.Sexp.Reader
import EvalServer.Text.Hexadecimal

/-!
# Frames

A frame is six hexadecimal digits that give the length of the payload in bytes, followed by the
payload: one printed s-expression in the connection's coding system. Headers are written in lower
case and read in either case.
-/

namespace EvalServer

/-- Why no message could be read from a stream. -/
inductive FramingError where
  /-- The stream ended between two frames. -/
  | closed
  /-- The stream ended inside a header or a payload. -/
  | truncated (expected received : Nat)
  | invalidHeader (bytes : List UInt8)
  | decoding (coding : Coding)
  | malformed (error : ReadError)
  | io (description : String)
  deriving Repr, DecidableEq

def FramingError.message : FramingError → String
  | .closed => "stream closed"
  | .truncated expected received =>
    "truncated frame: expected " ++ Text.Decimal.natText expected ++ " bytes, received "
      ++ Text.Decimal.natText received
  | .invalidHeader bytes =>
    "invalid length header " ++ Text.Quoted.text (String.ofList (Text.Utf8.decodeLossy bytes))
  | .decoding coding => "payload is not valid " ++ coding.name
  | .malformed error => "malformed message: " ++ error.message
  | .io description => "I/O error: " ++ description

namespace Frame

/-- The number of digits in a header. -/
def headerLength : Nat := 6

/-- The largest payload whose length a header can hold. -/
def maxPayload : Nat := 0xFFFFFF

/-- The header of a payload of `n` bytes. -/
def header (n : Nat) : List UInt8 :=
  (Text.Hexadecimal.digits headerLength n).map fun c => UInt8.ofNat c.toNat

/-- The length that a header announces. -/
def parseHeader (bytes : List UInt8) : Except FramingError Nat :=
  if bytes.length = headerLength then
    match Text.Hexadecimal.numberFrom 0 (bytes.map fun b => Char.ofNat b.toNat) with
    | some n => .ok n
    | none => .error (.invalidHeader bytes)
  else .error (.invalidHeader bytes)

/-- A payload with its header. -/
def ofPayload (payload : List UInt8) : Except EncodingError (List UInt8) :=
  let size := payload.length
  if size ≤ maxPayload then .ok (header size ++ payload) else .error (.payloadTooLarge size)

/-- The payload of the frame at the start of some bytes, if all of it is there, and what follows. -/
def split? (bytes : List UInt8) : Option (List UInt8 × List UInt8) :=
  match parseHeader (bytes.take headerLength) with
  | .error _ => none
  | .ok size =>
    let rest := bytes.drop headerLength
    if rest.length < size then none else some (rest.take size, rest.drop size)

def encode (coding : Coding) (v : Sexp) : Except EncodingError (List UInt8) :=
  match coding.encode v.print with
  | .error e => .error e
  | .ok payload => ofPayload payload

end Frame

end EvalServer
