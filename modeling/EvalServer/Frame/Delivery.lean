import EvalServer.Frame.Basic
import EvalServer.Frame.Operator

/-!
# Reading frames

A stream delivers its bytes in pieces of any size, between which a read may be interrupted, which
means nothing, or fail; a piece without bytes tells a read that the stream is at its end. `read`
takes one frame off a delivery: first the header, and the payload only once the header has been
understood, so that no byte after the frame is touched.
-/

namespace EvalServer

/-- What one read of a stream yields. -/
inductive Arrival where
  /-- Some bytes; none at all mean the end, though a later read may yield more. -/
  | bytes (bytes : List UInt8)
  | interrupted
  | failure (description : String)
  deriving Repr, DecidableEq

/-- What a stream still has to yield; after the last arrival it is at its end. -/
abbrev Delivery := List Arrival

namespace Delivery

def remaining : Delivery → Nat
  | [] => 0
  | .bytes bs :: rest => bs.length + remaining rest
  | _ :: rest => remaining rest

/-- Puts back what is left of a piece. -/
def putBack (bs : List UInt8) (d : Delivery) : Delivery :=
  if bs.isEmpty then d else .bytes bs :: d

/-- Takes `need` bytes, or all there are before the next end, or the description of a failed
read. -/
def gather (need : Nat) : Delivery → Except String (List UInt8) × Delivery
  | [] => (.ok [], [])
  | arrival :: rest =>
    if need = 0 then (.ok [], arrival :: rest)
    else match arrival with
      | .bytes [] => (.ok [], rest)
      | .bytes bs =>
        if need ≤ bs.length then (.ok (bs.take need), putBack (bs.drop need) rest)
        else
          let (result, rest) := gather (need - bs.length) rest
          (result.map (bs ++ ·), rest)
      | .interrupted => gather need rest
      | .failure description => (.error description, rest)

end Delivery

namespace Frame

def message (coding : Coding) (payload : List UInt8) : Except FramingError Sexp :=
  match coding.decode payload with
  | none => .error (.decoding coding)
  | some text =>
    match Sexp.parse (Operator.expandText text) with
    | .error e => .error (.malformed e)
    | .ok v => .ok v

/-- Reads the payload that follows a header, and the message in it. -/
def readPayload (coding : Coding) (size : Nat) (d : Delivery) :
    Except FramingError Sexp × Delivery :=
  match d.gather size with
  | (.error description, rest) => (.error (.io description), rest)
  | (.ok payload, rest) =>
    if payload.length < size then (.error (.truncated size payload.length), rest)
    else (message coding payload, rest)

def read (coding : Coding) (d : Delivery) : Except FramingError Sexp × Delivery :=
  match d.gather headerLength with
  | (.error description, rest) => (.error (.io description), rest)
  | (.ok [], rest) => (.error .closed, rest)
  | (.ok digits, rest) =>
    if digits.length < headerLength then
      (.error (.truncated headerLength digits.length), rest)
    else match parseHeader digits with
      | .error e => (.error e, rest)
      | .ok size => readPayload coding size rest

/-- Reads frames up to the first error, at most `limit` of them. -/
def readAll (coding : Coding) : Nat → Delivery → List Sexp × Option FramingError × Delivery
  | 0, d => ([], none, d)
  | limit + 1, d =>
    match read coding d with
    | (.error e, rest) => ([], some e, rest)
    | (.ok v, rest) =>
      let (vs, e, rest) := readAll coding limit rest
      (v :: vs, e, rest)

end Frame

end EvalServer
