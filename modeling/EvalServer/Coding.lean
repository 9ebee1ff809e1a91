import EvalServer.Text.Quoted
import EvalServer.Text.Utf8
import EvalServer.Text.Decimal

/-!
# Coding systems

How the text of a message becomes bytes. UTF-8 encodes every text and decodes only well-formed
bytes; Latin-1 encodes only characters up to U+00FF and decodes every byte.
-/

namespace EvalServer

/-- A character encoding for message payloads. -/
inductive Coding where
  | utf8
  | latin1
  deriving Repr, DecidableEq, Inhabited

namespace Coding

def name : Coding → String
  | .utf8 => "utf-8-unix"
  | .latin1 => "iso-latin-1-unix"

def all : List Coding := [.utf8, .latin1]

def ofName? (s : String) : Option Coding :=
  all.find? fun coding => coding.name = s

end Coding

/-- Why an outgoing message has no frame. -/
inductive EncodingError where
  | payloadTooLarge (size : Nat)
  | unrepresentable (c : Char) (coding : Coding)
  deriving Repr, DecidableEq

def EncodingError.message : EncodingError → String
  | .payloadTooLarge size =>
    "payload of " ++ Text.Decimal.natText size ++ " bytes exceeds the 24-bit length header"
  | .unrepresentable c coding =>
    "character " ++ Text.Quoted.char c ++ " cannot be encoded as " ++ coding.name

namespace Coding

/-- The Latin-1 bytes of characters, or the first character that has none. -/
def encodeLatin1 (cs : List Char) : Except EncodingError (List UInt8) :=
  match cs.find? fun c => 256 ≤ c.toNat with
  | some c => .error (.unrepresentable c .latin1)
  | none => .ok (cs.map fun c => UInt8.ofNat c.toNat)

def encode (coding : Coding) (text : String) : Except EncodingError (List UInt8) :=
  match coding with
  | .utf8 => .ok (Text.Utf8.encode text.toList)
  | .latin1 => encodeLatin1 text.toList

/-- The text of bytes, if they are valid in the coding system. -/
def decode (coding : Coding) (bytes : List UInt8) : Option String :=
  match coding with
  | .utf8 => (Text.Utf8.decode? bytes).map String.ofList
  | .latin1 => some (String.ofList (bytes.map fun b => Char.ofNat b.toNat))

end Coding

end EvalServer
