import EvalServer.Frame.Basic

/-!
# Writing frames

A writer takes some of the bytes offered to it at each call, or fails. `transmit` offers bytes
until all are taken, and then has them flushed, or until a call fails; `Frame.send` transmits the
frame of a message. `takenIn` is what has been taken of some bytes when a transmission is given up
between two calls.
-/

namespace EvalServer

/-- What a writer does at one call. -/
inductive Acceptance where
  | takes (count : Nat)
  | fails (description : String)
  /-- The call fails also if it is for flushing what has been taken. -/
  | breaks (description : String)
  deriving Repr, DecidableEq

/-- What a writer does at its next calls; after the last of them it takes all that it is offered.
Nothing but a break keeps it from flushing. -/
abbrev Writer := List Acceptance

/-- Why a message was not sent. -/
inductive SendError where
  | encoding (error : EncodingError)
  | io (description : String)
  deriving Repr, DecidableEq

def SendError.message : SendError → String
  | .encoding error => error.message
  | .io description => "I/O error: " ++ description

/-- The bytes a writer took, the failure that ended the transmission, and the writer after it. -/
structure Transmission where
  taken : List UInt8
  failure : Option String
  writer : Writer
  deriving Repr, DecidableEq

namespace Writer

/-- A writer that takes `total` bytes before it fails, at most `step` of them a call. -/
def limited (step total : Nat) (description : String) : Writer :=
  if total = 0 then [.fails description]
  else if step = 0 then [.takes 0]
  else
    List.replicate (total / step) (.takes step) ++
      (if total % step = 0 then [] else [.takes (total % step)]) ++ [.fails description]

/-- A writer that takes at most `step` bytes a call and fails after `total` bytes, each if given. -/
def bounded (step total : Option Nat) (description : String) : Writer :=
  match total with
  | some total => limited (step.getD total) total description
  | none => if step = some 0 then [.takes 0] else []

/-- Offers bytes until all are taken and flushed or a call fails; taking none is a failure. -/
def transmit : Writer → List UInt8 → Transmission
  | .breaks description :: w, _ => ⟨[], some description, w⟩
  | w, [] => ⟨[], none, w⟩
  | [], bytes => ⟨bytes, none, []⟩
  | .fails description :: w, _ => ⟨[], some description, w⟩
  | .takes count :: w, bytes =>
    if count = 0 then ⟨[], some "write zero", w⟩
    else
      let after := transmit w (bytes.drop count)
      ⟨bytes.take count ++ after.taken, after.failure, after.writer⟩

/-- What has been taken of some bytes after so many calls. -/
def takenIn : (calls : Nat) → Writer → List UInt8 → List UInt8
  | 0, _, _ => []
  | _ + 1, [], bytes => bytes
  | calls + 1, .takes count :: w, bytes =>
    bytes.take count ++ takenIn calls w (bytes.drop count)
  | _ + 1, _ :: _, _ => []

/-- A transmission takes bytes from the first on, and all of them unless it fails. -/
theorem taken_transmit_isPrefix (w : Writer) (bytes : List UInt8) :
    (w.transmit bytes).taken <+: bytes ∧
      ((w.transmit bytes).failure = none → (w.transmit bytes).taken = bytes) := by
  induction w generalizing bytes with
  | nil => cases bytes <;> simp [transmit]
  | cons acceptance rest ih =>
    cases acceptance with
    | breaks description => simp [transmit]
    | fails description => cases bytes <;> simp [transmit]
    | takes count =>
      cases bytes with
      | nil => simp [transmit]
      | cons b bytes =>
        by_cases hcount : count = 0
        · simp [transmit, hcount]
        · simp only [transmit, hcount, if_false]
          obtain ⟨hpart, hall⟩ := ih ((b :: bytes).drop count)
          have hsplit := List.take_append_drop count (b :: bytes)
          constructor
          · have htaken := (List.prefix_append_right_inj ((b :: bytes).take count)).2 hpart
            rwa [hsplit] at htaken
          · intro hnone
            rw [hall hnone, hsplit]

/-- A transmission that is given up has taken bytes from the first on. -/
theorem takenIn_isPrefix (calls : Nat) (w : Writer) (bytes : List UInt8) :
    w.takenIn calls bytes <+: bytes := by
  induction calls generalizing w bytes with
  | zero => exact List.nil_prefix
  | succ calls ih =>
    cases w with
    | nil => exact List.prefix_refl _
    | cons acceptance rest =>
      cases acceptance with
      | fails | breaks => exact List.nil_prefix
      | takes count =>
        have htaken := (List.prefix_append_right_inj (bytes.take count)).2 (ih rest (bytes.drop count))
        rwa [List.take_append_drop] at htaken

end Writer

namespace Frame

/-- Sends a message: what was written, and why it was not written whole. -/
def send (coding : Coding) (w : Writer) (v : Sexp) : List UInt8 × Option SendError × Writer :=
  match encode coding v with
  | .error e => ([], some (.encoding e), w)
  | .ok bytes =>
    let sent := w.transmit bytes
    (sent.taken, sent.failure.map .io, sent.writer)

/-- What has been written of a message after so many calls of the writer. -/
def sentIn (coding : Coding) (calls : Nat) (w : Writer) (v : Sexp) : List UInt8 :=
  match encode coding v with
  | .error _ => []
  | .ok bytes => w.takenIn calls bytes

end Frame

end EvalServer
