import FramedLink.Wire.Frame
/-!
# The frame encoder

Packs frames into room that a caller offers piece by piece.  All that outlives one piece is at most one frame that did
not fit (`Held`), kept as what is left of its header and of its payload, so that a boundary may fall anywhere in it.

Main statements: what a held frame writes is the front of what it has not written yet (`Held.write_bytes`), and the rest
stays (`Held.write_unsent`).
-/
namespace FramedLink

/-- Ways of misusing an encoder, and the one payload that no header can describe. -/
inductive EncoderError where
  | alreadyHolding
  | nothingPending
  | messageTooLong (length : Nat)
  | offsetOutOfBounds (offset size : Nat)
deriving DecidableEq

def EncoderError.message : EncoderError → String
  | .alreadyHolding => "Attempted to start a new message while a partially written message is pending"
  | .nothingPending => "Attempted to flush an encoder which has no partially written message"
  | .messageTooLong length => s!"Message of {length} bytes is too long to be described by a length header"
  | .offsetOutOfBounds offset size => s!"Offset {offset} is beyond the end of a buffer of {size} bytes"

/-- A frame of which a part is still to be written: what is left of the header, what is left of the payload, and the
length of the whole payload. -/
structure Held where
  header : List UInt8
  body : List UInt8
  payloadLen : Nat
deriving DecidableEq

namespace Held

/-- A frame of which nothing has been written. -/
def ofPayload (payload : Payload) : Held := ⟨FramedLink.header payload.length, payload, payload.length⟩

def unsent (held : Held) : List UInt8 := held.header ++ held.body

def remaining (held : Held) : Nat := held.header.length + held.body.length

/-- Writes what fits into `room` bytes: the header first, and the payload into what the header leaves. -/
def write (held : Held) (room : Nat) : List UInt8 × Held :=
  let left := room - held.header.length
  (held.header.take room ++ held.body.take left,
    { held with header := held.header.drop room, body := held.body.drop left })

@[simp] theorem unsent_ofPayload (payload : Payload) : (ofPayload payload).unsent = frame payload := rfl

@[simp] theorem length_unsent (held : Held) : held.unsent.length = held.remaining := by simp [unsent, remaining]

/-- **A held frame writes the front of what is unsent.** -/
theorem write_bytes (held : Held) (room : Nat) : (held.write room).1 = held.unsent.take room := by
  simp [write, unsent, List.take_append]

/-- What a write leaves is the rest of what was unsent. -/
theorem write_unsent (held : Held) (room : Nat) : (held.write room).2.unsent = held.unsent.drop room := by
  simp [write, unsent, List.drop_append]

end Held

/-- An encoder between two pieces of room: it holds a frame or it does not. -/
structure Encoder where
  held : Option Held := none
deriving DecidableEq

/-- What one call of an encoder wrote, whether its frame is complete, and the encoder afterwards. -/
structure Emission where
  bytes : List UInt8
  complete : Bool
  encoder : Encoder
deriving DecidableEq

namespace Encoder

def fresh : Encoder := {}

/-- A frame is partly written, so no other may be started. -/
def isHolding (encoder : Encoder) : Bool := encoder.held.isSome

def heldPayloadLen (encoder : Encoder) : Option Nat := encoder.held.map Held.payloadLen

/-- Bytes of the held frame, header included, that are still to be written. -/
def heldRemaining (encoder : Encoder) : Nat := (encoder.held.map Held.remaining).getD 0

def unsent (encoder : Encoder) : List UInt8 := (encoder.held.map Held.unsent).getD []

def reset (_ : Encoder) : Encoder := fresh

/-- Starts the frame of `payload` in `room` bytes.  A frame that fits is written at once; of any other as much is
written as fits and the rest is held. -/
def offer (encoder : Encoder) (room : Nat) (payload : Payload) : Except EncoderError Emission :=
  if encoder.isHolding then .error .alreadyHolding
  else if lengthLimit ≤ payload.length then .error (.messageTooLong payload.length)
  else if headerSize + payload.length ≤ room then .ok ⟨frame payload, true, encoder⟩
  else
    let (bytes, held) := (Held.ofPayload payload).write room
    .ok ⟨bytes, false, ⟨some held⟩⟩

/-- Goes on with the held frame in `room` bytes.  Once nothing of it is left the encoder stops holding. -/
def resume (encoder : Encoder) (room : Nat) : Except EncoderError Emission :=
  match encoder.held with
  | none => .error .nothingPending
  | some held =>
    let (bytes, rest) := held.write room
    if rest.remaining = 0 then .ok ⟨bytes, true, ⟨none⟩⟩ else .ok ⟨bytes, false, ⟨some rest⟩⟩

@[simp] theorem length_unsent (encoder : Encoder) : encoder.unsent.length = encoder.heldRemaining := by
  cases h : encoder.held <;> simp [unsent, heldRemaining, h]

end Encoder

end FramedLink
