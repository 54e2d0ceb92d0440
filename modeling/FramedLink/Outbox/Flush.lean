import FramedLink.Outbox.Basic
import FramedLink.Wire.Packing
/-!
# Flushing an outbox

A flush writes frames into the room it is given: first the rest of the held frame, then the waiting payloads in order,
until the room is full or the limit on completed frames is reached.  A frame that does not fit is written in part and
held for the next flush.  The held frame is finished whatever the limit.
-/
namespace FramedLink

/-- How many more frames may be completed; nothing for as many as there are. -/
abbrev Limit := Option Nat

namespace Limit

/-- No frame may be completed any more. -/
def isReached (limit : Limit) : Bool := limit = some 0

def less (limit : Limit) (n : Nat) : Limit := limit.map (· - n)

end Limit

/-- What a flush put out: its bytes, and how many frames end in them. -/
structure Output where
  bytes : List UInt8
  completed : Nat
deriving DecidableEq

def Output.nothing : Output := ⟨[], 0⟩

/-- An outbox after packing, what was put out, and the fault of the encoder that stopped it, if any. -/
structure Packed where
  box : Outbox
  output : Output
  fault : Option EncoderError := none
deriving DecidableEq

namespace Outbox

/-- Packs waiting payloads, which are given apart from the box so that each step takes the first of them.  A payload
that the encoder refuses is gone and its charge stays. -/
def packWaiting (box : Outbox) (room : Nat) (limit : Limit) : List Payload → Packed
  | [] => ⟨{ box with waiting := [] }, .nothing, none⟩
  | payload :: rest =>
    if limit.isReached then ⟨{ box with waiting := payload :: rest }, .nothing, none⟩
    else
      match box.encoder.offer room payload with
      | .error e => ⟨{ box with waiting := rest }, .nothing, some e⟩
      | .ok ⟨bytes, true, encoder⟩ =>
        let box := { box.discharge payload.length with encoder }
        let later := box.packWaiting (room - bytes.length) (limit.less 1) rest
        { later with output := ⟨bytes ++ later.output.bytes, later.output.completed + 1⟩ }
      | .ok ⟨bytes, false, encoder⟩ =>
        ⟨{ box with waiting := rest, encoder, heldLen := payload.length }, ⟨bytes, 0⟩, none⟩

/-- Packs the rest of the held frame, and waiting payloads once it is out. -/
def pack (box : Outbox) (room : Nat) (limit : Limit) : Packed :=
  if box.encoder.isHolding then
    match box.encoder.resume room with
    | .error e => ⟨box, .nothing, some e⟩
    | .ok ⟨bytes, false, encoder⟩ => ⟨{ box with encoder }, ⟨bytes, 0⟩, none⟩
    | .ok ⟨bytes, true, encoder⟩ =>
      let box := { box.discharge box.heldLen with encoder, heldLen := 0 }
      let later := box.packWaiting (room - bytes.length) (limit.less 1) box.waiting
      { later with output := ⟨bytes ++ later.output.bytes, later.output.completed + 1⟩ }
  else box.packWaiting room limit box.waiting

/-- Sends what fits into `room` bytes.  One flush at a time: who finds the lock taken is refused.  A closed box sends
nothing. -/
def drain (box : Outbox) (room : Nat) (limit : Limit) : Outbox × Except QueueError Output :=
  match box.lock.tryTake with
  | (false, _) => (box, .error .flushInProgress)
  | (true, lock) =>
    if box.closed then (box, .ok .nothing)
    else
      let packed := { box with lock }.pack room limit
      let freed := { packed.box with lock := packed.box.lock.release }
      match packed.fault with
      | some e => (freed, .error (.encoder e))
      | none =>
        ({ freed with
            holding := packed.box.encoder.isHolding, dispatched := packed.box.dispatched + packed.output.completed },
          .ok packed.output)

/-- Flushes into a buffer from `offset` on.  An open box refuses an offset beyond the end of the buffer and stays as it
was; a closed one sends nothing, whatever the offset. -/
def flush (box : Outbox) (buffer : List UInt8) (offset : Nat) (limit : Limit) :
    Outbox × Except QueueError (Output × List UInt8) :=
  if !box.lock.taken && !box.closed && buffer.length < offset then
    (box, .error (.encoder (.offsetOutOfBounds offset buffer.length)))
  else
    let (after, result) := box.drain (buffer.length - offset) limit
    (after, result.map fun output => (output, overwrite buffer offset output.bytes))

end Outbox
end FramedLink
