import FramedLink.SpinLock
import FramedLink.Text
import FramedLink.Wire.Encoder
/-!
# The outbox

The outgoing half of a session: payloads wait in order of acceptance until a flush puts their frames on the link.
Every accepted payload is charged against a cap until its frame is completely written, also while it is held half
written.  A closed outbox accepts and sends nothing.
-/
namespace FramedLink

/-- Why a flush failed. -/
inductive QueueError where
  | flushInProgress
  | encoder (cause : EncoderError)
deriving DecidableEq

def QueueError.message : QueueError → String
  | .flushInProgress => "Another flush of this queue is already in progress"
  | .encoder cause => "Encoder failed: " ++ cause.message

/-- An outbox.  `charged` counts the payload bytes that wait or are held, `dispatched` the frames completely written.
`holding` repeats for readers whether a frame is held.  The encoder and the length of the payload that it holds belong
to whoever holds `lock`. -/
structure Outbox where
  cap : Nat
  waiting : List Payload := []
  charged : Nat := 0
  dispatched : Nat := 0
  closed : Bool := false
  holding : Bool := false
  encoder : Encoder := .fresh
  heldLen : Nat := 0
  lock : SpinLock := .free
deriving DecidableEq

namespace Outbox

/-- An open outbox in which nothing waits. -/
def ofCap (cap : Nat) : Outbox := { cap }

def isEmpty (box : Outbox) : Bool := box.waiting.isEmpty && !box.holding

/-- A payload of this length is accepted now: the box is open and the charge stays within the cap. -/
def admits (box : Outbox) (length : Nat) : Bool := !box.closed && box.charged + length ≤ box.cap

/-- Takes a payload in behind the others, or refuses it and changes nothing. -/
def enqueue (box : Outbox) (payload : Payload) : Outbox × Bool :=
  if box.admits payload.length then
    ({ box with waiting := box.waiting ++ [payload], charged := box.charged + payload.length }, true)
  else (box, false)

/-- A payload is taken in exactly if it is admitted. -/
@[simp] theorem enqueue_snd (box : Outbox) (payload : Payload) :
    (box.enqueue payload).2 = box.admits payload.length := by
  unfold enqueue
  split <;> simp_all

/-- Gives the charge of a payload back. -/
def discharge (box : Outbox) (length : Nat) : Outbox := { box with charged := box.charged - length }

/-- Closes the box and drops everything that waits or is held, with its charge.  Closing again does nothing.  Who closes
has waited for a running flush to end, so the encoder is free to be reset. -/
def close (box : Outbox) : Outbox :=
  if box.closed then box
  else
    { box.discharge (box.heldLen + box.waiting.flatten.length) with
      closed := true, waiting := [], encoder := box.encoder.reset, heldLen := 0, holding := false }

/-- The bytes still to be sent: the rest of the held frame, then the frames of the payloads that wait. -/
def unsent (box : Outbox) : List UInt8 := box.encoder.unsent ++ frames box.waiting

/-- The frames still to be completed, as the bytes that each still needs: the held one first. -/
def pending (box : Outbox) : List (List UInt8) :=
  (box.encoder.held.map Held.unsent).toList ++ box.waiting.map frame

def describe (box : Outbox) : String :=
  Text.record "OutgoingQueue"
    [("len", toString box.waiting.length), ("indexed_memory", toString box.charged),
      ("max_indexed_memory", toString box.cap), ("dispatched", toString box.dispatched),
      ("closed", toString box.closed)]

end Outbox
end FramedLink
