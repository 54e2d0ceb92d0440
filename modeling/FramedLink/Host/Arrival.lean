import FramedLink.Dispatch.Delivery
/-!
# Bytes arriving at the host

Received bytes are decoded to payloads, and these are delivered one after the other as long as the session is connected.
Bytes that do not decode end the session.
-/
namespace FramedLink

/-- An arrival in the middle of a delivery, with the payloads still to come, or of the disconnect that malformed bytes
led to. -/
inductive Arrival (A : Application) where
  | delivering (id : SessionId) (handled : Nat) (rest : List Payload) (current : Delivery A)
  | malformed (rest : Disconnect A)

namespace World

variable {A : Application}

/-- Delivers payloads as long as the session is connected; `handled` messages have been handled before. -/
def deliverAll (world : World A) (id : SessionId) (handled : Nat) : List Payload → Activity A (Arrival A) Nat
  | [] => .finish world handled
  | payload :: rest =>
    if (world.session id).state = .connected then
      (world.dispatch id payload).andThen (.delivering id handled rest) fun world outcome =>
        world.deliverAll id (if outcome.isHandled then handled + 1 else handled) rest
    else .finish world handled

/-- Takes in bytes for a session.  The result counts the messages that reached handlers; bytes for a session that the
host does not track are dropped. -/
def hostReceive (world : World A) (id : SessionId) (chunk : List UInt8) : Activity A (Arrival A) Nat :=
  if world.tracks id then
    let (session, result) := (world.session id).receive chunk
    let world := world.put id session
    match result with
    | .error _ => (world.disconnect id .malformedData false).andThen .malformed fun world _ => .finish world 0
    | .ok payloads => world.deliverAll id 0 payloads
  else .finish world 0

end World

def Arrival.resume {A : Application} (world : World A) (reply : Reply) : Arrival A → Activity A (Arrival A) Nat
  | .delivering id handled rest current =>
    (current.resume world reply).andThen (.delivering id handled rest) fun world outcome =>
      world.deliverAll id (if outcome.isHandled then handled + 1 else handled) rest
  | .malformed rest => (rest.resume world reply).andThen .malformed fun world _ => .finish world 0

end FramedLink
