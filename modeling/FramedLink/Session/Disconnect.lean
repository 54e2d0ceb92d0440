import FramedLink.Session.Flush
import FramedLink.Session.Transition
/-!
# Disconnecting a session

Disconnecting records the reason, sends what waits if that is asked for, moves the session to Disconnecting and asks the
transport to close.  Whoever moves the session is the one who closes the transport, and the first recorded reason is the
one that is given.
-/
namespace FramedLink

/-- A disconnect in the middle of its flush, of its transition, or of the transport's closing. -/
inductive Disconnect (A : Application) where
  | flushing (id : SessionId) (reason : DisconnectReason) (rest : Flush)
  | leaving (id : SessionId) (reason : DisconnectReason) (rest : Transition A)
  | closing

namespace World

variable {A : Application}

/-- Closes the transport if this disconnect is the one that moved the session. -/
def closeTransport (world : World A) (id : SessionId) (reason : DisconnectReason) :
    Except SessionError Bool → Activity A (Disconnect A) Unit
  | .ok true =>
    let reason := (world.session id).reason.getD reason
    .ask world (.close id reason reason.notifiesPeer) .closing
  | .ok false | .error _ => .finish world ()

/-- Moves the session to Disconnecting and closes the transport. -/
def leave (world : World A) (id : SessionId) (reason : DisconnectReason) : Activity A (Disconnect A) Unit :=
  (world.transition id .disconnecting).andThen (.leaving id reason) (closeTransport · id reason)

/-- Disconnects a session, which does nothing if it is already closing.  With `flushFirst` what waits is sent before
the outbox is emptied; a flush that fails changes nothing else. -/
def disconnect (world : World A) (id : SessionId) (reason : DisconnectReason) (flushFirst : Bool) :
    Activity A (Disconnect A) Unit :=
  let state := (world.session id).state
  if state.isClosing then .finish world ()
  else
    let world := world.modify id (·.noteReason reason)
    if flushFirst && state = .connected then
      (world.flushFully id).andThen (.flushing id reason) fun world _ => world.leave id reason
    else world.leave id reason

end World

def Disconnect.resume {A : Application} (world : World A) (reply : Reply) :
    Disconnect A → Activity A (Disconnect A) Unit
  | .flushing id reason rest =>
    (rest.resume world reply).andThen (.flushing id reason) fun world _ => world.leave id reason
  | .leaving id reason rest => (rest.resume world).andThen (.leaving id reason) (World.closeTransport · id reason)
  | .closing => .finish world ()

end FramedLink
