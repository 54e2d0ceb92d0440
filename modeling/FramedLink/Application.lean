import FramedLink.Dispatch.Table
import FramedLink.Outbox.Flush
import FramedLink.Session.State
/-!
# What the library is built on

The library leaves messages, handlers, observers and the transport to an application.  `Application` says what they
are; a `Query` is a call that the library makes of them, and a `Reply` is how such a call ends.
-/
namespace FramedLink

/-- The parts that an application supplies: its messages and how a payload decodes to one, the kinds they come in, the
handlers registered for each kind, its observers, and what it uses to identify a peer.  Decoding is taken to have no
effect, so that nobody sees whether a payload was decoded; a handler may do anything, and is therefore called as outside
code is. -/
structure Application where
  Message : Type
  Kind : Type
  Handler : Type
  Observer : Type
  Identity : Type
  decode : Payload → Option Message
  kindOf : Message → Kind
  kindEq : DecidableEq Kind
  table : DispatchTable Kind Handler

instance (A : Application) : DecidableEq A.Kind := A.kindEq

/-- An application of which only the sessions matter: payloads are messages, and nobody listens. -/
def Application.bare : Application where
  Message := Payload
  Kind := Unit
  Handler := Unit
  Observer := Unit
  Identity := Unit
  decode := some
  kindOf := fun _ => ()
  kindEq := inferInstance
  table := .empty

/-- An application with two kinds of messages and a handler for each: those that begin with 1 are protected. -/
def Application.guarded : Application where
  Message := Payload
  Kind := Bool
  Handler := Unit
  Observer := Unit
  Identity := Nat
  decode := some
  kindOf := fun payload => payload.head? = some 1
  kindEq := inferInstance
  table := ((DispatchTable.empty.register false false ()).1.register true true ()).1

/-- A failure reported by outside code: its text, and the queue error that it is, under whatever context was put around
it.  A queue error that has only caused another error does not count. -/
structure Failure where
  text : String
  queueError : Option QueueError := none
deriving DecidableEq

/-- A call of outside code. -/
inductive Query (A : Application) where
  | transmit (id : SessionId) (data : List UInt8)
  | close (id : SessionId) (reason : DisconnectReason) (notifyPeer : Bool)
  | handle (handler : A.Handler) (id : SessionId) (message : A.Message)
  | stateChanged (observer : A.Observer) (id : SessionId) (source target : ConnectionState)
  | disconnected (observer : A.Observer) (id : SessionId) (reason : DisconnectReason)

namespace Query

variable {A : Application}

def session : Query A → SessionId
  | transmit id _ | close id _ _ | handle _ id _ | stateChanged _ id _ _ | disconnected _ id _ => id

end Query

/-- How a call of outside code ends: with nothing further, with a handler's wish to end the session, or with a
failure.  Only a transport and a handler can fail, and only a handler can end the session; in all other cases a reply
counts as `done`. -/
inductive Reply where
  | done
  | endSession (graceful : Bool)
  | failed (failure : Failure)
deriving DecidableEq

end FramedLink
