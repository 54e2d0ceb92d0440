import FramedLink.Session.Disconnect
/-!
# Delivering a message to its handlers

A payload that a session received is decoded and handed to the handlers of its kind, one after the other.  A payload
that does not decode, or a protected kind from a peer that has not authenticated, ends the session instead.  A handler
that fails does not keep the others from running; one that asks for the end of the session does.
-/
namespace FramedLink

/-- What became of a payload: so many handlers were called, nothing is registered for its kind, the session was ended
instead, or the session was closing and the payload was not even decoded. -/
inductive DispatchOutcome where
  | handled (handlers : Nat)
  | unhandled
  | rejected (reason : DisconnectReason)
  | sessionClosing
deriving DecidableEq

def DispatchOutcome.isHandled : DispatchOutcome → Bool
  | handled _ => true
  | unhandled | rejected _ | sessionClosing => false

/-- A delivery in the middle of a handler's call, or of the disconnect that a rejection or a handler led to. -/
inductive Delivery (A : Application) where
  | handling (id : SessionId) (message : A.Message) (called : Nat) (rest : List A.Handler)
  | rejecting (reason : DisconnectReason) (rest : Disconnect A)
  | ending (called : Nat) (rest : Disconnect A)

namespace World

variable {A : Application}

/-- Calls handlers in turn; `called` of them have been called before. -/
def callHandlers (world : World A) (id : SessionId) (message : A.Message) (called : Nat) :
    List A.Handler → Activity A (Delivery A) DispatchOutcome
  | [] => .finish world (.handled called)
  | handler :: rest => .ask world (.handle handler id message) (.handling id message (called + 1) rest)

/-- Ends the session instead of delivering. -/
def rejectPayload (world : World A) (id : SessionId) (reason : DisconnectReason) :
    Activity A (Delivery A) DispatchOutcome :=
  (world.disconnect id reason false).andThen (.rejecting reason) fun world _ => .finish world (.rejected reason)

def dispatch (world : World A) (id : SessionId) (payload : Payload) : Activity A (Delivery A) DispatchOutcome :=
  let session := world.session id
  if session.state.isClosing then .finish world .sessionClosing
  else
    match A.decode payload with
    | none => world.rejectPayload id .malformedData
    | some message =>
      match A.table.get? (A.kindOf message) with
      | none => .finish world .unhandled
      | some entry =>
        if entry.requiresAuthentication && !session.isAuthenticated then world.rejectPayload id .exploitAttempt
        else (world.put id session.countHandled).callHandlers id message 0 entry.handlers

end World

def Delivery.resume {A : Application} (world : World A) (reply : Reply) :
    Delivery A → Activity A (Delivery A) DispatchOutcome
  | .handling id message called rest =>
    match reply with
    | .endSession graceful =>
      (world.disconnect id .requested graceful).andThen (.ending called) fun world _ => .finish world (.handled called)
    | .done | .failed _ => world.callHandlers id message called rest
  | .rejecting reason rest =>
    (rest.resume world reply).andThen (.rejecting reason) fun world _ => .finish world (.rejected reason)
  | .ending called rest =>
    (rest.resume world reply).andThen (.ending called) fun world _ => .finish world (.handled called)

end FramedLink
