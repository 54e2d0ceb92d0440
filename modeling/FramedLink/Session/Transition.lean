import FramedLink.Activity
/-!
# Moving a session to another state

A session that moves has already moved when the first observer hears of it.  Observers are told in order of
registration, those of the moment at which the round began.  A session that has reached Disconnected has a second
round, in which the observers are told why it ended.
-/
namespace FramedLink

/-- A transition in the middle of a round: which observers are still to be told. -/
inductive Transition (A : Application) where
  | telling (id : SessionId) (source target : ConnectionState) (rest : List A.Observer)
  | parting (id : SessionId) (reason : DisconnectReason) (rest : List A.Observer)

namespace World

variable {A : Application}

/-- The second round: tells observers why the session ended. -/
def bidFarewell (world : World A) (id : SessionId) (reason : DisconnectReason) :
    List A.Observer → Activity A (Transition A) (Except SessionError Bool)
  | [] => .finish world (.ok true)
  | observer :: rest => .ask world (.disconnected observer id reason) (.parting id reason rest)

/-- The first round: tells observers that the session moved.  A session that ended without a reason is taken to have
lost its transport. -/
def tell (world : World A) (id : SessionId) (source target : ConnectionState) :
    List A.Observer → Activity A (Transition A) (Except SessionError Bool)
  | [] =>
    if target = .disconnected then
      let world := world.modify id (·.noteReason .transportClosed)
      world.bidFarewell id ((world.session id).reason.getD .transportClosed) world.observers
    else .finish world (.ok true)
  | observer :: rest => .ask world (.stateChanged observer id source target) (.telling id source target rest)

/-- Moves a session to `target`.  The result is false if it was there already, and an error if no edge leads there. -/
def transition (world : World A) (id : SessionId) (target : ConnectionState) :
    Activity A (Transition A) (Except SessionError Bool) :=
  let session := world.session id
  if session.state = target then .finish world (.ok false)
  else if !session.state.canTransitionTo target then
    .finish world (.error (.invalidTransition session.id session.state target))
  else
    let world := world.put id (session.enter target)
    world.tell id session.state target world.observers

end World

def Transition.resume {A : Application} (world : World A) :
    Transition A → Activity A (Transition A) (Except SessionError Bool)
  | .telling id source target rest => world.tell id source target rest
  | .parting id reason rest => world.bidFarewell id reason rest

end FramedLink
