import FramedLink.Session.Disconnect
/-!
# Shutting a host down

A host that is shut down refuses new sessions and disconnects those that it tracks, each after a flush and in any order.
They are forgotten as their transports report them disconnected.
-/
namespace FramedLink

/-- A shutdown in the middle of a disconnect, with the sessions still to come. -/
structure Shutdown (A : Application) where
  current : Disconnect A
  rest : List SessionId

namespace World

variable {A : Application}

/-- Disconnects sessions in turn, because the host shuts down. -/
def disconnectEach (world : World A) : List SessionId → Activity A (Shutdown A) Unit
  | [] => .finish world ()
  | id :: rest =>
    (world.disconnect id .hostShutdown true).andThen (⟨·, rest⟩) fun world _ => world.disconnectEach rest

/-- Shuts the host down; once it is, further calls do nothing. -/
def shutdown (world : World A) (order : Enumeration) : Activity A (Shutdown A) Unit :=
  if world.isShutDown then .finish world ()
  else { world with isShutDown := true }.disconnectEach (order.arrange world.tracked)

end World

def Shutdown.resume {A : Application} (world : World A) (reply : Reply) (shutdown : Shutdown A) :
    Activity A (Shutdown A) Unit :=
  (shutdown.current.resume world reply).andThen (⟨·, shutdown.rest⟩) fun world _ =>
    world.disconnectEach shutdown.rest

end FramedLink
