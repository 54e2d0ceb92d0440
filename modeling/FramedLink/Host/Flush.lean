import FramedLink.Session.Disconnect
/-!
# Flushing through the host

A host flushes one of its sessions, or all of them in turn, in any order.  A flush that fails ends the session: with a
queue error as a broken contract, with anything else as a lost transport.
-/
namespace FramedLink

/-- The reason with which a host ends a session whose flush failed. -/
def FlushError.reason (error : FlushError) : DisconnectReason :=
  if error.queueError.isSome then .contractViolation else .transportClosed

/-- A host's flush of one session in the middle of a transmit, or of the disconnect that a failure led to. -/
inductive HostFlush (A : Application) where
  | flushing (id : SessionId) (rest : Flush)
  | failing (rest : Disconnect A)

/-- A flush of all sessions: what the sessions before have sent, the session at hand, and those still to come. -/
structure Sweep (A : Application) where
  total : TickSummary
  current : HostFlush A
  rest : List SessionId

namespace World

variable {A : Application}

/-- Ends the session if its flush failed; a failed flush counts as nothing sent. -/
def settleFlush (world : World A) (id : SessionId) :
    Except FlushError TickSummary → Activity A (HostFlush A) TickSummary
  | .ok summary => .finish world summary
  | .error e => (world.disconnect id e.reason false).andThen .failing fun world _ => .finish world {}

/-- One tick of a session, tracked or not. -/
def flushSession (world : World A) (id : SessionId) : Activity A (HostFlush A) TickSummary :=
  (world.tick id).andThen (.flushing id) (settleFlush · id)

/-- One tick of a tracked session; nothing for any other. -/
def hostTick (world : World A) (id : SessionId) : Activity A (HostFlush A) TickSummary :=
  if world.tracks id then world.flushSession id else .finish world {}

/-- One tick of each of the given sessions. -/
def sweep (world : World A) (total : TickSummary) : List SessionId → Activity A (Sweep A) TickSummary
  | [] => .finish world total
  | id :: rest =>
    (world.flushSession id).andThen (⟨total, ·, rest⟩) fun world summary => world.sweep (total.add summary) rest

/-- One tick of every session that the host tracks now, in an order of its own. -/
def flushAll (world : World A) (order : Enumeration) : Activity A (Sweep A) TickSummary :=
  world.sweep {} (order.arrange world.tracked)

end World

def HostFlush.resume {A : Application} (world : World A) (reply : Reply) :
    HostFlush A → Activity A (HostFlush A) TickSummary
  | .flushing id rest => (rest.resume world reply).andThen (.flushing id) (World.settleFlush · id)
  | .failing rest => (rest.resume world reply).andThen .failing fun world _ => .finish world {}

def Sweep.resume {A : Application} (world : World A) (reply : Reply) (sweep : Sweep A) :
    Activity A (Sweep A) TickSummary :=
  (sweep.current.resume world reply).andThen (⟨sweep.total, ·, sweep.rest⟩) fun world summary =>
    world.sweep (sweep.total.add summary) sweep.rest

end FramedLink
