import FramedLink.Application
import FramedLink.Directory
import FramedLink.Host.Basic
import FramedLink.Session.Basic
/-!
# The world of a host

All sessions with the observers they share, and what the host knows: its limits, the ids it has given out, which
sessions it still tracks, whether it is shut down, and its flush loops.  A session that the host has forgotten stays in
the world, because outside code may still act on it.

Main statements: a session that was put is the one that is there (`session_put_self`), and putting it touches no other
(`session_put_of_ne`).
-/
namespace FramedLink

/-- Sessions, observers and host. -/
structure World (A : Application) where
  config : HostConfig := {}
  sessions : Directory SessionId (Session A.Identity) := {}
  observers : List A.Observer := []
  ids : SessionIds := {}
  tracked : List SessionId := []
  isShutDown : Bool := false
  loops : List FlushLoop := []

namespace World

variable {A : Application}

/-- The world of a new host, unless its limits are refused. -/
def ofConfig (config : HostConfig) : Except ConfigError (World A) := config.validate.map fun _ => { config }

/-- The world of one session without a host.  The id of the session has been given out. -/
def ofSession (session : Session A.Identity) : World A :=
  { sessions := ({} : Directory SessionId (Session A.Identity)).set session.id session, ids := ⟨session.id.number + 1⟩ }

def knows (world : World A) (id : SessionId) : Bool := (world.sessions.get? id).isSome

/-- The session with an id.  An id that no session has reads as a session that has just been started. -/
def session (world : World A) (id : SessionId) : Session A.Identity :=
  (world.sessions.get? id).getD (.start id world.config.session)

def put (world : World A) (id : SessionId) (session : Session A.Identity) : World A :=
  { world with sessions := world.sessions.set id session }

def modify (world : World A) (id : SessionId) (f : Session A.Identity → Session A.Identity) : World A :=
  world.put id (f (world.session id))

def addObserver (world : World A) (observer : A.Observer) : World A :=
  { world with observers := world.observers ++ [observer] }

def tracks (world : World A) (id : SessionId) : Bool := world.tracked.contains id

def forget (world : World A) (id : SessionId) : World A := { world with tracked := world.tracked.filter (· ≠ id) }

/-- Starts and tracks a new session, unless the host is shut down or tracks as many as it may.  A refusal uses up no
id. -/
def openSession (world : World A) : World A × Except HostError SessionId :=
  if world.isShutDown then (world, .error .shutDown)
  else if world.config.maxSessions ≤ world.tracked.length then (world, .error (.tooManySessions world.tracked.length))
  else
    let (id, ids) := world.ids.issue
    ({ world.put id (.start id world.config.session) with ids, tracked := world.tracked ++ [id] }, .ok id)

/-- Takes a payload into the outbox of a tracked session; refused for any other. -/
def hostEnqueue (world : World A) (id : SessionId) (payload : Payload) : World A × Bool :=
  if world.tracks id then
    let (session, accepted) := (world.session id).enqueue payload
    (world.put id session, accepted)
  else (world, false)

def describe (world : World A) : String :=
  Text.record "SessionHost"
    [("config", world.config.describe), ("sessions", toString world.tracked.length),
      ("shut_down", toString world.isShutDown)]

def describeObservers (world : World A) : String :=
  Text.record "ObserverList" [("len", toString world.observers.length)]

/-- **A session that was put is there.** -/
@[simp] theorem session_put_self (world : World A) (id : SessionId) (session : Session A.Identity) :
    (world.put id session).session id = session := by
  simp [World.session, put]

theorem session_put_of_ne (world : World A) {id other : SessionId} (session : Session A.Identity) (h : id ≠ other) :
    (world.put id session).session other = world.session other := by
  simp [World.session, put, Directory.get?_set_of_ne _ _ h]

/-- A session that is put back changes nothing. -/
theorem put_session {world : World A} {id : SessionId} (h : world.knows id = true) :
    world.put id (world.session id) = world := by
  obtain ⟨session, hget⟩ := Option.isSome_iff_exists.1 h
  have hsession : world.session id = session := by rw [World.session, hget]; rfl
  rw [put, hsession, Directory.set_of_get? hget]

theorem put_put (world : World A) (id : SessionId) (first second : Session A.Identity) :
    (world.put id first).put id second = world.put id second := by
  rw [put, put, put, Directory.set_set]

theorem put_comm {world : World A} {id other : SessionId} (session otherSession : Session A.Identity) (h : id ≠ other)
    (hknown : world.knows id = true) :
    (world.put id session).put other otherSession = (world.put other otherSession).put id session := by
  rw [put, put, put, put, Directory.set_comm _ _ h hknown]

@[simp] theorem knows_put_self (world : World A) (id : SessionId) (session : Session A.Identity) :
    (world.put id session).knows id = true := by
  simp [knows, put]

theorem knows_put_of_ne (world : World A) {id other : SessionId} (session : Session A.Identity) (h : id ≠ other) :
    (world.put id session).knows other = world.knows other := by
  simp [knows, put, Directory.get?_set_of_ne _ _ h]

end World
end FramedLink
