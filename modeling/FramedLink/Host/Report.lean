import FramedLink.Session.Transition
/-!
# The transport's reports

The transport reports the state of a connection to the host.  A session that is reported disconnected is forgotten, once
all observers have been told.
-/
namespace FramedLink

/-- A report in the middle of its transition. -/
structure Report (A : Application) where
  id : SessionId
  state : ConnectionState
  rest : Transition A

namespace World

variable {A : Application}

/-- Forgets a session that was reported disconnected. -/
def settleReport (world : World A) (id : SessionId) (state : ConnectionState) :
    Except SessionError Bool → Activity A (Report A) (Except SessionError Unit)
  | .error e => .finish world (.error e)
  | .ok _ => .finish (if state = .disconnected then world.forget id else world) (.ok ())

/-- Moves a session to the state that its transport reports.  A report for a session that the host does not track
means nothing. -/
def report (world : World A) (id : SessionId) (state : ConnectionState) :
    Activity A (Report A) (Except SessionError Unit) :=
  if world.tracks id then (world.transition id state).andThen (⟨id, state, ·⟩) (settleReport · id state)
  else .finish world (.ok ())

end World

def Report.resume {A : Application} (world : World A) (report : Report A) :
    Activity A (Report A) (Except SessionError Unit) :=
  (report.rest.resume world).andThen (⟨report.id, report.state, ·⟩) (World.settleReport · report.id report.state)

end FramedLink
