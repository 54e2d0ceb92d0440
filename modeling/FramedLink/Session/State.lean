/-!
# Ids, states and reasons of sessions

Sessions are numbered from one on.  A counter hands the numbers out, none of them twice.  A session moves through four
states and never back; the last is final.  A reason says why it ended and whether the peer is told.

Main statement: an edge leads from one state to another exactly if the other comes later (`canTransitionTo_iff`).
-/
namespace FramedLink

structure SessionId where
  number : Nat
deriving DecidableEq

namespace SessionId

def text (id : SessionId) : String := s!"session {id.number}"

/-- Ids are ordered by their numbers. -/
instance : Ord SessionId := ⟨fun a b => compare a.number b.number⟩

end SessionId

/-- Hands out session ids: the next number to give. -/
structure SessionIds where
  next : Nat := 1
deriving DecidableEq

/-- The next id, and the counter behind it. -/
def SessionIds.issue (ids : SessionIds) : SessionId × SessionIds := (⟨ids.next⟩, ⟨ids.next + 1⟩)

def SessionIds.issueMany (ids : SessionIds) : Nat → List SessionId
  | 0 => []
  | n + 1 => ids.issue.1 :: ids.issue.2.issueMany n

/-- The states of a connection, in the order in which they may be entered. -/
inductive ConnectionState where
  | connecting
  | connected
  | disconnecting
  | disconnected
deriving DecidableEq

namespace ConnectionState

/-- The place of a state in the order of a session's life. -/
def rank : ConnectionState → Nat
  | connecting => 0
  | connected => 1
  | disconnecting => 2
  | disconnected => 3

def text : ConnectionState → String
  | connecting => "Connecting"
  | connected => "Connected"
  | disconnecting => "Disconnecting"
  | disconnected => "Disconnected"

instance : Ord ConnectionState := ⟨fun a b => compare a.rank b.rank⟩

/-- The allowed edges: from each state to every later one. -/
def canTransitionTo : ConnectionState → ConnectionState → Bool
  | connecting, connected | connecting, disconnecting | connecting, disconnected => true
  | connected, disconnecting | connected, disconnected => true
  | disconnecting, disconnected => true
  | _, _ => false

/-- The session is ending or has ended. -/
def isClosing : ConnectionState → Bool
  | disconnecting | disconnected => true
  | connecting | connected => false

/-- **The edges are the steps upwards**, from any state to any later one. -/
theorem canTransitionTo_iff (source target : ConnectionState) :
    source.canTransitionTo target = true ↔ source.rank < target.rank := by
  cases source <;> cases target <;> decide

/-- No edge leads out of closing. -/
theorem isClosing_of_edge {source target : ConnectionState} (hclosing : source.isClosing = true)
    (hedge : source.canTransitionTo target = true) : target.isClosing = true := by
  cases source <;> cases target <;> simp_all [isClosing, canTransitionTo]

/-- No later state than a closing one is open. -/
theorem isClosing_of_rank_le {source target : ConnectionState} (hclosing : source.isClosing = true)
    (hle : source.rank ≤ target.rank) : target.isClosing = true := by
  cases source <;> cases target <;> simp_all [isClosing, rank]

/-- Disconnected is the last of all states. -/
theorem eq_disconnected {state : ConnectionState} (h : disconnected.rank ≤ state.rank) : state = disconnected := by
  cases state <;> first | rfl | exact absurd h (by decide)

end ConnectionState

/-- Why a session ended: it was asked for, the peer sent what it was not allowed to send, the peer sent what cannot be
decoded, a contract of this side was broken, the transport went away, or the host shuts down. -/
inductive DisconnectReason where
  | requested
  | exploitAttempt
  | malformedData
  | contractViolation
  | transportClosed
  | hostShutdown
deriving DecidableEq

namespace DisconnectReason

def text : DisconnectReason → String
  | requested => "Requested"
  | exploitAttempt => "ExploitAttempt"
  | malformedData => "MalformedData"
  | contractViolation => "ContractViolation"
  | transportClosed => "TransportClosed"
  | hostShutdown => "HostShutdown"

/-- The peer is told, unless the stream itself is suspect. -/
def notifiesPeer : DisconnectReason → Bool
  | malformedData | contractViolation => false
  | requested | exploitAttempt | transportClosed | hostShutdown => true

end DisconnectReason

/-- Why a session refused a call. -/
inductive SessionError where
  | invalidTransition (id : SessionId) (source target : ConnectionState)
  | alreadyAuthenticated (id : SessionId)
  | closing (id : SessionId)
deriving DecidableEq

def SessionError.message : SessionError → String
  | .invalidTransition id source target => id.text ++ " cannot move from " ++ source.text ++ " to " ++ target.text
  | .alreadyAuthenticated id => id.text ++ " is already authenticated"
  | .closing id => id.text ++ " is closing"

end FramedLink
