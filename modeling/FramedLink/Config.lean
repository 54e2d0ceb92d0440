import FramedLink.Text
/-!
# Configuration

Limits of every session and of the host that owns the sessions, with their defaults, and the checks that a host makes
before it accepts them.
-/
namespace FramedLink

/-- Limits of a session: payload bytes that may wait or be held, the longest payload sent or accepted, the frames that
one tick may complete, and the room in which frames are packed for the transport. -/
structure SessionConfig where
  maxIndexedMemory : Nat := 1048576
  maxMessageSize : Nat := 65536
  maxMessagesPerTick : Nat := 256
  transmitBufferSize : Nat := 8192
deriving DecidableEq

/-- Limits of a host: sessions open at one time, and nanoseconds from one tick to the next. -/
structure HostConfig where
  maxSessions : Nat := 512
  tickInterval : Nat := 50000000
  session : SessionConfig := {}
deriving DecidableEq

/-- Why a configuration is refused. -/
inductive ConfigError where
  | mustBeNonZero (field : String)
  | messageLargerThanQueue (maxMessageSize maxIndexedMemory : Nat)
deriving DecidableEq

def ConfigError.message : ConfigError → String
  | .mustBeNonZero field => s!"{field} must be greater than zero"
  | .messageLargerThanQueue message queue =>
    s!"max_message_size ({message}) is larger than max_indexed_memory ({queue}), so the largest messages " ++
      "could never be sent"

/-- Refuses a limit of zero. -/
def nonZero (field : String) (value : Nat) : Except ConfigError Unit :=
  if value = 0 then .error (.mustBeNonZero field) else .ok ()

/-- The checks of a session's limits, in order; the first that fails gives the error. -/
def SessionConfig.validate (config : SessionConfig) : Except ConfigError Unit := do
  nonZero "max_indexed_memory" config.maxIndexedMemory
  nonZero "max_messages_per_tick" config.maxMessagesPerTick
  nonZero "transmit_buffer_size" config.transmitBufferSize
  if config.maxIndexedMemory < config.maxMessageSize then
    .error (.messageLargerThanQueue config.maxMessageSize config.maxIndexedMemory)

/-- The checks of a host's limits, its own before those of its sessions. -/
def HostConfig.validate (config : HostConfig) : Except ConfigError Unit := do
  nonZero "max_sessions" config.maxSessions
  nonZero "tick_interval" config.tickInterval
  config.session.validate

def SessionConfig.describe (config : SessionConfig) : String :=
  Text.record "SessionConfig"
    [("max_indexed_memory", toString config.maxIndexedMemory), ("max_message_size", toString config.maxMessageSize),
      ("max_messages_per_tick", toString config.maxMessagesPerTick),
      ("transmit_buffer_size", toString config.transmitBufferSize)]

def HostConfig.describe (config : HostConfig) : String :=
  Text.record "HostConfig"
    [("max_sessions", toString config.maxSessions), ("tick_interval", Text.duration config.tickInterval),
      ("session", config.session.describe)]

end FramedLink
