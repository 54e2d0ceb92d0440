import FramedLink.Config
import FramedLink.Outbox.Flush
import FramedLink.Session.State
import FramedLink.Wire.Decoder
/-!
# A session

Both halves of one framed stream and what is known about the peer: the connection state, the login, the reason of its
end, the outbox and the decoder, and counters.  Here is what a session does by itself; what calls outside code in
between (moving to another state, flushing, disconnecting) is in the modules that follow.
-/
namespace FramedLink

/-- What a session has received, transmitted and handled over its life. -/
structure SessionStats where
  bytesReceived : Nat := 0
  framesReceived : Nat := 0
  bytesTransmitted : Nat := 0
  messagesHandled : Nat := 0
deriving DecidableEq

/-- A session whose login may carry an identity of type `ι`.  `login` is set once; its inner option says whether an
identity was supplied.  `reason` is set once: the first reason wins.  `flushing` is on for the whole of a flush. -/
structure Session (ι : Type) where
  id : SessionId
  config : SessionConfig
  state : ConnectionState := .connecting
  login : Option (Option ι) := none
  reason : Option DisconnectReason := none
  outbox : Outbox := .ofCap config.maxIndexedMemory
  decoder : Decoder := .fresh config.maxMessageSize
  flushing : Bool := false
  stats : SessionStats := {}

namespace Session

variable {ι : Type}

def start (id : SessionId) (config : SessionConfig) : Session ι := { id, config }

/-- The account layer has accepted the peer. -/
def isAuthenticated (session : Session ι) : Bool := session.login.isSome

/-- What the account layer said the peer is, if it said anything. -/
def identity (session : Session ι) : Option ι := session.login.join

/-- Marks the session as authenticated.  A closing session refuses first, and a second login is refused. -/
def authenticate (session : Session ι) (identity : Option ι) : Session ι × Except SessionError Unit :=
  if session.state.isClosing then (session, .error (.closing session.id))
  else if session.isAuthenticated then (session, .error (.alreadyAuthenticated session.id))
  else ({ session with login := some identity }, .ok ())

/-- Takes a payload into the outbox.  Refused if the session is closing, the payload is longer than the session sends,
or the outbox is full or closed. -/
def enqueue (session : Session ι) (payload : Payload) : Session ι × Bool :=
  if session.state.isClosing then (session, false)
  else if session.config.maxMessageSize < payload.length then (session, false)
  else
    let (outbox, accepted) := session.outbox.enqueue payload
    ({ session with outbox }, accepted)

/-- Counts an accepted chunk and the payloads that it completed. -/
def countReceived (session : Session ι) (bytes payloads : Nat) : Session ι :=
  { session with stats := { session.stats with
      bytesReceived := session.stats.bytesReceived + bytes
      framesReceived := session.stats.framesReceived + payloads } }

/-- Decodes a received chunk into payloads.  Bytes are dropped unread unless the session is connected.  A chunk that the
decoder refuses gives no payload at all and is not counted. -/
def receive (session : Session ι) (chunk : List UInt8) : Session ι × Except DecoderError (List Payload) :=
  if session.state = .connected then
    let intake := session.decoder.feed chunk
    let session := { session with decoder := intake.decoder }
    match intake.answer with
    | .error e => (session, .error e)
    | .ok _ => (session.countReceived chunk.length intake.ready.length, .ok intake.ready)
  else (session, .ok [])

/-- Records why the session ends, unless a reason is recorded already. -/
def noteReason (session : Session ι) (reason : DisconnectReason) : Session ι :=
  { session with reason := session.reason.or (some reason) }

/-- Puts the session into a state.  Entering a closing state throws away everything queued for sending and any partial
frame received. -/
def enter (session : Session ι) (next : ConnectionState) : Session ι :=
  if next.isClosing then
    { session with state := next, outbox := session.outbox.close, decoder := session.decoder.reset }
  else { session with state := next }

def countTransmitted (session : Session ι) (bytes : Nat) : Session ι :=
  { session with stats := { session.stats with bytesTransmitted := session.stats.bytesTransmitted + bytes } }

def countHandled (session : Session ι) : Session ι :=
  { session with stats := { session.stats with messagesHandled := session.stats.messagesHandled + 1 } }

def describe (session : Session ι) : String :=
  Text.record "Session"
    [("id", Text.wrapped "SessionId" (toString session.id.number)), ("state", session.state.text),
      ("authenticated", toString session.isAuthenticated), ("outgoing", session.outbox.describe)]

end Session
end FramedLink
