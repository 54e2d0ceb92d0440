import FramedLink.Activity
/-!
# Flushing a session

A flush packs what waits in the outbox into one transmit buffer after the other and hands each to the transport, until
nothing is left, its limit of messages is reached, or a buffer was not filled.  Only one flush of a session runs at a
time.
-/
namespace FramedLink

/-- What a flush sent. -/
structure TickSummary where
  bytes : Nat := 0
  messages : Nat := 0
  transmits : Nat := 0
deriving DecidableEq

def TickSummary.add (a b : TickSummary) : TickSummary :=
  ⟨a.bytes + b.bytes, a.messages + b.messages, a.transmits + b.transmits⟩

def TickSummary.ofOutput (output : Output) : TickSummary := ⟨output.bytes.length, output.completed, 1⟩

/-- Why a flush failed: the outbox refused, or the transport did. -/
inductive FlushError where
  | queue (cause : QueueError)
  | transport (failure : Failure)
deriving DecidableEq

namespace FlushError

def message : FlushError → String
  | queue cause => cause.message
  | transport failure => failure.text

/-- The queue error that a flush error is: that of the outbox, or the one that the transport itself has reported. -/
def queueError : FlushError → Option QueueError
  | queue cause => some cause
  | transport failure => failure.queueError

end FlushError

/-- A flush in the middle of a transmit: how many messages it may still complete, those of this transmit included, what
it has sent before, and what it is sending. -/
structure Flush where
  id : SessionId
  limit : Limit
  summary : TickSummary
  output : Output
deriving DecidableEq

namespace World

variable {A : Application}

def endFlush (world : World A) (id : SessionId) (result : Except FlushError TickSummary) :
    Activity A Flush (Except FlushError TickSummary) :=
  .finish (world.modify id fun session => { session with flushing := false }) result

/-- Packs the next buffer and hands it to the transport. -/
def pump (world : World A) (id : SessionId) (limit : Limit) (summary : TickSummary) :
    Activity A Flush (Except FlushError TickSummary) :=
  if limit.isReached then world.endFlush id (.ok summary)
  else
    let session := world.session id
    let (outbox, result) := session.outbox.drain session.config.transmitBufferSize limit
    let world := world.put id { session with outbox }
    match result with
    | .error e => world.endFlush id (.error (.queue e))
    | .ok output =>
      if output.bytes.isEmpty then world.endFlush id (.ok summary)
      else .ask world (.transmit id output.bytes) ⟨id, limit, summary, output⟩

/-- Starts a flush, which does nothing unless the session is connected. -/
def beginFlush (world : World A) (id : SessionId) (limit : Limit) :
    Activity A Flush (Except FlushError TickSummary) :=
  if (world.session id).state = .connected then
    (world.modify id fun session => { session with flushing := true }).pump id limit {}
  else .finish world (.ok {})

/-- One tick of a session: a flush up to its limit of messages, or nothing if a flush is running. -/
def tick (world : World A) (id : SessionId) : Activity A Flush (Except FlushError TickSummary) :=
  if (world.session id).flushing then .finish world (.ok {})
  else world.beginFlush id (some (world.session id).config.maxMessagesPerTick)

/-- A flush of all that waits.  It waits for a running flush to end, and so never goes on if that flush is suspended
beneath it. -/
def flushFully (world : World A) (id : SessionId) : Activity A Flush (Except FlushError TickSummary) :=
  if (world.session id).flushing then ⟨world, .stuck⟩ else world.beginFlush id none

end World

/-- Goes on after the transport has returned.  A buffer that was not filled means that nothing was left. -/
def Flush.resume {A : Application} (world : World A) (flush : Flush) :
    Reply → Activity A Flush (Except FlushError TickSummary)
  | .failed failure => world.endFlush flush.id (.error (.transport failure))
  | _ =>
    let world := world.modify flush.id (·.countTransmitted flush.output.bytes.length)
    let summary := flush.summary.add (.ofOutput flush.output)
    if flush.output.bytes.length < (world.session flush.id).config.transmitBufferSize then
      world.endFlush flush.id (.ok summary)
    else world.pump flush.id (flush.limit.less flush.output.completed) summary

end FramedLink
