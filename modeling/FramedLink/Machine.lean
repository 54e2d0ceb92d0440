import FramedLink.Host.Arrival
import FramedLink.Host.Report
import FramedLink.Host.Shutdown
import FramedLink.Host.Tick
/-!
# Runs with re-entrant calls

A machine is a world together with the activities that have called outside code and wait for it to return, the innermost
first.  It moves when outside code calls the library or returns to it; a call made while activities are suspended is a
re-entrant one.  Every run of a single thread is a list of such moves.
-/
namespace FramedLink

/-- A call of the library: on a session, on its outbox, or on the host.  One that is for all sessions of the host comes
with the order in which the host goes through them this time. -/
inductive Call (A : Application) where
  | transition (id : SessionId) (target : ConnectionState)
  | authenticate (id : SessionId) (identity : Option A.Identity)
  | enqueue (id : SessionId) (payload : Payload)
  | tick (id : SessionId)
  | receive (id : SessionId) (chunk : List UInt8)
  | disconnect (id : SessionId) (reason : DisconnectReason) (flushFirst : Bool)
  | dispatch (id : SessionId) (payload : Payload)
  | outboxEnqueue (id : SessionId) (payload : Payload)
  | outboxFlush (id : SessionId) (buffer : List UInt8) (offset : Nat) (limit : Limit)
  | outboxClose (id : SessionId)
  | addObserver (observer : A.Observer)
  | hostOpen
  | hostReport (id : SessionId) (state : ConnectionState)
  | hostReceive (id : SessionId) (chunk : List UInt8)
  | hostEnqueue (id : SessionId) (payload : Payload)
  | hostTick (id : SessionId)
  | hostFlushAll (order : Enumeration := .asOpened)
  | hostDisconnect (id : SessionId) (reason : DisconnectReason) (flushFirst : Bool)
  | hostShutdown (order : Enumeration := .asOpened)
  | startLoop (now : Nat)
  | wakeLoop (number now : Nat) (order : Enumeration := .asOpened)

inductive Answer where
  | nothing
  | flag (value : Bool)
  | count (value : Nat)
  | moved (result : Except SessionError Bool)
  | accepted (result : Except SessionError Unit)
  | flushed (result : Except FlushError TickSummary)
  | received (result : Except DecoderError (List Payload))
  | dispatched (outcome : DispatchOutcome)
  | written (result : Except QueueError (Output × List UInt8))
  | opened (result : Except HostError SessionId)
  | started (loop : Nat)

/-- What is left to be done of a call that waits for outside code. -/
inductive Suspended (A : Application) where
  | transition (rest : Transition A)
  | tick (rest : Flush)
  | disconnect (rest : Disconnect A)
  | dispatch (rest : Delivery A)
  | report (rest : Report A)
  | arrival (rest : Arrival A)
  | hostTick (rest : HostFlush A)
  | sweep (rest : Sweep A)
  | shutdown (rest : Shutdown A)
  | loop (number : Nat) (rest : Sweep A)

namespace Call

variable {A : Application}

/-- The session that a call is made on directly, if it is. -/
def session? : Call A → Option SessionId
  | transition id _ | authenticate id _ | enqueue id _ | tick id | receive id _ | disconnect id _ _ | dispatch id _
  | outboxEnqueue id _ | outboxFlush id _ _ _ | outboxClose id => some id
  | _ => none

/-- An activity of one kind as what is left of a call. -/
def wrap {κ α : Type} (first : Activity A κ α) (within : κ → Suspended A) (answer : α → Answer) :
    Activity A (Suspended A) Answer :=
  first.andThen within fun world result => .finish world (answer result)

def begin (world : World A) : Call A → Activity A (Suspended A) Answer
  | transition id target => wrap (world.transition id target) .transition .moved
  | authenticate id identity =>
    let (session, result) := (world.session id).authenticate identity
    .finish (world.put id session) (.accepted result)
  | enqueue id payload =>
    let (session, result) := (world.session id).enqueue payload
    .finish (world.put id session) (.flag result)
  | tick id => wrap (world.tick id) .tick .flushed
  | receive id chunk =>
    let (session, result) := (world.session id).receive chunk
    .finish (world.put id session) (.received result)
  | disconnect id reason flushFirst =>
    wrap (world.disconnect id reason flushFirst) .disconnect fun _ => .nothing
  | dispatch id payload => wrap (world.dispatch id payload) .dispatch .dispatched
  | outboxEnqueue id payload =>
    let session := world.session id
    let (outbox, result) := session.outbox.enqueue payload
    .finish (world.put id { session with outbox }) (.flag result)
  | outboxFlush id buffer offset limit =>
    let session := world.session id
    let (outbox, result) := session.outbox.flush buffer offset limit
    .finish (world.put id { session with outbox }) (.written result)
  | outboxClose id =>
    .finish (world.modify id fun session => { session with outbox := session.outbox.close }) .nothing
  | addObserver observer => .finish (world.addObserver observer) .nothing
  | hostOpen =>
    let (world, result) := world.openSession
    .finish world (.opened result)
  | hostReport id state => wrap (world.report id state) .report .accepted
  | hostReceive id chunk => wrap (world.hostReceive id chunk) .arrival .count
  | hostEnqueue id payload =>
    let (world, result) := world.hostEnqueue id payload
    .finish world (.flag result)
  | hostTick id => wrap (world.hostTick id) .hostTick fun summary => .flushed (.ok summary)
  | hostFlushAll order => wrap (world.flushAll order) .sweep fun summary => .flushed (.ok summary)
  | hostDisconnect id reason flushFirst =>
    if world.tracks id then wrap (world.disconnect id reason flushFirst) .disconnect fun _ => .nothing
    else .finish world .nothing
  | hostShutdown order => wrap (world.shutdown order) .shutdown fun _ => .nothing
  | startLoop now =>
    let (world, number) := world.startLoop now
    .finish world (.started number)
  | wakeLoop number now order => wrap (world.wakeLoop number now order) (.loop number) .flag

end Call

def Suspended.resume {A : Application} (world : World A) (reply : Reply) :
    Suspended A → Activity A (Suspended A) Answer
  | transition rest => Call.wrap (rest.resume world) .transition .moved
  | tick rest => Call.wrap (rest.resume world reply) .tick .flushed
  | disconnect rest => Call.wrap (rest.resume world reply) .disconnect fun _ => .nothing
  | dispatch rest => Call.wrap (rest.resume world reply) .dispatch .dispatched
  | report rest => Call.wrap (rest.resume world) .report .accepted
  | arrival rest => Call.wrap (rest.resume world reply) .arrival .count
  | hostTick rest => Call.wrap (rest.resume world reply) .hostTick fun summary => .flushed (.ok summary)
  | sweep rest => Call.wrap (rest.resume world reply) .sweep fun summary => .flushed (.ok summary)
  | shutdown rest => Call.wrap (rest.resume world reply) .shutdown fun _ => .nothing
  | loop number rest => Call.wrap (world.resumeTick reply number rest) (.loop number) .flag

/-- A call of the library that waits for outside code: what it asked, and what is left of it. -/
structure Waiting (A : Application) where
  query : Query A
  rest : Suspended A

/-- A world, and the calls that wait for outside code, the innermost first. -/
structure Machine (A : Application) where
  world : World A
  waiting : List (Waiting A) := []

/-- What outside code does next: it calls the library, or it returns to the innermost waiting call. -/
inductive Move (A : Application) where
  | call (call : Call A)
  | reply (reply : Reply)

/-- What the library does in turn: it calls outside code, or it answers the call. -/
inductive Signal (A : Application) where
  | asks (query : Query A)
  | answers (answer : Answer)

/-- One step of a run: a call, or the return from a query, and what the library did in turn. -/
inductive Event (A : Application) where
  | called (call : Call A) (signal : Signal A)
  | returned (query : Query A) (reply : Reply) (signal : Signal A)

def Event.signal {A : Application} : Event A → Signal A
  | called _ signal | returned _ _ signal => signal

namespace Machine

variable {A : Application}

/-- The machine after an activity has come as far as it could.  An activity that waits for itself leads nowhere. -/
def settle (waiting : List (Waiting A)) (activity : Activity A (Suspended A) Answer) :
    Option (Machine A × Signal A) :=
  match activity.progress with
  | .done answer => some (⟨activity.world, waiting⟩, .answers answer)
  | .asks query rest => some (⟨activity.world, ⟨query, rest⟩ :: waiting⟩, .asks query)
  | .stuck => none

/-- A call can be made on every session that was ever started. -/
def canCall (machine : Machine A) (call : Call A) : Bool := (call.session?.map machine.world.knows).getD true

/-- One move.  Nothing follows a call on a session that was never started, a return when no call waits, and a call that
would wait for itself. -/
def move (machine : Machine A) : Move A → Option (Machine A × Event A)
  | .call call =>
    if machine.canCall call then
      (settle machine.waiting (call.begin machine.world)).map fun (next, signal) => (next, .called call signal)
    else none
  | .reply reply =>
    match machine.waiting with
    | [] => none
    | innermost :: outer =>
      (settle outer (innermost.rest.resume machine.world reply)).map fun (next, signal) =>
        (next, .returned innermost.query reply signal)

/-- A run: moves one after the other, with what happened at each. -/
def run (machine : Machine A) : List (Move A) → Option (Machine A × List (Event A))
  | [] => some (machine, [])
  | first :: rest =>
    (machine.move first).bind fun (next, event) =>
      (next.run rest).map fun (last, events) => (last, event :: events)

end Machine
end FramedLink
