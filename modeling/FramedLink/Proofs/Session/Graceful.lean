import FramedLink.Proofs.Lives.Ending
import FramedLink.Proofs.Runs.Delivery
import FramedLink.Proofs.Session.FlushLaw
/-!
# What a graceful disconnect sends

A disconnect that flushes first sends what waits, while the transport may enqueue more from within each transmit.  The
flush ends with the first buffer that it cannot fill.  What was accepted before this transmit was asked has been sent
when the session leaves the connection; what is accepted while it is under way is thrown away with the outbox.

One transmit, with what is enqueued meanwhile, is a step of `Leaves`; the induction that such steps come to an end is on
the bytes still to be sent and still to be enqueued.

Main statement: what has been sent when the session leaves (`Machine.graceful_disconnect`).
-/
namespace FramedLink

variable {A : Application} {id : SessionId}

/-! ## Transports that enqueue -/

def enqueuing (id : SessionId) (payloads : List Payload) : List (Move A) :=
  payloads.map fun payload => .call (.enqueue id payload)

/-- What outside code does during so many transmits: in each it enqueues the payloads that a script has for it, and then
takes what is transmitted. -/
def transmitMoves (id : SessionId) : List (List Payload) → Nat → List (Move A)
  | _, 0 => []
  | script, n + 1 => enqueuing id (script.headD []) ++ .reply .done :: transmitMoves id script.tail n

theorem frames_script (script : List (List Payload)) :
    frames script.flatten = frames (script.headD []) ++ frames script.tail.flatten := by
  cases script with
  | nil => rfl
  | cons payloads script => rw [List.flatten_cons, frames_append]; rfl

theorem accepted_append (id : SessionId) (first second : List (Event A)) :
    accepted id (first ++ second) = accepted id first ++ accepted id second := List.flatMap_append

namespace Machine

/-- Payloads were enqueued, some of them accepted, and nothing else happened. -/
structure Enqueued (id : SessionId) (payloads : List Payload) (machine next : Machine A) (events : List (Event A)) :
    Prop where
  waiting : next.waiting = machine.waiting
  known : next.world.knows id = true
  session : next.world.session id =
    { machine.world.session id with outbox := (next.world.session id).outbox }
  sound : (next.world.session id).outbox.Sound
  unsent : (next.world.session id).outbox.unsent =
    (machine.world.session id).outbox.unsent ++ frames (accepted id events)
  quiet : questions events = []
  length : (frames (accepted id events)).length ≤ (frames payloads).length

theorem enqueued_one {machine : Machine A} (payload : Payload) (hknown : machine.world.knows id = true)
    (hsize : (machine.world.session id).config.maxMessageSize < lengthLimit)
    (hsound : (machine.world.session id).outbox.Sound) :
    ∃ next event, machine.move (.call (.enqueue id payload)) = some (next, event) ∧
      machine.Enqueued id [payload] next [event] := by
  refine ⟨⟨machine.world.put id ((machine.world.session id).enqueue payload).1, machine.waiting⟩,
    .called (.enqueue id payload) (.answers (.flag ((machine.world.session id).enqueue payload).2)), ?_, ?_⟩
  · have hcall : machine.canCall (.enqueue id payload) = true := hknown
    rw [Machine.move, if_pos hcall]
    rfl
  · cases htaken : ((machine.world.session id).enqueue payload).2 with
    | false =>
      rw [Session.enqueue_of_refused htaken, World.put_session hknown]
      exact ⟨rfl, hknown, rfl, hsound, (List.append_nil _).symm, rfl, Nat.zero_le _⟩
    | true =>
      obtain ⟨hshort, hadmits, heq⟩ := Session.enqueue_of_accepted htaken
      have haccepted : accepted id [(.called (.enqueue id payload) (.answers (.flag true)) : Event A)] = [payload] := by
        simp [accepted, Event.accepted, Call.accepted]
      refine ⟨rfl, World.knows_put_self _ _ _, ?_, ?_, ?_, rfl, ?_⟩
      · rw [World.session_put_self, heq]
      · rw [World.session_put_self, heq]
        exact hsound.enqueue (Nat.lt_of_le_of_lt hshort hsize)
      · rw [World.session_put_self, heq, haccepted, Outbox.unsent_eq, Outbox.backlog_enqueue hadmits, unsentOf_append,
          Outbox.unsent_eq]
        rfl
      · rw [haccepted]

/-- **Enqueuing takes its payloads in or refuses them**, one after the other. -/
theorem run_enqueuing : ∀ (payloads : List Payload) {machine : Machine A}, machine.world.knows id = true →
    (machine.world.session id).config.maxMessageSize < lengthLimit → (machine.world.session id).outbox.Sound →
    ∃ next events, machine.run (enqueuing id payloads) = some (next, events) ∧
      machine.Enqueued id payloads next events
  | [], machine, hknown, _, hsound =>
    ⟨machine, [], rfl, rfl, hknown, rfl, hsound, (List.append_nil _).symm, rfl, Nat.zero_le _⟩
  | payload :: payloads, machine, hknown, hsize, hsound => by
    obtain ⟨next, event, hmove, hone⟩ := enqueued_one payload hknown hsize hsound
    have hsize' : (next.world.session id).config.maxMessageSize < lengthLimit := by
      rw [hone.session]
      exact hsize
    obtain ⟨last, events, hrun, hrest⟩ := run_enqueuing payloads hone.known hsize' hone.sound
    have haccepted : accepted id (event :: events) = accepted id [event] ++ accepted id events :=
      accepted_append id [event] events
    refine ⟨last, event :: events, ?_, hrest.waiting.trans hone.waiting, hrest.known, ?_, hrest.sound, ?_, ?_, ?_⟩
    · rw [enqueuing, List.map_cons, Machine.run, hmove]
      show (next.run (enqueuing id payloads)).map _ = _
      rw [hrun]
      rfl
    · rw [hrest.session, hone.session]
    · rw [hrest.unsent, hone.unsent, haccepted, frames_append, List.append_assoc]
    · rw [questions_cons, hrest.quiet, List.append_nil]
      exact hone.quiet
    · have hlength := Nat.add_le_add hone.length hrest.length
      rwa [← List.length_append, ← List.length_append, ← frames_append, ← frames_append, ← haccepted] at hlength

end Machine

/-! ## Buffers without a limit -/

/-- Without a limit all that is unsent may be sent. -/
theorem Outbox.allowed_none (box : Outbox) : box.allowed none = box.unsent := by
  rw [allowed, unsent_eq]
  exact congrArg unsentOf (List.take_length)

/-- One buffer without a limit puts out the front of what is unsent. -/
theorem Outbox.drain_front {box : Outbox} (room : Nat) (h : box.Sound) :
    ∃ after output, box.drain room none = (after, .ok output) ∧ output.bytes = box.unsent.take room ∧
      after.unsent = box.unsent.drop room ∧ after.Sound := by
  obtain ⟨after, output, hdrain, hstep⟩ := drain_step room h (rfl : Limit.isReached none = false)
  have hbytes := hstep.bytes
  have hleft := hstep.allowed
  rw [allowed_none] at hbytes hleft
  exact ⟨after, output, hdrain, hbytes, (allowed_none after).symm.trans hleft, hstep.sound⟩

/-! ## Leaving -/

/-- The session has left the connection, and nothing waits in its outbox any more. -/
structure Machine.HasLeft (id : SessionId) (machine : Machine A) : Prop where
  state : (machine.world.session id).state = .disconnecting
  emptied : (machine.world.session id).outbox.unsent = []

namespace World

/-- Telling that a session moves changes nothing in the world, unless it has ended. -/
theorem tell_world {target : ConnectionState} (h : target ≠ .disconnected) (world : World A) (id : SessionId)
    (source : ConnectionState) (observers : List A.Observer) :
    (world.tell id source target observers).world = world := by
  cases observers with
  | nil =>
    rw [tell, if_neg h]
    rfl
  | cons observer rest => rfl

theorem leave_world {world : World A} (hconnected : (world.session id).state = .connected)
    (reason : DisconnectReason) :
    (world.leave id reason).world = world.put id ((world.session id).enter .disconnecting) := by
  rw [leave, Activity.world_andThen]
  · simp only [transition, hconnected, reduceCtorEq, if_false, ConnectionState.canTransitionTo, Bool.not_true,
      Bool.false_eq_true]
    exact tell_world (fun h => by cases h) _ _ _ _
  · intro world moved
    unfold closeTransport
    split <;> rfl

/-- What a disconnect still has to do when its flush is over. -/
def leaving (world : World A) (id : SessionId) (reason : DisconnectReason) : Activity A (Suspended A) Answer :=
  Call.wrap (world.leave id reason) .disconnect fun _ => .nothing

/-- What a disconnect still has to do when a flush is under way. -/
def going (first : Activity A Flush (Except FlushError TickSummary)) (id : SessionId) (reason : DisconnectReason) :
    Activity A (Suspended A) Answer :=
  Call.wrap (first.andThen (.flushing id reason) fun world _ => world.leave id reason) .disconnect fun _ => .nothing

/-- A connected session whose flush is under way, with a transmit buffer of so many bytes. -/
structure Flushes (id : SessionId) (room : Nat) (world : World A) : Prop where
  known : world.knows id = true
  connected : (world.session id).state = .connected
  buffer : (world.session id).config.transmitBufferSize = room
  describable : (world.session id).config.maxMessageSize < lengthLimit
  sound : (world.session id).outbox.Sound

theorem Flushes.put {world : World A} {room : Nat} (h : world.Flushes id room) {session : Session A.Identity}
    (hstate : session.state = (world.session id).state) (hconfig : session.config = (world.session id).config)
    (hsound : session.outbox.Sound) : (world.put id session).Flushes id room := by
  refine ⟨knows_put_self _ _ _, ?_, ?_, ?_, ?_⟩
  all_goals rw [session_put_self]
  · exact hstate.trans h.connected
  · rw [hconfig]
    exact h.buffer
  · rw [hconfig]
    exact h.describable
  · exact hsound

end World

namespace Machine

/-- A disconnect whose flush is over moves the session. -/
theorem exists_left {world : World A} {room : Nat} (waiting : List (Waiting A)) (reason : DisconnectReason)
    (h : world.Flushes id room) :
    ∃ first, settle waiting (world.leaving id reason) = some first ∧ first.1.HasLeft id := by
  obtain ⟨⟨next, signal⟩, hsettle⟩ := exists_settle waiting Suspended.disconnect (fun _ => .nothing)
    (world.leave_ne_stuck id reason)
  have hworld : next.world = world.put id ((world.session id).enter .disconnecting) := by
    rw [world_settle hsettle, Call.wrap, Activity.world_andThen _ _ fun _ _ => rfl]
    exact World.leave_world h.connected reason
  refine ⟨(next, signal), hsettle, ?_, ?_⟩
  · rw [hworld, World.session_put_self]
    rfl
  · rw [hworld, World.session_put_self, Outbox.unsent_eq]
    exact congrArg unsentOf (Outbox.backlog_close h.sound)

theorem exists_left_of_end {world : World A} {room : Nat} (waiting : List (Waiting A)) (reason : DisconnectReason)
    (result : Except FlushError TickSummary) (h : world.Flushes id room) :
    ∃ first, settle waiting (World.going (world.endFlush id result) id reason) = some first ∧ first.1.HasLeft id :=
  exists_left waiting reason (h.put rfl rfl h.sound)

/-- What the innermost call does when its query has ended, the machine does. -/
theorem move_reply {machine : Machine A} {query : Query A} {rest : Suspended A} {outer : List (Waiting A)}
    {reply : Reply} {first : Machine A × Signal A} (hwaiting : machine.waiting = ⟨query, rest⟩ :: outer)
    (h : settle outer (rest.resume machine.world reply) = some first) :
    machine.move (.reply reply) = some (first.1, .returned query reply first.2) := by
  rw [Machine.move, hwaiting]
  simp only [h, Option.map_some]

theorem Enqueued.flushes {machine next : Machine A} {events : List (Event A)} {payloads : List Payload} {room : Nat}
    (h : machine.Enqueued id payloads next events) (hflushes : machine.world.Flushes id room) :
    next.world.Flushes id room := by
  refine ⟨h.known, ?_, ?_, ?_, h.sound⟩
  all_goals rw [h.session]
  · exact hflushes.connected
  · exact hflushes.buffer
  · exact hflushes.describable

/-! ## Transmit by transmit -/

/-- What outside code does in one transmit, and what the session does then. -/
structure Callback (id : SessionId) (payloads : List Payload) (machine middle next : Machine A)
    (events : List (Event A)) (event : Event A) : Prop where
  run : machine.run (enqueuing id payloads) = some (middle, events)
  move : middle.move (.reply .done) = some (next, event)
  quiet : questions events = []
  taken : accepted id [event] = []
  connected : (middle.world.session id).state = .connected

/-- From a machine, with its last signal, to the moment at which the session leaves: so many bytes are still unsent,
what is being transmitted included. -/
inductive Leaves (id : SessionId) (room : Nat) : List (List Payload) → Machine A × Signal A → List UInt8 → Prop where
  | left {script : List (List Payload)} {first : Machine A × Signal A} (h : first.1.HasLeft id) :
      Leaves id room script first []
  | onward {script : List (List Payload)} {machine middle next : Machine A} {events : List (Event A)} {event : Event A}
      {data unsent rest : List UInt8} (hcallback : Callback id (script.headD []) machine middle next events event)
      (hdata : data ++ rest = unsent ++ frames (accepted id events))
      (h : Leaves id room script.tail (next, event.signal) rest) :
      Leaves id room script (machine, .asks (.transmit id data)) unsent
  | last {script : List (List Payload)} {machine middle next : Machine A} {events : List (Event A)} {event : Event A}
      {data : List UInt8} (hcallback : Callback id (script.headD []) machine middle next events event)
      (hshort : data.length < room) (h : next.HasLeft id) :
      Leaves id room script (machine, .asks (.transmit id data)) data

/-- **A flush whose transmits are taken comes to its end**, whatever a finite script has enqueued meanwhile. -/
theorem pump_leaves {room : Nat} (hroom : 1 ≤ room) (reason : DisconnectReason) (waiting : List (Waiting A)) :
    ∀ (n : Nat) (script : List (List Payload)) (world : World A) (summary : TickSummary), world.Flushes id room →
      (world.session id).outbox.unsent.length + (frames script.flatten).length ≤ n →
      ∃ first, settle waiting (World.going (world.pump id none summary) id reason) = some first ∧
        Leaves id room script first (world.session id).outbox.unsent
  | n, script, world, summary, h, hn => by
    obtain ⟨box, output, hdrain, hbytes, hleft, hsound⟩ := Outbox.drain_front room h.sound
    have hpump : world.pump id none summary = _ :=
      World.pump_of_drain summary rfl (by rw [h.buffer]; exact hdrain)
    have hpacked : (world.put id { world.session id with outbox := box }).Flushes id room := h.put rfl rfl hsound
    by_cases hnone : (world.session id).outbox.unsent = []
    · rw [hnone, List.take_nil] at hbytes
      rw [hbytes, List.isEmpty_nil, if_pos rfl] at hpump
      obtain ⟨first, hfirst, hhasLeft⟩ := exists_left_of_end waiting reason (.ok summary) hpacked
      rw [hpump, hnone]
      exact ⟨first, hfirst, .left hhasLeft⟩
    · have hsome : output.bytes ≠ [] := by
        rw [hbytes, Ne, List.take_eq_nil_iff]
        exact fun heq => heq.elim (by omega) hnone
      rw [if_neg (by rwa [List.isEmpty_iff])] at hpump
      rw [hpump]
      refine ⟨_, rfl, ?_⟩
      -- The transport enqueues what the script has for this transmit, and takes it.
      obtain ⟨middle, events, hrun, henqueued⟩ := @run_enqueuing _ _ (script.headD [])
        ⟨world.put id { world.session id with outbox := box },
          ⟨.transmit id output.bytes, .disconnect (.flushing id reason ⟨id, none, summary, output⟩)⟩ :: waiting⟩
        hpacked.known hpacked.describable hpacked.sound
      have hmiddle := henqueued.flushes hpacked
      have hunsent := henqueued.unsent
      rw [World.session_put_self, hleft] at hunsent
      have hcounted : (middle.world.put id ((middle.world.session id).countTransmitted output.bytes.length)).Flushes id
          room := hmiddle.put rfl rfl hmiddle.sound
      have hresume : Flush.resume middle.world ⟨id, none, summary, output⟩ .done = _ := World.resume_done _
      rw [hmiddle.buffer] at hresume
      by_cases hshort : output.bytes.length < room
      · rw [if_pos hshort] at hresume
        obtain ⟨first, hfirst, hhasLeft⟩ := exists_left_of_end waiting reason
          (.ok (summary.add (.ofOutput output))) hcounted
        have hmove : middle.move (.reply .done) = some (first.1, .returned _ .done first.2) :=
          move_reply henqueued.waiting (by rw [Suspended.resume, Disconnect.resume, hresume]; exact hfirst)
        have hall : (world.session id).outbox.unsent = output.bytes := by
          rw [hbytes, List.take_of_length_le]
          rw [hbytes, List.length_take] at hshort
          omega
        rw [hall]
        exact .last ⟨hrun, hmove, henqueued.quiet, rfl, hmiddle.connected⟩ hshort hhasLeft
      · rw [if_neg hshort] at hresume
        cases n with
        | zero => exact absurd (List.eq_nil_of_length_eq_zero (by omega)) hnone
        | succ n =>
          have hleftover :
              ((middle.world.put id ((middle.world.session id).countTransmitted output.bytes.length)).session
                id).outbox.unsent = (world.session id).outbox.unsent.drop room ++ frames (accepted id events) := by
            rw [World.session_put_self]
            exact hunsent
          have hless : (((world.session id).outbox.unsent.drop room ++ frames (accepted id events)).length +
              (frames script.tail.flatten).length) ≤ n := by
            have htaken := henqueued.length
            have hpositive := List.length_pos_iff.2 hnone
            rw [frames_script, List.length_append] at hn
            rw [List.length_append, List.length_drop]
            omega
          obtain ⟨first, hfirst, hleaves⟩ := pump_leaves hroom reason waiting n script.tail _
            (summary.add (.ofOutput output)) hcounted (by rwa [hleftover])
          have hmove : middle.move (.reply .done) = some (first.1, .returned _ .done first.2) :=
            move_reply henqueued.waiting (by rw [Suspended.resume, Disconnect.resume, hresume]; exact hfirst)
          rw [hleftover] at hleaves
          refine .onward ⟨hrun, hmove, henqueued.quiet, rfl, hmiddle.connected⟩ ?_ hleaves
          rw [hbytes, ← List.append_assoc, List.take_append_drop]

/-! ## The run -/

theorem transmitted_eq (id : SessionId) : ∀ events : List (Event A),
    transmitted id events = (questions events).flatMap (Query.transmitted id)
  | [] => rfl
  | event :: events => by
    have hevent : event.transmitted id = event.signal.query?.toList.flatMap (Query.transmitted id) := by
      unfold Event.transmitted
      cases event.signal with
      | asks query => exact (List.append_nil _).symm
      | answers answer => rfl
    rw [questions_cons, List.flatMap_append, ← hevent, ← transmitted_eq id events]
    exact List.flatMap_cons

/-- What happened until a session left, parted where its last transmit was asked.  Of `unsent` and of all that was
accepted before, nothing is left to be sent; what was accepted after, was accepted in vain, which takes a transmit that
does not fill its buffer. -/
structure Parted (id : SessionId) (room : Nat) (unsent : List UInt8) (early late : List (Event A)) : Prop where
  sent : transmitted id early = unsent ++ frames (accepted id early)
  unclosed : closings id (questions early) = []
  quiet : questions late = []
  short : accepted id late ≠ [] →
    ∃ data, (questions early).getLast? = some (.transmit id data) ∧ data.length < room

theorem Parted.before {room : Nat} {data unsent rest : List UInt8} {first : Event A}
    {events early late : List (Event A)} (h : Parted id room rest early late)
    (hsignal : first.signal = .asks (.transmit id data))
    (htaken : accepted id [first] = []) (hquiet : questions events = [])
    (hdata : data ++ rest = unsent ++ frames (accepted id events)) :
    Parted id room unsent (first :: events ++ early) late := by
  have hquestions : questions (first :: events ++ early) = .transmit id data :: questions early := by
    rw [questions_append, questions_cons, hquiet, hsignal]
    rfl
  have haccepted : accepted id (first :: events ++ early) = accepted id events ++ accepted id early := by
    rw [accepted_append, ← List.singleton_append, accepted_append, htaken, List.nil_append]
  have hfirst : Query.transmitted id (.transmit id data : Query A) = data := if_pos rfl
  refine ⟨?_, ?_, h.quiet, fun hlate => ?_⟩
  · rw [transmitted_eq, hquestions, List.flatMap_cons, ← transmitted_eq, hfirst, h.sent, ← List.append_assoc, hdata,
      haccepted, frames_append, List.append_assoc]
  · rw [hquestions]
    exact h.unclosed
  · obtain ⟨last, hlast, hshort⟩ := h.short hlate
    refine ⟨last, ?_, hshort⟩
    rw [hquestions, List.getLast?_cons, hlast]
    rfl

/-- The run from a machine, and the event that led to it, to the moment at which the session leaves. -/
theorem Leaves.exists_run {room : Nat} {script : List (List Payload)} {machine : Machine A × Signal A}
    {unsent : List UInt8} (h : Leaves id room script machine unsent) :
    ∀ first : Event A, first.signal = machine.2 → accepted id [first] = [] →
    (machine.1.HasLeft id ∧ unsent = []) ∨
    ∃ n moves middle last earlier event early late, transmitMoves id script n = moves ++ [.reply .done] ∧
      machine.1.run moves = some (middle, earlier) ∧ middle.move (.reply .done) = some (last, event) ∧
      (middle.world.session id).state = .connected ∧ last.HasLeft id ∧ first :: earlier = early ++ late ∧
      Parted id room unsent early late := by
  induction h with
  | left h => exact fun _ _ _ => .inl ⟨h, rfl⟩
  | @onward script machine middle next events event data unsent rest hcallback hdata hrest ih =>
    intro first hsignal htaken
    refine .inr ?_
    rcases ih event rfl hcallback.taken with ⟨hleft, rfl⟩ |
      ⟨n, moves, reached, last, earlier, final, early, late, hmoves, hrun, hmove, hconnected, hleft, hevents, hparted⟩
    · have hparted : Parted id room [] ([] : List (Event A)) [] := ⟨rfl, rfl, rfl, fun h => absurd rfl h⟩
      refine ⟨1, enqueuing id (script.headD []), middle, next, events, event, first :: events ++ [], [], rfl,
        hcallback.run, hcallback.move, hcallback.connected, hleft, ?_,
        hparted.before hsignal htaken hcallback.quiet hdata⟩
      rw [List.append_nil, List.append_nil]
    · refine ⟨n + 1, enqueuing id (script.headD []) ++ .reply .done :: moves, reached, last,
        events ++ event :: earlier, final, first :: events ++ early, late, ?_, ?_, hmove, hconnected, hleft, ?_,
        hparted.before hsignal htaken hcallback.quiet hdata⟩
      · rw [transmitMoves, hmoves, List.append_assoc]
        rfl
      · refine run_trans hcallback.run ?_
        rw [Machine.run, hcallback.move]
        show (next.run moves).map _ = _
        rw [show next.run moves = some (reached, earlier) from hrun]
        rfl
      · rw [List.append_assoc, ← hevents]
        rfl
  | @last script machine middle next events event data hcallback hshort hleft =>
    intro first hsignal htaken
    refine .inr ⟨1, enqueuing id (script.headD []), middle, next, events, event, [first], events, rfl, hcallback.run,
      hcallback.move, hcallback.connected, hleft, rfl, ?_⟩
    have hquestions : questions [first] = [.transmit id data] := by
      rw [questions_cons, hsignal]
      rfl
    refine ⟨?_, ?_, hcallback.quiet, fun _ => ⟨data, ?_, hshort⟩⟩
    · have hfirst : Query.transmitted id (.transmit id data : Query A) = data := if_pos rfl
      rw [transmitted_eq, hquestions, htaken, List.flatMap_singleton, hfirst]
      exact (List.append_nil _).symm
    · rw [hquestions]
      rfl
    · rw [hquestions]
      rfl

/-- **A graceful disconnect.**  Take a connected session with a transmit buffer of at least one byte, whose outbox any
calls have led to and which is not being flushed; and a transport that takes all it is given, and in each transmit
enqueues what a script has for it.  A disconnect that flushes first makes the session leave the connection after some
transmits.  Before that, and before the transport is asked to close, it has transmitted all that was unsent and the
frames of all payloads accepted until the last transmit was asked, whole and in order.  Payloads accepted during the
last transmit are lost, which takes a transmit that does not fill the buffer. -/
theorem graceful_disconnect {machine : Machine A} {session : Session A.Identity} {cap : Nat} {calls : List OutboxCall}
    (reason : DisconnectReason) (script : List (List Payload)) (hknown : machine.world.knows id = true)
    (hsession : machine.world.session id = session) (hconnected : session.state = .connected)
    (hidle : session.flushing = false) (hbuffer : 1 ≤ session.config.transmitBufferSize)
    (hsize : session.config.maxMessageSize < lengthLimit) (houtbox : session.outbox = (Outbox.ofCap cap).after calls)
    (hcalls : ∀ call ∈ calls, call.IsDescribable) :
    ∃ n moves final middle last earlier event early late,
      .call (.disconnect id reason true) :: transmitMoves id script n = moves ++ [final] ∧
      machine.run moves = some (middle, earlier) ∧ middle.move final = some (last, event) ∧
      (middle.world.session id).state = .connected ∧ last.HasLeft id ∧ earlier = early ++ late ∧
      Parted id session.config.transmitBufferSize session.outbox.unsent early late := by
  have hsound : session.outbox.Sound := houtbox ▸ Outbox.sound_after cap hcalls
  have hflushes : (machine.world.put id { session.noteReason reason with flushing := true }).Flushes id
      session.config.transmitBufferSize := by
    refine ⟨World.knows_put_self _ _ _, ?_, ?_, ?_, ?_⟩
    all_goals rw [World.session_put_self]
    · exact hconnected
    · rfl
    · exact hsize
    · exact hsound
  have hbegin : (Call.disconnect id reason true).begin machine.world =
      World.going ((machine.world.put id { session.noteReason reason with flushing := true }).pump id none {}) id
        reason := by
    rw [Call.begin, World.disconnect_of_idle reason hsession hconnected hidle, World.beginFlush, World.session_put_self,
      if_pos (by exact hconnected), World.modify, World.session_put_self, World.put_put]
    rfl
  obtain ⟨first, hfirst, hleaves⟩ := pump_leaves hbuffer reason machine.waiting _ script _ {} hflushes (Nat.le_refl _)
  rw [World.session_put_self] at hleaves
  have hcall : machine.canCall (.disconnect id reason true) = true := hknown
  have hmove : machine.move (.call (.disconnect id reason true)) =
      some (first.1, .called (.disconnect id reason true) first.2) := by
    rw [Machine.move, if_pos hcall, hbegin, hfirst]
    rfl
  have htaken : accepted id [(.called (.disconnect id reason true) first.2 : Event A)] = [] := by
    cases first.2 <;> rfl
  rcases hleaves.exists_run _ rfl htaken with ⟨hleft, hnone⟩ | ⟨n, moves, middle, last, earlier, event, early, late,
    hmoves, hrun, hlast, hstate, hleft, hevents, hparted⟩
  · have hunsent : session.outbox.unsent = [] := hnone
    refine ⟨0, [], _, machine, first.1, [], _, [], [], rfl, rfl, hmove, ?_, hleft, rfl, ?_⟩
    · rw [hsession]
      exact hconnected
    · rw [hunsent]
      exact ⟨rfl, rfl, rfl, fun h => absurd rfl h⟩
  · refine ⟨n, .call (.disconnect id reason true) :: moves, .reply .done, middle, last, _, event, early, late, ?_, ?_,
      hlast, hstate, hleft, hevents, hparted⟩
    · rw [hmoves]
      rfl
    · rw [Machine.run, hmove]
      show (first.1.run moves).map _ = _
      rw [hrun]
      rfl

/-- A transport that enqueues while the rest of a frame and two payloads go out, four bytes at a time. -/
theorem graceful_disconnect_halfSent :
    ∃ n moves final middle last earlier event early late,
      .call (.disconnect ⟨1⟩ .requested true) :: transmitMoves ⟨1⟩ [[[9, 9]], [], [[3], []]] n = moves ++ [final] ∧
      (⟨.ofSession halfSent, []⟩ : Machine .bare).run moves = some (middle, earlier) ∧
      middle.move final = some (last, event) ∧ (middle.world.session ⟨1⟩).state = .connected ∧ last.HasLeft ⟨1⟩ ∧
      earlier = early ++ late ∧ Parted ⟨1⟩ 4 halfSent.outbox.unsent early late :=
  graceful_disconnect .requested [[[9, 9]], [], [[3], []]] rfl rfl rfl rfl (by decide) (by decide) rfl (by decide)

/-- A session in which one payload waits. -/
def oneWaiting : Session Unit where
  id := ⟨1⟩
  config := {}
  state := .connected
  outbox := (Outbox.ofCap 100).after [.enqueue [170]]

/-- **A payload accepted during the last transmit is lost**: the session leaves, and has not transmitted it. -/
theorem lost_inLastTransmit :
    ∃ middle last earlier event,
      (⟨.ofSession oneWaiting, []⟩ : Machine .bare).run
        [.call (.disconnect ⟨1⟩ .requested true), .call (.enqueue ⟨1⟩ [187])] = some (middle, earlier) ∧
      middle.move (.reply .done) = some (last, event) ∧ (middle.world.session ⟨1⟩).state = .connected ∧
      last.HasLeft ⟨1⟩ ∧ event.signal = .asks (.close ⟨1⟩ .requested true) ∧
      accepted ⟨1⟩ earlier = [[187]] ∧ transmitted ⟨1⟩ (earlier ++ [event]) = frame [170] :=
  ⟨_, _, _, _, rfl, rfl, rfl, ⟨rfl, rfl⟩, rfl, rfl, rfl⟩

end Machine

end FramedLink
