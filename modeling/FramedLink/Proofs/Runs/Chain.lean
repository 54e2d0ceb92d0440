import FramedLink.Proofs.Runs.Edits
/-!
# What runs do to the world

Every activity of the library changes the world by edits, from each call of outside code to the next, and so does every
move of a machine, whatever calls are suspended beneath it.  There is one statement for each function that makes an
activity or goes on with one.

Main statement: a run is a chain of edits, and their marks are those that can be read off its events
(`Machine.run_edits`).
-/
namespace FramedLink

/-! ## Sessions -/

namespace World

variable {A : Application}

theorem bidFarewell_comesFrom (world : World A) (id : SessionId) (reason : DisconnectReason) :
    ∀ observers, (world.bidFarewell id reason observers).ComesFrom world
  | [] => Activity.comesFrom_finish world _
  | _ :: _ => Activity.comesFrom_ask world _ rfl

theorem tell_comesFrom (world : World A) (id : SessionId) (source target : ConnectionState) :
    ∀ observers, (world.tell id source target observers).ComesFrom world
  | [] => by
    by_cases htarget : target = .disconnected
    · rw [tell, if_pos htarget]
      exact .before (edits_put id (.noteReason .transportClosed)) (bidFarewell_comesFrom _ id _ _)
    · rw [tell, if_neg htarget]
      exact Activity.comesFrom_finish world _
  | _ :: _ => Activity.comesFrom_ask world _ rfl

theorem transition_comesFrom (world : World A) (id : SessionId) (target : ConnectionState) :
    (world.transition id target).ComesFrom world := by
  unfold transition
  by_cases hsame : (world.session id).state = target
  · rw [if_pos hsame]
    exact Activity.comesFrom_finish world _
  rw [if_neg hsame]
  cases hedge : (world.session id).state.canTransitionTo target with
  | false => exact Activity.comesFrom_finish world _
  | true => exact .before (edits_put id (.enter hedge)) (tell_comesFrom _ id _ target _)

theorem resumeTransition_comesFrom (world : World A) : ∀ rest : Transition A, (rest.resume world).ComesFrom world
  | .telling id source target rest => world.tell_comesFrom id source target rest
  | .parting id reason rest => world.bidFarewell_comesFrom id reason rest

theorem endFlush_comesFrom (world : World A) (id : SessionId) (result : Except FlushError TickSummary) :
    (world.endFlush id result).ComesFrom world :=
  .before (edits_put id (.flushing false)) (Activity.comesFrom_finish _ result)

theorem pump_comesFrom (world : World A) (id : SessionId) (limit : Limit) (summary : TickSummary) :
    (world.pump id limit summary).ComesFrom world := by
  unfold pump
  by_cases hreached : limit.isReached = true
  · rw [if_pos hreached]
    exact endFlush_comesFrom world id _
  rw [if_neg hreached]
  cases hdrain : (world.session id).outbox.drain (world.session id).config.transmitBufferSize limit with
  | mk box result =>
  cases result with
  | error e =>
    simp only [hdrain]
    exact .before (edits_put id (.drainFails hdrain)) (endFlush_comesFrom _ id _)
  | ok output =>
    have hedit := (Edit.session (.drain hdrain)).once
    simp only [hdrain]
    by_cases hempty : output.bytes.isEmpty = true
    · rw [Deed.ofOutput, if_pos hempty] at hedit
      rw [if_pos hempty]
      exact .before hedit (endFlush_comesFrom _ id _)
    · rw [Deed.ofOutput, if_neg hempty] at hedit
      rw [if_neg hempty]
      exact hedit

theorem beginFlush_comesFrom (world : World A) (id : SessionId) (limit : Limit) :
    (world.beginFlush id limit).ComesFrom world := by
  unfold beginFlush
  split
  · exact .before (edits_put id (.flushing true)) (pump_comesFrom _ id limit {})
  · exact Activity.comesFrom_finish world _

theorem tick_comesFrom (world : World A) (id : SessionId) : (world.tick id).ComesFrom world := by
  unfold tick
  split
  · exact Activity.comesFrom_finish world _
  · exact beginFlush_comesFrom world id _

theorem flushFully_comesFrom (world : World A) (id : SessionId) : (world.flushFully id).ComesFrom world := by
  unfold flushFully
  split
  · exact True.intro
  · exact beginFlush_comesFrom world id none

theorem resumeFlush_comesFrom (world : World A) (flush : Flush) (reply : Reply) :
    (flush.resume world reply).ComesFrom world := by
  have htaken : (flush.resume world .done).ComesFrom world := by
    simp only [Flush.resume]
    refine .before (edits_put flush.id (.countTransmitted flush.output.bytes.length)) ?_
    split
    · exact endFlush_comesFrom _ flush.id _
    · exact pump_comesFrom _ flush.id _ _
  cases reply with
  | failed failure => exact endFlush_comesFrom world flush.id _
  | done => exact htaken
  | endSession graceful => exact htaken

theorem closeTransport_comesFrom (world : World A) (id : SessionId) (reason : DisconnectReason) :
    ∀ moved, (world.closeTransport id reason moved).ComesFrom world
  | .ok true => Activity.comesFrom_ask world _ rfl
  | .ok false | .error _ => Activity.comesFrom_finish world ()

theorem leave_comesFrom (world : World A) (id : SessionId) (reason : DisconnectReason) :
    (world.leave id reason).ComesFrom world :=
  (transition_comesFrom world id .disconnecting).andThen fun world => world.closeTransport_comesFrom id reason

theorem disconnect_comesFrom (world : World A) (id : SessionId) (reason : DisconnectReason) (flushFirst : Bool) :
    (world.disconnect id reason flushFirst).ComesFrom world := by
  unfold disconnect
  by_cases hclosing : (world.session id).state.isClosing = true
  · rw [if_pos hclosing]
    exact Activity.comesFrom_finish world ()
  rw [if_neg hclosing]
  refine .before (edits_put id (.noteReason reason)) ?_
  split
  · exact (flushFully_comesFrom _ id).andThen fun world _ => world.leave_comesFrom id reason
  · exact leave_comesFrom _ id reason

theorem resumeDisconnect_comesFrom (world : World A) (reply : Reply) :
    ∀ rest : Disconnect A, (rest.resume world reply).ComesFrom world
  | .flushing id reason rest =>
    (world.resumeFlush_comesFrom rest reply).andThen fun world _ => world.leave_comesFrom id reason
  | .leaving id reason rest =>
    (world.resumeTransition_comesFrom rest).andThen fun world => world.closeTransport_comesFrom id reason
  | .closing => Activity.comesFrom_finish world ()

/-! ## Deliveries -/

theorem callHandlers_comesFrom (world : World A) (id : SessionId) (message : A.Message) (called : Nat) :
    ∀ handlers, (world.callHandlers id message called handlers).ComesFrom world
  | [] => Activity.comesFrom_finish world _
  | _ :: _ => Activity.comesFrom_ask world _ rfl

theorem rejectPayload_comesFrom (world : World A) (id : SessionId) (reason : DisconnectReason) :
    (world.rejectPayload id reason).ComesFrom world :=
  (world.disconnect_comesFrom id reason false).andThen fun world _ => Activity.comesFrom_finish world _

theorem dispatch_comesFrom (world : World A) (id : SessionId) (payload : Payload) :
    (world.dispatch id payload).ComesFrom world := by
  unfold dispatch
  by_cases hclosing : (world.session id).state.isClosing = true
  · rw [if_pos hclosing]
    exact Activity.comesFrom_finish world _
  rw [if_neg hclosing]
  cases A.decode payload with
  | none => exact rejectPayload_comesFrom world id _
  | some message =>
    cases hentry : A.table.get? (A.kindOf message) with
    | none =>
      simp only [hentry]
      exact Activity.comesFrom_finish world _
    | some entry =>
      simp only [hentry]
      split
      · exact rejectPayload_comesFrom world id _
      · exact .before (edits_put id .countHandled) (callHandlers_comesFrom _ id message 0 _)

theorem resumeDelivery_comesFrom (world : World A) (reply : Reply) :
    ∀ rest : Delivery A, (rest.resume world reply).ComesFrom world
  | .handling id message called rest => by
    cases reply with
    | endSession graceful =>
      exact (world.disconnect_comesFrom id .requested graceful).andThen fun world _ =>
        Activity.comesFrom_finish world _
    | done => exact callHandlers_comesFrom world id message called rest
    | failed failure => exact callHandlers_comesFrom world id message called rest
  | .rejecting _ rest =>
    (world.resumeDisconnect_comesFrom reply rest).andThen fun world _ => Activity.comesFrom_finish world _
  | .ending _ rest =>
    (world.resumeDisconnect_comesFrom reply rest).andThen fun world _ => Activity.comesFrom_finish world _

theorem deliverAll_comesFrom (id : SessionId) : ∀ (payloads : List Payload) (world : World A) (handled : Nat),
    (world.deliverAll id handled payloads).ComesFrom world
  | [], world, handled => Activity.comesFrom_finish world handled
  | payload :: rest, world, handled => by
    unfold deliverAll
    split
    · exact (world.dispatch_comesFrom id payload).andThen fun world _ => deliverAll_comesFrom id rest world _
    · exact Activity.comesFrom_finish world handled

theorem hostReceive_comesFrom (world : World A) (id : SessionId) (chunk : List UInt8) :
    (world.hostReceive id chunk).ComesFrom world := by
  unfold hostReceive
  by_cases htracks : world.tracks id = true
  · rw [if_pos htracks]
    refine .before (edits_put id (.receive chunk)) ?_
    cases hresult : ((world.session id).receive chunk).2 with
    | error e =>
      simp only [hresult]
      exact (disconnect_comesFrom _ id .malformedData false).andThen fun world _ => Activity.comesFrom_finish world 0
    | ok payloads =>
      simp only [hresult]
      exact deliverAll_comesFrom id payloads _ 0
  · rw [if_neg htracks]
    exact Activity.comesFrom_finish world 0

theorem resumeArrival_comesFrom (world : World A) (reply : Reply) :
    ∀ rest : Arrival A, (rest.resume world reply).ComesFrom world
  | .delivering id _ rest current =>
    (world.resumeDelivery_comesFrom reply current).andThen fun world _ => deliverAll_comesFrom id rest world _
  | .malformed rest =>
    (world.resumeDisconnect_comesFrom reply rest).andThen fun world _ => Activity.comesFrom_finish world 0

/-! ## Hosts -/

theorem settleReport_comesFrom (world : World A) (id : SessionId) (state : ConnectionState) :
    ∀ moved, (world.settleReport id state moved).ComesFrom world
  | .error e => Activity.comesFrom_finish world _
  | .ok _ => by
    unfold settleReport
    by_cases hgone : state = .disconnected
    · rw [if_pos hgone]
      exact .before (Edit.forget id).once (Activity.comesFrom_finish _ _)
    · rw [if_neg hgone]
      exact Activity.comesFrom_finish world _

theorem report_comesFrom (world : World A) (id : SessionId) (state : ConnectionState) :
    (world.report id state).ComesFrom world := by
  unfold report
  split
  · exact (world.transition_comesFrom id state).andThen fun world => world.settleReport_comesFrom id state
  · exact Activity.comesFrom_finish world _

theorem resumeReport_comesFrom (world : World A) (report : Report A) : (report.resume world).ComesFrom world :=
  (world.resumeTransition_comesFrom report.rest).andThen fun world =>
    world.settleReport_comesFrom report.id report.state

theorem settleFlush_comesFrom (world : World A) (id : SessionId) :
    ∀ result, (world.settleFlush id result).ComesFrom world
  | .ok summary => Activity.comesFrom_finish world summary
  | .error e => (world.disconnect_comesFrom id e.reason false).andThen fun world _ => Activity.comesFrom_finish world _

theorem flushSession_comesFrom (world : World A) (id : SessionId) : (world.flushSession id).ComesFrom world :=
  (world.tick_comesFrom id).andThen fun world => world.settleFlush_comesFrom id

theorem hostTick_comesFrom (world : World A) (id : SessionId) : (world.hostTick id).ComesFrom world := by
  unfold hostTick
  split
  · exact flushSession_comesFrom world id
  · exact Activity.comesFrom_finish world _

theorem resumeHostFlush_comesFrom (world : World A) (reply : Reply) :
    ∀ rest : HostFlush A, (rest.resume world reply).ComesFrom world
  | .flushing id rest => (world.resumeFlush_comesFrom rest reply).andThen fun world => world.settleFlush_comesFrom id
  | .failing rest =>
    (world.resumeDisconnect_comesFrom reply rest).andThen fun world _ => Activity.comesFrom_finish world _

theorem sweep_comesFrom : ∀ (ids : List SessionId) (world : World A) (total : TickSummary),
    (world.sweep total ids).ComesFrom world
  | [], world, total => Activity.comesFrom_finish world total
  | id :: rest, world, _ =>
    (world.flushSession_comesFrom id).andThen fun world _ => sweep_comesFrom rest world _

theorem resumeSweep_comesFrom (world : World A) (reply : Reply) (sweep : Sweep A) :
    (sweep.resume world reply).ComesFrom world :=
  (world.resumeHostFlush_comesFrom reply sweep.current).andThen fun world _ => sweep_comesFrom sweep.rest world _

theorem disconnectEach_comesFrom : ∀ (ids : List SessionId) (world : World A),
    (world.disconnectEach ids).ComesFrom world
  | [], world => Activity.comesFrom_finish world ()
  | id :: rest, world =>
    (world.disconnect_comesFrom id .hostShutdown true).andThen fun world _ => disconnectEach_comesFrom rest world

theorem shutdown_comesFrom (world : World A) (order : Enumeration) : (world.shutdown order).ComesFrom world := by
  unfold shutdown
  split
  · exact Activity.comesFrom_finish world ()
  · exact .before Edit.shutDown.once (disconnectEach_comesFrom _ _)

theorem resumeShutdown_comesFrom (world : World A) (reply : Reply) (shutdown : Shutdown A) :
    (shutdown.resume world reply).ComesFrom world :=
  (world.resumeDisconnect_comesFrom reply shutdown.current).andThen fun world _ =>
    disconnectEach_comesFrom shutdown.rest world

theorem settleTick_edits (world : World A) (number : Nat) : world.Edits [] (world.settleTick number) := by
  unfold settleTick
  split
  · exact (Edit.setLoop number _).once
  · exact .none world
  · exact .none world
  · exact .none world

theorem finishTick_comesFrom (world : World A) (number : Nat) :
    (Activity.finish (world.settleTick number) true : Activity A (Sweep A) Bool).ComesFrom world :=
  .before (world.settleTick_edits number) (Activity.comesFrom_finish _ true)

theorem wakeLoop_comesFrom (world : World A) (number now : Nat) (order : Enumeration) :
    (world.wakeLoop number now order).ComesFrom world := by
  unfold wakeLoop
  split
  · rename_i due _
    split
    · exact Activity.comesFrom_finish world false
    · refine .before (Edit.setLoop number (.ticking (nextTick world.config.tickInterval due now))).once ?_
      exact (sweep_comesFrom _ _ _).andThen fun world _ => world.finishTick_comesFrom number
  · exact Activity.comesFrom_finish world false
  · exact Activity.comesFrom_finish world false
  · exact Activity.comesFrom_finish world false

theorem resumeTick_comesFrom (world : World A) (reply : Reply) (number : Nat) (sweep : Sweep A) :
    (world.resumeTick reply number sweep).ComesFrom world :=
  (world.resumeSweep_comesFrom reply sweep).andThen fun world _ => world.finishTick_comesFrom number

end World

/-! ## Calls and moves -/

section Calls

variable {A : Application}

/-- What an answer means to the outgoing stream of a session. -/
def Call.marks : Call A → Answer → List Mark
  | enqueue id payload, .flag accepted | hostEnqueue id payload, .flag accepted =>
    (Deed.ofAnswer payload accepted).map (Mark.mk id)
  | outboxEnqueue id _, _ | outboxFlush id _ _ _, _ => [⟨id, .direct⟩]
  | _, _ => []

/-- What an event means to the outgoing stream of a session. -/
def Event.marks : Event A → List Mark
  | called _ (.asks query) | returned _ _ (.asks query) => query.marks
  | called call (.answers answer) => call.marks answer
  | returned _ _ (.answers _) => []

theorem Activity.ComesFrom.wrap {κ α : Type} {world : World A} {first : Activity A κ α} (h : first.ComesFrom world)
    (within : κ → Suspended A) (answer : α → Answer) {record : Answer → List Mark}
    (hrecord : ∀ result, record (answer result) = []) : (Call.wrap first within answer).Records world record := by
  refine h.andThen fun world result => ?_
  unfold Records finish
  simp only [hrecord]
  exact .none world

/-- **What a call does** up to its end, or up to its first call of outside code. -/
theorem Call.begin_records (world : World A) (call : Call A) : (call.begin world).Records world call.marks := by
  cases call with
  | transition id target => exact (world.transition_comesFrom id target).wrap _ _ fun _ => rfl
  | authenticate id identity => exact World.edits_put id (.authenticate identity)
  | enqueue id payload => exact (World.Edit.session (.enqueue payload)).once
  | tick id => exact (world.tick_comesFrom id).wrap _ _ fun _ => rfl
  | receive id chunk => exact World.edits_put id (.receive chunk)
  | disconnect id reason flushFirst => exact (world.disconnect_comesFrom id reason flushFirst).wrap _ _ fun _ => rfl
  | dispatch id payload => exact (world.dispatch_comesFrom id payload).wrap _ _ fun _ => rfl
  | outboxEnqueue id payload => exact (World.Edit.session (.outboxEnqueue payload)).once
  | outboxFlush id buffer offset limit => exact (World.Edit.session (.outboxFlush buffer offset limit)).once
  | outboxClose id => exact World.edits_put id .outboxClose
  | addObserver observer => exact (World.Edit.addObserver observer).once
  | hostOpen => exact World.Edit.openSession.once
  | hostReport id state => exact (world.report_comesFrom id state).wrap _ _ fun _ => rfl
  | hostReceive id chunk => exact (world.hostReceive_comesFrom id chunk).wrap _ _ fun _ => rfl
  | hostEnqueue id payload =>
    by_cases htracks : world.tracks id = true
    · simp only [begin, World.hostEnqueue, if_pos htracks]
      exact (World.Edit.session (.enqueue payload)).once
    · simp only [begin, World.hostEnqueue, if_neg htracks]
      exact .none world
  | hostTick id => exact (world.hostTick_comesFrom id).wrap _ _ fun _ => rfl
  | hostFlushAll _ => exact (World.sweep_comesFrom _ world _).wrap _ _ fun _ => rfl
  | hostDisconnect id reason flushFirst =>
    by_cases htracks : world.tracks id = true
    · rw [begin, if_pos htracks]
      exact (world.disconnect_comesFrom id reason flushFirst).wrap _ _ fun _ => rfl
    · rw [begin, if_neg htracks]
      exact .none world
  | hostShutdown order => exact (world.shutdown_comesFrom order).wrap _ _ fun _ => rfl
  | startLoop now => exact (World.Edit.startLoop now).once
  | wakeLoop number now order => exact (world.wakeLoop_comesFrom number now order).wrap _ _ fun _ => rfl

/-- **What a call does when outside code has returned to it**, up to its end or its next call of outside code. -/
theorem Suspended.resume_comesFrom (world : World A) (reply : Reply) (rest : Suspended A) :
    (rest.resume world reply).ComesFrom world := by
  cases rest with
  | transition rest => exact (world.resumeTransition_comesFrom rest).wrap _ _ fun _ => rfl
  | tick rest => exact (world.resumeFlush_comesFrom rest reply).wrap _ _ fun _ => rfl
  | disconnect rest => exact (world.resumeDisconnect_comesFrom reply rest).wrap _ _ fun _ => rfl
  | dispatch rest => exact (world.resumeDelivery_comesFrom reply rest).wrap _ _ fun _ => rfl
  | report rest => exact (world.resumeReport_comesFrom rest).wrap _ _ fun _ => rfl
  | arrival rest => exact (world.resumeArrival_comesFrom reply rest).wrap _ _ fun _ => rfl
  | hostTick rest => exact (world.resumeHostFlush_comesFrom reply rest).wrap _ _ fun _ => rfl
  | sweep rest => exact (world.resumeSweep_comesFrom reply rest).wrap _ _ fun _ => rfl
  | shutdown rest => exact (world.resumeShutdown_comesFrom reply rest).wrap _ _ fun _ => rfl
  | loop number rest => exact (world.resumeTick_comesFrom reply number rest).wrap _ _ fun _ => rfl

namespace Machine

/-- What an activity does to a machine: it ends, or it asks and waits. -/
theorem settle_cases {waiting : List (Waiting A)} {activity : Activity A (Suspended A) Answer} {next : Machine A}
    {signal : Signal A} (h : settle waiting activity = some (next, signal)) :
    (∃ answer, activity = .finish next.world answer ∧ signal = .answers answer ∧ next.waiting = waiting) ∨
      ∃ query rest, activity = .ask next.world query rest ∧ signal = .asks query ∧
        next.waiting = ⟨query, rest⟩ :: waiting := by
  obtain ⟨world, progress⟩ := activity
  cases progress with
  | done answer =>
    cases h
    exact .inl ⟨answer, rfl, rfl, rfl⟩
  | asks query rest =>
    cases h
    exact .inr ⟨query, rest, rfl, rfl, rfl⟩
  | stuck => cases h

theorem world_settle {waiting : List (Waiting A)} {activity : Activity A (Suspended A) Answer} {next : Machine A}
    {signal : Signal A} (h : settle waiting activity = some (next, signal)) : next.world = activity.world := by
  rcases settle_cases h with ⟨answer, rfl, -, -⟩ | ⟨query, rest, rfl, -, -⟩ <;> rfl

theorem settle_edits {waiting : List (Waiting A)} {activity : Activity A (Suspended A) Answer} {world : World A}
    {record : Answer → List Mark} {next : Machine A} {signal : Signal A} (h : activity.Records world record)
    (hsettle : settle waiting activity = some (next, signal)) :
    (∃ answer, signal = .answers answer ∧ world.Edits (record answer) next.world) ∨
      ∃ query, signal = .asks query ∧ world.Edits query.marks next.world := by
  rcases settle_cases hsettle with ⟨answer, rfl, rfl, -⟩ | ⟨query, rest, rfl, rfl, -⟩
  · exact .inl ⟨answer, rfl, h⟩
  · exact .inr ⟨query, rfl, h⟩

/-- A call that is made can be made, and the machine settles with what the call does. -/
theorem of_move_call {machine next : Machine A} {call : Call A} {event : Event A}
    (h : machine.move (.call call) = some (next, event)) : machine.canCall call = true ∧ ∃ signal,
      event = .called call signal ∧ settle machine.waiting (call.begin machine.world) = some (next, signal) := by
  rw [move] at h
  split at h
  · rename_i hcan
    obtain ⟨⟨reached, signal⟩, hsettle, heq⟩ := Option.map_eq_some_iff.1 h
    cases heq
    exact ⟨hcan, signal, rfl, hsettle⟩
  · cases h

/-- A return is to the innermost call, and the machine settles with what that goes on to do. -/
theorem of_move_reply {machine next : Machine A} {reply : Reply} {event : Event A}
    (h : machine.move (.reply reply) = some (next, event)) : ∃ innermost outer signal,
      machine.waiting = innermost :: outer ∧ event = .returned innermost.query reply signal ∧
      settle outer (innermost.rest.resume machine.world reply) = some (next, signal) := by
  rw [move] at h
  split at h
  · cases h
  · rename_i innermost outer hwaiting
    obtain ⟨⟨reached, signal⟩, hsettle, heq⟩ := Option.map_eq_some_iff.1 h
    cases heq
    exact ⟨innermost, outer, signal, hwaiting, rfl, hsettle⟩

/-- **A move is a chain of edits.** -/
theorem move_edits {machine next : Machine A} {move : Move A} {event : Event A}
    (h : machine.move move = some (next, event)) : machine.world.Edits event.marks next.world := by
  cases move with
  | call call =>
    obtain ⟨-, signal, rfl, hsettle⟩ := of_move_call h
    rcases settle_edits (call.begin_records machine.world) hsettle with ⟨answer, rfl, hedits⟩ | ⟨query, rfl, hedits⟩
    · exact hedits
    · exact hedits
  | reply reply =>
    obtain ⟨innermost, outer, signal, -, rfl, hsettle⟩ := of_move_reply h
    rcases settle_edits (innermost.rest.resume_comesFrom machine.world reply) hsettle with
      ⟨answer, rfl, hedits⟩ | ⟨query, rfl, hedits⟩
    · exact hedits
    · exact hedits

/-- A run of more than no moves is a move and a run from there. -/
theorem exists_of_run_cons {machine last : Machine A} {move : Move A} {moves : List (Move A)} {events : List (Event A)}
    (h : machine.run (move :: moves) = some (last, events)) : ∃ next event later,
      machine.move move = some (next, event) ∧ next.run moves = some (last, later) ∧ events = event :: later := by
  unfold run at h
  obtain ⟨⟨next, event⟩, hmove, hrest⟩ := Option.bind_eq_some_iff.1 h
  obtain ⟨⟨reached, later⟩, hrun, heq⟩ := Option.map_eq_some_iff.1 hrest
  cases heq
  exact ⟨next, event, later, hmove, hrun, rfl⟩

/-- **What each of the moves of a run keeps is kept by the run**: an invariant of the machine and of what has happened
so far. -/
theorem run_invariant_of_mem {motive : List (Event A) → Machine A → Prop} {moves : List (Move A)}
    {machine last : Machine A} {events : List (Event A)}
    (hstep : ∀ {past : List (Event A)} {machine next : Machine A} {move : Move A} {event : Event A},
      move ∈ moves → motive past machine → machine.move move = some (next, event) → motive (past ++ [event]) next)
    (h : motive [] machine) (hrun : machine.run moves = some (last, events)) : motive events last := by
  induction moves generalizing motive machine events with
  | nil =>
    cases hrun
    exact h
  | cons move moves ih =>
    obtain ⟨next, event, later, hmove, hlater, rfl⟩ := exists_of_run_cons hrun
    exact ih (motive := fun past => motive (event :: past)) (fun hmem => hstep (List.mem_cons_of_mem _ hmem))
      (hstep List.mem_cons_self h hmove) hlater

/-- What every move keeps is kept by every run. -/
theorem run_invariant {motive : List (Event A) → Machine A → Prop} {moves : List (Move A)} {machine last : Machine A}
    {events : List (Event A)}
    (hstep : ∀ {past : List (Event A)} {machine next : Machine A} {move : Move A} {event : Event A},
      motive past machine → machine.move move = some (next, event) → motive (past ++ [event]) next)
    (h : motive [] machine) (hrun : machine.run moves = some (last, events)) : motive events last :=
  run_invariant_of_mem (fun _ => hstep) h hrun

/-- **A run is a chain of edits**, marked as its events say. -/
theorem run_edits (moves : List (Move A)) {machine last : Machine A} {events : List (Event A)}
    (hrun : machine.run moves = some (last, events)) : machine.world.Edits (events.flatMap Event.marks) last.world := by
  refine run_invariant (motive := fun past reached => machine.world.Edits (past.flatMap Event.marks) reached.world)
    (fun hedits hmove => ?_) (.none _) hrun
  rw [List.flatMap_append, List.flatMap_singleton]
  exact hedits.trans (move_edits hmove)

end Machine

end Calls

end FramedLink
