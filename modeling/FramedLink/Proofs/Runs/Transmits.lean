import FramedLink.Proofs.Runs.Order
/-!
# Sessions in the middle of a transmit

A session notes that it is being flushed, and no second flush of it begins meanwhile.  Every way out of a flush takes
the note back: nothing was left, the limit was reached, the outbox refused, or the transport failed.  So no call leaves
the note behind it, and where outside code acts, a session with the note is one of which a transmit has not returned.
There is one statement for each function that makes an activity or goes on with one.

Main statement: in every state of a run that starts with a new host, a session is noted as being flushed only while a
call waits for one of its transmits (`Machine.attended_run`).
-/
namespace FramedLink

variable {A : Application} {κ κ' α β : Type} {id : SessionId}

/-- The call of outside code is a transmit for the session. -/
def Query.Transmits (id : SessionId) (query : Query A) : Prop := ∃ data, query = .transmit id data

/-- The session is noted as being flushed. -/
def World.Flushing (world : World A) (id : SessionId) : Prop := (world.session id).flushing = true

/-- The session is noted as being flushed only if it was `before`, or because the activity has it transmit. -/
def Activity.Attends (id : SessionId) (before : Prop) (activity : Activity A κ α) : Prop :=
  activity.world.Flushing id → before ∨ ∃ query rest, activity.progress = .asks query rest ∧ query.Transmits id

namespace Activity

variable {before : Prop} {world : World A} {activity : Activity A κ α}

theorem Attends.mono {before' : Prop} (h : activity.Attends id before) (himp : before → before') :
    activity.Attends id before' := fun hflushing => (h hflushing).imp_left himp

/-- An activity that leaves the note as it was. -/
theorem attends_of_same (h : (activity.world.session id).flushing = (world.session id).flushing) :
    activity.Attends id (world.Flushing id) := fun hflushing => .inl (h.symm.trans hflushing)

theorem Attends.andThen {within : κ → κ'} {next : World A → α → Activity A κ' β} (h : activity.Attends id before)
    (hnext : ∀ middle result, (next middle result).Attends id (middle.Flushing id)) :
    (activity.andThen within next).Attends id before := by
  cases hprogress : activity.progress with
  | done result =>
    have heq : activity.andThen within next = next activity.world result := by rw [Activity.andThen, hprogress]
    rw [heq]
    intro hflushing
    rcases hnext activity.world result hflushing with hmiddle | htransmits
    · rcases h hmiddle with hbefore | ⟨query, rest, hasks, -⟩
      · exact .inl hbefore
      · rw [hprogress] at hasks
        cases hasks
    · exact .inr htransmits
  | asks query rest =>
    have heq : activity.andThen within next = .ask activity.world query (within rest) := by
      rw [Activity.andThen, hprogress]
      rfl
    rw [heq]
    intro hflushing
    rcases h hflushing with hbefore | ⟨other, rest', hasks, htransmits⟩
    · exact .inl hbefore
    · rw [hprogress] at hasks
      cases hasks
      exact .inr ⟨query, within rest, rfl, htransmits⟩
  | stuck =>
    have heq : activity.andThen within next = ⟨activity.world, .stuck⟩ := by rw [Activity.andThen, hprogress]
    rw [heq]
    intro hflushing
    rcases h hflushing with hbefore | ⟨query, rest, hasks, -⟩
    · exact .inl hbefore
    · rw [hprogress] at hasks
      cases hasks

theorem attends_finish (world : World A) (result : α) :
    (finish world result : Activity A κ α).Attends id (world.Flushing id) := attends_of_same rfl

theorem attends_ask (world : World A) (query : Query A) (rest : κ) :
    (ask world query rest : Activity A κ α).Attends id (world.Flushing id) := attends_of_same rfl

end Activity

open Activity (attends_of_same attends_finish attends_ask)

/-- A quiet call of outside code is no transmit. -/
theorem Query.IsQuietIn.not_transmits {scope : SessionId → Prop} {query : Query A} (h : query.IsQuietIn scope) :
    ¬ query.Transmits id := by
  rintro ⟨data, rfl⟩
  cases h.1

namespace Session

variable {ι : Type}

theorem flushing_enter (session : Session ι) (target : ConnectionState) :
    (session.enter target).flushing = session.flushing := by
  unfold Session.enter
  split <;> rfl

theorem flushing_authenticate (session : Session ι) (identity : Option ι) :
    (session.authenticate identity).1.flushing = session.flushing := by
  rcases session.authenticate_cases identity with ⟨e, heq⟩ | ⟨-, -, heq⟩
  · rw [heq]
  · rw [heq]

theorem flushing_enqueue (session : Session ι) (payload : Payload) :
    (session.enqueue payload).1.flushing = session.flushing := by
  rw [enqueue_fst]

theorem flushing_receive (session : Session ι) (chunk : List UInt8) :
    (session.receive chunk).1.flushing = session.flushing := by
  rcases session.receive_cases chunk with ⟨-, heq⟩ | ⟨-, stats, heq⟩
  · rw [heq]
  · rw [heq]

end Session

namespace World

variable {world : World A} {query : Query A} {scope : SessionId → Prop}

/-! ## Sessions -/

/-- What is put in the place of a session leaves every note as it was, if it has the note of that session. -/
theorem flushing_put (world : World A) {other : SessionId} {session : Session A.Identity} (id : SessionId)
    (h : session.flushing = (world.session other).flushing) :
    ((world.put other session).session id).flushing = (world.session id).flushing := by
  by_cases hother : other = id
  · subst hother
    rw [session_put_self, h]
  · rw [session_put_of_ne _ _ hother]

theorem flushing_of_put {other : SessionId} {session : Session A.Identity}
    (hflushing : (world.put other session).Flushing id) (h : session.flushing = (world.session other).flushing) :
    world.Flushing id := (world.flushing_put id h).symm.trans hflushing

theorem bidFarewell_attends (world : World A) (other : SessionId) (reason : DisconnectReason)
    (observers : List A.Observer) : (world.bidFarewell other reason observers).Attends id (world.Flushing id) :=
  attends_of_same (by rw [bidFarewell_world])

theorem tell_attends (world : World A) (other : SessionId) (source target : ConnectionState)
    (observers : List A.Observer) : (world.tell other source target observers).Attends id (world.Flushing id) := by
  cases observers with
  | nil =>
    by_cases htarget : target = .disconnected
    · rw [tell, if_pos htarget]
      exact (bidFarewell_attends _ other _ _).mono fun hflushing => flushing_of_put hflushing rfl
    · rw [tell, if_neg htarget]
      exact attends_finish world _
  | cons observer rest => exact attends_ask world _ _

theorem transition_attends (world : World A) (other : SessionId) (target : ConnectionState) :
    (world.transition other target).Attends id (world.Flushing id) := by
  unfold transition
  by_cases hsame : (world.session other).state = target
  · rw [if_pos hsame]
    exact attends_finish world _
  rw [if_neg hsame]
  cases hedge : (world.session other).state.canTransitionTo target with
  | false => exact attends_finish world _
  | true =>
    refine (tell_attends _ other _ target _).mono fun hflushing => ?_
    exact flushing_of_put hflushing (Session.flushing_enter _ target)

theorem resumeTransition_attends (world : World A) : ∀ rest : Transition A,
    (rest.resume world).Attends id (world.Flushing id)
  | .telling other source target rest => world.tell_attends other source target rest
  | .parting other reason rest => world.bidFarewell_attends other reason rest

/-- A flush that ends takes its note back. -/
theorem endFlush_attends (world : World A) (other : SessionId) (result : Except FlushError TickSummary) :
    (world.endFlush other result).Attends id (world.Flushing id ∧ other ≠ id) := by
  intro hflushing
  by_cases hother : other = id
  · subst hother
    simp only [Flushing, endFlush, Activity.finish, modify, session_put_self, Bool.false_eq_true] at hflushing
  · refine .inl ⟨?_, hother⟩
    rwa [Flushing, endFlush, Activity.finish, modify, session_put_of_ne _ _ hother] at hflushing

theorem pump_attends (world : World A) (other : SessionId) (limit : Limit) (summary : TickSummary) :
    (world.pump other limit summary).Attends id (world.Flushing id ∧ other ≠ id) := by
  unfold pump
  split
  · exact world.endFlush_attends other _
  · have hput : ∀ box : Outbox, (world.put other { world.session other with outbox := box }).Flushing id →
        world.Flushing id := fun box hflushing => flushing_of_put hflushing rfl
    cases hresult : ((world.session other).outbox.drain (world.session other).config.transmitBufferSize limit).2 with
    | error e =>
      simp only [hresult]
      exact (endFlush_attends _ other _).mono fun h => ⟨hput _ h.1, h.2⟩
    | ok output =>
      simp only [hresult]
      split
      · exact (endFlush_attends _ other _).mono fun h => ⟨hput _ h.1, h.2⟩
      · intro hflushing
        by_cases hother : other = id
        · subst hother
          exact .inr ⟨_, _, rfl, output.bytes, rfl⟩
        · exact .inl ⟨hput _ hflushing, hother⟩

theorem beginFlush_attends (world : World A) (other : SessionId) (limit : Limit) :
    (world.beginFlush other limit).Attends id (world.Flushing id) := by
  unfold beginFlush
  split
  · refine (pump_attends _ other limit {}).mono fun h => ?_
    rw [Flushing, modify, session_put_of_ne _ _ h.2] at h
    exact h.1
  · exact attends_finish world _

theorem tick_attends (world : World A) (other : SessionId) :
    (world.tick other).Attends id (world.Flushing id) := by
  unfold tick
  split
  · exact attends_finish world _
  · exact world.beginFlush_attends other _

theorem flushFully_attends (world : World A) (other : SessionId) :
    (world.flushFully other).Attends id (world.Flushing id) := by
  unfold flushFully
  split
  · exact attends_of_same rfl
  · exact world.beginFlush_attends other none

/-- **A flush goes on with its note, or ends without it.** -/
theorem resumeFlush_attends (world : World A) (reply : Reply) {flush : Flush} {other : SessionId}
    (h : flush.Awaits other query) :
    (flush.resume world reply).Attends id (world.Flushing id ∧ ¬ query.Transmits id) := by
  obtain ⟨rfl, rfl⟩ := h
  have hsilent : ∀ middle : World A, middle.Flushing id ∧ flush.id ≠ id → (middle.Flushing id → world.Flushing id) →
      world.Flushing id ∧ ¬ (Query.transmit flush.id flush.output.bytes : Query A).Transmits id := by
    intro middle hmiddle hback
    refine ⟨hback hmiddle.1, ?_⟩
    rintro ⟨data, heq⟩
    exact hmiddle.2 (Query.transmit.inj heq).1
  have hcounted : (world.modify flush.id (·.countTransmitted flush.output.bytes.length)).Flushing id →
      world.Flushing id := fun hflushing => flushing_of_put hflushing rfl
  have htaken : (flush.resume world .done).Attends id
      (world.Flushing id ∧ ¬ (Query.transmit flush.id flush.output.bytes : Query A).Transmits id) := by
    simp only [Flush.resume]
    split
    · exact (endFlush_attends _ flush.id _).mono fun h => hsilent _ h hcounted
    · exact (pump_attends _ flush.id _ _).mono fun h => hsilent _ h hcounted
  cases reply with
  | failed failure => exact (world.endFlush_attends flush.id _).mono fun h => hsilent world h fun h => h
  | done => exact htaken
  | endSession graceful => exact htaken

theorem closeTransport_attends (world : World A) (other : SessionId) (reason : DisconnectReason) :
    ∀ moved, (world.closeTransport other reason moved).Attends id (world.Flushing id)
  | .ok true => attends_ask world _ _
  | .ok false | .error _ => attends_finish world _

theorem leave_attends (world : World A) (other : SessionId) (reason : DisconnectReason) :
    (world.leave other reason).Attends id (world.Flushing id) :=
  (world.transition_attends other .disconnecting).andThen fun world => world.closeTransport_attends other reason

theorem disconnect_attends (world : World A) (other : SessionId) (reason : DisconnectReason) (flushFirst : Bool) :
    (world.disconnect other reason flushFirst).Attends id (world.Flushing id) := by
  have hnoted : (world.modify other (·.noteReason reason)).Flushing id → world.Flushing id :=
    fun hflushing => flushing_of_put hflushing rfl
  unfold disconnect
  by_cases hclosing : (world.session other).state.isClosing = true
  · rw [if_pos hclosing]
    exact attends_finish world _
  rw [if_neg hclosing]
  split
  · exact ((flushFully_attends _ other).mono hnoted).andThen fun world _ => world.leave_attends other reason
  · exact (leave_attends _ other reason).mono hnoted

/-- What waits for a call that is no transmit leaves the note as it was. -/
theorem flushing_of_quiet (h : query.IsQuietIn scope) (hflushing : world.Flushing id) :
    world.Flushing id ∧ ¬ query.Transmits id := ⟨hflushing, h.not_transmits⟩

theorem resumeDisconnect_attends (world : World A) (reply : Reply) {rest : Disconnect A}
    (h : rest.Awaits scope query) :
    (rest.resume world reply).Attends id (world.Flushing id ∧ ¬ query.Transmits id) := by
  cases rest with
  | flushing other reason rest =>
    exact (world.resumeFlush_attends reply h.2).andThen fun world _ => world.leave_attends other reason
  | leaving other reason rest =>
    refine Activity.Attends.andThen ?_ fun world => world.closeTransport_attends other reason
    exact (world.resumeTransition_attends rest).mono (flushing_of_quiet h.2.2)
  | closing => exact (attends_finish world ()).mono (flushing_of_quiet h)

/-! ## Deliveries -/

theorem callHandlers_attends (world : World A) (other : SessionId) (message : A.Message) (called : Nat) :
    ∀ handlers, (world.callHandlers other message called handlers).Attends id (world.Flushing id)
  | [] => attends_finish world _
  | _ :: _ => attends_ask world _ _

theorem rejectPayload_attends (world : World A) (other : SessionId) (reason : DisconnectReason) :
    (world.rejectPayload other reason).Attends id (world.Flushing id) :=
  (world.disconnect_attends other reason false).andThen fun world _ => attends_finish world _

theorem dispatch_attends (world : World A) (other : SessionId) (payload : Payload) :
    (world.dispatch other payload).Attends id (world.Flushing id) := by
  unfold dispatch
  by_cases hclosing : (world.session other).state.isClosing = true
  · rw [if_pos hclosing]
    exact attends_finish world _
  rw [if_neg hclosing]
  cases A.decode payload with
  | none => exact world.rejectPayload_attends other .malformedData
  | some message =>
    cases hentry : A.table.get? (A.kindOf message) with
    | none =>
      simp only [hentry]
      exact attends_finish world _
    | some entry =>
      simp only [hentry]
      split
      · exact world.rejectPayload_attends other .exploitAttempt
      · refine (callHandlers_attends _ other message 0 entry.handlers).mono fun hflushing => ?_
        exact flushing_of_put hflushing rfl

theorem resumeDelivery_attends (world : World A) (reply : Reply) {rest : Delivery A} (h : rest.Awaits scope query) :
    (rest.resume world reply).Attends id (world.Flushing id ∧ ¬ query.Transmits id) := by
  cases rest with
  | handling other message called rest =>
    refine Activity.Attends.mono ?_ (flushing_of_quiet h.2)
    cases reply with
    | endSession graceful =>
      exact (world.disconnect_attends other .requested graceful).andThen fun world _ => attends_finish world _
    | done => exact world.callHandlers_attends other message called rest
    | failed failure => exact world.callHandlers_attends other message called rest
  | rejecting reason rest =>
    exact (world.resumeDisconnect_attends reply h).andThen fun world _ => attends_finish world _
  | ending called rest =>
    exact (world.resumeDisconnect_attends reply h).andThen fun world _ => attends_finish world _

theorem deliverAll_attends (other : SessionId) : ∀ (payloads : List Payload) (world : World A) (handled : Nat),
    (world.deliverAll other handled payloads).Attends id (world.Flushing id)
  | [], world, _ => attends_finish world _
  | payload :: rest, world, handled => by
    unfold deliverAll
    split
    · exact (world.dispatch_attends other payload).andThen fun world _ => deliverAll_attends other rest world _
    · exact attends_finish world _

theorem hostReceive_attends (world : World A) (other : SessionId) (chunk : List UInt8) :
    (world.hostReceive other chunk).Attends id (world.Flushing id) := by
  have hreceived : (world.put other ((world.session other).receive chunk).1).Flushing id → world.Flushing id :=
    fun hflushing => flushing_of_put hflushing (Session.flushing_receive _ chunk)
  unfold hostReceive
  by_cases htracks : world.tracks other = true
  · simp only [if_pos htracks]
    cases hresult : ((world.session other).receive chunk).2 with
    | error e =>
      exact ((disconnect_attends _ other .malformedData false).mono hreceived).andThen
        fun world _ => attends_finish world _
    | ok payloads => exact (deliverAll_attends other payloads _ 0).mono hreceived
  · simp only [if_neg htracks]
    exact attends_finish world _

theorem resumeArrival_attends (world : World A) (reply : Reply) {rest : Arrival A} (h : rest.Awaits scope query) :
    (rest.resume world reply).Attends id (world.Flushing id ∧ ¬ query.Transmits id) := by
  cases rest with
  | delivering other handled rest current =>
    exact (world.resumeDelivery_attends reply h.2).andThen fun world _ => deliverAll_attends other rest world _
  | malformed rest => exact (world.resumeDisconnect_attends reply h).andThen fun world _ => attends_finish world _

/-! ## Hosts -/

theorem settleReport_attends (world : World A) (other : SessionId) (state : ConnectionState) :
    ∀ moved, (world.settleReport other state moved).Attends id (world.Flushing id)
  | .error e => attends_finish world _
  | .ok _ => by
    by_cases hgone : state = .disconnected
    · rw [settleReport, if_pos hgone]
      exact attends_of_same rfl
    · rw [settleReport, if_neg hgone]
      exact attends_finish world _

theorem report_attends (world : World A) (other : SessionId) (state : ConnectionState) :
    (world.report other state).Attends id (world.Flushing id) := by
  unfold report
  split
  · exact (world.transition_attends other state).andThen fun world => world.settleReport_attends other state
  · exact attends_finish world _

theorem resumeReport_attends (world : World A) {report : Report A} (h : report.Awaits scope query) :
    (report.resume world).Attends id (world.Flushing id ∧ ¬ query.Transmits id) := by
  refine Activity.Attends.andThen ?_ fun world => world.settleReport_attends report.id report.state
  exact (world.resumeTransition_attends report.rest).mono (flushing_of_quiet h.2)

theorem settleFlush_attends (world : World A) (other : SessionId) :
    ∀ result, (world.settleFlush other result).Attends id (world.Flushing id)
  | .ok _ => attends_finish world _
  | .error e => (world.disconnect_attends other e.reason false).andThen fun world _ => attends_finish world _

theorem flushSession_attends (world : World A) (other : SessionId) :
    (world.flushSession other).Attends id (world.Flushing id) :=
  (world.tick_attends other).andThen fun world => world.settleFlush_attends other

theorem hostTick_attends (world : World A) (other : SessionId) :
    (world.hostTick other).Attends id (world.Flushing id) := by
  unfold hostTick
  split
  · exact world.flushSession_attends other
  · exact attends_finish world _

theorem resumeHostFlush_attends (world : World A) (reply : Reply) {rest : HostFlush A} (h : rest.Awaits scope query) :
    (rest.resume world reply).Attends id (world.Flushing id ∧ ¬ query.Transmits id) := by
  cases rest with
  | flushing other rest =>
    exact (world.resumeFlush_attends reply h.2).andThen fun world => world.settleFlush_attends other
  | failing rest => exact (world.resumeDisconnect_attends reply h).andThen fun world _ => attends_finish world _

theorem sweep_attends : ∀ (ids : List SessionId) (world : World A) (total : TickSummary),
    (world.sweep total ids).Attends id (world.Flushing id)
  | [], world, _ => attends_finish world _
  | other :: rest, world, _ =>
    (world.flushSession_attends other).andThen fun world _ => sweep_attends rest world _

theorem resumeSweep_attends (world : World A) (reply : Reply) {sweep : Sweep A} (h : sweep.Awaits scope query) :
    (sweep.resume world reply).Attends id (world.Flushing id ∧ ¬ query.Transmits id) :=
  (world.resumeHostFlush_attends reply h.2).andThen fun world _ => sweep_attends sweep.rest world _

theorem disconnectEach_attends : ∀ (ids : List SessionId) (world : World A),
    (world.disconnectEach ids).Attends id (world.Flushing id)
  | [], world => attends_finish world _
  | other :: rest, world =>
    (world.disconnect_attends other .hostShutdown true).andThen fun world _ => disconnectEach_attends rest world

theorem shutdown_attends (world : World A) (order : Enumeration) :
    (world.shutdown order).Attends id (world.Flushing id) := by
  unfold shutdown
  split
  · exact attends_finish world _
  · exact disconnectEach_attends _ _

theorem resumeShutdown_attends (world : World A) (reply : Reply) {shutdown : Shutdown A}
    (h : shutdown.Awaits scope query) :
    (shutdown.resume world reply).Attends id (world.Flushing id ∧ ¬ query.Transmits id) :=
  (world.resumeDisconnect_attends reply h.2).andThen fun world _ => disconnectEach_attends shutdown.rest world

theorem finishTick_attends (world : World A) (number : Nat) :
    (.finish (world.settleTick number) true : Activity A (Sweep A) Bool).Attends id (world.Flushing id) := by
  refine attends_of_same ?_
  simp only [Activity.finish, settleTick]
  split <;> rfl

theorem wakeLoop_attends (world : World A) (number now : Nat) (order : Enumeration) :
    (world.wakeLoop number now order).Attends id (world.Flushing id) := by
  unfold wakeLoop
  split
  · split
    · exact attends_finish world _
    · exact (sweep_attends _ _ _).andThen fun world _ => world.finishTick_attends number
  · exact attends_finish world _
  · exact attends_finish world _
  · exact attends_finish world _

theorem resumeTick_attends (world : World A) (reply : Reply) (number : Nat) {sweep : Sweep A}
    (h : sweep.Awaits scope query) :
    (world.resumeTick reply number sweep).Attends id (world.Flushing id ∧ ¬ query.Transmits id) :=
  (world.resumeSweep_attends reply h).andThen fun world _ => world.finishTick_attends number

end World

/-! ## Calls and moves -/

theorem Activity.Attends.wrap {before : Prop} {first : Activity A κ α} (h : first.Attends id before)
    (within : κ → Suspended A) (answer : α → Answer) : (Call.wrap first within answer).Attends id before :=
  h.andThen fun world _ => attends_finish world _

/-- **A call has a session noted as being flushed only by having it transmit.** -/
theorem Call.begin_attends (id : SessionId) (world : World A) (call : Call A) :
    (call.begin world).Attends id (world.Flushing id) := by
  cases call with
  | transition other target => exact (world.transition_attends other target).wrap _ _
  | tick other => exact (world.tick_attends other).wrap _ _
  | disconnect other reason flushFirst => exact (world.disconnect_attends other reason flushFirst).wrap _ _
  | dispatch other payload => exact (world.dispatch_attends other payload).wrap _ _
  | hostReport other state => exact (world.report_attends other state).wrap _ _
  | hostReceive other chunk => exact (world.hostReceive_attends other chunk).wrap _ _
  | hostTick other => exact (world.hostTick_attends other).wrap _ _
  | hostFlushAll _ => exact (World.sweep_attends _ world _).wrap _ _
  | hostShutdown order => exact (world.shutdown_attends order).wrap _ _
  | wakeLoop number now order => exact (world.wakeLoop_attends number now order).wrap _ _
  | hostDisconnect other reason flushFirst =>
    rw [begin]
    split
    · exact (world.disconnect_attends other reason flushFirst).wrap _ _
    · exact attends_finish world _
  | authenticate other identity =>
    exact attends_of_same (world.flushing_put id (Session.flushing_authenticate _ identity))
  | enqueue other payload => exact attends_of_same (world.flushing_put id (Session.flushing_enqueue _ payload))
  | receive other chunk => exact attends_of_same (world.flushing_put id (Session.flushing_receive _ chunk))
  | hostEnqueue other payload =>
    refine attends_of_same ?_
    simp only [begin, Activity.finish, World.hostEnqueue]
    split
    · exact world.flushing_put id (Session.flushing_enqueue _ payload)
    · rfl
  | hostOpen =>
    intro hflushing
    simp only [begin, Activity.finish] at hflushing
    rcases world.openSession_cases with ⟨e, heq⟩ | ⟨-, -, heq⟩
    · rw [heq] at hflushing
      exact .inl hflushing
    · rw [heq] at hflushing
      by_cases hnew : id = ⟨world.ids.next⟩
      · subst hnew
        have hstart := world.session_put_self ⟨world.ids.next⟩ (.start ⟨world.ids.next⟩ world.config.session)
        exact absurd ((congrArg Session.flushing hstart).symm.trans hflushing) Bool.false_ne_true
      · exact .inl ((congrArg Session.flushing (World.session_withNext hnew)).symm.trans hflushing)
  | outboxEnqueue other payload => exact attends_of_same (world.flushing_put id rfl)
  | outboxFlush other buffer offset limit => exact attends_of_same (world.flushing_put id rfl)
  | outboxClose other => exact attends_of_same (world.flushing_put id rfl)
  | addObserver observer => exact attends_of_same rfl
  | startLoop now => exact attends_of_same rfl

/-- **What goes on after a transmit has the note only by transmitting again.** -/
theorem Suspended.resume_attends (id : SessionId) (world : World A) (reply : Reply) {rest : Suspended A}
    {query : Query A} {scope : SessionId → Prop} (h : rest.Awaits scope query) :
    (rest.resume world reply).Attends id (world.Flushing id ∧ ¬ query.Transmits id) := by
  cases rest with
  | transition rest =>
    exact ((world.resumeTransition_attends rest).mono (World.flushing_of_quiet h.2)).wrap _ _
  | tick rest => exact (world.resumeFlush_attends reply h.2).wrap _ _
  | disconnect rest => exact (world.resumeDisconnect_attends reply h).wrap _ _
  | dispatch rest => exact (world.resumeDelivery_attends reply h).wrap _ _
  | report rest => exact (world.resumeReport_attends h).wrap _ _
  | arrival rest => exact (world.resumeArrival_attends reply h).wrap _ _
  | hostTick rest => exact (world.resumeHostFlush_attends reply h).wrap _ _
  | sweep rest => exact (world.resumeSweep_attends reply h).wrap _ _
  | shutdown rest => exact (world.resumeShutdown_attends reply h).wrap _ _
  | loop number rest => exact (world.resumeTick_attends reply number h).wrap _ _

namespace Machine

/-- The session is noted as being flushed only while a call waits for one of its transmits. -/
def Attended (id : SessionId) (machine : Machine A) : Prop :=
  machine.world.Flushing id → ∃ waiting ∈ machine.waiting, waiting.query.Transmits id

theorem Attended.move {machine next : Machine A} {move : Move A} {event : Event A} (h : machine.Attended id)
    (horder : machine.InOrder) (hmove : machine.move move = some (next, event)) : next.Attended id := by
  intro hflushing
  cases horder.turns hmove with
  | @begins call query rest hactivity _ _ hwaiting _ =>
    have hattends := call.begin_attends id machine.world
    rw [hactivity] at hattends
    rw [hwaiting]
    rcases hattends hflushing with hbefore | ⟨asked, _, hasks, htransmits⟩
    · obtain ⟨waiting, hmem, htransmits⟩ := h hbefore
      exact ⟨waiting, List.mem_cons_of_mem _ hmem, htransmits⟩
    · cases hasks
      exact ⟨_, List.mem_cons_self, htransmits⟩
  | @passes call answer hactivity hwaiting _ =>
    have hattends := call.begin_attends id machine.world
    rw [hactivity] at hattends
    rw [hwaiting]
    rcases hattends hflushing with hbefore | ⟨asked, _, hasks, -⟩
    · exact h hbefore
    · cases hasks
  | @goesOn innermost outer reply query rest hinnermost hactivity _ _ hwaiting _ =>
    have hmem : innermost ∈ machine.waiting := hinnermost ▸ List.mem_cons_self
    have hattends := Suspended.resume_attends id machine.world reply (horder.waiting innermost hmem).awaits
    rw [hactivity] at hattends
    rw [hwaiting]
    rcases hattends hflushing with ⟨hbefore, hother⟩ | ⟨asked, _, hasks, htransmits⟩
    · obtain ⟨waiting, hmem, htransmits⟩ := h hbefore
      rw [hinnermost] at hmem
      rcases List.mem_cons.1 hmem with rfl | hmem
      · exact absurd htransmits hother
      · exact ⟨waiting, List.mem_cons_of_mem _ hmem, htransmits⟩
    · cases hasks
      exact ⟨_, List.mem_cons_self, htransmits⟩
  | @ends innermost outer reply answer hinnermost hactivity hwaiting _ =>
    have hmem : innermost ∈ machine.waiting := hinnermost ▸ List.mem_cons_self
    have hattends := Suspended.resume_attends id machine.world reply (horder.waiting innermost hmem).awaits
    rw [hactivity] at hattends
    rw [hwaiting]
    rcases hattends hflushing with ⟨hbefore, hother⟩ | ⟨asked, _, hasks, -⟩
    · obtain ⟨waiting, hmem, htransmits⟩ := h hbefore
      rw [hinnermost] at hmem
      rcases List.mem_cons.1 hmem with rfl | hmem
      · exact absurd htransmits hother
      · exact ⟨waiting, hmem, htransmits⟩
    · cases hasks

/-- **No flush goes on unseen.**  In every state of a run of a new host, a session is noted as being flushed only while
a call waits for one of its transmits. -/
theorem attended_run {config : HostConfig} {world : World A} {moves : List (Move A)} {last : Machine A}
    {events : List (Event A)} (hworld : World.ofConfig config = .ok world)
    (hrun : (⟨world, []⟩ : Machine A).run moves = some (last, events)) : last.Attended id := by
  obtain rfl : world = { config } := World.eq_of_ofConfig hworld
  have hstart : (⟨{ config }, []⟩ : Machine A).Attended id := fun hflushing => by cases hflushing
  refine And.right (run_invariant (motive := fun _ machine => machine.InOrder ∧ machine.Attended id)
    (fun h hmove => ⟨h.1.move hmove, h.2.move h.1 hmove⟩) ⟨inOrder_ofConfig hworld, hstart⟩ hrun)

end Machine

end FramedLink
