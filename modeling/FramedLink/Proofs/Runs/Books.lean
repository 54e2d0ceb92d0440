import FramedLink.Proofs.Lives.Life
import FramedLink.Proofs.Runs.Likeness
/-!
# The books of a host along a run

The books of a host say how it is configured, which ids it has given out, which sessions it tracks, whether it is shut
down, and how its flush loops stand.  The library writes in them at a few places only: when a call begins
(`Call.notes`) and when one ends (`Call.settles`).  In between, outside code apart, it touches no session but those
that it is about, its scope, and a session counts transmitted bytes only when a transmit has returned
(`World.credit`).  There is one statement for each function that makes an activity or goes on with one.

Main statements: a call up to its first call of outside code (`Call.begin_turns`), and from one such call to the next
(`Suspended.resume_turns`).
-/
namespace FramedLink

variable {A : Application} {κ κ' α β ι : Type}

/-! ## What is left of a call, and what it asked -/

/-- The call is no transmit. -/
def Query.isQuiet : Query A → Bool
  | transmit _ _ => false
  | close _ _ _ | handle _ _ _ | stateChanged _ _ _ _ | disconnected _ _ _ => true

section Awaiting

variable (scope : SessionId → Prop) (query : Query A)

/-- The call is no transmit, and concerns a session of the scope. -/
def Query.IsQuietIn : Prop := query.isQuiet = true ∧ scope query.session

/-- What is left of a flush of a session, while the session transmits. -/
def Flush.Awaits (id : SessionId) (query : Query A) (flush : Flush) : Prop :=
  flush.id = id ∧ query = .transmit id flush.output.bytes

def Transition.Awaits (rest : Transition A) : Prop := scope rest.session ∧ query.IsQuietIn scope

def Disconnect.Awaits : Disconnect A → Prop
  | flushing id _ rest => scope id ∧ rest.Awaits id query
  | leaving id _ rest => scope id ∧ rest.Awaits scope query
  | closing => query.IsQuietIn scope

def Delivery.Awaits : Delivery A → Prop
  | handling id _ _ _ => scope id ∧ query.IsQuietIn scope
  | rejecting _ rest | ending _ rest => rest.Awaits scope query

def Arrival.Awaits : Arrival A → Prop
  | delivering id _ _ current => scope id ∧ current.Awaits scope query
  | malformed rest => rest.Awaits scope query

def Report.Awaits (report : Report A) : Prop := report.rest.Awaits scope query

def HostFlush.Awaits : HostFlush A → Prop
  | flushing id rest => scope id ∧ rest.Awaits id query
  | failing rest => rest.Awaits scope query

def Sweep.Awaits (sweep : Sweep A) : Prop := (∀ id ∈ sweep.rest, scope id) ∧ sweep.current.Awaits scope query

def Shutdown.Awaits (shutdown : Shutdown A) : Prop :=
  (∀ id ∈ shutdown.rest, scope id) ∧ shutdown.current.Awaits scope query

/-- What is left of a call concerns sessions of the scope only, and is in the middle of a flush exactly if the call of
outside code is a transmit: of the bytes that the flush put out, for the session that it flushes. -/
def Suspended.Awaits : Suspended A → Prop
  | transition rest => rest.Awaits scope query
  | tick rest => scope rest.id ∧ rest.Awaits rest.id query
  | disconnect rest => rest.Awaits scope query
  | dispatch rest => rest.Awaits scope query
  | report rest => rest.Awaits scope query
  | arrival rest => rest.Awaits scope query
  | hostTick rest => rest.Awaits scope query
  | sweep rest | loop _ rest => rest.Awaits scope query
  | shutdown rest => rest.Awaits scope query

end Awaiting

/-- What is left of a call that waits for outside code: it is of the kind that the call leaves, and of a tick, a report
and a wake it says what they are about. -/
def Call.Leaves : Call A → Suspended A → Prop
  | .transition _ _, .transition _ | .disconnect _ _ _, .disconnect _ | .hostDisconnect _ _ _, .disconnect _
  | .dispatch _ _, .dispatch _ | .hostReceive _ _, .arrival _ | .hostTick _, .hostTick _ | .hostFlushAll _, .sweep _
  | .hostShutdown _, .shutdown _ => True
  | .tick id, .tick rest => rest.id = id
  | .hostReport id state, .report rest => rest.id = id ∧ rest.state = state
  | .wakeLoop number _ _, .loop other _ => other = number
  | _, _ => False

/-! ## The books -/

namespace Session

theorem stats_enter (session : Session ι) (target : ConnectionState) :
    (session.enter target).stats = session.stats := by
  unfold Session.enter
  split <;> rfl

theorem stats_authenticate (session : Session ι) (identity : Option ι) :
    (session.authenticate identity).1.stats = session.stats := by
  rcases session.authenticate_cases identity with ⟨e, heq⟩ | ⟨-, -, heq⟩
  · rw [heq]
  · rw [heq]

theorem stats_enqueue (session : Session ι) (payload : Payload) :
    (session.enqueue payload).1.stats = session.stats := by
  rw [enqueue_fst]

theorem bytesTransmitted_receive (session : Session ι) (chunk : List UInt8) :
    (session.receive chunk).1.stats.bytesTransmitted = session.stats.bytesTransmitted := by
  unfold Session.receive
  split
  · cases hanswer : (session.decoder.feed chunk).answer with
    | error e =>
      simp only [hanswer]
    | ok count =>
      simp only [hanswer]
      rfl
  · rfl

end Session

namespace World

/-- The books are the same, and no session out of the scope was touched. -/
structure SameHost (scope : SessionId → Prop) (world next : World A) : Prop where
  config : next.config = world.config
  ids : next.ids = world.ids
  tracked : next.tracked = world.tracked
  isShutDown : next.isShutDown = world.isShutDown
  loops : next.loops = world.loops
  outside : ∀ id, ¬ scope id → next.knows id = world.knows id

/-- The books are the same, and no session has counted transmitted bytes. -/
structure SameBooks (scope : SessionId → Prop) (world next : World A) : Prop extends SameHost scope world next where
  transmitted : ∀ id, (next.session id).stats.bytesTransmitted = (world.session id).stats.bytesTransmitted

variable {scope : SessionId → Prop} {world middle next : World A}

theorem SameHost.refl (world : World A) : world.SameHost scope world := ⟨rfl, rfl, rfl, rfl, rfl, fun _ _ => rfl⟩

theorem SameHost.trans (h : world.SameHost scope middle) (hnext : middle.SameHost scope next) :
    world.SameHost scope next where
  config := hnext.config.trans h.config
  ids := hnext.ids.trans h.ids
  tracked := hnext.tracked.trans h.tracked
  isShutDown := hnext.isShutDown.trans h.isShutDown
  loops := hnext.loops.trans h.loops
  outside := fun id hid => (hnext.outside id hid).trans (h.outside id hid)

/-- Sessions of the scope may be changed. -/
theorem sameHost_put {id : SessionId} (hid : scope id) (session : Session A.Identity) :
    world.SameHost scope (world.put id session) := by
  refine ⟨rfl, rfl, rfl, rfl, rfl, fun other hother => knows_put_of_ne _ _ ?_⟩
  rintro rfl
  exact hother hid

theorem SameBooks.refl (world : World A) : world.SameBooks scope world := ⟨.refl world, fun _ => rfl⟩

theorem SameBooks.trans (h : world.SameBooks scope middle) (hnext : middle.SameBooks scope next) :
    world.SameBooks scope next :=
  ⟨h.toSameHost.trans hnext.toSameHost, fun id => (hnext.transmitted id).trans (h.transmitted id)⟩

theorem sameBooks_put {id : SessionId} (hid : scope id) {session : Session A.Identity}
    (hstats : session.stats.bytesTransmitted = (world.session id).stats.bytesTransmitted) :
    world.SameBooks scope (world.put id session) := by
  refine ⟨sameHost_put hid session, fun other => ?_⟩
  by_cases hsame : id = other
  · subst hsame
    rw [session_put_self]
    exact hstats
  · rw [session_put_of_ne _ _ hsame]

/-- A host forgets a session whatever is done to sessions before. -/
theorem SameBooks.forget (h : world.SameBooks scope next) (id : SessionId) :
    (world.forget id).SameBooks scope (next.forget id) where
  config := h.config
  ids := h.ids
  tracked := by rw [World.forget, World.forget, h.tracked]
  isShutDown := h.isShutDown
  loops := h.loops
  outside := h.outside
  transmitted := h.transmitted

theorem SameHost.loop? (h : world.SameHost scope next) (number : Nat) : next.loop? number = world.loop? number := by
  rw [World.loop?, World.loop?, h.loops]

theorem SameBooks.setLoop (h : world.SameBooks scope next) (number : Nat) (loop : FlushLoop) :
    (world.setLoop number loop).SameBooks scope (next.setLoop number loop) where
  config := h.config
  ids := h.ids
  tracked := h.tracked
  isShutDown := h.isShutDown
  loops := by rw [World.setLoop, World.setLoop, h.loops]
  outside := h.outside
  transmitted := h.transmitted

theorem SameBooks.settleTick (h : world.SameBooks scope next) (number : Nat) :
    (world.settleTick number).SameBooks scope (next.settleTick number) := by
  unfold World.settleTick
  rw [h.loop?, h.isShutDown]
  split
  · exact h.setLoop number _
  · exact h
  · exact h
  · exact h

/-- A transmit that the transport took counts as transmitted bytes once it has returned. -/
def credit (world : World A) : Query A → Reply → World A
  | .transmit _ _, .failed _ => world
  | .transmit id data, .done | .transmit id data, .endSession _ => world.modify id (·.countTransmitted data.length)
  | .close _ _ _, _ | .handle _ _ _, _ | .stateChanged _ _ _ _, _ | .disconnected _ _ _, _ => world

theorem credit_of_quiet (world : World A) {query : Query A} (h : query.isQuiet = true) (reply : Reply) :
    world.credit query reply = world := by
  cases query with
  | transmit id data => cases h
  | _ => rfl

end World

/-! ## Activities -/

namespace Activity

variable {awaits : Query A → κ → Prop} {awaits' : Query A → κ' → Prop} {scope : SessionId → Prop}
  {world middle : World A} {entered : World A → World A} {left : α → World A} {activity : Activity A κ α}

/-- What has become of the books when the activity asks outside code, and when it ends. -/
structure Turns (awaits : Query A → κ → Prop) (scope : SessionId → Prop) (entered : World A) (left : α → World A)
    (activity : Activity A κ α) : Prop where
  asks : ∀ query rest, activity.progress = .asks query rest →
    entered.SameBooks scope activity.world ∧ awaits query rest
  done : ∀ result, activity.progress = .done result → (left result).SameBooks scope activity.world

/-- The activity does not write in the books. -/
abbrev Keeps (awaits : Query A → κ → Prop) (scope : SessionId → Prop) (world : World A) (activity : Activity A κ α) :
    Prop := activity.Turns awaits scope world fun _ => world

theorem turns_finish {result : α} (h : (left result).SameBooks scope middle) :
    (finish middle result : Activity A κ α).Turns awaits scope world left where
  asks := fun _ _ hasks => by cases hasks
  done := fun _ hdone => by
    cases hdone
    exact h

theorem keeps_finish (world : World A) (result : α) :
    (finish world result : Activity A κ α).Keeps awaits scope world := turns_finish (.refl world)

theorem keeps_ask (world : World A) {query : Query A} {rest : κ} (h : awaits query rest) :
    (ask world query rest : Activity A κ α).Keeps awaits scope world where
  asks := fun _ _ hasks => by
    cases hasks
    exact ⟨.refl world, h⟩
  done := fun _ hdone => by cases hdone

theorem keeps_stuck (world : World A) : (⟨world, .stuck⟩ : Activity A κ α).Keeps awaits scope world where
  asks := fun _ _ hasks => by cases hasks
  done := fun _ hdone => by cases hdone

theorem Keeps.before (hbooks : world.SameBooks scope middle) (h : activity.Keeps awaits scope middle) :
    activity.Keeps awaits scope world where
  asks := fun query rest hasks => ⟨hbooks.trans (h.asks query rest hasks).1, (h.asks query rest hasks).2⟩
  done := fun result hdone => hbooks.trans (h.done result hdone)

theorem Keeps.andThenTurns {within : κ → κ'} {next : World A → α → Activity A κ' β} {left : β → World A}
    (h : activity.Keeps awaits scope world) (hwithin : ∀ query rest, awaits query rest → awaits' query (within rest))
    (hnext : ∀ result, activity.progress = .done result →
      (next activity.world result).Turns awaits' scope world left) :
    (activity.andThen within next).Turns awaits' scope world left := by
  unfold andThen
  split
  · rename_i result hdone
    exact hnext result hdone
  · rename_i query rest hasks
    obtain ⟨hbooks, hrest⟩ := h.asks query rest hasks
    refine ⟨fun _ _ heq => ?_, fun _ heq => ?_⟩
    · cases heq
      exact ⟨hbooks, hwithin query rest hrest⟩
    · cases heq
  · refine ⟨fun _ _ heq => ?_, fun _ heq => ?_⟩
    · cases heq
    · cases heq

theorem Keeps.andThen {within : κ → κ'} {next : World A → α → Activity A κ' β} (h : activity.Keeps awaits scope world)
    (hwithin : ∀ query rest, awaits query rest → awaits' query (within rest))
    (hnext : ∀ middle result, (next middle result).Keeps awaits' scope middle) :
    (activity.andThen within next).Keeps awaits' scope world :=
  h.andThenTurns hwithin fun result hdone => (hnext activity.world result).before (h.done result hdone)

end Activity

/-! ## Sessions -/

namespace World

variable {scope : SessionId → Prop} {id : SessionId} {query : Query A}

theorem bidFarewell_keeps (world : World A) (hid : scope id) (reason : DisconnectReason) :
    ∀ observers, (world.bidFarewell id reason observers).Keeps (Transition.Awaits scope) scope world
  | [] => Activity.keeps_finish world _
  | _ :: _ => Activity.keeps_ask world ⟨hid, rfl, hid⟩

theorem tell_keeps (world : World A) (hid : scope id) (source target : ConnectionState) :
    ∀ observers, (world.tell id source target observers).Keeps (Transition.Awaits scope) scope world
  | [] => by
    by_cases htarget : target = .disconnected
    · rw [tell, if_pos htarget]
      exact .before (sameBooks_put hid (by rfl)) (bidFarewell_keeps _ hid _ _)
    · rw [tell, if_neg htarget]
      exact Activity.keeps_finish world _
  | _ :: _ => Activity.keeps_ask world ⟨hid, rfl, hid⟩

theorem transition_keeps (world : World A) (hid : scope id) (target : ConnectionState) :
    (world.transition id target).Keeps (Transition.Awaits scope) scope world := by
  unfold transition
  by_cases hsame : (world.session id).state = target
  · rw [if_pos hsame]
    exact Activity.keeps_finish world _
  rw [if_neg hsame]
  cases (world.session id).state.canTransitionTo target with
  | false => exact Activity.keeps_finish world _
  | true =>
    have hstats := congrArg SessionStats.bytesTransmitted ((world.session id).stats_enter target)
    exact .before (sameBooks_put hid hstats) (tell_keeps _ hid _ target _)

theorem resumeTransition_keeps (world : World A) {rest : Transition A} (h : rest.Awaits scope query) :
    (rest.resume world).Keeps (Transition.Awaits scope) scope world := by
  cases rest with
  | telling other source target rest => exact tell_keeps world h.1 source target rest
  | parting other reason rest => exact bidFarewell_keeps world h.1 reason rest

theorem endFlush_keeps (world : World A) (hid : scope id) (result : Except FlushError TickSummary) :
    (world.endFlush id result).Keeps (Flush.Awaits id) scope world :=
  .before (sameBooks_put hid (by rfl)) (Activity.keeps_finish _ result)

theorem pump_keeps (world : World A) (hid : scope id) (limit : Limit) (summary : TickSummary) :
    (world.pump id limit summary).Keeps (Flush.Awaits id) scope world := by
  unfold pump
  split
  · exact endFlush_keeps world hid _
  · cases hdrain : (world.session id).outbox.drain (world.session id).config.transmitBufferSize limit with
    | mk box result =>
    have hbooks : world.SameBooks scope (world.put id { world.session id with outbox := box }) :=
      sameBooks_put hid rfl
    simp only [hdrain]
    refine .before hbooks ?_
    cases result with
    | error e => exact endFlush_keeps _ hid _
    | ok output =>
      simp only
      split
      · exact endFlush_keeps _ hid _
      · exact Activity.keeps_ask _ ⟨rfl, rfl⟩

theorem beginFlush_keeps (world : World A) (hid : scope id) (limit : Limit) :
    (world.beginFlush id limit).Keeps (Flush.Awaits id) scope world := by
  unfold beginFlush
  split
  · exact .before (sameBooks_put hid (by rfl)) (pump_keeps _ hid limit {})
  · exact Activity.keeps_finish world _

theorem tick_keeps (world : World A) (hid : scope id) : (world.tick id).Keeps (Flush.Awaits id) scope world := by
  unfold tick
  split
  · exact Activity.keeps_finish world _
  · exact beginFlush_keeps world hid _

theorem flushFully_keeps (world : World A) (hid : scope id) :
    (world.flushFully id).Keeps (Flush.Awaits id) scope world := by
  unfold flushFully
  split
  · exact Activity.keeps_stuck world
  · exact beginFlush_keeps world hid none

theorem resumeFlush_keeps (world : World A) (hid : scope id) {flush : Flush} (h : flush.Awaits id query)
    (reply : Reply) : (flush.resume world reply).Keeps (Flush.Awaits id) scope (world.credit query reply) := by
  obtain ⟨rfl, rfl⟩ := h
  have htaken : (flush.resume world .done).Keeps (Flush.Awaits flush.id) scope
      (world.modify flush.id (·.countTransmitted flush.output.bytes.length)) := by
    simp only [Flush.resume]
    split
    · exact endFlush_keeps _ hid _
    · exact pump_keeps _ hid _ _
  cases reply with
  | failed failure => exact endFlush_keeps world hid _
  | done => exact htaken
  | endSession graceful => exact htaken

theorem closeTransport_keeps (world : World A) (hid : scope id) (reason : DisconnectReason) :
    ∀ moved, (world.closeTransport id reason moved).Keeps (Disconnect.Awaits scope) scope world
  | .ok true => Activity.keeps_ask world ⟨rfl, hid⟩
  | .ok false | .error _ => Activity.keeps_finish world ()

theorem leave_keeps (world : World A) (hid : scope id) (reason : DisconnectReason) :
    (world.leave id reason).Keeps (Disconnect.Awaits scope) scope world :=
  (transition_keeps world hid .disconnecting).andThen (fun _ _ h => ⟨hid, h⟩) fun world =>
    world.closeTransport_keeps hid reason

theorem disconnect_keeps (world : World A) (hid : scope id) (reason : DisconnectReason) (flushFirst : Bool) :
    (world.disconnect id reason flushFirst).Keeps (Disconnect.Awaits scope) scope world := by
  unfold disconnect
  by_cases hclosing : (world.session id).state.isClosing = true
  · rw [if_pos hclosing]
    exact Activity.keeps_finish world ()
  · rw [if_neg hclosing]
    have hbooks : world.SameBooks scope (world.modify id (·.noteReason reason)) := sameBooks_put hid rfl
    refine .before hbooks ?_
    split
    · exact (flushFully_keeps _ hid).andThen (fun _ _ h => ⟨hid, h⟩) fun world _ => world.leave_keeps hid reason
    · exact leave_keeps _ hid reason

theorem resumeDisconnect_keeps (world : World A) (reply : Reply) {rest : Disconnect A}
    (h : rest.Awaits scope query) :
    (rest.resume world reply).Keeps (Disconnect.Awaits scope) scope (world.credit query reply) := by
  cases rest with
  | flushing id reason rest =>
    obtain ⟨hid, hflush⟩ := h
    exact (world.resumeFlush_keeps hid hflush reply).andThen (fun _ _ h => ⟨hid, h⟩) fun world _ =>
      world.leave_keeps hid reason
  | leaving id reason rest =>
    obtain ⟨hid, hrest⟩ := h
    rw [world.credit_of_quiet hrest.2.1]
    exact (world.resumeTransition_keeps hrest).andThen (fun _ _ h => ⟨hid, h⟩) fun world =>
      world.closeTransport_keeps hid reason
  | closing =>
    rw [world.credit_of_quiet h.1]
    exact Activity.keeps_finish world ()

/-! ## Deliveries -/

theorem callHandlers_keeps (world : World A) (hid : scope id) (message : A.Message) (called : Nat) :
    ∀ handlers, (world.callHandlers id message called handlers).Keeps (Delivery.Awaits scope) scope world
  | [] => Activity.keeps_finish world _
  | _ :: _ => Activity.keeps_ask world ⟨hid, rfl, hid⟩

theorem rejectPayload_keeps (world : World A) (hid : scope id) (reason : DisconnectReason) :
    (world.rejectPayload id reason).Keeps (Delivery.Awaits scope) scope world :=
  (world.disconnect_keeps hid reason false).andThen (fun _ _ h => h) fun world _ => Activity.keeps_finish world _

theorem dispatch_keeps (world : World A) (hid : scope id) (payload : Payload) :
    (world.dispatch id payload).Keeps (Delivery.Awaits scope) scope world := by
  unfold dispatch
  by_cases hclosing : (world.session id).state.isClosing = true
  · rw [if_pos hclosing]
    exact Activity.keeps_finish world _
  rw [if_neg hclosing]
  cases A.decode payload with
  | none => exact rejectPayload_keeps world hid _
  | some message =>
    cases hentry : A.table.get? (A.kindOf message) with
    | none =>
      simp only [hentry]
      exact Activity.keeps_finish world _
    | some entry =>
      simp only [hentry]
      split
      · exact rejectPayload_keeps world hid _
      · exact .before (sameBooks_put hid (by rfl)) (callHandlers_keeps _ hid message 0 _)

theorem resumeDelivery_keeps (world : World A) (reply : Reply) {rest : Delivery A} (h : rest.Awaits scope query) :
    (rest.resume world reply).Keeps (Delivery.Awaits scope) scope (world.credit query reply) := by
  cases rest with
  | handling id message called rest =>
    obtain ⟨hid, hquiet⟩ := h
    rw [world.credit_of_quiet hquiet.1]
    cases reply with
    | endSession graceful =>
      unfold Delivery.resume
      exact (world.disconnect_keeps hid .requested graceful).andThen (fun _ _ h => h) fun world _ =>
        Activity.keeps_finish world _
    | done => exact callHandlers_keeps world hid message called rest
    | failed failure => exact callHandlers_keeps world hid message called rest
  | rejecting reason rest =>
    unfold Delivery.resume
    exact (world.resumeDisconnect_keeps reply h).andThen (fun _ _ h => h) fun world _ => Activity.keeps_finish world _
  | ending called rest =>
    unfold Delivery.resume
    exact (world.resumeDisconnect_keeps reply h).andThen (fun _ _ h => h) fun world _ => Activity.keeps_finish world _

theorem deliverAll_keeps (hid : scope id) : ∀ (payloads : List Payload) (world : World A) (handled : Nat),
    (world.deliverAll id handled payloads).Keeps (Arrival.Awaits scope) scope world
  | [], world, handled => Activity.keeps_finish world handled
  | payload :: rest, world, handled => by
    unfold deliverAll
    split
    · exact (world.dispatch_keeps hid payload).andThen (fun _ _ h => ⟨hid, h⟩) fun world _ =>
        deliverAll_keeps hid rest world _
    · exact Activity.keeps_finish world handled

theorem hostReceive_keeps (world : World A) (htracked : ∀ id ∈ world.tracked, scope id) (id : SessionId)
    (chunk : List UInt8) : (world.hostReceive id chunk).Keeps (Arrival.Awaits scope) scope world := by
  unfold hostReceive
  split
  · rename_i htracks
    have hid := htracked id (List.contains_iff_mem.1 htracks)
    refine .before (sameBooks_put hid ((world.session id).bytesTransmitted_receive chunk)) ?_
    cases hresult : ((world.session id).receive chunk).2 with
    | error e =>
      simp only [hresult]
      exact (disconnect_keeps _ hid .malformedData false).andThen (fun _ _ h => h) fun world _ =>
        Activity.keeps_finish world 0
    | ok payloads =>
      simp only [hresult]
      exact deliverAll_keeps hid payloads _ 0
  · exact Activity.keeps_finish world 0

theorem resumeArrival_keeps (world : World A) (reply : Reply) {rest : Arrival A} (h : rest.Awaits scope query) :
    (rest.resume world reply).Keeps (Arrival.Awaits scope) scope (world.credit query reply) := by
  cases rest with
  | delivering id handled rest current =>
    obtain ⟨hid, hcurrent⟩ := h
    unfold Arrival.resume
    exact (world.resumeDelivery_keeps reply hcurrent).andThen (fun _ _ h => ⟨hid, h⟩) fun world _ =>
      deliverAll_keeps hid rest world _
  | malformed rest =>
    unfold Arrival.resume
    exact (world.resumeDisconnect_keeps reply h).andThen (fun _ _ h => h) fun world _ => Activity.keeps_finish world 0

/-! ## Hosts -/

theorem settleFlush_keeps (world : World A) (hid : scope id) :
    ∀ result, (world.settleFlush id result).Keeps (HostFlush.Awaits scope) scope world
  | .ok summary => Activity.keeps_finish world summary
  | .error e => by
    unfold settleFlush
    exact (world.disconnect_keeps hid e.reason false).andThen (fun _ _ h => h) fun world _ =>
      Activity.keeps_finish world _

theorem flushSession_keeps (world : World A) (hid : scope id) :
    (world.flushSession id).Keeps (HostFlush.Awaits scope) scope world :=
  (world.tick_keeps hid).andThen (fun _ _ h => ⟨hid, h⟩) fun world => world.settleFlush_keeps hid

theorem hostTick_keeps (world : World A) (htracked : ∀ id ∈ world.tracked, scope id) (id : SessionId) :
    (world.hostTick id).Keeps (HostFlush.Awaits scope) scope world := by
  unfold hostTick
  split
  · rename_i htracks
    exact flushSession_keeps world (htracked id (List.contains_iff_mem.1 htracks))
  · exact Activity.keeps_finish world _

theorem resumeHostFlush_keeps (world : World A) (reply : Reply) {rest : HostFlush A} (h : rest.Awaits scope query) :
    (rest.resume world reply).Keeps (HostFlush.Awaits scope) scope (world.credit query reply) := by
  cases rest with
  | flushing id rest =>
    obtain ⟨hid, hflush⟩ := h
    exact (world.resumeFlush_keeps hid hflush reply).andThen (fun _ _ h => ⟨hid, h⟩) fun world =>
      world.settleFlush_keeps hid
  | failing rest =>
    unfold HostFlush.resume
    exact (world.resumeDisconnect_keeps reply h).andThen (fun _ _ h => h) fun world _ => Activity.keeps_finish world _

theorem sweep_keeps : ∀ (ids : List SessionId) (world : World A) (total : TickSummary), (∀ id ∈ ids, scope id) →
    (world.sweep total ids).Keeps (Sweep.Awaits scope) scope world
  | [], world, total, _ => Activity.keeps_finish world total
  | _ :: rest, world, _, hids => by
    obtain ⟨hid, hrest⟩ := List.forall_mem_cons.1 hids
    exact (world.flushSession_keeps hid).andThen (fun _ _ h => ⟨hrest, h⟩) fun world _ =>
      sweep_keeps rest world _ hrest

theorem resumeSweep_keeps (world : World A) (reply : Reply) {sweep : Sweep A} (h : sweep.Awaits scope query) :
    (sweep.resume world reply).Keeps (Sweep.Awaits scope) scope (world.credit query reply) :=
  (world.resumeHostFlush_keeps reply h.2).andThen (fun _ _ hcurrent => ⟨h.1, hcurrent⟩) fun world _ =>
    sweep_keeps sweep.rest world _ h.1

theorem disconnectEach_keeps : ∀ (ids : List SessionId) (world : World A), (∀ id ∈ ids, scope id) →
    (world.disconnectEach ids).Keeps (Shutdown.Awaits scope) scope world
  | [], world, _ => Activity.keeps_finish world ()
  | _ :: rest, world, hids => by
    obtain ⟨hid, hrest⟩ := List.forall_mem_cons.1 hids
    exact (world.disconnect_keeps hid .hostShutdown true).andThen (fun _ _ h => ⟨hrest, h⟩) fun world _ =>
      disconnectEach_keeps rest world hrest

theorem resumeShutdown_keeps (world : World A) (reply : Reply) {shutdown : Shutdown A}
    (h : shutdown.Awaits scope query) :
    (shutdown.resume world reply).Keeps (Shutdown.Awaits scope) scope (world.credit query reply) :=
  (world.resumeDisconnect_keeps reply h.2).andThen (fun _ _ hcurrent => ⟨h.1, hcurrent⟩) fun world _ =>
    disconnectEach_keeps shutdown.rest world h.1

/-! ## Reports and ticks of the flush loops -/

theorem bidFarewell_ne_error (world : World A) (id : SessionId) (reason : DisconnectReason)
    (observers : List A.Observer) (e : SessionError) :
    (world.bidFarewell id reason observers).progress ≠ .done (.error e) := by
  cases observers with
  | nil => exact fun hdone => by cases hdone
  | cons observer rest => exact fun hdone => by cases hdone

theorem tell_ne_error (world : World A) (id : SessionId) (source target : ConnectionState)
    (observers : List A.Observer) (e : SessionError) :
    (world.tell id source target observers).progress ≠ .done (.error e) := by
  cases observers with
  | nil =>
    by_cases htarget : target = .disconnected
    · rw [tell, if_pos htarget]
      exact bidFarewell_ne_error _ id _ _ e
    · rw [tell, if_neg htarget]
      exact fun hdone => by cases hdone
  | cons observer rest => exact fun hdone => by cases hdone

/-- A transition that has begun does not fail. -/
theorem resumeTransition_ne_error (world : World A) (rest : Transition A) (e : SessionError) :
    (rest.resume world).progress ≠ .done (.error e) := by
  cases rest with
  | telling id source target rest => exact tell_ne_error world id source target rest e
  | parting id reason rest => exact bidFarewell_ne_error world id reason rest e

/-- Nothing keeps a session from being disconnected, in whatever state it is. -/
theorem transition_disconnected_ne_error (world : World A) (id : SessionId) (e : SessionError) :
    (world.transition id .disconnected).progress ≠ .done (.error e) := by
  intro hdone
  by_cases hsame : (world.session id).state = .disconnected
  · rw [transition, if_pos hsame] at hdone
    cases hdone
  · have hedge : (world.session id).state.canTransitionTo .disconnected = true := by
      cases hstate : (world.session id).state <;> rw [hstate] at hsame <;> first | rfl | exact absurd rfl hsame
    simp only [transition, if_neg hsame, hedge, Bool.not_true, Bool.false_eq_true, if_false] at hdone
    exact tell_ne_error _ id _ _ _ e hdone

/-- A session that is reported disconnected is forgotten. -/
def dropReported (world : World A) (id : SessionId) (state : ConnectionState) : World A :=
  if state = .disconnected then world.forget id else world

/-- A flush loop that waits for a tick is in the middle of it, if it is due. -/
def beginTick (world : World A) (number now : Nat) : World A :=
  match world.loop? number with
  | some (.waiting due) =>
    if now < due then world else world.setLoop number (.ticking (nextTick world.config.tickInterval due now))
  | some (.ticking _) | some .ended | none => world

theorem SameBooks.dropReported {world next : World A} (h : world.SameBooks scope next) (id : SessionId)
    (state : ConnectionState) : (world.dropReported id state).SameBooks scope (next.dropReported id state) := by
  unfold World.dropReported
  split
  · exact h.forget id
  · exact h

/-- There is nothing to forget of a session that is not tracked. -/
theorem dropReported_of_untracked {world : World A} (h : world.tracks id = false) (state : ConnectionState) :
    world.dropReported id state = world := by
  have hnone : world.tracked.filter (· ≠ id) = world.tracked := by
    refine List.filter_eq_self.2 fun other hother => decide_eq_true fun hsame => ?_
    rw [← hsame, tracks, List.contains_iff_mem.2 hother] at h
    cases h
  unfold dropReported
  split
  · rw [forget, hnone]
  · rfl

theorem settleReport_turns {awaits : Query A → Report A → Prop} {world middle : World A}
    (hbooks : world.SameBooks scope middle) (id : SessionId) {state : ConnectionState}
    {moved : Except SessionError Bool} (hmoved : state = .disconnected → ∀ e, moved ≠ .error e) :
    (middle.settleReport id state moved).Turns awaits scope world fun _ => world.dropReported id state := by
  cases moved with
  | error e =>
    have hopen : state ≠ .disconnected := fun hgone => hmoved hgone e rfl
    refine Activity.turns_finish ?_
    rw [dropReported, if_neg hopen]
    exact hbooks
  | ok moved => exact Activity.turns_finish (hbooks.dropReported id state)

theorem report_turns (world : World A) (htracked : ∀ id ∈ world.tracked, scope id) (id : SessionId)
    (state : ConnectionState) :
    (world.report id state).Turns
      (fun query report => (report.id = id ∧ report.state = state) ∧ report.Awaits scope query) scope world
      fun _ => world.dropReported id state := by
  unfold report
  split
  · rename_i htracks
    have hid := htracked id (List.contains_iff_mem.1 htracks)
    refine (world.transition_keeps hid state).andThenTurns (fun _ _ h => ⟨⟨rfl, rfl⟩, h⟩) fun moved hdone => ?_
    refine settleReport_turns ((world.transition_keeps hid state).done moved hdone) id fun hgone e herror => ?_
    subst hgone herror
    exact world.transition_disconnected_ne_error id e hdone
  · rename_i huntracked
    refine Activity.turns_finish ?_
    rw [dropReported_of_untracked (Bool.eq_false_iff.2 huntracked)]
    exact .refl world

theorem resumeReport_turns (world : World A) {report : Report A} (h : report.Awaits scope query) :
    (report.resume world).Turns
      (fun query next => (next.id = report.id ∧ next.state = report.state) ∧ next.Awaits scope query) scope world
      fun _ => world.dropReported report.id report.state := by
  have hkeeps : (report.rest.resume world).Keeps (Transition.Awaits scope) scope world := world.resumeTransition_keeps h
  refine hkeeps.andThenTurns (fun _ _ h => ⟨⟨rfl, rfl⟩, h⟩) fun moved hdone => ?_
  refine settleReport_turns (hkeeps.done moved hdone) report.id fun _ e herror => ?_
  subst herror
  exact world.resumeTransition_ne_error report.rest e hdone

/-- A flush loop that is woken does nothing, unless a tick is due. -/
theorem wakeLoop_cases (world : World A) (number now : Nat) (order : Enumeration) :
    (world.beginTick number now = world ∧ world.wakeLoop number now order = .finish world false ∧
      ∀ due, world.loop? number = some (.waiting due) → now < due) ∨
    ∃ due, world.loop? number = some (.waiting due) ∧ due ≤ now ∧
      world.beginTick number now =
        world.setLoop number (.ticking (nextTick world.config.tickInterval due now)) ∧
      world.wakeLoop number now order =
        ((world.beginTick number now).sweep {} (order.arrange world.tracked)).andThen (fun sweep => sweep)
          fun world _ => .finish (world.settleTick number) true := by
  cases hloop : world.loop? number with
  | none => exact .inl ⟨by rw [beginTick, hloop], by rw [wakeLoop, hloop], fun _ h => by cases h⟩
  | some loop =>
    cases loop with
    | ticking due => exact .inl ⟨by rw [beginTick, hloop], by rw [wakeLoop, hloop], fun _ h => by cases h⟩
    | ended => exact .inl ⟨by rw [beginTick, hloop], by rw [wakeLoop, hloop], fun _ h => by cases h⟩
    | waiting due =>
      by_cases hearly : now < due
      · refine .inl ⟨by simp [beginTick, hloop, hearly], by simp [wakeLoop, hloop, hearly], fun other h => ?_⟩
        cases h
        exact hearly
      · exact .inr ⟨due, rfl, Nat.not_lt.1 hearly, by simp [beginTick, hloop, hearly],
          by simp only [wakeLoop, beginTick, hloop, if_neg hearly]; rfl⟩

theorem wakeLoop_turns (world : World A) (htracked : ∀ id ∈ world.tracked, scope id) (number now : Nat)
    (order : Enumeration) :
    (world.wakeLoop number now order).Turns (Sweep.Awaits scope) scope (world.beginTick number now)
      fun ticked =>
        if ticked then (world.beginTick number now).settleTick number else world.beginTick number now := by
  rcases world.wakeLoop_cases number now order with ⟨hsame, hfinish, -⟩ | ⟨due, -, -, -, heq⟩
  · rw [hsame, hfinish]
    refine Activity.turns_finish ?_
    exact .refl world
  · rw [heq]
    have hkeeps := sweep_keeps (order.arrange world.tracked) (world.beginTick number now) {}
      (order.forall_mem_arrange.2 htracked)
    exact hkeeps.andThenTurns (fun _ _ h => h) fun _ hdone =>
      Activity.turns_finish ((hkeeps.done _ hdone).settleTick number)

theorem resumeTick_turns (world : World A) (reply : Reply) (number : Nat) {sweep : Sweep A}
    (h : sweep.Awaits scope query) :
    (world.resumeTick reply number sweep).Turns (Sweep.Awaits scope) scope (world.credit query reply)
      fun _ => (world.credit query reply).settleTick number := by
  have hkeeps := world.resumeSweep_keeps reply h
  exact hkeeps.andThenTurns (fun _ _ h => h) fun _ hdone =>
    Activity.turns_finish ((hkeeps.done _ hdone).settleTick number)

end World

/-! ## Calls -/

/-- What a call writes in the books as it begins. -/
def Call.notes (world : World A) : Call A → World A
  | hostOpen => world.openSession.1
  | hostShutdown _ => { world with isShutDown := true }
  | startLoop now => (world.startLoop now).1
  | wakeLoop number now _ => world.beginTick number now
  | _ => world

/-- What a call writes in the books as it ends. -/
def Call.settles (world : World A) : Call A → Answer → World A
  | hostReport id state, _ => world.dropReported id state
  | wakeLoop number _ _, .flag true => world.settleTick number
  | _, _ => world

/-- What is left of a call writes the same in the books as it ends. -/
def Suspended.settles (world : World A) : Suspended A → World A
  | report rest => world.dropReported rest.id rest.state
  | loop number _ => world.settleTick number
  | transition _ | tick _ | disconnect _ | dispatch _ | arrival _ | hostTick _ | sweep _ | shutdown _ => world

section Calls

variable {scope : SessionId → Prop} {world : World A} {query : Query A}

theorem Activity.Turns.wrap {awaits : Query A → κ → Prop} {awaits' : Query A → Suspended A → Prop}
    {entered : World A} {left : α → World A} {left' : Answer → World A} {first : Activity A κ α}
    {within : κ → Suspended A} {answer : α → Answer} (h : first.Turns awaits scope entered left)
    (hwithin : ∀ query rest, awaits query rest → awaits' query (within rest))
    (hanswer : ∀ result, left' (answer result) = left result) :
    (Call.wrap first within answer).Turns awaits' scope entered left' := by
  unfold Call.wrap Activity.andThen
  split
  · rename_i result hdone
    refine turns_finish ?_
    rw [hanswer]
    exact h.done result hdone
  · rename_i query rest hasks
    obtain ⟨hbooks, hrest⟩ := h.asks query rest hasks
    refine ⟨fun _ _ heq => ?_, fun _ heq => ?_⟩
    · cases heq
      exact ⟨hbooks, hwithin query rest hrest⟩
    · cases heq
  · refine ⟨fun _ _ heq => ?_, fun _ heq => ?_⟩
    · cases heq
    · cases heq

/-- A call asks what its activity asks. -/
theorem Call.wrap_eq_ask {first : Activity A κ α} {within : κ → Suspended A} {answer : α → Answer} {left : Suspended A}
    (h : wrap first within answer = .ask world query left) :
    ∃ rest, first = .ask world query rest ∧ left = within rest := by
  obtain ⟨middle, progress⟩ := first
  cases progress with
  | done result => cases h
  | asks asked rest =>
    cases h
    exact ⟨rest, rfl, rfl⟩
  | stuck => cases h

theorem Call.wrap_eq_finish {first : Activity A κ α} {within : κ → Suspended A} {answer : α → Answer}
    {answered : Answer} (h : wrap first within answer = .finish world answered) :
    ∃ result, first = .finish world result ∧ answered = answer result := by
  obtain ⟨middle, progress⟩ := first
  cases progress with
  | done result =>
    cases h
    exact ⟨result, rfl, rfl⟩
  | asks asked rest => cases h
  | stuck => cases h

/-- **What a call does to the books** up to its end, or up to its first call of outside code. -/
theorem Call.begin_turns (world : World A) (htracked : ∀ id ∈ world.tracked, scope id) {call : Call A}
    (hcall : ∀ id, call.session? = some id → scope id) :
    (call.begin world).Turns (fun query rest => call.Leaves rest ∧ rest.Awaits scope query) scope (call.notes world)
      fun answer => call.settles (call.notes world) answer := by
  cases call with
  | transition id target =>
    exact (world.transition_keeps (hcall id rfl) target).wrap (fun _ _ h => ⟨True.intro, h⟩) fun _ => rfl
  | authenticate id identity =>
    have hstats := congrArg SessionStats.bytesTransmitted ((world.session id).stats_authenticate identity)
    exact Activity.turns_finish (World.sameBooks_put (hcall id rfl) hstats)
  | enqueue id payload =>
    have hstats := congrArg SessionStats.bytesTransmitted ((world.session id).stats_enqueue payload)
    exact Activity.turns_finish (World.sameBooks_put (hcall id rfl) hstats)
  | tick id =>
    have hid := hcall id rfl
    refine (world.tick_keeps hid).wrap (fun query rest h => ?_) fun _ => rfl
    obtain ⟨rfl, hquery⟩ := h
    exact ⟨rfl, hid, rfl, hquery⟩
  | receive id chunk =>
    exact Activity.turns_finish
      (World.sameBooks_put (hcall id rfl) ((world.session id).bytesTransmitted_receive chunk))
  | disconnect id reason flushFirst =>
    exact (world.disconnect_keeps (hcall id rfl) reason flushFirst).wrap (fun _ _ h => ⟨True.intro, h⟩) fun _ => rfl
  | dispatch id payload =>
    exact (world.dispatch_keeps (hcall id rfl) payload).wrap (fun _ _ h => ⟨True.intro, h⟩) fun _ => rfl
  | outboxEnqueue id payload => exact Activity.turns_finish (World.sameBooks_put (hcall id rfl) rfl)
  | outboxFlush id buffer offset limit => exact Activity.turns_finish (World.sameBooks_put (hcall id rfl) rfl)
  | outboxClose id => exact Activity.turns_finish (World.sameBooks_put (hcall id rfl) rfl)
  | addObserver observer =>
    exact Activity.turns_finish ⟨⟨rfl, rfl, rfl, rfl, rfl, fun _ _ => rfl⟩, fun _ => rfl⟩
  | hostOpen => exact Activity.turns_finish (.refl _)
  | hostReport id state =>
    exact (world.report_turns htracked id state).wrap (fun _ _ h => h) fun _ => rfl
  | hostReceive id chunk =>
    exact (world.hostReceive_keeps htracked id chunk).wrap (fun _ _ h => ⟨True.intro, h⟩) fun _ => rfl
  | hostEnqueue id payload =>
    by_cases htracks : world.tracks id = true
    · have hstats := congrArg SessionStats.bytesTransmitted ((world.session id).stats_enqueue payload)
      simp only [begin, World.hostEnqueue, if_pos htracks]
      exact Activity.turns_finish (World.sameBooks_put (htracked id (List.contains_iff_mem.1 htracks)) hstats)
    · simp only [begin, World.hostEnqueue, if_neg htracks]
      exact Activity.turns_finish (.refl _)
  | hostTick id => exact (world.hostTick_keeps htracked id).wrap (fun _ _ h => ⟨True.intro, h⟩) fun _ => rfl
  | hostFlushAll order =>
    exact (World.sweep_keeps _ world _ (order.forall_mem_arrange.2 htracked)).wrap (fun _ _ h => ⟨True.intro, h⟩)
      fun _ => rfl
  | hostDisconnect id reason flushFirst =>
    by_cases htracks : world.tracks id = true
    · rw [begin, if_pos htracks]
      exact (world.disconnect_keeps (htracked id (List.contains_iff_mem.1 htracks)) reason flushFirst).wrap
        (fun _ _ h => ⟨True.intro, h⟩) fun _ => rfl
    · rw [begin, if_neg htracks]
      exact Activity.turns_finish (.refl _)
  | hostShutdown order =>
    have hkeeps : (world.shutdown order).Keeps (Shutdown.Awaits scope) scope { world with isShutDown := true } := by
      unfold World.shutdown
      split
      · rename_i hdown
        exact Activity.turns_finish ⟨⟨rfl, rfl, rfl, hdown, rfl, fun _ _ => rfl⟩, fun _ => rfl⟩
      · exact World.disconnectEach_keeps _ _ (order.forall_mem_arrange.2 htracked)
    exact hkeeps.wrap (fun _ _ h => ⟨True.intro, h⟩) fun _ => rfl
  | startLoop now => exact Activity.turns_finish (.refl _)
  | wakeLoop number now order =>
    refine (world.wakeLoop_turns htracked number now order).wrap (fun _ _ h => ⟨rfl, h⟩) fun ticked => ?_
    cases ticked <;> rfl

/-- **What a call does to the books** when outside code has returned to it, up to its end or its next call of outside
code. -/
theorem Suspended.resume_turns (world : World A) (reply : Reply) {rest : Suspended A}
    (h : rest.Awaits scope query) :
    (rest.resume world reply).Turns
      (fun query next => (∀ call : Call A, call.Leaves rest → call.Leaves next) ∧ next.Awaits scope query) scope
      (world.credit query reply) fun _ => rest.settles (world.credit query reply) := by
  cases rest with
  | transition rest =>
    rw [world.credit_of_quiet h.2.1]
    refine (world.resumeTransition_keeps h).wrap (fun _ _ h => ⟨fun call hleaves => ?_, h⟩) fun _ => rfl
    cases call <;> exact hleaves
  | tick rest =>
    refine (world.resumeFlush_keeps h.1 h.2 reply).wrap (fun query next hnext => ?_) fun _ => rfl
    obtain ⟨hid, hquery⟩ := hnext
    refine ⟨fun call hleaves => ?_, hid ▸ h.1, rfl, hid ▸ hquery⟩
    cases call with
    | tick id => exact hid.trans hleaves
    | _ => exact hleaves
  | disconnect rest =>
    refine (world.resumeDisconnect_keeps reply h).wrap (fun _ _ h => ⟨fun call hleaves => ?_, h⟩) fun _ => rfl
    cases call <;> exact hleaves
  | dispatch rest =>
    refine (world.resumeDelivery_keeps reply h).wrap (fun _ _ h => ⟨fun call hleaves => ?_, h⟩) fun _ => rfl
    cases call <;> exact hleaves
  | report rest =>
    rw [world.credit_of_quiet h.2.1]
    refine (world.resumeReport_turns h).wrap (fun _ next hnext => ⟨fun call hleaves => ?_, hnext.2⟩) fun _ => rfl
    obtain ⟨⟨hid, hstate⟩, -⟩ := hnext
    cases call with
    | hostReport id state => exact ⟨hid.trans hleaves.1, hstate.trans hleaves.2⟩
    | _ => exact hleaves
  | arrival rest =>
    refine (world.resumeArrival_keeps reply h).wrap (fun _ _ h => ⟨fun call hleaves => ?_, h⟩) fun _ => rfl
    cases call <;> exact hleaves
  | hostTick rest =>
    refine (world.resumeHostFlush_keeps reply h).wrap (fun _ _ h => ⟨fun call hleaves => ?_, h⟩) fun _ => rfl
    cases call <;> exact hleaves
  | sweep rest =>
    refine (world.resumeSweep_keeps reply h).wrap (fun _ _ h => ⟨fun call hleaves => ?_, h⟩) fun _ => rfl
    cases call <;> exact hleaves
  | shutdown rest =>
    refine (world.resumeShutdown_keeps reply h).wrap (fun _ _ h => ⟨fun call hleaves => ?_, h⟩) fun _ => rfl
    cases call <;> exact hleaves
  | loop number rest =>
    refine (world.resumeTick_turns reply number h).wrap (fun _ _ h => ⟨fun call hleaves => ?_, h⟩) fun _ => rfl
    cases call <;> exact hleaves

end Calls

end FramedLink
