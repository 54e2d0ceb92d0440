import FramedLink.Proofs.Runs.Likeness
/-!
# Activities that run alike

In two worlds that are alike every function of the library does the same, up to its next call of outside code
(`Likeness.Alike`).  There is one statement for each function that makes an activity or goes on with one.

What an activity leaves for later fits what it asks: handlers are called from within a delivery of that message and with
the gate's leave, and a report that is to forget a session has moved it to Disconnected before.

Main statements: a call does the same in both worlds (`Likeness.Like.begin`), and goes on the same when outside code has
returned to it (`Likeness.Like.resume`).
-/
namespace FramedLink

variable {A : Application} {κ κ' α β : Type}

namespace Likeness

variable {id : SessionId} {R : Likeness A id} {world world' : World A}

/-- Two activities have come equally far, in worlds that are alike. -/
structure Alike (R : Likeness A id) (fits : World A → Query A → κ → Prop) (activity activity' : Activity A κ α) :
    Prop where
  world : R.Like activity.world activity'.world
  progress : activity'.progress = activity.progress
  fits : ∀ query rest, activity.progress = .asks query rest → fits activity.world query rest

/-- No handler is called. -/
def Calm (_ : World A) (query : Query A) (_ : κ) : Prop := query.handled? = none

/-- A handler is called only from within a delivery, and with the gate's leave. -/
def Delivers (R : Likeness A id) (handling : κ → Option (SessionId × A.Message)) (world : World A) (query : Query A)
    (rest : κ) : Prop :=
  query.handled? = handling rest ∧ R.Gated world (handling rest)

section Activities

variable {fits : World A → Query A → κ → Prop} {fits' : World A → Query A → κ' → Prop}
  {activity activity' : Activity A κ α}

theorem Like.finish (h : R.Like world world') (result : α) :
    R.Alike fits (.finish world result) (.finish world' result) :=
  ⟨h, rfl, fun _ _ hasks => by cases hasks⟩

theorem Like.ask (h : R.Like world world') {query : Query A} {rest : κ} (hfits : fits world query rest) :
    R.Alike fits (.ask world query rest : Activity A κ α) (.ask world' query rest) :=
  ⟨h, rfl, fun _ _ hasks => by cases hasks; exact hfits⟩

theorem Like.stuck (h : R.Like world world') : R.Alike fits (⟨world, .stuck⟩ : Activity A κ α) ⟨world', .stuck⟩ :=
  ⟨h, rfl, fun _ _ hasks => by cases hasks⟩

theorem Alike.andThen_of_done (h : R.Alike fits activity activity') {within : κ → κ'}
    {next : World A → α → Activity A κ' β}
    (hwithin : ∀ query rest, activity.progress = .asks query rest → fits activity.world query rest →
      fits' activity.world query (within rest))
    (hnext : ∀ result, activity.progress = .done result → R.Like activity.world activity'.world →
      R.Alike fits' (next activity.world result) (next activity'.world result)) :
    R.Alike fits' (activity.andThen within next) (activity'.andThen within next) := by
  unfold Activity.andThen
  rw [h.progress]
  split
  · rename_i result hdone
    exact hnext result hdone h.world
  · rename_i query rest hasks
    exact h.world.ask (hwithin query rest hasks (h.fits query rest hasks))
  · exact h.world.stuck

theorem Alike.andThen (h : R.Alike fits activity activity') {within : κ → κ'} {next : World A → α → Activity A κ' β}
    (hwithin : ∀ world query rest, fits world query rest → fits' world query (within rest))
    (hnext : ∀ {world world'} result, R.Like world world' → R.Alike fits' (next world result) (next world' result)) :
    R.Alike fits' (activity.andThen within next) (activity'.andThen within next) :=
  h.andThen_of_done (fun _ _ _ hfits => hwithin _ _ _ hfits) fun result _ hworld => hnext result hworld

theorem Alike.calm (h : R.Alike Calm activity activity') {within : κ → κ'} {next : World A → α → Activity A κ' β}
    (hnext : ∀ {world world'} result, R.Like world world' → R.Alike Calm (next world result) (next world' result)) :
    R.Alike Calm (activity.andThen within next) (activity'.andThen within next) :=
  h.andThen (fun _ _ _ hcalm => hcalm) hnext

end Activities

/-! ## Sessions -/

namespace Like

theorem bidFarewell (h : R.Like world world') (other : SessionId) (reason : DisconnectReason) :
    ∀ observers, R.Alike Calm (world.bidFarewell other reason observers) (world'.bidFarewell other reason observers)
  | [] => h.finish _
  | _ :: _ => h.ask rfl

theorem tell (h : R.Like world world') (other : SessionId) (source target : ConnectionState) :
    ∀ observers, R.Alike Calm (world.tell other source target observers) (world'.tell other source target observers)
  | [] => by
    by_cases htarget : target = .disconnected
    · rw [World.tell, World.tell, if_pos htarget, if_pos htarget]
      have hnext := h.touch other (.noteReason .transportClosed)
      simp only [hnext.observers, hnext.reason]
      exact hnext.bidFarewell other _ _
    · rw [World.tell, World.tell, if_neg htarget, if_neg htarget]
      exact h.finish _
  | _ :: _ => h.ask rfl

theorem transition (h : R.Like world world') (other : SessionId) (target : ConnectionState) :
    R.Alike Calm (world.transition other target) (world'.transition other target) := by
  unfold World.transition
  simp only [h.state, h.name]
  by_cases hsame : (world.session other).state = target
  · rw [if_pos hsame, if_pos hsame]
    exact h.finish _
  rw [if_neg hsame, if_neg hsame]
  cases hedge : (world.session other).state.canTransitionTo target with
  | false => exact h.finish _
  | true =>
    have hnext := h.touch other (.enter hedge)
    have hobservers := hnext.observers
    rw [World.modify, World.modify] at hnext hobservers
    simp only [Bool.not_true, Bool.false_eq_true, if_false, hobservers]
    exact hnext.tell other _ target _

theorem resumeTransition (h : R.Like world world') :
    ∀ rest : Transition A, R.Alike Calm (rest.resume world) (rest.resume world')
  | .telling other source target rest => h.tell other source target rest
  | .parting other reason rest => h.bidFarewell other reason rest

theorem endFlush (h : R.Like world world') (other : SessionId) (result : Except FlushError TickSummary) :
    R.Alike Calm (world.endFlush other result) (world'.endFlush other result) :=
  (h.touch other (.flushing false)).finish result

theorem pump (h : R.Like world world') (other : SessionId) (limit : Limit) (summary : TickSummary) :
    R.Alike Calm (world.pump other limit summary) (world'.pump other limit summary) := by
  unfold World.pump
  by_cases hreached : limit.isReached = true
  · rw [if_pos hreached, if_pos hreached]
    exact h.endFlush other _
  rw [if_neg hreached, if_neg hreached]
  cases hdrain : (world.session other).outbox.drain (world.session other).config.transmitBufferSize limit with
  | mk box result =>
  have hdrain' : (world'.session other).outbox.drain (world'.session other).config.transmitBufferSize limit =
      (box, result) := by
    rw [h.outbox, h.config]
    exact hdrain
  have hnext := h.touch other (.outbox box)
  cases result with
  | error e =>
    simp only [hdrain, hdrain']
    exact hnext.endFlush other _
  | ok output =>
    simp only [hdrain, hdrain']
    by_cases hempty : output.bytes.isEmpty = true
    · rw [if_pos hempty, if_pos hempty]
      exact hnext.endFlush other _
    · rw [if_neg hempty, if_neg hempty]
      exact hnext.ask rfl

theorem beginFlush (h : R.Like world world') (other : SessionId) (limit : Limit) :
    R.Alike Calm (world.beginFlush other limit) (world'.beginFlush other limit) := by
  unfold World.beginFlush
  rw [h.state]
  split
  · exact (h.touch other (.flushing true)).pump other limit {}
  · exact h.finish _

theorem tick (h : R.Like world world') (other : SessionId) : R.Alike Calm (world.tick other) (world'.tick other) := by
  unfold World.tick
  rw [h.flushing, h.config]
  split
  · exact h.finish _
  · exact h.beginFlush other _

theorem flushFully (h : R.Like world world') (other : SessionId) :
    R.Alike Calm (world.flushFully other) (world'.flushFully other) := by
  unfold World.flushFully
  rw [h.flushing]
  split
  · exact h.stuck
  · exact h.beginFlush other none

theorem resumeFlush (h : R.Like world world') (flush : Flush) (reply : Reply) :
    R.Alike Calm (flush.resume world reply) (flush.resume world' reply) := by
  have htaken : R.Alike Calm (flush.resume world .done) (flush.resume world' .done) := by
    have hnext := h.touch flush.id (.countTransmitted flush.output.bytes.length)
    simp only [Flush.resume, hnext.config]
    split
    · exact hnext.endFlush flush.id _
    · exact hnext.pump flush.id _ _
  cases reply with
  | failed failure => exact h.endFlush flush.id _
  | done => exact htaken
  | endSession graceful => exact htaken

theorem closeTransport (h : R.Like world world') (other : SessionId) (reason : DisconnectReason) :
    ∀ moved, R.Alike Calm (world.closeTransport other reason moved) (world'.closeTransport other reason moved)
  | .ok true => by
    rw [World.closeTransport, World.closeTransport, h.reason]
    exact h.ask rfl
  | .ok false | .error _ => h.finish ()

theorem leave (h : R.Like world world') (other : SessionId) (reason : DisconnectReason) :
    R.Alike Calm (world.leave other reason) (world'.leave other reason) :=
  (h.transition other .disconnecting).calm fun moved hnext => hnext.closeTransport other reason moved

theorem disconnect (h : R.Like world world') (other : SessionId) (reason : DisconnectReason) (flushFirst : Bool) :
    R.Alike Calm (world.disconnect other reason flushFirst) (world'.disconnect other reason flushFirst) := by
  unfold World.disconnect
  rw [h.state]
  by_cases hclosing : (world.session other).state.isClosing = true
  · rw [if_pos hclosing, if_pos hclosing]
    exact h.finish ()
  rw [if_neg hclosing, if_neg hclosing]
  have hnext := h.touch other (.noteReason reason)
  split
  · exact (hnext.flushFully other).calm fun _ hflushed => hflushed.leave other reason
  · exact hnext.leave other reason

theorem resumeDisconnect (h : R.Like world world') (reply : Reply) :
    ∀ rest : Disconnect A, R.Alike Calm (rest.resume world reply) (rest.resume world' reply)
  | .flushing other reason rest => (h.resumeFlush rest reply).calm fun _ hflushed => hflushed.leave other reason
  | .leaving other reason rest =>
    (h.resumeTransition rest).calm fun moved hnext => hnext.closeTransport other reason moved
  | .closing => h.finish ()

/-! ## Hosts -/

theorem settleFlush (h : R.Like world world') (other : SessionId) :
    ∀ result, R.Alike Calm (world.settleFlush other result) (world'.settleFlush other result)
  | .ok summary => h.finish summary
  | .error e => (h.disconnect other e.reason false).calm fun _ hnext => hnext.finish _

theorem flushSession (h : R.Like world world') (other : SessionId) :
    R.Alike Calm (world.flushSession other) (world'.flushSession other) :=
  (h.tick other).calm fun result hnext => hnext.settleFlush other result

theorem hostTick (h : R.Like world world') (other : SessionId) :
    R.Alike Calm (world.hostTick other) (world'.hostTick other) := by
  unfold World.hostTick
  rw [h.tracks]
  split
  · exact h.flushSession other
  · exact h.finish _

theorem resumeHostFlush (h : R.Like world world') (reply : Reply) :
    ∀ rest : HostFlush A, R.Alike Calm (rest.resume world reply) (rest.resume world' reply)
  | .flushing other rest => (h.resumeFlush rest reply).calm fun result hnext => hnext.settleFlush other result
  | .failing rest => (h.resumeDisconnect reply rest).calm fun _ hnext => hnext.finish _

theorem sweep : ∀ (ids : List SessionId) {world world' : World A}, R.Like world world' → ∀ total : TickSummary,
    R.Alike Calm (world.sweep total ids) (world'.sweep total ids)
  | [], _, _, h, total => h.finish total
  | other :: rest, _, _, h, _ => (h.flushSession other).calm fun _ hnext => sweep rest hnext _

theorem resumeSweep (h : R.Like world world') (reply : Reply) (sweep : Sweep A) :
    R.Alike Calm (sweep.resume world reply) (sweep.resume world' reply) :=
  (h.resumeHostFlush reply sweep.current).calm fun _ hnext => hnext.sweep sweep.rest _

theorem disconnectEach : ∀ (ids : List SessionId) {world world' : World A}, R.Like world world' →
    R.Alike Calm (world.disconnectEach ids) (world'.disconnectEach ids)
  | [], _, _, h => h.finish ()
  | other :: rest, _, _, h =>
    (h.disconnect other .hostShutdown true).calm fun _ hnext => disconnectEach rest hnext

theorem shutdown (h : R.Like world world') (order : Enumeration) :
    R.Alike Calm (world.shutdown order) (world'.shutdown order) := by
  unfold World.shutdown
  rw [h.isShutDown]
  split
  · exact h.finish ()
  · rw [congrArg order.arrange h.trackedList]
    exact disconnectEach _ h.shutDown

theorem resumeShutdown (h : R.Like world world') (reply : Reply) (shutdown : Shutdown A) :
    R.Alike Calm (shutdown.resume world reply) (shutdown.resume world' reply) :=
  (h.resumeDisconnect reply shutdown.current).calm fun _ hnext => hnext.disconnectEach shutdown.rest

theorem settleTick (h : R.Like world world') (number : Nat) :
    R.Like (world.settleTick number) (world'.settleTick number) := by
  unfold World.settleTick
  rw [h.loop?, h.isShutDown]
  split
  · exact h.setLoop number _
  · exact h
  · exact h
  · exact h

theorem wakeLoop (h : R.Like world world') (number now : Nat) (order : Enumeration) :
    R.Alike Calm (world.wakeLoop number now order) (world'.wakeLoop number now order) := by
  unfold World.wakeLoop
  rw [h.loop?, h.hostConfig]
  split
  · split
    · exact h.finish false
    · rename_i due _ _
      have hnext := h.setLoop number (.ticking (nextTick world.config.tickInterval due now))
      simp only [World.flushAll, hnext.trackedList]
      exact (hnext.sweep _ _).calm fun _ hswept => (hswept.settleTick number).finish true
  · exact h.finish false
  · exact h.finish false
  · exact h.finish false

theorem resumeTick (h : R.Like world world') (reply : Reply) (number : Nat) (sweep : Sweep A) :
    R.Alike Calm (world.resumeTick reply number sweep) (world'.resumeTick reply number sweep) :=
  (h.resumeSweep reply sweep).calm fun _ hnext => (hnext.settleTick number).finish true

/-! ## Reports -/

end Like

/-- A report that is to forget the session has moved it to Disconnected, unless that does not matter. -/
def Reported (R : Likeness A id) (world : World A) (report : Report A) : Prop :=
  R.fed ∨ (report.id = id → report.state = .disconnected → (world.session id).state = .disconnected)

def Reports (R : Likeness A id) (world : World A) (query : Query A) (rest : Report A) : Prop :=
  query.handled? = none ∧ R.Reported world rest

namespace Like

theorem settleReport (h : R.Like world world') (other : SessionId) (state : ConnectionState)
    (hended : R.fed ∨ (other = id → state = .disconnected → (world.session id).state = .disconnected)) :
    ∀ moved, R.Alike R.Reports (world.settleReport other state moved) (world'.settleReport other state moved)
  | .error e => h.finish _
  | .ok _ => by
    unfold World.settleReport
    by_cases hgone : state = .disconnected
    · rw [if_pos hgone, if_pos hgone]
      refine (h.forget other (hended.imp (fun hfed => hfed) fun hstate hother => ?_)).finish _
      rw [hstate hother hgone]
      rfl
    · rw [if_neg hgone, if_neg hgone]
      exact h.finish _

theorem report (h : R.Like world world') (other : SessionId) (state : ConnectionState) :
    R.Alike R.Reports (world.report other state) (world'.report other state) := by
  unfold World.report
  rw [h.tracks]
  split
  · rcases world.transition_reaches other state with ⟨e, hrefused⟩ | hmoved
    · refine (h.transition other state).andThen_of_done (fun query rest hasks _ => ?_) fun moved hdone hnext => ?_
      · rw [hrefused] at hasks
        cases hasks
      · rw [hrefused] at hdone
        cases hdone
        exact hnext.finish _
    · refine (h.transition other state).andThen_of_done (fun query rest _ hcalm => ⟨hcalm, .inr ?_⟩)
        fun moved _ hnext => hnext.settleReport other state (.inr ?_) moved
      · rintro rfl hstate
        exact hmoved.trans hstate
      · rintro rfl hstate
        exact hmoved.trans hstate
  · exact h.finish _

theorem resumeReport (h : R.Like world world') {report : Report A} (hreported : R.Reported world report) :
    R.Alike R.Reports (report.resume world) (report.resume world') := by
  have hstill : R.Reported (report.rest.resume world).world report := by
    unfold Reported
    rw [World.resumeTransition_state]
    exact hreported
  exact (h.resumeTransition report.rest).andThen_of_done (fun _ _ _ hcalm => ⟨hcalm, hstill⟩)
    fun moved _ hnext => hnext.settleReport report.id report.state hstill moved

/-! ## Deliveries -/

theorem callHandlers (h : R.Like world world') (other : SessionId) (message : A.Message)
    (hgate : R.Gated world (some (other, message))) (called : Nat) :
    ∀ handlers, R.Alike (R.Delivers Delivery.handling?) (world.callHandlers other message called handlers)
      (world'.callHandlers other message called handlers)
  | [] => h.finish _
  | _ :: _ => h.ask ⟨rfl, hgate⟩

theorem delivers_of_calm {handling : κ → Option (SessionId × A.Message)} {query : Query A} {rest : κ}
    (hcalm : query.handled? = none) (hrest : handling rest = none) : R.Delivers handling world query rest := by
  refine ⟨hcalm.trans hrest.symm, fun message hmessage => ?_⟩
  rw [hrest] at hmessage
  cases hmessage

theorem rejectPayload (h : R.Like world world') (other : SessionId) (reason : DisconnectReason) :
    R.Alike (R.Delivers Delivery.handling?) (world.rejectPayload other reason) (world'.rejectPayload other reason) :=
  (h.disconnect other reason false).andThen (fun _ _ _ hcalm => delivers_of_calm hcalm rfl)
    fun _ hnext => hnext.finish _

theorem dispatch (h : R.Like world world') (other : SessionId) (payload : Payload) :
    R.Alike (R.Delivers Delivery.handling?) (world.dispatch other payload) (world'.dispatch other payload) := by
  unfold World.dispatch
  simp only [h.state, h.isAuthenticated]
  by_cases hclosing : (world.session other).state.isClosing = true
  · rw [if_pos hclosing, if_pos hclosing]
    exact h.finish _
  rw [if_neg hclosing, if_neg hclosing]
  cases A.decode payload with
  | none => exact h.rejectPayload other _
  | some message =>
    cases hentry : A.table.get? (A.kindOf message) with
    | none =>
      simp only [hentry]
      exact h.finish _
    | some entry =>
      simp only [hentry]
      by_cases hprotected : (entry.requiresAuthentication && !(world.session other).isAuthenticated) = true
      · rw [if_pos hprotected, if_pos hprotected]
        exact h.rejectPayload other _
      · rw [if_neg hprotected, if_neg hprotected]
        have hnext := h.touch other (.countHandled (Bool.eq_false_iff.2 hclosing))
        refine hnext.callHandlers other message (fun _ hmessage => ?_) 0 _
        cases hmessage
        rw [World.modify, World.session_put_self]
        obtain ⟨session, -, hpair⟩ := h.paired
        refine R.admits hpair hentry fun hrequires => ?_
        simpa [hrequires] using hprotected

theorem resumeDelivery (h : R.Like world world') (reply : Reply) :
    ∀ rest : Delivery A, R.Gated world rest.handling? →
      R.Alike (R.Delivers Delivery.handling?) (rest.resume world reply) (rest.resume world' reply)
  | .handling other message called rest, hgate => by
    cases reply with
    | endSession graceful =>
      exact (h.disconnect other .requested graceful).andThen (fun _ _ _ hcalm => delivers_of_calm hcalm rfl)
        fun _ hnext => hnext.finish _
    | done => exact h.callHandlers other message hgate called rest
    | failed failure => exact h.callHandlers other message hgate called rest
  | .rejecting _ rest, _ =>
    (h.resumeDisconnect reply rest).andThen (fun _ _ _ hcalm => delivers_of_calm hcalm rfl)
      fun _ hnext => hnext.finish _
  | .ending _ rest, _ =>
    (h.resumeDisconnect reply rest).andThen (fun _ _ _ hcalm => delivers_of_calm hcalm rfl)
      fun _ hnext => hnext.finish _

theorem deliverAll (other : SessionId) : ∀ (payloads : List Payload) {world world' : World A}, R.Like world world' →
    ∀ handled : Nat, R.Alike (R.Delivers Arrival.handling?) (world.deliverAll other handled payloads)
      (world'.deliverAll other handled payloads)
  | [], _, _, h, handled => h.finish handled
  | payload :: rest, world, world', h, handled => by
    unfold World.deliverAll
    rw [h.state]
    split
    · exact (h.dispatch other payload).andThen (fun _ _ _ hdelivers => hdelivers)
        fun _ hnext => deliverAll other rest hnext _
    · exact h.finish handled

theorem hostReceive (h : R.Like world world') (other : SessionId) (hfed : other = id → R.fed) (chunk : List UInt8) :
    R.Alike (R.Delivers Arrival.handling?) (world.hostReceive other chunk) (world'.hostReceive other chunk) := by
  unfold World.hostReceive
  rw [h.tracks]
  split
  · have hnext := h.receive other hfed chunk
    simp only [h.receive_result other hfed chunk]
    cases ((world.session other).receive chunk).2 with
    | error e =>
      exact (hnext.disconnect other .malformedData false).andThen (fun _ _ _ hcalm => delivers_of_calm hcalm rfl)
        fun _ hended => hended.finish 0
    | ok payloads => exact deliverAll other payloads hnext 0
  · exact h.finish 0

theorem resumeArrival (h : R.Like world world') (reply : Reply) :
    ∀ rest : Arrival A, R.Gated world rest.handling? →
      R.Alike (R.Delivers Arrival.handling?) (rest.resume world reply) (rest.resume world' reply)
  | .delivering other _ rest current, hgate => by
    unfold Arrival.resume
    exact (h.resumeDelivery reply current hgate).andThen (fun _ _ _ hdelivers => hdelivers)
      fun _ hnext => deliverAll other rest hnext _
  | .malformed rest, _ =>
    (h.resumeDisconnect reply rest).andThen (fun _ _ _ hcalm => delivers_of_calm hcalm rfl)
      fun _ hnext => hnext.finish 0

end Like

/-! ## Calls -/

/-- What is left of a call may go on in a world. -/
structure Fits (R : Likeness A id) (world : World A) (rest : Suspended A) : Prop where
  gated : R.Gated world rest.handling?
  reported : ∀ report, rest = .report report → R.Reported world report

def Suspends (R : Likeness A id) (world : World A) (query : Query A) (rest : Suspended A) : Prop :=
  query.handled? = rest.handling? ∧ R.Fits world rest

theorem suspends_of_delivers {handling : κ → Option (SessionId × A.Message)} {query : Query A} {rest : κ}
    {suspended : Suspended A} (h : R.Delivers handling world query rest)
    (hhandling : suspended.handling? = handling rest) (hreport : ∀ report, suspended ≠ .report report) :
    R.Suspends world query suspended := by
  refine ⟨h.1.trans hhandling.symm, ?_, fun report heq => absurd heq (hreport report)⟩
  rw [hhandling]
  exact h.2

theorem suspends_of_calm {query : Query A} {suspended : Suspended A} (hcalm : query.handled? = none)
    (hhandling : suspended.handling? = none) (hreport : ∀ report, suspended ≠ .report report) :
    R.Suspends world query suspended := by
  refine ⟨hcalm.trans hhandling.symm, fun message hmessage => ?_, fun report heq => absurd heq (hreport report)⟩
  rw [hhandling] at hmessage
  cases hmessage

theorem suspends_of_reports {query : Query A} {report : Report A} (h : R.Reports world query report) :
    R.Suspends world query (.report report) := by
  refine ⟨h.1, ?_, fun other heq => ?_⟩
  · intro message hmessage
    cases hmessage
  · cases heq
    exact h.2

section Wrapping

variable {activity activity' : Activity A κ α} {within : κ → Suspended A} {answer : α → Answer}

theorem Alike.wrap {fits : World A → Query A → κ → Prop} (h : R.Alike fits activity activity')
    (hwithin : ∀ world query rest, fits world query rest → R.Suspends world query (within rest)) :
    R.Alike R.Suspends (Call.wrap activity within answer) (Call.wrap activity' within answer) :=
  h.andThen hwithin fun _ hnext => hnext.finish _

theorem Alike.wrap_calm (h : R.Alike Calm activity activity') (hhandling : ∀ rest, (within rest).handling? = none)
    (hreport : ∀ rest report, within rest ≠ .report report) :
    R.Alike R.Suspends (Call.wrap activity within answer) (Call.wrap activity' within answer) :=
  h.wrap fun _ _ rest hcalm => suspends_of_calm hcalm (hhandling rest) (hreport rest)

theorem Alike.wrap_delivers {handling : κ → Option (SessionId × A.Message)}
    (h : R.Alike (R.Delivers handling) activity activity') (hhandling : ∀ rest, (within rest).handling? = handling rest)
    (hreport : ∀ rest report, within rest ≠ .report report) :
    R.Alike R.Suspends (Call.wrap activity within answer) (Call.wrap activity' within answer) :=
  h.wrap fun _ _ rest hdelivers => suspends_of_delivers hdelivers (hhandling rest) (hreport rest)

end Wrapping

end Likeness

/-- A call feeds bytes to a session. -/
def Call.feeds (id : SessionId) : Call A → Bool
  | receive other _ | hostReceive other _ => other = id
  | _ => false

/-- A call tries to authenticate a session. -/
def Call.logsIn (id : SessionId) : Call A → Bool
  | authenticate other _ => other = id
  | _ => false

namespace Likeness

variable {id : SessionId} {R : Likeness A id} {world world' : World A}

/-- **A call does the same** in worlds that are alike. -/
theorem Like.begin (h : R.Like world world') (call : Call A) (hfed : call.feeds id = true → R.fed)
    (hlogs : call.logsIn id = true → R.logs) : R.Alike R.Suspends (call.begin world) (call.begin world') := by
  cases call with
  | transition other target => exact (h.transition other target).wrap_calm (fun _ => rfl) fun _ _ heq => by cases heq
  | authenticate other identity =>
    have hnext := h.authenticate other (fun heq => hlogs (decide_eq_true heq)) identity
    simp only [Call.begin, h.authenticate_result]
    exact hnext.finish _
  | enqueue other payload =>
    have hnext := h.enqueue other payload
    simp only [Call.begin, h.enqueue_result]
    exact hnext.finish _
  | tick other => exact (h.tick other).wrap_calm (fun _ => rfl) fun _ _ heq => by cases heq
  | receive other chunk =>
    have hnext := h.receive other (fun heq => hfed (decide_eq_true heq)) chunk
    simp only [Call.begin, h.receive_result other fun heq => hfed (decide_eq_true heq)]
    exact hnext.finish _
  | disconnect other reason flushFirst =>
    exact (h.disconnect other reason flushFirst).wrap_calm (fun _ => rfl) fun _ _ heq => by cases heq
  | dispatch other payload => exact (h.dispatch other payload).wrap_delivers (fun _ => rfl) fun _ _ heq => by cases heq
  | outboxEnqueue other payload =>
    have hnext := h.touch other (.outbox ((world.session other).outbox.enqueue payload).1)
    have hbox := h.outbox other
    simp only [Call.begin, hbox]
    exact hnext.finish _
  | outboxFlush other buffer offset limit =>
    have hnext := h.touch other (.outbox ((world.session other).outbox.flush buffer offset limit).1)
    have hbox := h.outbox other
    simp only [Call.begin, hbox]
    exact hnext.finish _
  | outboxClose other =>
    have hnext := h.touch other (.outbox (world.session other).outbox.close)
    have hbox := h.outbox other
    simp only [Call.begin, World.modify, hbox]
    exact hnext.finish _
  | addObserver observer => exact (h.addObserver observer).finish _
  | hostOpen =>
    simp only [Call.begin, h.openSession.2]
    exact h.openSession.1.finish _
  | hostReport other state => exact (h.report other state).wrap fun _ _ _ hreports => suspends_of_reports hreports
  | hostReceive other chunk =>
    exact (h.hostReceive other (fun heq => hfed (decide_eq_true heq)) chunk).wrap_delivers (fun _ => rfl)
      fun _ _ heq => by cases heq
  | hostEnqueue other payload =>
    simp only [Call.begin, World.hostEnqueue, h.tracks]
    by_cases htracks : world.tracks other = true
    · have hnext := h.enqueue other payload
      simp only [if_pos htracks, h.enqueue_result]
      exact hnext.finish _
    · simp only [if_neg htracks]
      exact h.finish _
  | hostTick other => exact (h.hostTick other).wrap_calm (fun _ => rfl) fun _ _ heq => by cases heq
  | hostFlushAll _ =>
    simp only [Call.begin, World.flushAll, h.trackedList]
    exact (h.sweep _ _).wrap_calm (fun _ => rfl) fun _ _ heq => by cases heq
  | hostDisconnect other reason flushFirst =>
    simp only [Call.begin, h.tracks]
    split
    · exact (h.disconnect other reason flushFirst).wrap_calm (fun _ => rfl) fun _ _ heq => by cases heq
    · exact h.finish _
  | hostShutdown order => exact (h.shutdown order).wrap_calm (fun _ => rfl) fun _ _ heq => by cases heq
  | startLoop now =>
    simp only [Call.begin, (h.startLoop now).2]
    exact (h.startLoop now).1.finish _
  | wakeLoop number now order =>
    exact (h.wakeLoop number now order).wrap_calm (fun _ => rfl) fun _ _ heq => by cases heq

/-- **A call goes on the same** in worlds that are alike. -/
theorem Like.resume (h : R.Like world world') (reply : Reply) (rest : Suspended A) (hfits : R.Fits world rest) :
    R.Alike R.Suspends (rest.resume world reply) (rest.resume world' reply) := by
  cases rest with
  | transition rest => exact (h.resumeTransition rest).wrap_calm (fun _ => rfl) fun _ _ heq => by cases heq
  | tick rest => exact (h.resumeFlush rest reply).wrap_calm (fun _ => rfl) fun _ _ heq => by cases heq
  | disconnect rest => exact (h.resumeDisconnect reply rest).wrap_calm (fun _ => rfl) fun _ _ heq => by cases heq
  | dispatch rest =>
    exact (h.resumeDelivery reply rest hfits.gated).wrap_delivers (fun _ => rfl) fun _ _ heq => by cases heq
  | report rest =>
    exact (h.resumeReport (hfits.reported rest rfl)).wrap fun _ _ _ hreports => suspends_of_reports hreports
  | arrival rest =>
    exact (h.resumeArrival reply rest hfits.gated).wrap_delivers (fun _ => rfl) fun _ _ heq => by cases heq
  | hostTick rest => exact (h.resumeHostFlush reply rest).wrap_calm (fun _ => rfl) fun _ _ heq => by cases heq
  | sweep rest => exact (h.resumeSweep reply rest).wrap_calm (fun _ => rfl) fun _ _ heq => by cases heq
  | shutdown rest => exact (h.resumeShutdown reply rest).wrap_calm (fun _ => rfl) fun _ _ heq => by cases heq
  | loop number rest => exact (h.resumeTick reply number rest).wrap_calm (fun _ => rfl) fun _ _ heq => by cases heq

end Likeness

end FramedLink
