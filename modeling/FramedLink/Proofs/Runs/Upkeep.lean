import FramedLink.Proofs.Runs.Chain
/-!
# What the library does by itself

A call does something to its session at once: it takes a payload or a chunk in, or empties the outbox (`Call.primes`).
All that follows, up to its end or its next call of outside code, is upkeep (`World.Upkeep`): sessions go along edges,
note why they end, drain their outboxes and count.  Nothing is received, accepted or closed past the session in the
course of it, and messages are handled only where payloads are delivered, one for each payload at most
(`Activity.Delivers`).  There is one statement for each function that makes an activity or goes on with one.

Main statement: a move is what its call does at once, followed by upkeep (`Machine.move_upkeep`).
-/
namespace FramedLink

variable {A : Application} {κ κ' α β : Type}

/-- What the library does to a session by itself. -/
inductive Session.Upkeep {ι : Type} (session : Session ι) : Session ι → Prop where
  | enter {target : ConnectionState} (h : session.state.canTransitionTo target = true) :
      Upkeep session (session.enter target)
  | noteReason (reason : DisconnectReason) : Upkeep session (session.noteReason reason)
  | flushing (on : Bool) : Upkeep session { session with flushing := on }
  | drain (limit : Limit) :
      Upkeep session
        { session with outbox := (session.outbox.drain session.config.transmitBufferSize limit).1 }
  | countTransmitted (bytes : Nat) : Upkeep session (session.countTransmitted bytes)

namespace Session

variable {ι : Type} {session next : Session ι}

/-- What the library does to a session by itself is an edit that takes nothing past the session. -/
theorem Upkeep.edit (h : session.Upkeep next) : ∃ deeds, session.Edit deeds next ∧ ∀ deed ∈ deeds, deed ≠ .direct := by
  cases h with
  | enter hedge => exact ⟨[], .enter hedge, fun _ hmem => absurd hmem List.not_mem_nil⟩
  | noteReason reason => exact ⟨[], .noteReason reason, fun _ hmem => absurd hmem List.not_mem_nil⟩
  | flushing on => exact ⟨[], .flushing on, fun _ hmem => absurd hmem List.not_mem_nil⟩
  | countTransmitted bytes => exact ⟨[], .countTransmitted bytes, fun _ hmem => absurd hmem List.not_mem_nil⟩
  | drain limit =>
    cases hresult : (session.outbox.drain session.config.transmitBufferSize limit).2 with
    | ok output =>
      refine ⟨_, .drain (Prod.ext rfl hresult), fun deed hmem => ?_⟩
      rw [Deed.ofOutput] at hmem
      split at hmem
      · cases hmem
      · rw [List.mem_singleton.1 hmem]
        exact fun heq => by cases heq
    | error e => exact ⟨[], .drainFails (Prod.ext rfl hresult), fun _ hmem => absurd hmem List.not_mem_nil⟩

end Session

namespace World

/-- What the library does to a world by itself, with the sessions of which a message was handled, in order. -/
inductive Upkeep : World A → List SessionId → World A → Prop where
  | none (world : World A) : Upkeep world [] world
  | session {world last : World A} {id : SessionId} {next : Session A.Identity} {handled : List SessionId}
      (h : (world.session id).Upkeep next) (rest : Upkeep (world.put id next) handled last) : Upkeep world handled last
  | handles {world last : World A} (id : SessionId) {handled : List SessionId}
      (rest : Upkeep (world.put id (world.session id).countHandled) handled last) : Upkeep world (id :: handled) last
  | notes {world middle last : World A} {handled : List SessionId} (hsessions : middle.sessions = world.sessions)
      (hids : middle.ids = world.ids) (hconfig : middle.config = world.config) (rest : Upkeep middle handled last) :
      Upkeep world handled last

variable {world middle last : World A} {id : SessionId} {handled later : List SessionId}

theorem Upkeep.trans (h : world.Upkeep handled middle) (hlater : middle.Upkeep later last) :
    world.Upkeep (handled ++ later) last := by
  induction h with
  | none => exact hlater
  | session h _ ih => exact .session h (ih hlater)
  | handles id _ ih => exact .handles id (ih hlater)
  | notes hsessions hids hconfig _ ih => exact .notes hsessions hids hconfig (ih hlater)

theorem upkeep_put {world : World A} (id : SessionId) {next : Session A.Identity} (h : (world.session id).Upkeep next) :
    world.Upkeep [] (world.put id next) := .session h (.none _)

/-- Notes that a host takes leave the sessions as they are. -/
theorem upkeep_notes {world next : World A} (hsessions : next.sessions = world.sessions) (hids : next.ids = world.ids)
    (hconfig : next.config = world.config) : world.Upkeep [] next := .notes hsessions hids hconfig (.none next)

theorem Upkeep.andThen {first : Activity A κ α} {within : κ → κ'} {next : World A → α → Activity A κ' β}
    (h : world.Upkeep [] first.world)
    (hnext : ∀ (middle : World A) (result : α), middle.Upkeep [] (next middle result).world) :
    world.Upkeep [] (first.andThen within next).world := by
  unfold Activity.andThen
  split
  · exact h.trans (hnext first.world _)
  · exact h
  · exact h

/-- **What upkeep does to one session.**  It keeps whatever is kept by each thing that the library does to a session by
itself, and counts the messages handled. -/
theorem Upkeep.keep {kept : Nat → Session A.Identity → Prop}
    (hstep : ∀ {count : Nat} {session next : Session A.Identity}, kept count session → session.Upkeep next →
      kept count next)
    (hhandled : ∀ {count : Nat} {session : Session A.Identity}, kept count session →
      kept (count + 1) session.countHandled)
    (h : world.Upkeep handled last) :
    ∀ {count : Nat}, kept count (world.session id) → kept (count + handled.count id) (last.session id) := by
  induction h with
  | none => exact fun hkept => hkept
  | @session world last other next handled hsession _ ih =>
    intro count hkept
    refine ih ?_
    by_cases hother : other = id
    · subst hother
      rw [session_put_self]
      exact hstep hkept hsession
    · rwa [session_put_of_ne _ _ hother]
  | @handles world last other handled _ ih =>
    intro count hkept
    by_cases hother : other = id
    · subst hother
      rw [List.count_cons_self, Nat.add_comm _ 1, ← Nat.add_assoc]
      refine ih ?_
      rw [session_put_self]
      exact hhandled hkept
    · rw [List.count_cons_of_ne hother]
      refine ih ?_
      rwa [session_put_of_ne _ _ hother]
  | @notes world middle last handled hsessions hids hconfig _ ih =>
    intro count hkept
    refine ih ?_
    rw [World.session, hsessions, hconfig]
    exact hkept

theorem Upkeep.ids (h : world.Upkeep handled last) : last.ids = world.ids := by
  induction h with
  | none => rfl
  | session _ _ ih => exact ih
  | handles _ _ ih => exact ih
  | notes _ hids _ _ ih => exact ih.trans hids

theorem Upkeep.config {handled : List SessionId} (h : world.Upkeep handled last) : last.config = world.config := by
  induction h with
  | none => rfl
  | session _ _ ih => exact ih
  | handles _ _ ih => exact ih
  | notes _ _ hconfig _ ih => exact ih.trans hconfig

theorem Upkeep.knows {handled : List SessionId} (h : world.Upkeep handled last) (hknown : world.knows id = true) :
    last.knows id = true := by
  have hput : ∀ {world : World A} {other : SessionId} {next : Session A.Identity}, world.knows id = true →
      (world.put other next).knows id = true := by
    intro world other next hknown
    by_cases hother : other = id
    · subst hother
      exact knows_put_self _ _ _
    · rw [knows_put_of_ne _ _ hother, hknown]
  induction h with
  | none => exact hknown
  | session _ _ ih => exact ih (hput hknown)
  | handles _ _ ih => exact ih (hput hknown)
  | @notes world middle _ _ hsessions _ _ _ ih =>
    refine ih ?_
    rw [World.knows, hsessions]
    exact hknown

/-! ## Sessions -/

theorem bidFarewell_upkeep (world : World A) (id : SessionId) (reason : DisconnectReason) :
    ∀ observers, world.Upkeep [] (world.bidFarewell id reason observers).world
  | [] => .none world
  | _ :: _ => .none world

theorem tell_upkeep (world : World A) (id : SessionId) (source target : ConnectionState) :
    ∀ observers, world.Upkeep [] (world.tell id source target observers).world
  | [] => by
    by_cases htarget : target = .disconnected
    · rw [tell, if_pos htarget]
      exact (upkeep_put id (.noteReason .transportClosed)).trans (bidFarewell_upkeep _ id _ _)
    · rw [tell, if_neg htarget]
      exact .none world
  | _ :: _ => .none world

theorem transition_upkeep (world : World A) (id : SessionId) (target : ConnectionState) :
    world.Upkeep [] (world.transition id target).world := by
  unfold transition
  by_cases hsame : (world.session id).state = target
  · rw [if_pos hsame]
    exact .none world
  rw [if_neg hsame]
  cases hedge : (world.session id).state.canTransitionTo target with
  | false => exact .none world
  | true => exact (upkeep_put id (.enter hedge)).trans (tell_upkeep _ id _ target _)

theorem resumeTransition_upkeep (world : World A) : ∀ rest : Transition A, world.Upkeep [] (rest.resume world).world
  | .telling id source target rest => world.tell_upkeep id source target rest
  | .parting id reason rest => world.bidFarewell_upkeep id reason rest

theorem endFlush_upkeep (world : World A) (id : SessionId) (result : Except FlushError TickSummary) :
    world.Upkeep [] (world.endFlush id result).world := upkeep_put id (.flushing false)

theorem pump_upkeep (world : World A) (id : SessionId) (limit : Limit) (summary : TickSummary) :
    world.Upkeep [] (world.pump id limit summary).world := by
  unfold pump
  split
  · exact endFlush_upkeep world id _
  · have hdrain : world.Upkeep [] (world.put id _) := upkeep_put id (.drain limit)
    cases hresult : ((world.session id).outbox.drain (world.session id).config.transmitBufferSize limit).2 with
    | error e =>
      simp only [hresult]
      exact hdrain.trans (endFlush_upkeep _ id _)
    | ok output =>
      simp only [hresult]
      split
      · exact hdrain.trans (endFlush_upkeep _ id _)
      · exact hdrain

theorem beginFlush_upkeep (world : World A) (id : SessionId) (limit : Limit) :
    world.Upkeep [] (world.beginFlush id limit).world := by
  unfold beginFlush
  split
  · exact (upkeep_put id (.flushing true)).trans (pump_upkeep _ id limit {})
  · exact .none world

theorem tick_upkeep (world : World A) (id : SessionId) : world.Upkeep [] (world.tick id).world := by
  unfold tick
  split
  · exact .none world
  · exact beginFlush_upkeep world id _

theorem flushFully_upkeep (world : World A) (id : SessionId) : world.Upkeep [] (world.flushFully id).world := by
  unfold flushFully
  split
  · exact .none world
  · exact beginFlush_upkeep world id none

theorem resumeFlush_upkeep (world : World A) (flush : Flush) (reply : Reply) :
    world.Upkeep [] (flush.resume world reply).world := by
  have htaken : world.Upkeep [] (flush.resume world .done).world := by
    simp only [Flush.resume]
    refine Upkeep.trans (upkeep_put flush.id (.countTransmitted flush.output.bytes.length)) ?_
    split
    · exact endFlush_upkeep _ flush.id _
    · exact pump_upkeep _ flush.id _ _
  cases reply with
  | failed failure => exact endFlush_upkeep world flush.id _
  | done => exact htaken
  | endSession graceful => exact htaken

theorem closeTransport_upkeep (world : World A) (id : SessionId) (reason : DisconnectReason) :
    ∀ moved, world.Upkeep [] (world.closeTransport id reason moved).world
  | .ok true => .none world
  | .ok false | .error _ => .none world

theorem leave_upkeep (world : World A) (id : SessionId) (reason : DisconnectReason) :
    world.Upkeep [] (world.leave id reason).world :=
  (transition_upkeep world id .disconnecting).andThen fun world => world.closeTransport_upkeep id reason

theorem disconnect_upkeep (world : World A) (id : SessionId) (reason : DisconnectReason) (flushFirst : Bool) :
    world.Upkeep [] (world.disconnect id reason flushFirst).world := by
  unfold disconnect
  by_cases hclosing : (world.session id).state.isClosing = true
  · rw [if_pos hclosing]
    exact .none world
  rw [if_neg hclosing]
  refine Upkeep.trans (upkeep_put id (.noteReason reason)) ?_
  split
  · exact (flushFully_upkeep _ id).andThen fun world _ => world.leave_upkeep id reason
  · exact leave_upkeep _ id reason

theorem resumeDisconnect_upkeep (world : World A) (reply : Reply) :
    ∀ rest : Disconnect A, world.Upkeep [] (rest.resume world reply).world
  | .flushing id reason rest =>
    (world.resumeFlush_upkeep rest reply).andThen fun world _ => world.leave_upkeep id reason
  | .leaving id reason rest =>
    (world.resumeTransition_upkeep rest).andThen fun world => world.closeTransport_upkeep id reason
  | .closing => .none world

end World

/-! ## Deliveries -/

/-- The payload of a delivery under way counts as handled once its handlers are called. -/
def Delivery.counted : Delivery A → Nat
  | handling _ _ _ _ | ending _ _ => 1
  | rejecting _ _ => 0

/-- How many messages a delivery has handled. -/
def Activity.counted (activity : Activity A (Delivery A) DispatchOutcome) : Nat :=
  match activity.progress with
  | .done outcome => outcome.isHandled.toNat
  | .asks _ rest => rest.counted
  | .stuck => 0

/-- The messages that an arrival has handled so far. -/
def Arrival.counted : Arrival A → Nat
  | delivering _ handled _ current => handled + current.counted
  | malformed _ => 0

/-- The payloads that an arrival has still to deliver, the one under way apart. -/
def Arrival.ahead : Arrival A → Nat
  | delivering _ _ rest _ => rest.length
  | malformed _ => 0

/-- What is left of an arrival is about this session. -/
def Arrival.IsFor (id : SessionId) : Arrival A → Prop
  | delivering other _ _ _ => other = id
  | malformed _ => True

/-- Payloads are delivered to a session, of which so many messages were handled before: each of the payloads ahead
handles one message at most, and the total says how many did. -/
def Activity.Delivers (id : SessionId) (world : World A) (counted ahead : Nat) (activity : Activity A (Arrival A) Nat) :
    Prop :=
  ∃ n, world.Upkeep (List.replicate n id) activity.world ∧
    match activity.progress with
    | .done total => total = counted + n ∧ n ≤ ahead
    | .asks _ rest => rest.IsFor id ∧ rest.counted = counted + n ∧ n + rest.ahead ≤ ahead
    | .stuck => True

theorem Activity.Delivers.mono {id : SessionId} {world : World A} {activity : Activity A (Arrival A) Nat}
    {counted ahead more : Nat}
    (h : activity.Delivers id world counted ahead) (hle : ahead ≤ more) : activity.Delivers id world counted more := by
  obtain ⟨n, hupkeep, hprogress⟩ := h
  refine ⟨n, hupkeep, ?_⟩
  split at hprogress
  · exact ⟨hprogress.1, Nat.le_trans hprogress.2 hle⟩
  · exact ⟨hprogress.1, hprogress.2.1, Nat.le_trans hprogress.2.2 hle⟩
  · exact True.intro

namespace World

variable {world : World A} {id : SessionId}

theorem delivers_finish (world : World A) (counted ahead : Nat) :
    (Activity.finish world counted : Activity A (Arrival A) Nat).Delivers id world counted ahead :=
  ⟨0, .none world, rfl, Nat.zero_le _⟩

theorem callHandlers_upkeep (world : World A) (id : SessionId) (message : A.Message) (called : Nat) :
    ∀ handlers, world.Upkeep [] (world.callHandlers id message called handlers).world ∧
      (world.callHandlers id message called handlers).counted = 1
  | [] => ⟨.none world, rfl⟩
  | _ :: _ => ⟨.none world, rfl⟩

theorem rejectPayload_upkeep (world : World A) (id : SessionId) (reason : DisconnectReason) :
    world.Upkeep [] (world.rejectPayload id reason).world ∧ (world.rejectPayload id reason).counted = 0 := by
  refine ⟨(world.disconnect_upkeep id reason false).andThen fun world _ => .none world, ?_⟩
  unfold rejectPayload Activity.andThen
  cases (world.disconnect id reason false).progress <;> rfl

/-- **A payload is counted as handled exactly if it reaches handlers.** -/
theorem dispatch_upkeep (world : World A) (id : SessionId) (payload : Payload) :
    world.Upkeep (List.replicate (world.dispatch id payload).counted id) (world.dispatch id payload).world ∧
      (world.dispatch id payload).counted ≤ 1 := by
  have hreject : ∀ reason, world.Upkeep (List.replicate (world.rejectPayload id reason).counted id)
      (world.rejectPayload id reason).world ∧ (world.rejectPayload id reason).counted ≤ 1 := by
    intro reason
    obtain ⟨hupkeep, hcounted⟩ := world.rejectPayload_upkeep id reason
    rw [hcounted]
    exact ⟨hupkeep, Nat.zero_le 1⟩
  unfold dispatch
  by_cases hclosing : (world.session id).state.isClosing = true
  · rw [if_pos hclosing]
    exact ⟨.none world, Nat.zero_le 1⟩
  rw [if_neg hclosing]
  cases A.decode payload with
  | none => exact hreject .malformedData
  | some message =>
    cases hentry : A.table.get? (A.kindOf message) with
    | none =>
      simp only [hentry]
      exact ⟨.none world, Nat.zero_le 1⟩
    | some entry =>
      simp only [hentry]
      split
      · exact hreject .exploitAttempt
      · obtain ⟨hupkeep, hcounted⟩ := callHandlers_upkeep (world.put id (world.session id).countHandled) id message 0
          entry.handlers
        rw [hcounted]
        exact ⟨.handles id hupkeep, Nat.le_refl 1⟩

/-- Going on with a delivery counts nothing again. -/
theorem resumeDelivery_upkeep (world : World A) (reply : Reply) (rest : Delivery A) :
    world.Upkeep [] (rest.resume world reply).world ∧
      ((rest.resume world reply).progress = .stuck ∨ (rest.resume world reply).counted = rest.counted) := by
  have hending : ∀ (first : Activity A (Disconnect A) Unit) (within : Disconnect A → Delivery A)
      (outcome : DispatchOutcome) (count : Nat), (∀ rest, (within rest).counted = count) →
      outcome.isHandled.toNat = count → world.Upkeep [] first.world →
      let activity := first.andThen within fun world _ => .finish world outcome
      world.Upkeep [] activity.world ∧ (activity.progress = .stuck ∨ activity.counted = count) := by
    intro first within outcome count hwithin houtcome hfirst
    refine ⟨hfirst.andThen fun world _ => .none world, ?_⟩
    unfold Activity.andThen
    cases first.progress with
    | done result => exact .inr houtcome
    | asks query rest => exact .inr (hwithin rest)
    | stuck => exact .inl rfl
  cases rest with
  | handling id message called rest =>
    obtain ⟨hupkeep, hcounted⟩ := world.callHandlers_upkeep id message called rest
    cases reply with
    | endSession graceful =>
      exact hending _ _ _ 1 (fun _ => rfl) rfl (world.disconnect_upkeep id .requested graceful)
    | done => exact ⟨hupkeep, .inr hcounted⟩
    | failed failure => exact ⟨hupkeep, .inr hcounted⟩
  | rejecting reason rest => exact hending _ _ _ 0 (fun _ => rfl) rfl (world.resumeDisconnect_upkeep reply rest)
  | ending called rest => exact hending _ _ _ 1 (fun _ => rfl) rfl (world.resumeDisconnect_upkeep reply rest)

/-- A delivery that was given so far, and the payloads behind it. -/
theorem delivers_andThen {first : Activity A (Delivery A) DispatchOutcome} {before n : Nat} (handled : Nat)
    {rest : List Payload} (hupkeep : world.Upkeep (List.replicate n id) first.world)
    (hcounted : first.progress = .stuck ∨ first.counted = before + n)
    (hrest : ∀ (world : World A) (handled : Nat),
      (world.deliverAll id handled rest).Delivers id world handled rest.length) :
    (first.andThen (.delivering id handled rest) fun world outcome =>
      world.deliverAll id (if outcome.isHandled then handled + 1 else handled) rest).Delivers id world
        (handled + before) (n + rest.length) := by
  cases hprogress : first.progress with
  | done outcome =>
    have hcount : (if outcome.isHandled then handled + 1 else handled) = handled + before + n := by
      have hfirst : outcome.isHandled.toNat = before + n := by
        simpa [Activity.counted, hprogress] using hcounted
      rw [Nat.add_assoc, ← hfirst]
      cases outcome.isHandled <;> rfl
    obtain ⟨m, hlater, hdone⟩ := hrest first.world (handled + before + n)
    simp only [Activity.andThen, hprogress, hcount]
    refine ⟨n + m, ?_, ?_⟩
    · rw [← List.replicate_append_replicate]
      exact hupkeep.trans hlater
    · split at hdone
      · omega
      · exact ⟨hdone.1, by omega, by omega⟩
      · exact True.intro
  | asks query current =>
    have hfirst : current.counted = before + n := by simpa [Activity.counted, hprogress] using hcounted
    simp only [Activity.andThen, hprogress]
    refine ⟨n, hupkeep, rfl, ?_, Nat.le_refl _⟩
    rw [Arrival.counted, hfirst, Nat.add_assoc]
  | stuck =>
    simp only [Activity.andThen, hprogress]
    exact ⟨n, hupkeep, True.intro⟩

theorem deliverAll_delivers (id : SessionId) : ∀ (payloads : List Payload) (world : World A) (handled : Nat),
    (world.deliverAll id handled payloads).Delivers id world handled payloads.length
  | [], world, handled => delivers_finish world handled 0
  | payload :: rest, world, handled => by
    unfold deliverAll
    split
    · obtain ⟨hupkeep, hone⟩ := world.dispatch_upkeep id payload
      have hdelivers := delivers_andThen handled hupkeep (.inr (Nat.zero_add _).symm) (deliverAll_delivers id rest)
      refine hdelivers.mono ?_
      rw [List.length_cons]
      omega
    · exact delivers_finish world handled _

theorem delivers_malformed {first : Activity A (Disconnect A) Unit} (h : world.Upkeep [] first.world) (ahead : Nat) :
    (first.andThen .malformed fun world _ => .finish world 0).Delivers id world 0 ahead := by
  refine ⟨0, h.andThen fun world _ => .none world, ?_⟩
  unfold Activity.andThen
  cases first.progress with
  | done result => exact ⟨rfl, Nat.zero_le _⟩
  | asks query rest => exact ⟨True.intro, rfl, Nat.zero_le _⟩
  | stuck => exact True.intro

/-- **What is left of an arrival goes on counting where it was.** -/
theorem resumeArrival_delivers (world : World A) (reply : Reply) {rest : Arrival A} (h : rest.IsFor id) :
    (rest.resume world reply).Delivers id world rest.counted rest.ahead := by
  cases rest with
  | delivering other handled rest current =>
    obtain rfl : other = id := h
    obtain ⟨hupkeep, hcounted⟩ := world.resumeDelivery_upkeep reply current
    have hdelivers := delivers_andThen handled (n := 0) hupkeep hcounted (deliverAll_delivers other rest)
    rwa [Nat.zero_add] at hdelivers
  | malformed rest => exact delivers_malformed (world.resumeDisconnect_upkeep reply rest) 0

/-- What a host does at once with bytes that arrive for a session. -/
def takeIn (world : World A) (id : SessionId) (chunk : List UInt8) : World A :=
  if world.tracks id then world.put id ((world.session id).receive chunk).1 else world

/-- The payloads that a host has to deliver of the bytes that arrive for a session. -/
def toDeliver (world : World A) (id : SessionId) (chunk : List UInt8) : List Payload :=
  if world.tracks id then ((world.session id).receive chunk).2.toOption.getD [] else []

/-- **Each payload of a chunk that arrives handles one message at most**, and the answer says how many did. -/
theorem hostReceive_delivers (world : World A) (id : SessionId) (chunk : List UInt8) :
    (world.hostReceive id chunk).Delivers id (world.takeIn id chunk) 0 (world.toDeliver id chunk).length := by
  unfold hostReceive takeIn toDeliver
  by_cases htracks : world.tracks id = true
  · simp only [if_pos htracks]
    cases hresult : ((world.session id).receive chunk).2 with
    | error e => exact delivers_malformed (disconnect_upkeep _ id .malformedData false) _
    | ok payloads => exact deliverAll_delivers id payloads _ 0
  · simp only [if_neg htracks]
    exact delivers_finish world 0 0

/-! ## Hosts -/

theorem settleReport_upkeep (world : World A) (id : SessionId) (state : ConnectionState) :
    ∀ moved, world.Upkeep [] (world.settleReport id state moved).world
  | .error e => .none world
  | .ok _ => by
    unfold settleReport
    by_cases hgone : state = .disconnected
    · rw [if_pos hgone]
      exact upkeep_notes rfl rfl rfl
    · rw [if_neg hgone]
      exact .none world

theorem report_upkeep (world : World A) (id : SessionId) (state : ConnectionState) :
    world.Upkeep [] (world.report id state).world := by
  unfold report
  split
  · exact (world.transition_upkeep id state).andThen fun world => world.settleReport_upkeep id state
  · exact .none world

theorem resumeReport_upkeep (world : World A) (report : Report A) : world.Upkeep [] (report.resume world).world :=
  (world.resumeTransition_upkeep report.rest).andThen fun world => world.settleReport_upkeep report.id report.state

theorem settleFlush_upkeep (world : World A) (id : SessionId) :
    ∀ result, world.Upkeep [] (world.settleFlush id result).world
  | .ok _ => .none world
  | .error e => (world.disconnect_upkeep id e.reason false).andThen fun world _ => .none world

theorem flushSession_upkeep (world : World A) (id : SessionId) : world.Upkeep [] (world.flushSession id).world :=
  (world.tick_upkeep id).andThen fun world => world.settleFlush_upkeep id

theorem hostTick_upkeep (world : World A) (id : SessionId) : world.Upkeep [] (world.hostTick id).world := by
  unfold hostTick
  split
  · exact flushSession_upkeep world id
  · exact .none world

theorem resumeHostFlush_upkeep (world : World A) (reply : Reply) :
    ∀ rest : HostFlush A, world.Upkeep [] (rest.resume world reply).world
  | .flushing id rest => (world.resumeFlush_upkeep rest reply).andThen fun world => world.settleFlush_upkeep id
  | .failing rest => (world.resumeDisconnect_upkeep reply rest).andThen fun world _ => .none world

theorem sweep_upkeep : ∀ (ids : List SessionId) (world : World A) (total : TickSummary),
    world.Upkeep [] (world.sweep total ids).world
  | [], world, _ => .none world
  | id :: rest, world, _ => (world.flushSession_upkeep id).andThen fun world _ => sweep_upkeep rest world _

theorem resumeSweep_upkeep (world : World A) (reply : Reply) (sweep : Sweep A) :
    world.Upkeep [] (sweep.resume world reply).world :=
  (world.resumeHostFlush_upkeep reply sweep.current).andThen fun world _ => sweep_upkeep sweep.rest world _

theorem disconnectEach_upkeep : ∀ (ids : List SessionId) (world : World A),
    world.Upkeep [] (world.disconnectEach ids).world
  | [], world => .none world
  | id :: rest, world =>
    (world.disconnect_upkeep id .hostShutdown true).andThen fun world _ => disconnectEach_upkeep rest world

theorem shutdown_upkeep (world : World A) (order : Enumeration) : world.Upkeep [] (world.shutdown order).world := by
  unfold shutdown
  split
  · exact .none world
  · exact (upkeep_notes rfl rfl rfl : world.Upkeep [] { world with isShutDown := true }).trans
      (disconnectEach_upkeep _ _)

theorem resumeShutdown_upkeep (world : World A) (reply : Reply) (shutdown : Shutdown A) :
    world.Upkeep [] (shutdown.resume world reply).world :=
  (world.resumeDisconnect_upkeep reply shutdown.current).andThen fun world _ =>
    disconnectEach_upkeep shutdown.rest world

theorem settleTick_upkeep (world : World A) (number : Nat) : world.Upkeep [] (world.settleTick number) := by
  unfold settleTick
  split
  · exact upkeep_notes rfl rfl rfl
  · exact .none world
  · exact .none world
  · exact .none world

theorem wakeLoop_upkeep (world : World A) (number now : Nat) (order : Enumeration) :
    world.Upkeep [] (world.wakeLoop number now order).world := by
  unfold wakeLoop
  split
  · rename_i due _
    split
    · exact .none world
    · refine (upkeep_notes rfl rfl rfl : world.Upkeep []
        (world.setLoop number (.ticking (nextTick world.config.tickInterval due now)))).trans ?_
      exact (sweep_upkeep _ _ _).andThen fun world _ => world.settleTick_upkeep number
  · exact .none world
  · exact .none world
  · exact .none world

theorem resumeTick_upkeep (world : World A) (reply : Reply) (number : Nat) (sweep : Sweep A) :
    world.Upkeep [] (world.resumeTick reply number sweep).world :=
  (world.resumeSweep_upkeep reply sweep).andThen fun world _ => world.settleTick_upkeep number

end World

/-! ## Calls and moves -/

/-- What a call does at once, before all upkeep. -/
def Call.primes (world : World A) : Call A → World A
  | authenticate id identity => world.put id ((world.session id).authenticate identity).1
  | enqueue id payload => world.put id ((world.session id).enqueue payload).1
  | receive id chunk => world.put id ((world.session id).receive chunk).1
  | outboxEnqueue id payload =>
    world.put id { world.session id with outbox := ((world.session id).outbox.enqueue payload).1 }
  | outboxFlush id buffer offset limit =>
    world.put id { world.session id with outbox := ((world.session id).outbox.flush buffer offset limit).1 }
  | outboxClose id => world.put id { world.session id with outbox := (world.session id).outbox.close }
  | addObserver observer => world.addObserver observer
  | hostOpen => world.openSession.1
  | hostReceive id chunk => world.takeIn id chunk
  | hostEnqueue id payload => (world.hostEnqueue id payload).1
  | startLoop now => (world.startLoop now).1
  | transition _ _ | tick _ | disconnect _ _ _ | dispatch _ _ | hostReport _ _ | hostTick _ | hostFlushAll _
  | hostDisconnect _ _ _ | hostShutdown _ | wakeLoop _ _ _ => world

/-- What a call does at once to the session with this id, if new sessions have this configuration: nothing, unless the
call is about that session. -/
inductive Session.Primed (id : SessionId) (config : SessionConfig) (session : Session A.Identity) :
    Call A → Session A.Identity → Prop where
  | still (call : Call A) : Primed id config session call session
  | start : Primed id config session .hostOpen (.start id config)
  | authenticate (identity : Option A.Identity) :
      Primed id config session (.authenticate id identity) (session.authenticate identity).1
  | enqueue (payload : Payload) : Primed id config session (.enqueue id payload) (session.enqueue payload).1
  | hostEnqueue (payload : Payload) : Primed id config session (.hostEnqueue id payload) (session.enqueue payload).1
  | receive (chunk : List UInt8) : Primed id config session (.receive id chunk) (session.receive chunk).1
  | hostReceive (chunk : List UInt8) : Primed id config session (.hostReceive id chunk) (session.receive chunk).1
  | outboxEnqueue (payload : Payload) :
      Primed id config session (.outboxEnqueue id payload)
        { session with outbox := (session.outbox.enqueue payload).1 }
  | outboxFlush (buffer : List UInt8) (offset : Nat) (limit : Limit) :
      Primed id config session (.outboxFlush id buffer offset limit)
        { session with outbox := (session.outbox.flush buffer offset limit).1 }
  | outboxClose : Primed id config session (.outboxClose id) { session with outbox := session.outbox.close }

theorem Call.primes_primed (world : World A) (id : SessionId) (call : Call A) :
    (world.session id).Primed id world.config.session call ((call.primes world).session id) := by
  have hput : ∀ (other : SessionId) (next : Session A.Identity),
      (other = id → (world.session id).Primed id world.config.session call next) →
      (world.session id).Primed id world.config.session call ((world.put other next).session id) := by
    intro other next hnext
    by_cases hother : other = id
    · rw [hother, World.session_put_self]
      exact hnext hother
    · rw [World.session_put_of_ne _ _ hother]
      exact .still call
  cases call with
  | authenticate other identity =>
    refine hput other _ fun hother => ?_
    rw [hother]
    exact .authenticate identity
  | enqueue other payload =>
    refine hput other _ fun hother => ?_
    rw [hother]
    exact .enqueue payload
  | receive other chunk =>
    refine hput other _ fun hother => ?_
    rw [hother]
    exact .receive chunk
  | outboxEnqueue other payload =>
    refine hput other _ fun hother => ?_
    rw [hother]
    exact .outboxEnqueue payload
  | outboxFlush other buffer offset limit =>
    refine hput other _ fun hother => ?_
    rw [hother]
    exact .outboxFlush buffer offset limit
  | outboxClose other =>
    refine hput other _ fun hother => ?_
    rw [hother]
    exact .outboxClose
  | hostOpen =>
    rw [primes, World.openSession]
    split
    · exact .still _
    · split
      · exact .still _
      · refine hput _ _ fun hnew => ?_
        rw [hnew]
        exact .start
  | hostReceive other chunk =>
    rw [primes, World.takeIn]
    split
    · refine hput other _ fun hother => ?_
      rw [hother]
      exact .hostReceive chunk
    · exact .still _
  | hostEnqueue other payload =>
    rw [primes, World.hostEnqueue]
    split
    · refine hput other _ fun hother => ?_
      rw [hother]
      exact .hostEnqueue payload
    · exact .still _
  | _ => exact .still _

theorem Call.config_primes (world : World A) (call : Call A) : (call.primes world).config = world.config := by
  cases call with
  | hostOpen =>
    rw [primes, World.openSession]
    split
    · rfl
    · split <;> rfl
  | hostReceive other chunk =>
    rw [primes, World.takeIn]
    split <;> rfl
  | hostEnqueue other payload =>
    rw [primes, World.hostEnqueue]
    split <;> rfl
  | _ => rfl

/-- Payloads are delivered to the session in the course of the call. -/
def Call.DeliversTo (id : SessionId) : Call A → Prop
  | dispatch other _ | hostReceive other _ => other = id
  | _ => False

/-- Payloads are delivered to the session in the course of what is left of a call. -/
def Suspended.DeliversTo (id : SessionId) : Suspended A → Prop
  | arrival rest => rest.IsFor id
  | _ => False

theorem Activity.Delivers.upkeep {id : SessionId} {world : World A} {activity : Activity A (Arrival A) Nat}
    {counted ahead : Nat} (h : activity.Delivers id world counted ahead) :
    ∃ n, world.Upkeep (List.replicate n id) activity.world := ⟨h.choose, h.choose_spec.1⟩

theorem Call.world_wrap (first : Activity A κ α) (within : κ → Suspended A) (answer : α → Answer) :
    (wrap first within answer).world = first.world := first.world_andThen within fun _ _ => rfl

/-- **A call is what it does at once, followed by upkeep**, up to its end or its first call of outside code. -/
theorem Call.begin_upkeep (world : World A) (call : Call A) :
    ∃ handled, (call.primes world).Upkeep handled (call.begin world).world ∧ ∀ id ∈ handled, call.DeliversTo id := by
  have hnothing : ∀ {next : World A}, (call.primes world).Upkeep [] next →
      ∃ handled, (call.primes world).Upkeep handled next ∧ ∀ id ∈ handled, call.DeliversTo id :=
    fun hupkeep => ⟨[], hupkeep, fun _ hmem => absurd hmem List.not_mem_nil⟩
  cases call with
  | transition id target =>
    rw [begin, world_wrap]
    exact hnothing (world.transition_upkeep id target)
  | tick id =>
    rw [begin, world_wrap]
    exact hnothing (world.tick_upkeep id)
  | disconnect id reason flushFirst =>
    rw [begin, world_wrap]
    exact hnothing (world.disconnect_upkeep id reason flushFirst)
  | dispatch id payload =>
    rw [begin, world_wrap]
    exact ⟨_, (world.dispatch_upkeep id payload).1, fun other hmem => (List.eq_of_mem_replicate hmem).symm⟩
  | hostReport id state =>
    rw [begin, world_wrap]
    exact hnothing (world.report_upkeep id state)
  | hostReceive id chunk =>
    obtain ⟨n, hupkeep⟩ := (world.hostReceive_delivers id chunk).upkeep
    rw [begin, world_wrap]
    exact ⟨_, hupkeep, fun other hmem => (List.eq_of_mem_replicate hmem).symm⟩
  | hostTick id =>
    rw [begin, world_wrap]
    exact hnothing (world.hostTick_upkeep id)
  | hostFlushAll _ =>
    rw [begin, world_wrap]
    exact hnothing (World.sweep_upkeep _ world _)
  | hostDisconnect id reason flushFirst =>
    by_cases htracks : world.tracks id = true
    · rw [begin, if_pos htracks, world_wrap]
      exact hnothing (world.disconnect_upkeep id reason flushFirst)
    · rw [begin, if_neg htracks]
      exact hnothing (.none world)
  | hostShutdown order =>
    rw [begin, world_wrap]
    exact hnothing (world.shutdown_upkeep order)
  | wakeLoop number now order =>
    rw [begin, world_wrap]
    exact hnothing (world.wakeLoop_upkeep number now order)
  | _ => exact hnothing (.none _)

/-- **What follows a return from outside code is upkeep**, up to the end of the call or its next call of outside
code. -/
theorem Suspended.resume_upkeep (world : World A) (reply : Reply) (rest : Suspended A) :
    ∃ handled, world.Upkeep handled (rest.resume world reply).world ∧
      ∀ id, rest.DeliversTo id ∨ id ∉ handled := by
  have hnothing : ∀ {next : World A}, world.Upkeep [] next →
      ∃ handled, world.Upkeep handled next ∧ ∀ id, rest.DeliversTo id ∨ id ∉ handled :=
    fun hupkeep => ⟨[], hupkeep, fun _ => .inr List.not_mem_nil⟩
  cases rest with
  | transition rest =>
    rw [resume, Call.world_wrap]
    exact hnothing (world.resumeTransition_upkeep rest)
  | tick rest =>
    rw [resume, Call.world_wrap]
    exact hnothing (world.resumeFlush_upkeep rest reply)
  | disconnect rest =>
    rw [resume, Call.world_wrap]
    exact hnothing (world.resumeDisconnect_upkeep reply rest)
  | dispatch rest =>
    rw [resume, Call.world_wrap]
    exact hnothing (world.resumeDelivery_upkeep reply rest).1
  | report rest =>
    rw [resume, Call.world_wrap]
    exact hnothing (world.resumeReport_upkeep rest)
  | arrival rest =>
    rw [resume, Call.world_wrap]
    cases rest with
    | delivering other handled rest current =>
      have hfor : (Arrival.delivering other handled rest current).IsFor other := rfl
      obtain ⟨n, hupkeep⟩ := (world.resumeArrival_delivers reply hfor).upkeep
      refine ⟨_, hupkeep, fun id => ?_⟩
      by_cases hother : other = id
      · exact .inl hother
      · exact .inr fun hmem => hother (List.eq_of_mem_replicate hmem).symm
    | malformed rest =>
      exact hnothing ((world.resumeDisconnect_upkeep reply rest).andThen fun world _ => .none world)
  | hostTick rest =>
    rw [resume, Call.world_wrap]
    exact hnothing (world.resumeHostFlush_upkeep reply rest)
  | sweep rest =>
    rw [resume, Call.world_wrap]
    exact hnothing (world.resumeSweep_upkeep reply rest)
  | shutdown rest =>
    rw [resume, Call.world_wrap]
    exact hnothing (world.resumeShutdown_upkeep reply rest)
  | loop number rest =>
    rw [resume, Call.world_wrap]
    exact hnothing (world.resumeTick_upkeep reply number rest)

/-- What a move does at once: outside code calls the library, or returns to it. -/
def Move.primes (world : World A) : Move A → World A
  | .call made => made.primes world
  | .reply _ => world

namespace Machine

/-- **A move is what it does at once, followed by upkeep.** -/
theorem move_upkeep {machine next : Machine A} {move : Move A} {event : Event A}
    (h : machine.move move = some (next, event)) :
    ∃ handled, (move.primes machine.world).Upkeep handled next.world := by
  cases move with
  | call call =>
    obtain ⟨-, signal, -, hsettle⟩ := of_move_call h
    obtain ⟨handled, hupkeep, -⟩ := call.begin_upkeep machine.world
    rw [world_settle hsettle]
    exact ⟨handled, hupkeep⟩
  | reply reply =>
    obtain ⟨innermost, outer, signal, -, -, hsettle⟩ := of_move_reply h
    obtain ⟨handled, hupkeep, -⟩ := innermost.rest.resume_upkeep machine.world reply
    rw [world_settle hsettle]
    exact ⟨handled, hupkeep⟩

end Machine

end FramedLink
