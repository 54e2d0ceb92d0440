import FramedLink.Machine
/-!
# What a call on one session reads and changes

A call on a session, and whatever is left of it, reads of the world this session, the observers and whether the host
tracks the session, and changes nothing but the session and whether it is tracked.  So in two worlds that share the
session it does the same, whatever else they hold, and leaves everything else as it was (`Twin`).  There is one
statement for each function that makes an activity or goes on with one.

Main statements: a call that is addressed to a session (`Abreast.begin`), and what is left of it (`Abreast.resume`).
-/
namespace FramedLink

variable {A : Application} {κ κ' α β : Type}

/-! ## Whose an activity is -/

def Transition.isOf (id : SessionId) : Transition A → Prop
  | telling other _ _ _ | parting other _ _ => other = id

def Disconnect.isOf (id : SessionId) : Disconnect A → Prop
  | flushing other _ rest => other = id ∧ rest.id = id
  | leaving other _ rest => other = id ∧ rest.isOf id
  | closing => True

def HostFlush.isOf (id : SessionId) : HostFlush A → Prop
  | flushing other rest => other = id ∧ rest.id = id
  | failing rest => rest.isOf id

def Delivery.isOf (id : SessionId) : Delivery A → Prop
  | handling other _ _ _ => other = id
  | rejecting _ rest | ending _ rest => rest.isOf id

def Arrival.isOf (id : SessionId) : Arrival A → Prop
  | delivering other _ _ current => other = id ∧ current.isOf id
  | malformed rest => rest.isOf id

/-- What is left of a call that was made on one session. -/
def Suspended.isOf (id : SessionId) : Suspended A → Prop
  | transition rest => rest.isOf id
  | tick rest => rest.id = id
  | disconnect rest => rest.isOf id
  | dispatch rest => rest.isOf id
  | report rest => rest.id = id ∧ rest.rest.isOf id
  | arrival rest => rest.isOf id
  | hostTick rest => rest.isOf id
  | sweep _ | shutdown _ | loop _ _ => False

/-- The session that a call is addressed to, directly or through the host. -/
def Call.addressee? : Call A → Option SessionId
  | transition id _ | authenticate id _ | enqueue id _ | tick id | receive id _ | disconnect id _ _ | dispatch id _
  | outboxEnqueue id _ | outboxFlush id _ _ _ | outboxClose id | hostReport id _ | hostReceive id _ | hostEnqueue id _
  | hostTick id | hostDisconnect id _ _ => some id
  | addObserver _ | hostOpen | hostFlushAll _ | hostShutdown _ | startLoop _ | wakeLoop _ _ _ => none

/-! ## Worlds -/

namespace World

/-- Two worlds that hold the same of a session. -/
structure Shares (id : SessionId) (world world' : World A) : Prop where
  session : world'.session id = world.session id
  knows : world'.knows id = world.knows id
  tracks : world'.tracks id = world.tracks id
  observers : world'.observers = world.observers

/-- Two worlds that differ in one session at most. -/
structure Beside (id : SessionId) (start world : World A) : Prop where
  session : ∀ other, other ≠ id → world.session other = start.session other
  knows : ∀ other, other ≠ id → world.knows other = start.knows other
  tracked : world.tracked = start.tracked ∨ world.tracked = start.tracked.filter (· ≠ id)
  observers : world.observers = start.observers
  isShutDown : world.isShutDown = start.isShutDown
  config : world.config = start.config

variable {id other : SessionId} {start start' world middle world' : World A}

theorem Shares.refl (world : World A) : world.Shares id world := ⟨rfl, rfl, rfl, rfl⟩

theorem Shares.symm (h : world.Shares id world') : world'.Shares id world :=
  ⟨h.session.symm, h.knows.symm, h.tracks.symm, h.observers.symm⟩

theorem Shares.trans (h : world.Shares id middle) (h' : middle.Shares id world') : world.Shares id world' :=
  ⟨h'.session.trans h.session, h'.knows.trans h.knows, h'.tracks.trans h.tracks, h'.observers.trans h.observers⟩

theorem Beside.refl (world : World A) : world.Beside id world :=
  ⟨fun _ _ => rfl, fun _ _ => rfl, .inl rfl, rfl, rfl, rfl⟩

theorem Beside.trans (h : start.Beside id middle) (h' : middle.Beside id world) : start.Beside id world := by
  refine ⟨fun other hother => (h'.session other hother).trans (h.session other hother),
    fun other hother => (h'.knows other hother).trans (h.knows other hother), ?_, h'.observers.trans h.observers,
    h'.isShutDown.trans h.isShutDown, h'.config.trans h.config⟩
  rcases h.tracked with hmiddle | hmiddle <;> rcases h'.tracked with hlast | hlast <;> rw [hlast, hmiddle]
  · exact .inl rfl
  · exact .inr rfl
  · exact .inr rfl
  · rw [List.filter_filter]
    exact .inr (by simp only [Bool.and_self])

theorem Beside.tracks (h : start.Beside id world) (hother : other ≠ id) : world.tracks other = start.tracks other := by
  unfold World.tracks
  rcases h.tracked with heq | heq
  · rw [heq]
  · rw [heq, Bool.eq_iff_iff]
    simp [hother]

theorem Beside.sublist (h : start.Beside id world) : world.tracked.Sublist start.tracked := by
  rcases h.tracked with heq | heq
  · exact heq ▸ .refl world.tracked
  · exact heq ▸ List.filter_sublist

/-- What is done beside a session does not touch it. -/
theorem Beside.shares (h : start.Beside id world) (hother : other ≠ id) : start.Shares other world :=
  ⟨h.session other hother, h.knows other hother, h.tracks hother, h.observers⟩

/-- Two worlds that share a session, each come from another by changing nothing else. -/
structure Abreast (id : SessionId) (start start' world world' : World A) : Prop where
  shares : world.Shares id world'
  beside : start.Beside id world
  beside' : start'.Beside id world'

namespace Abreast

theorem put (h : Abreast id start start' world world') (session : Session A.Identity) :
    Abreast id start start' (world.put id session) (world'.put id session) := by
  have hbeside (world : World A) : world.Beside id (world.put id session) :=
    ⟨fun other hother => session_put_of_ne world session hother.symm,
      fun other hother => knows_put_of_ne world session hother.symm, .inl rfl, rfl, rfl, rfl⟩
  refine ⟨⟨?_, ?_, h.shares.tracks, h.shares.observers⟩, h.beside.trans (hbeside world),
    h.beside'.trans (hbeside world')⟩
  · rw [session_put_self, session_put_self]
  · rw [knows_put_self, knows_put_self]

theorem modify (h : Abreast id start start' world world') (f : Session A.Identity → Session A.Identity) :
    Abreast id start start' (world.modify id f) (world'.modify id f) := by
  rw [World.modify, World.modify, h.shares.session]
  exact h.put _

theorem forget (h : Abreast id start start' world world') :
    Abreast id start start' (world.forget id) (world'.forget id) := by
  have hbeside (world : World A) : world.Beside id (world.forget id) :=
    ⟨fun _ _ => rfl, fun _ _ => rfl, .inr rfl, rfl, rfl, rfl⟩
  have hnone (world : World A) : (world.forget id).tracks id = false := by
    simp [World.tracks, World.forget]
  refine ⟨⟨h.shares.session, h.shares.knows, ?_, h.shares.observers⟩, h.beside.trans (hbeside world),
    h.beside'.trans (hbeside world')⟩
  rw [hnone, hnone]

end Abreast

end World

/-! ## Activities -/

open World (Abreast)

/-- Two activities on a session have come equally far, in worlds that share it, and what they ask and leave for later is
about this session. -/
structure Twin (id : SessionId) (start start' : World A) (isOf : κ → Prop) (activity activity' : Activity A κ α) :
    Prop where
  abreast : Abreast id start start' activity.world activity'.world
  progress : activity'.progress = activity.progress
  own : ∀ query rest, activity.progress = .asks query rest → query.session = id ∧ isOf rest

section Twins

variable {id : SessionId} {start start' world world' : World A} {isOf : κ → Prop} {isOf' : κ' → Prop}
  {activity activity' : Activity A κ α}

theorem twin_finish (h : Abreast id start start' world world') (result : α) :
    Twin id start start' isOf (.finish world result) (.finish world' result) :=
  ⟨h, rfl, fun _ _ hasks => by cases hasks⟩

theorem twin_ask (h : Abreast id start start' world world') {query : Query A} {rest : κ} (hquery : query.session = id)
    (hrest : isOf rest) : Twin id start start' isOf (.ask world query rest : Activity A κ α) (.ask world' query rest) :=
  ⟨h, rfl, fun _ _ hasks => by cases hasks; exact ⟨hquery, hrest⟩⟩

theorem twin_stuck (h : Abreast id start start' world world') :
    Twin id start start' isOf (⟨world, .stuck⟩ : Activity A κ α) ⟨world', .stuck⟩ :=
  ⟨h, rfl, fun _ _ hasks => by cases hasks⟩

/-- **First activities that are twins, followed by twins**, are twins. -/
theorem Twin.andThen (h : Twin id start start' isOf activity activity') {within : κ → κ'}
    {next : World A → α → Activity A κ' β} (hwithin : ∀ rest, isOf rest → isOf' (within rest))
    (hnext : ∀ {world world'} result, Abreast id start start' world world' →
      Twin id start start' isOf' (next world result) (next world' result)) :
    Twin id start start' isOf' (activity.andThen within next) (activity'.andThen within next) := by
  unfold Activity.andThen
  rw [h.progress]
  split
  · rename_i result _
    exact hnext result h.abreast
  · rename_i query rest hasks
    obtain ⟨hquery, hrest⟩ := h.own query rest hasks
    exact twin_ask h.abreast hquery (hwithin rest hrest)
  · exact twin_stuck h.abreast

end Twins

namespace World.Abreast

variable {id : SessionId} {start start' world world' : World A}

theorem bidFarewell (h : Abreast id start start' world world') (reason : DisconnectReason) :
    ∀ observers, Twin id start start' (Transition.isOf id) (world.bidFarewell id reason observers)
      (world'.bidFarewell id reason observers)
  | [] => twin_finish h _
  | _ :: _ => twin_ask h rfl rfl

theorem tell (h : Abreast id start start' world world') (source target : ConnectionState) :
    ∀ observers, Twin id start start' (Transition.isOf id) (world.tell id source target observers)
      (world'.tell id source target observers)
  | [] => by
    by_cases htarget : target = .disconnected
    · rw [World.tell, World.tell, if_pos htarget, if_pos htarget]
      have hnext := h.modify (·.noteReason .transportClosed)
      simp only [hnext.shares.observers, hnext.shares.session]
      exact hnext.bidFarewell _ _
    · rw [World.tell, World.tell, if_neg htarget, if_neg htarget]
      exact twin_finish h _
  | _ :: _ => twin_ask h rfl rfl

theorem transition (h : Abreast id start start' world world') (target : ConnectionState) :
    Twin id start start' (Transition.isOf id) (world.transition id target) (world'.transition id target) := by
  have hnext := h.put ((world.session id).enter target)
  unfold World.transition
  simp only [h.shares.session, hnext.shares.observers]
  split
  · exact twin_finish h _
  · split
    · exact twin_finish h _
    · exact hnext.tell _ target _

theorem resumeTransition (h : Abreast id start start' world world') {rest : Transition A} (hown : rest.isOf id) :
    Twin id start start' (Transition.isOf id) (rest.resume world) (rest.resume world') := by
  cases rest with
  | telling other source target rest =>
    obtain rfl : other = id := hown
    exact h.tell source target rest
  | parting other reason rest =>
    obtain rfl : other = id := hown
    exact h.bidFarewell reason rest

theorem endFlush (h : Abreast id start start' world world') (result : Except FlushError TickSummary) :
    Twin id start start' (fun flush => flush.id = id) (world.endFlush id result) (world'.endFlush id result) :=
  twin_finish (h.modify _) result

theorem pump (h : Abreast id start start' world world') (limit : Limit) (summary : TickSummary) :
    Twin id start start' (fun flush => flush.id = id) (world.pump id limit summary) (world'.pump id limit summary) := by
  unfold World.pump
  simp only [h.shares.session]
  split
  · exact h.endFlush _
  · have hnext := h.put { world.session id with
      outbox := ((world.session id).outbox.drain (world.session id).config.transmitBufferSize limit).1 }
    split
    · exact hnext.endFlush _
    · split
      · exact hnext.endFlush _
      · exact twin_ask hnext rfl rfl

theorem beginFlush (h : Abreast id start start' world world') (limit : Limit) :
    Twin id start start' (fun flush => flush.id = id) (world.beginFlush id limit) (world'.beginFlush id limit) := by
  unfold World.beginFlush
  rw [h.shares.session]
  split
  · exact (h.modify _).pump limit {}
  · exact twin_finish h _

theorem tick (h : Abreast id start start' world world') :
    Twin id start start' (fun flush => flush.id = id) (world.tick id) (world'.tick id) := by
  unfold World.tick
  rw [h.shares.session]
  split
  · exact twin_finish h _
  · exact h.beginFlush _

theorem flushFully (h : Abreast id start start' world world') :
    Twin id start start' (fun flush => flush.id = id) (world.flushFully id) (world'.flushFully id) := by
  unfold World.flushFully
  rw [h.shares.session]
  split
  · exact twin_stuck h
  · exact h.beginFlush none

theorem resumeFlush (h : Abreast id start start' world world') {flush : Flush} (hown : flush.id = id) (reply : Reply) :
    Twin id start start' (fun flush => flush.id = id) (flush.resume world reply) (flush.resume world' reply) := by
  subst hown
  have htaken : Twin flush.id start start' (fun other => other.id = flush.id) (flush.resume world .done)
      (flush.resume world' .done) := by
    have hnext := h.modify (·.countTransmitted flush.output.bytes.length)
    simp only [Flush.resume, hnext.shares.session]
    split
    · exact hnext.endFlush _
    · exact hnext.pump _ _
  cases reply with
  | failed failure => exact h.endFlush _
  | done => exact htaken
  | endSession graceful => exact htaken

theorem closeTransport (h : Abreast id start start' world world') (reason : DisconnectReason) :
    ∀ moved, Twin id start start' (Disconnect.isOf id) (world.closeTransport id reason moved)
      (world'.closeTransport id reason moved)
  | .ok true => by
    rw [World.closeTransport, World.closeTransport, h.shares.session]
    exact twin_ask h rfl True.intro
  | .ok false | .error _ => twin_finish h ()

theorem leave (h : Abreast id start start' world world') (reason : DisconnectReason) :
    Twin id start start' (Disconnect.isOf id) (world.leave id reason) (world'.leave id reason) :=
  (h.transition .disconnecting).andThen (fun _ hown => ⟨rfl, hown⟩) fun moved hnext => hnext.closeTransport reason moved

theorem disconnect (h : Abreast id start start' world world') (reason : DisconnectReason) (flushFirst : Bool) :
    Twin id start start' (Disconnect.isOf id) (world.disconnect id reason flushFirst)
      (world'.disconnect id reason flushFirst) := by
  have hnext := h.modify (·.noteReason reason)
  unfold World.disconnect
  simp only [h.shares.session]
  split
  · exact twin_finish h ()
  · split
    · exact hnext.flushFully.andThen (fun _ hown => ⟨rfl, hown⟩) fun _ hflushed => hflushed.leave reason
    · exact hnext.leave reason

theorem resumeDisconnect (h : Abreast id start start' world world') (reply : Reply) {rest : Disconnect A}
    (hown : rest.isOf id) :
    Twin id start start' (Disconnect.isOf id) (rest.resume world reply) (rest.resume world' reply) := by
  cases rest with
  | flushing other reason rest =>
    obtain ⟨rfl, hflush⟩ := hown
    exact (h.resumeFlush hflush reply).andThen (fun _ hown => ⟨rfl, hown⟩) fun _ hflushed => hflushed.leave reason
  | leaving other reason rest =>
    obtain ⟨rfl, hrest⟩ := hown
    exact (h.resumeTransition hrest).andThen (fun _ hown => ⟨rfl, hown⟩) fun moved hnext =>
      hnext.closeTransport reason moved
  | closing => exact twin_finish h ()

/-! ## Hosts -/

theorem settleFlush (h : Abreast id start start' world world') :
    ∀ result, Twin id start start' (HostFlush.isOf id) (world.settleFlush id result) (world'.settleFlush id result)
  | .ok summary => twin_finish h summary
  | .error e => by
    rw [World.settleFlush, World.settleFlush]
    exact (h.disconnect e.reason false).andThen (fun _ hown => hown) fun _ hnext => twin_finish hnext _

theorem flushSession (h : Abreast id start start' world world') :
    Twin id start start' (HostFlush.isOf id) (world.flushSession id) (world'.flushSession id) :=
  h.tick.andThen (fun _ hown => ⟨rfl, hown⟩) fun result hnext => hnext.settleFlush result

theorem hostTick (h : Abreast id start start' world world') :
    Twin id start start' (HostFlush.isOf id) (world.hostTick id) (world'.hostTick id) := by
  unfold World.hostTick
  rw [h.shares.tracks]
  split
  · exact h.flushSession
  · exact twin_finish h _

theorem resumeHostFlush (h : Abreast id start start' world world') (reply : Reply) {rest : HostFlush A}
    (hown : rest.isOf id) :
    Twin id start start' (HostFlush.isOf id) (rest.resume world reply) (rest.resume world' reply) := by
  cases rest with
  | flushing other rest =>
    obtain ⟨rfl, hflush⟩ := hown
    exact (h.resumeFlush hflush reply).andThen (fun _ hown => ⟨rfl, hown⟩) fun result hnext => hnext.settleFlush result
  | failing rest =>
    rw [HostFlush.resume, HostFlush.resume]
    exact (h.resumeDisconnect reply hown).andThen (fun _ hown => hown) fun _ hnext => twin_finish hnext _

theorem settleReport (h : Abreast id start start' world world') (state : ConnectionState) :
    ∀ moved, Twin id start start' (fun report => report.id = id ∧ report.rest.isOf id)
      (world.settleReport id state moved) (world'.settleReport id state moved)
  | .error e => twin_finish h _
  | .ok _ => by
    rw [World.settleReport, World.settleReport]
    by_cases hgone : state = .disconnected
    · rw [if_pos hgone, if_pos hgone]
      exact twin_finish h.forget _
    · rw [if_neg hgone, if_neg hgone]
      exact twin_finish h _

theorem report (h : Abreast id start start' world world') (state : ConnectionState) :
    Twin id start start' (fun report => report.id = id ∧ report.rest.isOf id) (world.report id state)
      (world'.report id state) := by
  unfold World.report
  rw [h.shares.tracks]
  split
  · exact (h.transition state).andThen (fun _ hown => ⟨rfl, hown⟩) fun moved hnext => hnext.settleReport state moved
  · exact twin_finish h _

theorem resumeReport (h : Abreast id start start' world world') {report : Report A}
    (hown : report.id = id ∧ report.rest.isOf id) :
    Twin id start start' (fun report => report.id = id ∧ report.rest.isOf id) (report.resume world)
      (report.resume world') := by
  obtain ⟨rfl, hrest⟩ := hown
  exact (h.resumeTransition hrest).andThen (fun _ hown => ⟨rfl, hown⟩) fun moved hnext => hnext.settleReport _ moved

/-! ## Deliveries -/

theorem callHandlers (h : Abreast id start start' world world') (message : A.Message) (called : Nat) :
    ∀ handlers, Twin id start start' (Delivery.isOf id) (world.callHandlers id message called handlers)
      (world'.callHandlers id message called handlers)
  | [] => twin_finish h _
  | _ :: _ => twin_ask h rfl rfl

theorem rejectPayload (h : Abreast id start start' world world') (reason : DisconnectReason) :
    Twin id start start' (Delivery.isOf id) (world.rejectPayload id reason) (world'.rejectPayload id reason) :=
  (h.disconnect reason false).andThen (fun _ hown => hown) fun _ hnext => twin_finish hnext _

theorem dispatch (h : Abreast id start start' world world') (payload : Payload) :
    Twin id start start' (Delivery.isOf id) (world.dispatch id payload) (world'.dispatch id payload) := by
  unfold World.dispatch
  simp only [h.shares.session]
  split
  · exact twin_finish h _
  · split
    · exact h.rejectPayload _
    · split
      · exact twin_finish h _
      · split
        · exact h.rejectPayload _
        · exact (h.put _).callHandlers _ 0 _

theorem resumeDelivery (h : Abreast id start start' world world') (reply : Reply) {rest : Delivery A}
    (hown : rest.isOf id) :
    Twin id start start' (Delivery.isOf id) (rest.resume world reply) (rest.resume world' reply) := by
  cases rest with
  | handling other message called rest =>
    obtain rfl : other = id := hown
    cases reply with
    | endSession graceful =>
      rw [Delivery.resume, Delivery.resume]
      exact (h.disconnect .requested graceful).andThen (fun _ hown => hown) fun _ hnext => twin_finish hnext _
    | done => exact h.callHandlers message called rest
    | failed failure => exact h.callHandlers message called rest
  | rejecting reason rest =>
    rw [Delivery.resume, Delivery.resume]
    exact (h.resumeDisconnect reply hown).andThen (fun _ hown => hown) fun _ hnext => twin_finish hnext _
  | ending called rest =>
    rw [Delivery.resume, Delivery.resume]
    exact (h.resumeDisconnect reply hown).andThen (fun _ hown => hown) fun _ hnext => twin_finish hnext _

theorem deliverAll : ∀ (payloads : List Payload) {world world' : World A}, Abreast id start start' world world' →
    ∀ handled : Nat, Twin id start start' (Arrival.isOf id) (world.deliverAll id handled payloads)
      (world'.deliverAll id handled payloads)
  | [], _, _, h, handled => twin_finish h handled
  | payload :: rest, world, world', h, handled => by
    unfold World.deliverAll
    rw [h.shares.session]
    split
    · exact (h.dispatch payload).andThen (fun _ hown => ⟨rfl, hown⟩) fun _ hnext => deliverAll rest hnext _
    · exact twin_finish h handled

theorem hostReceive (h : Abreast id start start' world world') (chunk : List UInt8) :
    Twin id start start' (Arrival.isOf id) (world.hostReceive id chunk) (world'.hostReceive id chunk) := by
  unfold World.hostReceive
  simp only [h.shares.tracks, h.shares.session]
  split
  · have hnext := h.put ((world.session id).receive chunk).1
    split
    · exact (hnext.disconnect .malformedData false).andThen (fun _ hown => hown) fun _ hended => twin_finish hended 0
    · exact deliverAll _ hnext 0
  · exact twin_finish h 0

theorem resumeArrival (h : Abreast id start start' world world') (reply : Reply) {rest : Arrival A}
    (hown : rest.isOf id) :
    Twin id start start' (Arrival.isOf id) (rest.resume world reply) (rest.resume world' reply) := by
  cases rest with
  | delivering other handled rest current =>
    obtain ⟨rfl, hcurrent⟩ := hown
    unfold Arrival.resume
    exact (h.resumeDelivery reply hcurrent).andThen (fun _ hown => ⟨rfl, hown⟩) fun _ hnext => deliverAll rest hnext _
  | malformed rest =>
    rw [Arrival.resume, Arrival.resume]
    exact (h.resumeDisconnect reply hown).andThen (fun _ hown => hown) fun _ hnext => twin_finish hnext 0

/-! ## Calls -/

theorem wrap {activity activity' : Activity A κ α} {isOf : κ → Prop} {within : κ → Suspended A} {answer : α → Answer}
    (h : Twin id start start' isOf activity activity') (hwithin : ∀ rest, isOf rest → (within rest).isOf id) :
    Twin id start start' (Suspended.isOf id) (Call.wrap activity within answer) (Call.wrap activity' within answer) :=
  h.andThen hwithin fun _ hnext => twin_finish hnext _

/-- **A call that is addressed to a session** does the same in worlds that share it. -/
theorem begin (h : Abreast id start start' world world') {call : Call A} (hcall : call.addressee? = some id) :
    Twin id start start' (Suspended.isOf id) (call.begin world) (call.begin world') := by
  cases call with
  | addObserver _ | hostOpen | hostFlushAll _ | hostShutdown _ | startLoop _ | wakeLoop _ _ _ => cases hcall
  | transition _ target => cases hcall; exact wrap (h.transition target) fun _ hown => hown
  | tick _ => cases hcall; exact wrap h.tick fun _ hown => hown
  | disconnect _ reason flushFirst => cases hcall; exact wrap (h.disconnect reason flushFirst) fun _ hown => hown
  | dispatch _ payload => cases hcall; exact wrap (h.dispatch payload) fun _ hown => hown
  | hostReport _ state => cases hcall; exact wrap (h.report state) fun _ hown => hown
  | hostReceive _ chunk => cases hcall; exact wrap (h.hostReceive chunk) fun _ hown => hown
  | hostTick _ => cases hcall; exact wrap h.hostTick fun _ hown => hown
  | hostDisconnect _ reason flushFirst =>
    cases hcall
    simp only [Call.begin, h.shares.tracks]
    split
    · exact wrap (h.disconnect reason flushFirst) fun _ hown => hown
    · exact twin_finish h _
  | hostEnqueue _ payload =>
    cases hcall
    simp only [Call.begin, World.hostEnqueue, h.shares.tracks, h.shares.session]
    split
    · exact twin_finish (h.put _) _
    · exact twin_finish h _
  | authenticate _ _ | enqueue _ _ | receive _ _ | outboxEnqueue _ _ | outboxFlush _ _ _ _ =>
    cases hcall
    simp only [Call.begin, h.shares.session]
    exact twin_finish (h.put _) _
  | outboxClose _ => cases hcall; exact twin_finish (h.modify _) _

/-- **What is left of such a call** goes on the same in worlds that share the session. -/
theorem resume (h : Abreast id start start' world world') (reply : Reply) {rest : Suspended A} (hown : rest.isOf id) :
    Twin id start start' (Suspended.isOf id) (rest.resume world reply) (rest.resume world' reply) := by
  cases rest with
  | transition rest => exact wrap (h.resumeTransition hown) fun _ hown => hown
  | tick rest => exact wrap (h.resumeFlush hown reply) fun _ hown => hown
  | disconnect rest => exact wrap (h.resumeDisconnect reply hown) fun _ hown => hown
  | dispatch rest => exact wrap (h.resumeDelivery reply hown) fun _ hown => hown
  | report rest => exact wrap (h.resumeReport hown) fun _ hown => hown
  | arrival rest => exact wrap (h.resumeArrival reply hown) fun _ hown => hown
  | hostTick rest => exact wrap (h.resumeHostFlush reply hown) fun _ hown => hown
  | sweep _ | shutdown _ | loop _ _ => exact hown.elim

end World.Abreast

end FramedLink
