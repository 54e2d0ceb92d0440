import FramedLink.Proofs.Outbox.Accounting
import FramedLink.Proofs.Runs.Readings
import FramedLink.Proofs.Runs.Transmits
import FramedLink.Proofs.Session.FlushLaw
/-!
# What a configuration lets a session send

A configuration that a host accepts has a transmit buffer of at least one byte, completes at least one message a tick,
and holds a payload of the greatest length in an empty outbox.  So each tick completes as many of the pending frames as
it may, the charge of every frame comes back, and what the configuration allows is accepted once the outbox is empty and
is sent whole by the next tick.  The session may have come to this point by any run in which nobody but the session
itself takes payloads into the outbox, and nobody else closes it (`Session.Provided`).

Main statement: a configuration that was accepted sends every payload that it allows, and one whose outbox is too small
for its greatest payload never takes that payload in (`Machine.sends_all_it_allows`).
-/
namespace FramedLink

variable {A : Application} {ι : Type}

/-! ## Configurations -/

/-- Checks one after the other accept what each of them accepts. -/
theorem bind_eq_ok_iff (first next : Except ConfigError Unit) :
    (first >>= fun _ => next) = .ok () ↔ first = .ok () ∧ next = .ok () := by
  cases first with
  | error e =>
    refine ⟨fun h => ?_, fun h => ?_⟩
    · cases h
    · cases h.1
  | ok done => exact ⟨fun h => ⟨rfl, h⟩, fun h => h.2⟩

theorem nonZero_eq_ok_iff (field : String) (value : Nat) : nonZero field value = .ok () ↔ 1 ≤ value := by
  unfold nonZero
  by_cases hzero : value = 0
  · rw [if_pos hzero]
    refine ⟨fun h => ?_, fun h => ?_⟩
    · cases h
    · exact absurd hzero (Nat.one_le_iff_ne_zero.1 h)
  · rw [if_neg hzero]
    exact ⟨fun _ => Nat.one_le_iff_ne_zero.2 hzero, fun _ => rfl⟩

/-- **What a session's limits must be to be accepted.** -/
theorem SessionConfig.validate_eq_ok_iff (config : SessionConfig) :
    config.validate = .ok () ↔ 1 ≤ config.maxIndexedMemory ∧ 1 ≤ config.maxMessagesPerTick ∧
      1 ≤ config.transmitBufferSize ∧ config.maxMessageSize ≤ config.maxIndexedMemory := by
  have hlast : (if config.maxIndexedMemory < config.maxMessageSize then
      .error (.messageLargerThanQueue config.maxMessageSize config.maxIndexedMemory) else .ok () :
      Except ConfigError Unit) = .ok () ↔ config.maxMessageSize ≤ config.maxIndexedMemory := by
    by_cases hlarger : config.maxIndexedMemory < config.maxMessageSize
    · rw [if_pos hlarger]
      refine ⟨fun h => ?_, fun h => absurd hlarger (Nat.not_lt.2 h)⟩
      cases h
    · rw [if_neg hlarger]
      exact ⟨fun _ => Nat.not_lt.1 hlarger, fun _ => rfl⟩
  unfold validate
  rw [bind_eq_ok_iff, bind_eq_ok_iff, bind_eq_ok_iff, nonZero_eq_ok_iff, nonZero_eq_ok_iff, nonZero_eq_ok_iff, ← hlast]
  rfl

theorem World.validate_of_ofConfig {config : HostConfig} {world : World A} (h : World.ofConfig config = .ok world) :
    config.session.validate = .ok () := by
  unfold World.ofConfig at h
  cases hvalid : config.validate with
  | error e =>
    rw [hvalid] at h
    cases h
  | ok done =>
    rw [HostConfig.validate, bind_eq_ok_iff, bind_eq_ok_iff] at hvalid
    exact hvalid.2.2

/-! ## The cap of an outbox -/

namespace Outbox

theorem cap_packWaiting : ∀ (payloads : List Payload) (box : Outbox) (room : Nat) (limit : Limit),
    (box.packWaiting room limit payloads).box.cap = box.cap
  | [], _, _, _ => rfl
  | payload :: rest, box, room, limit => by
    unfold packWaiting
    split
    · rfl
    · split
      · rfl
      · exact cap_packWaiting rest _ _ _
      · rfl

theorem cap_pack (box : Outbox) (room : Nat) (limit : Limit) : (box.pack room limit).box.cap = box.cap := by
  unfold pack
  split
  · split
    · rfl
    · rfl
    · exact cap_packWaiting _ _ _ _
  · exact cap_packWaiting _ _ _ _

theorem cap_drain (box : Outbox) (room : Nat) (limit : Limit) : (box.drain room limit).1.cap = box.cap := by
  unfold drain
  split
  · rfl
  · rename_i lock _
    split
    · rfl
    · have hpack := cap_pack { box with lock } room limit
      dsimp only
      split
      · exact hpack
      · exact hpack

theorem cap_enqueue (box : Outbox) (payload : Payload) : (box.enqueue payload).1.cap = box.cap := by
  unfold enqueue
  split <;> rfl

theorem cap_flush (box : Outbox) (buffer : List UInt8) (offset : Nat) (limit : Limit) :
    (box.flush buffer offset limit).1.cap = box.cap := by
  unfold flush
  split
  · rfl
  · exact cap_drain box _ limit

theorem cap_close (box : Outbox) : box.close.cap = box.cap := by
  unfold close
  split <;> rfl

end Outbox

/-! ## The limits of a session -/

namespace Session

variable {session next : Session ι} {config : SessionConfig} {deeds : List Deed}

/-- The session has this configuration, and its outbox the cap of it. -/
structure Limited (config : SessionConfig) (session : Session ι) : Prop where
  configured : session.config = config
  cap : session.outbox.cap = config.maxIndexedMemory

theorem limited_start (id : SessionId) (config : SessionConfig) : (start id config : Session ι).Limited config :=
  ⟨rfl, rfl⟩

theorem Limited.withOutbox (h : session.Limited config) {box : Outbox} (hcap : box.cap = session.outbox.cap) :
    ({ session with outbox := box } : Session ι).Limited config := ⟨h.configured, hcap.trans h.cap⟩

/-- **No edit changes the limits of a session**, not even one past the session. -/
theorem Limited.edit (h : session.Limited config) (hedit : session.Edit deeds next) : next.Limited config := by
  cases hedit with
  | @enter target hedge =>
    unfold Session.enter
    split
    · exact ⟨h.configured, (session.outbox.cap_close).trans h.cap⟩
    · exact ⟨h.configured, h.cap⟩
  | authenticate identity =>
    rcases session.authenticate_cases identity with ⟨e, heq⟩ | ⟨-, -, heq⟩
    · rw [heq]
      exact h
    · rw [heq]
      exact ⟨h.configured, h.cap⟩
  | enqueue payload =>
    cases hanswer : (session.enqueue payload).2 with
    | false =>
      rw [enqueue_of_refused hanswer]
      exact h
    | true =>
      rw [(enqueue_of_accepted hanswer).2.2]
      exact h.withOutbox (session.outbox.cap_enqueue payload)
  | @drain limit box output hdrain =>
    exact h.withOutbox ((congrArg (fun result => result.1.cap) hdrain).symm.trans (Outbox.cap_drain _ _ _))
  | @drainFails limit box e hdrain =>
    exact h.withOutbox ((congrArg (fun result => result.1.cap) hdrain).symm.trans (Outbox.cap_drain _ _ _))
  | receive chunk =>
    rcases session.receive_cases chunk with ⟨-, heq⟩ | ⟨-, stats, heq⟩
    · rw [heq]
      exact h
    · rw [heq]
      exact ⟨h.configured, h.cap⟩
  | outboxEnqueue payload => exact h.withOutbox (session.outbox.cap_enqueue payload)
  | outboxFlush buffer offset limit => exact h.withOutbox (session.outbox.cap_flush buffer offset limit)
  | outboxClose => exact h.withOutbox session.outbox.cap_close
  | noteReason | flushing | countTransmitted | countHandled => exact ⟨h.configured, h.cap⟩

/-- A payload that is longer than the cap is refused, and the session stays as it is. -/
theorem Limited.enqueue_of_oversize (h : session.Limited config) {payload : Payload}
    (hlong : config.maxIndexedMemory < payload.length) : session.enqueue payload = (session, false) := by
  have hrefused : (session.enqueue payload).2 = false := by
    cases hanswer : (session.enqueue payload).2 with
    | false => rfl
    | true =>
      have hadmits := (enqueue_of_accepted hanswer).2.1
      rw [Outbox.admits, h.cap, Bool.and_eq_true, decide_eq_true_eq] at hadmits
      omega
  exact Prod.ext (enqueue_of_refused hrefused) hrefused

/-- Nothing is charged where nothing is pending. -/
theorem Accounted.charged_of_nothing (h : session.Accounted) (hempty : session.outbox.pending = []) :
    session.outbox.charged = 0 := by
  rw [Outbox.pending_eq, List.map_eq_nil_iff] at hempty
  rw [h.sound.charged, hempty]
  rfl

/-! ## Sessions that can send what their configuration allows -/

/-- The session has the limits of its configuration, all that its outbox charges is still to be sent, and the outbox is
open as long as the session is. -/
structure Provided (config : SessionConfig) (session : Session ι) : Prop where
  limited : session.Limited config
  accounted : session.Accounted
  isOpen : session.state.isClosing = false → session.outbox.closed = false

theorem provided_start (id : SessionId) {config : SessionConfig} (hlimit : config.maxMessageSize < lengthLimit) :
    (start id config : Session ι).Provided config :=
  ⟨limited_start id config, ⟨hlimit, Outbox.sound_ofCap _⟩, fun _ => rfl⟩

namespace Provided

/-- An edit that leaves the outbox open, unless it closes the session. -/
theorem edit (h : session.Provided config) (hdirect : ∀ deed ∈ deeds, deed ≠ .direct) (hedit : session.Edit deeds next)
    (hopen : next.state.isClosing = false → session.state.isClosing = false ∧
      next.outbox.closed = session.outbox.closed) : next.Provided config where
  limited := h.limited.edit hedit
  accounted := h.accounted.edit hdirect hedit
  isOpen := fun hnext => (hopen hnext).2.trans (h.isOpen (hopen hnext).1)

theorem upkeep (h : session.Provided config) (hupkeep : session.Upkeep next) : next.Provided config := by
  obtain ⟨deeds, hedit, hdirect⟩ := hupkeep.edit
  refine h.edit hdirect hedit fun hnext => ?_
  cases hupkeep with
  | @enter target hedge =>
    unfold Session.enter at hnext ⊢
    split at hnext
    · rename_i hclosing
      exact absurd (hnext.symm.trans hclosing) Bool.false_ne_true
    · rename_i hstill
      rw [if_neg hstill]
      refine ⟨Bool.eq_false_iff.2 fun hclosing => hstill (ConnectionState.isClosing_of_edge hclosing hedge), rfl⟩
  | drain limit =>
    obtain ⟨after, output, hdrain, -, -, -, hclosed, -⟩ :=
      Outbox.drain_eq session.config.transmitBufferSize limit h.accounted.sound
    refine ⟨hnext, ?_⟩
    simp only [hdrain]
    exact hclosed
  | noteReason | flushing | countTransmitted => exact ⟨hnext, rfl⟩

theorem countHandled (h : session.Provided config) : session.countHandled.Provided config :=
  h.edit (fun _ hmem => absurd hmem List.not_mem_nil) .countHandled fun hnext => ⟨hnext, rfl⟩

theorem authenticate (h : session.Provided config) (identity : Option ι) :
    (session.authenticate identity).1.Provided config := by
  refine h.edit (fun _ hmem => absurd hmem List.not_mem_nil) (.authenticate identity) fun hnext => ?_
  rcases session.authenticate_cases identity with ⟨e, heq⟩ | ⟨-, -, heq⟩
  · rw [heq] at hnext ⊢
    exact ⟨hnext, rfl⟩
  · rw [heq] at hnext ⊢
    exact ⟨hnext, rfl⟩

theorem receive (h : session.Provided config) (chunk : List UInt8) : (session.receive chunk).1.Provided config := by
  refine h.edit (fun _ hmem => absurd hmem List.not_mem_nil) (.receive chunk) fun hnext => ?_
  rcases session.receive_cases chunk with ⟨-, heq⟩ | ⟨-, stats, heq⟩
  · rw [heq] at hnext ⊢
    exact ⟨hnext, rfl⟩
  · rw [heq] at hnext ⊢
    exact ⟨hnext, rfl⟩

theorem enqueue (h : session.Provided config) (payload : Payload) : (session.enqueue payload).1.Provided config := by
  have hdirect : ∀ deed ∈ Deed.ofAnswer payload (session.enqueue payload).2, deed ≠ .direct := by
    intro deed hmem
    rw [Deed.ofAnswer] at hmem
    split at hmem
    · rw [List.mem_singleton.1 hmem]
      exact fun heq => by cases heq
    · cases hmem
  refine h.edit hdirect (.enqueue payload) fun hnext => ?_
  cases hanswer : (session.enqueue payload).2 with
  | false =>
    rw [enqueue_of_refused hanswer] at hnext ⊢
    exact ⟨hnext, rfl⟩
  | true =>
    rw [(enqueue_of_accepted hanswer).2.2] at hnext ⊢
    refine ⟨hnext, ?_⟩
    simp only [Outbox.enqueue]
    split <;> rfl

/-- Flushing the outbox past the session takes no frame away that was not completed. -/
theorem outboxFlush (h : session.Provided config) (buffer : List UInt8) (offset : Nat) (limit : Limit) :
    ({ session with outbox := (session.outbox.flush buffer offset limit).1 } : Session ι).Provided config where
  limited := h.limited.edit (.outboxFlush buffer offset limit)
  accounted := ⟨h.accounted.limit, h.accounted.sound.flush buffer offset limit⟩
  isOpen := fun hnext => by
    refine Eq.trans ?_ (h.isOpen hnext)
    rcases Outbox.flush_cases h.accounted.sound buffer offset limit with ⟨e, hflush⟩ | ⟨after, output, hdrain, hflush⟩
    · simp only [hflush]
    · obtain ⟨after', output', hdrain', -, -, -, hclosed, -⟩ :=
        Outbox.drain_eq (buffer.length - offset) limit h.accounted.sound
      rw [hdrain] at hdrain'
      cases hdrain'
      simp only [hflush]
      exact hclosed

end Provided

end Session

namespace World

variable {world last : World A} {id : SessionId} {config : SessionConfig}

/-- **Upkeep keeps what the configuration provides.** -/
theorem Upkeep.provided {handled : List SessionId} (h : world.Upkeep handled last)
    (hprovided : (world.session id).Provided config) : (last.session id).Provided config :=
  @Upkeep.keep _ _ _ id _ (fun _ session => session.Provided config) (fun hkept hupkeep => hkept.upkeep hupkeep)
    (fun hkept => hkept.countHandled) h 0 hprovided

/-- The sessions of the world are started with this configuration, and the session has what it provides. -/
structure Provides (config : SessionConfig) (id : SessionId) (world : World A) : Prop where
  configured : world.config.session = config
  provided : (world.session id).Provided config

namespace Provides

theorem upkeep {handled : List SessionId} (h : world.Provides config id) (hupkeep : world.Upkeep handled last) :
    last.Provides config id :=
  ⟨(congrArg HostConfig.session hupkeep.config).trans h.configured, hupkeep.provided h.provided⟩

/-- **What a call does at once** keeps what the configuration provides, unless it takes a payload into the outbox past
the session or closes the outbox. -/
theorem primes (h : world.Provides config id) {call : Call A} (hfills : ∀ payload, call ≠ .outboxEnqueue id payload)
    (hcloses : call ≠ .outboxClose id) : (call.primes world).Provides config id := by
  refine ⟨(congrArg HostConfig.session (call.config_primes world)).trans h.configured, ?_⟩
  have hlimit : config.maxMessageSize < lengthLimit :=
    h.provided.limited.configured ▸ h.provided.accounted.limit
  have hprimed := call.primes_primed world id
  rw [h.configured] at hprimed
  generalize (call.primes world).session id = next at hprimed ⊢
  cases hprimed with
  | still => exact h.provided
  | start => exact Session.provided_start id hlimit
  | authenticate identity => exact h.provided.authenticate identity
  | enqueue payload | hostEnqueue payload => exact h.provided.enqueue payload
  | receive chunk | hostReceive chunk => exact h.provided.receive chunk
  | outboxEnqueue payload => exact absurd rfl (hfills payload)
  | outboxFlush buffer offset limit => exact h.provided.outboxFlush buffer offset limit
  | outboxClose => exact absurd rfl hcloses

end Provides

theorem provides_ofConfig (id : SessionId) {config : HostConfig} (hworld : ofConfig config = .ok world)
    (hlimit : config.session.maxMessageSize < lengthLimit) : world.Provides config.session id := by
  rw [eq_of_ofConfig hworld]
  exact ⟨rfl, Session.provided_start id hlimit⟩

end World

namespace Machine

variable {machine next last : Machine A} {id : SessionId} {config : SessionConfig}

theorem provides_move {move : Move A} {event : Event A} (h : machine.world.Provides config id)
    (hmove : machine.move move = some (next, event)) (hfills : ∀ payload, move ≠ .call (.outboxEnqueue id payload))
    (hcloses : move ≠ .call (.outboxClose id)) : next.world.Provides config id := by
  obtain ⟨handled, hupkeep⟩ := move_upkeep hmove
  refine World.Provides.upkeep ?_ hupkeep
  cases move with
  | call call =>
    exact h.primes (fun payload heq => hfills payload (congrArg Move.call heq))
      fun heq => hcloses (congrArg Move.call heq)
  | reply reply => exact h

/-- **In every run in which nobody but the session itself takes payloads into its outbox**, and nobody else closes it,
the session has what its configuration provides. -/
theorem provides_run {moves : List (Move A)} {events : List (Event A)} (h : machine.world.Provides config id)
    (hrun : machine.run moves = some (last, events)) (hfills : ∀ payload, .call (.outboxEnqueue id payload) ∉ moves)
    (hcloses : .call (.outboxClose id) ∉ moves) : last.world.Provides config id :=
  run_invariant_of_mem (motive := fun _ machine => machine.world.Provides config id)
    (fun hmem h hmove => provides_move h hmove (fun payload heq => hfills payload (heq ▸ hmem))
      fun heq => hcloses (heq ▸ hmem)) h hrun

/-! ## Ticks one after the other -/

/-- Outside code leaves the session alone: it neither changes it nor takes it away. -/
def Spares (id : SessionId) (during : World A → World A) : Prop :=
  ∀ world, (during world).session id = world.session id ∧ (world.knows id = true → (during world).knows id = true)

/-- So many ticks of a session, one after the other, each of which comes to its end, with all that they transmit. -/
inductive Ticks (during : World A → World A) (id : SessionId) :
    Nat → Machine A → List (List UInt8) → Machine A → Prop where
  | none (machine : Machine A) : Ticks during id 0 machine [] machine
  | tick {n : Nat} {machine next last : Machine A} {first later : List (List UInt8)} {summary : TickSummary}
      (h : machine.CallServes during id (.tick id) first (next, .answers (.flushed (.ok summary))))
      (rest : Ticks during id n next later last) : Ticks during id (n + 1) machine (first ++ later) last

/-- The session can be ticked, and has what its configuration provides. -/
structure Ready (config : SessionConfig) (id : SessionId) (machine : Machine A) : Prop where
  known : machine.world.knows id = true
  connected : (machine.world.session id).state = .connected
  idle : (machine.world.session id).flushing = false
  provided : (machine.world.session id).Provided config

variable {during : World A → World A} {transmits : List (List UInt8)}

/-- Serving the transmits of a session that outside code leaves alone is upkeep of it. -/
theorem Serves.provided (hspares : Spares id during) {first reached : Machine A × Signal A}
    (h : Serves during id first transmits reached) (hknown : first.1.world.knows id = true)
    (hprovided : (first.1.world.session id).Provided config) :
    reached.1.world.knows id = true ∧ (reached.1.world.session id).Provided config := by
  induction h with
  | ended => exact ⟨hknown, hprovided⟩
  | @transmit machine next event data more reached hmove _ ih =>
    obtain ⟨hsession, hknows⟩ := hspares machine.world
    obtain ⟨handled, hupkeep⟩ := move_upkeep hmove
    refine ih (hupkeep.knows (hknows hknown)) (hupkeep.provided ?_)
    rw [Move.primes, hsession]
    exact hprovided

/-- **A tick of a session that is ready** sends as many of the pending frames as the configuration lets it, and leaves
the session ready. -/
theorem Ready.tick (h : machine.Ready config id) (hspares : Spares id during)
    (hbuffer : 1 ≤ config.transmitBufferSize) :
    ∃ (next : Machine A) (transmits : List (List UInt8)) (summary : TickSummary),
      machine.CallServes during id (.tick id) transmits (next, .answers (.flushed (.ok summary))) ∧
      next.Ready config id ∧
      (machine.world.session id).Flushed (some config.maxMessagesPerTick) (next.world.session id) transmits
        summary := by
  obtain rfl := h.provided.limited.configured
  have hsound := h.provided.accounted.sound
  obtain ⟨last, hserves, hsent⟩ := World.beginFlush_sends rfl hbuffer (fun world => (hspares world).1) h.connected
    hsound (some (machine.world.session id).config.maxMessagesPerTick)
  rw [← World.tick_of_idle rfl h.idle] at hserves
  have hflushed := hsent.flushed hbuffer rfl h.idle hsound (Nat.le_refl _) (TickSummary.zero_add _)
  have hcall : machine.CallServes during id (.tick id) _ (⟨last, machine.waiting⟩, .answers (.flushed (.ok _))) :=
    callServes_of_begin h.known hserves.tick rfl
  refine ⟨_, _, _, hcall, ?_, hflushed⟩
  obtain ⟨first, event, hmove, hserves⟩ := hcall
  obtain ⟨handled, hupkeep⟩ := move_upkeep hmove
  obtain ⟨hknown, hprovided⟩ := hserves.provided hspares (hupkeep.knows h.known) (hupkeep.provided h.provided)
  have hunchanged := hflushed.unchanged
  exact ⟨hknown, (congrArg Session.state hunchanged).trans h.connected,
    (congrArg Session.flushing hunchanged).trans h.idle, hprovided⟩

/-- **Ticks one after the other** send the pending frames from the front, each as many as the configuration lets it. -/
theorem Ready.ticks (hspares : Spares id during) (hbuffer : 1 ≤ config.transmitBufferSize) :
    ∀ (n : Nat) {machine : Machine A}, machine.Ready config id →
    ∃ (last : Machine A) (transmits : List (List UInt8)), Ticks during id n machine transmits last ∧
      last.Ready config id ∧
      transmits.flatten =
        ((machine.world.session id).outbox.pending.take (n * config.maxMessagesPerTick)).flatten ∧
      (last.world.session id).outbox.pending =
        (machine.world.session id).outbox.pending.drop (n * config.maxMessagesPerTick)
  | 0, machine, h => by
    refine ⟨machine, [], .none machine, h, ?_, ?_⟩
    · rw [Nat.zero_mul, List.take_zero]
    · rw [Nat.zero_mul, List.drop_zero]
  | n + 1, machine, h => by
    obtain ⟨next, first, summary, hcall, hnext, hflushed⟩ := h.tick hspares hbuffer
    obtain ⟨last, later, hticks, hlast, hsent, hleft⟩ := Ready.ticks hspares hbuffer n hnext
    rw [hflushed.left, hflushed.messages, Limit.among, ← List.drop_eq_drop_min] at hsent hleft
    have hfirst := hflushed.sent
    rw [hflushed.messages, Limit.among, ← List.take_eq_take_min] at hfirst
    have hcount : (n + 1) * config.maxMessagesPerTick = config.maxMessagesPerTick + n * config.maxMessagesPerTick := by
      rw [Nat.succ_mul, Nat.add_comm]
    rw [hcount]
    refine ⟨last, first ++ later, .tick hcall hticks, hlast, ?_, ?_⟩
    · rw [List.flatten_append, hfirst, hsent, List.take_add, List.flatten_append]
    · rw [hleft, List.drop_drop]

/-- A session that is ready and has nothing pending takes in every payload that its configuration allows. -/
theorem Ready.enqueue (h : machine.Ready config id) (hroom : config.maxMessageSize ≤ config.maxIndexedMemory)
    (hempty : (machine.world.session id).outbox.pending = []) {payload : Payload}
    (hsize : payload.length ≤ config.maxMessageSize) :
    ∃ next : Machine A, machine.move (.call (.enqueue id payload)) =
        some (next, .called (.enqueue id payload) (.answers (.flag true))) ∧
      next.Ready config id ∧ (next.world.session id).outbox.pending = [frame payload] := by
  obtain rfl := h.provided.limited.configured
  have hopen : (machine.world.session id).state.isClosing = false := by
    rw [h.connected]
    rfl
  have hadmits : (machine.world.session id).outbox.admits payload.length = true := by
    rw [Outbox.admits, h.provided.isOpen hopen, h.provided.accounted.charged_of_nothing hempty,
      h.provided.limited.cap, Nat.zero_add, decide_eq_true (Nat.le_trans hsize hroom)]
    rfl
  have hanswer : ((machine.world.session id).enqueue payload).2 = true := by
    unfold Session.enqueue
    rw [if_neg (by rw [hopen]; exact Bool.false_ne_true), if_neg (Nat.not_lt.2 hsize)]
    exact ((machine.world.session id).outbox.enqueue_snd payload).trans hadmits
  obtain ⟨-, -, heq⟩ := Session.enqueue_of_accepted hanswer
  have hprovided := h.provided.enqueue payload
  refine ⟨⟨machine.world.put id ((machine.world.session id).enqueue payload).1, machine.waiting⟩, ?_, ?_, ?_⟩
  · have hcall : machine.canCall (.enqueue id payload) = true := h.known
    refine move_of_finish hcall ?_
    simp only [Call.begin, hanswer]
  · refine ⟨World.knows_put_self _ _ _, ?_, ?_, ?_⟩
    all_goals rw [World.session_put_self]
    · rw [heq]
      exact h.connected
    · rw [heq]
      exact h.idle
    · exact hprovided
  · rw [World.session_put_self, heq, Outbox.pending_eq, Outbox.backlog_enqueue hadmits, List.map_append,
      ← Outbox.pending_eq, hempty]
    rfl

/-! ## The law -/

/-- The payload is taken in now, and the next tick sends its frame and nothing else. -/
def SendsWhole (during : World A → World A) (id : SessionId) (machine : Machine A) (payload : Payload) : Prop :=
  ∃ (filled last : Machine A) (transmits : List (List UInt8)) (summary : TickSummary),
    machine.move (.call (.enqueue id payload)) =
      some (filled, .called (.enqueue id payload) (.answers (.flag true))) ∧
    filled.CallServes during id (.tick id) transmits (last, .answers (.flushed (.ok summary))) ∧
    transmits.flatten = frame payload

theorem Ready.sendsWhole (h : machine.Ready config id) (hvalid : config.validate = .ok ()) (hspares : Spares id during)
    (hempty : (machine.world.session id).outbox.pending = []) {payload : Payload}
    (hsize : payload.length ≤ config.maxMessageSize) : machine.SendsWhole during id payload := by
  obtain ⟨-, hbudget, hbuffer, hroom⟩ := config.validate_eq_ok_iff.1 hvalid
  obtain ⟨filled, hmove, hfilled, hpending⟩ := h.enqueue hroom hempty hsize
  obtain ⟨last, transmits, summary, hcall, -, hflushed⟩ := hfilled.tick hspares hbuffer
  refine ⟨filled, last, transmits, summary, hmove, hcall, ?_⟩
  have hone : summary.messages = 1 := by
    rw [hflushed.messages, hpending]
    exact Nat.min_eq_right hbudget
  rw [hflushed.sent, hpending, hone]
  exact List.append_nil _

/-- **A configuration can send all that it allows, or is refused.**  Take any run of a host whose configuration was
accepted, up to any point at which outside code acts, and a session that is connected there and of which no transmit is
under way.  The run may do anything but take payloads into the outbox of the session past it, and close that outbox.
The transport takes all that it is given and leaves the session alone meanwhile.  Then as many ticks as the pending
frames need send them all, nothing is charged any more, and whatever payload the configuration allows is taken in and
sent whole by one more tick.  On the other hand, a session whose configuration allows payloads that are longer than its
outbox holds refuses those of the greatest length wherever a run has led it, and stays as it is. -/
theorem sends_all_it_allows (id : SessionId) :
    (∀ {config : HostConfig} {world : World A} {moves : List (Move A)} {last : Machine A} {events : List (Event A)}
      {during : World A → World A},
      World.ofConfig config = .ok world → config.session.maxMessageSize < lengthLimit →
      (⟨world, []⟩ : Machine A).run moves = some (last, events) →
      (∀ payload, .call (.outboxEnqueue id payload) ∉ moves) → .call (.outboxClose id) ∉ moves →
      (last.world.session id).state = .connected → (∀ waiting ∈ last.waiting, ¬ waiting.query.Transmits id) →
      Spares id during →
      let pending := (last.world.session id).outbox.pending
      let budget := config.session.maxMessagesPerTick
      ∃ (drained : Machine A) (transmits : List (List UInt8)),
        Ticks during id ((pending.length + (budget - 1)) / budget) last transmits drained ∧
        transmits.flatten = pending.flatten ∧ (drained.world.session id).outbox.charged = 0 ∧
        ∀ payload : Payload, payload.length ≤ config.session.maxMessageSize →
          drained.SendsWhole during id payload) ∧
    ∀ {config : SessionConfig} {machine last : Machine A} {moves : List (Move A)} {events : List (Event A)},
      machine.world.knows id = true → machine.world.session id = .start id config →
      id.number < machine.world.ids.next → machine.run moves = some (last, events) →
      config.maxIndexedMemory < config.maxMessageSize →
      ∀ payload : Payload, payload.length = config.maxMessageSize →
        last.move (.call (.enqueue id payload)) =
          some (last, .called (.enqueue id payload) (.answers (.flag false))) := by
  constructor
  · intro config world moves last events during hworld hlimit hrun hfills hcloses hconnected hreturned hspares
    have hvalid := World.validate_of_ofConfig hworld
    obtain ⟨-, hbudget, hbuffer, -⟩ := config.session.validate_eq_ok_iff.1 hvalid
    have hknown : last.world.knows id = true := by
      cases hknows : last.world.knows id with
      | true => rfl
      | false =>
        rw [World.session_of_unknown hknows] at hconnected
        cases hconnected
    have hidle : (last.world.session id).flushing = false := by
      refine Bool.eq_false_iff.2 fun hflushing => ?_
      obtain ⟨waiting, hmem, htransmits⟩ := attended_run hworld hrun hflushing
      exact hreturned waiting hmem htransmits
    have hprovides := provides_run (World.provides_ofConfig id hworld hlimit) hrun hfills hcloses
    have hready : last.Ready config.session id := ⟨hknown, hconnected, hidle, hprovides.provided⟩
    intro pending budget
    obtain ⟨drained, transmits, hticks, hdrained, hsent, hleft⟩ := hready.ticks hspares hbuffer
      ((pending.length + (budget - 1)) / budget)
    have henough : pending.length ≤ (pending.length + (budget - 1)) / budget * budget := by
      have hrest := Nat.div_add_mod (pending.length + (budget - 1)) budget
      have hless : (pending.length + (budget - 1)) % budget < budget := Nat.mod_lt _ hbudget
      rw [Nat.mul_comm] at hrest
      omega
    rw [List.take_of_length_le henough] at hsent
    rw [List.drop_of_length_le henough] at hleft
    exact ⟨drained, transmits, hticks, hsent, hdrained.provided.accounted.charged_of_nothing hleft,
      fun payload hsize => hdrained.sendsWhole hvalid hspares hleft hsize⟩
  · intro config machine last moves events hknown hstart hissued hrun hsmall payload hsize
    have hbegin : (machine.world.session id).Limited config := by
      rw [hstart]
      exact Session.limited_start id config
    obtain ⟨hlimited, -, hknows⟩ := (run_edits moves hrun).keep (·.Limited config) (fun _ => True)
      (fun h _ hedit => h.edit hedit) hissued hbegin fun _ _ => True.intro
    have hlong : config.maxIndexedMemory < payload.length := hsize ▸ hsmall
    have hrefused := hlimited.enqueue_of_oversize hlong
    have hcall : last.canCall (.enqueue id payload) = true := hknows hknown
    refine move_of_finish hcall ?_
    simp only [Call.begin, hrefused, World.put_session (hknows hknown)]

/-- A host whose sessions send byte by byte, one message a tick, and hold one payload of the greatest length. -/
def narrow : HostConfig where
  session := { maxIndexedMemory := 4, maxMessageSize := 4, maxMessagesPerTick := 1, transmitBufferSize := 1 }

/-- A session is opened and connected, and two payloads are taken in, of which the first is sent in part. -/
def twoWaiting : List (Move .bare) :=
  [.call .hostOpen, .call (.hostReport ⟨1⟩ .connected), .call (.enqueue ⟨1⟩ [1, 2]), .call (.enqueue ⟨1⟩ [3]),
    .call (.outboxFlush ⟨1⟩ [0, 0, 0, 0] 1 none)]

/-- A session whose outbox is too small for its greatest payload, and a payload that it does take in. -/
def oversized : SessionConfig := { maxIndexedMemory := 2, maxMessageSize := 3 }

theorem sends_all_it_allows_narrow :
    (∃ (last drained : Machine .bare) (events : List (Event .bare)) (transmits : List (List UInt8)),
      (⟨{ config := narrow }, []⟩ : Machine .bare).run twoWaiting = some (last, events) ∧
      Ticks (·.addObserver ()) ⟨1⟩ 2 last transmits drained ∧ transmits.flatten = [0, 1, 2, 1, 0, 0, 0, 3] ∧
      drained.SendsWhole (·.addObserver ()) ⟨1⟩ [6, 7, 8, 9]) ∧
    ∃ (last : Machine .bare) (events : List (Event .bare)),
      (⟨.ofSession (.start ⟨1⟩ oversized), []⟩ : Machine .bare).run
          [.call (.transition ⟨1⟩ .connected), .call (.enqueue ⟨1⟩ [5])] = some (last, events) ∧
      last.move (.call (.enqueue ⟨1⟩ [1, 2, 3])) =
        some (last, .called (.enqueue ⟨1⟩ [1, 2, 3]) (.answers (.flag false))) := by
  constructor
  · have hworld : World.ofConfig narrow = .ok ({ config := narrow } : World .bare) := rfl
    obtain ⟨last, events, hrun, hconnected, hidle, hpending⟩ :
        ∃ (last : Machine .bare) (events : List (Event .bare)),
          (⟨{ config := narrow }, []⟩ : Machine .bare).run twoWaiting = some (last, events) ∧
          (last.world.session ⟨1⟩).state = .connected ∧ last.waiting = [] ∧
          (last.world.session ⟨1⟩).outbox.pending = [[0, 1, 2], [1, 0, 0, 0, 3]] := ⟨_, _, rfl, rfl, rfl, rfl⟩
    have hfills : ∀ payload, Move.call (.outboxEnqueue ⟨1⟩ payload) ∉ twoWaiting := by
      intro payload hmem
      simp [twoWaiting] at hmem
    have hcloses : Move.call (.outboxClose ⟨1⟩) ∉ twoWaiting := by
      intro hmem
      simp [twoWaiting] at hmem
    have hreturned : ∀ waiting ∈ last.waiting, ¬ waiting.query.Transmits ⟨1⟩ := by
      rw [hidle]
      exact fun _ hmem => absurd hmem List.not_mem_nil
    have hspares : Spares ⟨1⟩ fun world : World .bare => world.addObserver () := fun world => ⟨rfl, fun h => h⟩
    obtain ⟨drained, transmits, hticks, hsent, -, hsends⟩ :=
      (sends_all_it_allows ⟨1⟩).1 hworld (by decide) hrun hfills hcloses hconnected hreturned hspares
    rw [hpending] at hticks hsent
    exact ⟨last, drained, events, transmits, hrun, hticks, hsent, hsends _ (by decide)⟩
  · obtain ⟨last, events, hrun⟩ : ∃ (last : Machine .bare) (events : List (Event .bare)),
        (⟨.ofSession (.start ⟨1⟩ oversized), []⟩ : Machine .bare).run
          [.call (.transition ⟨1⟩ .connected), .call (.enqueue ⟨1⟩ [5])] = some (last, events) := ⟨_, _, rfl⟩
    have hstart : (World.ofSession (.start ⟨1⟩ oversized) : World .bare).session ⟨1⟩ = .start ⟨1⟩ oversized := rfl
    exact ⟨last, events, hrun,
      (sends_all_it_allows ⟨1⟩).2 rfl hstart (by decide) hrun (by decide) [1, 2, 3] rfl⟩

end Machine

end FramedLink
