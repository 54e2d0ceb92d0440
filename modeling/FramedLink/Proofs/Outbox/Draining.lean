import Mathlib.Algebra.Ring.Nat
import FramedLink.Proofs.Outbox.Backlog
/-!
# What a flush of an outbox does

The invariant of an outbox (`Outbox.Sound`) ties everything that is kept by hand to the frames still to be sent: the
charge, the length of the held payload, the mirror of the encoder.  On a sound outbox a flush always succeeds, and what
it does is said without its loop (`drain_eq`): the frames that the limit lets through are joined, the front of that
which the room takes goes out, and the backlog advances by so many bytes.
-/
namespace FramedLink

/-- A flush of room `room` put out `output`: the front of the frames that the limit lets through.  The backlog has lost
these bytes, and with them the frames that end in them. -/
structure Drained (limit : Limit) (room : Nat) (before after : List Pending) (output : Output) : Prop where
  bytes : output.bytes = (unsentOf (before.take (limit.among before.length))).take room
  backlog : after = advance output.bytes.length before
  completed : output.completed + after.length = before.length

namespace Drained

variable {limit : Limit} {room : Nat} {entry : Pending} {rest after : List Pending} {output : Output}

theorem nothing {backlog : List Pending} (hlive : Live backlog) (h : limit.among backlog.length = 0) :
    Drained limit room backlog backlog .nothing := by
  refine ⟨?_, (advance_zero hlive).symm, Nat.zero_add _⟩
  rw [h, List.take_zero, unsentOf_nil, List.take_nil]
  rfl

theorem whole (hlimit : limit.isReached = false) (hfits : entry.unsent.length ≤ room)
    (h : Drained (limit.less 1) (room - entry.unsent.length) rest after output) :
    Drained limit room (entry :: rest) after ⟨entry.unsent ++ output.bytes, output.completed + 1⟩ := by
  obtain ⟨hbytes, hbacklog, hcompleted⟩ := h
  refine ⟨?_, ?_, ?_⟩
  · simp only [List.length_cons, Limit.among_succ hlimit, List.take_succ_cons, unsentOf_cons]
    rw [List.take_append, List.take_of_length_le hfits, hbytes]
  · simp only [List.length_append, advance_whole]
    exact hbacklog
  · simp only [List.length_cons, ← hcompleted]
    omega

theorem front (hlimit : limit.isReached = false) (hover : room < entry.unsent.length) :
    Drained limit room (entry :: rest) ({ entry with unsent := entry.unsent.drop room } :: rest)
      ⟨entry.unsent.take room, 0⟩ := by
  have hlength : (entry.unsent.take room).length = room := List.length_take_of_le (Nat.le_of_lt hover)
  refine ⟨?_, ?_, Nat.zero_add _⟩
  · simp only [List.length_cons, Limit.among_succ hlimit, List.take_succ_cons, unsentOf_cons]
    rw [List.take_append_of_le_length (Nat.le_of_lt hover)]
  · simp only [hlength, advance_front rest hover]

/-- Nothing is lost, doubled or moved: what went out, and then what is left, is what there was. -/
theorem unsent {before : List Pending} (h : Drained limit room before after output) :
    output.bytes ++ unsentOf after = unsentOf before := by
  have hfront : output.bytes <+: unsentOf before := by
    rw [h.bytes]
    refine (List.take_prefix _ _).trans ⟨unsentOf (before.drop (limit.among before.length)), ?_⟩
    rw [← unsentOf_append, List.take_append_drop]
  conv => lhs; rw [List.prefix_iff_eq_take.1 hfront, h.backlog, unsentOf_advance]
  exact List.take_append_drop _ _

theorem charges {before : List Pending} (h : Drained limit room before after output) :
    after.map Pending.charge = (before.map Pending.charge).drop output.completed := by
  obtain ⟨k, hlength, hcharges⟩ := charges_advance before output.bytes.length
  rw [← h.backlog] at hlength hcharges
  have hcompleted := h.completed
  rw [hcharges, show k = output.completed by omega]

theorem charge_add {before : List Pending} (h : Drained limit room before after output) :
    (after.map Pending.charge).sum + ((before.map Pending.charge).take output.completed).sum
      = (before.map Pending.charge).sum := by
  rw [h.charges, Nat.add_comm, ← List.sum_append, List.take_append_drop]

/-- What went out ends within the frames that the limit lets through, and what is left of these stands in front of the
others. -/
theorem cut {before : List Pending} (hlive : Live before) (h : Drained limit room before after output) :
    ∃ front, after = front ++ before.drop (limit.among before.length) ∧
      front.length + output.completed = limit.among before.length ∧
      unsentOf front = (unsentOf (before.take (limit.among before.length))).drop room := by
  have hbytes := h.bytes
  have hcompleted := h.completed
  have hwithin : output.bytes.length ≤ (unsentOf (before.take (limit.among before.length))).length := by
    rw [hbytes]
    exact List.length_take_le' _ _
  have hback : Live (before.drop (limit.among before.length)) := fun entry hentry =>
    hlive entry (List.mem_of_mem_drop hentry)
  have hcut := advance_append _ _ _ hwithin hback
  rw [List.take_append_drop, ← h.backlog] at hcut
  refine ⟨_, hcut, ?_, ?_⟩
  · have hk := limit.among_le before.length
    rw [hcut, List.length_append, List.length_drop] at hcompleted
    omega
  · rw [unsentOf_advance, hbytes, List.length_take]
    rcases Nat.le_total room (unsentOf (before.take (limit.among before.length))).length with hroom | hroom
    · rw [Nat.min_eq_left hroom]
    · rw [Nat.min_eq_right hroom, List.drop_length, List.drop_of_length_le hroom]

/-- What is left to do: the limit lets the rest of its frames through, and these are what was not put out of them. -/
theorem remaining {before : List Pending} (hlive : Live before) (h : Drained limit room before after output) :
    (limit.less output.completed).among after.length + output.completed = limit.among before.length ∧
      unsentOf (after.take ((limit.less output.completed).among after.length)) =
        (unsentOf (before.take (limit.among before.length))).drop room ∧
      after.drop ((limit.less output.completed).among after.length) = before.drop (limit.among before.length) := by
  obtain ⟨front, hcut, hcount, hunsent⟩ := h.cut hlive
  have hk := limit.among_le before.length
  have hless := limit.among_less output.completed before.length (by omega) (by omega)
  have hlength : before.length - output.completed = after.length := by
    have := h.completed
    omega
  have hleft : (limit.less output.completed).among after.length = front.length := by
    rw [← hlength, hless]
    omega
  rw [hleft, hcut, List.take_left, List.drop_left]
  exact ⟨hcount, hunsent, rfl⟩

end Drained

namespace Outbox

/-- The frames that are still to be sent, the held one first. -/
def backlog (box : Outbox) : List Pending :=
  (box.encoder.held.map Pending.ofHeld).toList ++ box.waiting.map Pending.ofPayload

/-- The lengths of the payloads whose frames are still to be completed, the held one first. -/
def pendingLengths (box : Outbox) : List Nat := box.encoder.heldPayloadLen.toList ++ box.waiting.map List.length

/-- The encoder and the accounts of an outbox agree with its backlog. -/
structure Settled (box : Outbox) : Prop where
  begun : box.encoder.Sound
  heldLen : box.heldLen = box.encoder.heldPayloadLen.getD 0
  charged : box.charged = (box.backlog.map Pending.charge).sum
  describable : ∀ payload ∈ box.waiting, payload.length < lengthLimit

/-- The invariant of an outbox between two calls. -/
structure Sound (box : Outbox) : Prop extends box.Settled where
  free : box.lock = .free
  mirrored : box.holding = box.encoder.isHolding
  capped : box.charged ≤ box.cap
  emptied : box.closed = true → box.backlog = []

/-- The limit of a flush: the held frame is finished in any case. -/
def allowance (box : Outbox) (limit : Limit) : Limit := if box.encoder.isHolding then limit.atLeastOne else limit

theorem allowance_of_not_reached (box : Outbox) {limit : Limit} (h : limit.isReached = false) :
    box.allowance limit = limit := by
  unfold allowance
  split
  · exact Limit.atLeastOne_of_not_reached h
  · rfl

theorem pending_eq (box : Outbox) : box.pending = box.backlog.map Pending.unsent := by
  rw [pending, backlog, List.map_append, List.map_map]
  cases box.encoder.held <;> rfl

theorem pendingLengths_eq (box : Outbox) : box.pendingLengths = box.backlog.map Pending.charge := by
  unfold pendingLengths backlog
  rw [List.map_append, List.map_map]
  cases hheld : box.encoder.held <;> simp [Encoder.heldPayloadLen, hheld, Pending.ofHeld, Pending.ofPayload,
    Function.comp_def]

theorem flatten_take_pending (box : Outbox) (k : Nat) :
    (box.pending.take k).flatten = unsentOf (box.backlog.take k) := by
  rw [pending_eq, unsentOf_eq_flatten, List.map_take]

theorem unsent_eq (box : Outbox) : box.unsent = unsentOf box.backlog := by
  rw [unsent, backlog, unsentOf_append, unsentOf_ofPayload, Encoder.unsent]
  cases box.encoder.held with
  | none => rfl
  | some held => exact congrArg (· ++ _) (List.append_nil _).symm

theorem backlog_of_free {box : Outbox} (h : box.encoder = .fresh) : box.backlog = box.waiting.map .ofPayload := by
  rw [backlog, h]
  rfl

theorem backlog_of_held {box : Outbox} {held : Held} (h : box.encoder = ⟨some held⟩) :
    box.backlog = .ofHeld held :: box.waiting.map .ofPayload := by
  rw [backlog, h]
  rfl

theorem Settled.live {box : Outbox} (h : box.Settled) : Live box.backlog := by
  intro entry hentry
  rw [backlog, List.mem_append, Option.mem_toList, Option.map_eq_some_iff] at hentry
  rcases hentry with ⟨held, hheld, rfl⟩ | hwaiting
  · exact h.begun held hheld
  · exact live_ofPayload box.waiting entry hwaiting

/-- What packing does not touch. -/
structure SameShell (box after : Outbox) : Prop where
  cap : after.cap = box.cap
  dispatched : after.dispatched = box.dispatched
  closed : after.closed = box.closed

/-- **Packing waiting payloads** behind an encoder that holds nothing. -/
theorem packWaiting_eq : ∀ (payloads : List Payload) (box : Outbox) (room : Nat) (limit : Limit), box.encoder = .fresh →
    { box with waiting := payloads }.Settled →
    ∃ after output, box.packWaiting room limit payloads = ⟨after, output, none⟩ ∧
      Drained limit room (payloads.map .ofPayload) after.backlog output ∧ after.Settled ∧ box.SameShell after
  | [], box, room, limit, hfresh, hsettled => by
    have hbacklog : { box with waiting := [] }.backlog = [] := backlog_of_free hfresh
    refine ⟨_, _, rfl, ?_, hsettled, rfl, rfl, rfl⟩
    rw [hbacklog]
    exact .nothing (live_ofPayload []) limit.among_zero
  | payload :: payloads, box, room, limit, hfresh, hsettled => by
    have hall : { box with waiting := payload :: payloads }.backlog = .ofPayload payload :: payloads.map .ofPayload :=
      backlog_of_free hfresh
    cases hlimit : limit.isReached with
    | true =>
      rw [packWaiting, hlimit, if_pos rfl]
      refine ⟨_, _, rfl, ?_, hsettled, rfl, rfl, rfl⟩
      rw [hall]
      exact .nothing (live_ofPayload (payload :: payloads)) (Limit.among_of_isReached hlimit _)
    | false =>
      obtain ⟨hpayload, hpayloads⟩ := List.forall_mem_cons.1 hsettled.describable
      have hcharged : box.charged = payload.length + ((payloads.map Pending.ofPayload).map Pending.charge).sum := by
        have hsum := hsettled.charged
        rw [hall] at hsum
        exact hsum
      have hheldLen : box.heldLen = 0 := by rw [show box.heldLen = _ from hsettled.heldLen, hfresh]; rfl
      obtain ⟨emission, hoffer, hsends⟩ := Encoder.offer_sends room hpayload
      rw [packWaiting, hlimit, if_neg Bool.false_ne_true, hfresh, hoffer]
      cases hsends with
      | whole hfits =>
        have hnext : { { box.discharge payload.length with encoder := .fresh } with waiting := payloads }.Settled :=
          { begun := Encoder.sound_fresh
            heldLen := hheldLen
            charged := by
              rw [backlog_of_free rfl]
              simp only [discharge, hcharged, Nat.add_sub_cancel_left]
            describable := hpayloads }
        obtain ⟨after, output, hpack, hdrained, hafter, hcap, hdispatched, hclosed⟩ :=
          packWaiting_eq payloads { box.discharge payload.length with encoder := .fresh }
            (room - (frame payload).length) (limit.less 1) rfl hnext
        simp only [hpack]
        exact ⟨_, _, rfl, .whole hlimit hfits hdrained, hafter, hcap, hdispatched, hclosed⟩
      | @front held hover hrest hsame =>
        have hbacklog : { box with waiting := payloads, encoder := ⟨some held⟩, heldLen := payload.length }.backlog =
            { Pending.ofPayload payload with unsent := (frame payload).drop room } :: payloads.map .ofPayload := by
          rw [backlog_of_held rfl, Pending.ofHeld, hrest, hsame]
          rfl
        refine ⟨_, _, rfl, ?_, ?_, rfl, rfl, rfl⟩
        · rw [hbacklog]
          exact .front hlimit hover
        · refine ⟨(Sends.front hover hrest hsame).sound, ?_, ?_, hpayloads⟩
          · simp only [Encoder.heldPayloadLen, Option.map_some, hsame, Option.getD_some]
          · rw [hbacklog]
            exact hcharged

/-- **Packing** finishes the held frame and goes on with the payloads that wait. -/
theorem pack_eq {box : Outbox} (room : Nat) (limit : Limit) (h : box.Settled) :
    ∃ after output, box.pack room limit = ⟨after, output, none⟩ ∧
      Drained (box.allowance limit) room box.backlog after.backlog output ∧ after.Settled ∧ box.SameShell after := by
  cases hencoder : box.encoder with
  | mk held? =>
  cases held? with
  | none =>
    have hfree : box.encoder.isHolding = false := by rw [hencoder]; rfl
    rw [pack, hfree, if_neg Bool.false_ne_true, allowance, hfree, if_neg Bool.false_ne_true, backlog_of_free hencoder]
    exact packWaiting_eq box.waiting box room limit hencoder h
  | some held =>
    have hholding : box.encoder.isHolding = true := by rw [hencoder]; rfl
    have hheldLen : box.heldLen = held.payloadLen := by rw [h.heldLen, hencoder]; rfl
    have hcharged : box.charged = held.payloadLen + ((box.waiting.map Pending.ofPayload).map Pending.charge).sum := by
      rw [h.charged, backlog_of_held hencoder]
      rfl
    obtain ⟨emission, hresume, hsends⟩ := Encoder.resume_sends room held
    rw [pack, hholding, if_pos rfl, allowance, hholding, if_pos rfl, backlog_of_held hencoder, hencoder, hresume]
    cases hsends with
    | whole hfits =>
      have hnext : { box.discharge box.heldLen with encoder := .fresh, heldLen := 0 }.Settled :=
        { begun := Encoder.sound_fresh
          heldLen := rfl
          charged := by
            rw [backlog_of_free rfl]
            simp only [discharge, hheldLen, hcharged, Nat.add_sub_cancel_left]
          describable := h.describable }
      obtain ⟨after, output, hpack, hdrained, hafter, hcap, hdispatched, hclosed⟩ :=
        packWaiting_eq (box.discharge box.heldLen).waiting
          { box.discharge box.heldLen with encoder := .fresh, heldLen := 0 } (room - held.unsent.length) (limit.less 1)
          rfl hnext
      rw [← Limit.less_atLeastOne] at hdrained
      simp only [hpack]
      exact ⟨_, _, rfl, .whole limit.isReached_atLeastOne hfits hdrained, hafter, hcap, hdispatched, hclosed⟩
    | @front held' hover hrest hsame =>
      have hbacklog : { box with encoder := ⟨some held'⟩ }.backlog =
          { Pending.ofHeld held with unsent := held.unsent.drop room } :: box.waiting.map .ofPayload := by
        rw [backlog_of_held rfl, Pending.ofHeld, hrest, hsame]
        rfl
      refine ⟨_, _, rfl, ?_, ?_, rfl, rfl, rfl⟩
      · rw [hbacklog]
        exact .front limit.isReached_atLeastOne hover
      · refine ⟨(Sends.front hover hrest hsame).sound, ?_, ?_, h.describable⟩
        · simp only [Encoder.heldPayloadLen, Option.map_some, hsame, Option.getD_some, hheldLen]
        · rw [hbacklog]
          exact hcharged

theorem drain_of_closed {box : Outbox} (room : Nat) (limit : Limit) (hfree : box.lock = .free)
    (hclosed : box.closed = true) : box.drain room limit = (box, .ok .nothing) := by
  simp only [drain, hfree, SpinLock.free, SpinLock.tryTake_free, hclosed, if_true]

theorem drain_of_open {box after : Outbox} {room : Nat} {limit : Limit} {output : Output} (hfree : box.lock = .free)
    (hclosed : box.closed = false) (hpack : { box with lock := ⟨true⟩ }.pack room limit = ⟨after, output, none⟩) :
    box.drain room limit =
      ({ after with
          lock := .free, holding := after.encoder.isHolding, dispatched := after.dispatched + output.completed },
        .ok output) := by
  simp only [drain, hfree, SpinLock.free, SpinLock.tryTake_free, hpack]
  rw [if_neg (by rw [hclosed]; exact Bool.false_ne_true)]
  rfl

/-- **A flush of a sound outbox** never fails.  It puts out the front of the frames that it may complete, counts those
that end there, and leaves a sound outbox.  A closed one has nothing to send. -/
theorem drain_eq {box : Outbox} (room : Nat) (limit : Limit) (h : box.Sound) :
    ∃ after output, box.drain room limit = (after, .ok output) ∧
      Drained (box.allowance limit) room box.backlog after.backlog output ∧ after.Sound ∧
      after.cap = box.cap ∧ after.closed = box.closed ∧ after.dispatched = box.dispatched + output.completed := by
  cases hclosed : box.closed with
  | true =>
    have hempty := h.emptied hclosed
    have hnone : (box.allowance limit).among box.backlog.length = 0 := by
      rw [hempty]
      exact Limit.among_zero _
    exact ⟨box, .nothing, drain_of_closed room limit h.free hclosed, .nothing h.live hnone, h, rfl, hclosed, rfl⟩
  | false =>
    have hsettled : { box with lock := ⟨true⟩ }.Settled := ⟨h.begun, h.heldLen, h.charged, h.describable⟩
    obtain ⟨after, output, hpack, hdrained, hafter, hcap, hdispatched, hstill⟩ := pack_eq room limit hsettled
    have hless : after.charged ≤ after.cap := by
      rw [hcap]
      refine Nat.le_trans ?_ h.capped
      rw [hafter.charged, h.charged]
      exact Nat.le_of_add_right_le (Nat.le_of_eq hdrained.charge_add)
    have hopen : after.closed = false := hstill.trans hclosed
    refine ⟨_, output, drain_of_open h.free hclosed hpack, hdrained, ?_, hcap, hopen, ?_⟩
    · exact { begun := hafter.begun, heldLen := hafter.heldLen, charged := hafter.charged,
              describable := hafter.describable, free := rfl, mirrored := rfl, capped := hless,
              emptied := fun hshut => by rw [hopen] at hshut; cases hshut }
    · exact congrArg (· + output.completed) hdispatched

/-! ## One buffer of a flush -/

/-- How many of the pending frames a limit lets through. -/
def quota (box : Outbox) (limit : Limit) : Nat := limit.among box.backlog.length

/-- The bytes of the pending frames that a limit lets through. -/
def allowed (box : Outbox) (limit : Limit) : List UInt8 := unsentOf (box.backlog.take (box.quota limit))

/-- One buffer of a flush put out `output`: the front of what the limit allows.  What is left of it is what the rest of
the limit allows. -/
structure Step (limit : Limit) (room : Nat) (box after : Outbox) (output : Output) : Prop where
  bytes : output.bytes = (box.allowed limit).take room
  allowed : after.allowed (limit.less output.completed) = (box.allowed limit).drop room
  quota : after.quota (limit.less output.completed) + output.completed = box.quota limit
  backlog : after.backlog.drop (after.quota (limit.less output.completed)) = box.backlog.drop (box.quota limit)
  dispatched : after.dispatched = box.dispatched + output.completed
  sound : after.Sound

theorem drain_step {box : Outbox} {limit : Limit} (room : Nat) (h : box.Sound) (hlimit : limit.isReached = false) :
    ∃ after output, box.drain room limit = (after, .ok output) ∧ box.Step limit room after output := by
  obtain ⟨after, output, hdrain, hdrained, hafter, -, -, hdispatched⟩ := drain_eq room limit h
  rw [allowance_of_not_reached box hlimit] at hdrained
  obtain ⟨hquota, hallowed, hbacklog⟩ := hdrained.remaining h.live
  exact ⟨after, output, hdrain, hdrained.bytes, hallowed, hquota, hbacklog, hdispatched, hafter⟩

theorem quota_of_isReached {limit : Limit} (box : Outbox) (h : limit.isReached = true) : box.quota limit = 0 :=
  Limit.among_of_isReached h _

/-- Every pending frame has something to send, so nothing is allowed only if no frame is. -/
theorem Sound.quota_eq_zero {box : Outbox} {limit : Limit} (h : box.Sound) (hnone : box.allowed limit = []) :
    box.quota limit = 0 := by
  have hnil : box.backlog.take (box.quota limit) = [] := (h.live.take _).eq_nil hnone
  have hlength : (box.backlog.take (box.quota limit)).length = box.quota limit :=
    List.length_take_of_le (limit.among_le _)
  rw [← hlength, hnil]
  rfl

/-- Nothing is allowed once a limit is reached. -/
theorem allowed_of_isReached {limit : Limit} (box : Outbox) (h : limit.isReached = true) : box.allowed limit = [] := by
  rw [allowed, box.quota_of_isReached h]
  rfl

/-- A buffer that has room for all that is allowed is the last one. -/
theorem Step.last {limit : Limit} {room : Nat} {box after : Outbox} {output : Output}
    (h : box.Step limit room after output) (hroom : (box.allowed limit).length ≤ room) :
    output.bytes = box.allowed limit ∧ output.completed = box.quota limit ∧
      after.backlog = box.backlog.drop (box.quota limit) := by
  have hnone : after.allowed (limit.less output.completed) = [] := by
    rw [h.allowed, List.drop_of_length_le hroom]
  have hzero := h.sound.quota_eq_zero hnone
  refine ⟨?_, ?_, ?_⟩
  · rw [h.bytes, List.take_of_length_le hroom]
  · rw [← h.quota, hzero, Nat.zero_add]
  · rw [← h.backlog, hzero, List.drop_zero]

end Outbox
end FramedLink
