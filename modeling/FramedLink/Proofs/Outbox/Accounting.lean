import Mathlib.Algebra.Ring.Nat
import FramedLink.Proofs.Outbox.History
/-!
# The accounts of an outbox

The charge of a payload is taken when it is accepted and given back in one of three places: when its frame fits at once,
when its frame was held and is finished, and when the outbox is closed.  `Outbox.releases` lists what a call gives back,
in order.  A release is never larger than what is charged at that moment, so the charge can be kept in a machine word
that is only added to and subtracted from (`reserve`).

Main statement: what an outbox keeps by hand agrees with what it holds, after any calls (`Outbox.accounting`).
-/
namespace FramedLink

theorem foldl_sub : ∀ (releases : List Nat) (charge : Nat), releases.foldl (· - ·) charge = charge - releases.sum
  | [], charge => rfl
  | n :: releases, charge => by
    rw [List.foldl_cons, foldl_sub releases, List.sum_cons]
    omega

/-! ## The held frame -/

namespace Encoder

/-- The held frame is the rest of the frame of some payload, whose whole length it carries. -/
def HoldsRest (encoder : Encoder) : Prop :=
  ∀ held, encoder.held = some held →
    ∃ (payload : Payload) (written : List UInt8),
      frame payload = written ++ held.unsent ∧ held.payloadLen = payload.length

theorem holdsRest_fresh : fresh.HoldsRest := fun held h => by cases h

theorem HoldsRest.write {held : Held} (h : (Encoder.mk (some held)).HoldsRest) (room : Nat) :
    (Encoder.mk (some (held.write room).2)).HoldsRest := by
  obtain ⟨payload, written, hframe, hlength⟩ := h held rfl
  intro rest hrest
  cases hrest
  refine ⟨payload, written ++ held.unsent.take room, ?_, hlength⟩
  rw [Held.write_unsent, List.append_assoc, List.take_append_drop]
  exact hframe

theorem HoldsRest.offer {encoder : Encoder} (h : encoder.HoldsRest) {room : Nat} {payload : Payload}
    {emission : Emission} (hoffer : encoder.offer room payload = .ok emission) : emission.encoder.HoldsRest := by
  have hnew : (Encoder.mk (some (Held.ofPayload payload))).HoldsRest := by
    intro held hheld
    cases hheld
    exact ⟨payload, [], rfl, rfl⟩
  unfold Encoder.offer at hoffer
  split at hoffer
  · cases hoffer
  · split at hoffer
    · cases hoffer
    · split at hoffer
      · cases hoffer
        exact h
      · cases hoffer
        exact hnew.write room

theorem HoldsRest.resume {encoder : Encoder} (h : encoder.HoldsRest) {room : Nat} {emission : Emission}
    (hresume : encoder.resume room = .ok emission) : emission.encoder.HoldsRest := by
  cases encoder with
  | mk held? =>
  cases held? with
  | none => cases hresume
  | some held =>
    simp only [Encoder.resume] at hresume
    split at hresume
    · cases hresume
      exact holdsRest_fresh
    · cases hresume
      exact h.write room

end Encoder

namespace Outbox

open Encoder (HoldsRest)

theorem holdsRest_packWaiting : ∀ (payloads : List Payload) (box : Outbox) (room : Nat) (limit : Limit),
    box.encoder.HoldsRest → (box.packWaiting room limit payloads).box.encoder.HoldsRest
  | [], _, _, _, h => h
  | payload :: rest, box, room, limit, h => by
    unfold packWaiting
    split
    · exact h
    · split
      · exact h
      · rename_i hoffer
        exact holdsRest_packWaiting rest _ _ _ (h.offer hoffer)
      · rename_i hoffer
        exact h.offer hoffer

theorem holdsRest_pack {box : Outbox} (h : box.encoder.HoldsRest) (room : Nat) (limit : Limit) :
    (box.pack room limit).box.encoder.HoldsRest := by
  unfold pack
  split
  · split
    · exact h
    · rename_i hresume
      exact h.resume hresume
    · rename_i hresume
      exact holdsRest_packWaiting _ _ _ _ (h.resume hresume)
  · exact holdsRest_packWaiting _ _ _ _ h

theorem holdsRest_drain {box : Outbox} (h : box.encoder.HoldsRest) (room : Nat) (limit : Limit) :
    (box.drain room limit).1.encoder.HoldsRest := by
  unfold drain
  split
  · exact h
  · rename_i lock _
    split
    · exact h
    · have hlocked : ({ box with lock } : Outbox).encoder.HoldsRest := h
      have hpack := holdsRest_pack hlocked room limit
      dsimp only
      split
      · exact hpack
      · exact hpack

theorem holdsRest_call {box : Outbox} (h : box.encoder.HoldsRest) (call : OutboxCall) :
    (box.call call).encoder.HoldsRest := by
  cases call with
  | enqueue payload =>
    simp only [Outbox.call, enqueue]
    split
    · exact h
    · exact h
  | flush buffer offset limit =>
    simp only [Outbox.call, flush]
    split
    · exact h
    · exact holdsRest_drain h _ _
  | close =>
    simp only [Outbox.call, close]
    split
    · exact h
    · exact Encoder.holdsRest_fresh

/-- **A held frame is the rest of a payload's frame**, whatever calls have led to it. -/
theorem holdsRest_after : ∀ (calls : List OutboxCall) {box : Outbox}, box.encoder.HoldsRest →
    (box.after calls).encoder.HoldsRest
  | [], _, h => h
  | call :: calls, _, h => holdsRest_after calls (holdsRest_call h call)

/-! ## What a call gives back -/

/-- What is charged for each pending frame, as the outbox itself keeps it. -/
def charges (box : Outbox) : List Nat :=
  (if box.encoder.isHolding then [box.heldLen] else []) ++ box.waiting.map List.length

/-- What a call takes off the charge, release by release: a flush, one for each frame that it completes, and closing,
all that is left in one. -/
def releases (box : Outbox) : OutboxCall → List Nat
  | .enqueue _ => []
  | .flush buffer offset limit =>
    match (box.flush buffer offset limit).2 with
    | .ok (output, _) => box.charges.take output.completed
    | .error _ => []
  | .close => if box.closed then [] else [box.heldLen + (box.waiting.map List.length).sum]

/-- What a call puts on the charge. -/
def reservation (box : Outbox) : OutboxCall → Nat
  | .enqueue payload => if box.admits payload.length then payload.length else 0
  | .flush _ _ _ | .close => 0

theorem charged_packWaiting : ∀ (payloads : List Payload) (box : Outbox) (room : Nat) (limit : Limit),
    let packed := box.packWaiting room limit payloads
    packed.box.charged = ((payloads.map List.length).take packed.output.completed).foldl (· - ·) box.charged
  | [], _, _, _ => rfl
  | payload :: rest, box, room, limit => by
    unfold packWaiting
    split
    · rfl
    · split
      · rfl
      · exact charged_packWaiting rest _ _ _
      · rfl

theorem charged_pack (box : Outbox) (room : Nat) (limit : Limit) :
    let packed := box.pack room limit
    packed.box.charged = (box.charges.take packed.output.completed).foldl (· - ·) box.charged := by
  unfold pack charges
  split
  · split
    · rfl
    · rfl
    · exact charged_packWaiting box.waiting _ _ _
  · exact charged_packWaiting box.waiting box room limit

/-- The releases of a flush are those that its loop makes, whatever is charged at its start. -/
theorem charged_drain {box after : Outbox} {room : Nat} {limit : Limit} {output : Output}
    (h : box.drain room limit = (after, .ok output)) :
    after.charged = (box.charges.take output.completed).foldl (· - ·) box.charged := by
  unfold drain at h
  split at h
  · cases h
  · rename_i lock _
    split at h
    · cases h
      rfl
    · have hpack := charged_pack { box with lock } room limit
      dsimp only at h hpack
      split at h
      · cases h
      · cases h
        exact hpack

theorem Sound.sum_charges {box : Outbox} (h : box.Sound) : box.charges.sum = box.charged := by
  rw [h.charged, charges, backlog, h.heldLen, List.map_append, List.sum_append, List.sum_append, List.map_map]
  cases hheld : box.encoder.held <;>
    simp [Encoder.isHolding, Encoder.heldPayloadLen, hheld, Pending.ofHeld, Pending.ofPayload, Function.comp_def]

/-- A flush of a sound outbox fails on its offset only, and then changes nothing. -/
theorem flush_cases {box : Outbox} (h : box.Sound) (buffer : List UInt8) (offset : Nat) (limit : Limit) :
    (∃ e, box.flush buffer offset limit = (box, .error e)) ∨
      ∃ after output, box.drain (buffer.length - offset) limit = (after, .ok output) ∧
        box.flush buffer offset limit = (after, .ok (output, overwrite buffer offset output.bytes)) := by
  unfold flush
  split
  · exact .inl ⟨_, rfl⟩
  · obtain ⟨after, output, hdrain, -⟩ := drain_eq (buffer.length - offset) limit h
    exact .inr ⟨after, output, hdrain, by rw [hdrain]; rfl⟩

/-- **A call of a sound outbox** adds what it reserves and takes off what it releases, and no release is larger than
what is charged then. -/
theorem charged_call {box : Outbox} (h : box.Sound) (call : OutboxCall) :
    (box.call call).charged = (box.releases call).foldl (· - ·) (box.charged + box.reservation call) ∧
      (box.releases call).sum ≤ box.charged := by
  cases call with
  | enqueue payload =>
    refine ⟨?_, Nat.zero_le _⟩
    simp only [Outbox.call, enqueue, releases, reservation, List.foldl_nil]
    split <;> rfl
  | flush buffer offset limit =>
    rcases flush_cases h buffer offset limit with ⟨e, hflush⟩ | ⟨after, output, hdrain, hflush⟩
    · simp only [Outbox.call, releases, reservation, hflush]
      exact ⟨rfl, Nat.zero_le _⟩
    · simp only [Outbox.call, releases, reservation, hflush]
      refine ⟨charged_drain hdrain, ?_⟩
      rw [← h.sum_charges]
      conv => rhs; rw [← List.take_append_drop output.completed box.charges, List.sum_append]
      exact Nat.le_add_right _ _
  | close =>
    cases hclosed : box.closed with
    | true => simp [Outbox.call, close, releases, reservation, hclosed]
    | false =>
      have hsum := h.sum_charges
      have hheld : (if box.encoder.isHolding then [box.heldLen] else []).sum = box.heldLen := by
        rw [h.heldLen, Encoder.isHolding, Encoder.heldPayloadLen]
        cases box.encoder.held <;> simp
      rw [charges, List.sum_append, hheld] at hsum
      simp [Outbox.call, close, releases, reservation, hclosed, discharge, List.length_flatten, hsum]

/-! ## The charge in a machine word -/

/-- Admission where the charge is kept in a machine word: the word with a length added, if the sum does not overflow
and stays within the cap. -/
def reserve (cap charged length : UInt64) : Option UInt64 :=
  if charged.toNat + length.toNat < UInt64.size ∧ charged + length ≤ cap then some (charged + length) else none

/-- **Admission in a machine word is exact**, up to the largest cap that there is. -/
theorem reserve_ofNat {cap charged length : Nat} (hcap : cap < UInt64.size) (hcharged : charged ≤ cap)
    (hlength : length < UInt64.size) :
    reserve (.ofNat cap) (.ofNat charged) (.ofNat length) =
      if charged + length ≤ cap then some (.ofNat (charged + length)) else none := by
  have hword : ∀ {n : Nat}, n < UInt64.size → (UInt64.ofNat n).toNat = n := UInt64.toNat_ofNat_of_lt
  have hsum : UInt64.ofNat charged + UInt64.ofNat length = UInt64.ofNat (charged + length) :=
      (UInt64.ofNat_add _ _).symm
  have hiff : (charged + length < UInt64.size ∧ UInt64.ofNat (charged + length) ≤ UInt64.ofNat cap) ↔
      charged + length ≤ cap := by
    constructor
    · rintro ⟨hfits, hle⟩
      rwa [UInt64.le_iff_toNat_le, hword hfits, hword hcap] at hle
    · intro hle
      have hfits : charged + length < UInt64.size := Nat.lt_of_le_of_lt hle hcap
      refine ⟨hfits, ?_⟩
      rwa [UInt64.le_iff_toNat_le, hword hfits, hword hcap]
  simp only [reserve, hsum, hword hlength, hword (Nat.lt_of_le_of_lt hcharged hcap), hiff]

/-! ## The accounts -/

theorem cap_after : ∀ (calls : List OutboxCall) {box : Outbox}, box.Sound → (∀ call ∈ calls, call.IsDescribable) →
    (box.after calls).cap = box.cap
  | [], _, _, _ => rfl
  | call :: calls, box, h, hcalls => by
    obtain ⟨hcall, hrest⟩ := List.forall_mem_cons.1 hcalls
    have hsound : (box.call call).Sound := Sound.after [call] h (List.forall_mem_singleton.2 hcall)
    refine (cap_after calls hsound hrest).trans ?_
    cases call with
    | enqueue payload =>
      simp only [Outbox.call, enqueue]
      split <;> rfl
    | flush buffer offset limit =>
      simp only [Outbox.call, flush]
      split
      · rfl
      · obtain ⟨after, output, hdrain, -, -, hcap, -⟩ := drain_eq (buffer.length - offset) limit h
        rw [hdrain]
        exact hcap
    | close =>
      simp only [Outbox.call, close]
      split <;> rfl

theorem Sound.isEmpty_iff {box : Outbox} (h : box.Sound) : box.isEmpty = true ↔ box.unsent = [] := by
  rw [unsent, unsent_append_frames_eq_nil h.begun, isEmpty, h.mirrored]
  cases box.waiting <;> simp

/-- **The accounts of an outbox** after any calls, failing ones among them.  The charge is that of the payloads that
wait and of the held frame, within the cap; the length and the mirror of the held frame are those of the encoder; what
is closed is empty.  Every further call adds what it reserves and takes off what it releases, never more than is charged
then.  A payload is taken in exactly if the outbox is open and the sum stays within the cap, also where the charge is
kept in a machine word, and a refusal changes nothing. -/
theorem accounting (cap : Nat) {calls : List OutboxCall} (h : ∀ call ∈ calls, call.IsDescribable) :
    let box := (ofCap cap).after calls
    box.charged = (box.waiting.map List.length).sum + box.encoder.heldPayloadLen.getD 0 ∧
    box.encoder.HoldsRest ∧ box.cap = cap ∧ box.charged ≤ cap ∧
    box.heldLen = box.encoder.heldPayloadLen.getD 0 ∧ box.holding = box.encoder.isHolding ∧
    (box.isEmpty = true ↔ box.unsent = []) ∧
    (box.closed = true → box.waiting = [] ∧ box.encoder.held = none ∧ box.charged = 0) ∧
    (∀ call : OutboxCall,
      (box.call call).charged = (box.releases call).foldl (· - ·) (box.charged + box.reservation call) ∧
      ∀ before n later, box.releases call = before ++ n :: later → n ≤ before.foldl (· - ·) box.charged) ∧
    ∀ payload : Payload,
      ((box.enqueue payload).2 = true ↔ box.closed = false ∧ box.charged + payload.length ≤ cap) ∧
      ((box.enqueue payload).2 = false → (box.enqueue payload).1 = box) ∧
      (cap < UInt64.size → payload.length < UInt64.size →
        (box.enqueue payload).2 =
          (!box.closed && (reserve (.ofNat cap) (.ofNat box.charged) (.ofNat payload.length)).isSome)) := by
  intro box
  have hsound : box.Sound := sound_after cap h
  have hcap : box.cap = cap := cap_after calls (sound_ofCap cap) h
  have hwithin : box.charged ≤ cap := hcap ▸ hsound.capped
  have hcharged : box.charged = (box.waiting.map List.length).sum + box.encoder.heldPayloadLen.getD 0 := by
    rw [hsound.charged, backlog, List.map_append, List.sum_append, List.map_map, Nat.add_comm]
    cases hheld : box.encoder.held <;>
      simp [Encoder.heldPayloadLen, hheld, Pending.ofHeld, Pending.ofPayload, Function.comp_def]
  have hadmits : ∀ length, box.admits length = true ↔ box.closed = false ∧ box.charged + length ≤ cap := by
    intro length
    simp [admits, hcap]
  refine ⟨hcharged, holdsRest_after calls Encoder.holdsRest_fresh, hcap, hwithin, hsound.heldLen, hsound.mirrored,
    hsound.isEmpty_iff, fun hclosed => ?_, fun call => ?_,
    fun payload => ⟨?_, fun hrefused => ?_, fun hword hlength => ?_⟩⟩
  · have hnone := hsound.emptied hclosed
    have hzero : box.charged = 0 := by rw [hsound.charged, hnone]; rfl
    rw [backlog, List.append_eq_nil_iff] at hnone
    refine ⟨List.map_eq_nil_iff.1 hnone.2, ?_, hzero⟩
    cases hheld : box.encoder.held with
    | none => rfl
    | some held =>
      rw [hheld] at hnone
      cases hnone.1
  · obtain ⟨hcall, hsum⟩ := charged_call hsound call
    refine ⟨hcall, fun before n later hsplit => ?_⟩
    rw [hsplit, List.sum_append, List.sum_cons] at hsum
    rw [foldl_sub]
    omega
  · rw [enqueue_snd]
    exact hadmits payload.length
  · rw [enqueue_snd] at hrefused
    exact enqueue_of_refused hrefused
  · rw [enqueue_snd, reserve_ofNat hword hwithin hlength]
    by_cases hroom : box.charged + payload.length ≤ cap <;> simp [admits, hcap, hroom]

/-- A frame is held between two flushes, a third has a bad offset, and what waits is dropped, under the largest cap of a
machine word. -/
theorem accounting_largestCap :
    let box := (ofCap (2 ^ 64 - 1)).after
      [.enqueue [1, 2, 3], .enqueue [4], .flush (List.replicate 5 0) 0 none, .flush [0] 2 (some 1), .close]
    (box.closed = true → box.waiting = [] ∧ box.encoder.held = none ∧ box.charged = 0) ∧ box.closed = true :=
  ⟨(accounting (2 ^ 64 - 1) (by decide)).2.2.2.2.2.2.2.1, by decide⟩

end Outbox
end FramedLink
