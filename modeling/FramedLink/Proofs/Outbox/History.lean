import FramedLink.Proofs.Outbox.Draining
/-!
# Histories of an outbox

Every outbox that calls lead to is sound (`sound_after`), whatever the calls: payloads that are taken in or refused,
flushes into any buffer from any offset on and with any limit, and closing.  That a closed outbox stays closed and empty
does not depend on the payloads being describable (`Onward`).
-/
namespace FramedLink

inductive OutboxCall where
  | enqueue (payload : Payload)
  | flush (buffer : List UInt8) (offset : Nat) (limit : Limit)
  | close
deriving DecidableEq

/-- Every payload that a call brings has a length that a header can describe. -/
def OutboxCall.IsDescribable : OutboxCall → Prop
  | enqueue payload => payload.length < lengthLimit
  | flush _ _ _ | close => True

instance (call : OutboxCall) : Decidable call.IsDescribable := by
  cases call <;> unfold OutboxCall.IsDescribable <;> infer_instance

namespace Outbox

def call (box : Outbox) : OutboxCall → Outbox
  | .enqueue payload => (box.enqueue payload).1
  | .flush buffer offset limit => (box.flush buffer offset limit).1
  | .close => box.close

def after (box : Outbox) (calls : List OutboxCall) : Outbox := calls.foldl call box

theorem sound_ofCap (cap : Nat) : (ofCap cap).Sound where
  begun := Encoder.sound_fresh
  heldLen := rfl
  charged := rfl
  describable := fun _ h => by cases h
  free := rfl
  mirrored := rfl
  capped := Nat.zero_le cap
  emptied := fun _ => rfl

/-- A payload that is taken in stands behind all others. -/
theorem backlog_enqueue {box : Outbox} {payload : Payload} (h : box.admits payload.length = true) :
    (box.enqueue payload).1.backlog = box.backlog ++ [.ofPayload payload] := by
  rw [enqueue, if_pos h, backlog, backlog, List.map_append, ← List.append_assoc]
  rfl

theorem enqueue_of_refused {box : Outbox} {payload : Payload} (h : box.admits payload.length = false) :
    (box.enqueue payload).1 = box := by
  rw [enqueue, if_neg (by rw [h]; exact Bool.false_ne_true)]

theorem Sound.enqueue {box : Outbox} {payload : Payload} (h : box.Sound) (hpayload : payload.length < lengthLimit) :
    (box.enqueue payload).1.Sound := by
  cases hadmits : box.admits payload.length with
  | false =>
    rw [enqueue_of_refused hadmits]
    exact h
  | true =>
    have hroom : box.closed = false ∧ box.charged + payload.length ≤ box.cap := by
      simpa only [admits, Bool.and_eq_true, Bool.not_eq_true', decide_eq_true_eq] using hadmits
    have hbacklog := backlog_enqueue hadmits
    rw [Outbox.enqueue, if_pos hadmits] at hbacklog ⊢
    refine { begun := h.begun, heldLen := h.heldLen, charged := ?_, describable := ?_, free := h.free,
             mirrored := h.mirrored, capped := hroom.2, emptied := fun hclosed => ?_ }
    · rw [hbacklog, List.map_append, List.sum_append, ← h.charged]
      rfl
    · intro p hp
      rcases List.mem_append.1 hp with hp | hp
      · exact h.describable p hp
      · rw [List.mem_singleton.1 hp]
        exact hpayload
    · rw [show box.closed = true from hclosed] at hroom
      cases hroom.1

theorem Sound.flush {box : Outbox} (h : box.Sound) (buffer : List UInt8) (offset : Nat) (limit : Limit) :
    (box.flush buffer offset limit).1.Sound := by
  unfold Outbox.flush
  split
  · exact h
  · obtain ⟨after, output, hdrain, -, hsound, -⟩ := drain_eq (buffer.length - offset) limit h
    rw [hdrain]
    exact hsound

theorem backlog_close {box : Outbox} (h : box.Sound) : box.close.backlog = [] := by
  unfold close
  split
  · rename_i hclosed
    exact h.emptied hclosed
  · exact backlog_of_free rfl

theorem Sound.close {box : Outbox} (h : box.Sound) : box.close.Sound := by
  have hbacklog := backlog_close h
  cases hclosed : box.closed with
  | true =>
    rw [Outbox.close, if_pos hclosed]
    exact h
  | false =>
    have hcharged : box.charged = box.heldLen + (box.waiting.map List.length).sum := by
      rw [h.charged, h.heldLen, backlog, List.map_append, List.sum_append, List.map_map]
      cases hheld : box.encoder.held <;> simp [Encoder.heldPayloadLen, hheld, Pending.ofHeld, Function.comp_def,
        Pending.ofPayload]
    rw [Outbox.close, if_neg (by rw [hclosed]; exact Bool.false_ne_true)] at hbacklog ⊢
    refine { begun := Encoder.sound_fresh, heldLen := rfl, charged := ?_,
             describable := fun _ hp => absurd hp List.not_mem_nil, free := h.free, mirrored := rfl, capped := ?_,
             emptied := fun _ => hbacklog }
    · rw [hbacklog]
      simp only [discharge, hcharged, List.length_flatten, Nat.sub_self, List.map_nil, List.sum_nil]
    · exact Nat.le_trans (Nat.sub_le _ _) h.capped

/-- **Every outbox that calls lead to is sound.** -/
theorem Sound.after : ∀ (calls : List OutboxCall) {box : Outbox}, box.Sound → (∀ call ∈ calls, call.IsDescribable) →
    (box.after calls).Sound
  | [], _, h, _ => h
  | call :: calls, box, h, hcalls => by
    obtain ⟨hcall, hrest⟩ := List.forall_mem_cons.1 hcalls
    have hnext : (box.call call).Sound := by
      cases call with
      | enqueue payload => exact h.enqueue hcall
      | flush buffer offset limit => exact h.flush buffer offset limit
      | close => exact h.close
    exact Sound.after calls hnext hrest

theorem sound_after (cap : Nat) {calls : List OutboxCall} (h : ∀ call ∈ calls, call.IsDescribable) :
    ((ofCap cap).after calls).Sound := (sound_ofCap cap).after calls h

/-! ## Whatever the payloads -/

theorem enqueue_of_closed {box : Outbox} (h : box.closed = true) (payload : Payload) :
    box.enqueue payload = (box, false) := by
  simp [enqueue, admits, h]

theorem closed_packWaiting : ∀ (payloads : List Payload) (box : Outbox) (room : Nat) (limit : Limit),
    (box.packWaiting room limit payloads).box.closed = box.closed
  | [], _, _, _ => rfl
  | payload :: rest, box, room, limit => by
    unfold packWaiting
    split
    · rfl
    · split
      · rfl
      · exact closed_packWaiting rest _ _ _
      · rfl

theorem closed_pack (box : Outbox) (room : Nat) (limit : Limit) : (box.pack room limit).box.closed = box.closed := by
  unfold pack
  split
  · split
    · rfl
    · rfl
    · exact closed_packWaiting _ _ _ _
  · exact closed_packWaiting _ _ _ _

/-- Nobody is flushing, and nothing is in the box once it is closed. -/
structure Orderly (box : Outbox) : Prop where
  free : box.lock = .free
  emptied : box.closed = true → box.waiting = [] ∧ box.encoder.held = none ∧ box.holding = false

/-- What may come of an outbox: it stays orderly, and closed if it is. -/
structure Onward (box after : Outbox) : Prop where
  orderly : box.Orderly → after.Orderly
  closed : box.closed = true → after.closed = true

theorem Onward.refl (box : Outbox) : box.Onward box := ⟨fun h => h, fun h => h⟩

theorem onward_enqueue (box : Outbox) (payload : Payload) : box.Onward (box.enqueue payload).1 := by
  cases hclosed : box.closed with
  | true =>
    rw [enqueue_of_closed hclosed]
    exact .refl box
  | false =>
    unfold enqueue
    split
    · refine ⟨fun h => ⟨h.free, fun hshut => ?_⟩, fun hshut => ?_⟩
      · exact absurd (hclosed.symm.trans hshut) Bool.false_ne_true
      · exact absurd (hclosed.symm.trans hshut) Bool.false_ne_true
    · exact .refl box

theorem onward_drain (box : Outbox) (room : Nat) (limit : Limit) : box.Onward (box.drain room limit).1 := by
  unfold drain
  split
  · exact .refl box
  · split
    · exact .refl box
    · rename_i hopen
      have hstill : ∀ lock, ({ box with lock }.pack room limit).box.closed = false :=
        fun lock => (closed_pack _ room limit).trans (Bool.eq_false_iff.2 hopen)
      dsimp only
      split <;> exact ⟨fun _ => ⟨rfl, fun hshut => absurd ((hstill _).symm.trans hshut) Bool.false_ne_true⟩,
        fun hshut => absurd hshut hopen⟩

theorem onward_flush (box : Outbox) (buffer : List UInt8) (offset : Nat) (limit : Limit) :
    box.Onward (box.flush buffer offset limit).1 := by
  unfold Outbox.flush
  split
  · exact .refl box
  · exact box.onward_drain _ limit

theorem closed_close (box : Outbox) : box.close.closed = true := by
  unfold close
  split
  · assumption
  · rfl

theorem onward_close (box : Outbox) : box.Onward box.close := by
  refine ⟨fun h => ?_, fun _ => box.closed_close⟩
  unfold close
  split
  · exact h
  · exact ⟨h.free, fun _ => ⟨rfl, rfl, rfl⟩⟩

end Outbox
end FramedLink
