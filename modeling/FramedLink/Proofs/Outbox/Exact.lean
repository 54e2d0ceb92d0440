import FramedLink.Proofs.Outbox.Bound
/-!
# The exact result of a flush

What a flush puts into a buffer has a closed form, whichever of three reasons stops it: the room in the buffer, the
limit on completed frames, or nothing left to send.  The limit lets the flush send up to the end of some frame
(`Outbox.reach`); as much of this goes out as there is room for, and the frames that end in it are completed
(`frameEnds`).

Main statement: what is written, completed, discharged and left, by that form (`Outbox.flush_exact`).
-/
namespace FramedLink

/-- Where frames end when they are joined. -/
def frameEnds : List (List UInt8) → List Nat
  | [] => []
  | first :: rest => first.length :: (frameEnds rest).map (first.length + ·)

/-- A backlog loses the frames that end in what has been sent. -/
theorem countP_frameEnds : ∀ (backlog : List Pending) (n : Nat),
    (frameEnds (backlog.map Pending.unsent)).countP (· ≤ n) + (advance n backlog).length = backlog.length
  | [], _ => rfl
  | entry :: rest, n => by
    rw [List.map_cons, frameEnds, List.countP_cons, List.countP_map, advance]
    by_cases hwhole : entry.unsent.length ≤ n
    · have hcount : (frameEnds (rest.map Pending.unsent)).countP
          ((fun k => decide (k ≤ n)) ∘ (entry.unsent.length + ·)) =
            (frameEnds (rest.map Pending.unsent)).countP (· ≤ n - entry.unsent.length) := by
        refine List.countP_congr fun k _ => ?_
        simp only [Function.comp_apply, decide_eq_true_eq]
        omega
      have hlater := countP_frameEnds rest (n - entry.unsent.length)
      rw [hcount, if_pos (decide_eq_true hwhole), if_pos hwhole, List.length_cons]
      omega
    · have hcount : (frameEnds (rest.map Pending.unsent)).countP
          ((fun k => decide (k ≤ n)) ∘ (entry.unsent.length + ·)) = 0 := by
        refine List.countP_eq_zero.2 fun k _ => ?_
        simp only [Function.comp_apply, decide_eq_true_eq]
        omega
      rw [hcount, if_neg (by simpa using hwhole), if_neg hwhole]
      simp

namespace Outbox

/-- How many bytes a limit lets a flush send: all up to the end of the last frame that it may complete.  The held frame
may always be completed. -/
def reach (box : Outbox) : Limit → Nat
  | none => box.unsent.length
  | some m => (box.pending.take (max m (if box.encoder.isHolding then 1 else 0))).flatten.length

theorem length_among_allowance (box : Outbox) (limit : Limit) :
    (unsentOf (box.backlog.take ((box.allowance limit).among box.backlog.length))).length = box.reach limit := by
  cases limit with
  | none =>
    have hall : box.allowance none = none := by simp [allowance, Limit.atLeastOne]
    rw [hall, reach, unsent_eq, Limit.among, List.take_length]
  | some m =>
    have hsome : box.allowance (some m) = some (max m (if box.encoder.isHolding then 1 else 0)) := by
      unfold allowance
      split <;> simp [Limit.atLeastOne, Nat.max_comm]
    rw [hsome, reach, flatten_take_pending, Limit.among, ← List.take_eq_take_min]

/-- What a flush comes to: what it put into the buffer, what it counted and gave back, and what it left. -/
structure Fills (box : Outbox) (limit : Limit) (buffer : List UInt8) (offset : Nat) (after : Outbox) (output : Output)
    (filled : List UInt8) : Prop where
  written : output.bytes.length = min (buffer.length - offset) (box.reach limit)
  size : filled.length = buffer.length
  front : filled.take offset = buffer.take offset
  window : (filled.drop offset).take output.bytes.length = box.unsent.take output.bytes.length
  back : filled.drop (offset + output.bytes.length) = buffer.drop (offset + output.bytes.length)
  completed : output.completed = (frameEnds box.pending).countP (· ≤ output.bytes.length)
  left : after.unsent = box.unsent.drop output.bytes.length
  charged : after.charged + (box.pendingLengths.take output.completed).sum = box.charged
  within : ∀ m, limit = some m → 1 ≤ m → output.completed ≤ m
  progress : limit.isReached = false → offset < buffer.length → output.bytes.length = 0 → box.unsent = []

theorem fills_of_drained {box after : Outbox} {limit : Limit} {buffer : List UInt8} {offset : Nat} {output : Output}
    (hbox : box.Sound) (hafter : after.Sound) (hinside : offset ≤ buffer.length)
    (h : Drained (box.allowance limit) (buffer.length - offset) box.backlog after.backlog output) :
    box.Fills limit buffer offset after output (overwrite buffer offset output.bytes) := by
  have hlength : output.bytes.length = min (buffer.length - offset) (box.reach limit) := by
    rw [h.bytes, List.length_take, length_among_allowance]
  have hend : offset + output.bytes.length ≤ buffer.length := by omega
  have hsent : box.unsent.take output.bytes.length = output.bytes := by
    rw [unsent_eq, ← h.unsent, List.take_left]
  refine { written := hlength, size := length_overwrite hend, front := take_overwrite _ hinside, window := ?_,
           back := ?_, completed := ?_, left := ?_, charged := ?_, within := ?_, progress := ?_ }
  · rw [drop_overwrite _ hinside, List.take_left, hsent]
  · rw [← List.drop_drop, drop_overwrite _ hinside, List.drop_left]
  · have hcount := countP_frameEnds box.backlog output.bytes.length
    have hcompleted := h.completed
    rw [← h.backlog] at hcount
    rw [pending_eq]
    omega
  · rw [unsent_eq, unsent_eq, h.backlog, unsentOf_advance]
  · rw [hafter.charged, hbox.charged, pendingLengths_eq]
    exact h.charge_add
  · rintro m rfl hm
    have hlimit : Limit.isReached (some m) = false :=
      decide_eq_false fun hzero => Nat.ne_of_gt hm (Option.some.inj hzero)
    obtain ⟨front, -, hfront, -⟩ := h.cut hbox.live
    rw [allowance_of_not_reached box hlimit, Limit.among] at hfront
    omega
  · intro hlimit hroom hnothing
    have hnone : box.allowed limit = [] := by
      have hbytes := h.bytes
      rw [allowance_of_not_reached box hlimit, List.length_eq_zero_iff.1 hnothing] at hbytes
      rcases List.take_eq_nil_iff.1 hbytes.symm with hzero | hnil
      · omega
      · exact hnil
    have hquota := hbox.quota_eq_zero hnone
    rw [unsent_eq]
    cases hbacklog : box.backlog with
    | nil => rfl
    | cons entry rest =>
      rw [quota, hbacklog, List.length_cons, Limit.among_succ hlimit] at hquota
      cases hquota

/-- **The exact result of a flush**, of any outbox that calls lead to, into any buffer from any offset in it, under any
limit.  Written is what the limit lets it send, or as much of this as there is room for, and no other byte of the buffer
is touched.  The frames that end in it are completed and their charge is given back; what is left is what was to be
sent, without it. -/
theorem flush_exact (cap : Nat) {calls : List OutboxCall} (h : ∀ call ∈ calls, call.IsDescribable)
    {buffer : List UInt8} {offset : Nat} (hinside : offset ≤ buffer.length) (limit : Limit) :
    let box := (ofCap cap).after calls
    ∃ after output filled, box.flush buffer offset limit = (after, .ok (output, filled)) ∧
      box.flushInto buffer offset limit = ⟨after, filled, .ok output⟩ ∧
      box.Fills limit buffer offset after output filled := by
  intro box
  have hsound : box.Sound := sound_after cap h
  obtain ⟨after, output, hflush, hdrained, hafter⟩ := hsound.flush_of_inside limit hinside
  exact ⟨after, output, _, hflush, flushInto_of_flush hflush, fills_of_drained hsound hafter hinside hdrained⟩

/-- The first frame ends with the buffer, and all of the second is left. -/
theorem flush_exact_bufferJustFull :
    let box := (ofCap 20).after [.enqueue [1, 2, 3], .enqueue [4]]
    ∃ after output filled, box.flush (List.replicate 8 0) 1 none = (after, .ok (output, filled)) ∧
      output.bytes.length = 7 ∧ output.completed = 1 ∧ after.unsent = frame [4] ∧ after.charged = 1 := by
  intro box
  obtain ⟨after, output, filled, hflush, -, hfills⟩ := flush_exact 20
    (show ∀ call ∈ [.enqueue [1, 2, 3], .enqueue [4]], OutboxCall.IsDescribable call by decide)
    (show 1 ≤ (List.replicate 8 0 : List UInt8).length by decide) none
  have hwritten : output.bytes.length = 7 := hfills.written.trans (by decide)
  have hcompleted : output.completed = 1 := by
    rw [hfills.completed, hwritten]
    decide
  have hleft := hfills.left
  have hcharged := hfills.charged
  rw [hwritten] at hleft
  rw [hcompleted, show ((box.pendingLengths.take 1).sum = 3) by decide, show box.charged = 1 + 3 by decide] at hcharged
  exact ⟨after, output, filled, hflush, hwritten, hcompleted, hleft.trans (by decide), Nat.add_right_cancel hcharged⟩

end Outbox
end FramedLink
