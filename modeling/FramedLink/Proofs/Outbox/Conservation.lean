import Mathlib.Data.List.Basic
import FramedLink.Proofs.Outbox.Accounting
/-!
# What becomes of the payloads that an outbox takes in

Whoever calls an outbox sees which payloads it took in, the part of every buffer that a flush wrote, and how many frames
a flush says it completed (`Outbox.records`).  A payload that was taken in waits, is held while its frame is written in
part, and is completed, in the order of acceptance; only closing drops any.  The bytes written so far are the frames of
the completed payloads and the front of the held frame.

Main statement: this holds after any calls, failing ones among them, and once it is closed an outbox refuses every call
(`Outbox.conservation`).
-/
namespace FramedLink

/-! ## Histories with answers -/

/-- What a call of an outbox answers. -/
inductive OutboxAnswer where
  | taken (accepted : Bool)
  | flushed (result : Except QueueError (Output × List UInt8))
  | closed
deriving DecidableEq

/-- A call that was made, and its answer. -/
structure OutboxRecord where
  call : OutboxCall
  answer : OutboxAnswer
deriving DecidableEq

namespace OutboxRecord

/-- The payload that was taken in. -/
def accepted : OutboxRecord → List Payload
  | ⟨.enqueue payload, .taken true⟩ => [payload]
  | _ => []

/-- The part of the buffer that a flush wrote, as the caller finds it. -/
def window : OutboxRecord → List UInt8
  | ⟨.flush _ offset _, .flushed (.ok (output, buffer))⟩ => (buffer.drop offset).take output.bytes.length
  | _ => []

/-- How many frames a flush says it completed. -/
def completed : OutboxRecord → Nat
  | ⟨_, .flushed (.ok (output, _))⟩ => output.completed
  | _ => 0

/-- A call that a closed outbox has answered: no payload is taken in, nothing is written or completed, and the buffer is
as it was. -/
def refused (call : OutboxCall) : OutboxRecord :=
  ⟨call,
    match call with
    | .enqueue _ => .taken false
    | .flush buffer _ _ => .flushed (.ok (.nothing, buffer))
    | .close => .closed⟩

end OutboxRecord

/-- All payloads taken in, in order. -/
def acceptedIn (records : List OutboxRecord) : List Payload := records.flatMap OutboxRecord.accepted

/-- All bytes written, in order. -/
def windowsIn (records : List OutboxRecord) : List UInt8 := records.flatMap OutboxRecord.window

def completedIn (records : List OutboxRecord) : Nat := (records.map OutboxRecord.completed).sum

namespace Outbox

def answer (box : Outbox) : OutboxCall → OutboxAnswer
  | .enqueue payload => .taken (box.enqueue payload).2
  | .flush buffer offset limit => .flushed (box.flush buffer offset limit).2
  | .close => .closed

/-- Calls made one after the other, each with its answer. -/
def records (box : Outbox) : List OutboxCall → List OutboxRecord
  | [] => []
  | call :: calls => ⟨call, box.answer call⟩ :: (box.call call).records calls

theorem after_append (box : Outbox) (calls later : List OutboxCall) :
    box.after (calls ++ later) = (box.after calls).after later := List.foldl_append

theorem records_append : ∀ (box : Outbox) (calls later : List OutboxCall),
    box.records (calls ++ later) = box.records calls ++ (box.after calls).records later
  | _, [], _ => rfl
  | box, call :: calls, later => congrArg (_ :: ·) (records_append (box.call call) calls later)

end Outbox

/-! ## What is owed -/

theorem frame_injective : Function.Injective frame := fun _ _ h => List.append_inj_right h rfl

theorem Pending.ofPayload_injective : Function.Injective Pending.ofPayload := fun _ _ h =>
  frame_injective (congrArg Pending.unsent h)

/-- A backlog is what is left of the frames of some payloads when `written` has been sent of the first. -/
def Owes : List Payload → List UInt8 → List Pending → Prop
  | [], written, backlog => written = [] ∧ backlog = []
  | payload :: rest, written, backlog => ∃ unsent, unsent ≠ [] ∧ frame payload = written ++ unsent ∧
      backlog = ⟨unsent, payload.length⟩ :: rest.map .ofPayload

theorem owes_ofPayload (payloads : List Payload) : Owes payloads [] (payloads.map .ofPayload) := by
  cases payloads with
  | nil => exact ⟨rfl, rfl⟩
  | cons payload rest => exact ⟨frame payload, Encoder.frame_ne_nil payload, rfl, rfl⟩

namespace Owes

variable {payloads : List Payload} {written : List UInt8} {backlog : List Pending}

theorem length_eq (h : Owes payloads written backlog) : backlog.length = payloads.length := by
  cases payloads with
  | nil =>
    obtain ⟨-, rfl⟩ := h
    rfl
  | cons payload rest =>
    obtain ⟨unsent, -, -, rfl⟩ := h
    rw [List.length_cons, List.length_map, List.length_cons]

/-- One more payload is owed behind the others. -/
theorem concat (h : Owes payloads written backlog) (payload : Payload) :
    Owes (payloads ++ [payload]) written (backlog ++ [.ofPayload payload]) := by
  cases payloads with
  | nil =>
    obtain ⟨rfl, rfl⟩ := h
    exact owes_ofPayload [payload]
  | cons first rest =>
    obtain ⟨unsent, hunsent, hframe, rfl⟩ := h
    exact ⟨unsent, hunsent, hframe, by simp⟩

/-- **Bytes that are sent complete payloads from the front**, and of the next one they write a part. -/
theorem advance : ∀ {payloads : List Payload} {written : List UInt8} {backlog : List Pending},
    Owes payloads written backlog → ∀ n : Nat, ∃ (k : Nat) (front : List UInt8),
      k + (FramedLink.advance n backlog).length = backlog.length ∧
      Owes (payloads.drop k) front (FramedLink.advance n backlog) ∧
      written ++ (unsentOf backlog).take n = frames (payloads.take k) ++ front
  | [], _, _, ⟨hwritten, hbacklog⟩, n => by
    subst hwritten hbacklog
    exact ⟨0, [], rfl, ⟨rfl, rfl⟩, by rw [unsentOf_nil, List.take_nil]; rfl⟩
  | payload :: rest, written, _, ⟨unsent, hunsent, hframe, hbacklog⟩, n => by
    subst hbacklog
    rw [unsentOf_cons, List.take_append]
    rcases Nat.lt_or_ge n unsent.length with hfront | hwhole
    · rw [advance_front _ hfront, Nat.sub_eq_zero_of_le (Nat.le_of_lt hfront), List.take_zero, List.append_nil]
      have hleft : unsent.drop n ≠ [] := mt List.drop_eq_nil_iff.1 (Nat.not_le.2 hfront)
      refine ⟨0, written ++ unsent.take n, Nat.zero_add _, ⟨unsent.drop n, hleft, ?_, rfl⟩, rfl⟩
      rw [List.append_assoc, List.take_append_drop]
      exact hframe
    · obtain ⟨m, rfl⟩ := Nat.exists_eq_add_of_le hwhole
      obtain ⟨k, front, hlength, howes, hsent⟩ := (owes_ofPayload rest).advance m
      rw [@advance_whole ⟨unsent, payload.length⟩ m, Nat.add_sub_cancel_left, List.take_of_length_le hwhole]
      refine ⟨k + 1, front, ?_, howes, ?_⟩
      · rw [List.length_cons, ← hlength, Nat.add_right_comm]
      · rw [List.take_succ_cons, frames_cons, List.append_assoc, ← hsent, hframe, List.append_assoc]
        rfl

end Owes

/-- The encoder holds the frame of a payload, of which `written` has been written, or nothing. -/
def Encoder.HoldsOf (encoder : Encoder) (written : List UInt8) : Option Payload → Prop
  | none => encoder.held = none ∧ written = []
  | some payload => ∃ held, encoder.held = some held ∧ held.payloadLen = payload.length ∧ held.unsent ≠ [] ∧
      frame payload = written ++ held.unsent

/-- **What an outbox owes** is the payload that it holds and those that wait. -/
theorem Owes.split {payloads : List Payload} {written : List UInt8} {box : Outbox}
    (h : Owes payloads written box.backlog) :
    ∃ held, payloads = held.toList ++ box.waiting ∧ box.encoder.HoldsOf written held := by
  cases payloads with
  | nil =>
    obtain ⟨rfl, hbacklog⟩ := h
    obtain ⟨hheld, hwaiting⟩ := List.append_eq_nil_iff.1 hbacklog
    rw [Option.toList_eq_nil_iff, Option.map_eq_none_iff] at hheld
    exact ⟨none, (List.map_eq_nil_iff.1 hwaiting).symm, hheld, rfl⟩
  | cons payload rest =>
    obtain ⟨unsent, hunsent, hframe, hbacklog⟩ := h
    have hinjective := List.map_injective_iff.2 Pending.ofPayload_injective
    cases hheld : box.encoder.held with
    | some held =>
      rw [Outbox.backlog, hheld] at hbacklog
      obtain ⟨hfirst, hrest⟩ := List.cons.inj hbacklog
      obtain ⟨rfl, hlength⟩ := Pending.mk.inj hfirst
      exact ⟨some payload, congrArg _ (hinjective hrest).symm, held, hheld, hlength, hunsent, hframe⟩
    | none =>
      rw [Outbox.backlog, hheld, Option.map_none, Option.toList_none, List.nil_append, List.map_eq_cons_iff] at hbacklog
      obtain ⟨first, later, hwaiting, hfirst, hlater⟩ := hbacklog
      obtain ⟨rfl, hlength⟩ := Pending.mk.inj hfirst
      -- a frame as long as another is no proper end of it
      have hwritten : written = [] := by
        have hframes := congrArg List.length hframe
        rw [List.length_append, length_frame, length_frame, hlength] at hframes
        exact List.eq_nil_of_length_eq_zero (by omega)
      subst hwritten
      rw [List.nil_append] at hframe
      refine ⟨none, ?_, hheld, rfl⟩
      rw [hwaiting, hinjective hlater, frame_injective hframe]
      rfl

namespace Outbox

/-- The caller of a flush finds what was put out in the part of the buffer that was written. -/
theorem window_flush {box after : Outbox} (h : box.Sound) {buffer : List UInt8} {offset : Nat} {limit : Limit}
    {output : Output} (hdrain : box.drain (buffer.length - offset) limit = (after, .ok output))
    (hflush : box.flush buffer offset limit = (after, .ok (output, overwrite buffer offset output.bytes))) :
    ((overwrite buffer offset output.bytes).drop offset).take output.bytes.length = output.bytes := by
  cases hclosed : box.closed with
  | true =>
    rw [drain_of_closed _ limit h.free hclosed] at hdrain
    cases hdrain
    exact List.take_zero
  | false =>
    have hoffset : offset ≤ buffer.length := by
      refine Nat.le_of_not_lt fun hbeyond => ?_
      have hfails : box.flush buffer offset limit =
          (box, .error (.encoder (.offsetOutOfBounds offset buffer.length))) := by
        simp [flush, h.free, SpinLock.free, hclosed, hbeyond]
      rw [hflush] at hfails
      cases hfails
    rw [drop_overwrite _ hoffset, List.take_left]

/-! ## The invariant -/

/-- What an outbox has in its custody, when its callers have seen it take payloads in, write bytes and complete frames:
as long as it is open it owes the accepted payloads that are not completed. -/
structure Custody (accepted : List Payload) (sent : List UInt8) (count : Nat) (box : Outbox) : Prop where
  sound : box.Sound
  dispatched : box.dispatched = count
  owed : box.closed = false → ∃ written, count ≤ accepted.length ∧ Owes (accepted.drop count) written box.backlog ∧
    sent = frames (accepted.take count) ++ written

namespace Custody

variable {accepted : List Payload} {sent : List UInt8} {count : Nat} {box : Outbox}

theorem enqueue (h : Custody accepted sent count box) {payload : Payload} (hpayload : payload.length < lengthLimit)
    (hadmits : box.admits payload.length = true) :
    Custody (accepted ++ [payload]) sent count (box.enqueue payload).1 := by
  refine ⟨h.sound.enqueue hpayload, ?_, fun _ => ?_⟩
  · rw [Outbox.enqueue, if_pos hadmits]
    exact h.dispatched
  · have hopen : box.closed = false := by
      rw [admits, Bool.and_eq_true, Bool.not_eq_true'] at hadmits
      exact hadmits.1
    obtain ⟨written, hcount, howes, hsent⟩ := h.owed hopen
    refine ⟨written, ?_, ?_, ?_⟩
    · rw [List.length_append]
      exact Nat.le_add_right_of_le hcount
    · rw [backlog_enqueue hadmits, List.drop_append_of_le_length hcount]
      exact howes.concat payload
    · rw [List.take_append_of_le_length hcount]
      exact hsent

theorem drain (h : Custody accepted sent count box) {room : Nat} {limit : Limit} {after : Outbox} {output : Output}
    (hdrain : box.drain room limit = (after, .ok output)) :
    Custody accepted (sent ++ output.bytes) (count + output.completed) after := by
  obtain ⟨_, _, heq, hdrained, hsound, -, hclosed, hdispatched⟩ := drain_eq room limit h.sound
  rw [heq] at hdrain
  cases hdrain
  refine ⟨hsound, by rw [hdispatched, h.dispatched], fun hopen => ?_⟩
  obtain ⟨written, hcount, howes, hsent⟩ := h.owed (hclosed ▸ hopen)
  have hfront : (unsentOf box.backlog).take output.bytes.length = output.bytes := by
    rw [← hdrained.unsent, List.take_left]
  obtain ⟨k, front, hlength, howes', hwritten⟩ := howes.advance output.bytes.length
  have hcompleted := hdrained.completed
  have hpending := howes.length_eq
  rw [← hdrained.backlog] at hlength howes'
  rw [List.length_drop] at hpending
  obtain rfl : output.completed = k := by omega
  rw [List.drop_drop] at howes'
  refine ⟨front, by omega, howes', ?_⟩
  rw [hsent, List.append_assoc, ← hfront, hwritten, List.take_add, frames_append, List.append_assoc]

theorem close (h : Custody accepted sent count box) : Custody accepted sent count box.close := by
  refine ⟨h.sound.close, ?_, fun hopen => ?_⟩
  · rw [← h.dispatched, Outbox.close]
    split
    · rfl
    · rfl
  · rw [closed_close] at hopen
    cases hopen

/-- **Every call keeps the custody** of what its answer adds to the history. -/
theorem call (h : Custody accepted sent count box) {call : OutboxCall} (hcall : call.IsDescribable) :
    let record : OutboxRecord := ⟨call, box.answer call⟩
    Custody (accepted ++ record.accepted) (sent ++ record.window) (count + record.completed) (box.call call) := by
  cases call with
  | enqueue payload =>
    cases hadmits : box.admits payload.length with
    | true =>
      simp only [Outbox.answer, enqueue_snd, hadmits, OutboxRecord.accepted, OutboxRecord.window,
        OutboxRecord.completed, List.append_nil, Nat.add_zero]
      exact h.enqueue hcall hadmits
    | false =>
      simp only [Outbox.answer, enqueue_snd, hadmits, OutboxRecord.accepted, OutboxRecord.window,
        OutboxRecord.completed, List.append_nil, Nat.add_zero, Outbox.call, enqueue_of_refused hadmits]
      exact h
  | flush buffer offset limit =>
    rcases flush_cases h.sound buffer offset limit with ⟨e, hflush⟩ | ⟨after, output, hdrain, hflush⟩
    · simp only [Outbox.answer, Outbox.call, hflush, OutboxRecord.accepted, OutboxRecord.window,
        OutboxRecord.completed, List.append_nil, Nat.add_zero]
      exact h
    · simp only [Outbox.answer, Outbox.call, hflush, OutboxRecord.accepted, OutboxRecord.window,
        OutboxRecord.completed, List.append_nil, window_flush h.sound hdrain hflush]
      exact h.drain hdrain
  | close =>
    simp only [Outbox.answer, OutboxRecord.accepted, OutboxRecord.window, OutboxRecord.completed, List.append_nil,
      Nat.add_zero]
    exact h.close

end Custody

theorem custody_ofCap (cap : Nat) : Custody [] [] 0 (ofCap cap) :=
  ⟨sound_ofCap cap, rfl, fun _ => ⟨[], Nat.le_refl 0, ⟨rfl, rfl⟩, rfl⟩⟩

/-- **Any calls keep the custody.** -/
theorem Custody.after : ∀ (calls : List OutboxCall) {accepted : List Payload} {sent : List UInt8} {count : Nat}
    {box : Outbox}, Custody accepted sent count box → (∀ call ∈ calls, call.IsDescribable) →
    Custody (accepted ++ acceptedIn (box.records calls)) (sent ++ windowsIn (box.records calls))
      (count + completedIn (box.records calls)) (box.after calls)
  | [], _, _, _, _, h, _ => by
    simp only [records, acceptedIn, windowsIn, completedIn, List.flatMap_nil, List.append_nil, List.map_nil,
      List.sum_nil, Nat.add_zero]
    exact h
  | call :: calls, _, _, _, box, h, hcalls => by
    obtain ⟨hcall, hrest⟩ := List.forall_mem_cons.1 hcalls
    have hnext := Custody.after calls (h.call hcall) hrest
    simp only [records, acceptedIn, windowsIn, completedIn, List.flatMap_cons, List.map_cons, List.sum_cons,
      ← List.append_assoc, ← Nat.add_assoc]
    exact hnext

/-! ## A closed outbox -/

/-- **A closed outbox refuses every call** and stays as it is. -/
theorem records_of_closed {box : Outbox} (hfree : box.lock = .free) (hclosed : box.closed = true) :
    ∀ calls : List OutboxCall, box.after calls = box ∧ box.records calls = calls.map .refused
  | [] => ⟨rfl, rfl⟩
  | call :: calls => by
    have hcall : box.call call = box ∧ (⟨call, box.answer call⟩ : OutboxRecord) = .refused call := by
      cases call with
      | enqueue payload =>
        simp only [Outbox.call, Outbox.answer, enqueue_of_closed hclosed, true_and]
        rfl
      | flush buffer offset limit =>
        have hflush : box.flush buffer offset limit = (box, .ok (.nothing, buffer)) := by
          simp [flush, hclosed, drain_of_closed _ limit hfree hclosed, Except.map, overwrite, Output.nothing]
        simp only [Outbox.call, Outbox.answer, hflush, true_and]
        rfl
      | close => exact ⟨if_pos hclosed, rfl⟩
    obtain ⟨hafter, hrecords⟩ := records_of_closed hfree hclosed calls
    refine ⟨?_, ?_⟩
    · rw [after, List.foldl_cons, hcall.1]
      exact hafter
    · rw [records, hcall.1, hcall.2, hrecords, List.map_cons]

/-- **Accepted payloads are kept in order.**  After any calls, failing ones among them, the outbox has dispatched as
many frames as its flushes say.  As long as it is open, the payloads that it took in are those that are completed, the
one that it holds, and those that wait, in this order; and the bytes that its flushes wrote are the frames of the
completed ones and what is written of the held one.  Closing drops the held one and those that wait, and nothing else;
whatever is called afterwards is refused and changes nothing. -/
theorem conservation (cap : Nat) {calls : List OutboxCall} (h : ∀ call ∈ calls, call.IsDescribable) :
    let box := (ofCap cap).after calls
    let history := (ofCap cap).records calls
    box.dispatched = completedIn history ∧
    (box.closed = false → ∃ (completed : List Payload) (held : Option Payload) (written : List UInt8),
      acceptedIn history = completed ++ held.toList ++ box.waiting ∧ completed.length = box.dispatched ∧
      windowsIn history = frames completed ++ written ∧ box.encoder.HoldsOf written held) ∧
    box.close.closed = true ∧ box.close.waiting = [] ∧ box.close.encoder.held = none ∧
    box.close.dispatched = box.dispatched ∧
    ∀ later : List OutboxCall,
      (ofCap cap).after (calls ++ .close :: later) = box.close ∧
      (ofCap cap).records (calls ++ .close :: later) = history ++ (.close :: later).map .refused := by
  intro box history
  have hcustody : Custody (acceptedIn history) (windowsIn history) (completedIn history) box := by
    have hafter := (custody_ofCap cap).after calls h
    rwa [List.nil_append, List.nil_append, Nat.zero_add] at hafter
  have hclose := hcustody.close
  obtain ⟨hheld, hwaiting⟩ := List.append_eq_nil_iff.1 (hclose.sound.emptied box.closed_close)
  rw [Option.toList_eq_nil_iff, Option.map_eq_none_iff] at hheld
  refine ⟨hcustody.dispatched, fun hopen => ?_, box.closed_close, List.map_eq_nil_iff.1 hwaiting, hheld, ?_,
    fun later => ?_⟩
  · obtain ⟨written, hcount, howes, hsent⟩ := hcustody.owed hopen
    obtain ⟨held, hsplit, hholds⟩ := howes.split
    refine ⟨(acceptedIn history).take (completedIn history), held, written, ?_, ?_, hsent, hholds⟩
    · rw [List.append_assoc, ← hsplit, List.take_append_drop]
    · rw [List.length_take_of_le hcount, hcustody.dispatched]
  · rw [hclose.dispatched, hcustody.dispatched]
  · obtain ⟨hafter, hrecords⟩ := records_of_closed hclose.sound.free box.closed_close later
    refine ⟨?_, ?_⟩
    · rw [after_append]
      exact hafter
    · rw [records_append]
      exact congrArg (fun records => history ++ .refused .close :: records) hrecords

/-- A frame is written over two flushes and a third fails on its offset, before a flush completes one frame and holds
the next; closing drops that one and the payload behind it. -/
def closedMidFrame : List OutboxCall :=
  [.enqueue [1, 2], .enqueue [3], .flush (List.replicate 5 0) 0 none, .flush [0] 2 none, .enqueue [4],
    .flush (List.replicate 4 9) 1 (some 7)]

theorem conservation_closedMidFrame :
    ∃ (completed : List Payload) (held : Option Payload) (written : List UInt8),
      [[1, 2], [3], [4]] = completed ++ held.toList ++ [[4]] ∧
      [2, 0, 0, 0, 1, 2, 1, 0] = frames completed ++ written ∧
      ((ofCap 9).after closedMidFrame).encoder.HoldsOf written held ∧
      ((ofCap 9).after (closedMidFrame ++ [.close, .enqueue [5], .close])).dispatched = 1 := by
  have hcalls : ∀ call ∈ closedMidFrame, call.IsDescribable := by decide
  obtain ⟨-, hopen, -, -, -, hdispatched, hlater⟩ := conservation 9 hcalls
  obtain ⟨completed, held, written, haccepted, -, hwindows, hholds⟩ := hopen rfl
  refine ⟨completed, held, written, haccepted, hwindows, hholds, ?_⟩
  rw [(hlater [.enqueue [5], .close]).1, hdispatched]
  rfl

end Outbox

end FramedLink
