import FramedLink.Proofs.Outbox.History
import FramedLink.Proofs.Wire.Writing
/-!
# A flush on its buffer

`Outbox.flush` packs first and then puts all bytes into the buffer at once.  The flush that works on the buffer itself
(`Outbox.flushInto`) binds the encoder to it, writes frame by frame, and may stop wherever a call of the encoder fails,
so it has a buffer to show also when it fails.  The two are one and the same (`Outbox.flush_eq_flushInto`): bytes that
are written one behind the other are written as one piece (`Binding.accept_accept`).

Main statement: a flush fails on an offset beyond the end of the buffer only, and has touched nothing then
(`Outbox.flushInto_fails_on_offset_only`).
-/
namespace FramedLink

namespace Binding

theorem accept_nothing {binding : Binding} {encoder : Encoder} (complete : Bool) (h : encoder = binding.encoder) :
    binding.accept ⟨[], complete, encoder⟩ = binding := by
  simp [accept, overwrite_nil, h]

/-- Two emissions put behind each other are put as one. -/
theorem accept_accept {binding : Binding} {first : Emission} (second : Emission) (h : binding.InBounds)
    (hroom : first.bytes.length ≤ binding.room) :
    (binding.accept first).accept second = binding.accept { second with bytes := first.bytes ++ second.bytes } := by
  simp only [accept, overwrite_overwrite _ (h.cursor_add_le hroom), List.length_append, Nat.add_assoc]

/-- A buffer that has just been bound shows what is written to it first. -/
theorem writtenBytes_accept_first (encoder : Encoder) {buffer : List UInt8} {offset : Nat} (emission : Emission)
    (h : offset ≤ buffer.length) :
    ((⟨encoder, buffer, offset, offset⟩ : Binding).accept emission).writtenBytes = emission.bytes := by
  rw [writtenBytes_accept ⟨Nat.le_refl _, h⟩]
  simp [writtenBytes]

end Binding

/-- What a flush has come to on a buffer: the box, whose encoder is the one that is bound, the frames completed, and the
fault that stopped it, if any. -/
structure Written where
  box : Outbox
  binding : Binding
  completed : Nat
  fault : Option EncoderError
deriving DecidableEq

/-- What packing comes to on a buffer. -/
def Packed.onto (packed : Packed) (binding : Binding) : Written :=
  ⟨packed.box, binding.accept ⟨packed.output.bytes, true, packed.box.encoder⟩, packed.output.completed, packed.fault⟩

/-- A flush into a buffer, and the buffer afterwards, also if it failed. -/
structure Attempt where
  box : Outbox
  buffer : List UInt8
  result : Except QueueError Output
deriving DecidableEq

namespace Outbox

def writeWaiting (box : Outbox) (binding : Binding) (limit : Limit) : List Payload → Written
  | [] => ⟨{ box with waiting := [] }, binding, 0, none⟩
  | payload :: rest =>
    if limit.isReached then ⟨{ box with waiting := payload :: rest }, binding, 0, none⟩
    else
      match binding.process payload with
      | .error e => ⟨{ box with waiting := rest }, binding, 0, some e⟩
      | .ok (next, true) =>
        let box := { box.discharge payload.length with encoder := next.encoder }
        let later := box.writeWaiting next (limit.less 1) rest
        { later with completed := later.completed + 1 }
      | .ok (next, false) =>
        ⟨{ box with waiting := rest, encoder := next.encoder, heldLen := payload.length }, next, 0, none⟩

/-- Writes the rest of the held frame, and waiting payloads once it is out. -/
def write (box : Outbox) (binding : Binding) (limit : Limit) : Written :=
  if binding.encoder.isHolding then
    match binding.flush with
    | .error e => ⟨box, binding, 0, some e⟩
    | .ok (next, false) => ⟨{ box with encoder := next.encoder }, next, 0, none⟩
    | .ok (next, true) =>
      let box := { box.discharge box.heldLen with encoder := next.encoder, heldLen := 0 }
      let later := box.writeWaiting next (limit.less 1) box.waiting
      { later with completed := later.completed + 1 }
  else box.writeWaiting binding limit box.waiting

/-- Ends a flush: the lock is free again, and a flush without fault counts what it has completed.  A fault leaves in the
buffer what was written until then. -/
def settle (written : Written) : Attempt :=
  let freed := { written.box with lock := written.box.lock.release }
  match written.fault with
  | some e => ⟨freed, written.binding.buffer, .error (.encoder e)⟩
  | none =>
    ⟨{ freed with
        holding := written.box.encoder.isHolding, dispatched := written.box.dispatched + written.completed },
      written.binding.buffer, .ok ⟨written.binding.writtenBytes, written.completed⟩⟩

/-- Flushes into a buffer by binding it. -/
def flushInto (box : Outbox) (buffer : List UInt8) (offset : Nat) (limit : Limit) : Attempt :=
  match box.lock.tryTake with
  | (false, _) => ⟨box, buffer, .error .flushInProgress⟩
  | (true, lock) =>
    if box.closed then ⟨box, buffer, .ok .nothing⟩
    else
      match box.encoder.bindTo buffer offset with
      | .error e => ⟨box, buffer, .error (.encoder e)⟩
      | .ok binding => settle ({ box with lock }.write binding limit)

/-- **Writing waiting payloads is packing them** and putting the bytes into the buffer. -/
theorem writeWaiting_eq : ∀ (payloads : List Payload) {box : Outbox} {binding : Binding} (limit : Limit),
    binding.InBounds → box.encoder = binding.encoder →
    box.writeWaiting binding limit payloads = (box.packWaiting binding.room limit payloads).onto binding
  | [], box, binding, limit, _, hencoder => by
    simp [writeWaiting, packWaiting, Packed.onto, Output.nothing, Binding.accept_nothing true hencoder]
  | payload :: rest, box, binding, limit, hbounds, hencoder => by
    cases hlimit : limit.isReached with
    | true =>
      simp [writeWaiting, packWaiting, Packed.onto, Output.nothing, hlimit, Binding.accept_nothing true hencoder]
    | false =>
      cases hoffer : binding.encoder.offer binding.room payload with
      | error e =>
        simp [writeWaiting, packWaiting, Packed.onto, Output.nothing, hlimit, hencoder, Binding.process, hoffer,
          Except.map, Binding.accept_nothing]
      | ok emission =>
        have hroom := (Encoder.sends_of_offer hoffer).2.length_bytes_le
        obtain ⟨bytes, complete, encoder⟩ := emission
        cases complete with
        | false =>
          simp [writeWaiting, packWaiting, Packed.onto, hlimit, hencoder, Binding.process, hoffer, Except.map,
            Binding.accept]
        | true =>
          -- The rest is written behind this frame, in the room that it leaves.
          have hnext := Binding.inBounds_accept hbounds hroom
          have hlater := writeWaiting_eq rest (limit.less 1) hnext
            (show ({ box.discharge payload.length with encoder } : Outbox).encoder = encoder from rfl)
          rw [Binding.room_accept hbounds hroom] at hlater
          simp only [writeWaiting, packWaiting, hlimit, hencoder, Binding.process, hoffer, Except.map,
            Bool.false_eq_true, if_false]
          rw [show (binding.accept ⟨bytes, true, encoder⟩).encoder = encoder from rfl, hlater]
          simp only [Packed.onto, Binding.accept_accept _ hbounds hroom]

/-- **Writing is packing** and putting the bytes into the buffer. -/
theorem write_eq {box : Outbox} {binding : Binding} (limit : Limit) (hbounds : binding.InBounds)
    (hencoder : box.encoder = binding.encoder) :
    box.write binding limit = (box.pack binding.room limit).onto binding := by
  cases hholding : binding.encoder.isHolding with
  | false =>
    simp only [write, pack, hencoder, hholding, Bool.false_eq_true, if_false]
    exact writeWaiting_eq box.waiting limit hbounds hencoder
  | true =>
    cases hresume : binding.encoder.resume binding.room with
    | error e =>
      simp [write, pack, Packed.onto, Output.nothing, hencoder, hholding, Binding.flush, hresume, Except.map,
        Binding.accept_nothing]
    | ok emission =>
      obtain ⟨payloadLen, hsends⟩ := Encoder.sends_of_resume hresume
      have hroom := hsends.length_bytes_le
      obtain ⟨bytes, complete, encoder⟩ := emission
      cases complete with
      | false =>
        simp [write, pack, Packed.onto, hencoder, hholding, Binding.flush, hresume, Except.map, Binding.accept]
      | true =>
        have hnext := Binding.inBounds_accept hbounds hroom
        have hlater := writeWaiting_eq box.waiting (limit.less 1) hnext
          (show ({ box.discharge box.heldLen with encoder, heldLen := 0 } : Outbox).encoder = encoder from rfl)
        rw [Binding.room_accept hbounds hroom] at hlater
        simp only [write, pack, hencoder, hholding, Binding.flush, hresume, Except.map, if_true]
        rw [show (binding.accept ⟨bytes, true, encoder⟩).encoder = encoder from rfl]
        simp only [discharge] at hlater ⊢
        rw [hlater]
        simp only [Packed.onto, Binding.accept_accept _ hbounds hroom]

section
variable {box : Outbox} {buffer : List UInt8} {offset : Nat} (limit : Limit)

theorem flushInto_of_closed (hfree : box.lock = .free) (hclosed : box.closed = true) :
    box.flushInto buffer offset limit = ⟨box, buffer, .ok .nothing⟩ := by
  simp [flushInto, hfree, SpinLock.free, hclosed]

theorem flushInto_of_beyond (hfree : box.lock = .free) (hclosed : box.closed = false) (h : buffer.length < offset) :
    box.flushInto buffer offset limit = ⟨box, buffer, .error (.encoder (.offsetOutOfBounds offset buffer.length))⟩ := by
  simp [flushInto, hfree, SpinLock.free, hclosed, Encoder.bindTo_of_beyond _ h]

/-- An open box works on the buffer from the offset on, and writes there what packing puts out. -/
theorem flushInto_of_inside (hfree : box.lock = .free) (hclosed : box.closed = false) (h : offset ≤ buffer.length) :
    box.flushInto buffer offset limit =
      settle (({ box with lock := ⟨true⟩ }.pack (buffer.length - offset) limit).onto
        ⟨box.encoder, buffer, offset, offset⟩) := by
  have hbounds : Binding.InBounds ⟨box.encoder, buffer, offset, offset⟩ := ⟨Nat.le_refl _, h⟩
  have hwrite := write_eq limit hbounds (show ({ box with lock := ⟨true⟩ } : Outbox).encoder = box.encoder from rfl)
  have hopen : ¬ box.closed = true := by simp [hclosed]
  unfold flushInto
  rw [hfree, SpinLock.free, SpinLock.tryTake_free]
  dsimp only
  rw [if_neg hopen, Encoder.bindTo_of_inside _ h]
  exact congrArg settle hwrite

end

/-- **The flush on the buffer is the flush.** -/
theorem flush_eq_flushInto (box : Outbox) (buffer : List UInt8) (offset : Nat) (limit : Limit) :
    let attempt := box.flushInto buffer offset limit
    box.flush buffer offset limit = (attempt.box, attempt.result.map fun output => (output, attempt.buffer)) := by
  intro attempt
  cases hlock : box.lock.taken with
  | true => simp [attempt, flush, flushInto, drain, SpinLock.tryTake, hlock, Except.map]
  | false =>
    have hfree : box.lock = .free := by
      cases hbit : box.lock
      simp_all [SpinLock.free]
    cases hclosed : box.closed with
    | true =>
      simp [attempt, flush, flushInto_of_closed limit hfree hclosed, drain_of_closed _ limit hfree hclosed, hclosed,
        Except.map, Output.nothing, overwrite_nil]
    | false =>
      rcases Nat.lt_or_ge buffer.length offset with hbeyond | hinside
      · simp [attempt, flush, flushInto_of_beyond limit hfree hclosed hbeyond, hlock, hclosed, hbeyond, Except.map]
      · have hsettle := flushInto_of_inside limit hfree hclosed hinside
        have hopen : ¬ box.closed = true := by simp [hclosed]
        have hwritten := fun emission => Binding.writtenBytes_accept_first box.encoder emission hinside
        rw [flush, if_neg (by simp [Nat.not_lt.2 hinside]), drain, hfree, SpinLock.free, SpinLock.tryTake_free]
        dsimp only
        rw [if_neg hopen]
        simp only [attempt, hsettle]
        generalize ({ box with lock := ⟨true⟩ } : Outbox).pack (buffer.length - offset) limit = packed
        obtain ⟨after, output, fault⟩ := packed
        cases fault with
        | some e => rfl
        | none => simp only [settle, Packed.onto, hwritten, Except.map]; rfl

theorem flushInto_of_flush {box after : Outbox} {buffer filled : List UInt8} {offset : Nat} {limit : Limit}
    {output : Output} (h : box.flush buffer offset limit = (after, .ok (output, filled))) :
    box.flushInto buffer offset limit = ⟨after, filled, .ok output⟩ := by
  rw [flush_eq_flushInto] at h
  generalize box.flushInto buffer offset limit = attempt at h ⊢
  obtain ⟨box', buffer', result⟩ := attempt
  cases result with
  | error e => cases h
  | ok output' =>
    cases h
    rfl

/-- A sound outbox flushes into any buffer that the offset lies in. -/
theorem Sound.flush_of_inside {box : Outbox} {buffer : List UInt8} {offset : Nat} (limit : Limit) (h : box.Sound)
    (hinside : offset ≤ buffer.length) :
    ∃ after output, box.flush buffer offset limit = (after, .ok (output, overwrite buffer offset output.bytes)) ∧
      Drained (box.allowance limit) (buffer.length - offset) box.backlog after.backlog output ∧ after.Sound := by
  obtain ⟨after, output, hdrain, hdrained, hafter, -⟩ := drain_eq (buffer.length - offset) limit h
  refine ⟨after, output, ?_, hdrained, hafter⟩
  rw [Outbox.flush, if_neg (by simp [Nat.not_lt.2 hinside]), hdrain]
  rfl

/-- **A flush fails on its offset only**, whatever calls have led to the outbox: it fails exactly if the outbox is open
and the offset lies beyond the end of the buffer.  Then outbox and buffer are as they were, so that a flush with another
offset does what it would have done.  A closed outbox puts out nothing, whatever the offset, and leaves the buffer
alone. -/
theorem flushInto_fails_on_offset_only (cap : Nat) {calls : List OutboxCall}
    (h : ∀ call ∈ calls, call.IsDescribable) (buffer : List UInt8) (offset : Nat) (limit : Limit) :
    let box := (ofCap cap).after calls
    let attempt := box.flushInto buffer offset limit
    box.flush buffer offset limit = (attempt.box, attempt.result.map fun output => (output, attempt.buffer)) ∧
    (∀ e, attempt.result = .error e ↔
      (box.closed = false ∧ buffer.length < offset) ∧ e = .encoder (.offsetOutOfBounds offset buffer.length)) ∧
    (∀ e, attempt.result = .error e → attempt.box = box ∧ attempt.buffer = buffer ∧
      ∀ retry limit', attempt.box.flushInto attempt.buffer retry limit' = box.flushInto buffer retry limit') ∧
    (box.closed = true → attempt = ⟨box, buffer, .ok .nothing⟩) := by
  intro box attempt
  have hsound : box.Sound := sound_after cap h
  have hclosed : box.closed = true → attempt = ⟨box, buffer, .ok .nothing⟩ := flushInto_of_closed limit hsound.free
  have hbeyond : box.closed = false → buffer.length < offset →
      attempt = ⟨box, buffer, .error (.encoder (.offsetOutOfBounds offset buffer.length))⟩ :=
    flushInto_of_beyond limit hsound.free
  have hfails : ∀ e, attempt.result = .error e ↔
      (box.closed = false ∧ buffer.length < offset) ∧ e = .encoder (.offsetOutOfBounds offset buffer.length) := by
    intro e
    constructor
    · intro herror
      have hopen : box.closed = false := by
        refine Bool.eq_false_iff.2 fun hshut => ?_
        rw [hclosed hshut] at herror
        cases herror
      have hover : buffer.length < offset := by
        refine Nat.lt_of_not_le fun hinside => ?_
        obtain ⟨after, output, hflush, -⟩ := hsound.flush_of_inside limit hinside
        rw [show attempt = _ from flushInto_of_flush hflush] at herror
        cases herror
      rw [hbeyond hopen hover] at herror
      cases herror
      exact ⟨⟨hopen, hover⟩, rfl⟩
    · rintro ⟨⟨hopen, hover⟩, rfl⟩
      rw [hbeyond hopen hover]
  refine ⟨flush_eq_flushInto box buffer offset limit, hfails, fun e herror => ?_, hclosed⟩
  obtain ⟨⟨hopen, hover⟩, -⟩ := (hfails e).1 herror
  rw [hbeyond hopen hover]
  exact ⟨rfl, rfl, fun _ _ => rfl⟩

/-- While a frame is held of which not even the header is out, a flush fails on its offset, and holds it still. -/
theorem flushInto_fails_on_offset_only_whileHolding :
    let box := (ofCap 10).after [.enqueue [1, 2, 3], .enqueue [4], .flush [0, 0, 0] 1 none]
    let attempt := box.flushInto [9, 9] 3 (some 1)
    attempt.result = .error (.encoder (.offsetOutOfBounds 3 2)) ∧ attempt.box = box ∧ attempt.buffer = [9, 9] ∧
      box.encoder.heldRemaining = 5 := by
  obtain ⟨-, hfails, hkept, -⟩ := flushInto_fails_on_offset_only 10
    (show ∀ call ∈ [.enqueue [1, 2, 3], .enqueue [4], .flush [0, 0, 0] 1 none], OutboxCall.IsDescribable call by decide)
    [9, 9] 3 (some 1)
  have herror := (hfails _).2 ⟨by decide, rfl⟩
  obtain ⟨hbox, hbuffer, -⟩ := hkept _ herror
  exact ⟨herror, hbox, hbuffer, by decide⟩

end Outbox
end FramedLink
