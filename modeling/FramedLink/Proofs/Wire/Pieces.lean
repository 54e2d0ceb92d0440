import FramedLink.Proofs.Wire.Writing
/-!
# Frames in pieces

An encoder writes a frame that fits in one go, and keeps the rest of any other.  A writer without the short way drafts
every frame (`Draft`): it counts how much of the header and of the payload has been written, and drops the draft once
nothing of it is left.  The two leave the same behind in every buffer (`Binding.process_eq_plainly`).  Nor does it
matter where a frame is cut: what further buffers take of it is cut from its bytes (`Encoder.resumeIn_eq`).

Main statement: both at once, for any buffers (`Binding.frame_in_pieces`).
-/
namespace FramedLink

/-! ## Drafts -/

/-- A number as four bytes, the lowest first, each shifted out of the number. -/
def littleEndian (n : UInt32) : List UInt8 := [n.toUInt8, (n >>> 8).toUInt8, (n >>> 16).toUInt8, (n >>> 24).toUInt8]

theorem littleEndian_eq_header (n : Nat) : littleEndian (UInt32.ofNat n) = header n := by
  simp only [littleEndian, header, List.cons.injEq, and_true, ← UInt8.toNat_inj, UInt32.toNat_toUInt8,
    UInt32.toNat_shiftRight, UInt32.toNat_ofNat', UInt8.toNat_ofNat']
  simp [Nat.shiftRight_eq_div_pow]
  omega

/-- A frame, with the count of the bytes of its header and of its payload that have been written. -/
structure Draft where
  header : List UInt8
  headerWritten : Nat
  payload : Payload
  payloadWritten : Nat
  length_header : header.length = headerSize
deriving DecidableEq

namespace Draft

def ofPayload (payload : Payload) : Draft := ⟨littleEndian (UInt32.ofNat payload.length), 0, payload, 0, rfl⟩

def remaining (draft : Draft) : Nat :=
  (headerSize - draft.headerWritten) + (draft.payload.length - draft.payloadWritten)

/-- The draft as an encoder holds it: by what is still to be written. -/
def held (draft : Draft) : Held :=
  ⟨draft.header.drop draft.headerWritten, draft.payload.drop draft.payloadWritten, draft.payload.length⟩

/-- Writes to the front of `dest`: of the header what fits, and of the payload what the header leaves room for.  Gives
`dest` afterwards, and the count of the bytes written. -/
def writeInto (draft : Draft) (dest : List UInt8) : Draft × List UInt8 × Nat :=
  let amount := min dest.length (headerSize - draft.headerWritten)
  let dest := overwrite dest 0 ((draft.header.drop draft.headerWritten).take amount)
  let draft := { draft with headerWritten := draft.headerWritten + amount }
  if draft.headerWritten < headerSize then (draft, dest, amount)
  else
    let more := min (dest.length - amount) (draft.payload.length - draft.payloadWritten)
    let dest := overwrite dest amount ((draft.payload.drop draft.payloadWritten).take more)
    ({ draft with payloadWritten := draft.payloadWritten + more }, dest, amount + more)

@[simp] theorem held_ofPayload (payload : Payload) : (ofPayload payload).held = .ofPayload payload := by
  simp [ofPayload, held, Held.ofPayload, littleEndian_eq_header]

@[simp] theorem remaining_held (draft : Draft) : draft.held.remaining = draft.remaining := by
  simp [held, Held.remaining, remaining, draft.length_header]

/-- **A draft is written as it would be from what an encoder holds**: the same bytes go out and the same is left. -/
theorem writeInto_eq (draft : Draft) (dest : List UInt8) :
    (draft.writeInto dest).1.held = (draft.held.write dest.length).2 ∧
      (draft.writeInto dest).2 =
        (overwrite dest 0 (draft.held.write dest.length).1, (draft.held.write dest.length).1.length) := by
  have hhead : (draft.header.drop draft.headerWritten).length = headerSize - draft.headerWritten := by
    rw [List.length_drop, draft.length_header]
  have hbody : (draft.payload.drop draft.payloadWritten).length = draft.payload.length - draft.payloadWritten :=
    List.length_drop
  simp only [writeInto, Held.write, held, hhead]
  by_cases hshort : draft.headerWritten + min dest.length (headerSize - draft.headerWritten) < headerSize
  · -- the header fills all of `dest`
    have hamount : min dest.length (headerSize - draft.headerWritten) = dest.length := by omega
    have hnone : dest.length - (headerSize - draft.headerWritten) = 0 := by omega
    have hlength : ((draft.header.drop draft.headerWritten).take dest.length).length = dest.length :=
      List.length_take_of_le (by omega)
    rw [if_pos hshort, hamount, hnone, List.take_zero, List.append_nil, List.drop_zero, List.drop_drop, hlength]
    exact ⟨rfl, rfl⟩
  · -- all of the header fits, and the payload goes behind it
    have hamount : min dest.length (headerSize - draft.headerWritten) = headerSize - draft.headerWritten := by omega
    have hinside : 0 + (draft.header.drop draft.headerWritten).length ≤ dest.length := by omega
    have hfront : (draft.header.drop draft.headerWritten).take (headerSize - draft.headerWritten) =
        draft.header.drop draft.headerWritten := List.take_of_length_le (Nat.le_of_eq hhead)
    have hall : (draft.header.drop draft.headerWritten).take dest.length =
        draft.header.drop draft.headerWritten := List.take_of_length_le (by omega)
    have hboth := overwrite_overwrite ((draft.payload.drop draft.payloadWritten).take
      (dest.length - (headerSize - draft.headerWritten))) hinside
    rw [Nat.zero_add, hhead] at hboth
    rw [if_neg hshort, hamount, hfront, hall, length_overwrite hinside, ← hbody, ← List.take_eq_take_min, hboth]
    refine ⟨?_, ?_⟩
    · have hdone : (draft.header.drop draft.headerWritten).drop (headerSize - draft.headerWritten) = [] :=
        List.drop_of_length_le (Nat.le_of_eq hhead)
      have hdone' : (draft.header.drop draft.headerWritten).drop dest.length = [] := List.drop_of_length_le (by omega)
      simp only [← List.drop_drop, ← List.drop_eq_drop_min, hdone, hdone']
    · rw [List.length_append, List.length_take, hhead]

end Draft

namespace Held

/-- Nothing is left of a frame exactly if all of it fits. -/
theorem remaining_write_eq_zero_iff (held : Held) (room : Nat) :
    (held.write room).2.remaining = 0 ↔ held.remaining ≤ room := by
  rw [← length_unsent, write_unsent, List.length_drop, length_unsent]
  omega

/-- A frame that fits is written whole. -/
theorem write_of_fits {held : Held} {room : Nat} (h : held.remaining ≤ room) : (held.write room).1 = held.unsent := by
  rw [write_bytes, List.take_of_length_le (by rwa [length_unsent])]

end Held

namespace Binding

/-- Starts the frame of `payload` without the short way: it is drafted, the draft is written to the buffer behind the
cursor, and kept if anything is left of it. -/
def processPlainly (binding : Binding) (payload : Payload) : Binding × Bool :=
  let (draft, dest, written) := (Draft.ofPayload payload).writeInto (binding.buffer.drop binding.cursor)
  let done := draft.remaining = 0
  ({ binding with
      encoder := ⟨if done then none else some draft.held⟩
      buffer := binding.buffer.take binding.cursor ++ dest
      cursor := binding.cursor + written }, done)

theorem overwrite_behind (buffer bytes : List UInt8) (start : Nat) :
    buffer.take start ++ overwrite (buffer.drop start) 0 bytes = overwrite buffer start bytes := by
  simp [overwrite, List.drop_drop]

/-- **The short way and the plain way agree**, in every buffer and at every place in it. -/
theorem process_eq_plainly {binding : Binding} {payload : Payload} (hfree : binding.encoder.isHolding = false)
    (hpayload : payload.length < lengthLimit) : binding.process payload = .ok (binding.processPlainly payload) := by
  obtain ⟨hheld, hwritten⟩ := (Draft.ofPayload payload).writeInto_eq (binding.buffer.drop binding.cursor)
  have hroom : (binding.buffer.drop binding.cursor).length = binding.room := List.length_drop
  rw [hroom, Draft.held_ofPayload] at hheld hwritten
  have hremaining : (Held.ofPayload payload).remaining = headerSize + payload.length := by
    rw [← Held.length_unsent, Held.unsent_ofPayload, length_frame]
  have hdone : ((Draft.ofPayload payload).writeInto (binding.buffer.drop binding.cursor)).1.remaining = 0 ↔
      headerSize + payload.length ≤ binding.room := by
    rw [← Draft.remaining_held, hheld, Held.remaining_write_eq_zero_iff, hremaining]
  have hfresh : ¬ Encoder.fresh.isHolding = true := Bool.false_ne_true
  simp only [processPlainly, hdone, hwritten, hheld, overwrite_behind]
  rw [process, Encoder.eq_fresh hfree, Encoder.offer, if_neg hfresh, if_neg (Nat.not_le.2 hpayload)]
  by_cases hfits : headerSize + payload.length ≤ binding.room
  · have hwhole := Held.write_of_fits (hremaining ▸ hfits : (Held.ofPayload payload).remaining ≤ binding.room)
    rw [Held.unsent_ofPayload] at hwhole
    simp [hfits, hwhole, Except.map, accept, Encoder.fresh]
  · simp [hfits, Except.map, accept]

/-- What a call leaves held has bytes left to be written. -/
theorem sound_of_process {binding next : Binding} {payload : Payload} {complete : Bool}
    (h : binding.process payload = .ok (next, complete)) : next.encoder.Sound := by
  obtain ⟨emission, hoffer, rfl, -⟩ := ok_of_map h
  exact (Encoder.sends_of_offer hoffer).2.sound

theorem sound_of_flush {binding next : Binding} {complete : Bool} (h : binding.flush = .ok (next, complete)) :
    next.encoder.Sound := by
  obtain ⟨emission, hresume, rfl, -⟩ := ok_of_map h
  obtain ⟨payloadLen, hsends⟩ := Encoder.sends_of_resume hresume
  exact hsends.sound

end Binding

/-! ## Further buffers -/

/-- A buffer, and where writing to it is to start. -/
structure Space where
  buffer : List UInt8
  offset : Nat
deriving DecidableEq

namespace Space

def room (space : Space) : Nat := space.buffer.length - space.offset

def InBounds (space : Space) : Prop := space.offset ≤ space.buffer.length

end Space

namespace Encoder

/-- Goes on with the held frame in one space after the other, as long as it is held.  Gives what is written to each of
the spaces used, and the encoder behind them. -/
def resumeIn (encoder : Encoder) : List Space → Except EncoderError (List (List UInt8) × Encoder)
  | [] => .ok ([], encoder)
  | space :: spaces =>
    if encoder.isHolding then
      match encoder.bindTo space.buffer space.offset with
      | .error e => .error e
      | .ok binding =>
        match binding.flush with
        | .error e => .error e
        | .ok (next, _) =>
          (next.encoder.resumeIn spaces).map fun (windows, last) => (next.writtenBytes :: windows, last)
    else .ok ([], encoder)

theorem unsent_eq_nil_iff {encoder : Encoder} (h : encoder.Sound) :
    encoder.unsent = [] ↔ encoder.isHolding = false := by
  have hboth := unsent_append_frames_eq_nil h []
  simpa using hboth

/-- **Further spaces cut the held frame into pieces** of their rooms, and what they cannot take is still held. -/
theorem resumeIn_eq : ∀ (spaces : List Space) {encoder : Encoder}, encoder.Sound → (∀ space ∈ spaces, space.InBounds) →
    ∃ last, encoder.resumeIn spaces = .ok (pieces (spaces.map Space.room) encoder.unsent, last) ∧
      last.unsent = encoder.unsent.drop (spaces.map Space.room).sum ∧ last.Sound
  | [], encoder, hsound, _ => ⟨encoder, rfl, rfl, hsound⟩
  | space :: spaces, encoder, hsound, hspaces => by
    obtain ⟨hspace, hlater⟩ := List.forall_mem_cons.1 hspaces
    cases hholding : encoder.isHolding with
    | false =>
      have hnone := (unsent_eq_nil_iff hsound).2 hholding
      refine ⟨encoder, ?_, ?_, hsound⟩
      · rw [resumeIn, hholding, if_neg Bool.false_ne_true, hnone, pieces_nil]
      · rw [hnone, List.drop_nil]
    | true =>
      have hsome : encoder.unsent ≠ [] := fun hnone => by
        rw [(unsent_eq_nil_iff hsound).1 hnone] at hholding
        cases hholding
      have hbounds : Binding.InBounds ⟨encoder, space.buffer, space.offset, space.offset⟩ := ⟨Nat.le_refl _, hspace⟩
      obtain ⟨next, hflush⟩ : ∃ next, (⟨encoder, space.buffer, space.offset, space.offset⟩ : Binding).flush = _ :=
        Binding.flush_of_holding hholding
      have hwrites := Binding.writes_of_flush hbounds hflush
      have hwindow : next.writtenBytes = encoder.unsent.take space.room := by
        rw [hwrites.written]
        simp [Binding.writtenBytes, Binding.room, Space.room]
      obtain ⟨last, hresume, hunsent, hlast⟩ := resumeIn_eq spaces (Binding.sound_of_flush hflush) hlater
      refine ⟨last, ?_, ?_, hlast⟩
      · rw [resumeIn, hholding, if_pos rfl, bindTo_of_inside _ hspace]
        simp only [hflush, hresume, Except.map, hwindow, hwrites.left]
        rw [List.map_cons, pieces_cons hsome]
        rfl
      · rw [hunsent, hwrites.left, List.map_cons, List.sum_cons, ← List.drop_drop]
        rfl

end Encoder

namespace Binding

/-- A buffer of the frame's size holds the frame, and nothing else. -/
theorem process_single {payload : Payload} (hpayload : payload.length < lengthLimit) {single : List UInt8}
    (h : single.length = headerSize + payload.length) :
    (⟨.fresh, single, 0, 0⟩ : Binding).process payload =
      .ok (⟨.fresh, frame payload, 0, headerSize + payload.length⟩, true) := by
  have hfresh : ¬ Encoder.fresh.isHolding = true := Bool.false_ne_true
  have hfits : headerSize + payload.length ≤ (⟨.fresh, single, 0, 0⟩ : Binding).room := Nat.le_of_eq h.symm
  have hover : overwrite single 0 (frame payload) = frame payload := by simp [overwrite, h]
  rw [process, Encoder.offer, if_neg hfresh, if_neg (Nat.not_le.2 hpayload), if_pos hfits]
  simp [Except.map, accept, hover]

/-- **A frame in pieces.**  An encoder that holds nothing starts a frame in a buffer.  It leaves there what the plain
way leaves: the same bytes, cursor, answer and held frame.  A single buffer of the frame's size is given the frame at
once.  If the frame is started in any buffer and flushed into further spaces, whatever their number and sizes, the bytes
that are written are those of that single buffer, as many as there is room for, and what they lack is what is still
held. -/
theorem frame_in_pieces {binding : Binding} {payload : Payload} (hfree : binding.encoder.isHolding = false)
    (hbounds : binding.InBounds) (hpayload : payload.length < lengthLimit) :
    binding.process payload = .ok (binding.processPlainly payload) ∧
    (∀ single : List UInt8, single.length = headerSize + payload.length →
      (⟨.fresh, single, 0, 0⟩ : Binding).process payload =
        .ok (⟨.fresh, frame payload, 0, headerSize + payload.length⟩, true)) ∧
    ∀ spaces : List Space, (∀ space ∈ spaces, space.InBounds) →
      ∃ next complete first windows last, binding.process payload = .ok (next, complete) ∧
        next.writtenBytes = binding.writtenBytes ++ first ∧ next.encoder.resumeIn spaces = .ok (windows, last) ∧
        let room := binding.room + (spaces.map Space.room).sum
        first ++ windows.flatten = (frame payload).take room ∧ last.unsent = (frame payload).drop room ∧
          last.isHolding = decide (room < headerSize + payload.length) := by
  have hplainly := process_eq_plainly hfree hpayload
  refine ⟨hplainly, fun single hsize => process_single hpayload hsize, fun spaces hspaces => ?_⟩
  obtain ⟨⟨next, complete⟩, hprocess⟩ : ∃ answer, binding.process payload = .ok answer := ⟨_, hplainly⟩
  obtain ⟨-, hwrites⟩ := writes_of_process hbounds hprocess
  obtain ⟨last, hresume, hunsent, hsound⟩ := Encoder.resumeIn_eq spaces (sound_of_process hprocess) hspaces
  refine ⟨next, complete, _, _, last, hprocess, hwrites.written, hresume, ?_⟩
  have hlast : last.unsent = (frame payload).drop (binding.room + (spaces.map Space.room).sum) := by
    rw [hunsent, hwrites.left, List.drop_drop]
  refine ⟨?_, hlast, ?_⟩
  · rw [flatten_pieces_eq_take, hwrites.left, ← List.take_add]
  · rw [Bool.eq_iff_iff, decide_eq_true_iff, ← Bool.not_eq_false, ← Encoder.unsent_eq_nil_iff hsound, hlast,
      List.drop_eq_nil_iff, length_frame, Nat.not_le]

/-- A frame that is cut in its header and in its payload. -/
theorem frame_in_pieces_cutTwice :
    let binding : Binding := ⟨.fresh, [9, 0, 0], 1, 1⟩
    let spaces : List Space := [⟨[5, 5, 5], 0⟩, ⟨[6, 6, 6, 6], 2⟩]
    binding.process [7, 8] = .ok (binding.processPlainly [7, 8]) ∧
    ∃ next complete first windows last, binding.process [7, 8] = .ok (next, complete) ∧
        next.writtenBytes = binding.writtenBytes ++ first ∧ next.encoder.resumeIn spaces = .ok (windows, last) ∧
        first ++ windows.flatten = [2, 0, 0, 0, 7, 8] ∧ last.isHolding = false := by
  intro binding spaces
  have hfree : binding.encoder.isHolding = false := rfl
  have hbounds : binding.InBounds := ⟨by decide, by decide⟩
  have hpayload : ([7, 8] : Payload).length < lengthLimit := by decide
  obtain ⟨hplainly, -, hpieces⟩ := frame_in_pieces hfree hbounds hpayload
  obtain ⟨next, complete, first, windows, last, hprocess, hwritten, hresume, hbytes, -, hlast⟩ :=
    hpieces spaces (by simp [spaces, Space.InBounds])
  exact ⟨hplainly, next, complete, first, windows, last, hprocess, hwritten, hresume, hbytes, hlast⟩

end Binding
end FramedLink
