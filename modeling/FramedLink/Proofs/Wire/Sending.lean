import FramedLink.Wire.Encoder
/-!
# What an encoder writes

An encoder is given room and either starts a frame or goes on with the one it holds.  Both do one thing (`Sends`): what
is unsent of the frame goes out if it fits, and otherwise its front fills the room and the rest is held.  Everything that
packs frames, into buffers or into the transmits of a session, rests on these two laws (`offer_sends`, `resume_sends`).
-/
namespace FramedLink

/-- What an encoder does in `room` bytes with a frame of which `unsent` is still to be written. -/
inductive Sends (unsent : List UInt8) (room payloadLen : Nat) : Emission → Prop
  | whole (fits : unsent.length ≤ room) : Sends unsent room payloadLen ⟨unsent, true, .fresh⟩
  | front {held : Held} (long : room < unsent.length) (rest : held.unsent = unsent.drop room)
    (same : held.payloadLen = payloadLen) : Sends unsent room payloadLen ⟨unsent.take room, false, ⟨some held⟩⟩

namespace Encoder

/-- A held frame has bytes left to be written. -/
def Sound (encoder : Encoder) : Prop := ∀ held, encoder.held = some held → held.unsent ≠ []

theorem sound_fresh : fresh.Sound := fun _ h => by cases h

theorem eq_fresh {encoder : Encoder} (h : encoder.isHolding = false) : encoder = .fresh := by
  cases encoder with
  | mk held =>
    cases held with
    | none => rfl
    | some held => cases h

theorem frame_ne_nil (payload : Payload) : frame payload ≠ [] := List.cons_ne_nil _ _

/-- **Starting a frame** is never refused by an encoder that holds nothing, if a header can describe the payload. -/
theorem offer_sends (room : Nat) {payload : Payload} (h : payload.length < lengthLimit) :
    ∃ emission, fresh.offer room payload = .ok emission ∧ Sends (frame payload) room payload.length emission := by
  have hfree : ¬ fresh.isHolding = true := Bool.false_ne_true
  unfold offer
  rw [if_neg hfree, if_neg (Nat.not_le.2 h)]
  by_cases hfits : headerSize + payload.length ≤ room
  · rw [if_pos hfits]
    exact ⟨_, rfl, .whole (by rwa [length_frame])⟩
  · have hover : room < (frame payload).length := by rw [length_frame]; omega
    have hfront : Sends (frame payload) room payload.length
        ⟨((Held.ofPayload payload).write room).1, false, ⟨some ((Held.ofPayload payload).write room).2⟩⟩ := by
      rw [Held.write_bytes, Held.unsent_ofPayload]
      exact .front hover (Held.write_unsent (.ofPayload payload) room) rfl
    rw [if_neg hfits]
    exact ⟨_, rfl, hfront⟩

/-- **Going on with a held frame** is never refused. -/
theorem resume_sends (room : Nat) (held : Held) :
    ∃ emission, (Encoder.mk (some held)).resume room = .ok emission ∧
      Sends held.unsent room held.payloadLen emission := by
  have hleft : (held.write room).2.remaining = held.unsent.length - room := by
    rw [← Held.length_unsent, Held.write_unsent, List.length_drop]
  simp only [resume, hleft]
  by_cases hfits : held.unsent.length ≤ room
  · rw [if_pos (Nat.sub_eq_zero_of_le hfits), Held.write_bytes, List.take_of_length_le hfits]
    exact ⟨_, rfl, .whole hfits⟩
  · rw [if_neg (by omega), Held.write_bytes]
    exact ⟨_, rfl, .front (Nat.not_le.1 hfits) (Held.write_unsent held room) rfl⟩

end Encoder

namespace Sends

variable {unsent : List UInt8} {room payloadLen : Nat} {emission : Emission}

theorem bytes (h : Sends unsent room payloadLen emission) : emission.bytes = unsent.take room := by
  cases h with
  | whole fits => exact (List.take_of_length_le fits).symm
  | front => rfl

theorem unsent_encoder (h : Sends unsent room payloadLen emission) : emission.encoder.unsent = unsent.drop room := by
  cases h with
  | whole fits => exact (List.drop_of_length_le fits).symm
  | front long rest same => exact rest

theorem sound (h : Sends unsent room payloadLen emission) : emission.encoder.Sound := by
  cases h with
  | whole fits => exact Encoder.sound_fresh
  | front long rest same =>
    intro held hheld
    cases hheld
    rw [rest, Ne, List.drop_eq_nil_iff]
    omega

end Sends

theorem unsent_append_frames_eq_nil {encoder : Encoder} (h : encoder.Sound) (payloads : List Payload) :
    encoder.unsent ++ frames payloads = [] ↔ encoder.isHolding = false ∧ payloads = [] := by
  rw [List.append_eq_nil_iff]
  constructor
  · rintro ⟨hheld, hpayloads⟩
    refine ⟨?_, ?_⟩
    · cases hencoder : encoder.held with
      | none => rw [Encoder.isHolding, hencoder]; rfl
      | some held =>
        rw [Encoder.unsent, hencoder] at hheld
        exact absurd hheld (h held hencoder)
    · cases payloads with
      | nil => rfl
      | cons payload payloads =>
        rw [frames_cons, List.append_eq_nil_iff] at hpayloads
        exact absurd hpayloads.1 (Encoder.frame_ne_nil payload)
  · rintro ⟨hheld, rfl⟩
    rw [Encoder.eq_fresh hheld]
    exact ⟨rfl, rfl⟩

end FramedLink
