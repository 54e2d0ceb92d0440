import Mathlib.Algebra.Ring.Nat
import FramedLink.Proofs.Wire.Chunking
import FramedLink.Proofs.Wire.Filling
/-!
# There and back

Payloads are packed into a row of buffers of any sizes, what the buffers hold is joined and cut into chunks of any sizes,
and a decoder takes the chunks in.  The buffers and the chunks have nothing to do with each other.

Main statement: no side ever fails, no more buffers are used than the frames need, and the decoder ends with the payloads
that were packed and with nothing besides (`roundTrip`).
-/
namespace FramedLink

theorem length_frames (payloads : List Payload) :
    (frames payloads).length = (payloads.map fun payload => headerSize + payload.length).sum := by
  simp only [frames, List.length_flatMap, length_frame]

/-- **A stream without an oversized header is taken in to its end**, whatever the chunks. -/
theorem Decoder.Follows.feedAll : ∀ (chunks : List (List UInt8)) {decoder : Decoder} {stream : List UInt8},
    decoder.Follows stream → (unframe decoder.max (stream ++ chunks.flatten)).oversized = none →
    decoder.feedAll chunks =
      let ready := (decoder.intakes chunks).flatMap Intake.ready
      ⟨decoder.afterChunks chunks, ready, chunks.length, ready.length, none⟩
  | [], _, _, _, _ => rfl
  | chunk :: chunks, decoder, stream, h, hok => by
    rw [List.flatten_cons, ← List.append_assoc] at hok
    have hafter := oversized_front hok
    have hbefore := oversized_front hafter
    have hanswer : (decoder.feed chunk).answer = .ok (decoder.feed chunk).ready.length := by
      rw [(feed_of_follows h chunk).2.2, hbefore, Unframed.answer, hafter]
      rfl
    have hlater := Decoder.Follows.feedAll chunks (h.feed chunk) (by rwa [h.max_feed chunk])
    rw [Decoder.feedAll, hanswer]
    simp only [hlater, Decoder.intakes, List.flatMap_cons, List.length_append, List.length_cons, afterChunks_cons]
    rw [Nat.add_comm (decoder.feed chunk).ready.length]

/-- **Payloads survive the link.**  If the buffers have room for all frames, packing never fails and leaves nothing to be
sent.  It uses as many buffers as are needed to reach the length of the frames and not one more, fills each but the last
to its last byte, and what they hold is the frames.  A decoder that is fed these bytes in any chunks refuses none, emits
the payloads in order, counts them, and ends between two frames. -/
theorem roundTrip {max : Nat} (hmax : max < lengthLimit) {payloads : List Payload}
    (hpayloads : ∀ payload ∈ payloads, payload.length ≤ max) {sizes : List Nat}
    (hsizes : (payloads.map fun payload => headerSize + payload.length).sum ≤ sizes.sum) :
    ∃ packing, pack .fresh payloads sizes = .ok packing ∧ packing.encoder = .fresh ∧ packing.left = [] ∧
      packing.wire = frames payloads ∧
      (payloads.map fun payload => headerSize + payload.length).sum ≤ (sizes.take packing.pieces.length).sum ∧
      (∀ n, n < packing.pieces.length →
        (sizes.take n).sum < (payloads.map fun payload => headerSize + payload.length).sum) ∧
      packing.pieces.dropLast.map List.length = sizes.take (packing.pieces.length - 1) ∧
      ∀ chunks, chunks.flatten = packing.wire →
        let reception := (Decoder.fresh max).feedAll chunks
        reception.error = none ∧ reception.accepted = chunks.length ∧ reception.ready = payloads ∧
        reception.count = payloads.length ∧ reception.decoder.buffered = 0 ∧
        reception.decoder.decoded = payloads.length := by
  have hfits : ∀ payload ∈ payloads, Fits max payload := fun payload hp =>
    ⟨hpayloads payload hp, Nat.lt_of_le_of_lt (hpayloads payload hp) hmax⟩
  rw [← length_frames] at hsizes ⊢
  obtain ⟨last, left, hpack, hrest, hlast⟩ :=
    pack_eq sizes .fresh payloads (fun payload hp => (hfits payload hp).2) Encoder.sound_fresh
  have hall : Encoder.fresh.unsent ++ frames payloads = frames payloads := rfl
  rw [hall] at hpack hrest
  rw [List.drop_of_length_le hsizes] at hrest
  obtain ⟨hfree, hnone⟩ := (unsent_append_frames_eq_nil hlast left).1 hrest
  obtain ⟨henough, hleast⟩ := length_pieces sizes _ hsizes
  refine ⟨_, hpack, Encoder.eq_fresh hfree, hnone, flatten_pieces sizes _ hsizes, henough, hleast,
    map_length_dropLast_pieces sizes _ hsizes, fun chunks hchunks => ?_⟩
  rw [Packing.wire, flatten_pieces sizes _ hsizes] at hchunks
  have hstart : (Decoder.fresh max).Follows [] := Decoder.follows_nil rfl
  have hwhole : unframe max ([] ++ chunks.flatten) = ⟨payloads, [], none⟩ := by
    rw [List.nil_append, hchunks, unframe_frames hfits]
  have hnil : (unframe max []).payloads = [] := by rw [unframe_of_short (by decide)]
  obtain ⟨hfollows, hkept, hready, hdecoded⟩ := hstart.afterChunks chunks
  have hfed := hstart.feedAll chunks (by rw [show (Decoder.fresh max).max = max from rfl, hwhole])
  have hbuffered := hfollows.buffered (by rw [hkept, show (Decoder.fresh max).max = max from rfl, hwhole])
  rw [hkept, show (Decoder.fresh max).max = max from rfl, hwhole] at hbuffered
  rw [show (Decoder.fresh max).max = max from rfl, hwhole, hnil, List.nil_append] at hready
  rw [← hready, show (Decoder.fresh max).decoded = 0 from rfl, Nat.zero_add] at hdecoded
  simp only [hfed, ← hready, hbuffered, hdecoded, List.length_nil, and_self]

/-- Three payloads through buffers that cut a header and a payload, with empty buffers among them. -/
theorem roundTrip_cut :
    (3 < lengthLimit ∧ (∀ payload ∈ ([[1, 2, 3], [], [9]] : List Payload), payload.length ≤ 3) ∧
      (([[1, 2, 3], [], [9]] : List Payload).map fun payload => headerSize + payload.length).sum ≤ [0, 6, 3, 0, 9].sum) ∧
    ∃ packing, pack .fresh [[1, 2, 3], [], [9]] [0, 6, 3, 0, 9] = .ok packing ∧ packing.left = [] ∧
      packing.wire = [3, 0, 0, 0, 1, 2, 3, 0, 0, 0, 0, 1, 0, 0, 0, 9] ∧
      ((Decoder.fresh 3).feedAll [packing.wire.take 2, [], packing.wire.drop 2]).ready = [[1, 2, 3], [], [9]] := by
  have hmax : 3 < lengthLimit := by decide
  have hpayloads : ∀ payload ∈ ([[1, 2, 3], [], [9]] : List Payload), payload.length ≤ 3 := by decide
  have hsizes : (([[1, 2, 3], [], [9]] : List Payload).map fun payload => headerSize + payload.length).sum
      ≤ [0, 6, 3, 0, 9].sum := by decide
  obtain ⟨packing, hpack, -, hleft, hwire, -, -, -, hfed⟩ := roundTrip hmax hpayloads hsizes
  have hchunks : [packing.wire.take 2, [], packing.wire.drop 2].flatten = packing.wire := by
    simp only [List.flatten_cons, List.flatten_nil, List.nil_append, List.append_nil, List.take_append_drop]
  exact ⟨⟨hmax, hpayloads, hsizes⟩, packing, hpack, hleft, hwire, (hfed _ hchunks).2.2.1⟩

end FramedLink
