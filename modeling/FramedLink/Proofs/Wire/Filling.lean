import Mathlib.Algebra.Ring.Nat
import FramedLink.Proofs.Wire.Sending
import FramedLink.Wire.Packing
/-!
# Filling buffers

A buffer that frames are packed into takes the front of the bytes still to be sent, as many as it has room for, and
what is left is still to be sent (`fillFrom_eq`).  So a row of buffers cuts these bytes into pieces of the buffers' sizes
(`pack_eq`), and no buffer is used once they are all out.
-/
namespace FramedLink

namespace Binding

/-- Writing goes on behind what was written, inside the buffer. -/
def InBounds (binding : Binding) : Prop := binding.offset ≤ binding.cursor ∧ binding.cursor ≤ binding.buffer.length

theorem InBounds.cursor_add_le {binding : Binding} {n : Nat} (h : binding.InBounds) (hroom : n ≤ binding.room) :
    binding.cursor + n ≤ binding.buffer.length := by
  have hcursor := h.2
  rw [room] at hroom
  omega

theorem inBounds_accept {binding : Binding} {emission : Emission} (h : binding.InBounds)
    (hroom : emission.bytes.length ≤ binding.room) : (binding.accept emission).InBounds := by
  have hend := h.cursor_add_le hroom
  refine ⟨Nat.le_trans h.1 (Nat.le_add_right _ _), ?_⟩
  simp only [accept, length_overwrite hend]
  exact hend

theorem room_accept {binding : Binding} {emission : Emission} (h : binding.InBounds)
    (hroom : emission.bytes.length ≤ binding.room) :
    (binding.accept emission).room = binding.room - emission.bytes.length := by
  simp only [room, accept, length_overwrite (h.cursor_add_le hroom), Nat.sub_sub]

theorem writtenBytes_accept {binding : Binding} {emission : Emission} (h : binding.InBounds) :
    (binding.accept emission).writtenBytes = binding.writtenBytes ++ emission.bytes := by
  obtain ⟨hoffset, hcursor⟩ := h
  simp only [writtenBytes, accept, take_overwrite_behind _ hcursor]
  rw [List.drop_append_of_le_length]
  rw [List.length_take]
  omega

/-- Filling from `binding` put the front of `stream` into the room and left the rest for later. -/
structure Filled (binding : Binding) (stream : List UInt8) (next : Binding) (left : List Payload) : Prop where
  written : next.writtenBytes = binding.writtenBytes ++ stream.take binding.room
  unsent : next.encoder.unsent ++ frames left = stream.drop binding.room
  sound : next.encoder.Sound

theorem Filled.after {binding next : Binding} {emission : Emission} {stream : List UInt8} {left : List Payload}
    (hbounds : binding.InBounds) (hroom : emission.bytes.length ≤ binding.room)
    (h : Filled (binding.accept emission) stream next left) :
    Filled binding (emission.bytes ++ stream) next left := by
  obtain ⟨hwritten, hunsent, hsound⟩ := h
  rw [writtenBytes_accept hbounds, room_accept hbounds hroom, List.append_assoc] at hwritten
  rw [room_accept hbounds hroom] at hunsent
  refine ⟨?_, ?_, hsound⟩
  · rw [hwritten, List.take_append, List.take_of_length_le hroom]
  · rw [hunsent, List.drop_append, List.drop_of_length_le hroom, List.nil_append]

theorem Filled.of_front {binding : Binding} {unsent : List UInt8} {payloadLen : Nat} {held : Held}
    (payloads : List Payload) (hbounds : binding.InBounds) (hover : binding.room < unsent.length)
    (hsends : Sends unsent binding.room payloadLen ⟨unsent.take binding.room, false, ⟨some held⟩⟩) :
    Filled binding (unsent ++ frames payloads)
      (binding.accept ⟨unsent.take binding.room, false, ⟨some held⟩⟩) payloads := by
  refine ⟨?_, ?_, hsends.sound⟩
  · rw [writtenBytes_accept hbounds, List.take_append_of_le_length (Nat.le_of_lt hover)]
  · rw [List.drop_append_of_le_length (Nat.le_of_lt hover)]
    exact congrArg (· ++ frames payloads) hsends.unsent_encoder

theorem fill_eq : ∀ (payloads : List Payload) (binding : Binding), (∀ p ∈ payloads, p.length < lengthLimit) →
    binding.InBounds → binding.encoder = .fresh →
    ∃ next left, binding.fill payloads = .ok (next, left) ∧ Filled binding (frames payloads) next left ∧
      ∀ p ∈ left, p.length < lengthLimit
  | [], binding, hall, _, hencoder => by
    refine ⟨binding, [], rfl, ⟨?_, ?_, ?_⟩, hall⟩
    · rw [frames_nil, List.take_nil, List.append_nil]
    · rw [hencoder, frames_nil, List.drop_nil]
      rfl
    · rw [hencoder]
      exact Encoder.sound_fresh
  | payload :: payloads, binding, hall, hbounds, hencoder => by
    obtain ⟨hpayload, hpayloads⟩ := List.forall_mem_cons.1 hall
    obtain ⟨emission, hoffer, hsends⟩ := Encoder.offer_sends binding.room hpayload
    simp only [fill, process, hencoder, hoffer, Except.map, frames_cons]
    cases hsends with
    | whole hfits =>
      obtain ⟨next, left, hfill, hfilled, hleft⟩ :=
        fill_eq payloads (binding.accept ⟨frame payload, true, .fresh⟩) hpayloads (inBounds_accept hbounds hfits) rfl
      exact ⟨next, left, hfill, hfilled.after hbounds hfits, hleft⟩
    | front hover hrest hsame =>
      exact ⟨_, payloads, rfl, .of_front payloads hbounds hover (.front hover hrest hsame), hpayloads⟩

/-- **One buffer** takes the front of what is still to be sent, the held frame before the payloads. -/
theorem fillFrom_eq {payloads : List Payload} {binding : Binding} (hall : ∀ p ∈ payloads, p.length < lengthLimit)
    (hbounds : binding.InBounds) :
    ∃ next left, binding.fillFrom payloads = .ok (next, left) ∧
      Filled binding (binding.encoder.unsent ++ frames payloads) next left ∧ ∀ p ∈ left, p.length < lengthLimit := by
  cases hheld : binding.encoder.held with
  | none =>
    have hfree : binding.encoder.isHolding = false := by rw [Encoder.isHolding, hheld]; rfl
    have hencoder : binding.encoder = .fresh := Encoder.eq_fresh hfree
    rw [fillFrom, hfree, if_neg Bool.false_ne_true, hencoder]
    exact fill_eq payloads binding hall hbounds hencoder
  | some held =>
    have hencoder : binding.encoder = ⟨some held⟩ := by rw [← hheld]
    obtain ⟨emission, hresume, hsends⟩ := Encoder.resume_sends binding.room held
    have hunsent : binding.encoder.unsent = held.unsent := by rw [hencoder]; rfl
    have hholding : binding.encoder.isHolding = true := by rw [hencoder]; rfl
    rw [hunsent, fillFrom, hholding, if_pos rfl, flush, hencoder, hresume]
    cases hsends with
    | whole hfits =>
      obtain ⟨next, left, hfill, hfilled, hleft⟩ :=
        fill_eq payloads (binding.accept ⟨held.unsent, true, .fresh⟩) hall (inBounds_accept hbounds hfits) rfl
      exact ⟨next, left, hfill, hfilled.after hbounds hfits, hleft⟩
    | front hover hrest hsame =>
      exact ⟨_, payloads, rfl, .of_front payloads hbounds hover (.front hover hrest hsame), hall⟩

end Binding

/-! ## A row of buffers -/

/-- A stream cut into pieces of the given sizes, one after the other, until nothing of it is left. -/
def pieces : List Nat → List UInt8 → List (List UInt8)
  | [], _ => []
  | size :: sizes, stream => if stream.isEmpty then [] else stream.take size :: pieces sizes (stream.drop size)

theorem pieces_nil (sizes : List Nat) : pieces sizes [] = [] := by cases sizes <;> rfl

theorem pieces_cons {size : Nat} {sizes : List Nat} {stream : List UInt8} (h : stream ≠ []) :
    pieces (size :: sizes) stream = stream.take size :: pieces sizes (stream.drop size) := by
  rw [pieces, if_neg (by rwa [List.isEmpty_iff])]

theorem length_drop_le_sum {size : Nat} {sizes : List Nat} {stream : List UInt8}
    (h : stream.length ≤ (size :: sizes).sum) : (stream.drop size).length ≤ sizes.sum := by
  rw [List.sum_cons] at h
  rw [List.length_drop]
  omega

/-- What sizes that are too small leave of a stream is not in its pieces. -/
theorem flatten_pieces_eq_take : ∀ (sizes : List Nat) (stream : List UInt8),
    (pieces sizes stream).flatten = stream.take sizes.sum
  | [], stream => rfl
  | size :: sizes, stream => by
    by_cases hstream : stream = []
    · rw [hstream, pieces_nil, List.take_nil]
      rfl
    · rw [pieces_cons hstream, List.flatten_cons, flatten_pieces_eq_take sizes, List.sum_cons, List.take_add]

theorem flatten_pieces (sizes : List Nat) (stream : List UInt8) (h : stream.length ≤ sizes.sum) :
    (pieces sizes stream).flatten = stream := by
  rw [flatten_pieces_eq_take, List.take_of_length_le h]

/-- The pieces use sizes up to the first that reach the length of the stream. -/
theorem length_pieces : ∀ (sizes : List Nat) (stream : List UInt8), stream.length ≤ sizes.sum →
    stream.length ≤ (sizes.take (pieces sizes stream).length).sum ∧
    ∀ n, n < (pieces sizes stream).length → (sizes.take n).sum < stream.length
  | [], _, h => ⟨h, fun _ hn => by cases hn⟩
  | size :: sizes, stream, h => by
    by_cases hstream : stream = []
    · rw [hstream, pieces_nil]
      exact ⟨Nat.zero_le _, fun _ hn => by cases hn⟩
    obtain ⟨henough, hleast⟩ := length_pieces sizes _ (length_drop_le_sum h)
    rw [List.length_drop] at henough hleast
    rw [pieces_cons hstream, List.length_cons, List.take_succ_cons, List.sum_cons]
    refine ⟨by omega, fun n hn => ?_⟩
    cases n with
    | zero => exact List.length_pos_iff.2 hstream
    | succ n =>
      have hless := hleast n (Nat.lt_of_succ_lt_succ hn)
      rw [List.take_succ_cons, List.sum_cons]
      omega

/-- Every piece but the last has the size it was to have. -/
theorem map_length_dropLast_pieces : ∀ (sizes : List Nat) (stream : List UInt8), stream.length ≤ sizes.sum →
    (pieces sizes stream).dropLast.map List.length = sizes.take ((pieces sizes stream).length - 1)
  | [], _, _ => rfl
  | size :: sizes, stream, h => by
    by_cases hstream : stream = []
    · rw [hstream, pieces_nil]
      rfl
    have hlater := map_length_dropLast_pieces sizes _ (length_drop_le_sum h)
    rw [pieces_cons hstream]
    cases hpieces : pieces sizes (stream.drop size) with
    | nil => rfl
    | cons piece more =>
      -- Something is left behind this piece, so the piece is as long as it may be.
      have hlong : size < stream.length := by
        refine Nat.lt_of_not_le fun hle => ?_
        rw [List.drop_of_length_le hle, pieces_nil] at hpieces
        cases hpieces
      rw [hpieces] at hlater
      rw [List.dropLast_cons_of_ne_nil (List.cons_ne_nil _ _), List.map_cons, hlater,
        List.length_take_of_le (Nat.le_of_lt hlong)]
      rfl

/-! ### Buffers of one size -/

theorem length_of_mem_pieces {b : Nat} (hb : 1 ≤ b) : ∀ (n : Nat) (stream : List UInt8),
    ∀ piece ∈ pieces (List.replicate n b) stream, 1 ≤ piece.length ∧ piece.length ≤ b
  | 0, _, piece, h => absurd h List.not_mem_nil
  | n + 1, stream, piece, h => by
    by_cases hstream : stream = []
    · rw [hstream, pieces_nil] at h
      exact absurd h List.not_mem_nil
    have hpos : 0 < stream.length := List.length_pos_iff.2 hstream
    rw [List.replicate_succ, pieces_cons hstream] at h
    rcases List.mem_cons.1 h with rfl | hlater
    · rw [List.length_take]
      omega
    · exact length_of_mem_pieces hb n _ piece hlater

theorem length_of_mem_dropLast_pieces {b n : Nat} {stream : List UInt8} (h : stream.length ≤ n * b) :
    ∀ piece ∈ (pieces (List.replicate n b) stream).dropLast, piece.length = b := by
  intro piece hpiece
  have hsum : stream.length ≤ (List.replicate n b).sum := by rwa [List.sum_replicate_nat]
  have hlengths := map_length_dropLast_pieces (List.replicate n b) stream hsum
  have hmem : piece.length ∈ (pieces (List.replicate n b) stream).dropLast.map List.length := List.mem_map_of_mem hpiece
  rw [hlengths] at hmem
  exact List.eq_of_mem_replicate (List.mem_of_mem_take hmem)

theorem length_pieces_replicate {b : Nat} (hb : 1 ≤ b) : ∀ (n : Nat) (stream : List UInt8), stream.length ≤ n * b →
    (pieces (List.replicate n b) stream).length = (stream.length + (b - 1)) / b
  | 0, stream, h => by
    rw [Nat.zero_mul] at h
    rw [Nat.le_zero.1 h, Nat.zero_add, Nat.div_eq_of_lt (by omega)]
    rfl
  | n + 1, stream, h => by
    by_cases hstream : stream = []
    · rw [hstream, pieces_nil, List.length_nil, List.length_nil, Nat.zero_add, Nat.div_eq_of_lt (by omega)]
    have hpos : 0 < stream.length := List.length_pos_iff.2 hstream
    have hless : (stream.drop b).length ≤ n * b := by
      rw [List.length_drop]
      rw [Nat.succ_mul] at h
      omega
    rw [List.replicate_succ, pieces_cons hstream, List.length_cons, length_pieces_replicate hb n _ hless,
      List.length_drop, show stream.length + (b - 1) = stream.length - 1 + b by omega, Nat.add_div_right _ hb]
    rcases Nat.le_total b stream.length with hlong | hshort
    · rw [show stream.length - b + (b - 1) = stream.length - 1 by omega]
    · rw [Nat.sub_eq_zero_of_le hshort, Nat.zero_add, Nat.div_eq_of_lt (by omega), Nat.div_eq_of_lt (by omega)]

/-! ### Packing a row of buffers -/

/-- **A row of buffers** cuts what is still to be sent into pieces of the buffers' sizes, and what they cannot take is
still to be sent behind them. -/
theorem pack_eq : ∀ (sizes : List Nat) (encoder : Encoder) (payloads : List Payload),
    (∀ p ∈ payloads, p.length < lengthLimit) → encoder.Sound →
    ∃ last left, pack encoder payloads sizes = .ok ⟨pieces sizes (encoder.unsent ++ frames payloads), last, left⟩ ∧
      last.unsent ++ frames left = (encoder.unsent ++ frames payloads).drop sizes.sum ∧ last.Sound
  | [], encoder, payloads, _, hsound => ⟨encoder, payloads, rfl, rfl, hsound⟩
  | size :: sizes, encoder, payloads, hall, hsound => by
    rw [pack]
    by_cases hdone : encoder.unsent ++ frames payloads = []
    · obtain ⟨hfree, hnone⟩ := (unsent_append_frames_eq_nil hsound payloads).1 hdone
      have hstop : (payloads.isEmpty && !encoder.isHolding) = true := by rw [hfree, hnone]; rfl
      rw [if_pos hstop, hdone, pieces_nil]
      exact ⟨encoder, payloads, rfl, by rw [hdone, List.drop_nil], hsound⟩
    have hgo : ¬ (payloads.isEmpty && !encoder.isHolding) = true := by
      intro hstop
      rw [Bool.and_eq_true, List.isEmpty_iff, Bool.not_eq_true'] at hstop
      exact hdone ((unsent_append_frames_eq_nil hsound payloads).2 ⟨hstop.2, hstop.1⟩)
    have hbounds : Binding.InBounds ⟨encoder, List.replicate size 0, 0, 0⟩ := ⟨Nat.le_refl _, Nat.zero_le _⟩
    have hroom : Binding.room ⟨encoder, List.replicate size 0, 0, 0⟩ = size := List.length_replicate
    obtain ⟨next, left, hfill, ⟨hwritten, hunsent, hnext⟩, hleft⟩ := Binding.fillFrom_eq hall hbounds
    obtain ⟨last, left', hpack, hrest, hlast⟩ := pack_eq sizes next.encoder left hleft hnext
    rw [hroom] at hwritten hunsent
    rw [hunsent] at hpack hrest
    have hpiece : next.writtenBytes = (encoder.unsent ++ frames payloads).take size := by
      rw [hwritten]; rfl
    rw [if_neg hgo, pieces_cons hdone, Encoder.bindTo, if_neg (Nat.not_lt_zero _)]
    simp only [hfill, hpack, hpiece, Except.map]
    refine ⟨last, left', rfl, ?_, hlast⟩
    rw [hrest, List.drop_drop, List.sum_cons]

end FramedLink
