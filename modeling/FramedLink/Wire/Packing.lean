import FramedLink.Wire.Encoder
/-!
# Packing frames into buffers

A `Binding` is an encoder together with the buffer that it writes to, from a given offset on.  Every call writes behind
the last one, so that the bytes between offset and cursor are what has been written since the buffer was bound.
Payloads are packed into buffers of given sizes, one after the other, until every frame is completely written (`pack`).
Joined, the pieces that the buffers hold are what goes over the link.

Main statements: overwriting keeps the length of a buffer (`length_overwrite`) and every byte before and after the
place that is written (`take_overwrite`, `drop_overwrite`).
-/
namespace FramedLink

/-- A buffer with `bytes` in place of what stood at `start`. -/
def overwrite (buffer : List UInt8) (start : Nat) (bytes : List UInt8) : List UInt8 :=
  buffer.take start ++ (bytes ++ buffer.drop (start + bytes.length))

theorem length_overwrite {buffer bytes : List UInt8} {start : Nat} (h : start + bytes.length ≤ buffer.length) :
    (overwrite buffer start bytes).length = buffer.length := by
  simp [overwrite]; omega

theorem take_overwrite {buffer : List UInt8} {start : Nat} (bytes : List UInt8) (h : start ≤ buffer.length) :
    (overwrite buffer start bytes).take start = buffer.take start := by
  rw [overwrite, List.take_append_of_le_length (by simp; omega), List.take_take, Nat.min_self]

theorem drop_overwrite {buffer : List UInt8} {start : Nat} (bytes : List UInt8) (h : start ≤ buffer.length) :
    (overwrite buffer start bytes).drop start = bytes ++ buffer.drop (start + bytes.length) := by
  rw [overwrite, List.drop_append_of_le_length (by simp; omega), List.drop_take_self, List.nil_append]

theorem take_overwrite_behind {buffer : List UInt8} {start : Nat} (bytes : List UInt8) (h : start ≤ buffer.length) :
    (overwrite buffer start bytes).take (start + bytes.length) = buffer.take start ++ bytes := by
  rw [List.take_add, take_overwrite _ h, drop_overwrite _ h, List.take_left]

theorem overwrite_nil (buffer : List UInt8) (start : Nat) : overwrite buffer start [] = buffer := by
  simp [overwrite]

/-- Bytes laid behind others are laid as one. -/
theorem overwrite_overwrite {buffer first : List UInt8} {start : Nat} (second : List UInt8)
    (h : start + first.length ≤ buffer.length) :
    overwrite (overwrite buffer start first) (start + first.length) second =
      overwrite buffer start (first ++ second) := by
  have hstart : start ≤ buffer.length := Nat.le_of_add_right_le h
  have hback : (overwrite buffer start first).drop (start + first.length + second.length)
      = buffer.drop (start + first.length + second.length) := by
    rw [Nat.add_assoc, ← List.drop_drop, drop_overwrite _ hstart, List.drop_append, List.drop_of_length_le (by omega),
      List.nil_append, List.drop_drop]
    congr 1
    omega
  rw [overwrite, take_overwrite_behind _ hstart, hback, overwrite, List.length_append, List.append_assoc,
    List.append_assoc, ← Nat.add_assoc]

/-- An encoder, the buffer it is bound to, where its writing started and where it goes on. -/
structure Binding where
  encoder : Encoder
  buffer : List UInt8
  offset : Nat
  cursor : Nat
deriving DecidableEq

/-- Binds a buffer from `offset` on, which may be the very end of it. -/
def Encoder.bindTo (encoder : Encoder) (buffer : List UInt8) (offset : Nat) : Except EncoderError Binding :=
  if buffer.length < offset then .error (.offsetOutOfBounds offset buffer.length)
  else .ok ⟨encoder, buffer, offset, offset⟩

namespace Binding

def room (binding : Binding) : Nat := binding.buffer.length - binding.cursor

def written (binding : Binding) : Nat := binding.cursor - binding.offset

/-- The bytes written since the buffer was bound. -/
def writtenBytes (binding : Binding) : List UInt8 := (binding.buffer.take binding.cursor).drop binding.offset

/-- Puts an emission behind what has been written. -/
def accept (binding : Binding) (emission : Emission) : Binding :=
  { binding with
    encoder := emission.encoder
    buffer := overwrite binding.buffer binding.cursor emission.bytes
    cursor := binding.cursor + emission.bytes.length }

/-- Writes the frame of a payload.  The answer is false if the frame did not fit and its rest is held. -/
def process (binding : Binding) (payload : Payload) : Except EncoderError (Binding × Bool) :=
  (binding.encoder.offer binding.room payload).map fun emission => (binding.accept emission, emission.complete)

/-- Goes on with the held frame.  The answer is true once it is completely written. -/
def flush (binding : Binding) : Except EncoderError (Binding × Bool) :=
  (binding.encoder.resume binding.room).map fun emission => (binding.accept emission, emission.complete)

/-- Writes the frames of payloads until one does not fit; the payloads not yet started are given back. -/
def fill (binding : Binding) : List Payload → Except EncoderError (Binding × List Payload)
  | [] => .ok (binding, [])
  | payload :: rest =>
    match binding.process payload with
    | .error e => .error e
    | .ok (next, true) => next.fill rest
    | .ok (next, false) => .ok (next, rest)

/-- One buffer of a longer transmission: the held frame goes first, and other payloads only if all of it is out. -/
def fillFrom (binding : Binding) (payloads : List Payload) : Except EncoderError (Binding × List Payload) :=
  if binding.encoder.isHolding then
    match binding.flush with
    | .error e => .error e
    | .ok (next, true) => next.fill payloads
    | .ok (next, false) => .ok (next, payloads)
  else binding.fill payloads

end Binding

/-- The result of packing: what was written to each buffer that was used, the encoder behind the last one, and the
payloads that were not started. -/
structure Packing where
  pieces : List (List UInt8)
  encoder : Encoder
  left : List Payload
deriving DecidableEq

/-- Packs into empty buffers of the given sizes and stops before a buffer that nothing is left for. -/
def pack (encoder : Encoder) (payloads : List Payload) : List Nat → Except EncoderError Packing
  | [] => .ok ⟨[], encoder, payloads⟩
  | size :: sizes =>
    if payloads.isEmpty && !encoder.isHolding then .ok ⟨[], encoder, payloads⟩
    else
      match encoder.bindTo (List.replicate size 0) 0 with
      | .error e => .error e
      | .ok binding =>
        match binding.fillFrom payloads with
        | .error e => .error e
        | .ok (binding, left) =>
          (pack binding.encoder left sizes).map fun rest => { rest with pieces := binding.writtenBytes :: rest.pieces }

def Packing.wire (packing : Packing) : List UInt8 := packing.pieces.flatten

end FramedLink
