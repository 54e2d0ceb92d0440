/-!
# Frames

What goes over the byte link.  A payload travels as one frame: four bytes that give its length, least significant byte
first, and then the payload itself.  There is no tag and no terminator at this layer, so several payloads are sent by
joining their frames.

Main statements: a header reads back as the length that it was written for, below the limit of four bytes
(`lengthOf_header`), and a frame is four bytes longer than its payload (`length_frame`).
-/
namespace FramedLink

/-- One message as the link carries it: bytes without any structure of their own. -/
abbrev Payload := List UInt8

def headerSize : Nat := 4

/-- Lengths below this limit fit a header. -/
def lengthLimit : Nat := 4294967296

/-- The header of a payload of `n` bytes, least significant byte first. -/
def header (n : Nat) : List UInt8 :=
  [UInt8.ofNat n, UInt8.ofNat (n / 256), UInt8.ofNat (n / 65536), UInt8.ofNat (n / 16777216)]

/-- The length that a header stands for: its bytes as the digits of a number, least significant first. -/
def lengthOf : List UInt8 → Nat
  | [] => 0
  | b :: rest => b.toNat + 256 * lengthOf rest

/-- The frame of a payload: its length, then its bytes. -/
def frame (payload : Payload) : List UInt8 := header payload.length ++ payload

def frames (payloads : List Payload) : List UInt8 := payloads.flatMap frame

@[simp] theorem length_header (n : Nat) : (header n).length = headerSize := rfl

@[simp] theorem length_frame (payload : Payload) : (frame payload).length = headerSize + payload.length := by
  simp [frame]

/-- **A header reads back as its length**, if the length fits four bytes. -/
theorem lengthOf_header {n : Nat} (h : n < lengthLimit) : lengthOf (header n) = n := by
  simp only [lengthLimit] at h
  simp only [header, lengthOf, UInt8.toNat_ofNat']
  omega

@[simp] theorem frames_nil : frames [] = [] := rfl

@[simp] theorem frames_cons (payload : Payload) (rest : List Payload) :
    frames (payload :: rest) = frame payload ++ frames rest := by
  simp [frames]

theorem frames_append (first second : List Payload) : frames (first ++ second) = frames first ++ frames second := by
  simp [frames]

end FramedLink
