import Mathlib.Algebra.Ring.Nat
import FramedLink.Wire.Frame
/-!
# The grammar of a byte stream

`unframe` cuts a byte stream into frames from the front, without a state and without chunks: it says what a receiver
with a limit on lengths ought to make of the stream.  It stops before the first frame of which bytes are missing, and
before the first complete header whose length is above the limit.

Main statements: the frames of the payloads that were cut off, followed by the rest, are the stream again
(`frames_unframe`); frames in front of a stream are cut off first (`unframe_frames_append`); and a longer stream
is cut like its front, and then like the rest of that front with the bytes behind it (`unframe_append`).
-/
namespace FramedLink

/-- A stream cut into frames: the payloads of the whole frames, the bytes behind the last of them, and the length that
these bytes claim if it is above the limit. -/
structure Unframed where
  payloads : List Payload
  rest : List UInt8
  oversized : Option Nat
deriving DecidableEq

/-- Cuts a stream into frames, as far as it goes. -/
def unframe (max : Nat) (stream : List UInt8) : Unframed :=
  if _h : stream.length < headerSize then ⟨[], stream, none⟩
  else
    let length := lengthOf (stream.take headerSize)
    let body := stream.drop headerSize
    if max < length then ⟨[], stream, some length⟩
    else if body.length < length then ⟨[], stream, none⟩
    else
      let later := unframe max (body.drop length)
      { later with payloads := body.take length :: later.payloads }
termination_by stream.length
decreasing_by simp only [headerSize, List.length_drop] at *; omega

/-- A payload that a receiver with this limit accepts, and whose length a header can describe. -/
def Fits (max : Nat) (payload : Payload) : Prop := payload.length ≤ max ∧ payload.length < lengthLimit

/-! ## Headers -/

theorem lengthOf_lt : ∀ bytes : List UInt8, lengthOf bytes < 2 ^ (8 * bytes.length)
  | [] => by decide
  | b :: rest => by
    have hb := b.toNat_lt
    have hrest := lengthOf_lt rest
    have hpow : 2 ^ (8 * (rest.length + 1)) = 2 ^ 8 * 2 ^ (8 * rest.length) := by rw [← Nat.pow_add]; congr 1; omega
    simp only [lengthOf, List.length_cons, hpow]
    omega

/-- **A complete header is the header of the length it stands for.** -/
theorem header_lengthOf {bytes : List UInt8} (h : bytes.length = headerSize) : header (lengthOf bytes) = bytes := by
  obtain ⟨a, b, c, d, rfl⟩ : ∃ a b c d, bytes = [a, b, c, d] := by
    match bytes, h with
    | [a, b, c, d], _ => exact ⟨a, b, c, d, rfl⟩
  have ha := a.toNat_lt
  have hb := b.toNat_lt
  have hc := c.toNat_lt
  have hd := d.toNat_lt
  simp only [header, lengthOf, List.cons.injEq, and_true, ← UInt8.toNat_inj, UInt8.toNat_ofNat']
  refine ⟨?_, ?_, ?_, ?_⟩ <;> omega

theorem lengthOf_lt_lengthLimit {bytes : List UInt8} (h : bytes.length = headerSize) :
    lengthOf bytes < lengthLimit := by
  have hlt := lengthOf_lt bytes
  rw [h] at hlt
  exact hlt

/-! ## The three ways in which a stream begins -/

theorem unframe_of_short {max : Nat} {stream : List UInt8} (h : stream.length < headerSize) :
    unframe max stream = ⟨[], stream, none⟩ := by
  rw [unframe, dif_pos h]

theorem unframe_of_header {max : Nat} {head : List UInt8} (body : List UInt8) (h : head.length = headerSize) :
    unframe max (head ++ body) =
      if max < lengthOf head then ⟨[], head ++ body, some (lengthOf head)⟩
      else if body.length < lengthOf head then ⟨[], head ++ body, none⟩
      else
        { unframe max (body.drop (lengthOf head)) with
          payloads := body.take (lengthOf head) :: (unframe max (body.drop (lengthOf head))).payloads } := by
  have hlong : ¬ (head ++ body).length < headerSize := by rw [List.length_append]; omega
  rw [unframe, dif_neg hlong]
  simp only [← h, List.take_left', List.drop_left']

theorem unframe_of_oversized {max : Nat} {head : List UInt8} (body : List UInt8) (h : head.length = headerSize)
    (hmax : max < lengthOf head) : unframe max (head ++ body) = ⟨[], head ++ body, some (lengthOf head)⟩ := by
  rw [unframe_of_header body h, if_pos hmax]

theorem unframe_of_missing {max : Nat} {head body : List UInt8} (h : head.length = headerSize)
    (hmax : lengthOf head ≤ max) (hbody : body.length < lengthOf head) :
    unframe max (head ++ body) = ⟨[], head ++ body, none⟩ := by
  rw [unframe_of_header body h, if_neg (Nat.not_lt.2 hmax), if_pos hbody]

theorem unframe_frame_append {max : Nat} {payload : Payload} (rest : List UInt8) (h : Fits max payload) :
    unframe max (frame payload ++ rest) =
      { unframe max rest with payloads := payload :: (unframe max rest).payloads } := by
  have hlength : lengthOf (header payload.length) = payload.length := lengthOf_header h.2
  have henough : ¬ (payload ++ rest).length < payload.length := by rw [List.length_append]; omega
  rw [frame, List.append_assoc, unframe_of_header _ (length_header _), hlength, if_neg (Nat.not_lt.2 h.1),
    if_neg henough, List.take_left, List.drop_left]

/-! ## Whole streams -/

/-- **Frames in front of a stream are cut off first**, in order. -/
theorem unframe_frames_append {max : Nat} {payloads : List Payload} (rest : List UInt8)
    (h : ∀ payload ∈ payloads, Fits max payload) :
    unframe max (frames payloads ++ rest) =
      { unframe max rest with payloads := payloads ++ (unframe max rest).payloads } := by
  induction payloads with
  | nil => rfl
  | cons payload payloads ih =>
    have hhead : Fits max payload := h payload List.mem_cons_self
    have htail : ∀ q ∈ payloads, Fits max q := fun q hq => h q (List.mem_cons_of_mem _ hq)
    rw [frames_cons, List.append_assoc, unframe_frame_append _ hhead, ih htail, List.cons_append]

theorem unframe_frames {max : Nat} {payloads : List Payload} (h : ∀ payload ∈ payloads, Fits max payload) :
    unframe max (frames payloads) = ⟨payloads, [], none⟩ := by
  have hnil : unframe max [] = ⟨[], [], none⟩ := unframe_of_short (by decide)
  have hcut := unframe_frames_append [] h
  rwa [List.append_nil, hnil, List.append_nil] at hcut

/-- **Streams from the front**: a stream ends within a header, or begins with a header that is oversized, with one whose
payload is not complete, or with a whole frame. -/
@[elab_as_elim]
theorem stream_induction (max : Nat) {motive : List UInt8 → Prop}
    (short : ∀ stream, stream.length < headerSize → motive stream)
    (oversized : ∀ head body, head.length = headerSize → max < lengthOf head → motive (head ++ body))
    (missing : ∀ head body, head.length = headerSize → lengthOf head ≤ max → body.length < lengthOf head →
      motive (head ++ body))
    (whole : ∀ payload rest, Fits max payload → motive rest → motive (frame payload ++ rest)) (stream : List UInt8) :
    motive stream := by
  induction hn : stream.length using Nat.strongRecOn generalizing stream with
  | _ n ih =>
  by_cases hshort : stream.length < headerSize
  · exact short stream hshort
  obtain ⟨head, body, rfl, hhead⟩ : ∃ head body, stream = head ++ body ∧ head.length = headerSize :=
    ⟨stream.take headerSize, stream.drop headerSize, (List.take_append_drop _ _).symm,
      List.length_take_of_le (Nat.not_lt.1 hshort)⟩
  by_cases hmax : max < lengthOf head
  · exact oversized head body hhead hmax
  by_cases hbody : body.length < lengthOf head
  · exact missing head body hhead (Nat.not_lt.1 hmax) hbody
  have hlength : (body.take (lengthOf head)).length = lengthOf head := List.length_take_of_le (Nat.not_lt.1 hbody)
  have hframe : head ++ body = frame (body.take (lengthOf head)) ++ body.drop (lengthOf head) := by
    rw [frame, hlength, header_lengthOf hhead, List.append_assoc, List.take_append_drop]
  have hfits : Fits max (body.take (lengthOf head)) := by
    rw [Fits, hlength]
    exact ⟨Nat.not_lt.1 hmax, lengthOf_lt_lengthLimit hhead⟩
  have hless : (body.drop (lengthOf head)).length < n := by
    rw [← hn, List.length_append, hhead, List.length_drop, headerSize]
    omega
  rw [hframe]
  exact whole _ _ hfits (ih _ hless _ rfl)

/-- **Nothing is lost**: the frames that were cut off, followed by the rest, are the stream. -/
theorem frames_unframe (max : Nat) (stream : List UInt8) :
    frames (unframe max stream).payloads ++ (unframe max stream).rest = stream := by
  induction stream using stream_induction max with
  | short stream h => rw [unframe_of_short h]; rfl
  | oversized head body h hmax => rw [unframe_of_oversized body h hmax]; rfl
  | missing head body h hmax hbody => rw [unframe_of_missing h hmax hbody]; rfl
  | whole payload rest hfits ih =>
    rw [unframe_frame_append rest hfits]
    simp only [frames_cons, List.append_assoc, ih]

theorem fits_of_mem_unframe (max : Nat) (stream : List UInt8) : ∀ p ∈ (unframe max stream).payloads, Fits max p := by
  induction stream using stream_induction max with
  | short stream h => rw [unframe_of_short h]; exact fun p hp => absurd hp List.not_mem_nil
  | oversized head body h hmax =>
    rw [unframe_of_oversized body h hmax]; exact fun p hp => absurd hp List.not_mem_nil
  | missing head body h hmax hbody =>
    rw [unframe_of_missing h hmax hbody]; exact fun p hp => absurd hp List.not_mem_nil
  | whole payload rest hfits ih =>
    rw [unframe_frame_append rest hfits]
    exact List.forall_mem_cons.2 ⟨hfits, ih⟩

theorem unframe_rest (max : Nat) (stream : List UInt8) :
    unframe max (unframe max stream).rest = ⟨[], (unframe max stream).rest, (unframe max stream).oversized⟩ := by
  induction stream using stream_induction max with
  | short stream h => rw [unframe_of_short h]; exact unframe_of_short h
  | oversized head body h hmax => rw [unframe_of_oversized body h hmax]; exact unframe_of_oversized body h hmax
  | missing head body h hmax hbody => rw [unframe_of_missing h hmax hbody]; exact unframe_of_missing h hmax hbody
  | whole payload rest hfits ih => rw [unframe_frame_append rest hfits]; exact ih

theorem rest_of_oversized {max : Nat} {stream : List UInt8} {length : Nat}
    (h : (unframe max stream).oversized = some length) :
    ∃ head body, (unframe max stream).rest = head ++ body ∧ head.length = headerSize ∧ lengthOf head = length ∧
      max < length := by
  induction stream using stream_induction max with
  | short stream hshort => rw [unframe_of_short hshort] at h; cases h
  | oversized head body hhead hmax =>
    rw [unframe_of_oversized body hhead hmax] at h ⊢
    cases h
    exact ⟨head, body, rfl, hhead, rfl, hmax⟩
  | missing head body hhead hmax hbody => rw [unframe_of_missing hhead hmax hbody] at h; cases h
  | whole payload rest hfits ih =>
    rw [unframe_frame_append rest hfits] at h ⊢
    exact ih h

/-! ## Longer streams -/

/-- **A longer stream** is cut like its front, and then like the rest of that front with the bytes behind it. -/
theorem unframe_append (max : Nat) (front back : List UInt8) :
    unframe max (front ++ back) =
      { unframe max ((unframe max front).rest ++ back) with
        payloads := (unframe max front).payloads ++ (unframe max ((unframe max front).rest ++ back)).payloads } := by
  conv => lhs; rw [← frames_unframe max front, List.append_assoc]
  exact unframe_frames_append _ (fits_of_mem_unframe max front)

theorem unframe_append_of_oversized {max : Nat} {front : List UInt8} {length : Nat} (back : List UInt8)
    (h : (unframe max front).oversized = some length) :
    unframe max (front ++ back) = { unframe max front with rest := (unframe max front).rest ++ back } := by
  induction front using stream_induction max with
  | short stream hshort => rw [unframe_of_short hshort] at h; cases h
  | oversized head body hhead hmax =>
    rw [unframe_of_oversized body hhead hmax, List.append_assoc, unframe_of_oversized _ hhead hmax]
  | missing head body hhead hmax hbody => rw [unframe_of_missing hhead hmax hbody] at h; cases h
  | whole payload rest hfits ih =>
    rw [unframe_frame_append rest hfits] at h ⊢
    rw [List.append_assoc, unframe_frame_append _ hfits, ih h]

theorem oversized_front {max : Nat} {front back : List UInt8} (h : (unframe max (front ++ back)).oversized = none) :
    (unframe max front).oversized = none := by
  cases hfront : (unframe max front).oversized with
  | none => rfl
  | some length =>
    rw [unframe_append_of_oversized back hfront, hfront] at h
    cases h

/-- **When an oversized header shows**: a front of the stream that is cut off anywhere is oversized as soon as the fourth
byte of that header is in it, and not before. -/
theorem oversized_of_append {max : Nat} {front back : List UInt8} {length : Nat}
    (h : (unframe max (front ++ back)).oversized = some length) :
    (unframe max front).oversized =
      if front.length < (frames (unframe max (front ++ back)).payloads).length + headerSize then none
      else some length := by
  cases hfront : (unframe max front).oversized with
  | some other =>
    have hsame := unframe_append_of_oversized back hfront
    obtain ⟨head, body, hrest, hhead, -, -⟩ := rest_of_oversized hfront
    have hlength : other = length := by rw [hsame, hfront] at h; exact Option.some.inj h
    have hlong := congrArg List.length (frames_unframe max front)
    rw [List.length_append, hrest, List.length_append, hhead] at hlong
    rw [hsame, if_neg (by simp only; omega), hlength]
  | none =>
    refine (if_pos (Nat.lt_of_not_le fun hle => ?_)).symm
    -- Otherwise the front holds all frames and the whole header behind them, and so is oversized itself.
    obtain ⟨head, body, hrest, hhead, rfl, hmax⟩ := rest_of_oversized h
    have hwhole := frames_unframe max (front ++ back)
    rw [hrest, ← List.append_assoc] at hwhole
    have hpre : frames (unframe max (front ++ back)).payloads ++ head <+: front := by
      refine List.prefix_of_prefix_length_le ⟨body, hwhole⟩ (List.prefix_append front back) ?_
      rw [List.length_append, hhead]
      exact hle
    obtain ⟨more, hmore⟩ := hpre
    rw [← hmore, List.append_assoc, unframe_frames_append _ (fits_of_mem_unframe max _),
      unframe_of_oversized more hhead hmax] at hfront
    cases hfront

end FramedLink
