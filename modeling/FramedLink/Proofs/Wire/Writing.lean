import FramedLink.Proofs.Wire.Filling
/-!
# Everything that an encoder writes

An encoder is bound to buffers, one after the other, and told to start frames in them, to go on with the frame it holds,
or to drop that frame; in any order, also a wrong one.  `Desk` is an encoder in such use.  A call that is refused does
nothing, and any other does with one frame what `Binding.Writes` says: the front of what is unsent of it goes into the
room there is, and the rest is held.  So no byte is lost between two buffers, wherever the boundary falls.

Main statement: what was written since the encoder was new or reset, and then what it holds, is the frames of the
payloads that it took, and each call keeps to its contract (`Desk.writes_what_it_takes`).
-/
namespace FramedLink

theorem Sends.length_bytes_le {unsent : List UInt8} {room payloadLen : Nat} {emission : Emission}
    (h : Sends unsent room payloadLen emission) : emission.bytes.length ≤ room := by
  rw [h.bytes]
  exact List.length_take_le _ _

/-- Whether all of a frame fits is what the encoder answers. -/
theorem Sends.complete_eq {unsent : List UInt8} {room payloadLen : Nat} {emission : Emission}
    (h : Sends unsent room payloadLen emission) : emission.complete = decide (unsent.length ≤ room) := by
  cases h with
  | whole fits => exact (decide_eq_true fits).symm
  | front long => exact (decide_eq_false (Nat.not_le.2 long)).symm

/-- Only an encoder that holds nothing takes a payload. -/
theorem Encoder.sends_of_offer {encoder : Encoder} {room : Nat} {payload : Payload} {emission : Emission}
    (h : encoder.offer room payload = .ok emission) :
    encoder = .fresh ∧ Sends (frame payload) room payload.length emission := by
  have hfree : encoder.isHolding = false := by
    cases hholding : encoder.isHolding with
    | false => rfl
    | true =>
      rw [offer, hholding, if_pos rfl] at h
      cases h
  have hpayload : payload.length < lengthLimit := by
    refine Nat.lt_of_not_le fun hlong => ?_
    rw [offer, hfree, if_neg Bool.false_ne_true, if_pos hlong] at h
    cases h
  obtain ⟨_, hoffer, hsends⟩ := offer_sends room hpayload
  rw [eq_fresh hfree, hoffer] at h
  cases h
  exact ⟨eq_fresh hfree, hsends⟩

theorem Encoder.sends_of_resume {encoder : Encoder} {room : Nat} {emission : Emission}
    (h : encoder.resume room = .ok emission) : ∃ payloadLen, Sends encoder.unsent room payloadLen emission := by
  obtain ⟨held?⟩ := encoder
  cases held? with
  | none => cases h
  | some held =>
    obtain ⟨_, hresume, hsends⟩ := resume_sends room held
    rw [hresume] at h
    cases h
    exact ⟨held.payloadLen, hsends⟩

theorem Encoder.bindTo_of_inside (encoder : Encoder) {buffer : List UInt8} {offset : Nat} (h : offset ≤ buffer.length) :
    encoder.bindTo buffer offset = .ok ⟨encoder, buffer, offset, offset⟩ := by
  rw [bindTo, if_neg (Nat.not_lt.2 h)]

theorem Encoder.bindTo_of_beyond (encoder : Encoder) {buffer : List UInt8} {offset : Nat} (h : buffer.length < offset) :
    encoder.bindTo buffer offset = .error (.offsetOutOfBounds offset buffer.length) := by
  rw [bindTo, if_pos h]

/-! ## One call of a binding -/

namespace Binding

/-- What a later moment of a binding has in common with an earlier one: all but the encoder and the bytes between the
two cursors. -/
structure Extends (later first : Binding) : Prop where
  offset : later.offset = first.offset
  cursor : first.cursor ≤ later.cursor
  size : later.buffer.length = first.buffer.length
  front : later.buffer.take first.cursor = first.buffer.take first.cursor
  back : later.buffer.drop later.cursor = first.buffer.drop later.cursor

theorem Extends.refl (binding : Binding) : binding.Extends binding := ⟨rfl, Nat.le_refl _, rfl, rfl, rfl⟩

theorem Extends.trans {last later first : Binding} (hlast : last.Extends later) (h : later.Extends first) :
    last.Extends first := by
  refine ⟨hlast.offset.trans h.offset, Nat.le_trans h.cursor hlast.cursor, hlast.size.trans h.size, ?_, ?_⟩
  · have hfront := congrArg (List.take first.cursor) hlast.front
    rw [List.take_take, List.take_take, Nat.min_eq_left h.cursor] at hfront
    exact hfront.trans h.front
  · have hback := congrArg (List.drop (last.cursor - later.cursor)) h.back
    rw [List.drop_drop, List.drop_drop, Nat.add_sub_cancel' hlast.cursor] at hback
    exact hlast.back.trans hback

theorem accept_extends {binding : Binding} {emission : Emission} (h : binding.InBounds)
    (hroom : emission.bytes.length ≤ binding.room) : (binding.accept emission).Extends binding := by
  refine ⟨rfl, Nat.le_add_right _ _, length_overwrite (h.cursor_add_le hroom), take_overwrite _ h.2, ?_⟩
  simp only [accept]
  rw [← List.drop_drop, drop_overwrite _ h.2, List.drop_left]

/-- What a call that is not refused does with a frame of which `unsent` is still to be written.  If not all of it fits,
the buffer is full then. -/
structure Writes (binding : Binding) (unsent : List UInt8) (next : Binding) (complete : Bool) : Prop where
  written : next.writtenBytes = binding.writtenBytes ++ unsent.take binding.room
  left : next.encoder.unsent = unsent.drop binding.room
  fits : complete = decide (unsent.length ≤ binding.room)
  full : binding.room < unsent.length → next.cursor = next.buffer.length
  extended : next.Extends binding
  inBounds : next.InBounds

theorem writes_of_sends {binding : Binding} {unsent : List UInt8} {payloadLen : Nat} {emission : Emission}
    (hbounds : binding.InBounds) (h : Sends unsent binding.room payloadLen emission) :
    binding.Writes unsent (binding.accept emission) emission.complete := by
  have hroom := h.length_bytes_le
  have hnext := inBounds_accept hbounds hroom
  refine { written := ?_, left := h.unsent_encoder, fits := h.complete_eq, full := fun hlong => ?_,
           extended := accept_extends hbounds hroom, inBounds := hnext }
  · rw [writtenBytes_accept hbounds, h.bytes]
  · have hleft := room_accept hbounds hroom
    rw [h.bytes, List.length_take_of_le (Nat.le_of_lt hlong), Nat.sub_self] at hleft
    exact Nat.le_antisymm hnext.2 (Nat.sub_eq_zero_iff_le.1 hleft)

/-- A call that could not write all of its frame leaves the buffer full and the rest of the frame held. -/
theorem Writes.stopped {binding next : Binding} {unsent : List UInt8} (h : binding.Writes unsent next false) :
    next.cursor = next.buffer.length ∧ next.encoder.isHolding = true ∧ 1 ≤ next.encoder.heldRemaining := by
  have hlong : binding.room < unsent.length := Nat.not_le.1 (of_decide_eq_false h.fits.symm)
  have hremaining : 1 ≤ next.encoder.heldRemaining := by
    rw [← Encoder.length_unsent, h.left, List.length_drop]
    omega
  refine ⟨h.full hlong, ?_, hremaining⟩
  cases hholding : next.encoder.isHolding with
  | true => rfl
  | false =>
    rw [Encoder.eq_fresh hholding] at hremaining
    cases hremaining

theorem ok_of_map {binding next : Binding} {result : Except EncoderError Emission} {complete : Bool}
    (h : (result.map fun emission => (binding.accept emission, emission.complete)) = .ok (next, complete)) :
    ∃ emission, result = .ok emission ∧ next = binding.accept emission ∧ complete = emission.complete := by
  cases result with
  | error e => cases h
  | ok emission =>
    cases h
    exact ⟨emission, rfl, rfl, rfl⟩

/-- **Starting a frame** in a buffer. -/
theorem writes_of_process {binding next : Binding} {payload : Payload} {complete : Bool} (hbounds : binding.InBounds)
    (h : binding.process payload = .ok (next, complete)) :
    binding.encoder = .fresh ∧ binding.Writes (frame payload) next complete := by
  obtain ⟨emission, hoffer, rfl, rfl⟩ := ok_of_map h
  obtain ⟨hfresh, hsends⟩ := Encoder.sends_of_offer hoffer
  exact ⟨hfresh, writes_of_sends hbounds hsends⟩

/-- **Going on with the held frame** in a buffer. -/
theorem writes_of_flush {binding next : Binding} {complete : Bool} (hbounds : binding.InBounds)
    (h : binding.flush = .ok (next, complete)) : binding.Writes binding.encoder.unsent next complete := by
  obtain ⟨emission, hresume, rfl, rfl⟩ := ok_of_map h
  obtain ⟨payloadLen, hsends⟩ := Encoder.sends_of_resume hresume
  exact writes_of_sends hbounds hsends

theorem process_of_holding {binding : Binding} (payload : Payload) (h : binding.encoder.isHolding = true) :
    binding.process payload = .error .alreadyHolding := by
  simp [process, Encoder.offer, h, Except.map]

theorem process_of_free {binding : Binding} {payload : Payload} (h : binding.encoder.isHolding = false)
    (hpayload : payload.length < lengthLimit) :
    ∃ next, binding.process payload = .ok (next, decide (headerSize + payload.length ≤ binding.room)) := by
  obtain ⟨emission, hoffer, hsends⟩ := Encoder.offer_sends binding.room hpayload
  refine ⟨binding.accept emission, ?_⟩
  rw [process, Encoder.eq_fresh h, hoffer, ← length_frame, ← hsends.complete_eq]
  rfl

theorem flush_of_free {binding : Binding} (h : binding.encoder.isHolding = false) :
    binding.flush = .error .nothingPending := by
  rw [flush, Encoder.eq_fresh h]
  rfl

theorem flush_of_holding {binding : Binding} (h : binding.encoder.isHolding = true) :
    ∃ next, binding.flush = .ok (next, decide (binding.encoder.heldRemaining ≤ binding.room)) := by
  obtain ⟨held, hheld⟩ := Option.isSome_iff_exists.1 h
  have hencoder : binding.encoder = ⟨some held⟩ := by rw [← hheld]
  obtain ⟨emission, hresume, hsends⟩ := Encoder.resume_sends binding.room held
  refine ⟨binding.accept emission, ?_⟩
  rw [flush, ← Encoder.length_unsent, hencoder, hresume, Except.map, hsends.complete_eq]
  rfl

end Binding

/-! ## An encoder in use -/

inductive EncoderCall where
  | bind (buffer : List UInt8) (offset : Nat)
  | process (payload : Payload)
  | flush
  | reset
deriving DecidableEq

/-- Calls of the encoder itself, which can be made only when nobody writes to a buffer any more. -/
def EncoderCall.endsBinding : EncoderCall → Bool
  | bind _ _ | reset => true
  | process _ | flush => false

inductive EncoderAnswer where
  | ready
  | wrote (complete : Bool)
  | refused (e : EncoderError)
  | noBuffer
deriving DecidableEq

/-- An encoder in use: alone, or bound to a buffer. -/
inductive Desk where
  | alone (encoder : Encoder)
  | bound (binding : Binding)
deriving DecidableEq

namespace Desk

def new : Desk := .alone .fresh

def encoder : Desk → Encoder
  | alone encoder => encoder
  | bound binding => binding.encoder

/-- What has been written to the buffer that is bound now. -/
def window : Desk → List UInt8
  | alone _ => []
  | bound binding => binding.writtenBytes

@[simp] theorem encoder_alone (encoder : Encoder) : (alone encoder).encoder = encoder := rfl

@[simp] theorem encoder_bound (binding : Binding) : (bound binding).encoder = binding.encoder := rfl

@[simp] theorem window_alone (encoder : Encoder) : (alone encoder).window = [] := rfl

@[simp] theorem window_bound (binding : Binding) : (bound binding).window = binding.writtenBytes := rfl

/-- Works on the buffer.  Work that is refused has touched nothing. -/
def write (desk : Desk) (work : Binding → Except EncoderError (Binding × Bool)) : Desk × EncoderAnswer :=
  match desk with
  | alone _ => (desk, .noBuffer)
  | bound binding =>
    match work binding with
    | .ok (next, complete) => (.bound next, .wrote complete)
    | .error e => (desk, .refused e)

/-- One call, and its answer. -/
def use (desk : Desk) : EncoderCall → Desk × EncoderAnswer
  | .bind buffer offset =>
    match desk.encoder.bindTo buffer offset with
    | .ok binding => (.bound binding, .ready)
    | .error e => (.alone desk.encoder, .refused e)
  | .process payload => desk.write (·.process payload)
  | .flush => desk.write Binding.flush
  | .reset => (.alone desk.encoder.reset, .ready)

def call (desk : Desk) (call : EncoderCall) : Desk := (desk.use call).1

def after (desk : Desk) (calls : List EncoderCall) : Desk := calls.foldl call desk

/-- The window that a call closes, if it does. -/
def closes (desk : Desk) (call : EncoderCall) : List (List UInt8) := if call.endsBinding then [desk.window] else []

/-- What was written to each of the buffers that were bound, in order. -/
def windows (desk : Desk) : List EncoderCall → List (List UInt8)
  | [] => [desk.window]
  | call :: calls => desk.closes call ++ (desk.call call).windows calls

/-- The payload that a call brings, if the encoder takes it. -/
def takes (desk : Desk) (call : EncoderCall) : List Payload :=
  match call, (desk.use call).2 with
  | .process payload, .wrote _ => [payload]
  | _, _ => []

/-- The payloads that calls bring and the encoder takes. -/
def taken (desk : Desk) : List EncoderCall → List Payload
  | [] => []
  | call :: calls => desk.takes call ++ (desk.call call).taken calls

def InBounds : Desk → Prop
  | alone _ => True
  | bound binding => binding.InBounds

theorem use_bind (desk : Desk) (buffer : List UInt8) (offset : Nat) :
    desk.use (.bind buffer offset) =
      if buffer.length < offset then (.alone desk.encoder, .refused (.offsetOutOfBounds offset buffer.length))
      else (.bound ⟨desk.encoder, buffer, offset, offset⟩, .ready) := by
  rcases Nat.lt_or_ge buffer.length offset with hbeyond | hinside
  · rw [use, Encoder.bindTo_of_beyond _ hbeyond, if_pos hbeyond]
  · rw [use, Encoder.bindTo_of_inside _ hinside, if_neg (Nat.not_lt.2 hinside)]

theorem use_eq_write {call : EncoderCall} (h : call.endsBinding = false) (desk : Desk) :
    ∃ work, desk.use call = desk.write work := by
  cases call with
  | process payload => exact ⟨(·.process payload), rfl⟩
  | flush => exact ⟨Binding.flush, rfl⟩
  | bind buffer offset => cases h
  | reset => cases h

/-- A call that writes nothing changes nothing, unless it is one of the encoder itself. -/
theorem call_of_not_wrote {desk : Desk} {call : EncoderCall} (hcall : call.endsBinding = false)
    (h : ∀ complete, (desk.use call).2 ≠ .wrote complete) : desk.call call = desk := by
  obtain ⟨work, huse⟩ := use_eq_write hcall desk
  rw [huse] at h
  rw [Desk.call, huse]
  cases desk with
  | alone encoder => rfl
  | bound binding =>
    cases hwork : work binding with
    | error e => simp [write, hwork]
    | ok written => exact absurd (by simp [write, hwork]) (h written.2)

theorem takes_of_not_wrote {desk : Desk} {call : EncoderCall} (h : ∀ complete, (desk.use call).2 ≠ .wrote complete) :
    desk.takes call = [] := by
  unfold takes
  split
  · exact absurd ‹_› (h _)
  · rfl

theorem ok_of_wrote {desk : Desk} {work : Binding → Except EncoderError (Binding × Bool)} {complete : Bool}
    (h : (desk.write work).2 = .wrote complete) :
    ∃ binding next, desk = bound binding ∧ work binding = .ok (next, complete) ∧ (desk.write work).1 = bound next := by
  cases desk with
  | alone encoder => cases h
  | bound binding =>
    cases hwork : work binding with
    | error e => simp [write, hwork] at h
    | ok written =>
      obtain ⟨next, complete'⟩ := written
      obtain rfl : complete' = complete := by simpa [write, hwork] using h
      exact ⟨binding, next, rfl, hwork, by simp [write, hwork]⟩

/-- **A call that writes** goes on with what was held, and then with the frame of what it takes. -/
theorem writes_of_wrote {desk : Desk} {call : EncoderCall} {complete : Bool} (h : desk.InBounds)
    (hanswer : (desk.use call).2 = .wrote complete) :
    ∃ binding next, desk = bound binding ∧ desk.call call = bound next ∧
      binding.Writes (binding.encoder.unsent ++ frames (desk.takes call)) next complete := by
  cases call with
  | bind buffer offset =>
    rw [use_bind] at hanswer
    split at hanswer <;> cases hanswer
  | process payload =>
    obtain ⟨binding, next, rfl, hok, hnext⟩ := ok_of_wrote hanswer
    obtain ⟨hfresh, hwrites⟩ := Binding.writes_of_process h hok
    have htakes : (bound binding).takes (.process payload) = [payload] := by simp [takes, hanswer]
    have hunsent : binding.encoder.unsent = [] := by rw [hfresh]; rfl
    exact ⟨binding, next, rfl, hnext, by simpa [htakes, hunsent] using hwrites⟩
  | flush =>
    obtain ⟨binding, next, rfl, hok, hnext⟩ := ok_of_wrote hanswer
    have htakes : (bound binding).takes .flush = [] := rfl
    exact ⟨binding, next, rfl, hnext, by simpa [htakes] using Binding.writes_of_flush h hok⟩
  | reset => cases hanswer

/-- A call that keeps the buffer bound changes nothing, or it writes. -/
theorem InBounds.cases {desk : Desk} {call : EncoderCall} (h : desk.InBounds) (hcall : call.endsBinding = false) :
    (desk.call call = desk ∧ desk.takes call = []) ∨
      ∃ binding next complete, desk = bound binding ∧ desk.call call = bound next ∧
        binding.Writes (binding.encoder.unsent ++ frames (desk.takes call)) next complete := by
  by_cases hwrote : ∃ complete, (desk.use call).2 = .wrote complete
  · obtain ⟨complete, hanswer⟩ := hwrote
    obtain ⟨binding, next, hdesk, hnext, hwrites⟩ := writes_of_wrote h hanswer
    exact .inr ⟨binding, next, complete, hdesk, hnext, hwrites⟩
  · rw [not_exists] at hwrote
    exact .inl ⟨call_of_not_wrote hcall hwrote, takes_of_not_wrote hwrote⟩

/-- What one call does to what has been written and what is held: only a payload that is taken adds to it. -/
structure Step (desk : Desk) (call : EncoderCall) : Prop where
  inBounds : (desk.call call).InBounds
  kept : call ≠ .reset →
    (desk.closes call).flatten ++ ((desk.call call).window ++ (desk.call call).encoder.unsent) =
      desk.window ++ desk.encoder.unsent ++ frames (desk.takes call)

theorem step_bind (desk : Desk) (buffer : List UInt8) (offset : Nat) : desk.Step (.bind buffer offset) := by
  have huse := desk.use_bind buffer offset
  by_cases hbeyond : buffer.length < offset
  · rw [if_pos hbeyond] at huse
    refine ⟨by simp [Desk.call, huse, InBounds], fun _ => ?_⟩
    simp [Desk.call, huse, closes, EncoderCall.endsBinding, takes]
  · rw [if_neg hbeyond] at huse
    refine ⟨?_, fun _ => ?_⟩
    · rw [Desk.call, huse]
      exact ⟨Nat.le_refl _, Nat.not_lt.1 hbeyond⟩
    · simp [Desk.call, huse, closes, EncoderCall.endsBinding, takes, Binding.writtenBytes]

theorem step_write {desk : Desk} {call : EncoderCall} (h : desk.InBounds) (hcall : call.endsBinding = false) :
    desk.Step call := by
  have hcloses : desk.closes call = [] := by simp [closes, hcall]
  rcases h.cases hcall with ⟨hsame, htakes⟩ | ⟨binding, next, complete, hdesk, hnext, hwrites⟩
  · refine ⟨by rwa [hsame], fun _ => ?_⟩
    simp [hcloses, hsame, htakes]
  · refine ⟨by rw [hnext]; exact hwrites.inBounds, fun _ => ?_⟩
    rw [hcloses, hnext, List.flatten_nil, List.nil_append, window_bound, encoder_bound, hwrites.written, hwrites.left,
      List.append_assoc, List.take_append_drop, hdesk, window_bound, encoder_bound, List.append_assoc]

/-- **One call of an encoder**, also one that is refused. -/
theorem InBounds.step {desk : Desk} (h : desk.InBounds) (call : EncoderCall) : desk.Step call := by
  cases call with
  | bind buffer offset => exact desk.step_bind buffer offset
  | process payload => exact step_write h rfl
  | flush => exact step_write h rfl
  | reset => exact ⟨trivial, fun hne => absurd rfl hne⟩

theorem InBounds.after : ∀ (calls : List EncoderCall) {desk : Desk}, desk.InBounds → (desk.after calls).InBounds
  | [], _, h => h
  | call :: calls, _, h => InBounds.after calls (h.step call).inBounds

/-- **Any calls** but a reset: what they write and leave held is what was held, and then the frames of what is taken. -/
theorem InBounds.kept : ∀ (calls : List EncoderCall) {desk : Desk}, desk.InBounds → .reset ∉ calls →
    (desk.windows calls).flatten ++ (desk.after calls).encoder.unsent =
      desk.window ++ desk.encoder.unsent ++ frames (desk.taken calls)
  | [], desk, _, _ => by simp [windows, taken, Desk.after]
  | call :: calls, desk, h, hcalls => by
    rw [List.mem_cons, not_or] at hcalls
    have hstep := h.step call
    have hlater := InBounds.kept calls hstep.inBounds hcalls.2
    calc (desk.windows (call :: calls)).flatten ++ (desk.after (call :: calls)).encoder.unsent
        = (desk.closes call).flatten ++
            (((desk.call call).windows calls).flatten ++ ((desk.call call).after calls).encoder.unsent) := by
          rw [windows, List.flatten_append, List.append_assoc]
          rfl
      _ = (desk.closes call).flatten ++ ((desk.call call).window ++ (desk.call call).encoder.unsent) ++
            frames ((desk.call call).taken calls) := by simp only [hlater, List.append_assoc]
      _ = desk.window ++ desk.encoder.unsent ++ frames (desk.taken (call :: calls)) := by
          rw [hstep.kept (Ne.symm hcalls.1), taken, frames_append, List.append_assoc _ (frames (desk.takes call))]

/-! ## From reset to reset -/

theorem after_append (desk : Desk) (first second : List EncoderCall) :
    desk.after (first ++ second) = (desk.after first).after second := List.foldl_append

theorem windows_reset (later : List EncoderCall) : ∀ (calls : List EncoderCall) (desk : Desk),
    desk.windows (calls ++ .reset :: later) = desk.windows calls ++ new.windows later
  | [], _ => rfl
  | call :: calls, desk => by
    rw [List.cons_append, windows, windows_reset later calls, windows, List.append_assoc]

theorem taken_reset (later : List EncoderCall) : ∀ (calls : List EncoderCall) (desk : Desk),
    desk.taken (calls ++ .reset :: later) = desk.taken calls ++ new.taken later
  | [], _ => rfl
  | call :: calls, desk => by
    rw [List.cons_append, taken, taken_reset later calls, taken, List.append_assoc]

/-! ## What a caller may count on -/

/-- What every call of a desk keeps to.  A call that is refused leaves the encoder as it was, and a buffer that stays
bound too. -/
structure Contract (desk : Desk) : Prop where
  bind : ∀ buffer offset, (desk.use (.bind buffer offset)).2 =
    if buffer.length < offset then .refused (.offsetOutOfBounds offset buffer.length) else .ready
  process : ∀ binding payload, desk = bound binding → payload.length < lengthLimit →
    (desk.use (.process payload)).2 =
      if binding.encoder.isHolding then .refused .alreadyHolding
      else .wrote (headerSize + payload.length ≤ binding.room)
  flush : ∀ binding, desk = bound binding → (desk.use .flush).2 =
    if binding.encoder.isHolding then .wrote (binding.encoder.heldRemaining ≤ binding.room)
    else .refused .nothingPending
  refused : ∀ call e, (desk.use call).2 = .refused e →
    (desk.call call).encoder = desk.encoder ∧ (call.endsBinding = false → desk.call call = desk)
  stopped : ∀ call, (desk.use call).2 = .wrote false → ∃ next, desk.call call = bound next ∧
    next.cursor = next.buffer.length ∧ next.encoder.isHolding = true ∧ 1 ≤ next.encoder.heldRemaining
  reset : desk.call .reset = new
  outside : ∀ buffer offset calls, offset ≤ buffer.length → (∀ call ∈ calls, call.endsBinding = false) →
    ∃ binding, desk.after (.bind buffer offset :: calls) = bound binding ∧ binding.offset = offset ∧
      offset ≤ binding.cursor ∧ binding.cursor ≤ buffer.length ∧ binding.buffer.length = buffer.length ∧
      binding.buffer.take offset = buffer.take offset ∧
      binding.buffer.drop binding.cursor = buffer.drop binding.cursor

theorem use_process (binding : Binding) {payload : Payload} (hpayload : payload.length < lengthLimit) :
    ((bound binding).use (.process payload)).2 =
      if binding.encoder.isHolding then .refused .alreadyHolding
      else .wrote (headerSize + payload.length ≤ binding.room) := by
  cases hholding : binding.encoder.isHolding with
  | true => simp [use, write, Binding.process_of_holding payload hholding]
  | false =>
    obtain ⟨next, hprocess⟩ := Binding.process_of_free hholding hpayload
    simp [use, write, hprocess]

theorem use_flush (binding : Binding) :
    ((bound binding).use .flush).2 =
      if binding.encoder.isHolding then .wrote (binding.encoder.heldRemaining ≤ binding.room)
      else .refused .nothingPending := by
  cases hholding : binding.encoder.isHolding with
  | true =>
    obtain ⟨next, hflush⟩ := Binding.flush_of_holding hholding
    simp [use, write, hflush]
  | false => simp [use, write, Binding.flush_of_free hholding]

theorem call_of_refused {desk : Desk} {call : EncoderCall} {e : EncoderError} (h : (desk.use call).2 = .refused e) :
    (desk.call call).encoder = desk.encoder ∧ (call.endsBinding = false → desk.call call = desk) := by
  have hnot : ∀ complete, (desk.use call).2 ≠ .wrote complete := fun _ => by simp [h]
  refine ⟨?_, fun hcall => call_of_not_wrote hcall hnot⟩
  cases call with
  | bind buffer offset =>
    rw [Desk.call, use_bind]
    split <;> rfl
  | process payload => rw [call_of_not_wrote rfl hnot]
  | flush => rw [call_of_not_wrote rfl hnot]
  | reset => cases h

/-- While a buffer stays bound, it changes between the cursors only. -/
theorem extends_after : ∀ (calls : List EncoderCall) {binding : Binding}, binding.InBounds →
    (∀ call ∈ calls, call.endsBinding = false) →
    ∃ later, (bound binding).after calls = bound later ∧ later.Extends binding ∧ later.InBounds
  | [], binding, h, _ => ⟨binding, rfl, .refl binding, h⟩
  | call :: calls, binding, h, hcalls => by
    obtain ⟨hcall, hrest⟩ := List.forall_mem_cons.1 hcalls
    obtain ⟨next, hnext, hextends, hbounds⟩ :
        ∃ next, (bound binding).call call = bound next ∧ next.Extends binding ∧ next.InBounds := by
      have hdesk : (bound binding).InBounds := h
      rcases hdesk.cases hcall with ⟨hsame, -⟩ | ⟨_, next, complete, hbinding, hnext, hwrites⟩
      · exact ⟨binding, hsame, .refl binding, h⟩
      · cases hbinding
        exact ⟨next, hnext, hwrites.extended, hwrites.inBounds⟩
    obtain ⟨later, hlater, hmore, hin⟩ := extends_after calls hbounds hrest
    exact ⟨later, by rw [after, List.foldl_cons, hnext]; exact hlater, hmore.trans hextends, hin⟩

theorem InBounds.contract {desk : Desk} (h : desk.InBounds) : desk.Contract where
  bind buffer offset := by
    rw [use_bind]
    split <;> rfl
  process := by
    rintro binding payload rfl hpayload
    exact use_process binding hpayload
  flush := by
    rintro binding rfl
    exact use_flush binding
  refused _ _ := call_of_refused
  stopped call hanswer := by
    obtain ⟨binding, next, -, hnext, hwrites⟩ := writes_of_wrote h hanswer
    exact ⟨next, hnext, hwrites.stopped⟩
  reset := rfl
  outside buffer offset calls hoffset hcalls := by
    have hbind : desk.call (.bind buffer offset) = bound ⟨desk.encoder, buffer, offset, offset⟩ := by
      rw [Desk.call, use_bind, if_neg (Nat.not_lt.2 hoffset)]
    have hstart : Binding.InBounds ⟨desk.encoder, buffer, offset, offset⟩ := ⟨Nat.le_refl _, hoffset⟩
    obtain ⟨later, hlater, hextends, hbounds⟩ := extends_after calls hstart hcalls
    refine ⟨later, ?_, hextends.offset, hextends.cursor, ?_, hextends.size, hextends.front, hextends.back⟩
    · rw [Desk.after, List.foldl_cons, hbind]
      exact hlater
    · rw [← hextends.size]
      exact hbounds.2

/-- **What an encoder writes is what it takes**, whatever calls it gets and in whatever order.  Between two resets the
windows of all buffers, and then what is unsent of the held frame, are the frames of the payloads that were taken.  A
reset drops what was unsent and nothing else.  Every further call keeps to its contract. -/
theorem writes_what_it_takes (calls : List EncoderCall) :
    let desk := new.after calls
    (.reset ∉ calls → (new.windows calls).flatten ++ desk.encoder.unsent = frames (new.taken calls)) ∧
    desk.encoder.unsent.length = desk.encoder.heldRemaining ∧
    (∀ later,
      new.after (calls ++ .reset :: later) = new.after later ∧
      new.windows (calls ++ .reset :: later) = new.windows calls ++ new.windows later ∧
      new.taken (calls ++ .reset :: later) = new.taken calls ++ new.taken later) ∧
    desk.Contract := by
  intro desk
  have hnew : new.InBounds := trivial
  refine ⟨fun hcalls => ?_, desk.encoder.length_unsent, fun later => ⟨?_, ?_, ?_⟩, (hnew.after calls).contract⟩
  · have hkept := hnew.kept calls hcalls
    rwa [show new.window ++ new.encoder.unsent = [] from rfl, List.nil_append] at hkept
  · exact after_append new calls (.reset :: later)
  · exact windows_reset later calls new
  · exact taken_reset later calls new

/-- A frame is cut in its header, wrong calls in between do no harm, and the next buffer takes the rest. -/
example :
    new.windows [.bind [0, 0, 0] 1, .process [7], .process [8], .bind [0] 2, .bind [0, 0, 0, 0] 0, .flush, .flush]
      = [[], [1, 0], [], [0, 0, 7]] := by decide

end Desk
end FramedLink
