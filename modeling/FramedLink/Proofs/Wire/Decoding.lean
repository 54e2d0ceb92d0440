import FramedLink.Proofs.Wire.Grammar
import FramedLink.Wire.Decoder
/-!
# What a decoder makes of a stream

A decoder sees a stream chunk by chunk; `unframe` sees all of it at once.  Here is that the two agree: the stage of a
decoder is a function of the bytes that it was given since it was new or reset (`Unframed.stage`), so it cannot depend
on where they were cut into chunks, and each call answers what the grammar says of the bytes up to its end
(`feed_of_follows`).

Main statement: what the calls of a decoder emit, answer and count is read off the joined chunks
(`intakes_follow_grammar`).
-/
namespace FramedLink

/-- The stage of a decoder that has seen these bytes of a frame and waits for more of it. -/
def Stage.ofPartial (seen : List UInt8) : Stage :=
  if seen.length < headerSize then .header seen
  else .body (seen.drop headerSize).reverse (lengthOf (seen.take headerSize) + headerSize - seen.length)

/-- The stage of a decoder that was given a stream. -/
def Unframed.stage (unframed : Unframed) : Stage :=
  match unframed.oversized with
  | some _ => .poisoned
  | none => .ofPartial unframed.rest

/-- Bytes from the start of a frame that a decoder with this limit waits for more of. -/
def Incomplete (max : Nat) (seen : List UInt8) : Prop := unframe max seen = ⟨[], seen, none⟩

namespace Stage

theorem ofPartial_of_short {seen : List UInt8} (h : seen.length < headerSize) : ofPartial seen = .header seen :=
  if_pos h

theorem ofPartial_of_header {head : List UInt8} (body : List UInt8) (h : head.length = headerSize) :
    ofPartial (head ++ body) = .body body.reverse (lengthOf head - body.length) := by
  have hlong : ¬ (head ++ body).length < headerSize := by rw [List.length_append]; omega
  rw [ofPartial, if_neg hlong, List.length_append, ← h, List.take_left, List.drop_left, Nat.add_comm head.length,
    Nat.add_sub_add_right]

theorem buffered_ofPartial (seen : List UInt8) : (ofPartial seen).buffered = seen.length := by
  by_cases h : seen.length < headerSize
  · rw [ofPartial_of_short h, buffered]
  · simp only [ofPartial, if_neg h, buffered, List.length_reverse, List.length_drop]
    omega

theorem ofPartial_ne_poisoned (seen : List UInt8) : ofPartial seen ≠ .poisoned := by
  unfold ofPartial
  split <;> exact Stage.noConfusion

end Stage

theorem incomplete_of_short {max : Nat} {seen : List UInt8} (h : seen.length < headerSize) : Incomplete max seen :=
  unframe_of_short h

theorem incomplete_of_missing {max : Nat} {head body : List UInt8} (h : head.length = headerSize)
    (hmax : lengthOf head ≤ max) (hbody : body.length < lengthOf head) : Incomplete max (head ++ body) :=
  unframe_of_missing h hmax hbody

theorem Incomplete.cases {max : Nat} {seen : List UInt8} (h : Incomplete max seen) :
    seen.length < headerSize ∨
      ∃ head body, seen = head ++ body ∧ head.length = headerSize ∧ lengthOf head ≤ max ∧
        body.length < lengthOf head := by
  induction seen using stream_induction max with
  | short seen hshort => exact .inl hshort
  | oversized head body hhead hmax =>
    rw [Incomplete, unframe_of_oversized body hhead hmax] at h
    cases h
  | missing head body hhead hmax hbody => exact .inr ⟨head, body, rfl, hhead, hmax, hbody⟩
  | whole payload rest hfits ih =>
    rw [Incomplete, unframe_frame_append rest hfits] at h
    cases congrArg Unframed.payloads h

/-! ## One round -/

/-- What a round may do with a chunk that a decoder with incomplete bytes is given: it takes some bytes from the front
and waits for more, completes a frame, or finds a header above the limit. -/
inductive RoundOf (max : Nat) (seen chunk : List UInt8) : Except DecoderError Round → Prop
  | waits {taken rest} (cut : chunk = taken ++ rest) (some : taken ≠ []) (incomplete : Incomplete max (seen ++ taken)) :
    RoundOf max seen chunk (.ok ⟨.ofPartial (seen ++ taken), rest, none⟩)
  | completes {taken rest payload} (cut : chunk = taken ++ rest) (some : taken ≠ [])
    (whole : seen ++ taken = frame payload) (fits : Fits max payload) :
    RoundOf max seen chunk (.ok ⟨.start, rest, .some payload⟩)
  | refuses {taken rest} (cut : chunk = taken ++ rest) (header : (seen ++ taken).length = headerSize)
    (above : max < lengthOf (seen ++ taken)) :
    RoundOf max seen chunk (.error (.messageTooLong (lengthOf (seen ++ taken)) max))

theorem round_header {max : Nat} {seen chunk : List UInt8} (hseen : seen.length < headerSize) (hchunk : chunk ≠ []) :
    RoundOf max seen chunk (Decoder.round max (.header seen) chunk) := by
  have hcut : chunk = chunk.take (headerSize - seen.length) ++ chunk.drop (headerSize - seen.length) :=
    (List.take_append_drop _ _).symm
  have hpos : 0 < chunk.length := List.length_pos_iff.2 hchunk
  have hsome : chunk.take (headerSize - seen.length) ≠ [] := by
    rw [← List.length_pos_iff, List.length_take]
    omega
  simp only [Decoder.round]
  by_cases hshort : (seen ++ chunk.take (headerSize - seen.length)).length < headerSize
  · rw [if_pos hshort, ← Stage.ofPartial_of_short hshort]
    exact .waits hcut hsome (incomplete_of_short hshort)
  rw [if_neg hshort]
  have hhead : (seen ++ chunk.take (headerSize - seen.length)).length = headerSize := by
    rw [List.length_append, List.length_take] at hshort ⊢
    omega
  simp only [Decoder.openFrame]
  by_cases habove : max < lengthOf (seen ++ chunk.take (headerSize - seen.length))
  · rw [if_pos habove]
    exact .refuses hcut hhead habove
  rw [if_neg habove]
  by_cases hempty : lengthOf (seen ++ chunk.take (headerSize - seen.length)) = 0
  · rw [if_pos hempty]
    refine .completes hcut hsome ?_ ⟨Nat.zero_le _, by decide⟩
    rw [frame, List.append_nil, List.length_nil, ← hempty, header_lengthOf hhead]
  · have hbody : ([] : List UInt8).length < lengthOf (seen ++ chunk.take (headerSize - seen.length)) :=
      Nat.pos_of_ne_zero hempty
    have hstage := Stage.ofPartial_of_header [] hhead
    have hincomplete := incomplete_of_missing hhead (Nat.not_lt.1 habove) hbody
    rw [List.append_nil, List.reverse_nil, List.length_nil, Nat.sub_zero] at hstage
    rw [List.append_nil] at hincomplete
    rw [if_neg hempty, ← hstage]
    exact .waits hcut hsome hincomplete

theorem round_body {max : Nat} {head body chunk : List UInt8} (hhead : head.length = headerSize)
    (hmax : lengthOf head ≤ max) (hbody : body.length < lengthOf head) (hchunk : chunk ≠ []) :
    RoundOf max (head ++ body) chunk (Decoder.round max (.body body.reverse (lengthOf head - body.length)) chunk) := by
  have hcut : chunk = chunk.take (lengthOf head - body.length) ++ chunk.drop (lengthOf head - body.length) :=
    (List.take_append_drop _ _).symm
  have hpos : 0 < chunk.length := List.length_pos_iff.2 hchunk
  have hsome : chunk.take (lengthOf head - body.length) ≠ [] := by
    rw [← List.length_pos_iff, List.length_take]
    omega
  simp only [Decoder.round, List.reverseAux_eq, ← List.reverse_append]
  by_cases hdone : lengthOf head - body.length ≤ (chunk.take (lengthOf head - body.length)).length
  · have hlength : (body ++ chunk.take (lengthOf head - body.length)).length = lengthOf head := by
      rw [List.length_take] at hdone
      rw [List.length_append, List.length_take]
      omega
    rw [if_pos hdone, List.reverse_reverse]
    refine .completes hcut hsome ?_ ?_
    · rw [frame, hlength, header_lengthOf hhead, List.append_assoc]
    · rw [Fits, hlength]
      exact ⟨hmax, lengthOf_lt_lengthLimit hhead⟩
  · have hlength : (body ++ chunk.take (lengthOf head - body.length)).length < lengthOf head := by
      rw [List.length_append]
      omega
    have hstage := Stage.ofPartial_of_header (body ++ chunk.take (lengthOf head - body.length)) hhead
    have hincomplete := incomplete_of_missing hhead hmax hlength
    rw [List.length_append, ← Nat.sub_sub, ← List.append_assoc] at hstage
    rw [← List.append_assoc] at hincomplete
    rw [if_neg hdone, ← hstage]
    exact .waits hcut hsome hincomplete

/-- **One round**, at any stage that incomplete bytes lead to. -/
theorem round_ofPartial {max : Nat} {seen chunk : List UInt8} (hseen : Incomplete max seen) (hchunk : chunk ≠ []) :
    RoundOf max seen chunk (Decoder.round max (.ofPartial seen) chunk) := by
  rcases hseen.cases with hshort | ⟨head, body, rfl, hhead, hmax, hbody⟩
  · rw [Stage.ofPartial_of_short hshort]
    exact round_header hshort hchunk
  · rw [Stage.ofPartial_of_header body hhead]
    exact round_body hhead hmax hbody hchunk

/-! ## One call -/

/-- What a call answers that has made this of the bytes so far and has completed `count` frames. -/
def Unframed.answer (unframed : Unframed) (max count : Nat) : Except DecoderError Nat :=
  match unframed.oversized with
  | some length => .error (.messageTooLong length max)
  | none => .ok count

namespace Decoder

/-- **Rounds until a chunk is used up** make of it what the grammar makes of the bytes seen with the chunk behind
them. -/
theorem rounds_ofPartial : ∀ (fuel : Nat) (decoder : Decoder) (ready : List Payload) (count : Nat)
    (seen chunk : List UInt8), chunk.length ≤ fuel → Incomplete decoder.max seen → decoder.stage = .ofPartial seen →
    decoder.rounds ready count fuel chunk =
      let unframed := unframe decoder.max (seen ++ chunk)
      ⟨{ decoder with stage := unframed.stage, decoded := decoder.decoded + unframed.payloads.length },
        ready.reverse ++ unframed.payloads, unframed.answer decoder.max (count + unframed.payloads.length)⟩
  | fuel, decoder, ready, count, seen, [], _, hseen, hstage => by
    have hall : unframe decoder.max seen = ⟨[], seen, none⟩ := hseen
    have hdone : decoder.rounds ready count fuel [] = ⟨decoder, ready.reverse, .ok count⟩ := by cases fuel <;> rfl
    simp only [List.append_nil, hall, hdone, Unframed.stage, Unframed.answer, ← hstage, List.length_nil, Nat.add_zero]
  | 0, _, _, _, _, _ :: _, hfuel, _, _ => by cases hfuel
  | fuel + 1, decoder, ready, count, seen, first :: more, hfuel, hseen, hstage => by
    have hround := round_ofPartial hseen (List.cons_ne_nil first more)
    rw [← hstage] at hround
    simp only [rounds]
    generalize round decoder.max decoder.stage (first :: more) = result at hround ⊢
    cases hround with
    | @waits taken rest hcut hsome hincomplete =>
      have hrest : rest.length ≤ fuel := by
        have := List.length_pos_iff.2 hsome
        rw [hcut, List.length_append] at hfuel
        omega
      have hall := rounds_ofPartial fuel { decoder with stage := .ofPartial (seen ++ taken) } ready count
        (seen ++ taken) rest hrest hincomplete rfl
      rw [List.append_assoc, ← hcut] at hall
      exact hall
    | @completes taken rest payload hcut hsome hwhole hfits =>
      have hrest : rest.length ≤ fuel := by
        have := List.length_pos_iff.2 hsome
        rw [hcut, List.length_append] at hfuel
        omega
      have hall := rounds_ofPartial fuel { decoder with stage := .start, decoded := decoder.decoded + 1 }
        (payload :: ready) (count + 1) [] rest hrest (incomplete_of_short (by decide)) rfl
      rw [hcut, ← List.append_assoc, hwhole, unframe_frame_append rest hfits]
      simp only [hall, List.nil_append, List.reverse_cons, List.append_assoc, List.singleton_append, List.length_cons,
        Nat.add_assoc, Nat.add_comm 1]
      rfl
    | @refuses taken rest hcut hhead habove =>
      rw [hcut, ← List.append_assoc, unframe_of_oversized rest hhead habove]
      simp only [Unframed.stage, Unframed.answer, List.length_nil, Nat.add_zero, List.append_nil]

/-- The decoder was given exactly this stream since it was new or reset. -/
def Follows (decoder : Decoder) (stream : List UInt8) : Prop := decoder.stage = (unframe decoder.max stream).stage

theorem follows_nil {decoder : Decoder} (h : decoder.stage = .start) : decoder.Follows [] := by
  rw [Follows, h, unframe_of_short (by decide)]
  rfl

theorem Follows.isPoisoned {decoder : Decoder} {stream : List UInt8} (h : decoder.Follows stream) :
    decoder.isPoisoned = (unframe decoder.max stream).oversized.isSome := by
  rw [Decoder.isPoisoned, h, Unframed.stage]
  cases (unframe decoder.max stream).oversized with
  | some length => exact decide_eq_true rfl
  | none => exact decide_eq_false (Stage.ofPartial_ne_poisoned _)

/-- **One call of a decoder that follows a stream**: afterwards it follows the stream with the chunk behind it.  The
payloads it emits are those that the chunk completes, the count of frames grows by their number, and the call answers
that number unless an oversized header has come up. -/
theorem feed_of_follows {decoder : Decoder} {stream : List UInt8} (h : decoder.Follows stream) (chunk : List UInt8) :
    let intake := decoder.feed chunk
    let before := unframe decoder.max stream
    let after := unframe decoder.max (stream ++ chunk)
    after.payloads = before.payloads ++ intake.ready ∧
    intake.decoder = { decoder with stage := after.stage, decoded := decoder.decoded + intake.ready.length } ∧
    intake.answer = (if before.oversized.isSome then .error .poisoned
      else after.answer decoder.max intake.ready.length) := by
  have hpoisoned := h.isPoisoned
  cases hbefore : (unframe decoder.max stream).oversized with
  | some length =>
    rw [hbefore] at hpoisoned
    have hfeed : decoder.feed chunk = ⟨decoder, [], .error .poisoned⟩ := by
      rw [feed, hpoisoned, Option.isSome_some, if_pos rfl]
    have hafter := unframe_append_of_oversized chunk hbefore
    have hstage : (unframe decoder.max (stream ++ chunk)).stage = decoder.stage := by
      rw [h, hafter, Unframed.stage, Unframed.stage, hbefore]
    simp only [hfeed, hstage, hbefore]
    refine ⟨?_, rfl, rfl⟩
    rw [hafter, List.append_nil]
  | none =>
    rw [hbefore] at hpoisoned
    have hrest : Incomplete decoder.max (unframe decoder.max stream).rest := by
      rw [Incomplete, unframe_rest, hbefore]
    have hstage : decoder.stage = .ofPartial (unframe decoder.max stream).rest := by rw [h, Unframed.stage, hbefore]
    have hrounds := rounds_ofPartial chunk.length decoder [] 0 _ chunk (Nat.le_refl _) hrest hstage
    have hfeed : decoder.feed chunk = decoder.rounds [] 0 chunk.length chunk := by
      rw [feed, hpoisoned, Option.isSome_none, if_neg Bool.false_ne_true]
    simp only [hfeed, hrounds, unframe_append decoder.max stream chunk, List.reverse_nil, List.nil_append, Nat.zero_add,
      hbefore, Option.isSome_none, Bool.false_eq_true, if_false, true_and]
    exact ⟨rfl, rfl⟩

theorem Follows.feed {decoder : Decoder} {stream : List UInt8} (h : decoder.Follows stream) (chunk : List UInt8) :
    (decoder.feed chunk).decoder.Follows (stream ++ chunk) := by
  have hdecoder := (feed_of_follows h chunk).2.1
  rw [Follows, hdecoder]

end Decoder

end FramedLink
