import FramedLink.Proofs.Wire.Decoding
/-!
# Whatever the chunks

A decoder may be fed a stream in chunks of any sizes, empty ones among them, it may go on being fed after an error, and
it may be reset at any time.  Here are its runs: what the calls after the last reset emit, answer and count depends only
on the bytes that they were given, and is what the grammar makes of these bytes.

Main statement: `intakes_follow_grammar`, over every history of a decoder and every cutting of a stream into chunks.
-/
namespace FramedLink

/-- A call of a decoder that changes it. -/
inductive DecoderCall where
  | feed (chunk : List UInt8)
  | reset
deriving DecidableEq

/-- The answer to the call that gives a decoder `size` bytes of a stream from `start` on and completes `count` frames:
the fourth byte of an oversized header is refused with the chunk that it stands in, and every chunk behind it. -/
def Unframed.answerAt (unframed : Unframed) (max start size count : Nat) : Except DecoderError Nat :=
  match unframed.oversized with
  | none => .ok count
  | some length =>
    let shown := (frames unframed.payloads).length + headerSize
    if start + size < shown then .ok count
    else if start < shown then .error (.messageTooLong length max)
    else .error .poisoned

/-- The answer by the bytes before and after a call is the answer by the whole stream, which may go on behind it. -/
theorem answerAt_eq (max : Nat) (stream chunk later : List UInt8) (count : Nat) :
    (unframe max (stream ++ (chunk ++ later))).answerAt max stream.length chunk.length count =
      if (unframe max stream).oversized.isSome then .error .poisoned
      else (unframe max (stream ++ chunk)).answer max count := by
  have hassoc : stream ++ (chunk ++ later) = stream ++ chunk ++ later := (List.append_assoc _ _ _).symm
  cases hwhole : (unframe max (stream ++ (chunk ++ later))).oversized with
  | none =>
    have hstream := oversized_front hwhole
    have hchunk : (unframe max (stream ++ chunk)).oversized = none := oversized_front (hassoc ▸ hwhole)
    simp only [Unframed.answerAt, Unframed.answer, hwhole, hstream, hchunk, Option.isSome_none, Bool.false_eq_true,
      if_false]
  | some length =>
    have hstream := oversized_of_append hwhole
    rw [hassoc] at hwhole
    have hchunk := oversized_of_append hwhole
    rw [← hassoc] at hchunk hwhole
    rw [List.length_append] at hchunk
    simp only [Unframed.answerAt, Unframed.answer, hwhole, hstream, hchunk]
    by_cases hbefore : stream.length + chunk.length <
        (frames (unframe max (stream ++ (chunk ++ later))).payloads).length + headerSize
    · have hstart : stream.length < (frames (unframe max (stream ++ (chunk ++ later))).payloads).length + headerSize :=
        Nat.lt_of_le_of_lt (Nat.le_add_right _ _) hbefore
      simp only [hbefore, hstart, if_true, Option.isSome_none, Bool.false_eq_true, if_false]
    · by_cases hstart : stream.length < (frames (unframe max (stream ++ (chunk ++ later))).payloads).length + headerSize
      · simp only [hbefore, hstart, if_true, if_false, Option.isSome_none, Bool.false_eq_true]
      · simp only [hbefore, hstart, if_true, if_false, Option.isSome_some]

namespace Decoder

def after (decoder : Decoder) : List DecoderCall → Decoder
  | [] => decoder
  | .feed chunk :: calls => (decoder.feed chunk).decoder.after calls
  | .reset :: calls => decoder.reset.after calls

/-- What each of several chunks did, also of those behind one that was refused. -/
def intakes (decoder : Decoder) : List (List UInt8) → List Intake
  | [] => []
  | chunk :: chunks => decoder.feed chunk :: (decoder.feed chunk).decoder.intakes chunks

def afterChunks (decoder : Decoder) (chunks : List (List UInt8)) : Decoder := decoder.after (chunks.map .feed)

@[simp] theorem afterChunks_nil (decoder : Decoder) : decoder.afterChunks [] = decoder := rfl

@[simp] theorem afterChunks_cons (decoder : Decoder) (chunk : List UInt8) (chunks : List (List UInt8)) :
    decoder.afterChunks (chunk :: chunks) = (decoder.feed chunk).decoder.afterChunks chunks := rfl

theorem intakes_append (decoder : Decoder) (before later : List (List UInt8)) :
    decoder.intakes (before ++ later) = decoder.intakes before ++ (decoder.afterChunks before).intakes later := by
  induction before generalizing decoder with
  | nil => rfl
  | cons chunk before ih => exact congrArg _ (ih (decoder.feed chunk).decoder)

theorem length_intakes (decoder : Decoder) (chunks : List (List UInt8)) :
    (decoder.intakes chunks).length = chunks.length := by
  induction chunks generalizing decoder with
  | nil => rfl
  | cons chunk chunks ih => exact congrArg (· + 1) (ih (decoder.feed chunk).decoder)

theorem Follows.max_feed {decoder : Decoder} {stream : List UInt8} (h : decoder.Follows stream) (chunk : List UInt8) :
    (decoder.feed chunk).decoder.max = decoder.max := by
  rw [(feed_of_follows h chunk).2.1]

/-- What a decoder has been given, counted from its last reset on. -/
def streamAfter (stream : List UInt8) : List DecoderCall → List UInt8
  | [] => stream
  | .feed chunk :: calls => streamAfter (stream ++ chunk) calls
  | .reset :: calls => streamAfter [] calls

/-- A decoder with any history follows what it has been given, and has kept its limit. -/
theorem Follows.after {decoder : Decoder} {stream : List UInt8} (h : decoder.Follows stream)
    (calls : List DecoderCall) :
    (decoder.after calls).max = decoder.max ∧ (decoder.after calls).Follows (streamAfter stream calls) := by
  induction calls generalizing decoder stream with
  | nil => exact ⟨rfl, h⟩
  | cons call calls ih =>
    cases call with
    | feed chunk =>
      obtain ⟨hmax, hfollows⟩ := ih (h.feed chunk)
      exact ⟨hmax.trans (h.max_feed chunk), hfollows⟩
    | reset => exact ih (follows_nil rfl : decoder.reset.Follows [])

/-- **Chunk after chunk**: a decoder that follows a stream has emitted, over several chunks, what these chunks complete,
and has counted it. -/
theorem Follows.afterChunks {decoder : Decoder} {stream : List UInt8} (h : decoder.Follows stream)
    (chunks : List (List UInt8)) :
    (decoder.afterChunks chunks).Follows (stream ++ chunks.flatten) ∧
    (decoder.afterChunks chunks).max = decoder.max ∧
    (unframe decoder.max (stream ++ chunks.flatten)).payloads =
      (unframe decoder.max stream).payloads ++ (decoder.intakes chunks).flatMap Intake.ready ∧
    (decoder.afterChunks chunks).decoded =
      decoder.decoded + ((decoder.intakes chunks).flatMap Intake.ready).length := by
  induction chunks generalizing decoder stream with
  | nil => simp only [List.flatten_nil, List.append_nil, afterChunks_nil, intakes, List.flatMap_nil, List.length_nil,
      Nat.add_zero, h, and_self]
  | cons chunk chunks ih =>
    obtain ⟨hpayloads, hdecoder, -⟩ := feed_of_follows h chunk
    obtain ⟨hfollows, hmax, hready, hdecoded⟩ := ih (h.feed chunk)
    have hdecoded₁ : (decoder.feed chunk).decoder.decoded = decoder.decoded + (decoder.feed chunk).ready.length := by
      rw [hdecoder]
    rw [h.max_feed chunk] at hmax hready
    rw [List.flatten_cons, ← List.append_assoc, afterChunks_cons, intakes, List.flatMap_cons, List.length_append]
    refine ⟨hfollows, hmax, ?_, ?_⟩
    · rw [hready, hpayloads, List.append_assoc]
    · rw [hdecoded, hdecoded₁, Nat.add_assoc]

theorem Follows.buffered {decoder : Decoder} {stream : List UInt8} (h : decoder.Follows stream)
    (hok : (unframe decoder.max stream).oversized = none) :
    decoder.buffered = (unframe decoder.max stream).rest.length := by
  rw [Decoder.buffered, h, Unframed.stage, hok]
  exact Stage.buffered_ofPartial _

/-- **A decoder accepts exactly its grammar, whatever the chunks.**  After any history that ends with the decoder new or
reset, let a stream be fed to it in any chunks, and let the grammar cut the whole stream.  The payloads emitted are
those cut off, those of a chunk that is refused among them, and the count of frames grows by their number.  Unless a
header is oversized, the frames of the payloads are the stream without what is buffered at the end.  Each call answers
the number of the payloads it emits, until the chunk comes with the fourth byte of an oversized header; that one is
refused, and from then on every chunk is, and changes nothing. -/
theorem intakes_follow_grammar (max : Nat) (past : List DecoderCall) (chunks : List (List UInt8)) :
    let decoder := ((Decoder.fresh max).after past).reset
    let whole := unframe max chunks.flatten
    let last := decoder.afterChunks chunks
    (decoder.intakes chunks).flatMap Intake.ready = whole.payloads ∧
    last.decoded = decoder.decoded + whole.payloads.length ∧
    (whole.oversized = none → frames whole.payloads = chunks.flatten.take (chunks.flatten.length - last.buffered)) ∧
    ∀ before chunk later, chunks = before ++ chunk :: later →
      ∃ intake, (decoder.intakes chunks)[before.length]? = some intake ∧
        intake.answer = whole.answerAt max before.flatten.length chunk.length intake.ready.length ∧
        intake.decoder.decoded = (decoder.afterChunks before).decoded + intake.ready.length ∧
        (intake.answer = .error .poisoned → intake.ready = [] ∧ intake.decoder = decoder.afterChunks before) := by
  intro decoder whole last
  have hmax : decoder.max = max := ((follows_nil rfl : (Decoder.fresh max).Follows []).after past).1
  have hstart : decoder.Follows [] := follows_nil rfl
  have hnil : (unframe decoder.max []).payloads = [] := by rw [unframe_of_short (by decide)]
  obtain ⟨hfollows, hlast, hready, hdecoded⟩ := hstart.afterChunks chunks
  rw [List.nil_append] at hfollows hready
  rw [hnil, List.nil_append, hmax] at hready
  refine ⟨hready.symm, ?_, fun hok => ?_, ?_⟩
  · rw [hdecoded, ← hready]
  · have hbuffered : last.buffered = whole.rest.length := by
      rw [hfollows.buffered (by rw [hlast, hmax]; exact hok), hlast, hmax]
    have hcut : frames whole.payloads ++ whole.rest = chunks.flatten := frames_unframe max chunks.flatten
    have hlength : chunks.flatten.length - last.buffered = (frames whole.payloads).length := by
      rw [← hcut, List.length_append, hbuffered, Nat.add_sub_cancel]
    rw [hlength, ← hcut, List.take_left]
  · rintro before chunk later rfl
    obtain ⟨hbefore, hmaxBefore, -, -⟩ := hstart.afterChunks before
    rw [List.nil_append] at hbefore
    obtain ⟨-, hdecoder, hanswer⟩ := feed_of_follows hbefore chunk
    rw [hmaxBefore, hmax] at hanswer
    refine ⟨(decoder.afterChunks before).feed chunk, ?_, ?_, ?_, fun hpoisoned => ?_⟩
    · rw [intakes_append, List.getElem?_append_right (Nat.le_of_eq (length_intakes _ _)), length_intakes, Nat.sub_self]
      rfl
    · simp only [whole, List.flatten_append, List.flatten_cons]
      rw [answerAt_eq, hanswer]
    · rw [hdecoder]
    · -- A fresh fault is a length above the limit, so this one was there before.
      have hsome : (unframe max before.flatten).oversized.isSome := by
        refine Decidable.byContradiction fun hnone => ?_
        rw [if_neg hnone, Unframed.answer] at hanswer
        rw [hanswer] at hpoisoned
        split at hpoisoned <;> cases hpoisoned
      have hstuck : (decoder.afterChunks before).isPoisoned := by
        rw [hbefore.isPoisoned, hmaxBefore, hmax]
        exact hsome
      rw [feed, if_pos hstuck]
      exact ⟨rfl, rfl⟩

end Decoder
end FramedLink
