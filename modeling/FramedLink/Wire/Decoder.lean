import FramedLink.Wire.Frame
/-!
# The frame decoder

Puts frames together again from chunks that may be cut anywhere, also inside a header.  A decoder that has seen a
length above its limit is poisoned: the stream is taken for corrupt or hostile, and nothing is decoded from it until
the decoder is reset.

A chunk is taken in by rounds.  Each round takes from its front what the current stage lacks: bytes of the header, or
bytes of a payload whose length is known.
-/
namespace FramedLink

/-- Why a chunk was refused. -/
inductive DecoderError where
  | messageTooLong (length max : Nat)
  | poisoned
deriving DecidableEq

def DecoderError.message : DecoderError → String
  | .messageTooLong length max => s!"Frame claims a length of {length} bytes, but the maximum is {max}"
  | .poisoned => "The decoder previously saw malformed data and refuses to continue"

/-- Where in a frame the stream stands.  The bytes of a payload are kept latest first, so that a long payload arriving
in many chunks is not copied for each of them. -/
inductive Stage where
  | header (seen : List UInt8)
  | body (received : List UInt8) (missing : Nat)
  | poisoned
deriving DecidableEq

namespace Stage

def start : Stage := .header []

/-- How many bytes of a partial frame have come, its header included. -/
def buffered : Stage → Nat
  | .header seen => seen.length
  | .body received _ => headerSize + received.length
  | .poisoned => 0

end Stage

/-- A decoder: the largest length that it accepts, where it stands, and how many frames it has completed so far. -/
structure Decoder where
  max : Nat
  stage : Stage := .start
  decoded : Nat := 0
deriving DecidableEq

/-- What one round did: the stage after it, the rest of the chunk, and the payload it completed, if any. -/
structure Round where
  stage : Stage
  rest : List UInt8
  ready : Option Payload
deriving DecidableEq

/-- What one chunk did: the decoder after it, the payloads completed, and the answer, which is the count of the frames
completed or the error that stopped it.  Payloads completed before an error are given too. -/
structure Intake where
  decoder : Decoder
  ready : List Payload
  answer : Except DecoderError Nat

namespace Decoder

def fresh (max : Nat) : Decoder := { max }

/-- Drops a partial frame and clears poisoning.  The count of completed frames goes on. -/
def reset (decoder : Decoder) : Decoder := { decoder with stage := .start }

/-- A length above the limit has been seen. -/
def isPoisoned (decoder : Decoder) : Bool := decoder.stage = .poisoned

/-- How many bytes of a partial frame have come, its header included. -/
def buffered (decoder : Decoder) : Nat := decoder.stage.buffered

/-- What follows a complete header: an empty frame is ready at once, a length above the limit is refused. -/
def openFrame (max length : Nat) (rest : List UInt8) : Except DecoderError Round :=
  if max < length then .error (.messageTooLong length max)
  else if length = 0 then .ok ⟨.start, rest, some []⟩
  else .ok ⟨.body [] length, rest, none⟩

/-- One round: takes from the front of a chunk what the stage lacks. -/
def round (max : Nat) (stage : Stage) (chunk : List UInt8) : Except DecoderError Round :=
  match stage with
  | .poisoned => .error .poisoned
  | .header seen =>
    let amount := headerSize - seen.length
    let seen := seen ++ chunk.take amount
    if seen.length < headerSize then .ok ⟨.header seen, chunk.drop amount, none⟩
    else openFrame max (lengthOf seen) (chunk.drop amount)
  | .body received missing =>
    let piece := chunk.take missing
    let received := piece.reverseAux received
    if missing ≤ piece.length then .ok ⟨.start, chunk.drop missing, some received.reverse⟩
    else .ok ⟨.body received (missing - piece.length), chunk.drop missing, none⟩

/-- Rounds until the chunk is used up.  Every round takes at least one byte, so as many rounds as the chunk has bytes
are enough.  The payloads completed so far are kept latest first, and counted. -/
def rounds (decoder : Decoder) (ready : List Payload) (count : Nat) : Nat → List UInt8 → Intake
  | 0, _ => ⟨decoder, ready.reverse, .ok count⟩
  | _ + 1, [] => ⟨decoder, ready.reverse, .ok count⟩
  | fuel + 1, chunk =>
    match round decoder.max decoder.stage chunk with
    | .error e => ⟨{ decoder with stage := .poisoned }, ready.reverse, .error e⟩
    | .ok { stage, rest, ready := none } => rounds { decoder with stage } ready count fuel rest
    | .ok { stage, rest, ready := some payload } =>
      rounds { decoder with stage, decoded := decoder.decoded + 1 } (payload :: ready) (count + 1) fuel rest

/-- Takes in a chunk.  A poisoned decoder refuses every chunk, also an empty one. -/
def feed (decoder : Decoder) (chunk : List UInt8) : Intake :=
  if decoder.isPoisoned then ⟨decoder, [], .error .poisoned⟩ else decoder.rounds [] 0 chunk.length chunk

end Decoder

/-- What a row of chunks did: the decoder after it, the payloads completed, how many chunks were taken in before the
error that stopped it, if any. -/
structure Reception where
  decoder : Decoder
  ready : List Payload
  accepted : Nat
  count : Nat
  error : Option DecoderError
deriving DecidableEq

namespace Decoder

/-- Takes in chunks one after the other, up to the first that is refused.  `count` adds up the frames that the accepted
chunks completed; the payloads that a refused chunk completed before its fault are given too. -/
def feedAll (decoder : Decoder) : List (List UInt8) → Reception
  | [] => ⟨decoder, [], 0, 0, none⟩
  | chunk :: chunks =>
    let intake := decoder.feed chunk
    match intake.answer with
    | .error e => ⟨intake.decoder, intake.ready, 0, 0, some e⟩
    | .ok count =>
      let later := intake.decoder.feedAll chunks
      { later with
        ready := intake.ready ++ later.ready
        accepted := later.accepted + 1
        count := later.count + count }

end Decoder
end FramedLink
