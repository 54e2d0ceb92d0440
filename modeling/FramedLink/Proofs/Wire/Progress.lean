import FramedLink.Proofs.Wire.Chunking
import FramedLink.Wire.Packing
/-!
# A decoder's representation, and its progress

`Decoder.round` takes from a chunk by operations that cannot fail: what is not there is not taken.  `Parser` is the
decoder on fixed storage, where they can.  Its header is read into an array of four bytes, with a count of those read;
a slice that reaches too far, a subtraction below zero, a turn of the loop that takes nothing and the branch of the loop
for a poisoned decoder are each a `Fault`.

Main statement: no history of calls leads to a fault, the parser does what the decoder does, and between two calls its
storage shows the frame that the stream stands in (`Parser.never_faults`).
-/
namespace FramedLink

/-- What would be wrong with a parser itself, whatever the stream. -/
inductive Fault where
  | outOfRange
  | belowZero
  | unreachable
  | idle
deriving DecidableEq

/-- The bytes from `start` to before `stop`. -/
def slice (bytes : List UInt8) (start stop : Nat) : Except Fault (List UInt8) :=
  if start ≤ stop ∧ stop ≤ bytes.length then .ok ((bytes.take stop).drop start) else .error .outOfRange

/-- Copies `source` to the place from `start` to before `stop`, whose length it must have. -/
def copyTo (bytes : List UInt8) (start stop : Nat) (source : List UInt8) : Except Fault (List UInt8) :=
  if start ≤ stop ∧ stop ≤ bytes.length ∧ source.length = stop - start then .ok (overwrite bytes start source)
  else .error .outOfRange

def difference (a b : Nat) : Except Fault Nat := if b ≤ a then .ok (a - b) else .error .belowZero

theorem slice_front {bytes : List UInt8} {stop : Nat} (h : stop ≤ bytes.length) :
    slice bytes 0 stop = .ok (bytes.take stop) := if_pos ⟨Nat.zero_le _, h⟩

theorem slice_back {bytes : List UInt8} {start : Nat} (h : start ≤ bytes.length) :
    slice bytes start bytes.length = .ok (bytes.drop start) := by
  rw [slice, if_pos ⟨h, Nat.le_refl _⟩, List.take_length]

theorem copyTo_eq {bytes source : List UInt8} {start : Nat} (h : start + source.length ≤ bytes.length) :
    copyTo bytes start (start + source.length) source = .ok (overwrite bytes start source) :=
  if_pos ⟨Nat.le_add_right _ _, h, (Nat.add_sub_cancel_left _ _).symm⟩

theorem difference_eq {a b : Nat} (h : b ≤ a) : difference a b = .ok (a - b) := if_pos h

/-- Where a parser stands: `read` of the header's bytes are in `storage`, or `remaining` bytes lack of a payload. -/
inductive Register where
  | header (storage : List UInt8) (read : Nat)
  | payload (received : List UInt8) (remaining : Nat)
  | poisoned
deriving DecidableEq

/-- What the loop did with a chunk: where the parser stands, the payloads emitted, the error, how many turns it took. -/
structure Parse where
  register : Register
  ready : List Payload
  error : Option DecoderError
  turns : Nat

/-- The answer of a call that has already completed `count` frames. -/
def Parse.answer (parse : Parse) (count : Nat) : Except DecoderError Nat :=
  match parse.error with
  | none => .ok (count + parse.ready.length)
  | some error => .error error

namespace Register

/-- What one turn of the loop comes to. -/
inductive Turn where
  | goesOn (register : Register) (rest : List UInt8) (ready : Option Payload)
  | refuses (length : Nat)

def start : Register := .header (List.replicate headerSize 0) 0

/-- The stage of a decoder that stands where the parser does. -/
def stage : Register → Stage
  | .header storage read => .header (storage.take read)
  | .payload received remaining => .body received.reverse remaining
  | .poisoned => .poisoned

theorem of_stage_header {register : Register} {seen : List UInt8} (h : register.stage = .header seen) :
    ∃ storage read, register = .header storage read ∧ seen = storage.take read := by
  cases register with
  | header storage read => exact ⟨storage, read, rfl, (Stage.header.inj h).symm⟩
  | payload | poisoned => cases h

theorem of_stage_body {register : Register} {reversed : List UInt8} {remaining : Nat}
    (h : register.stage = .body reversed remaining) : register = .payload reversed.reverse remaining := by
  cases register with
  | payload received lacking =>
    obtain ⟨rfl, rfl⟩ := Stage.body.inj h
    rw [List.reverse_reverse]
  | header | poisoned => cases h

theorem stage_eq_poisoned_iff {register : Register} : register.stage = .poisoned ↔ register = .poisoned := by
  cases register <;> simp [stage]

/-- One turn of the loop, over a chunk that is not empty. -/
def turn (max : Nat) (chunk : List UInt8) : Register → Except Fault Turn
  | .header storage read => do
    let amount := min (← difference headerSize read) chunk.length
    let storage ← copyTo storage read (read + amount) (← slice chunk 0 amount)
    let rest ← slice chunk amount chunk.length
    if read + amount < headerSize then return .goesOn (.header storage (read + amount)) rest none
    let length := lengthOf storage
    if max < length then return .refuses length
    if length = 0 then return .goesOn .start rest (some [])
    return .goesOn (.payload [] length) rest none
  | .payload received remaining => do
    let amount := min remaining chunk.length
    let received := received ++ (← slice chunk 0 amount)
    let remaining ← difference remaining amount
    let rest ← slice chunk amount chunk.length
    if remaining = 0 then return .goesOn .start rest (some received)
    return .goesOn (.payload received remaining) rest none
  | .poisoned => .error .unreachable

/-- The loop: turns until the chunk is used up or refused.  A turn that leaves the whole chunk would go on for ever. -/
def parse (max : Nat) (register : Register) (chunk : List UInt8) : Except Fault Parse :=
  if chunk = [] then .ok ⟨register, [], none, 0⟩
  else
    match register.turn max chunk with
    | .error fault => .error fault
    | .ok (.refuses length) => .ok ⟨.poisoned, [], some (.messageTooLong length max), 1⟩
    | .ok (.goesOn register rest ready) =>
      if rest.length < chunk.length then
        (register.parse max rest).map fun later =>
          { later with ready := ready.toList ++ later.ready, turns := later.turns + 1 }
      else .error .idle
termination_by chunk.length

/-- In the middle of a frame: the header is not complete, or bytes of a payload lack that is not above the limit. -/
def Waiting (max : Nat) : Register → Prop
  | .header storage read => storage.length = headerSize ∧ read < headerSize
  | .payload received remaining => 1 ≤ remaining ∧ received.length + remaining ≤ max
  | .poisoned => False

@[simp] theorem waiting_start (max : Nat) : start.Waiting max := ⟨rfl, by decide⟩

/-- What a turn over `chunk` does right: it does what a round of the decoder does, and takes something. -/
def Takes (max : Nat) (register : Register) (chunk : List UInt8) : Turn → Prop
  | .goesOn next rest ready =>
    Decoder.round max register.stage chunk = .ok ⟨next.stage, rest, ready⟩ ∧ next.Waiting max ∧
      rest.length < chunk.length
  | .refuses length => Decoder.round max register.stage chunk = .error (.messageTooLong length max)

theorem takes_header {max read : Nat} {storage chunk : List UInt8} (h : (header storage read).Waiting max)
    (hchunk : chunk ≠ []) : ∃ turn, (header storage read).turn max chunk = .ok turn ∧
      (header storage read).Takes max chunk turn := by
  obtain ⟨hstorage, hread⟩ := h
  have hpos : 0 < chunk.length := List.length_pos_iff.2 hchunk
  have hcursor : read ≤ storage.length := by omega
  have hseen : (storage.take read).length = read := List.length_take_of_le hcursor
  have htake : chunk.take (headerSize - read) = chunk.take (min (headerSize - read) chunk.length) :=
    List.take_eq_take_min
  have hdrop : chunk.drop (headerSize - read) = chunk.drop (min (headerSize - read) chunk.length) :=
    List.drop_eq_drop_min
  generalize hamount : min (headerSize - read) chunk.length = amount at htake hdrop
  have htaken : (chunk.take amount).length = amount := List.length_take_of_le (by omega)
  have hcopy : copyTo storage read (read + amount) (chunk.take amount) =
      .ok (overwrite storage read (chunk.take amount)) := by
    have hinside : read + (chunk.take amount).length ≤ storage.length := by omega
    rw [← copyTo_eq hinside, htaken]
  have hfront : (overwrite storage read (chunk.take amount)).take (read + amount) =
      storage.take read ++ chunk.take amount := by
    rw [← take_overwrite_behind _ hcursor, htaken]
  have hlength : (overwrite storage read (chunk.take amount)).length = headerSize := by
    rw [length_overwrite (by omega), hstorage]
  have hshorter : (chunk.drop amount).length < chunk.length := by
    rw [List.length_drop]
    omega
  have hinside : amount ≤ chunk.length := by omega
  simp only [turn, difference_eq (Nat.le_of_lt hread), hamount, slice_front hinside, hcopy, slice_back hinside, bind,
    Except.bind, pure, Except.pure]
  have hround : Decoder.round max (header storage read).stage chunk =
      if read + amount < headerSize then .ok ⟨.header (storage.take read ++ chunk.take amount), chunk.drop amount, none⟩
      else Decoder.openFrame max (lengthOf (storage.take read ++ chunk.take amount)) (chunk.drop amount) := by
    simp only [Decoder.round, stage, hseen, htake, hdrop, List.length_append, htaken]
  by_cases hshort : read + amount < headerSize
  · rw [if_pos hshort] at hround ⊢
    refine ⟨_, rfl, ?_, ⟨hlength, hshort⟩, hshorter⟩
    rw [hround, stage, hfront]
  · have hfull : read + amount = headerSize := by omega
    rw [hfull, ← hlength, List.take_length] at hfront
    rw [if_neg hshort, ← hfront, Decoder.openFrame] at hround
    rw [if_neg hshort]
    by_cases habove : max < lengthOf (overwrite storage read (chunk.take amount))
    · rw [if_pos habove] at hround ⊢
      exact ⟨_, rfl, hround⟩
    rw [if_neg habove] at hround ⊢
    by_cases hempty : lengthOf (overwrite storage read (chunk.take amount)) = 0
    · rw [if_pos hempty] at hround ⊢
      exact ⟨_, rfl, hround, waiting_start max, hshorter⟩
    · rw [if_neg hempty] at hround ⊢
      refine ⟨_, rfl, hround, ⟨Nat.pos_of_ne_zero hempty, ?_⟩, hshorter⟩
      rw [List.length_nil, Nat.zero_add]
      exact Nat.not_lt.1 habove

theorem takes_payload {max remaining : Nat} {received chunk : List UInt8}
    (h : (payload received remaining).Waiting max) (hchunk : chunk ≠ []) :
    ∃ turn, (payload received remaining).turn max chunk = .ok turn ∧
      (payload received remaining).Takes max chunk turn := by
  obtain ⟨hremaining, hmax⟩ := h
  have hpos : 0 < chunk.length := List.length_pos_iff.2 hchunk
  have htake : chunk.take remaining = chunk.take (min remaining chunk.length) := List.take_eq_take_min
  have hdrop : chunk.drop remaining = chunk.drop (min remaining chunk.length) := List.drop_eq_drop_min
  generalize hamount : min remaining chunk.length = amount at htake hdrop
  have htaken : (chunk.take amount).length = amount := List.length_take_of_le (by omega)
  have hshorter : (chunk.drop amount).length < chunk.length := by
    rw [List.length_drop]
    omega
  have hinside : amount ≤ chunk.length := by omega
  have henough : amount ≤ remaining := by omega
  simp only [turn, hamount, slice_front hinside, difference_eq henough, slice_back hinside, bind, Except.bind, pure,
    Except.pure]
  have hround : Decoder.round max (payload received remaining).stage chunk =
      if remaining ≤ amount then .ok ⟨.start, chunk.drop amount, some (received ++ chunk.take amount)⟩
      else .ok ⟨.body (received ++ chunk.take amount).reverse (remaining - amount), chunk.drop amount, none⟩ := by
    simp only [Decoder.round, stage, htake, hdrop, htaken, List.reverseAux_eq, ← List.reverse_append,
      List.reverse_reverse]
  by_cases hdone : remaining - amount = 0
  · rw [if_pos (Nat.sub_eq_zero_iff_le.1 hdone)] at hround
    rw [if_pos hdone]
    exact ⟨_, rfl, hround, waiting_start max, hshorter⟩
  · rw [if_neg fun hle => hdone (Nat.sub_eq_zero_of_le hle)] at hround
    rw [if_neg hdone]
    refine ⟨_, rfl, hround, ⟨Nat.pos_of_ne_zero hdone, ?_⟩, hshorter⟩
    rw [List.length_append, htaken]
    omega

/-- **One turn**, in the middle of a frame and of a chunk. -/
theorem takes {max : Nat} {chunk : List UInt8} (hchunk : chunk ≠ []) : ∀ {register : Register}, register.Waiting max →
    ∃ turn, register.turn max chunk = .ok turn ∧ register.Takes max chunk turn
  | .header _ _, h => takes_header h hchunk
  | .payload _ _, h => takes_payload h hchunk
  | .poisoned, h => h.elim

/-- **The loop** ends without a fault, after at most one turn for each byte, and does what the decoder's rounds do. -/
theorem parse_eq {max : Nat} {register : Register} (chunk : List UInt8) (h : register.Waiting max) :
    ∃ parse, register.parse max chunk = .ok parse ∧ parse.turns ≤ chunk.length ∧
      (parse.register.Waiting max ∨ parse.register = .poisoned) ∧
      ∀ (decoded : Nat) (ready : List Payload) (count fuel : Nat), chunk.length ≤ fuel →
        (⟨max, register.stage, decoded⟩ : Decoder).rounds ready count fuel chunk =
          ⟨⟨max, parse.register.stage, decoded + parse.ready.length⟩, ready.reverse ++ parse.ready,
            parse.answer count⟩ := by
  rw [parse]
  by_cases hchunk : chunk = []
  · subst hchunk
    refine ⟨_, rfl, Nat.le_refl _, .inl h, fun decoded ready count fuel _ => ?_⟩
    cases fuel <;> simp [Decoder.rounds, Parse.answer]
  rw [if_neg hchunk]
  have hpos : 0 < chunk.length := List.length_pos_iff.2 hchunk
  obtain ⟨turn, hturn, htakes⟩ := takes hchunk h
  rw [hturn]
  cases turn with
  | refuses length =>
    refine ⟨_, rfl, hpos, .inr rfl, fun decoded ready count fuel hfuel => ?_⟩
    obtain ⟨fuel, rfl⟩ : ∃ less, fuel = less + 1 := ⟨fuel - 1, by omega⟩
    obtain ⟨first, more, rfl⟩ := List.exists_cons_of_ne_nil hchunk
    have hround : Decoder.round max register.stage (first :: more) = .error (.messageTooLong length max) := htakes
    simp only [Decoder.rounds, hround, Parse.answer, List.append_nil]
    rfl
  | goesOn next rest emitted =>
    obtain ⟨hround, hnext, hshorter⟩ := htakes
    obtain ⟨later, hlater, hturns, hsettled, hrounds⟩ := parse_eq rest hnext
    simp only [hlater, Except.map]
    rw [if_pos hshorter]
    refine ⟨_, rfl, by simp only; omega, hsettled, fun decoded ready count fuel hfuel => ?_⟩
    obtain ⟨fuel, rfl⟩ : ∃ less, fuel = less + 1 := ⟨fuel - 1, by omega⟩
    have hrest : rest.length ≤ fuel := by omega
    obtain ⟨first, more, rfl⟩ := List.exists_cons_of_ne_nil hchunk
    simp only [Decoder.rounds, hround]
    cases emitted with
    | none => exact hrounds decoded ready count fuel hrest
    | some payload =>
      have hlater := hrounds (decoded + 1) (payload :: ready) (count + 1) fuel hrest
      rw [List.reverse_cons, List.append_assoc, List.singleton_append] at hlater
      simp only [hlater, Parse.answer, Option.toList_some, List.singleton_append, List.length_cons, Nat.add_assoc,
        Nat.add_comm 1]
termination_by chunk.length

end Register

/-- A decoder on fixed storage. -/
structure Parser where
  max : Nat
  register : Register := .start
  decoded : Nat := 0

namespace Parser

def fresh (max : Nat) : Parser := { max }

def reset (parser : Parser) : Parser := { parser with register := .start }

/-- The decoder that the parser is to be. -/
def decoder (parser : Parser) : Decoder := ⟨parser.max, parser.register.stage, parser.decoded⟩

def feed (parser : Parser) (chunk : List UInt8) : Except Fault (Parser × Parse) :=
  if parser.register = .poisoned then .ok (parser, ⟨.poisoned, [], some .poisoned, 0⟩)
  else
    (parser.register.parse parser.max chunk).map fun parse =>
      ({ parser with register := parse.register, decoded := parser.decoded + parse.ready.length }, parse)

def after (parser : Parser) : List DecoderCall → Except Fault Parser
  | [] => .ok parser
  | .feed chunk :: calls =>
    match parser.feed chunk with
    | .error fault => .error fault
    | .ok (next, _) => next.after calls
  | .reset :: calls => parser.reset.after calls

/-- Between two calls: poisoned, or in the middle of a frame. -/
def Sound (parser : Parser) : Prop := parser.register.Waiting parser.max ∨ parser.register = .poisoned

theorem feed_eq {parser : Parser} (h : parser.Sound) (chunk : List UInt8) :
    ∃ next parse, parser.feed chunk = .ok (next, parse) ∧ next.Sound ∧ parse.turns ≤ chunk.length ∧
      parser.decoder.feed chunk = ⟨next.decoder, parse.ready, parse.answer 0⟩ := by
  rcases h with hwaiting | hpoisoned
  · have hregister : parser.register ≠ .poisoned := fun hpoisoned => by rwa [hpoisoned] at hwaiting
    have hdecoder : parser.decoder.isPoisoned = false :=
      decide_eq_false fun hstage => hregister (Register.stage_eq_poisoned_iff.1 hstage)
    obtain ⟨parse, hparse, hturns, hsettled, hrounds⟩ := Register.parse_eq chunk hwaiting
    refine ⟨⟨parser.max, parse.register, parser.decoded + parse.ready.length⟩, parse, ?_, hsettled, hturns, ?_⟩
    · rw [feed, if_neg hregister, hparse, Except.map]
    · have hall := hrounds parser.decoded [] 0 chunk.length (Nat.le_refl _)
      rw [Decoder.feed, hdecoder, if_neg Bool.false_ne_true]
      exact hall
  · refine ⟨parser, _, by rw [feed, if_pos hpoisoned], .inr hpoisoned, Nat.zero_le _, ?_⟩
    have hdecoder : parser.decoder.isPoisoned = true := by
      rw [Decoder.isPoisoned, decoder, hpoisoned]
      rfl
    rw [Decoder.feed, if_pos hdecoder]
    rfl

/-- A history leads to no fault, and leaves the parser where it leaves the decoder. -/
theorem after_eq (calls : List DecoderCall) {parser : Parser} (h : parser.Sound) :
    ∃ last, parser.after calls = .ok last ∧ last.Sound ∧ last.decoder = parser.decoder.after calls := by
  induction calls generalizing parser with
  | nil => exact ⟨parser, rfl, h, rfl⟩
  | cons call calls ih =>
    cases call with
    | feed chunk =>
      obtain ⟨next, parse, hfeed, hnext, -, hdecoder⟩ := feed_eq h chunk
      rw [after, hfeed, Decoder.after, hdecoder]
      exact ih hnext
    | reset => exact ih (.inl (Register.waiting_start _) : parser.reset.Sound)

/-- What the storage shows of the frame that a stream stands in, by what the grammar makes of the stream. -/
def Shows (parser : Parser) (unframed : Unframed) : Prop :=
  match parser.register with
  | .header storage read => unframed.oversized = none ∧ storage.length = headerSize ∧ read < headerSize ∧
      unframed.rest = storage.take read
  | .payload received remaining => unframed.oversized = none ∧ ∃ head, head.length = headerSize ∧
      unframed.rest = head ++ received ∧ 1 ≤ remaining ∧ received.length + remaining = lengthOf head ∧
      1 ≤ lengthOf head ∧ lengthOf head ≤ parser.max
  | .poisoned => ∃ length, unframed.oversized = some length ∧ parser.max < length

theorem shows_of_follows {parser : Parser} {stream : List UInt8} (h : parser.Sound)
    (hfollows : parser.decoder.Follows stream) : parser.Shows (unframe parser.max stream) := by
  have hstage : parser.register.stage = (unframe parser.max stream).stage := hfollows
  rw [Sound] at h
  rw [Unframed.stage] at hstage
  cases hover : (unframe parser.max stream).oversized with
  | some length =>
    obtain ⟨-, -, -, -, -, hmax⟩ := rest_of_oversized hover
    rw [hover] at hstage
    rw [Shows, Register.stage_eq_poisoned_iff.1 hstage]
    exact ⟨length, hover, hmax⟩
  | none =>
    have hrest : Incomplete parser.max (unframe parser.max stream).rest := by rw [Incomplete, unframe_rest, hover]
    rw [hover] at hstage
    rcases hrest.cases with hshort | ⟨head, body, hcut, hhead, hmax, hbody⟩
    · rw [Stage.ofPartial_of_short hshort] at hstage
      obtain ⟨storage, read, hregister, hseen⟩ := Register.of_stage_header hstage
      rw [hregister] at h
      obtain ⟨hstorage, hread⟩ := h.resolve_right Register.noConfusion
      rw [Shows, hregister]
      exact ⟨hover, hstorage, hread, hseen⟩
    · rw [hcut, Stage.ofPartial_of_header body hhead] at hstage
      rw [Shows, Register.of_stage_body hstage, List.reverse_reverse]
      exact ⟨hover, head, hhead, hcut, by omega, by omega, by omega, hmax⟩

/-- **A decoder's storage, and its progress.**  Let a parser be fed and reset in any order.  No slice of it is out of
range, it subtracts nothing below zero, and does not come to its unreachable branch; every turn of its loop takes a byte
or more, and a call takes at most one turn for each byte of its chunk.  All the time it is the decoder, and does what
the decoder does.  Between two calls its storage shows the frame that the stream since the last reset stands in: fewer
bytes than a header has, or at least one byte less than the length that the header says, which is from one byte up to
the limit; or it is poisoned, by a header that says more. -/
theorem never_faults (max : Nat) (calls : List DecoderCall) :
    ∃ parser, (fresh max).after calls = .ok parser ∧ parser.decoder = (Decoder.fresh max).after calls ∧
      parser.max = max ∧ parser.Shows (unframe max (Decoder.streamAfter [] calls)) ∧
      ∀ chunk, ∃ next parse, parser.feed chunk = .ok (next, parse) ∧ parse.turns ≤ chunk.length ∧
        parser.decoder.feed chunk = ⟨next.decoder, parse.ready, parse.answer 0⟩ := by
  have hsound : (fresh max).Sound := .inl (Register.waiting_start max)
  obtain ⟨parser, hafter, hparser, hdecoder⟩ := after_eq calls hsound
  obtain ⟨hmax, hfollows⟩ := (Decoder.follows_nil rfl : (Decoder.fresh max).Follows []).after calls
  have hsame : (fresh max).decoder = Decoder.fresh max := rfl
  rw [hsame] at hdecoder
  rw [← hdecoder] at hmax hfollows
  have hlimit : parser.max = max := hmax
  refine ⟨parser, hafter, hdecoder, hlimit, ?_, fun chunk => ?_⟩
  · rw [← hlimit]
    exact shows_of_follows hparser hfollows
  · obtain ⟨next, parse, hfeed, -, hturns, hsame⟩ := feed_eq hparser chunk
    exact ⟨next, parse, hfeed, hturns, hsame⟩

end Parser

end FramedLink
