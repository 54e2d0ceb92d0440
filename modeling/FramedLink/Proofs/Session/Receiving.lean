import FramedLink.Proofs.Wire.Chunking
import FramedLink.Session.Basic
/-!
# What a session makes of a stream

A session that has just connected receives a stream in chunks of any sizes.  If the stream is the front of some frames
that it accepts, cut off anywhere, then it takes every chunk, and what the chunks give, joined, is the payloads of those
frames that are complete (`receipts_of_cut`).
-/
namespace FramedLink

/-- The payloads whose frames, one behind the other, end within the first `n` bytes. -/
def wholeWithin : Nat → List Payload → List Payload
  | _, [] => []
  | n, payload :: rest =>
    if (frame payload).length ≤ n then payload :: wholeWithin (n - (frame payload).length) rest else []

/-- What a session gives for one chunk after the other. -/
def Session.receipts {ι : Type} (session : Session ι) : List (List UInt8) → List (Except DecoderError (List Payload))
  | [] => []
  | chunk :: chunks => (session.receive chunk).2 :: (session.receive chunk).1.receipts chunks

/-- A stream that breaks off within a frame shows no payload of it, and no fault. -/
theorem unframe_of_broken {max : Nat} {payload : Payload} {stream more : List UInt8} (h : Fits max payload)
    (hfront : frame payload = stream ++ more) (hmore : more ≠ []) :
    (unframe max stream).payloads = [] ∧ (unframe max stream).oversized = none := by
  have hwhole : unframe max (stream ++ more) = ⟨[payload], [], none⟩ := by
    have hframes := unframe_frames (List.forall_mem_singleton.2 h)
    rwa [frames_cons, frames_nil, List.append_nil, hfront] at hframes
  refine ⟨?_, oversized_front (by rw [hwhole])⟩
  have hcut := congrArg Unframed.payloads (unframe_append max stream more)
  rw [hwhole] at hcut
  cases hpayloads : (unframe max stream).payloads with
  | nil => rfl
  | cons other rest =>
    -- The payload of the frame would be there, and its frame would be within the stream.
    rw [hpayloads, List.cons_append, List.cons.injEq] at hcut
    have hlength := congrArg List.length (frames_unframe max stream)
    rw [hpayloads, ← hcut.1, frames_cons, hfront] at hlength
    simp only [List.length_append] at hlength
    have hpos := List.length_pos_iff.2 hmore
    omega

/-- **The front of some frames**, cut off anywhere, shows the payloads of those that are whole, and no fault. -/
theorem unframe_of_cut {max : Nat} : ∀ (payloads : List Payload) (stream : List UInt8),
    (∀ payload ∈ payloads, Fits max payload) → stream <+: frames payloads →
    (unframe max stream).payloads = wholeWithin stream.length payloads ∧ (unframe max stream).oversized = none
  | [], stream, _, hpre => by
    obtain rfl : stream = [] := List.prefix_nil.1 hpre
    rw [unframe_of_short (by decide)]
    exact ⟨rfl, rfl⟩
  | payload :: payloads, stream, hall, hpre => by
    obtain ⟨hpayload, hpayloads⟩ := List.forall_mem_cons.1 hall
    rw [frames_cons] at hpre
    by_cases hlong : (frame payload).length ≤ stream.length
    · obtain ⟨rest, rfl⟩ := List.prefix_of_prefix_length_le (List.prefix_append _ _) hpre hlong
      have hrest := (List.prefix_append_right_inj _).1 hpre
      obtain ⟨hlater, hfault⟩ := unframe_of_cut payloads rest hpayloads hrest
      rw [unframe_frame_append rest hpayload, wholeWithin, if_pos hlong, List.length_append, Nat.add_sub_cancel_left,
        hlater]
      exact ⟨rfl, hfault⟩
    · have hshort : stream.length ≤ (frame payload).length := Nat.le_of_not_le hlong
      obtain ⟨more, hmore⟩ := List.prefix_of_prefix_length_le hpre (List.prefix_append _ _) hshort
      have hne : more ≠ [] := by
        rintro rfl
        rw [List.append_nil] at hmore
        exact hlong (Nat.le_of_eq (congrArg List.length hmore.symm))
      obtain ⟨hnone, hfault⟩ := unframe_of_broken hpayload hmore.symm hne
      rw [wholeWithin, if_neg hlong]
      exact ⟨hnone, hfault⟩

namespace Session

variable {ι : Type}

theorem receipts_of_follows : ∀ (chunks : List (List UInt8)) {session : Session ι} {stream : List UInt8},
    session.state = .connected → session.decoder.Follows stream →
    (unframe session.decoder.max (stream ++ chunks.flatten)).oversized = none →
    session.receipts chunks = (session.decoder.intakes chunks).map fun intake => .ok intake.ready
  | [], _, _, _, _, _ => rfl
  | chunk :: chunks, session, stream, hconnected, hfollows, hok => by
    rw [List.flatten_cons, ← List.append_assoc] at hok
    have hafter := oversized_front hok
    have hanswer : (session.decoder.feed chunk).answer = .ok (session.decoder.feed chunk).ready.length := by
      rw [(Decoder.feed_of_follows hfollows chunk).2.2, oversized_front hafter, Unframed.answer, hafter]
      rfl
    have hreceive : session.receive chunk =
        (({ session with decoder := (session.decoder.feed chunk).decoder } : Session ι).countReceived chunk.length
          (session.decoder.feed chunk).ready.length, .ok (session.decoder.feed chunk).ready) := by
      simp only [receive, hconnected, if_true, hanswer]
    rw [receipts, hreceive, Decoder.intakes, List.map_cons]
    refine congrArg _ (receipts_of_follows chunks hconnected (hfollows.feed chunk) ?_)
    rw [← hfollows.max_feed chunk] at hok
    exact hok

/-- **A session that has just connected** takes every chunk of the front of some frames that it accepts, and gives the
payloads of those that are whole. -/
theorem receipts_of_cut {session : Session ι} {payloads : List Payload} {chunks : List (List UInt8)}
    (hconnected : session.state = .connected) (hfresh : session.decoder = .fresh session.config.maxMessageSize)
    (hfits : ∀ payload ∈ payloads, Fits session.config.maxMessageSize payload)
    (hpre : chunks.flatten <+: frames payloads) :
    ∃ batches : List (List Payload), session.receipts chunks = batches.map .ok ∧
      batches.flatten = wholeWithin chunks.flatten.length payloads := by
  have hmax : session.decoder.max = session.config.maxMessageSize := by rw [hfresh]; rfl
  have hstart : session.decoder.Follows [] := Decoder.follows_nil (by rw [hfresh]; rfl)
  obtain ⟨hwhole, hok⟩ := unframe_of_cut payloads chunks.flatten hfits hpre
  rw [← hmax] at hwhole hok
  obtain ⟨-, -, hready, -⟩ := hstart.afterChunks chunks
  rw [List.nil_append, hwhole, unframe_of_short (by decide), List.nil_append] at hready
  refine ⟨(session.decoder.intakes chunks).map Intake.ready, ?_, ?_⟩
  · rw [receipts_of_follows chunks hconnected hstart (by rwa [List.nil_append]), List.map_map]
    rfl
  · rw [hready, List.flatMap_def]

end Session
end FramedLink
