import Mathlib.Algebra.Ring.Nat
import FramedLink.Proofs.Outbox.History
import FramedLink.Proofs.Session.Serving
import FramedLink.Proofs.Wire.Filling
/-!
# What a flush sends

A flush whose transmits are all taken sends the pending frames that its limit lets through, and not a byte more: joined,
and cut into pieces of the size of the transmit buffer (`pump_sends`).  The induction is on the bytes still to be sent;
one buffer is `Outbox.Step`, which says that the rest of the work is again that of a flush.

Main statement: the law of a flush (`flush_law`), for a tick and for a disconnect that flushes first.
-/
namespace FramedLink

variable {A : Application} {ι : Type}

/-- **A flush, said without its loop.**  Of the pending frames `before` it, those that the limit lets through went out
whole, in transmits that each fill the buffer, but for the last. -/
structure Session.Flushed (limit : Limit) (before after : Session ι) (transmits : List (List UInt8))
    (summary : TickSummary) : Prop where
  messages : summary.messages = limit.among before.outbox.pending.length
  sent : transmits.flatten = (before.outbox.pending.take summary.messages).flatten
  full : ∀ data ∈ transmits.dropLast, data.length = before.config.transmitBufferSize
  sizes : ∀ data ∈ transmits, 1 ≤ data.length ∧ data.length ≤ before.config.transmitBufferSize
  count : transmits.length =
    (transmits.flatten.length + (before.config.transmitBufferSize - 1)) / before.config.transmitBufferSize
  bytes : summary.bytes = transmits.flatten.length
  transmits : summary.transmits = transmits.length
  left : after.outbox.pending = before.outbox.pending.drop summary.messages
  whole : 1 ≤ summary.messages → ∃ payloads : List Payload, after.outbox.pending = payloads.map frame
  dispatched : after.outbox.dispatched = before.outbox.dispatched + summary.messages
  charged : after.outbox.charged + (before.outbox.pendingLengths.take summary.messages).sum = before.outbox.charged
  unchanged : after = { before.countTransmitted summary.bytes with outbox := after.outbox }

namespace Session

/-- Some frames at the front of the outbox went out whole: so many, and so many bytes. -/
structure Sent (frames bytes : Nat) (before after : Session ι) : Prop where
  sound : after.outbox.Sound
  backlog : after.outbox.backlog = before.outbox.backlog.drop frames
  dispatched : after.outbox.dispatched = before.outbox.dispatched + frames
  unchanged : after = { before.countTransmitted bytes with outbox := after.outbox, flushing := false }

end Session

namespace World

variable {id : SessionId} {limit : Limit}

theorem pump_of_reached (world : World A) (summary : TickSummary) (h : limit.isReached = true) :
    world.pump id limit summary = world.endFlush id (.ok summary) := by
  unfold pump
  rw [if_pos h]

theorem pump_of_drain {world : World A} {box : Outbox} {output : Output} (summary : TickSummary)
    (h : limit.isReached = false)
    (hdrain : (world.session id).outbox.drain (world.session id).config.transmitBufferSize limit = (box, .ok output)) :
    world.pump id limit summary =
      if output.bytes.isEmpty then
        (world.put id { world.session id with outbox := box }).endFlush id (.ok summary)
      else
        .ask (world.put id { world.session id with outbox := box }) (.transmit id output.bytes)
          ⟨id, limit, summary, output⟩ := by
  unfold pump
  rw [if_neg (by rw [h]; exact Bool.false_ne_true)]
  simp only [hdrain]

/-- A transmit that was taken: the flush is over if it did not fill the buffer. -/
theorem resume_done {world : World A} (flush : Flush) :
    flush.resume world .done =
      if flush.output.bytes.length < (world.session flush.id).config.transmitBufferSize then
        (world.modify flush.id (·.countTransmitted flush.output.bytes.length)).endFlush flush.id
          (.ok (flush.summary.add (.ofOutput flush.output)))
      else
        (world.modify flush.id (·.countTransmitted flush.output.bytes.length)).pump flush.id
          (flush.limit.less flush.output.completed) (flush.summary.add (.ofOutput flush.output)) := by
  unfold Flush.resume
  simp only [modify, session_put_self, Session.countTransmitted]

end World

theorem TickSummary.add_assoc (a b c : TickSummary) : (a.add b).add c = a.add (b.add c) := by
  simp only [add, Nat.add_assoc]

theorem TickSummary.zero_add (a : TickSummary) : TickSummary.add {} a = a := by
  simp only [add, Nat.zero_add]

/-- The summary of one buffer, and of what is sent behind it. -/
theorem Outbox.Step.add_ofOutput {limit : Limit} {room : Nat} {box after : Outbox} {output : Output}
    (h : box.Step limit room after output) (transmits : Nat) :
    (TickSummary.ofOutput output).add
        ⟨(after.allowed (limit.less output.completed)).length, after.quota (limit.less output.completed), transmits⟩
      = ⟨(box.allowed limit).length, box.quota limit, transmits + 1⟩ := by
  have hlength : output.bytes.length + (after.allowed (limit.less output.completed)).length
      = (box.allowed limit).length := by
    rw [h.allowed, h.bytes, ← List.length_append, List.take_append_drop]
  simp only [TickSummary.add, TickSummary.ofOutput, hlength, ← h.quota, Nat.add_comm]

/-- From here on a flush sends what its limit allows, in at most `n` transmits of `b` bytes. -/
def World.Sends (during : World A → World A) (id : SessionId) (b n : Nat)
    (activity : Activity A Flush (Except FlushError TickSummary)) (limit : Limit) (summary : TickSummary)
    (session : Session A.Identity) : Prop :=
  ∃ last,
    Activity.Serves (fun world flush => Flush.resume world flush .done) during id activity
      (pieces (List.replicate n b) (session.outbox.allowed limit))
      (.finish last (.ok (summary.add ⟨(session.outbox.allowed limit).length, session.outbox.quota limit,
        (pieces (List.replicate n b) (session.outbox.allowed limit)).length⟩))) ∧
    Session.Sent (session.outbox.quota limit) (session.outbox.allowed limit).length session (last.session id)

namespace World

variable {during : World A → World A} {id : SessionId} {limit : Limit} {b n : Nat} {summary : TickSummary}
  {session : Session A.Identity} {box : Outbox} {output : Output}

/-- A flush that is over because it may send nothing more. -/
theorem sends_of_end {world : World A} (hsession : world.session id = { session with outbox := box })
    (hsound : box.Sound) (hbacklog : box.backlog = session.outbox.backlog)
    (hdispatched : box.dispatched = session.outbox.dispatched) (hnone : session.outbox.allowed limit = []) :
    Sends during id b n (world.endFlush id (.ok summary)) limit summary session := by
  have hzero : session.outbox.quota limit = 0 := by
    have hsame : box.quota limit = session.outbox.quota limit := by rw [Outbox.quota, hbacklog, Outbox.quota]
    rw [← hsame]
    refine hsound.quota_eq_zero ?_
    rw [Outbox.allowed, hsame, hbacklog]
    exact hnone
  rw [Sends, hnone, hzero, pieces_nil]
  refine ⟨_, .ended _, ?_⟩
  rw [modify, session_put_self, hsession]
  exact ⟨hsound, hbacklog, hdispatched, rfl⟩

/-- A transmit that was taken, and what is sent behind it. -/
theorem sends_of_transmit {world : World A} (hstep : session.outbox.Step limit b box output)
    (hsome : session.outbox.allowed limit ≠ [])
    (h : Sends during id b n (Flush.resume (during world) ⟨id, limit, summary, output⟩ .done)
      (limit.less output.completed) (summary.add (.ofOutput output))
      ({ session with outbox := box }.countTransmitted output.bytes.length)) :
    Sends during id b (n + 1) (.ask world (.transmit id output.bytes) ⟨id, limit, summary, output⟩) limit summary
      session := by
  obtain ⟨last, hserves, hsent⟩ := h
  have hlength : output.bytes.length + (box.allowed (limit.less output.completed)).length
      = (session.outbox.allowed limit).length := by
    rw [hstep.allowed, hstep.bytes, ← List.length_append, List.take_append_drop]
  have hbox :
      (({ session with outbox := box } : Session A.Identity).countTransmitted output.bytes.length).outbox = box := rfl
  rw [hbox] at hserves hsent
  refine ⟨last, ?_, hsent.sound, ?_, ?_, ?_⟩
  · rw [List.replicate_succ, pieces_cons hsome, ← hstep.bytes, ← hstep.allowed]
    rw [TickSummary.add_assoc, hstep.add_ofOutput] at hserves
    exact .transmit hserves
  · rw [hsent.backlog]
    exact hstep.backlog
  · rw [hsent.dispatched, ← hstep.quota]
    simp only [Session.countTransmitted, hstep.dispatched]
    omega
  · rw [hsent.unchanged, ← hlength]
    simp only [Session.countTransmitted, Nat.add_assoc]

/-- **The loop of a flush** sends what its limit allows. -/
theorem pump_sends (hb : 1 ≤ b) (hduring : ∀ world, (during world).session id = world.session id) :
    ∀ (n : Nat) (world : World A) (limit : Limit) (summary : TickSummary) (session : Session A.Identity),
      world.session id = session → session.outbox.Sound → session.config.transmitBufferSize = b →
      (session.outbox.allowed limit).length ≤ n →
      Sends during id b n (world.pump id limit summary) limit summary session
  | n, world, limit, summary, session, hsession, hsound, hsize, hn => by
    cases hlimit : limit.isReached with
    | true =>
      rw [pump_of_reached world summary hlimit]
      exact sends_of_end hsession hsound rfl rfl (session.outbox.allowed_of_isReached hlimit)
    | false =>
      obtain ⟨box, output, hdrain, hstep⟩ := Outbox.drain_step b hsound hlimit
      rw [pump_of_drain summary hlimit (by rw [hsession, hsize]; exact hdrain), hsession]
      by_cases hnone : session.outbox.allowed limit = []
      · obtain ⟨hbytes, hcompleted, hbacklog⟩ := hstep.last (by rw [hnone]; exact Nat.zero_le b)
        have hdispatched := hstep.dispatched
        rw [hcompleted] at hdispatched
        rw [hsound.quota_eq_zero hnone] at hdispatched hbacklog
        rw [hbytes, hnone]
        exact sends_of_end (session_put_self _ _ _) hstep.sound hbacklog hdispatched hnone
      · have hpiece : output.bytes ≠ [] := by
          rw [hstep.bytes, Ne, List.take_eq_nil_iff]
          exact fun h => h.elim (by omega) hnone
        rw [if_neg (by rwa [List.isEmpty_iff])]
        cases n with
        | zero => exact absurd (List.eq_nil_of_length_eq_zero (Nat.le_zero.1 hn)) hnone
        | succ n =>
          refine sends_of_transmit hstep hnone ?_
          have hmiddle : (during (world.put id { session with outbox := box })).session id
              = { session with outbox := box } := (hduring _).trans (session_put_self _ _ _)
          rw [resume_done, modify, hmiddle]
          have hleft := hstep.allowed
          by_cases hfull : output.bytes.length < b
          · -- The buffer was not filled, so nothing is left.
            rw [if_pos (by rw [hsize]; exact hfull)]
            refine sends_of_end (session_put_self _ _ _) hstep.sound rfl rfl (hleft.trans ?_)
            rw [hstep.bytes, List.length_take] at hfull
            exact List.drop_of_length_le (by omega)
          · rw [if_neg (by rw [hsize]; exact hfull)]
            refine pump_sends hb hduring n _ _ _ _ (session_put_self _ _ _) hstep.sound hsize ?_
            have hless : (box.allowed (limit.less output.completed)).length ≤ n := by
              rw [hleft, List.length_drop]
              omega
            exact hless

theorem beginFlush_sends {world : World A} (hsession : world.session id = session)
    (hb : 1 ≤ session.config.transmitBufferSize) (hduring : ∀ world, (during world).session id = world.session id)
    (hconnected : session.state = .connected) (hsound : session.outbox.Sound) (limit : Limit) :
    Sends during id session.config.transmitBufferSize (session.outbox.allowed limit).length
      (world.beginFlush id limit) limit {} { session with flushing := true } := by
  unfold beginFlush
  rw [hsession, if_pos hconnected, modify, hsession]
  exact pump_sends hb hduring _ _ limit {} _ (session_put_self _ _ _) hsound rfl (Nat.le_refl _)

theorem tick_of_idle {world : World A} (hsession : world.session id = session) (hidle : session.flushing = false) :
    world.tick id = world.beginFlush id (some session.config.maxMessagesPerTick) := by
  unfold tick
  rw [hsession, hidle, if_neg Bool.false_ne_true]

theorem disconnect_of_idle {world : World A} (reason : DisconnectReason) (hsession : world.session id = session)
    (hconnected : session.state = .connected) (hidle : session.flushing = false) :
    world.disconnect id reason true =
      ((world.put id (session.noteReason reason)).beginFlush id none).andThen (.flushing id reason)
        fun world _ => world.leave id reason := by
  have hnoted : ((world.put id (session.noteReason reason)).session id).flushing = false := by
    rw [session_put_self]
    exact hidle
  simp only [disconnect, modify, hsession, hconnected, ConnectionState.isClosing, Bool.true_and, decide_true,
    Bool.false_eq_true, if_false, if_true, flushFully, hnoted]

end World

/-! ## The law -/

namespace Outbox

/-- Behind the first pending frame there are only whole ones. -/
theorem drop_pending (box : Outbox) {k : Nat} (hk : 1 ≤ k) : ∃ payloads : List Payload,
    box.pending.drop k = payloads.map frame := by
  obtain ⟨j, rfl⟩ := Nat.exists_eq_add_of_le' hk
  unfold pending
  cases box.encoder.held with
  | none => exact ⟨box.waiting.drop (j + 1), List.map_drop.symm⟩
  | some held => exact ⟨box.waiting.drop j, List.map_drop.symm⟩

end Outbox

/-- What was sent of an outbox, in the terms of the law. -/
theorem Session.Sent.flushed {before after : Session ι} {limit : Limit} {b n : Nat} {summary : TickSummary}
    (hb : 1 ≤ b) (hsize : before.config.transmitBufferSize = b) (hidle : before.flushing = false)
    (hsound : before.outbox.Sound) (hn : (before.outbox.allowed limit).length ≤ n)
    (h : Session.Sent (before.outbox.quota limit) (before.outbox.allowed limit).length
      { before with flushing := true } after)
    (hsummary : summary = ⟨(before.outbox.allowed limit).length, before.outbox.quota limit,
      (pieces (List.replicate n b) (before.outbox.allowed limit)).length⟩) :
    before.Flushed limit after (pieces (List.replicate n b) (before.outbox.allowed limit)) summary := by
  have hroom : (before.outbox.allowed limit).length ≤ n * b := Nat.le_trans hn (Nat.le_mul_of_pos_right n hb)
  have hjoined : (pieces (List.replicate n b) (before.outbox.allowed limit)).flatten = before.outbox.allowed limit :=
    flatten_pieces _ _ (by rwa [List.sum_replicate_nat])
  have hlength : before.outbox.pending.length = before.outbox.backlog.length := by
    rw [Outbox.pending_eq, List.length_map]
  have hleft : after.outbox.pending = before.outbox.pending.drop (before.outbox.quota limit) := by
    rw [Outbox.pending_eq, h.backlog, Outbox.pending_eq, List.map_drop]
  rw [hsummary]
  refine { messages := ?_, sent := ?_, full := ?_, sizes := ?_, count := ?_, bytes := ?_, transmits := rfl,
           left := hleft, whole := ?_, dispatched := h.dispatched, charged := ?_, unchanged := ?_ }
  · exact congrArg limit.among hlength.symm
  · rw [hjoined]
    exact (before.outbox.flatten_take_pending _).symm
  · rw [hsize]
    exact length_of_mem_dropLast_pieces hroom
  · rw [hsize]
    exact length_of_mem_pieces hb n _
  · rw [hjoined, hsize]
    exact length_pieces_replicate hb n _ hroom
  · rw [hjoined]
  · intro hsome
    rw [hleft]
    exact before.outbox.drop_pending hsome
  · rw [h.sound.charged, h.backlog, hsound.charged, Outbox.pendingLengths_eq, List.map_drop, Nat.add_comm,
      ← List.sum_append, List.take_append_drop]
  · rw [h.unchanged]
    simp only [countTransmitted, hidle]

namespace Machine

variable {machine : Machine A} {id : SessionId} {during : World A → World A} {session : Session A.Identity} {b : Nat}

/-- **The law of a flush.**  Take a connected session with a transmit buffer of at least one byte, whose outbox any
calls have led to and which is not being flushed, and a transport that takes all it is given and leaves the session
alone meanwhile.  Then a tick comes to its end, and so does the flush of a disconnect, which goes on to leave the
connection; and each has sent exactly the pending frames that its limit lets through. -/
theorem flush_law {cap : Nat} {calls : List OutboxCall} (reason : DisconnectReason)
    (hknown : machine.world.knows id = true) (hsession : machine.world.session id = session)
    (hduring : ∀ world, (during world).session id = world.session id) (hconnected : session.state = .connected)
    (hidle : session.flushing = false) (hbuffer : 1 ≤ session.config.transmitBufferSize)
    (houtbox : session.outbox = (Outbox.ofCap cap).after calls) (hcalls : ∀ call ∈ calls, call.IsDescribable) :
    (∃ (last : World A) (transmits : List (List UInt8)) (summary : TickSummary),
      machine.CallServes during id (.tick id) transmits (⟨last, machine.waiting⟩, .answers (.flushed (.ok summary))) ∧
      session.Flushed (some session.config.maxMessagesPerTick) (last.session id) transmits summary) ∧
    (∃ (last : World A) (transmits : List (List UInt8)) (summary : TickSummary) (reached : Machine A × Signal A),
      machine.CallServes during id (.disconnect id reason true) transmits reached ∧
      settle machine.waiting (Call.wrap (last.leave id reason) .disconnect fun _ => .nothing) = some reached ∧
      (session.noteReason reason).Flushed none (last.session id) transmits summary) := by
  have hsound : session.outbox.Sound := houtbox ▸ Outbox.sound_after cap hcalls
  constructor
  · obtain ⟨last, hserves, hsent⟩ := World.beginFlush_sends hsession hbuffer hduring hconnected hsound
      (some session.config.maxMessagesPerTick)
    rw [← World.tick_of_idle hsession hidle] at hserves
    refine ⟨last, _, _, callServes_of_begin hknown hserves.tick rfl, ?_⟩
    exact hsent.flushed hbuffer rfl hidle hsound (Nat.le_refl _) (TickSummary.zero_add _)
  · obtain ⟨last, hserves, hsent⟩ := World.beginFlush_sends
      (World.session_put_self machine.world id (session.noteReason reason)) hbuffer hduring hconnected hsound none
    obtain ⟨reached, hreached⟩ := exists_settle machine.waiting Suspended.disconnect (fun _ => .nothing)
      (last.leave_ne_stuck id reason)
    have hcall := hserves.disconnect reason
    rw [← World.disconnect_of_idle reason hsession hconnected hidle] at hcall
    have hlaw : (session.noteReason reason).Flushed none (last.session id) _ _ :=
      hsent.flushed hbuffer rfl hidle hsound (Nat.le_refl _) rfl
    exact ⟨last, _, _, reached, callServes_of_begin hknown hcall hreached, hreached, hlaw⟩

/-- A session that holds the rest of a frame, and two payloads behind it. -/
def halfSent : Session Unit where
  id := ⟨1⟩
  config := { maxMessagesPerTick := 2, transmitBufferSize := 4 }
  state := .connected
  outbox := (Outbox.ofCap 100).after
    [.enqueue [1, 2, 3], .enqueue [4, 5], .flush [0, 0, 0, 0, 0] 0 none, .enqueue [6]]

theorem flush_law_halfSent : ∃ (last : World .bare) (transmits : List (List UInt8)) (summary : TickSummary),
    CallServes (·.addObserver ()) ⟨1⟩ ⟨.ofSession halfSent, []⟩ (.tick ⟨1⟩) transmits
      (⟨last, []⟩, .answers (.flushed (.ok summary))) ∧
      halfSent.Flushed (some 2) (last.session ⟨1⟩) transmits summary :=
  And.left (flush_law .requested rfl rfl (fun _ => rfl) rfl rfl (by decide) rfl (by decide))

end Machine

end FramedLink
