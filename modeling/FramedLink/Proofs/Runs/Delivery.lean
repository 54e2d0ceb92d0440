import FramedLink.Proofs.Outbox.History
import FramedLink.Proofs.Runs.Transcript
import FramedLink.Proofs.Session.Receiving
/-!
# From one end to the other

As long as the outbox of a session is open, what has been handed to the transport, followed by what is still unsent, is
the frames of all payloads accepted so far; once it is closed, what was handed over stays a front of them
(`Session.Carries`).  Every edit of a world keeps this, so it holds along every run, however calls nest.

Main statement: a session at the other end that has just connected makes of the bytes transmitted so far, in any chunks,
the accepted payloads whose frames are complete in them (`Machine.delivery`).
-/
namespace FramedLink

variable {A : Application} {ι : Type}

/-! ## The invariant -/

/-- The outgoing stream of a session with fixed limits: what it has sent, and what it has accepted. -/
structure Session.Carries (config : SessionConfig) (sent : List UInt8) (accepted : List Payload) (session : Session ι) :
    Prop where
  limits : session.config = config
  sound : session.outbox.Sound
  opened : session.outbox.closed = false → sent ++ unsentOf session.outbox.backlog = frames accepted
  sent : sent <+: frames accepted
  fits : ∀ payload ∈ accepted, payload.length ≤ config.maxMessageSize

namespace Session

theorem carries_start (id : SessionId) (config : SessionConfig) : (start id config : Session ι).Carries config [] [] :=
  ⟨rfl, Outbox.sound_ofCap _, fun _ => rfl, List.nil_prefix, fun _ h => absurd h List.not_mem_nil⟩

theorem enqueue_of_refused {session : Session ι} {payload : Payload} (h : (session.enqueue payload).2 = false) :
    (session.enqueue payload).1 = session := by
  unfold enqueue at h ⊢
  split
  · rfl
  · rename_i hopen
    rw [if_neg hopen] at h
    split
    · rfl
    · rename_i hshort
      rw [if_neg hshort] at h
      have hrefused : session.outbox.admits payload.length = false := by
        rw [← Outbox.enqueue_snd]
        exact h
      simp only [Outbox.enqueue_of_refused hrefused]

theorem enqueue_of_accepted {session : Session ι} {payload : Payload} (h : (session.enqueue payload).2 = true) :
    payload.length ≤ session.config.maxMessageSize ∧ session.outbox.admits payload.length = true ∧
      (session.enqueue payload).1 = { session with outbox := (session.outbox.enqueue payload).1 } := by
  unfold enqueue at h ⊢
  split
  · rename_i hclosing
    rw [if_pos hclosing] at h
    cases h
  · rename_i hopen
    rw [if_neg hopen] at h
    split
    · rename_i hlong
      rw [if_pos hlong] at h
      cases h
    · rename_i hshort
      rw [if_neg hshort] at h
      refine ⟨Nat.le_of_not_lt hshort, ?_, rfl⟩
      rw [← Outbox.enqueue_snd]
      exact h

namespace Carries

variable {config : SessionConfig} {sent : List UInt8} {accepted : List Payload} {session next : Session ι}

theorem same (h : session.Carries config sent accepted) (hconfig : next.config = session.config)
    (hbox : next.outbox = session.outbox) : next.Carries config sent accepted := by
  refine ⟨hconfig.trans h.limits, ?_, ?_, h.sent, h.fits⟩
  · rw [hbox]
    exact h.sound
  · rw [hbox]
    exact h.opened

theorem close (h : session.Carries config sent accepted) :
    ({ session with outbox := session.outbox.close } : Session ι).Carries config sent accepted := by
  refine ⟨h.limits, h.sound.close, fun hopened => ?_, h.sent, h.fits⟩
  have hclosed : session.outbox.close.closed = true := by
    unfold Outbox.close
    split
    · assumption
    · rfl
  rw [hclosed] at hopened
  cases hopened

theorem enqueue (h : session.Carries config sent accepted) (hsize : config.maxMessageSize < lengthLimit)
    (payload : Payload) :
    (session.enqueue payload).1.Carries config sent
      (accepted ++ (Deed.ofAnswer payload (session.enqueue payload).2).flatMap Deed.payloads) := by
  cases hanswer : (session.enqueue payload).2 with
  | false =>
    rw [enqueue_of_refused hanswer, Deed.ofAnswer, if_neg Bool.false_ne_true, List.flatMap_nil, List.append_nil]
    exact h
  | true =>
    obtain ⟨hlength, hadmits, heq⟩ := enqueue_of_accepted hanswer
    rw [h.limits] at hlength
    have hframes : frames accepted ++ frame payload = frames (accepted ++ [payload]) := by
      rw [frames, frames, List.flatMap_append, List.flatMap_singleton]
    have hpayloads : (Deed.ofAnswer payload true).flatMap Deed.payloads = [payload] := rfl
    rw [heq, hpayloads]
    refine ⟨h.limits, h.sound.enqueue (Nat.lt_of_le_of_lt hlength hsize), fun hopened => ?_, ?_, ?_⟩
    · have hbefore : session.outbox.closed = false := by
        rw [Outbox.enqueue, if_pos hadmits] at hopened
        exact hopened
      rw [Outbox.backlog_enqueue hadmits, unsentOf_append, ← List.append_assoc, h.opened hbefore, ← hframes]
      exact congrArg _ (List.append_nil _)
    · exact h.sent.trans ⟨frame payload, hframes⟩
    · intro p hp
      rcases List.mem_append.1 hp with hp | hp
      · exact h.fits p hp
      · rw [List.mem_singleton.1 hp]
        exact hlength

theorem drain (h : session.Carries config sent accepted) {limit : Limit} {room : Nat} {box : Outbox} {output : Output}
    (hdrain : session.outbox.drain room limit = (box, .ok output)) :
    ({ session with outbox := box } : Session ι).Carries config (sent ++ output.bytes) accepted := by
  obtain ⟨_, _, heq, hdrained, hsound, -, hclosed, -⟩ := Outbox.drain_eq room limit h.sound
  rw [heq] at hdrain
  cases hdrain
  have hunsent := hdrained.unsent
  have hempty : session.outbox.closed = true → output.bytes = [] := by
    intro hshut
    rw [h.sound.emptied hshut, unsentOf_nil, List.append_eq_nil_iff] at hunsent
    exact hunsent.1
  have hopened : session.outbox.closed = false → sent ++ output.bytes ++ unsentOf box.backlog = frames accepted := by
    intro hopen
    rw [List.append_assoc, hunsent]
    exact h.opened hopen
  refine ⟨h.limits, hsound, fun hopen => hopened (hclosed ▸ hopen), ?_, h.fits⟩
  cases hshut : session.outbox.closed with
  | true =>
    rw [hempty hshut, List.append_nil]
    exact h.sent
  | false => exact ⟨_, hopened hshut⟩

/-- **Every edit keeps the stream**, unless outside code takes the outbox in its own hands. -/
theorem edit (h : session.Carries config sent accepted) (hsize : config.maxMessageSize < lengthLimit)
    {deeds : List Deed} (hdirect : .direct ∉ deeds) (hedit : session.Edit deeds next) :
    next.Carries config (sent ++ deeds.flatMap Deed.bytes) (accepted ++ deeds.flatMap Deed.payloads) := by
  have hsame : ∀ {other : Session ι}, other.config = session.config → other.outbox = session.outbox →
      other.Carries config (sent ++ []) (accepted ++ []) := by
    intro other hconfig hbox
    rw [List.append_nil, List.append_nil]
    exact h.same hconfig hbox
  have hclose : ({ session with outbox := session.outbox.close } : Session ι).Carries config (sent ++ [])
      (accepted ++ []) := by
    rw [List.append_nil, List.append_nil]
    exact h.close
  cases hedit with
  | @enter target _ =>
    unfold Session.enter
    split
    · exact hclose.same rfl rfl
    · exact hsame rfl rfl
  | authenticate identity =>
    unfold Session.authenticate
    split
    · exact hsame rfl rfl
    · split
      · exact hsame rfl rfl
      · exact hsame rfl rfl
  | noteReason reason => exact hsame rfl rfl
  | enqueue payload =>
    have hnone : (Deed.ofAnswer payload (session.enqueue payload).2).flatMap Deed.bytes = [] := by
      unfold Deed.ofAnswer
      split <;> rfl
    rw [hnone, List.append_nil]
    exact h.enqueue hsize payload
  | flushing on => exact hsame rfl rfl
  | drain hdrain =>
    rw [bytes_ofOutput, payloads_ofOutput, List.append_nil]
    exact h.drain hdrain
  | drainFails hfails =>
    obtain ⟨_, _, heq, -⟩ := Outbox.drain_eq session.config.transmitBufferSize _ h.sound
    rw [heq] at hfails
    cases hfails
  | countTransmitted bytes => exact hsame rfl rfl
  | receive chunk =>
    unfold Session.receive
    split
    · cases hanswer : (session.decoder.feed chunk).answer with
      | error e =>
        simp only [hanswer]
        exact hsame rfl rfl
      | ok count =>
        simp only [hanswer]
        exact hsame rfl rfl
    · exact hsame rfl rfl
  | countHandled => exact hsame rfl rfl
  | outboxEnqueue payload => exact absurd (List.mem_singleton.2 rfl) hdirect
  | outboxFlush buffer offset limit => exact absurd (List.mem_singleton.2 rfl) hdirect
  | outboxClose => exact hclose

end Carries

end Session

/-- The stream of one session in a world, as the marks so far say. -/
def World.Carries (id : SessionId) (config : SessionConfig) (past : List Mark) (world : World A) : Prop :=
  id.number < world.ids.next ∧
    (.direct ∉ deedsOf id past →
      (world.session id).Carries config ((deedsOf id past).flatMap Deed.bytes)
        ((deedsOf id past).flatMap Deed.payloads))

/-- **Every edit of a world keeps the stream of a session**, also those of other sessions: no session is started under
an id that was given out before. -/
theorem World.Carries.edit {id : SessionId} {config : SessionConfig} (hsize : config.maxMessageSize < lengthLimit)
    {past marks : List Mark} {world next : World A} (h : world.Carries id config past) (hedit : world.Edit marks next) :
    next.Carries id config (past ++ marks) := by
  obtain ⟨hissued, hstream⟩ := h
  have hsame : ∀ {other : World A}, other.ids = world.ids → other.session id = world.session id →
      other.Carries id config (past ++ []) := by
    intro other hids hsession
    rw [List.append_nil]
    exact ⟨by rw [hids]; exact hissued, by rw [hsession]; exact hstream⟩
  cases hedit with
  | @session other deeds next hedit =>
    refine ⟨hissued, ?_⟩
    rw [deedsOf_append]
    by_cases hother : other = id
    · subst hother
      rw [deedsOf_map, if_pos rfl, session_put_self, List.flatMap_append, List.flatMap_append, List.mem_append, not_or]
      rintro ⟨hpast, hnow⟩
      exact (hstream hpast).edit hsize hnow hedit
    · rw [deedsOf_map, if_neg hother, List.append_nil, session_put_of_ne _ _ hother]
      exact hstream
  | addObserver observer => exact hsame rfl rfl
  | openSession =>
    unfold World.openSession
    split
    · exact hsame rfl rfl
    · split
      · exact hsame rfl rfl
      · have hnew : (⟨world.ids.next⟩ : SessionId) ≠ id := by
          rintro rfl
          exact Nat.lt_irrefl _ hissued
        rw [List.append_nil]
        refine ⟨Nat.lt_succ_of_lt hissued, fun hpast => ?_⟩
        have hstill := hstream hpast
        rw [← session_put_of_ne world (.start ⟨world.ids.next⟩ world.config.session) hnew] at hstill
        exact hstill
  | forget id => exact hsame rfl rfl
  | shutDown => exact hsame rfl rfl
  | setLoop number loop => exact hsame rfl rfl
  | startLoop now => exact hsame rfl rfl

/-! ## The law -/

namespace Machine

/-- **End-to-end delivery.**  Take any run of a machine in which a session has just been started: any calls in any order,
also from within handlers, observers and transports, and any replies, as long as nothing goes to the outbox or comes out
of it but through the session.  Then all data handed to the transport for this session is a front of the frames of the
payloads accepted, in their order.  And a session at the other end that has just connected, and accepts payloads as long
as this one sends, takes these bytes in any chunks, and the payloads that it gives are those whose frames are complete in
them. -/
theorem delivery {machine last : Machine A} {moves : List (Move A)} {events : List (Event A)} {id : SessionId}
    {config : SessionConfig} (hrun : machine.run moves = some (last, events))
    (hstart : machine.world.session id = .start id config) (hissued : id.number < machine.world.ids.next)
    (hsize : config.maxMessageSize < lengthLimit)
    (hdirect : ∀ call, .call call ∈ moves → call.isDirect id = false) :
    transmitted id events <+: frames (accepted id events) ∧
    ∀ {ι : Type} (receiver : Session ι) (chunks : List (List UInt8)),
      receiver.state = .connected → receiver.decoder = .fresh receiver.config.maxMessageSize →
      config.maxMessageSize ≤ receiver.config.maxMessageSize → chunks.flatten = transmitted id events →
      ∃ batches : List (List Payload), receiver.receipts chunks = batches.map .ok ∧
        batches.flatten = wholeWithin (transmitted id events).length (accepted id events) := by
  obtain ⟨hbytes, hpayloads, hcall⟩ := deeds_of_events id events
  have hbegin : machine.world.Carries id config [] := by
    refine ⟨hissued, fun _ => ?_⟩
    rw [hstart]
    exact Session.carries_start id config
  have hend := (run_edits moves hrun).invariant (fun h hedit => h.edit hsize hedit) hbegin
  rw [List.nil_append] at hend
  have hnone : .direct ∉ deedsOf id (events.flatMap Event.marks) := by
    intro hmem
    obtain ⟨call, signal, hevent, hcalled⟩ := hcall hmem
    rw [hdirect call (call_mem_moves moves hrun call signal hevent)] at hcalled
    cases hcalled
  have hcarries := hend.2 hnone
  rw [hbytes, hpayloads] at hcarries
  refine ⟨hcarries.sent, fun receiver chunks hconnected hfresh hmax hchunks => ?_⟩
  rw [← hchunks]
  refine Session.receipts_of_cut hconnected hfresh (fun payload hmem => ?_) (hchunks ▸ hcarries.sent)
  have hshort := hcarries.fits payload hmem
  exact ⟨Nat.le_trans hshort hmax, Nat.lt_of_le_of_lt hshort hsize⟩

/-- A run in which the transport enqueues while it transmits, and in which a disconnect discards what waits. -/
def reentrant : List (Move .bare) :=
  [.call (.transition ⟨1⟩ .connected), .call (.enqueue ⟨1⟩ [1, 2, 3]), .call (.tick ⟨1⟩), .call (.enqueue ⟨1⟩ [4]),
    .reply .done, .reply .done, .call (.disconnect ⟨1⟩ .requested false), .reply .done]

theorem delivery_reentrant :
    ∃ (last : Machine .bare) (events : List (Event .bare)),
      (⟨.ofSession (.start ⟨1⟩ { maxMessageSize := 4, maxMessagesPerTick := 1, transmitBufferSize := 5 }), []⟩ :
        Machine .bare).run reentrant = some (last, events) ∧ accepted ⟨1⟩ events = [[1, 2, 3], [4]] ∧
      ∃ batches : List (List Payload),
        ({ Session.start ⟨2⟩ {} with state := .connected } : Session Unit).receipts [[3, 0], [], [0, 0, 1, 2], [3]]
          = batches.map .ok ∧ batches.flatten = [[1, 2, 3]] := by
  have hdirect : ∀ call, Move.call call ∈ reentrant → call.isDirect ⟨1⟩ = false := by
    intro call h
    simp only [reentrant, List.mem_cons, List.not_mem_nil, or_false, Move.call.injEq, reduceCtorEq, false_or] at h
    rcases h with rfl | rfl | rfl | rfl | rfl <;> rfl
  obtain ⟨last, events, hrun, haccepted, hsent⟩ :
      ∃ (last : Machine .bare) (events : List (Event .bare)),
        (⟨.ofSession (.start ⟨1⟩ { maxMessageSize := 4, maxMessagesPerTick := 1, transmitBufferSize := 5 }), []⟩ :
          Machine .bare).run reentrant = some (last, events) ∧ accepted ⟨1⟩ events = [[1, 2, 3], [4]] ∧
        transmitted ⟨1⟩ events = frame [1, 2, 3] := ⟨_, _, rfl, rfl, rfl⟩
  obtain ⟨batches, hreceipts, hjoined⟩ := (delivery hrun rfl (by decide) (by decide) hdirect).2
    ({ Session.start ⟨2⟩ {} with state := .connected } : Session Unit) [[3, 0], [], [0, 0, 1, 2], [3]] rfl rfl
    (by decide) hsent.symm
  rw [hsent, haccepted] at hjoined
  exact ⟨last, events, hrun, haccepted, batches, hreceipts, hjoined⟩

end Machine

end FramedLink
