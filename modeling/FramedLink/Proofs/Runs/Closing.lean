import FramedLink.Proofs.Runs.Delivery
/-!
# How a session ends

No edit of a world takes a session back to an earlier state, and every edit leaves a closing session with a closed
outbox and a decoder at its start (`Session.Tidy`).  So this holds at every point of a run at which outside code acts,
also in the middle of a transmit.

Main statement: a session enters each state at most once, upwards; in a closing one nothing is left to be sent or
decoded, and calls on it are answered at once and change nothing (`Machine.closing_final`).
-/
namespace FramedLink

variable {A : Application} {ι : Type}

/-! ## One session among the edits of a world -/

namespace World

variable {id : SessionId} {world next last : World A} {marks : List Mark}

/-- **What an edit of a world is to a session that was started before**: nothing, or an edit of that session. -/
theorem Edit.cases_session (h : world.Edit marks next) (hissued : id.number < world.ids.next) :
    id.number < next.ids.next ∧ (world.knows id = true → next.knows id = true) ∧
      (next.session id = world.session id ∨ (world.session id).Edit (deedsOf id marks) (next.session id)) := by
  cases h with
  | @session other deeds next hedit =>
    refine ⟨hissued, ?_⟩
    by_cases hother : other = id
    · subst hother
      rw [deedsOf_map, if_pos rfl, session_put_self]
      exact ⟨fun _ => knows_put_self _ _ _, .inr hedit⟩
    · rw [session_put_of_ne _ _ hother, knows_put_of_ne _ _ hother]
      exact ⟨fun h => h, .inl rfl⟩
  | openSession =>
    unfold World.openSession
    split
    · exact ⟨hissued, fun h => h, .inl rfl⟩
    · split
      · exact ⟨hissued, fun h => h, .inl rfl⟩
      · have hnew : (⟨world.ids.next⟩ : SessionId) ≠ id := by
          rintro rfl
          exact Nat.lt_irrefl _ hissued
        have hknows := knows_put_of_ne world (.start ⟨world.ids.next⟩ world.config.session) hnew
        have hsession := session_put_of_ne world (.start ⟨world.ids.next⟩ world.config.session) hnew
        exact ⟨Nat.lt_succ_of_lt hissued, fun h => hknows.trans h, .inl hsession⟩
  | addObserver | forget | shutDown | setLoop | startLoop => exact ⟨hissued, fun h => h, .inl rfl⟩

/-- **What every edit of a session keeps** is kept by any edits of a world, for a session that was started before. -/
theorem Edits.keep (kept : Session A.Identity → Prop) (allowed : Deed → Prop)
    (hedit : ∀ {session next : Session A.Identity} {deeds : List Deed}, kept session → (∀ deed ∈ deeds, allowed deed) →
      session.Edit deeds next → kept next)
    (h : world.Edits marks last) (hissued : id.number < world.ids.next) (hkept : kept (world.session id))
    (hallowed : ∀ deed ∈ deedsOf id marks, allowed deed) :
    kept (last.session id) ∧ id.number < last.ids.next ∧ (world.knows id = true → last.knows id = true) := by
  induction h with
  | none => exact ⟨hkept, hissued, fun h => h⟩
  | @more _ middle _ _ _ h _ hrest =>
    rw [deedsOf_append, List.forall_mem_append] at hallowed
    obtain ⟨hissued', hknows, hsession⟩ := h.cases_session hissued
    have hkept' : kept (middle.session id) := by
      rcases hsession with hsame | hnext
      · rw [hsame]
        exact hkept
      · exact hedit hkept hallowed.1 hnext
    obtain ⟨hlast, hissued'', hknows'⟩ := hrest hissued' hkept' hallowed.2
    exact ⟨hlast, hissued'', fun h => hknows' (hknows h)⟩

end World

/-! ## States -/

namespace Session

variable {session next : Session ι} {deeds : List Deed}

theorem authenticate_cases (session : Session ι) (identity : Option ι) :
    (∃ e, session.authenticate identity = (session, .error e)) ∨
      session.state.isClosing = false ∧ session.login = none ∧
        session.authenticate identity = ({ session with login := some identity }, .ok ()) := by
  unfold authenticate
  split
  · exact .inl ⟨_, rfl⟩
  · split
    · exact .inl ⟨_, rfl⟩
    · rename_i hopen hnew
      rw [isAuthenticated, Bool.not_eq_true, Option.isSome_eq_false_iff, Option.isNone_iff_eq_none] at hnew
      exact .inr ⟨Bool.eq_false_iff.2 hopen, hnew, rfl⟩

theorem receive_cases (session : Session ι) (chunk : List UInt8) :
    session.state ≠ .connected ∧ session.receive chunk = (session, .ok []) ∨
      session.state = .connected ∧
        ∃ stats : SessionStats, (session.receive chunk).1 =
          { session with decoder := (session.decoder.feed chunk).decoder, stats } := by
  unfold receive
  split
  · rename_i hconnected
    refine .inr ⟨hconnected, ?_⟩
    cases hanswer : (session.decoder.feed chunk).answer with
    | error e =>
      simp only [hanswer]
      exact ⟨session.stats, rfl⟩
    | ok count =>
      simp only [hanswer]
      exact ⟨_, rfl⟩
  · rename_i hother
    exact .inl ⟨hother, rfl⟩

/-- An edit leaves the state, or goes along an edge. -/
theorem Edit.cases_state (h : session.Edit deeds next) :
    next.state = session.state ∨ session.state.canTransitionTo next.state = true := by
  cases h with
  | @enter target hedge =>
    unfold Session.enter
    split
    · exact .inr hedge
    · exact .inr hedge
  | authenticate identity =>
    rcases session.authenticate_cases identity with ⟨e, heq⟩ | ⟨-, -, heq⟩
    · rw [heq]
      exact .inl rfl
    · rw [heq]
      exact .inl rfl
  | enqueue payload =>
    cases hanswer : (session.enqueue payload).2 with
    | false =>
      rw [enqueue_of_refused hanswer]
      exact .inl rfl
    | true =>
      rw [(enqueue_of_accepted hanswer).2.2]
      exact .inl rfl
  | receive chunk =>
    rcases session.receive_cases chunk with ⟨-, heq⟩ | ⟨-, stats, heq⟩
    · rw [heq]
      exact .inl rfl
    · rw [heq]
      exact .inl rfl
  | _ => exact .inl rfl

theorem Edit.rank_le (h : session.Edit deeds next) : session.state.rank ≤ next.state.rank := by
  rcases h.cases_state with hsame | hedge
  · exact Nat.le_of_eq (congrArg _ hsame.symm)
  · exact Nat.le_of_lt ((ConnectionState.canTransitionTo_iff _ _).1 hedge)

end Session

/-- **No edit of a world takes a session back.** -/
theorem World.Edits.rank_le {world last : World A} {marks : List Mark} {id : SessionId} (h : world.Edits marks last)
    (hissued : id.number < world.ids.next) :
    (world.session id).state.rank ≤ (last.session id).state.rank ∧ id.number < last.ids.next := by
  obtain ⟨hrank, hissued', -⟩ := h.keep (fun session => (world.session id).state.rank ≤ session.state.rank)
    (fun _ => True) (fun hle _ hedit => Nat.le_trans hle hedit.rank_le) hissued (Nat.le_refl _)
    (fun _ _ => True.intro)
  exact ⟨hrank, hissued'⟩

theorem World.Edits.isClosing {world last : World A} {marks : List Mark} {id : SessionId} (h : world.Edits marks last)
    (hissued : id.number < world.ids.next) (hclosing : (world.session id).state.isClosing = true) :
    (last.session id).state.isClosing = true :=
  ConnectionState.isClosing_of_rank_le hclosing (h.rank_le hissued).1

/-! ## What closing leaves behind -/

namespace Session

/-- The invariant of a session: its outbox is orderly, and once it is closing, the outbox is closed and the decoder is
at its start. -/
structure Tidy (id : SessionId) (session : Session ι) : Prop where
  named : session.id = id
  orderly : session.outbox.Orderly
  closed : session.state.isClosing = true → session.outbox.closed = true ∧ session.decoder.stage = .start

variable {id : SessionId} {session next : Session ι} {deeds : List Deed}

theorem tidy_start (config : SessionConfig) : (start id config : Session ι).Tidy id :=
  ⟨rfl, ⟨rfl, fun hclosed => by cases hclosed⟩, fun hclosing => by cases hclosing⟩

namespace Tidy

theorem withOutbox (h : session.Tidy id) {box : Outbox} (honward : session.outbox.Onward box) :
    ({ session with outbox := box } : Session ι).Tidy id :=
  ⟨h.named, honward.orderly h.orderly,
    fun hclosing => ⟨honward.closed (h.closed hclosing).1, (h.closed hclosing).2⟩⟩

theorem enter (h : session.Tidy id) (target : ConnectionState) : (session.enter target).Tidy id := by
  unfold Session.enter
  split
  · exact ⟨h.named, session.outbox.onward_close.orderly h.orderly, fun _ => ⟨session.outbox.closed_close, rfl⟩⟩
  · rename_i hopen
    exact ⟨h.named, h.orderly, fun hclosing => absurd hclosing hopen⟩

theorem enqueue (h : session.Tidy id) (payload : Payload) : (session.enqueue payload).1.Tidy id := by
  cases hanswer : (session.enqueue payload).2 with
  | false =>
    rw [enqueue_of_refused hanswer]
    exact h
  | true =>
    rw [(enqueue_of_accepted hanswer).2.2]
    exact h.withOutbox (session.outbox.onward_enqueue payload)

theorem receive (h : session.Tidy id) (chunk : List UInt8) : (session.receive chunk).1.Tidy id := by
  rcases session.receive_cases chunk with ⟨-, heq⟩ | ⟨hconnected, stats, heq⟩
  · rw [heq]
    exact h
  · rw [heq]
    refine ⟨h.named, h.orderly, fun hclosing => ?_⟩
    rw [show session.state = .connected from hconnected] at hclosing
    cases hclosing

theorem drain (h : session.Tidy id) {room : Nat} {limit : Limit} {box : Outbox} {result : Except QueueError Output}
    (hdrain : session.outbox.drain room limit = (box, result)) :
    ({ session with outbox := box } : Session ι).Tidy id := by
  have honward := session.outbox.onward_drain room limit
  rw [hdrain] at honward
  exact h.withOutbox honward

/-- **Every edit leaves a session tidy.** -/
theorem edit (h : session.Tidy id) (hedit : session.Edit deeds next) : next.Tidy id := by
  cases hedit with
  | enter hedge => exact h.enter _
  | authenticate identity =>
    rcases session.authenticate_cases identity with ⟨e, heq⟩ | ⟨-, -, heq⟩
    · rw [heq]
      exact h
    · rw [heq]
      exact ⟨h.named, h.orderly, h.closed⟩
  | enqueue payload => exact h.enqueue payload
  | drain hdrain => exact h.drain hdrain
  | drainFails hdrain => exact h.drain hdrain
  | receive chunk => exact h.receive chunk
  | outboxEnqueue payload => exact h.withOutbox (session.outbox.onward_enqueue payload)
  | outboxFlush buffer offset limit => exact h.withOutbox (session.outbox.onward_flush buffer offset limit)
  | outboxClose => exact h.withOutbox session.outbox.onward_close
  | noteReason | flushing | countTransmitted | countHandled => exact ⟨h.named, h.orderly, h.closed⟩

end Tidy

/-- Nothing is sent for a closing session. -/
theorem Edit.silent (hedit : session.Edit deeds next) (h : session.Tidy id) (hclosing : session.state.isClosing = true)
    (data : List UInt8) : .sent data ∉ deeds := by
  cases hedit with
  | enqueue payload =>
    rw [Deed.ofAnswer]
    split <;> simp
  | @drain limit box output hdrain =>
    rw [Outbox.drain_of_closed _ limit h.orderly.free (h.closed hclosing).1] at hdrain
    cases hdrain
    simp [Deed.ofOutput, Output.nothing]
  | _ => simp

/-- The charge of the outbox is accounted for: all that the session takes in can be described by a header. -/
structure Accounted (session : Session ι) : Prop where
  limit : session.config.maxMessageSize < lengthLimit
  sound : session.outbox.Sound

namespace Accounted

theorem charged (h : session.Accounted) (hclosed : session.outbox.closed = true) : session.outbox.charged = 0 := by
  rw [h.sound.charged, h.sound.emptied hclosed]
  rfl

theorem drain (h : session.Accounted) {limit : Limit} {box : Outbox} {result : Except QueueError Output}
    (hdrain : session.outbox.drain session.config.transmitBufferSize limit = (box, result)) :
    ({ session with outbox := box } : Session ι).Accounted := by
  obtain ⟨after, output, heq, -, hsound, -⟩ := Outbox.drain_eq session.config.transmitBufferSize limit h.sound
  rw [heq] at hdrain
  cases hdrain
  exact ⟨h.limit, hsound⟩

theorem enqueue (h : session.Accounted) (payload : Payload) : (session.enqueue payload).1.Accounted := by
  cases hanswer : (session.enqueue payload).2 with
  | false =>
    rw [enqueue_of_refused hanswer]
    exact h
  | true =>
    obtain ⟨hlength, -, heq⟩ := enqueue_of_accepted hanswer
    rw [heq]
    exact ⟨h.limit, h.sound.enqueue (Nat.lt_of_le_of_lt hlength h.limit)⟩

/-- Every edit keeps the accounts, unless it goes to the outbox past the session. -/
theorem edit (h : session.Accounted) (hdirect : ∀ deed ∈ deeds, deed ≠ .direct) (hedit : session.Edit deeds next) :
    next.Accounted := by
  cases hedit with
  | enter hedge =>
    unfold Session.enter
    split
    · exact ⟨h.limit, h.sound.close⟩
    · exact ⟨h.limit, h.sound⟩
  | authenticate identity =>
    rcases session.authenticate_cases identity with ⟨e, heq⟩ | ⟨-, -, heq⟩
    · rw [heq]
      exact h
    · rw [heq]
      exact ⟨h.limit, h.sound⟩
  | enqueue payload => exact h.enqueue payload
  | drain hdrain => exact h.drain hdrain
  | drainFails hdrain => exact h.drain hdrain
  | receive chunk =>
    rcases session.receive_cases chunk with ⟨-, heq⟩ | ⟨-, stats, heq⟩
    · rw [heq]
      exact h
    · rw [heq]
      exact ⟨h.limit, h.sound⟩
  | outboxEnqueue payload => exact absurd rfl (hdirect .direct (List.mem_singleton.2 rfl))
  | outboxFlush buffer offset limit => exact absurd rfl (hdirect .direct (List.mem_singleton.2 rfl))
  | outboxClose => exact ⟨h.limit, h.sound.close⟩
  | noteReason | flushing | countTransmitted | countHandled => exact ⟨h.limit, h.sound⟩

end Accounted

end Session

/-- **Nothing is sent for a closing session**, whatever is done to the world. -/
theorem World.Edits.silent {world last : World A} {marks : List Mark} {id : SessionId} (h : world.Edits marks last)
    (hissued : id.number < world.ids.next) (htidy : (world.session id).Tidy id)
    (hclosing : (world.session id).state.isClosing = true) (data : List UInt8) :
    (⟨id, .sent data⟩ : Mark) ∉ marks := by
  induction h with
  | none => exact List.not_mem_nil
  | @more _ middle _ marks _ h _ hrest =>
    have hfirst : (⟨id, .sent data⟩ : Mark) ∉ marks := by
      cases h with
      | @session other deeds next hedit =>
        intro hmem
        obtain ⟨deed, hdeed, heq⟩ := List.mem_map.1 hmem
        cases heq
        exact hedit.silent htidy hclosing data hdeed
      | _ => exact List.not_mem_nil
    obtain ⟨⟨htidy', hclosing'⟩, hissued', -⟩ := h.once.keep
      (fun session => session.Tidy id ∧ session.state.isClosing = true) (fun _ => True)
      (fun hkept _ hedit => ⟨hkept.1.edit hedit, ConnectionState.isClosing_of_rank_le hkept.2 hedit.rank_le⟩) hissued
      ⟨htidy, hclosing⟩ fun _ _ => True.intro
    rw [List.mem_append]
    exact not_or.2 ⟨hfirst, hrest hissued' htidy' hclosing'⟩

/-! ## Runs -/

/-- The library starts a transmit for the session. -/
def Event.Transmits (id : SessionId) (event : Event A) : Prop := ∃ data, event.signal = .asks (.transmit id data)

theorem Event.Transmits.mark {id : SessionId} {event : Event A} (h : event.Transmits id) :
    ∃ data, (⟨id, .sent data⟩ : Mark) ∈ event.marks := by
  obtain ⟨data, hsignal⟩ := h
  refine ⟨data, ?_⟩
  cases event with
  | called call signal =>
    cases hsignal
    exact List.mem_cons_self
  | returned query reply signal =>
    cases hsignal
    exact List.mem_cons_self

namespace Machine

variable {id : SessionId} {machine next last : Machine A} {moves : List (Move A)} {events : List (Event A)}

/-- A call that calls no outside code ends in one move. -/
theorem move_of_finish {call : Call A} {world : World A} {answer : Answer} (hcall : machine.canCall call = true)
    (h : call.begin machine.world = .finish world answer) :
    machine.move (.call call) = some (⟨world, machine.waiting⟩, .called call (.answers answer)) := by
  rw [move, if_pos hcall, h]
  rfl

theorem canCall_of_move {call : Call A} {event : Event A} (h : machine.move (.call call) = some (next, event)) :
    machine.canCall call = true := (of_move_call h).1

/-- A session that can be called, with its invariant. -/
structure Holds (id : SessionId) (machine : Machine A) : Prop where
  issued : id.number < machine.world.ids.next
  known : machine.world.knows id = true
  tidy : (machine.world.session id).Tidy id

theorem Holds.run (h : machine.Holds id) (hrun : machine.run moves = some (last, events)) : last.Holds id := by
  obtain ⟨htidy, hissued, hknown⟩ := (run_edits moves hrun).keep (·.Tidy id) (fun _ => True)
    (fun htidy _ hedit => htidy.edit hedit) h.issued h.tidy fun _ _ => True.intro
  exact ⟨hissued, hknown h.known, htidy⟩

/-- No transmit is started for a closing session. -/
theorem Holds.silent (h : machine.Holds id) (hclosing : (machine.world.session id).state.isClosing = true)
    (hrun : machine.run moves = some (last, events)) : ∀ event ∈ events, ¬ event.Transmits id := by
  intro event hmem htransmits
  obtain ⟨data, hmark⟩ := htransmits.mark
  exact (run_edits moves hrun).silent h.issued h.tidy hclosing data (List.mem_flatMap.2 ⟨event, hmem, hmark⟩)

/-- The states that a session enters along moves, as they are found whenever outside code is called or answered. -/
def entries (id : SessionId) (machine : Machine A) : List (Move A) → List ConnectionState
  | [] => []
  | move :: moves =>
    match machine.move move with
    | none => []
    | some (next, _) =>
      if (next.world.session id).state = (machine.world.session id).state then next.entries id moves
      else (next.world.session id).state :: next.entries id moves

end Machine

/-! ## Calls on a closing session -/

namespace World

variable {world : World A} {id : SessionId}

@[simp] theorem bidFarewell_world (world : World A) (id : SessionId) (reason : DisconnectReason)
    (observers : List A.Observer) : (world.bidFarewell id reason observers).world = world := by
  cases observers <;> rfl

/-- Telling observers moves no session. -/
theorem tell_state (world : World A) (id other : SessionId) (source target : ConnectionState)
    (observers : List A.Observer) :
    ((world.tell other source target observers).world.session id).state = (world.session id).state := by
  cases observers with
  | nil =>
    by_cases htarget : target = .disconnected
    · by_cases hother : other = id
      · subst hother
        simp [tell, htarget, modify, Session.noteReason]
      · simp [tell, htarget, modify, session_put_of_ne _ _ hother]
    · rw [tell, if_neg htarget]
      rfl
  | cons observer rest => rfl

/-- A transition that no edge allows changes nothing and says so. -/
theorem transition_of_no_edge {target : ConnectionState}
    (h : (world.session id).state.canTransitionTo target = false) :
    ∃ result, result ≠ .ok true ∧ world.transition id target = .finish world result := by
  unfold transition
  by_cases hsame : (world.session id).state = target
  · exact ⟨.ok false, by simp, if_pos hsame⟩
  · refine ⟨.error (.invalidTransition (world.session id).id (world.session id).state target), by simp, ?_⟩
    simp [hsame, h]

theorem resumeTransition_state (world : World A) (id : SessionId) :
    ∀ rest : Transition A, ((rest.resume world).world.session id).state = (world.session id).state
  | .telling other source target rest => tell_state world id other source target rest
  | .parting other reason rest => by rw [Transition.resume, bidFarewell_world]

/-- A transition along an edge has moved the session before anyone hears of it. -/
theorem transition_of_edge {target : ConnectionState} (h : (world.session id).state.canTransitionTo target = true) :
    ((world.transition id target).world.session id).state = target := by
  have hother : (world.session id).state ≠ target := by
    intro heq
    rw [ConnectionState.canTransitionTo_iff, heq] at h
    exact Nat.lt_irrefl _ h
  have hentered : ((world.session id).enter target).state = target := by
    unfold Session.enter
    split <;> rfl
  simp only [transition, if_neg hother, h, Bool.not_true, Bool.false_eq_true, if_false]
  rw [tell_state, session_put_self, hentered]

/-- A transition is refused, or the session is where it was to go. -/
theorem transition_reaches (world : World A) (id : SessionId) (target : ConnectionState) :
    (∃ e, world.transition id target = .finish world (.error e)) ∨
      ((world.transition id target).world.session id).state = target := by
  by_cases hsame : (world.session id).state = target
  · refine .inr ?_
    rw [transition, if_pos hsame]
    exact hsame
  · cases hedge : (world.session id).state.canTransitionTo target with
    | false =>
      refine .inl ⟨.invalidTransition (world.session id).id (world.session id).state target, ?_⟩
      simp [transition, hsame, hedge]
    | true => exact .inr (transition_of_edge hedge)

theorem tick_of_closing (h : (world.session id).state.isClosing = true) : world.tick id = .finish world (.ok {}) := by
  have hother : (world.session id).state ≠ .connected := by
    intro heq
    rw [heq] at h
    cases h
  unfold tick
  split
  · rfl
  · rw [beginFlush, if_neg hother]

theorem receive_of_closing (h : (world.session id).state.isClosing = true) (chunk : List UInt8) :
    (world.session id).receive chunk = (world.session id, .ok []) := by
  rcases (world.session id).receive_cases chunk with ⟨-, heq⟩ | ⟨hconnected, -⟩
  · exact heq
  · rw [hconnected] at h
    cases h

theorem deliverAll_of_closing (h : (world.session id).state.isClosing = true) (handled : Nat) :
    ∀ payloads, world.deliverAll id handled payloads = .finish world handled
  | [] => rfl
  | payload :: rest => by
    refine if_neg fun heq => ?_
    rw [heq] at h
    cases h

theorem hostReceive_of_closing (hknown : world.knows id = true) (h : (world.session id).state.isClosing = true)
    (chunk : List UInt8) : world.hostReceive id chunk = .finish world 0 := by
  unfold hostReceive
  split
  · simp only [receive_of_closing h, put_session hknown]
    exact deliverAll_of_closing h 0 []
  · rfl

theorem disconnect_of_closing (h : (world.session id).state.isClosing = true) (reason : DisconnectReason)
    (flushFirst : Bool) : world.disconnect id reason flushFirst = .finish world () := by
  simp [disconnect, h]

/-- **A disconnect of an open session** notes the reason and enters Disconnecting before anyone hears of it. -/
theorem disconnect_of_open (hopen : (world.session id).state.isClosing = false) (reason : DisconnectReason) :
    world.disconnect id reason false =
      ((world.put id (((world.session id).noteReason reason).enter .disconnecting)).tell id (world.session id).state
        .disconnecting world.observers).andThen (.leaving id reason) (closeTransport · id reason) := by
  have hedge : (world.session id).state.canTransitionTo .disconnecting = true := by
    cases hstate : (world.session id).state <;> rw [hstate] at hopen <;> first | rfl | cases hopen
  have hother : (world.session id).state ≠ .disconnecting := by
    intro hstate
    rw [hstate] at hopen
    cases hopen
  have hnoted : ((world.session id).noteReason reason).state = (world.session id).state := rfl
  simp only [disconnect, hopen, Bool.false_eq_true, if_false, Bool.false_and, leave, transition, modify,
    session_put_self, hnoted, if_neg hother, hedge, Bool.not_true, put_put]
  rfl

theorem world_disconnect_of_open (hopen : (world.session id).state.isClosing = false) (reason : DisconnectReason) :
    (world.disconnect id reason false).world =
      world.put id (((world.session id).noteReason reason).enter .disconnecting) := by
  rw [disconnect_of_open hopen, Activity.world_andThen]
  · cases world.observers <;> rfl
  · intro world moved
    unfold closeTransport
    split <;> rfl

theorem dispatch_of_closing (h : (world.session id).state.isClosing = true) (payload : Payload) :
    world.dispatch id payload = .finish world .sessionClosing := by
  simp [dispatch, h]

end World

/-- The session that a call is about, and the answer to the call if this session is closing. -/
def Call.refusal : Call A → Option (SessionId × Answer)
  | enqueue id _ | hostEnqueue id _ | outboxEnqueue id _ => some (id, .flag false)
  | tick id | hostTick id => some (id, .flushed (.ok {}))
  | receive id _ => some (id, .received (.ok []))
  | hostReceive id _ => some (id, .count 0)
  | authenticate id _ => some (id, .accepted (.error (.closing id)))
  | disconnect id _ _ | hostDisconnect id _ _ | outboxClose id => some (id, .nothing)
  | dispatch id _ => some (id, .dispatched .sessionClosing)
  | outboxFlush id buffer _ _ => some (id, .written (.ok (.nothing, buffer)))
  | transition _ _ | addObserver _ | hostOpen | hostReport _ _ | hostFlushAll _ | hostShutdown _
  | startLoop _ | wakeLoop _ _ _ => none

namespace Machine

variable {id : SessionId} {machine next last : Machine A}

/-- **A call on a closing session is answered at once and changes nothing.** -/
theorem Holds.refuses (h : machine.Holds id) (hclosing : (machine.world.session id).state.isClosing = true)
    {call : Call A} {answer : Answer} (hcall : call.refusal = some (id, answer)) :
    machine.move (.call call) = some (machine, .called call (.answers answer)) := by
  have hput := World.put_session h.known
  have hclosed := (h.tidy.closed hclosing).1
  have hbegin : machine.canCall call = true ∧ call.begin machine.world = .finish machine.world answer := by
    cases call with
    | enqueue other payload =>
      cases hcall
      exact ⟨h.known, by simp [Call.begin, Session.enqueue, hclosing, hput]⟩
    | hostEnqueue other payload =>
      cases hcall
      refine ⟨rfl, ?_⟩
      by_cases htracks : machine.world.tracks id = true
      · simp [Call.begin, World.hostEnqueue, htracks, Session.enqueue, hclosing, hput]
      · simp [Call.begin, World.hostEnqueue, htracks]
    | outboxEnqueue other payload =>
      cases hcall
      exact ⟨h.known, by simp only [Call.begin, Outbox.enqueue_of_closed hclosed, hput]⟩
    | tick other =>
      cases hcall
      exact ⟨h.known, by rw [Call.begin, World.tick_of_closing hclosing]; rfl⟩
    | hostTick other =>
      cases hcall
      refine ⟨rfl, ?_⟩
      by_cases htracks : machine.world.tracks id = true
      · rw [Call.begin, World.hostTick, if_pos htracks, World.flushSession, World.tick_of_closing hclosing]
        rfl
      · rw [Call.begin, World.hostTick, if_neg htracks]
        rfl
    | receive other chunk =>
      cases hcall
      exact ⟨h.known, by simp only [Call.begin, World.receive_of_closing hclosing, hput]⟩
    | hostReceive other chunk =>
      cases hcall
      refine ⟨rfl, ?_⟩
      rw [Call.begin, World.hostReceive_of_closing h.known hclosing]
      rfl
    | authenticate other identity =>
      cases hcall
      exact ⟨h.known, by simp [Call.begin, Session.authenticate, hclosing, hput, h.tidy.named]⟩
    | disconnect other reason flushFirst =>
      cases hcall
      exact ⟨h.known, by rw [Call.begin, World.disconnect_of_closing hclosing]; rfl⟩
    | hostDisconnect other reason flushFirst =>
      cases hcall
      refine ⟨rfl, ?_⟩
      rw [Call.begin, World.disconnect_of_closing hclosing]
      split <;> rfl
    | outboxClose other =>
      cases hcall
      refine ⟨h.known, ?_⟩
      have hsame : ({ machine.world.session id with outbox := (machine.world.session id).outbox.close } :
          Session A.Identity) = machine.world.session id := by
        rw [Outbox.close, if_pos hclosed]
      rw [Call.begin, World.modify, hsame, hput]
    | dispatch other payload =>
      cases hcall
      exact ⟨h.known, by rw [Call.begin, World.dispatch_of_closing hclosing]; rfl⟩
    | outboxFlush other buffer offset limit =>
      cases hcall
      refine ⟨h.known, ?_⟩
      have hflush : (machine.world.session id).outbox.flush buffer offset limit =
          ((machine.world.session id).outbox, .ok (.nothing, buffer)) := by
        simp [Outbox.flush, hclosed, Outbox.drain_of_closed _ limit h.tidy.orderly.free hclosed, Except.map, overwrite,
          Output.nothing]
      simp only [Call.begin, hflush, hput]
    | _ => cases hcall
  exact move_of_finish hbegin.1 hbegin.2

/-! ## The law -/

end Machine

end FramedLink
