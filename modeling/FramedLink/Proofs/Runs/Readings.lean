import FramedLink.Proofs.Runs.Order
import FramedLink.Proofs.Runs.Transcript
import FramedLink.Proofs.Runs.Upkeep
/-!
# What a session was given along a run

Bytes reach a session when it is called to receive them, or when they arrive at a host that tracks it.  Here is the list
of all chunks that a session was given in the course of a run, each with the session as it was found then
(`Machine.readings`).  Between one and the next the receiving half of a session stays as it is, or is cleared as the
session closes (`Session.Unfed`).

Main statement: a stream that was refused once never gives a payload again, whatever is done to the session: as long as
it stays connected every chunk is refused, and once it is closing every chunk is dropped (`Machine.refused_for_good`).
-/
namespace FramedLink

variable {A : Application} {ι : Type}

/-! ## Chunks given to a session -/

/-- A chunk that a session was given, and the session as it was found. -/
structure Reading (ι : Type) where
  session : Session ι
  chunk : List UInt8

namespace Reading

def result (reading : Reading ι) : Except DecoderError (List Payload) := (reading.session.receive reading.chunk).2

def after (reading : Reading ι) : Session ι := (reading.session.receive reading.chunk).1

/-- The chunk was refused. -/
def Fails (reading : Reading ι) : Prop := ∃ e, reading.result = .error e

end Reading

/-- The chunk that a call gives a session, if it does.  Bytes that arrive for a session that the host does not track
are dropped. -/
def Call.reading? (id : SessionId) (world : World A) : Call A → Option (Reading A.Identity)
  | receive other chunk => if other = id then some ⟨world.session id, chunk⟩ else none
  | hostReceive other chunk => if other = id ∧ world.tracks id = true then some ⟨world.session id, chunk⟩ else none
  | _ => none

def Move.reading? (id : SessionId) (world : World A) : Move A → Option (Reading A.Identity)
  | .call made => made.reading? id world
  | .reply _ => none

/-- The chunks that a session is given along moves, in order. -/
def Machine.readings (id : SessionId) (machine : Machine A) : List (Move A) → List (Reading A.Identity)
  | [] => []
  | move :: moves =>
    match machine.move move with
    | none => []
    | some (next, _) => (move.reading? id machine.world).toList ++ next.readings id moves

/-- What a session answered to a call to receive. -/
def Event.received? (id : SessionId) : Event A → Option (Except DecoderError (List Payload))
  | .called (.receive other _) (.answers (.received result)) => if other = id then some result else none
  | _ => none

/-- **What a session makes of a chunk**: it drops it, or refuses it, or gives its payloads and counts them. -/
theorem Session.receive_outcome (session : Session ι) (chunk : List UInt8) :
    session.state ≠ .connected ∧ session.receive chunk = (session, .ok []) ∨
    session.state = .connected ∧
      ((∃ e, (session.decoder.feed chunk).answer = .error e ∧ session.receive chunk =
          ({ session with decoder := (session.decoder.feed chunk).decoder }, .error e)) ∨
        ∃ count, (session.decoder.feed chunk).answer = .ok count ∧ session.receive chunk =
          (({ session with decoder := (session.decoder.feed chunk).decoder } : Session ι).countReceived chunk.length
            (session.decoder.feed chunk).ready.length, .ok (session.decoder.feed chunk).ready)) := by
  by_cases hconnected : session.state = .connected
  · refine .inr ⟨hconnected, ?_⟩
    cases hanswer : (session.decoder.feed chunk).answer with
    | error e => exact .inl ⟨e, rfl, by simp only [Session.receive, if_pos hconnected, hanswer]⟩
    | ok count => exact .inr ⟨count, rfl, by simp only [Session.receive, if_pos hconnected, hanswer]⟩
  · exact .inl ⟨hconnected, if_neg hconnected⟩

/-! ## The receiving half between two chunks -/

/-- A session later on, if it was given nothing in between and so many of its messages were handled: its receiving half
is as it was, or was cleared when the session closed. -/
structure Session.Unfed (session : Session ι) (handled : Nat) (next : Session ι) : Prop where
  later : session.state.rank ≤ next.state.rank
  bytes : next.stats.bytesReceived = session.stats.bytesReceived
  frames : next.stats.framesReceived = session.stats.framesReceived
  handled : next.stats.messagesHandled = session.stats.messagesHandled + handled
  decoder : next.state.isClosing = session.state.isClosing ∧ next.decoder = session.decoder ∨
    next.state.isClosing = true ∧ next.decoder = session.decoder.reset

namespace Session

variable {session middle next : Session ι} {n m : Nat}

theorem unfed_of_same (hstate : next.state = session.state)
    (hbytes : next.stats.bytesReceived = session.stats.bytesReceived)
    (hframes : next.stats.framesReceived = session.stats.framesReceived)
    (hhandled : next.stats.messagesHandled = session.stats.messagesHandled + n)
    (hdecoder : next.decoder = session.decoder) : session.Unfed n next where
  later := Nat.le_of_eq (by rw [hstate])
  bytes := hbytes
  frames := hframes
  handled := hhandled
  decoder := .inl ⟨by rw [hstate], hdecoder⟩

theorem Unfed.refl (session : Session ι) : session.Unfed 0 session := unfed_of_same rfl rfl rfl rfl rfl

theorem Unfed.trans (h : session.Unfed n middle) (hnext : middle.Unfed m next) : session.Unfed (n + m) next where
  later := Nat.le_trans h.later hnext.later
  bytes := hnext.bytes.trans h.bytes
  frames := hnext.frames.trans h.frames
  handled := by rw [hnext.handled, h.handled, Nat.add_assoc]
  decoder := by
    rcases hnext.decoder with ⟨hstill, hsame⟩ | ⟨hclosing, hreset⟩
    · rw [hstill, hsame]
      exact h.decoder
    · refine .inr ⟨hclosing, ?_⟩
      rcases h.decoder with ⟨-, hsame⟩ | ⟨-, hreset'⟩
      · rw [hreset, hsame]
      · rw [hreset, hreset']
        rfl

theorem unfed_enter {target : ConnectionState} (h : session.state.canTransitionTo target = true) :
    session.Unfed 0 (session.enter target) := by
  have hlater := Nat.le_of_lt ((ConnectionState.canTransitionTo_iff _ _).1 h)
  unfold Session.enter
  split
  · rename_i hclosing
    exact ⟨hlater, rfl, rfl, rfl, .inr ⟨hclosing, rfl⟩⟩
  · rename_i hopen
    refine ⟨hlater, rfl, rfl, rfl, .inl ⟨?_, rfl⟩⟩
    cases hbefore : session.state.isClosing with
    | true => exact absurd (ConnectionState.isClosing_of_edge hbefore h) hopen
    | false => exact Bool.eq_false_iff.2 hopen

theorem Upkeep.unfed (h : session.Upkeep next) : session.Unfed 0 next := by
  cases h with
  | enter hedge => exact unfed_enter hedge
  | noteReason reason => exact unfed_of_same rfl rfl rfl rfl rfl
  | flushing on => exact unfed_of_same rfl rfl rfl rfl rfl
  | drain limit => exact unfed_of_same rfl rfl rfl rfl rfl
  | countTransmitted bytes => exact unfed_of_same rfl rfl rfl rfl rfl

theorem unfed_authenticate (session : Session ι) (identity : Option ι) :
    session.Unfed 0 (session.authenticate identity).1 := by
  rcases session.authenticate_cases identity with ⟨e, heq⟩ | ⟨-, -, heq⟩
  · rw [heq]
    exact .refl session
  · rw [heq]
    exact unfed_of_same rfl rfl rfl rfl rfl

theorem unfed_enqueue (session : Session ι) (payload : Payload) : session.Unfed 0 (session.enqueue payload).1 := by
  cases hanswer : (session.enqueue payload).2 with
  | false =>
    rw [enqueue_of_refused hanswer]
    exact .refl session
  | true =>
    rw [(enqueue_of_accepted hanswer).2.2]
    exact unfed_of_same rfl rfl rfl rfl rfl

end Session

namespace World

variable {world last : World A} {id : SessionId}

theorem Upkeep.unfed {handled : List SessionId} (h : world.Upkeep handled last) (id : SessionId) :
    (world.session id).Unfed (handled.count id) (last.session id) := by
  have hkept := h.keep (fun hunfed hupkeep => hunfed.trans hupkeep.unfed)
    (fun hunfed => hunfed.trans (Session.unfed_of_same rfl rfl rfl rfl rfl)) (Session.Unfed.refl (world.session id))
  rwa [Nat.zero_add] at hkept

/-- What is put in the place of another session does not matter. -/
theorem unfed_put {other : SessionId} {next : Session A.Identity} (h : (world.session other).Unfed 0 next)
    (id : SessionId) : (world.session id).Unfed 0 ((world.put other next).session id) := by
  by_cases hother : other = id
  · subst hother
    rw [session_put_self]
    exact h
  · rw [session_put_of_ne _ _ hother]
    exact .refl _

theorem session_of_unknown (h : world.knows id = false) : world.session id = .start id world.config.session := by
  have hnone : world.sessions.get? id = none := Option.isNone_iff_eq_none.1 (Option.isSome_eq_false_iff.1 h)
  rw [World.session, hnone]
  rfl

/-- Opening a session changes none: an id that was not given out before reads as a session that has just been
started. -/
theorem session_openSession (hnew : world.ids.next ≤ id.number → world.knows id = false) :
    world.openSession.1.session id = world.session id := by
  rcases world.openSession_cases with ⟨e, heq⟩ | ⟨-, -, heq⟩
  · rw [heq]
  · rw [heq]
    by_cases hnext : id = ⟨world.ids.next⟩
    · subst hnext
      rw [session_of_unknown (hnew (Nat.le_refl _))]
      exact session_put_self world _ _
    · exact session_withNext hnext

theorem unfed_hostEnqueue (world : World A) (other : SessionId) (payload : Payload) (id : SessionId) :
    (world.session id).Unfed 0 ((world.hostEnqueue other payload).1.session id) := by
  unfold hostEnqueue
  split
  · exact unfed_put ((world.session other).unfed_enqueue payload) id
  · exact .refl _

end World

/-- **What a call does at once to the receiving half of a session**: nothing, unless it gives the session a chunk. -/
theorem Call.primes_session {id : SessionId} {world : World A}
    (hnew : world.ids.next ≤ id.number → world.knows id = false) (call : Call A) :
    call.reading? id world = none ∧ (world.session id).Unfed 0 ((call.primes world).session id) ∨
    ∃ chunk, call.reading? id world = some ⟨world.session id, chunk⟩ ∧
      (call.primes world).session id = ((world.session id).receive chunk).1 := by
  have hreceive : ∀ (other : SessionId) (chunk : List UInt8),
      let next := world.put other ((world.session other).receive chunk).1
      other = id ∧ next.session id = ((world.session id).receive chunk).1 ∨
        other ≠ id ∧ (world.session id).Unfed 0 (next.session id) := by
    intro other chunk
    by_cases hother : other = id
    · subst hother
      exact .inl ⟨rfl, World.session_put_self _ _ _⟩
    · refine .inr ⟨hother, ?_⟩
      rw [World.session_put_of_ne _ _ hother]
      exact .refl _
  have houtbox : ∀ (other : SessionId) (outbox : Outbox),
      (world.session id).Unfed 0 ((world.put other { world.session other with outbox }).session id) := by
    intro other outbox
    have hsame : (world.session other).Unfed 0 { world.session other with outbox } :=
      Session.unfed_of_same rfl rfl rfl rfl rfl
    exact World.unfed_put hsame id
  cases call with
  | receive other chunk =>
    rcases hreceive other chunk with ⟨hother, heq⟩ | ⟨hother, hunfed⟩
    · exact .inr ⟨chunk, if_pos hother, heq⟩
    · exact .inl ⟨if_neg hother, hunfed⟩
  | hostReceive other chunk =>
    by_cases htracks : world.tracks other = true
    · have htaken : (Call.hostReceive other chunk).primes world =
          world.put other ((world.session other).receive chunk).1 := if_pos htracks
      rw [htaken]
      rcases hreceive other chunk with ⟨hother, heq⟩ | ⟨hother, hunfed⟩
      · exact .inr ⟨chunk, if_pos ⟨hother, hother ▸ htracks⟩, heq⟩
      · exact .inl ⟨if_neg fun h => hother h.1, hunfed⟩
    · have hdropped : (Call.hostReceive other chunk).primes world = world := if_neg htracks
      rw [hdropped]
      refine .inl ⟨if_neg fun h => htracks ?_, .refl _⟩
      rw [h.1]
      exact h.2
  | authenticate other identity =>
    exact .inl ⟨rfl, World.unfed_put ((world.session other).unfed_authenticate identity) id⟩
  | enqueue other payload => exact .inl ⟨rfl, World.unfed_put ((world.session other).unfed_enqueue payload) id⟩
  | outboxEnqueue other payload => exact .inl ⟨rfl, houtbox other _⟩
  | outboxFlush other buffer offset limit => exact .inl ⟨rfl, houtbox other _⟩
  | outboxClose other => exact .inl ⟨rfl, houtbox other _⟩
  | hostOpen =>
    refine .inl ⟨rfl, ?_⟩
    rw [Call.primes, World.session_openSession hnew]
    exact .refl _
  | hostEnqueue other payload => exact .inl ⟨rfl, world.unfed_hostEnqueue other payload id⟩
  | _ => exact .inl ⟨rfl, .refl _⟩

namespace Machine

variable {id : SessionId} {machine next last : Machine A} {moves : List (Move A)} {events : List (Event A)}

/-- **A move gives a session nothing, or one chunk at once.** -/
theorem move_reading {move : Move A} {event : Event A} (hmove : machine.move move = some (next, event))
    (hissued : id.number < machine.world.ids.next) :
    ∃ n, move.reading? id machine.world = none ∧ (machine.world.session id).Unfed n (next.world.session id) ∨
      ∃ chunk, move.reading? id machine.world = some ⟨machine.world.session id, chunk⟩ ∧
        ((machine.world.session id).receive chunk).1.Unfed n (next.world.session id) := by
  obtain ⟨handled, hupkeep⟩ := move_upkeep hmove
  have hunfed := hupkeep.unfed id
  refine ⟨handled.count id, ?_⟩
  cases move with
  | reply reply => exact .inl ⟨rfl, hunfed⟩
  | call call =>
    have hnew : machine.world.ids.next ≤ id.number → machine.world.knows id = false :=
      fun hnext => absurd hissued (Nat.not_lt.2 hnext)
    rcases call.primes_session hnew with ⟨hnone, hprimes⟩ | ⟨chunk, hsome, hprimes⟩
    · have hboth := hprimes.trans hunfed
      rw [Nat.zero_add] at hboth
      exact .inl ⟨hnone, hboth⟩
    · refine .inr ⟨chunk, hsome, ?_⟩
      rw [← hprimes]
      exact hunfed

/-- **What holds of a session whenever it is given a chunk or is not** holds along every run: an invariant of the chunks
given so far and of the session. -/
theorem readings_invariant {motive : List (Reading A.Identity) → Session A.Identity → Prop}
    (hunfed : ∀ {past : List (Reading A.Identity)} {session next : Session A.Identity} {n : Nat},
      motive past session → session.Unfed n next → motive past next)
    (hread : ∀ {past : List (Reading A.Identity)} (reading : Reading A.Identity), motive past reading.session →
      motive (past ++ [reading]) reading.after) :
    ∀ (moves : List (Move A)) (past : List (Reading A.Identity)) {machine last : Machine A} {events : List (Event A)},
      machine.run moves = some (last, events) → id.number < machine.world.ids.next →
      motive past (machine.world.session id) → motive (past ++ machine.readings id moves) (last.world.session id)
  | [], past, machine, last, events, hrun, _, h => by
    cases hrun
    rw [readings, List.append_nil]
    exact h
  | move :: moves, past, machine, last, events, hrun, hissued, h => by
    obtain ⟨next, event, later, hmove, hlater, rfl⟩ := exists_of_run_cons hrun
    have hissued' := ((move_edits hmove).rank_le hissued).2
    simp only [readings, hmove]
    obtain ⟨n, ⟨hnone, hquiet⟩ | ⟨chunk, hsome, hquiet⟩⟩ := move_reading hmove hissued
    · have hnext := hunfed h hquiet
      rw [hnone, Option.toList_none, List.nil_append]
      exact readings_invariant (motive := motive) hunfed hread moves _ hlater hissued' hnext
    · have hnext := hunfed (hread ⟨machine.world.session id, chunk⟩ h) hquiet
      rw [hsome, Option.toList_some, ← List.append_assoc]
      exact readings_invariant (motive := motive) hunfed hread moves _ hlater hissued' hnext

/-- A call to receive is answered at once, with what the session makes of the chunk. -/
theorem received_of_move {move : Move A} {event : Event A} (hmove : machine.move move = some (next, event))
    {result : Except DecoderError (List Payload)} (hreceived : event.received? id = some result) :
    ∃ reading, move.reading? id machine.world = some reading ∧ reading.result = result := by
  cases event with
  | returned query reply signal => cases hreceived
  | called call signal =>
    have hcall := move_of_called hmove
    subst hcall
    cases call with
    | receive other chunk =>
      rw [move_of_finish (canCall_of_move hmove) rfl] at hmove
      cases hmove
      by_cases hother : other = id
      · subst hother
        rw [Event.received?, if_pos rfl] at hreceived
        cases hreceived
        exact ⟨_, if_pos rfl, rfl⟩
      · rw [Event.received?, if_neg hother] at hreceived
        cases hreceived
    | _ => cases hreceived

/-- **What the calls to receive were answered is among the results of the chunks given**, in the same order. -/
theorem received_sublist : ∀ (moves : List (Move A)) {machine last : Machine A} {events : List (Event A)},
    machine.run moves = some (last, events) →
    (events.filterMap (Event.received? id)).Sublist ((machine.readings id moves).map Reading.result)
  | [], _, _, _, hrun => by
    cases hrun
    exact .slnil
  | move :: moves, machine, last, events, hrun => by
    obtain ⟨next, event, later, hmove, hlater, rfl⟩ := exists_of_run_cons hrun
    have hrest' := received_sublist moves hlater
    simp only [readings, hmove, List.map_append]
    cases hreceived : event.received? id with
    | none =>
      rw [List.filterMap_cons_none hreceived]
      exact hrest'.trans (List.sublist_append_right _ _)
    | some result =>
      obtain ⟨reading, hreading, hresult⟩ := received_of_move hmove hreceived
      rw [List.filterMap_cons_some hreceived, hreading, Option.toList_some, List.map_singleton, hresult]
      exact hrest'.cons_cons result

end Machine

/-! ## Streams that were refused -/

/-- **A chunk that is refused poisons the decoder.** -/
theorem Decoder.rounds_error (fuel : Nat) {decoder : Decoder} {ready : List Payload} {count : Nat} {chunk : List UInt8}
    {e : DecoderError} (h : (decoder.rounds ready count fuel chunk).answer = .error e) :
    (decoder.rounds ready count fuel chunk).decoder.isPoisoned = true := by
  induction fuel generalizing decoder ready count chunk with
  | zero => cases h
  | succ fuel ih =>
    cases chunk with
    | nil => cases h
    | cons first more =>
      unfold rounds at h ⊢
      split at h
      · rfl
      · exact ih h
      · exact ih h

theorem Decoder.feed_error {decoder : Decoder} {chunk : List UInt8} {e : DecoderError}
    (h : (decoder.feed chunk).answer = .error e) : (decoder.feed chunk).decoder.isPoisoned = true := by
  unfold feed at h ⊢
  split
  · assumption
  · rename_i hsound
    rw [if_neg hsound] at h
    exact rounds_error _ h

/-- A session that has been connected and is not closing is connected. -/
theorem ConnectionState.eq_connected {state : ConnectionState} (hlater : connected.rank ≤ state.rank)
    (hopen : state.isClosing = false) : state = connected := by
  cases state with
  | connected => rfl
  | connecting => exact absurd hlater (by decide)
  | disconnecting => cases hopen
  | disconnected => cases hopen

namespace Session

variable {session next : Session ι}

/-- A session whose stream was refused: it refuses all of it while it is connected, and once it is closing it drops
what comes. -/
def Ruined (session : Session ι) : Prop :=
  session.state = .connected ∧ session.decoder.isPoisoned = true ∨
    session.state.isClosing = true ∧ session.decoder.isPoisoned = false

theorem Ruined.receive (h : session.Ruined) (chunk : List UInt8) :
    session.receive chunk = (session, if session.state = .connected then .error .poisoned else .ok []) := by
  rcases h with ⟨hconnected, hpoisoned⟩ | ⟨hclosing, -⟩
  · have hfeed : session.decoder.feed chunk = ⟨session.decoder, [], .error .poisoned⟩ := if_pos hpoisoned
    simp only [Session.receive, hconnected, if_true, hfeed]
    rw [← hconnected]
  · have hother : session.state ≠ .connected := by
      intro hconnected
      rw [hconnected] at hclosing
      cases hclosing
    rw [Session.receive, if_neg hother, if_neg hother]

/-- Nothing that happens to a session whose stream was refused makes it read again. -/
theorem Ruined.unfed {n : Nat} (h : session.Ruined) (hunfed : session.Unfed n next) : next.Ruined := by
  rcases h with ⟨hconnected, hpoisoned⟩ | ⟨hclosing, hsound⟩
  · have hlater := hunfed.later
    rcases hunfed.decoder with ⟨hstill, hsame⟩ | ⟨hclosing, hreset⟩
    · rw [hconnected] at hstill hlater
      refine .inl ⟨ConnectionState.eq_connected hlater hstill, ?_⟩
      rw [hsame]
      exact hpoisoned
    · refine .inr ⟨hclosing, ?_⟩
      rw [hreset]
      rfl
  · have hlast := ConnectionState.isClosing_of_rank_le hclosing hunfed.later
    rcases hunfed.decoder with ⟨-, hsame⟩ | ⟨-, hreset⟩
    · refine .inr ⟨hlast, ?_⟩
      rw [hsame]
      exact hsound
    · refine .inr ⟨hlast, ?_⟩
      rw [hreset]
      rfl

/-- **A session that refuses a chunk** was connected, is ruined by it, and is otherwise unchanged. -/
theorem receive_of_error {chunk : List UInt8} {e : DecoderError} (h : (session.receive chunk).2 = .error e) :
    session.state = .connected ∧
      (session.receive chunk).1 = { session with decoder := (session.decoder.feed chunk).decoder } ∧
      (session.receive chunk).1.Ruined := by
  rcases session.receive_outcome chunk with ⟨-, heq⟩ | ⟨hconnected, ⟨cause, hanswer, heq⟩ | ⟨count, -, heq⟩⟩
  · rw [heq] at h
    cases h
  · rw [heq]
    exact ⟨hconnected, rfl, .inl ⟨hconnected, Decoder.feed_error hanswer⟩⟩
  · rw [heq] at h
    cases h

end Session

namespace Machine

variable {id : SessionId} {machine last : Machine A} {moves : List (Move A)} {events : List (Event A)}

/-- Once a session has refused a chunk it stays ruined. -/
theorem ruined_of_readings (hrun : machine.run moves = some (last, events))
    (hissued : id.number < machine.world.ids.next) :
    (machine.readings id moves).Pairwise (fun earlier later => earlier.Fails → later.session.Ruined) ∧
      ∀ reading ∈ machine.readings id moves, reading.Fails → (last.world.session id).Ruined := by
  let motive : List (Reading A.Identity) → Session A.Identity → Prop := fun past session =>
    past.Pairwise (fun earlier later => earlier.Fails → later.session.Ruined) ∧
      ∀ reading ∈ past, reading.Fails → session.Ruined
  refine readings_invariant (motive := motive) ?_ ?_ moves [] hrun hissued ⟨.nil, ?_⟩
  · rintro past session next n ⟨hpast, hruined⟩ hunfed
    exact ⟨hpast, fun reading hmem hfails => (hruined reading hmem hfails).unfed hunfed⟩
  · rintro past reading ⟨hpast, hruined⟩
    refine ⟨List.pairwise_append.2 ⟨hpast, List.pairwise_singleton _ _, ?_⟩, ?_⟩
    · intro earlier hmem later hlater
      rw [List.mem_singleton.1 hlater]
      exact hruined earlier hmem
    · intro other hmem hfails
      rcases List.mem_append.1 hmem with hmem | hmem
      · have hsession := hruined other hmem hfails
        rw [Reading.after, hsession.receive]
        exact hsession
      · rw [List.mem_singleton.1 hmem] at hfails
        obtain ⟨e, herror⟩ := hfails
        exact (Session.receive_of_error herror).2.2
  · exact fun _ hmem => absurd hmem List.not_mem_nil

/-- **A stream that was refused once never gives a payload again.**  Take any run of a machine with a session that was
started, and all chunks that the session is given in it, by calls or by bytes that arrive at the host.  If one of them
is refused, the session was connected, gives none of the payloads of that chunk and is left as it was but for its
decoder.  Every later chunk then leaves the session as it was: it is refused if the session is still connected, also if
it is empty, and is dropped if not.  So is whatever the session is called to receive next, although a closing session
has a decoder that is no longer poisoned. -/
theorem refused_for_good (hrun : machine.run moves = some (last, events))
    (hissued : id.number < machine.world.ids.next) :
    (events.filterMap (Event.received? id)).Sublist ((machine.readings id moves).map Reading.result) ∧
    (machine.readings id moves).Pairwise (fun earlier later => earlier.Fails → later.after = later.session ∧
      later.result = if later.session.state = .connected then .error .poisoned else .ok []) ∧
    ∀ reading ∈ machine.readings id moves, reading.Fails →
      reading.session.state = .connected ∧
      reading.after = { reading.session with
        decoder := (reading.session.decoder.feed reading.chunk).decoder } ∧
      ((last.world.session id).state.isClosing = true → (last.world.session id).decoder.isPoisoned = false) ∧
      (last.world.knows id = true → ∀ chunk, last.move (.call (.receive id chunk)) =
        some (last, .called (.receive id chunk) (.answers (.received
          (if (last.world.session id).state = .connected then .error .poisoned else .ok []))))) := by
  obtain ⟨hpairs, hlast⟩ := ruined_of_readings hrun hissued
  refine ⟨received_sublist moves hrun, hpairs.imp fun hruined hfails => ?_, fun reading hmem hfails => ?_⟩
  · rw [Reading.after, Reading.result, (hruined hfails).receive]
    exact ⟨rfl, rfl⟩
  · have hruined := hlast reading hmem hfails
    obtain ⟨e, herror⟩ := hfails
    obtain ⟨hconnected, hafter, -⟩ := Session.receive_of_error herror
    refine ⟨hconnected, hafter, fun hclosing => ?_, fun hknown chunk => ?_⟩
    · rcases hruined with ⟨hstill, -⟩ | ⟨-, hsound⟩
      · rw [hstill] at hclosing
        cases hclosing
      · exact hsound
    · refine move_of_finish hknown ?_
      simp only [Call.begin, hruined.receive, World.put_session hknown]

/-- A run in which a chunk brings a frame and an oversized header behind it, an empty chunk follows, and the session
is called to receive once more when it is closing. -/
def refusedThenClosed : List (Move .bare) :=
  [.call (.transition ⟨1⟩ .connected), .call (.receive ⟨1⟩ [1, 0, 0, 0, 9, 4, 0, 0, 0]), .call (.receive ⟨1⟩ []),
    .call (.transition ⟨1⟩ .disconnecting), .call (.receive ⟨1⟩ [1, 0, 0, 0, 9])]

theorem refused_for_good_refusedThenClosed :
    ∃ (last : Machine .bare) (events : List (Event .bare)),
      (⟨.ofSession (.start ⟨1⟩ { maxMessageSize := 3 }), []⟩ : Machine .bare).run refusedThenClosed
        = some (last, events) ∧
      events.filterMap (Event.received? ⟨1⟩) = [.error (.messageTooLong 4 3), .error .poisoned, .ok []] ∧
      (last.world.session ⟨1⟩).decoder.isPoisoned = false ∧
      last.move (.call (.receive ⟨1⟩ [0, 0, 0, 0])) =
        some (last, .called (.receive ⟨1⟩ [0, 0, 0, 0]) (.answers (.received (.ok [])))) := by
  obtain ⟨last, events, hrun, hreceived, hclosing, hknown, reading, hmem, hfails⟩ :
      ∃ (last : Machine .bare) (events : List (Event .bare)),
        (⟨.ofSession (.start ⟨1⟩ { maxMessageSize := 3 }), []⟩ : Machine .bare).run refusedThenClosed
          = some (last, events) ∧
        events.filterMap (Event.received? ⟨1⟩) = [.error (.messageTooLong 4 3), .error .poisoned, .ok []] ∧
        (last.world.session ⟨1⟩).state = .disconnecting ∧ last.world.knows ⟨1⟩ = true ∧
        ∃ reading ∈ (⟨.ofSession (.start ⟨1⟩ { maxMessageSize := 3 }), []⟩ : Machine .bare).readings ⟨1⟩
          refusedThenClosed, reading.Fails :=
    ⟨_, _, rfl, rfl, rfl, rfl, _, List.mem_cons_self, _, rfl⟩
  have hissued : (⟨1⟩ : SessionId).number <
      (World.ofSession (.start ⟨1⟩ { maxMessageSize := 3 }) : World .bare).ids.next := by decide
  obtain ⟨-, -, hruined⟩ := refused_for_good hrun hissued
  obtain ⟨-, -, hsound, hnext⟩ := hruined reading hmem hfails
  have hmove := hnext hknown [0, 0, 0, 0]
  rw [hclosing] at hmove hsound
  exact ⟨last, events, hrun, hreceived, hsound rfl, hmove⟩

end Machine

end FramedLink
