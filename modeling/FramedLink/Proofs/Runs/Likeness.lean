import FramedLink.Proofs.Runs.Closing
/-!
# Worlds that run alike

A likeness relates two worlds that differ in one session at most.  What the two sessions may differ in is what nothing
but decoding reads, and everything that the library does to a session keeps them paired.  Then every activity does the
same in both worlds, up to its next call of outside code: it asks the same, leaves the same for later, or ends with
the same result, in worlds that are alike again.  A likeness in which paired sessions are equal is an invariant of one
world.

A likeness may leave out that bytes are fed to the session, or that it logs in.  It may also say when a message may be
handed to a handler (its gate).

Main statements: what is done to any session of a world, or to the host, keeps the likeness (`Likeness.Like.touch` and
those that follow it).
-/
namespace FramedLink

variable {A : Application} {ι : Type}

/-! ## Sessions -/

/-- What is done to a session, apart from logging in and decoding. -/
inductive Session.Touch (session : Session ι) : (Session ι → Session ι) → Prop where
  | enter {target : ConnectionState} (h : session.state.canTransitionTo target = true) : Touch session (·.enter target)
  | noteReason (reason : DisconnectReason) : Touch session (·.noteReason reason)
  | flushing (on : Bool) : Touch session fun session => { session with flushing := on }
  | outbox (box : Outbox) : Touch session fun session => { session with outbox := box }
  | countTransmitted (bytes : Nat) : Touch session (·.countTransmitted bytes)
  | countHandled (h : session.state.isClosing = false) : Touch session (·.countHandled)

theorem Session.Touch.isClosing {session : Session ι} {touch : Session ι → Session ι} (h : session.Touch touch)
    (hopen : (touch session).state.isClosing = false) : session.state.isClosing = false := by
  cases h with
  | @enter target hedge =>
    have hentered : (session.enter target).state = target := by
      unfold Session.enter
      split <;> rfl
    rw [hentered] at hopen
    refine Bool.eq_false_iff.2 fun hclosing => ?_
    rw [ConnectionState.isClosing_of_edge hclosing hedge] at hopen
    cases hopen
  | _ => exact hopen

theorem Session.enqueue_fst (session : Session ι) (payload : Payload) :
    (session.enqueue payload).1 = { session with outbox := (session.enqueue payload).1.outbox } := by
  unfold enqueue
  split
  · rfl
  · split <;> rfl

/-- All of a session but its decoder and its counters. -/
def Session.face (session : Session ι) : Session ι := { session with decoder := .fresh 0, stats := {} }

theorem Session.Touch.face {session : Session ι} {touch : Session ι → Session ι} (h : session.Touch touch)
    (other : Session ι) : (touch other).face = (touch other.face).face := by
  cases h with
  | enter hedge =>
    unfold Session.enter
    split <;> rfl
  | _ => rfl

/-- The message that a query hands to a handler, and the session that it came from. -/
def Query.handled? : Query A → Option (SessionId × A.Message)
  | handle _ id message => some (id, message)
  | transmit _ _ | close _ _ _ | stateChanged _ _ _ _ | disconnected _ _ _ => none

/-- The message that handlers are in the middle of, and the session that it came from. -/
def Delivery.handling? : Delivery A → Option (SessionId × A.Message)
  | handling id message _ _ => some (id, message)
  | rejecting _ _ | ending _ _ => none

def Arrival.handling? : Arrival A → Option (SessionId × A.Message)
  | delivering _ _ _ current => current.handling?
  | malformed _ => none

def Suspended.handling? : Suspended A → Option (SessionId × A.Message)
  | dispatch rest => rest.handling?
  | arrival rest => rest.handling?
  | transition _ | tick _ | disconnect _ | report _ | hostTick _ | sweep _ | shutdown _ | loop _ _ => none

structure Likeness (A : Application) (id : SessionId) where
  pair : Session A.Identity → Session A.Identity → Prop
  fed : Prop
  logs : Prop
  gate : A.Message → Session A.Identity → Prop
  face : ∀ {session other}, pair session other → other.face = session.face
  touch : ∀ {session other touch}, pair session other → session.Touch touch → pair (touch session) (touch other)
  receive : fed → ∀ {session other}, pair session other → ∀ chunk,
    pair (session.receive chunk).1 (other.receive chunk).1 ∧ (other.receive chunk).2 = (session.receive chunk).2
  authenticate : logs → ∀ {session other}, pair session other → ∀ identity,
    pair (session.authenticate identity).1 (other.authenticate identity).1
  admits : ∀ {session other message entry}, pair session other → A.table.get? (A.kindOf message) = some entry →
    (entry.requiresAuthentication = true → session.isAuthenticated = true) → gate message session.countHandled
  keeps : ∀ {session next message deeds}, gate message session → session.Edit deeds next → gate message next

namespace Likeness

variable {id : SessionId} (R : Likeness A id)

/-- The worlds differ in one session that was started before, and host and session are paired.  A session that is not
fed is one that the host tracks until it closes. -/
structure Like (world world' : World A) : Prop where
  issued : id.number < world.ids.next
  known : world.knows id = true
  tracked : R.fed ∨ ((world.session id).state.isClosing = false → world.tracks id = true)
  paired : ∃ session, world' = world.put id session ∧ R.pair (world.session id) session

/-- A message of the session is being handled with the gate's leave. -/
def Gated (world : World A) (handling : Option (SessionId × A.Message)) : Prop :=
  ∀ message, handling = some (id, message) → R.gate message (world.session id)

variable {R} {world world' : World A}

namespace Like

theorem face (h : R.Like world world') (other : SessionId) :
    (world'.session other).face = (world.session other).face := by
  obtain ⟨session, rfl, hpair⟩ := h.paired
  by_cases hother : id = other
  · subst hother
    rw [World.session_put_self]
    exact R.face hpair
  · rw [World.session_put_of_ne _ _ hother]

theorem state (h : R.Like world world') (other : SessionId) :
    (world'.session other).state = (world.session other).state := (congrArg Session.state (h.face other) :)

theorem config (h : R.Like world world') (other : SessionId) :
    (world'.session other).config = (world.session other).config := (congrArg Session.config (h.face other) :)

theorem outbox (h : R.Like world world') (other : SessionId) :
    (world'.session other).outbox = (world.session other).outbox := (congrArg Session.outbox (h.face other) :)

theorem flushing (h : R.Like world world') (other : SessionId) :
    (world'.session other).flushing = (world.session other).flushing := (congrArg Session.flushing (h.face other) :)

theorem reason (h : R.Like world world') (other : SessionId) :
    (world'.session other).reason = (world.session other).reason := (congrArg Session.reason (h.face other) :)

theorem name (h : R.Like world world') (other : SessionId) :
    (world'.session other).id = (world.session other).id := (congrArg Session.id (h.face other) :)

theorem isAuthenticated (h : R.Like world world') (other : SessionId) :
    (world'.session other).isAuthenticated = (world.session other).isAuthenticated :=
  (congrArg Session.isAuthenticated (h.face other) :)

theorem observers (h : R.Like world world') : world'.observers = world.observers := by
  obtain ⟨session, rfl, -⟩ := h.paired
  rfl

theorem trackedList (h : R.Like world world') : world'.tracked = world.tracked := by
  obtain ⟨session, rfl, -⟩ := h.paired
  rfl

theorem tracks (h : R.Like world world') (other : SessionId) : world'.tracks other = world.tracks other := by
  rw [World.tracks, World.tracks, h.trackedList]

theorem isShutDown (h : R.Like world world') : world'.isShutDown = world.isShutDown := by
  obtain ⟨session, rfl, -⟩ := h.paired
  rfl

theorem knows (h : R.Like world world') (other : SessionId) : world'.knows other = world.knows other := by
  obtain ⟨session, rfl, -⟩ := h.paired
  by_cases hother : id = other
  · subst hother
    rw [World.knows_put_self, h.known]
  · rw [World.knows_put_of_ne _ _ hother]

/-- An update that leaves the session alone and commutes with putting it. -/
theorem map (h : R.Like world world') (update : World A → World A)
    (hput : ∀ session, update (world.put id session) = (update world).put id session)
    (hsession : (update world).session id = world.session id) (hknown : (update world).knows id = world.knows id)
    (hids : world.ids.next ≤ (update world).ids.next)
    (htracked : R.fed ∨ ((world.session id).state.isClosing = false → world.tracks id = true →
      (update world).tracks id = true)) : R.Like (update world) (update world') := by
  obtain ⟨session, rfl, hpair⟩ := h.paired
  refine ⟨Nat.lt_of_lt_of_le h.issued hids, hknown.trans h.known, ?_, session, hput session, by rwa [hsession]⟩
  rw [hsession]
  rcases h.tracked with hfed | hopen
  · exact .inl hfed
  · rcases htracked with hfed | hstill
    · exact .inl hfed
    · exact .inr fun hstate => hstill hstate (hopen hstate)

/-- An update of any session that keeps the pair. -/
theorem modify (h : R.Like world world') (other : SessionId) {update : Session A.Identity → Session A.Identity}
    (hpair : other = id → ∀ {session : Session A.Identity}, R.pair (world.session id) session →
      R.pair (update (world.session id)) (update session))
    (hopen : other = id → (update (world.session id)).state.isClosing = false →
      (world.session id).state.isClosing = false) :
    R.Like (world.modify other update) (world'.modify other update) := by
  by_cases hother : id = other
  · subst hother
    obtain ⟨session, rfl, hpaired⟩ := h.paired
    refine ⟨h.issued, World.knows_put_self _ _ _, ?_, update session, ?_, ?_⟩
    · rw [World.modify, World.session_put_self]
      exact h.tracked.imp (fun hfed => hfed) fun htracks hstate => htracks (hopen rfl hstate)
    · rw [World.modify, World.modify, World.session_put_self, World.put_put, World.put_put]
    · rw [World.modify, World.session_put_self]
      exact hpair rfl hpaired
  · refine h.map (·.modify other update) (fun session => ?_) ?_ ?_ (Nat.le_refl _)
      (.inr fun _ htracks => htracks)
    · rw [World.modify, World.session_put_of_ne _ _ hother, World.put_comm _ _ hother h.known, World.modify]
    · rw [World.modify, World.session_put_of_ne _ _ (Ne.symm hother)]
    · rw [World.modify, World.knows_put_of_ne _ _ (Ne.symm hother)]

theorem touch (h : R.Like world world') (other : SessionId) {touch : Session A.Identity → Session A.Identity}
    (htouch : (world.session other).Touch touch) : R.Like (world.modify other touch) (world'.modify other touch) := by
  refine h.modify other (fun hother _ hpair => ?_) fun hother => ?_
  · subst hother
    exact R.touch hpair htouch
  · subst hother
    exact htouch.isClosing

theorem authenticate (h : R.Like world world') (other : SessionId) (hlogs : other = id → R.logs)
    (identity : Option A.Identity) :
    R.Like (world.modify other fun session => (session.authenticate identity).1)
      (world'.modify other fun session => (session.authenticate identity).1) := by
  refine h.modify other (fun hother _ hpair => R.authenticate (hlogs hother) hpair identity) fun _ hopen => ?_
  rcases (world.session id).authenticate_cases identity with ⟨e, heq⟩ | ⟨hstate, -⟩
  · rwa [heq] at hopen
  · exact hstate

theorem receive (h : R.Like world world') (other : SessionId) (hfed : other = id → R.fed) (chunk : List UInt8) :
    R.Like (world.modify other fun session => (session.receive chunk).1)
      (world'.modify other fun session => (session.receive chunk).1) := by
  refine h.modify other (fun hother _ hpair => (R.receive (hfed hother) hpair chunk).1) fun _ hopen => ?_
  rcases (world.session id).receive_cases chunk with ⟨-, heq⟩ | ⟨hconnected, -⟩
  · rwa [heq] at hopen
  · rw [hconnected]
    rfl

theorem receive_result (h : R.Like world world') (other : SessionId) (hfed : other = id → R.fed) (chunk : List UInt8) :
    ((world'.session other).receive chunk).2 = ((world.session other).receive chunk).2 := by
  obtain ⟨session, rfl, hpair⟩ := h.paired
  by_cases hother : id = other
  · subst hother
    rw [World.session_put_self]
    exact (R.receive (hfed rfl) hpair chunk).2
  · rw [World.session_put_of_ne _ _ hother]

theorem authenticate_result (h : R.Like world world') (other : SessionId) (identity : Option A.Identity) :
    ((world'.session other).authenticate identity).2 = ((world.session other).authenticate identity).2 := by
  unfold Session.authenticate
  rw [h.state, h.isAuthenticated, h.name]
  split
  · rfl
  · split <;> rfl

theorem enqueue_result (h : R.Like world world') (other : SessionId) (payload : Payload) :
    ((world'.session other).enqueue payload).2 = ((world.session other).enqueue payload).2 ∧
      ((world'.session other).enqueue payload).1.outbox = ((world.session other).enqueue payload).1.outbox := by
  have hbox := h.outbox other
  unfold Session.enqueue
  rw [h.state, h.config, h.outbox]
  split
  · exact ⟨rfl, hbox⟩
  · split
    · exact ⟨rfl, hbox⟩
    · exact ⟨rfl, rfl⟩

theorem enqueue (h : R.Like world world') (other : SessionId) (payload : Payload) :
    R.Like (world.modify other fun session => (session.enqueue payload).1)
      (world'.modify other fun session => (session.enqueue payload).1) := by
  have hnext := h.touch other (.outbox ((world.session other).enqueue payload).1.outbox)
  rw [World.modify, World.modify] at hnext ⊢
  rw [Session.enqueue_fst (world.session other), Session.enqueue_fst (world'.session other),
    (h.enqueue_result other payload).2]
  exact hnext

/-- What is made of the session is the same in both worlds, if it is the same of paired sessions. -/
theorem modify_eq (h : R.Like world world') {f : Session A.Identity → Session A.Identity}
    (hsame : ∀ session, R.pair (world.session id) session → f session = f (world.session id)) :
    world'.modify id f = world.modify id f := by
  obtain ⟨session, rfl, hpair⟩ := h.paired
  rw [World.modify, World.modify, World.session_put_self, World.put_put, hsame session hpair]

theorem openSession (h : R.Like world world') :
    R.Like world.openSession.1 world'.openSession.1 ∧ world'.openSession.2 = world.openSession.2 := by
  obtain ⟨session, rfl, hpair⟩ := h.paired
  have hnew : id ≠ (⟨world.ids.next⟩ : SessionId) := by
    rintro rfl
    exact Nat.lt_irrefl _ h.issued
  have hopened : (world.put id session).openSession =
      (world.openSession.1.put id session, world.openSession.2) := by
    by_cases hdown : world.isShutDown = true
    · simp [World.openSession, World.put, hdown]
    · by_cases hfull : world.config.maxSessions ≤ world.tracked.length
      · simp [World.openSession, World.put, hdown, hfull]
      · have hcomm := World.put_comm session (.start ⟨world.ids.next⟩ world.config.session) hnew h.known
        simp only [World.put, World.mk.injEq, and_true, true_and] at hcomm
        simp [World.openSession, World.put, hdown, hfull, SessionIds.issue, hcomm]
  have hsame : world.openSession.1.session id = world.session id ∧ world.openSession.1.knows id = world.knows id ∧
      world.ids.next ≤ world.openSession.1.ids.next ∧
      (world.tracks id = true → world.openSession.1.tracks id = true) := by
    unfold World.openSession
    split
    · exact ⟨rfl, rfl, Nat.le_refl _, fun htracks => htracks⟩
    · split
      · exact ⟨rfl, rfl, Nat.le_refl _, fun htracks => htracks⟩
      · have hsession := World.session_put_of_ne world (.start ⟨world.ids.next⟩ world.config.session) hnew.symm
        have hknown := World.knows_put_of_ne world (.start ⟨world.ids.next⟩ world.config.session) hnew.symm
        refine ⟨hsession, hknown, Nat.le_succ _, fun htracks => ?_⟩
        simp only [World.tracks, List.contains_eq_mem, decide_eq_true_eq] at htracks ⊢
        exact List.mem_append_left _ htracks
  obtain ⟨hsession, hknown, hids, htracked⟩ := hsame
  rw [hopened]
  refine ⟨⟨Nat.lt_of_lt_of_le h.issued hids, hknown.trans h.known, ?_, session, rfl, by rwa [hsession]⟩, rfl⟩
  rw [hsession]
  exact h.tracked.imp (fun hfed => hfed) fun hopen hstate => htracked (hopen hstate)

theorem forget (h : R.Like world world') (other : SessionId)
    (hended : R.fed ∨ (other = id → (world.session id).state.isClosing = true)) :
    R.Like (world.forget other) (world'.forget other) := by
  refine h.map (·.forget other) (fun _ => rfl) rfl rfl (Nat.le_refl _) (hended.imp (fun hfed => hfed) ?_)
  intro hclosing hstate htracks
  have hother : other ≠ id := by
    intro heq
    rw [hclosing heq] at hstate
    cases hstate
  simp only [World.tracks, World.forget, List.contains_eq_mem, decide_eq_true_eq] at htracks ⊢
  exact List.mem_filter.2 ⟨htracks, by simp [hother.symm]⟩

theorem addObserver (h : R.Like world world') (observer : A.Observer) :
    R.Like (world.addObserver observer) (world'.addObserver observer) :=
  h.map (·.addObserver observer) (fun _ => rfl) rfl rfl (Nat.le_refl _) (.inr fun _ htracks => htracks)

theorem shutDown (h : R.Like world world') :
    R.Like { world with isShutDown := true } { world' with isShutDown := true } :=
  h.map (fun world => { world with isShutDown := true }) (fun _ => rfl) rfl rfl (Nat.le_refl _)
    (.inr fun _ htracks => htracks)

theorem setLoop (h : R.Like world world') (number : Nat) (loop : FlushLoop) :
    R.Like (world.setLoop number loop) (world'.setLoop number loop) :=
  h.map (·.setLoop number loop) (fun _ => rfl) rfl rfl (Nat.le_refl _) (.inr fun _ htracks => htracks)

theorem startLoop (h : R.Like world world') (now : Nat) :
    R.Like (world.startLoop now).1 (world'.startLoop now).1 ∧ (world'.startLoop now).2 = (world.startLoop now).2 := by
  refine ⟨h.map (fun world => (world.startLoop now).1) (fun _ => rfl) rfl rfl (Nat.le_refl _)
    (.inr fun _ htracks => htracks), ?_⟩
  obtain ⟨session, rfl, -⟩ := h.paired
  rfl

theorem loop? (h : R.Like world world') (number : Nat) : world'.loop? number = world.loop? number := by
  obtain ⟨session, rfl, -⟩ := h.paired
  rfl

theorem hostConfig (h : R.Like world world') : world'.config = world.config := by
  obtain ⟨session, rfl, -⟩ := h.paired
  rfl

end Like

end Likeness

end FramedLink
