import FramedLink.Proofs.Lives.Ending
import FramedLink.Proofs.Runs.Pace
/-!
# Hosts that have come to rest

A host that is shut down and of which every session is closing is at rest, and stays so whatever is called or returns.
It opens no session and transmits nothing, and of what it is given to decode or to dispatch nothing reaches a handler
any more.  What handlers are in the middle of comes to its end, and so does every flush loop: its next tick finds
nothing to send and is its last.

Main statements: rest is kept (`Machine.Halted.run`), and what follows from it (the other theorems on
`Machine.Halted`).
-/
namespace FramedLink

variable {A : Application} {id : SessionId} {number : Nat}

/-! ## Shutting down -/

/-- A host is shut down by one call only. -/
theorem Call.isShutDown_notes (world : World A) (call : Call A) :
    (call.notes world).isShutDown = true ↔ world.isShutDown = true ∨ ∃ order, call = .hostShutdown order := by
  have hsame {next : World A} (h : next.isShutDown = world.isShutDown) (hother : ∀ order, call ≠ .hostShutdown order) :
      next.isShutDown = true ↔ world.isShutDown = true ∨ ∃ order, call = .hostShutdown order := by
    rw [h, or_iff_left (not_exists.2 hother)]
  cases call with
  | hostShutdown order => exact ⟨fun _ => .inr ⟨order, rfl⟩, fun _ => rfl⟩
  | hostOpen =>
    refine hsame ?_ fun _ heq => by cases heq
    rcases world.openSession_cases with ⟨e, heq⟩ | ⟨-, -, heq⟩
    · rw [Call.notes, heq]
    · rw [Call.notes, heq]
      rfl
  | wakeLoop number now order =>
    refine hsame ?_ fun _ heq => by cases heq
    rcases world.wakeLoop_cases number now order with ⟨hbegin, -, -⟩ | ⟨due, -, -, hbegin, -⟩
    · rw [Call.notes, hbegin]
    · rw [Call.notes, hbegin]
      rfl
  | _ => exact hsame rfl fun _ heq => by cases heq

theorem World.isShutDown_settleTick (world : World A) (number : Nat) :
    (world.settleTick number).isShutDown = world.isShutDown := by
  unfold settleTick
  split <;> rfl

theorem World.isShutDown_dropReported (world : World A) (id : SessionId) (state : ConnectionState) :
    (world.dropReported id state).isShutDown = world.isShutDown := by
  unfold dropReported
  split <;> rfl

theorem Call.isShutDown_settles (world : World A) (call : Call A) (answer : Answer) :
    (call.settles world answer).isShutDown = world.isShutDown := by
  unfold settles
  split
  · exact world.isShutDown_dropReported _ _
  · exact world.isShutDown_settleTick _
  · rfl

theorem Suspended.isShutDown_settles (world : World A) (rest : Suspended A) :
    (rest.settles world).isShutDown = world.isShutDown := by
  cases rest with
  | report rest => exact world.isShutDown_dropReported _ _
  | loop number rest => exact world.isShutDown_settleTick _
  | _ => rfl

theorem Machine.isShutDown_turns {machine next : Machine A} {event : Event A} {scope : SessionId → Prop}
    (hturns : machine.Turns scope next event) : next.world.isShutDown = true ↔
      machine.world.isShutDown = true ∨ ∃ order signal, event = .called (.hostShutdown order) signal := by
  have hcalled {call : Call A} {signal : Signal A} :
      (∃ order other, Event.called call signal = .called (.hostShutdown order) other) ↔
        ∃ order, call = .hostShutdown order :=
    ⟨fun ⟨order, _, heq⟩ => ⟨order, (Event.called.inj heq).1⟩, fun ⟨order, heq⟩ => ⟨order, signal, by rw [heq]⟩⟩
  have hreturned {query : Query A} {reply : Reply} {signal : Signal A} :
      ¬ ∃ order other, Event.returned query reply signal = .called (.hostShutdown order) other := by
    rintro ⟨order, other, heq⟩
    cases heq
  cases hturns with
  | begins _ _ _ _ hbooks => rw [hbooks.isShutDown, Call.isShutDown_notes, hcalled]
  | passes _ _ hbooks => rw [hbooks.isShutDown, Call.isShutDown_settles, Call.isShutDown_notes, hcalled]
  | goesOn _ _ _ _ _ hbooks => rw [hbooks.isShutDown, (World.sameHost_returned _ _ _).isShutDown, or_iff_left hreturned]
  | ends _ _ _ hbooks =>
    rw [hbooks.isShutDown, Suspended.isShutDown_settles, (World.sameHost_returned _ _ _).isShutDown,
      or_iff_left hreturned]

/-! ## What is counted of a closing session -/

/-- What a session has taken in: received bytes, complete payloads, and messages that were handed to handlers. -/
def SessionStats.intake (stats : SessionStats) : Nat × Nat × Nat :=
  (stats.bytesReceived, stats.framesReceived, stats.messagesHandled)

/-- No edit takes back that messages were handled. -/
theorem Session.Edit.messagesHandled_le {ι : Type} {session next : Session ι} {deeds : List Deed}
    (h : session.Edit deeds next) : session.stats.messagesHandled ≤ next.stats.messagesHandled := by
  cases h with
  | enter hedge => rw [session.stats_enter]
  | authenticate identity => rw [session.stats_authenticate]
  | enqueue payload => rw [session.stats_enqueue]
  | receive chunk =>
    unfold Session.receive
    split
    · cases hanswer : (session.decoder.feed chunk).answer with
      | error e =>
        simp only [hanswer]
        exact Nat.le_refl _
      | ok count =>
        simp only [hanswer]
        exact Nat.le_refl _
    · exact Nat.le_refl _
  | countHandled => exact Nat.le_succ _
  | _ => exact Nat.le_refl _

namespace Likeness

/-- A closing session takes in nothing, and no message is handled but those that were before. -/
def atRest (id : SessionId) (intake : Nat × Nat × Nat) (before : A.Message → Prop) : Likeness A id :=
  keeping id (fun session => session.state.isClosing = true ∧ session.stats.intake = intake)
    (fun message session => before message ∨ intake.2.2 < session.stats.messagesHandled) True
    (fun {session _} hkept htouch => by
      obtain ⟨hclosing, hintake⟩ := hkept
      cases htouch with
      | @enter target hedge =>
        refine ⟨?_, (congrArg SessionStats.intake (session.stats_enter target)).trans hintake⟩
        have hentered : (session.enter target).state = target := by
          unfold Session.enter
          split <;> rfl
        rw [hentered]
        exact ConnectionState.isClosing_of_edge hclosing hedge
      | countHandled hopen =>
        rw [hclosing] at hopen
        cases hopen
      | noteReason | flushing | outbox | countTransmitted => exact ⟨hclosing, hintake⟩)
    (fun {session} hkept chunk => by
      rcases session.receive_cases chunk with ⟨-, heq⟩ | ⟨hconnected, -⟩
      · rw [heq]
        exact hkept
      · rw [hconnected] at hkept
        cases hkept.1)
    (fun _ session hkept identity => by
      rcases session.authenticate_cases identity with ⟨e, heq⟩ | ⟨hopen, -⟩
      · rw [heq]
        exact hkept
      · rw [hkept.1] at hopen
        cases hopen)
    (fun {session _ _} hkept _ _ => by
      refine .inr ?_
      rw [← hkept.2]
      exact Nat.lt_succ_self session.stats.messagesHandled)
    (fun hgate hedit => hgate.imp_right fun hless => Nat.lt_of_lt_of_le hless hedit.messagesHandled_le)

end Likeness

/-! ## Ticks that find nothing to send -/

namespace World

/-- A sweep of closing sessions ends at once. -/
theorem sweep_of_closing {world : World A} (total : TickSummary) : ∀ ids : List SessionId,
    (∀ id ∈ ids, (world.session id).state.isClosing = true) → world.sweep total ids = .finish world total
  | [], _ => rfl
  | id :: rest, h => by
    obtain ⟨hclosing, hrest⟩ := List.forall_mem_cons.1 h
    rw [sweep, flushSession, tick_of_closing hclosing]
    exact sweep_of_closing total rest hrest

/-- A due tick of a loop whose host is at rest is its last. -/
theorem wakeLoop_of_closing {world : World A} (hdown : world.isShutDown = true)
    (hclosing : ∀ id ∈ world.tracked, (world.session id).state.isClosing = true) {due now : Nat}
    (hloop : world.loop? number = some (.waiting due)) (hdue : due ≤ now) (order : Enumeration) :
    world.wakeLoop number now order = .finish (world.setLoop number .ended) true := by
  rcases world.wakeLoop_cases number now order with ⟨-, -, hearly⟩ | ⟨_, -, -, hbegin, htick⟩
  · exact absurd (hearly due hloop) (Nat.not_lt.2 hdue)
  · rw [hbegin] at htick
    have hticking (later : Nat) : (world.setLoop number (.ticking later)).loop? number = some (.ticking later) :=
      loop?_setLoop_self world _ (List.getElem?_eq_some_iff.1 hloop).1
    have hlast (later : Nat) :
        (world.setLoop number (.ticking later)).settleTick number = world.setLoop number .ended := by
      rw [settleTick, hticking]
      simp only [FlushLoop.await, setLoop, hdown, if_true, List.set_set]
    have hnothing (later : Nat) : (world.setLoop number (.ticking later)).sweep {} (order.arrange world.tracked) =
        .finish (world.setLoop number (.ticking later)) {} :=
      sweep_of_closing {} _ (order.forall_mem_arrange.2 hclosing)
    rw [htick, hnothing, Activity.andThen_finish, hlast]

end World

/-! ## Rest -/

namespace Machine

variable {machine next last : Machine A} {event : Event A}

/-- Handlers are in the middle of the message of a session. -/
def InHand (machine : Machine A) (id : SessionId) (message : A.Message) : Prop :=
  ∃ waiting ∈ machine.waiting, waiting.rest.handling? = some (id, message)

/-- The host is shut down, and each session that was ever started is closing. -/
structure Halted (machine : Machine A) : Prop where
  order : machine.InOrder
  down : machine.world.isShutDown = true
  closing : ∀ id, machine.world.Known id → (machine.world.session id).state.isClosing = true

namespace Halted

theorem holds (h : machine.Halted) (hknown : machine.world.Known id) : machine.Holds id :=
  ⟨((h.order.world.started id).1 hknown).2, hknown, h.order.world.tidy id hknown⟩

theorem openSession (h : machine.Halted) : machine.world.openSession = (machine.world, .error .shutDown) :=
  World.openSession_of_shutDown h.down

/-- No session is started any more, and none is tracked that was not. -/
theorem register {move : Move A} (h : machine.Halted) (hmove : machine.move move = some (next, event)) :
    (∀ id, next.world.Known id ↔ machine.world.Known id) ∧ next.world.tracked.Sublist machine.world.tracked := by
  by_cases hopen : move = .call .hostOpen
  · subst hopen
    rw [move_hostOpen, h.openSession] at hmove
    cases hmove
    exact ⟨fun _ => Iff.rfl, .refl _⟩
  · have hstrikes := h.order.strikes hmove hopen
    refine ⟨hstrikes.known, ?_⟩
    rw [hstrikes.tracked]
    exact List.filter_sublist

/-- **A host at rest stays so.** -/
theorem move {move : Move A} (h : machine.Halted) (hmove : machine.move move = some (next, event)) : next.Halted where
  order := h.order.move hmove
  down := (isShutDown_turns (h.order.turns hmove)).2 (.inl h.down)
  closing := fun id hknown => by
    have hbefore := ((h.register hmove).1 id).1 hknown
    exact (move_edits hmove).isClosing (h.holds hbefore).issued (h.closing id hbefore)

theorem run {moves : List (Move A)} {events : List (Event A)} (h : machine.Halted)
    (hrun : machine.run moves = some (last, events)) :
    last.Halted ∧ (∀ id, last.world.Known id ↔ machine.world.Known id) ∧
      last.world.tracked.Sublist machine.world.tracked := by
  refine run_invariant (motive := fun _ reached => reached.Halted ∧
    (∀ id, reached.world.Known id ↔ machine.world.Known id) ∧ reached.world.tracked.Sublist machine.world.tracked)
    (fun hall hmove => ?_) ⟨h, fun _ => Iff.rfl, .refl _⟩ hrun
  obtain ⟨hreached, hknown, htracked⟩ := hall
  obtain ⟨hsame, hfewer⟩ := hreached.register hmove
  exact ⟨hreached.move hmove, fun id => (hsame id).trans (hknown id), hfewer.trans htracked⟩

/-- No transmit is started for any session. -/
theorem silent {moves : List (Move A)} {events : List (Event A)} (h : machine.Halted)
    (hrun : machine.run moves = some (last, events)) (id : SessionId) : ∀ event ∈ events, ¬ event.Transmits id := by
  intro event hmem htransmits
  obtain ⟨earlier, later, rfl⟩ := List.append_of_mem hmem
  obtain ⟨before, move, _, middle, next, -, hbefore, hmove, -⟩ := exists_at earlier hrun
  obtain ⟨hmiddle, hsame, -⟩ := h.run hbefore
  have hknown : machine.world.Known id := by
    obtain ⟨data, hasks⟩ := htransmits
    exact (hsame id).1 (hmiddle.order.asks hmove hasks)
  exact (h.holds hknown).silent (h.closing id hknown) hrun event hmem htransmits

/-! ### Messages -/

theorem holding (h : machine.Halted) (hknown : machine.world.Known id) :
    (Likeness.atRest id (machine.world.session id).stats.intake (machine.InHand id)).Holding machine :=
  .of_pair True.intro (h.holds hknown).issued hknown ⟨rfl, h.closing id hknown, rfl⟩
    fun waiting hmem _ hhandling => .inl ⟨waiting, hmem, hhandling⟩

/-- A session takes in nothing. -/
theorem intake {moves : List (Move A)} {events : List (Event A)} (h : machine.Halted)
    (hrun : machine.run moves = some (last, events)) (hknown : machine.world.Known id) :
    (last.world.session id).stats.intake = (machine.world.session id).stats.intake := by
  have hlast := (h.holding hknown).run moves hrun (fun _ _ _ => True.intro) fun _ _ _ => True.intro
  obtain ⟨_, -, -, -, hintake⟩ := hlast.world.paired
  exact hintake

/-- Handlers are called for messages only that they are in the middle of. -/
theorem handles {moves : List (Move A)} {events : List (Event A)} (h : machine.Halted)
    (hrun : machine.run moves = some (last, events)) (hmem : event ∈ events) {handler : A.Handler}
    {message : A.Message} (hasks : event.signal = .asks (.handle handler id message)) : machine.InHand id message := by
  obtain ⟨earlier, later, rfl⟩ := List.append_of_mem hmem
  obtain ⟨before, move, _, middle, next, -, hbefore, hmove, -⟩ := exists_at earlier hrun
  obtain ⟨hmiddle, hsame, -⟩ := h.run hbefore
  have hknown : machine.world.Known id := (hsame id).1 (hmiddle.order.asks hmove hasks)
  have hholding := (h.holding hknown).run before hbefore (fun _ _ _ => True.intro) fun _ _ _ => True.intro
  obtain ⟨hnext, hgated⟩ := hholding.move (fun _ _ _ => True.intro) (fun _ _ _ => True.intro) hmove
  refine (hgated _ hasks message rfl).resolve_right fun hmore => ?_
  obtain ⟨_, -, -, -, hintake⟩ := hnext.world.paired
  rw [← hintake] at hmore
  exact Nat.lt_irrefl _ hmore

/-! ### Calls -/

theorem move_hostOpen (h : machine.Halted) : machine.move (.call .hostOpen) =
    some (machine, .called .hostOpen (.answers (.opened (.error .shutDown)))) := by
  rw [Machine.move_hostOpen, h.openSession]

theorem move_hostShutdown (h : machine.Halted) (order : Enumeration) : machine.move (.call (.hostShutdown order)) =
    some (machine, .called (.hostShutdown order) (.answers .nothing)) := by
  refine move_of_finish rfl ?_
  rw [Call.begin, World.shutdown, if_pos h.down]
  rfl

/-- Bytes that are received, for whatever session, are not decoded. -/
theorem move_hostReceive (h : machine.Halted) (id : SessionId) (chunk : List UInt8) :
    machine.move (.call (.hostReceive id chunk)) =
      some (machine, .called (.hostReceive id chunk) (.answers (.count 0))) := by
  by_cases htracks : machine.world.tracks id = true
  · have hknown := h.order.world.tracked id (List.contains_iff_mem.1 htracks)
    exact (h.holds hknown).refuses (h.closing id hknown) rfl
  · refine move_of_finish rfl ?_
    rw [Call.begin, World.hostReceive, if_neg htracks]
    rfl

theorem move_wakeLoop (h : machine.Halted) {due now : Nat}
    (hloop : machine.world.loop? number = some (.waiting due)) (hdue : due ≤ now) (order : Enumeration) :
    machine.move (.call (.wakeLoop number now order)) = some (⟨machine.world.setLoop number .ended, machine.waiting⟩,
      .called (.wakeLoop number now order) (.answers (.flag true))) := by
  refine move_of_finish rfl ?_
  have hclosing : ∀ id ∈ machine.world.tracked, (machine.world.session id).state.isClosing = true :=
    fun id hid => h.closing id (h.order.world.tracked id hid)
  rw [Call.begin, World.wakeLoop_of_closing h.down hclosing hloop hdue order]
  rfl

end Halted

/-- A loop that is woken when no tick is due does nothing. -/
theorem move_wakeLoop_of_early {now : Nat}
    (h : ∀ due, machine.world.loop? number = some (.waiting due) → now < due) (order : Enumeration) :
    machine.move (.call (.wakeLoop number now order)) =
      some (machine, .called (.wakeLoop number now order) (.answers (.flag false))) := by
  refine move_of_finish rfl ?_
  rcases machine.world.wakeLoop_cases number now order with ⟨-, hidle, -⟩ | ⟨due, hloop, hdue, -, -⟩
  · rw [Call.begin, hidle]
    rfl
  · exact absurd (h due hloop) (Nat.not_lt.2 hdue)

/-! ## Loops at rest -/

/-- How many ticks a flush loop waits for. -/
def loopWaits (number : Nat) (machine : Machine A) : Nat := ((machine.world.loop? number).map FlushLoop.waits).getD 0

/-- A loop whose host is shut down waits for one tick fewer each time it flushes. -/
theorem Beats.waits (h : machine.Beats number next event) (hdown : machine.world.isShutDown = true) :
    (event.flushes number).toNat + next.loopWaits number = machine.loopWaits number := by
  unfold loopWaits
  cases h with
  | rests hloop _ hevent => rw [hloop, hevent, Bool.toNat_false, Nat.zero_add]
  | starts hnone hloop _ hevent =>
    rw [hnone, hloop, hevent, hdown]
    rfl
  | begins hwaiting hloop _ hevent =>
    rw [hwaiting, hloop, hevent]
    rfl
  | passes hwaiting hloop _ hevent =>
    rw [hwaiting, hloop, hevent, hdown]
    rfl
  | ends hticking hloop _ hevent =>
    rw [hticking, hloop, hevent, hdown]
    rfl

theorem Halted.waits {moves : List (Move A)} {events : List (Event A)} (h : machine.Halted)
    (hpaced : machine.Paced number) (hrun : machine.run moves = some (last, events)) :
    events.countP (Event.flushes number) + last.loopWaits number = machine.loopWaits number := by
  refine (run_invariant (motive := fun past reached => reached.Halted ∧ reached.Paced number ∧
    past.countP (Event.flushes number) + reached.loopWaits number = machine.loopWaits number)
    (fun {past reached next move event} hall hmove => ?_) ⟨h, hpaced, Nat.zero_add _⟩ hrun).2.2
  obtain ⟨hreached, hpaced, hwaits⟩ := hall
  have hbeats := hpaced.beats (hreached.order.turns hmove)
  refine ⟨hreached.move hmove, hbeats.paced hpaced, ?_⟩
  rw [List.countP_append, List.countP_singleton, ← hwaits, ← hbeats.waits hreached.down, Nat.add_assoc]
  cases event.flushes number <;> rfl

end Machine

end FramedLink
