import FramedLink.Proofs.Hosts.Halt
import FramedLink.Proofs.Runs.Ledger
/-!
# Shutting a host down

A shutdown disconnects the sessions that the host tracks as it begins, one after the other, while outside code may call
the host again.  No session escapes: none is opened any more, and each that is tracked is closing or still to come, or
is the one that is being flushed (`Shutdown.Covers`), and then its disconnect goes on to close it whatever becomes of
the flush.

Main statement: when the shutdown has returned the host is at rest (`Machine.shutdown_final`).
-/
namespace FramedLink

variable {A : Application} {id : SessionId}

/-! ## What a shutdown still has to close -/

/-- The session is still to be disconnected, or is being flushed before it is. -/
def Shutdown.Covers (id : SessionId) (shutdown : Shutdown A) : Prop :=
  id ∈ shutdown.rest ∨ ∃ reason flush, shutdown.current = .flushing id reason flush

/-- A shutdown that goes on covers the session, or the session is closing. -/
def Activity.Shuts (id : SessionId) (activity : Activity A (Shutdown A) Unit) : Prop :=
  activity.progress = .stuck ∨ (activity.world.session id).state.isClosing = true ∨
    ∃ query shutdown, activity.progress = .asks query shutdown ∧ shutdown.Covers id

namespace World

variable {world : World A}

theorem shuts_andThen {first : Activity A (Disconnect A) Unit} {rest : List SessionId}
    (hcomes : first.ComesFrom world) (hissued : id.number < world.ids.next) (h : id ∈ rest ∨ Heading id first)
    (hrest : id ∈ rest → ∀ world : World A, id.number < world.ids.next → (world.disconnectEach rest).Shuts id) :
    (first.andThen (⟨·, rest⟩) fun world _ => world.disconnectEach rest).Shuts id := by
  unfold Activity.andThen
  cases hprogress : first.progress with
  | done result =>
    rcases h with hmem | hstuck | ⟨hissued', hclosing | ⟨_, _, _, hasks⟩⟩
    · have hedits : world.Edits [] first.world := by rwa [Activity.ComesFrom, Activity.Records, hprogress] at hcomes
      exact hrest hmem _ (hedits.rank_le hissued).2
    · rw [hprogress] at hstuck
      cases hstuck
    · by_cases hstuck : (first.world.disconnectEach rest).progress = .stuck
      · exact .inl hstuck
      · obtain ⟨marks, hedits⟩ := Likeness.exists_edits (disconnectEach_comesFrom rest first.world) hstuck
        exact .inr (.inl (hedits.isClosing hissued' hclosing))
    · rw [hprogress] at hasks
      cases hasks
  | asks query current =>
    rcases h with hmem | hstuck | ⟨-, hclosing | ⟨_, reason, flush, hasks⟩⟩
    · exact .inr (.inr ⟨query, ⟨current, rest⟩, rfl, .inl hmem⟩)
    · rw [hprogress] at hstuck
      cases hstuck
    · exact .inr (.inl hclosing)
    · rw [hprogress] at hasks
      cases hasks
      exact .inr (.inr ⟨query, _, rfl, .inr ⟨reason, flush, rfl⟩⟩)
  | stuck => exact .inl rfl

theorem disconnectEach_shuts : ∀ (ids : List SessionId) (world : World A), id ∈ ids → id.number < world.ids.next →
    (world.disconnectEach ids).Shuts id
  | other :: rest, world, hmem, hissued => by
    refine shuts_andThen (world.disconnect_comesFrom other _ true) hissued ?_ fun hmem world =>
      disconnectEach_shuts rest world hmem
    rcases List.mem_cons.1 hmem with rfl | hmem
    · exact .inr (heading_disconnect hissued _ true)
    · exact .inl hmem

theorem resumeShutdown_shuts (world : World A) (hissued : id.number < world.ids.next) (reply : Reply)
    {shutdown : Shutdown A} (h : shutdown.Covers id) : (shutdown.resume world reply).Shuts id := by
  refine shuts_andThen (world.resumeDisconnect_comesFrom reply shutdown.current) hissued ?_ fun hmem world =>
    disconnectEach_shuts shutdown.rest world hmem
  refine h.imp_right fun ⟨reason, flush, hcurrent⟩ => ?_
  rw [hcurrent]
  exact heading_andThen_leave (world.resumeFlush_comesFrom flush reply) hissued

end World

namespace Machine

variable {machine next last : Machine A} {event : Event A}

/-- A shutdown waits that covers the session. -/
def IsCovered (machine : Machine A) (id : SessionId) : Prop :=
  ∃ waiting ∈ machine.waiting, ∃ shutdown, waiting.rest = .shutdown shutdown ∧ shutdown.Covers id

/-- If the host is shut down, each session that it tracks is closing or covered. -/
def Covering (machine : Machine A) : Prop :=
  machine.world.isShutDown = true → ∀ id ∈ machine.world.tracked,
    (machine.world.session id).state.isClosing = true ∨ machine.IsCovered id

/-- A call of a shutdown that ends has closed the session, and one that asks covers it otherwise. -/
theorem shuts_call {activity : Activity A (Shutdown A) Unit} (h : activity.Shuts id) :
    (∀ world query rest, Call.wrap activity .shutdown (fun _ => .nothing) = .ask world query rest →
      (world.session id).state.isClosing = true ∨ ∃ shutdown, rest = .shutdown shutdown ∧ shutdown.Covers id) ∧
    ∀ world answer, Call.wrap activity .shutdown (fun _ => .nothing) = .finish world answer →
      (world.session id).state.isClosing = true := by
  refine ⟨fun world query rest hasks => ?_, fun world answer hends => ?_⟩
  · obtain ⟨shutdown, rfl, rfl⟩ := Call.wrap_eq_ask hasks
    rcases h with hstuck | hclosing | ⟨_, _, hprogress, hcovers⟩
    · cases hstuck
    · exact .inl hclosing
    · cases hprogress
      exact .inr ⟨shutdown, rfl, hcovers⟩
  · obtain ⟨result, rfl, -⟩ := Call.wrap_eq_finish hends
    rcases h with hstuck | hclosing | ⟨_, _, hprogress, -⟩
    · cases hstuck
    · exact hclosing
    · cases hprogress

/-- The first call of a shutdown covers every session that the host tracks. -/
theorem covers_of_shutdown (h : machine.InOrder) (hdown : machine.world.isShutDown = false)
    (hid : id ∈ machine.world.tracked) (order : Enumeration) : (machine.world.shutdown order).Shuts id := by
  rw [World.shutdown, hdown, if_neg Bool.false_ne_true]
  exact World.disconnectEach_shuts _ _ (order.mem_arrange.2 hid) ((h.world.started id).1 (h.world.tracked id hid)).2

/-- A session that is covered stays so, or is closing after the move. -/
theorem IsCovered.turns {scope : SessionId → Prop} (h : machine.IsCovered id)
    (hissued : id.number < machine.world.ids.next) (hturns : machine.Turns scope next event) :
    (next.world.session id).state.isClosing = true ∨ next.IsCovered id := by
  obtain ⟨waiting, hmem, shutdown, hrest, hcovers⟩ := h
  have hshuts (reply : Reply) := shuts_call (World.resumeShutdown_shuts machine.world hissued reply hcovers)
  cases hturns with
  | begins _ _ _ hwaiting _ =>
    exact .inr ⟨waiting, hwaiting ▸ List.mem_cons_of_mem _ hmem, shutdown, hrest, hcovers⟩
  | passes _ hwaiting _ => exact .inr ⟨waiting, hwaiting ▸ hmem, shutdown, hrest, hcovers⟩
  | @goesOn innermost outer reply query rest hinnermost hactivity _ _ hwaiting _ =>
    rw [hinnermost] at hmem
    rcases List.mem_cons.1 hmem with rfl | houter
    · rw [hrest] at hactivity
      refine ((hshuts reply).1 _ _ _ hactivity).imp_right fun ⟨left, hleft, hstill⟩ => ?_
      exact ⟨⟨query, rest⟩, hwaiting ▸ List.mem_cons_self, left, hleft, hstill⟩
    · exact .inr ⟨waiting, hwaiting ▸ List.mem_cons_of_mem _ houter, shutdown, hrest, hcovers⟩
  | @ends innermost outer reply answer hinnermost hactivity hwaiting _ =>
    rw [hinnermost] at hmem
    rcases List.mem_cons.1 hmem with rfl | houter
    · rw [hrest] at hactivity
      exact .inl ((hshuts reply).2 _ _ hactivity)
    · exact .inr ⟨waiting, hwaiting ▸ houter, shutdown, hrest, hcovers⟩

/-- The call that shuts the host down covers each session that the host tracks, or has closed it. -/
theorem covers_called {scope : SessionId → Prop} {order : Enumeration} {signal : Signal A} (h : machine.InOrder)
    (hdown : machine.world.isShutDown = false) (hid : id ∈ machine.world.tracked)
    (hturns : machine.Turns scope next (.called (.hostShutdown order) signal)) :
    (next.world.session id).state.isClosing = true ∨ next.IsCovered id := by
  obtain ⟨hasks, hends⟩ := shuts_call (covers_of_shutdown h hdown hid order)
  cases hturns with
  | @begins call query rest hactivity _ _ hwaiting _ =>
    refine (hasks _ _ _ hactivity).imp_right fun ⟨shutdown, hrest, hcovers⟩ => ?_
    exact ⟨⟨query, rest⟩, hwaiting ▸ List.mem_cons_self, shutdown, hrest, hcovers⟩
  | passes hactivity _ _ => exact .inl (hends _ _ hactivity)

/-- No move makes a host that is shut down track a session that it did not. -/
theorem tracked_move {move : Move A} (h : machine.InOrder) (hmove : machine.move move = some (next, event))
    (hdown : next.world.isShutDown = true) : next.world.tracked ⊆ machine.world.tracked := by
  by_cases hopen : move = .call .hostOpen
  · subst hopen
    rw [move_hostOpen] at hmove
    cases hmove
    rcases machine.world.openSession_cases with ⟨e, heq⟩ | ⟨hrunning, -, heq⟩
    · rw [heq]
      exact List.Subset.refl _
    · rw [heq] at hdown
      exact absurd (hrunning.symm.trans hdown) Bool.false_ne_true
  · rw [(h.strikes hmove hopen).tracked]
    exact List.filter_sublist.subset

/-- **No session escapes a shutdown**, whatever is called or returns. -/
theorem Covering.move {move : Move A} (h : machine.Covering) (horder : machine.InOrder)
    (hmove : machine.move move = some (next, event)) : next.Covering := by
  intro hdown id hid
  have hbefore := tracked_move horder hmove hdown hid
  have hissued := ((horder.world.started id).1 (horder.world.tracked id hbefore)).2
  have hturns := horder.turns hmove
  cases hflag : machine.world.isShutDown with
  | true =>
    rcases h hflag id hbefore with hclosing | hcovered
    · exact .inl ((move_edits hmove).isClosing hissued hclosing)
    · exact hcovered.turns hissued hturns
  | false =>
    -- Only the shutdown that is called here can have set the flag, and it has yet to go through what is tracked.
    rcases (isShutDown_turns hturns).1 hdown with hold | ⟨order, signal, rfl⟩
    · rw [hflag] at hold
      cases hold
    · exact covers_called horder hflag hbefore hturns

theorem Covering.run {moves : List (Move A)} {events : List (Event A)} (h : machine.Covering)
    (horder : machine.InOrder) (hrun : machine.run moves = some (last, events)) : last.Covering := by
  refine (run_invariant (motive := fun _ machine => machine.InOrder ∧ machine.Covering)
    (fun hboth hmove => ?_) ⟨horder, h⟩ hrun).2
  obtain ⟨horder, h⟩ := hboth
  exact ⟨horder.move hmove, h.move horder hmove⟩

theorem exists_signal {call : Call A} (hmove : machine.move (.call call) = some (next, event)) :
    ∃ signal, event = .called call signal := by
  obtain ⟨-, signal, heq, -⟩ := of_move_call hmove
  exact ⟨signal, heq⟩

/-- A host is shut down from the call on. -/
theorem isShutDown_run : ∀ (moves : List (Move A)) {machine last : Machine A} {events : List (Event A)},
    machine.InOrder → machine.run moves = some (last, events) →
    (machine.world.isShutDown = true ∨ ∃ order, .call (.hostShutdown order) ∈ moves) → last.world.isShutDown = true
  | [], _, _, _, _, hrun, h => by
    cases hrun
    exact h.resolve_right fun ⟨_, hmem⟩ => List.not_mem_nil hmem
  | move :: moves, machine, last, events, horder, hrun, h => by
    obtain ⟨next, event, later, hmove, hlater, rfl⟩ := exists_of_run_cons hrun
    refine isShutDown_run moves (horder.move hmove) hlater ?_
    rw [isShutDown_turns (horder.turns hmove)]
    rcases h with hdown | ⟨order, hmem⟩
    · exact .inl (.inl hdown)
    · rcases List.mem_cons.1 hmem with rfl | hmem
      · exact .inl (.inr ⟨order, exists_signal hmove⟩)
      · exact .inr ⟨order, hmem⟩

/-- **A host is at rest once the call has returned that shut it down.** -/
theorem halted_of_returned {config : HostConfig} {world : World A} {moves : List (Move A)} {events : List (Event A)}
    (hworld : World.ofConfig config = .ok world) (hrun : (⟨world, []⟩ : Machine A).run moves = some (last, events))
    (hcalled : ∃ order, .call (.hostShutdown order) ∈ moves)
    (hreturned : ∀ ongoing ∈ (({} : Ledger A).after events).ongoing, ∀ order, ongoing.call ≠ .hostShutdown order) :
    last.Halted := by
  have horder := inOrder_ofConfig hworld
  have hlast := horder.run hrun
  have hdown := isShutDown_run moves horder hrun (.inr hcalled)
  have hrunning : (⟨world, []⟩ : Machine A).Covering := by
    intro hflag
    rw [World.eq_of_ofConfig hworld] at hflag
    cases hflag
  have htallies : ({} : Ledger A).Tallies (⟨world, []⟩ : Machine A) := .nil
  -- A shutdown that waited would be under way.
  have huncovered (id : SessionId) : ¬ last.IsCovered id := by
    rintro ⟨waiting, hmem, shutdown, hrest, -⟩
    obtain ⟨ongoing, hongoing, hleaves⟩ := (htallies.run horder hrun).exists_ongoing hmem
    rw [hrest] at hleaves
    cases hcall : ongoing.call with
    | hostShutdown order => exact hreturned ongoing hongoing order hcall
    | _ =>
      rw [hcall] at hleaves
      cases hleaves
  refine ⟨hlast, hdown, fun id hknown => ?_⟩
  rcases hlast.world.kept id hknown with htracks | hended
  · have hcovering := hrunning.run horder hrun hdown id (List.contains_iff_mem.1 htracks)
    exact hcovering.resolve_right (huncovered id)
  · rw [hended]
    rfl

theorem paced_ofConfig {config : HostConfig} {world : World A} (h : World.ofConfig config = .ok world) (number : Nat) :
    (⟨world, []⟩ : Machine A).Paced number := by
  rw [World.eq_of_ofConfig h]
  rfl

theorem loopWaits_le (number : Nat) (machine : Machine A) : machine.loopWaits number ≤ 1 := by
  unfold loopWaits
  cases machine.world.loop? number with
  | none => exact Nat.zero_le _
  | some loop => cases loop <;> first | exact Nat.zero_le _ | exact Nat.le_refl _

/-- A loop that is in the middle of a tick has it waiting for outside code. -/
theorem Paced.exists_tick {number due : Nat} (h : machine.Paced number)
    (hloop : machine.world.loop? number = some (.ticking due)) :
    ∃ waiting ∈ machine.waiting, waiting.rest.loop? = some number := by
  unfold Paced ticksOf at h
  rw [hloop] at h
  have hpositive : 0 < machine.waiting.countP fun waiting => waiting.rest.loop? = some number := by
    rw [h]
    exact Nat.one_pos
  obtain ⟨waiting, hmem, htick⟩ := List.countP_pos_iff.1 hpositive
  exact ⟨waiting, hmem, of_decide_eq_true htick⟩

/-! ## The law -/

/-- **Shutdown is complete and final.**  Take any run of a new host: any calls in any order, also from within
transports, observers and handlers, and any replies; a disconnect that would wait for itself, because it flushes a
session first from within its own transmit, goes nowhere.  Let the host have been shut down in it, and let the call
have returned that did it.  Then every session that was ever started is closing, those that the host tracks among them,
and so it is after anything that follows.  From then on no session is opened, and none tracked that was not.  No
transmit is started for any session.  What is received is not decoded, what is dispatched not handled, and handlers are
called only for messages that they were in the middle of.  Shutting down again does nothing.  A flush loop flushes at
most once more, as often as it waited for a tick: with the next tick that is due it ends at once, and with the tick
that it is in the middle of when that ends. -/
theorem shutdown_final {config : HostConfig} {world : World A} {shut : Machine A} {moves later : List (Move A)}
    {earlier events : List (Event A)} (hworld : World.ofConfig config = .ok world)
    (hrun : (⟨world, []⟩ : Machine A).run moves = some (shut, earlier))
    (hcalled : ∃ order, .call (.hostShutdown order) ∈ moves)
    (hreturned : ∀ ongoing ∈ (({} : Ledger A).after earlier).ongoing, ∀ order, ongoing.call ≠ .hostShutdown order)
    (hlater : shut.run later = some (last, events)) :
    (∀ id, last.world.tracks id = true → last.world.knows id = true) ∧
    (∀ id, last.world.knows id = true → (last.world.session id).state.isClosing = true) ∧
    last.move (.call .hostOpen) = some (last, .called .hostOpen (.answers (.opened (.error .shutDown)))) ∧
    last.world.tracked.Sublist shut.world.tracked ∧
    (∀ move next event, last.move move = some (next, event) → next.world.tracked.Sublist last.world.tracked) ∧
    (∀ id, ∀ event ∈ events, ¬ event.Transmits id) ∧
    (∀ id chunk, last.move (.call (.hostReceive id chunk)) =
      some (last, .called (.hostReceive id chunk) (.answers (.count 0)))) ∧
    (∀ id, last.world.knows id = true → ∀ bytes, last.move (.call (.receive id bytes)) =
        some (last, .called (.receive id bytes) (.answers (.received (.ok [])))) ∧
      last.move (.call (.dispatch id bytes)) =
        some (last, .called (.dispatch id bytes) (.answers (.dispatched .sessionClosing)))) ∧
    (∀ id, shut.world.knows id = true →
      (last.world.session id).stats.intake = (shut.world.session id).stats.intake) ∧
    (∀ event ∈ events, ∀ handler id message, event.signal = .asks (.handle handler id message) →
      shut.InHand id message) ∧
    (∀ order, last.move (.call (.hostShutdown order)) =
      some (last, .called (.hostShutdown order) (.answers .nothing))) ∧
    (∀ number, shut.loopWaits number ≤ 1 ∧
      events.countP (Event.flushes number) + last.loopWaits number = shut.loopWaits number ∧
      (∀ due now order, last.world.loop? number = some (.waiting due) → due ≤ now →
        last.move (.call (.wakeLoop number now order)) = some (⟨last.world.setLoop number .ended, last.waiting⟩,
          .called (.wakeLoop number now order) (.answers (.flag true)))) ∧
      (∀ due, last.world.loop? number = some (.ticking due) →
        ∃ waiting ∈ last.waiting, waiting.rest.loop? = some number) ∧
      (last.world.loop? number = some .ended → ∀ now order, last.move (.call (.wakeLoop number now order)) =
        some (last, .called (.wakeLoop number now order) (.answers (.flag false))))) := by
  have hshut := halted_of_returned hworld hrun hcalled hreturned
  have hpaced (number : Nat) := (paced_ofConfig hworld number).run (inOrder_ofConfig hworld) hrun
  obtain ⟨hlast, -, htracked⟩ := hshut.run hlater
  refine ⟨fun id htracks => hlast.order.world.tracked id (List.contains_iff_mem.1 htracks), hlast.closing,
    hlast.move_hostOpen, htracked, fun move next event hmove => (hlast.register hmove).2, hshut.silent hlater,
    hlast.move_hostReceive, fun id hknown bytes => ?_, fun id hknown => hshut.intake hlater hknown,
    fun event hmem handler id message hasks => hshut.handles hlater hmem hasks, hlast.move_hostShutdown,
    fun number => ?_⟩
  · have hholds := hlast.holds hknown
    exact ⟨hholds.refuses (hlast.closing id hknown) rfl, hholds.refuses (hlast.closing id hknown) rfl⟩
  · refine ⟨shut.loopWaits_le number, hshut.waits (hpaced number) hlater,
      fun due now order hloop hdue => hlast.move_wakeLoop hloop hdue order,
      fun due hloop => ((hpaced number).run hshut.order hlater).exists_tick hloop,
      fun hended now => move_wakeLoop_of_early fun due hloop => ?_⟩
    rw [hended] at hloop
    cases hloop

/-- A host is shut down while a flush loop waits, the session that was opened last first.  The transport of the other
fails within that, after somebody has shut the host down again and asked for another session. -/
def shutDownWithLoop : List (Move .bare) :=
  [.call .hostOpen, .call .hostOpen, .call (.hostReport ⟨1⟩ .connected), .call (.hostReport ⟨2⟩ .connected),
    .call (.hostEnqueue ⟨1⟩ [1, 2, 3]), .call (.startLoop 0), .call (.hostShutdown .latestFirst), .reply .done,
    .call .hostShutdown, .call .hostOpen, .reply (.failed ⟨"broken pipe", none⟩), .reply .done]

/-- The first session is reported gone, the loop is woken, and somebody asks for a session once more. -/
def afterShutDown : List (Move .bare) :=
  [.call (.hostReport ⟨1⟩ .disconnected), .call (.wakeLoop 0 0), .call (.wakeLoop 0 100), .call .hostOpen]

theorem shutdown_final_withLoop :
    ∃ (world : World .bare) (shut last : Machine .bare) (earlier events : List (Event .bare)),
      World.ofConfig {} = .ok world ∧ (⟨world, []⟩ : Machine .bare).run shutDownWithLoop = some (shut, earlier) ∧
      shut.run afterShutDown = some (last, events) ∧ shut.world.tracked = [⟨1⟩, ⟨2⟩] ∧ last.world.tracked = [⟨2⟩] ∧
      (last.world.session ⟨2⟩).state.isClosing = true ∧ shut.world.loop? 0 = some (.waiting 0) ∧
      last.world.loop? 0 = some .ended ∧ events.countP (Event.flushes 0) = 1 ∧
      last.move (.call (.hostReceive ⟨2⟩ [1, 0, 0, 0, 7])) =
        some (last, .called (.hostReceive ⟨2⟩ [1, 0, 0, 0, 7]) (.answers (.count 0))) := by
  obtain ⟨world, shut, last, earlier, events, hworld, hrun, hlater, htracked, hleft, hwaiting, hended, hidle⟩ :
      ∃ (world : World .bare) (shut last : Machine .bare) (earlier events : List (Event .bare)),
        World.ofConfig {} = .ok world ∧ (⟨world, []⟩ : Machine .bare).run shutDownWithLoop = some (shut, earlier) ∧
        shut.run afterShutDown = some (last, events) ∧ shut.world.tracked = [⟨1⟩, ⟨2⟩] ∧ last.world.tracked = [⟨2⟩] ∧
        shut.world.loop? 0 = some (.waiting 0) ∧ last.world.loop? 0 = some .ended ∧
        (({} : Ledger .bare).after earlier).ongoing = [] :=
    ⟨_, _, _, _, _, rfl, rfl, rfl, rfl, rfl, rfl, rfl, rfl⟩
  have hcalled : ∃ order, Move.call (.hostShutdown order) ∈ shutDownWithLoop :=
    ⟨.latestFirst, by simp [shutDownWithLoop]⟩
  have hreturned : ∀ ongoing ∈ (({} : Ledger .bare).after earlier).ongoing,
      ∀ order, ongoing.call ≠ .hostShutdown order := by
    rw [hidle]
    exact fun _ hmem => absurd hmem List.not_mem_nil
  obtain ⟨hknown, hclosing, -, -, -, -, hreceive, -, -, -, -, hloops⟩ :=
    shutdown_final hworld hrun hcalled hreturned hlater
  obtain ⟨-, hflushes, -⟩ := hloops 0
  have htracks : last.world.tracks ⟨2⟩ = true := by
    rw [World.tracks, hleft]
    rfl
  refine ⟨world, shut, last, earlier, events, hworld, hrun, hlater, htracked, hleft, hclosing _ (hknown _ htracks),
    hwaiting, hended, ?_, hreceive _ _⟩
  unfold loopWaits at hflushes
  rw [hended, hwaiting] at hflushes
  exact hflushes

end Machine

end FramedLink
