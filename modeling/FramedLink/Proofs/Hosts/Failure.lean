import FramedLink.Proofs.Lives.Ending
import FramedLink.Proofs.Runs.Ledger
/-!
# Failed transmits

The bytes of a transmit that failed have left the outbox, so whatever was sent after it would come to the peer with a
gap before it.  A host's flush that fails ends the session, and so does a disconnect that flushes first, whether its
flush fails or not.  Either has the session closing before it asks outside code again, and nothing is sent for a closing
session.

Main statement: after a failed transmit there is no other, and the bytes that count as transmitted are those that the
transport took (`Machine.nothing_after_failure`).
-/
namespace FramedLink

variable {A : Application} {κ κ' α β : Type} {id : SessionId}

/-! ## Activities that close a session -/

/-- The activity has the session closing before it asks outside code or ends. -/
def Activity.Closes (id : SessionId) (world : World A) (activity : Activity A κ α) : Prop :=
  ∃ middle, world.Edits [] middle ∧ (middle.session id).state.isClosing = true ∧ activity.ComesFrom middle

namespace Activity

variable {world middle : World A} {activity : Activity A κ α}

theorem Closes.before (hedits : world.Edits [] middle) (h : activity.Closes id middle) : activity.Closes id world := by
  obtain ⟨closed, hclosed, hclosing, hcomes⟩ := h
  exact ⟨closed, hedits.trans hclosed, hclosing, hcomes⟩

theorem Closes.andThen {within : κ → κ'} {next : World A → α → Activity A κ' β} (h : activity.Closes id world)
    (hnext : ∀ world result, (next world result).ComesFrom world) : (activity.andThen within next).Closes id world := by
  obtain ⟨closed, hclosed, hclosing, hcomes⟩ := h
  exact ⟨closed, hclosed, hclosing, hcomes.andThen hnext⟩

theorem Closes.wrap {first : Activity A κ α} (h : first.Closes id world) (within : κ → Suspended A)
    (answer : α → Answer) : (Call.wrap first within answer).Closes id world :=
  h.andThen fun world result => comesFrom_finish world (answer result)

end Activity

namespace World

theorem leave_closes (world : World A) (id : SessionId) (reason : DisconnectReason) :
    (world.leave id reason).Closes id world := by
  cases hclosing : (world.session id).state.isClosing with
  | true => exact ⟨world, .none world, hclosing, world.leave_comesFrom id reason⟩
  | false =>
    have hedge : (world.session id).state.canTransitionTo .disconnecting = true := by
      cases hstate : (world.session id).state <;> rw [hstate] at hclosing <;> first | rfl | cases hclosing
    have hother : (world.session id).state ≠ .disconnecting := by
      intro hstate
      rw [hstate] at hclosing
      cases hclosing
    have hentered : ((world.session id).enter .disconnecting).state = .disconnecting := by
      unfold Session.enter
      split <;> rfl
    refine ⟨world.put id ((world.session id).enter .disconnecting), edits_put id (.enter hedge), ?_, ?_⟩
    · rw [session_put_self, hentered]
      rfl
    · simp only [leave, transition, if_neg hother, hedge, Bool.not_true, Bool.false_eq_true, if_false]
      exact (tell_comesFrom _ id _ _ _).andThen fun world => world.closeTransport_comesFrom id reason

theorem disconnect_closes (world : World A) (id : SessionId) (reason : DisconnectReason) :
    (world.disconnect id reason false).Closes id world := by
  by_cases hclosing : (world.session id).state.isClosing = true
  · exact ⟨world, .none world, hclosing, world.disconnect_comesFrom id reason false⟩
  · rw [disconnect, if_neg hclosing]
    exact .before (edits_put id (.noteReason reason)) (leave_closes _ id reason)

end World

/-! ## The transport reports a failure -/

section Failing

variable {scope : SessionId → Prop} {data : List UInt8}

theorem Disconnect.resume_closes {rest : Disconnect A} (h : rest.Awaits scope (.transmit id data)) (world : World A)
    (failure : Failure) : (rest.resume world (.failed failure)).Closes id world := by
  cases rest with
  | flushing other reason flush =>
    obtain ⟨-, hflush, hquery⟩ := h
    cases hquery
    exact .before (World.edits_put flush.id (.flushing false)) (hflush ▸ World.leave_closes _ _ reason)
  | leaving other reason rest => cases h.2.2.1
  | closing => cases h.1

theorem Delivery.resume_closes {rest : Delivery A} (h : rest.Awaits scope (.transmit id data)) (world : World A)
    (failure : Failure) : (rest.resume world (.failed failure)).Closes id world := by
  cases rest with
  | handling other message called rest => cases h.2.1
  | rejecting reason rest =>
    unfold Delivery.resume
    exact (Disconnect.resume_closes h world failure).andThen fun world _ => Activity.comesFrom_finish world _
  | ending called rest =>
    unfold Delivery.resume
    exact (Disconnect.resume_closes h world failure).andThen fun world _ => Activity.comesFrom_finish world _

theorem Arrival.resume_closes {rest : Arrival A} (h : rest.Awaits scope (.transmit id data)) (world : World A)
    (failure : Failure) : (rest.resume world (.failed failure)).Closes id world := by
  cases rest with
  | delivering other handled rest current =>
    unfold Arrival.resume
    exact (Delivery.resume_closes h.2 world failure).andThen fun world _ =>
      World.deliverAll_comesFrom other rest world _
  | malformed rest =>
    unfold Arrival.resume
    exact (Disconnect.resume_closes h world failure).andThen fun world _ => Activity.comesFrom_finish world 0

theorem HostFlush.resume_closes {rest : HostFlush A} (h : rest.Awaits scope (.transmit id data)) (world : World A)
    (failure : Failure) : (rest.resume world (.failed failure)).Closes id world := by
  have hfinish (world : World A) (_ : Unit) :
      (.finish world {} : Activity A (HostFlush A) TickSummary).ComesFrom world := Activity.comesFrom_finish world _
  cases rest with
  | flushing other flush =>
    obtain ⟨-, hflush, hquery⟩ := h
    cases hquery
    subst hflush
    exact .before (World.edits_put flush.id (.flushing false)) ((World.disconnect_closes _ _ _).andThen hfinish)
  | failing rest =>
    unfold HostFlush.resume
    exact (Disconnect.resume_closes h world failure).andThen hfinish

theorem Sweep.resume_closes {sweep : Sweep A} (h : sweep.Awaits scope (.transmit id data)) (world : World A)
    (failure : Failure) : (sweep.resume world (.failed failure)).Closes id world :=
  (HostFlush.resume_closes h.2 world failure).andThen fun world _ => World.sweep_comesFrom sweep.rest world _

/-- **A call that meets a failed transmit closes the session**, unless it is a tick that was made on the session
itself. -/
theorem Suspended.resume_closes {rest : Suspended A} (h : rest.Awaits scope (.transmit id data))
    (hhost : ∀ flush, rest = .tick flush → flush.id ≠ id) (world : World A) (failure : Failure) :
    (rest.resume world (.failed failure)).Closes id world := by
  cases rest with
  | transition rest => cases h.2.1
  | tick flush =>
    obtain ⟨-, -, hquery⟩ := h
    cases hquery
    exact absurd rfl (hhost flush rfl)
  | disconnect rest => exact (Disconnect.resume_closes h world failure).wrap _ _
  | dispatch rest => exact (Delivery.resume_closes h world failure).wrap _ _
  | report rest => cases h.2.1
  | arrival rest => exact (Arrival.resume_closes h world failure).wrap _ _
  | hostTick rest => exact (HostFlush.resume_closes h world failure).wrap _ _
  | sweep rest => exact (Sweep.resume_closes h world failure).wrap _ _
  | shutdown rest =>
    have hcurrent := Disconnect.resume_closes h.2 world failure
    exact (hcurrent.andThen fun world _ => World.disconnectEach_comesFrom rest.rest world).wrap _ _
  | loop number rest =>
    have hsweep := Sweep.resume_closes h world failure
    exact (hsweep.andThen fun world _ => World.finishTick_comesFrom world number).wrap _ _

end Failing

/-! ## After a failed transmit -/

/-- The transport returns from a transmit for the session with a failure. -/
def Event.FailsTransmit (id : SessionId) (event : Event A) : Prop :=
  ∃ data failure signal, event = .returned (.transmit id data) (.failed failure) signal

namespace Machine

variable {machine next last : Machine A} {move : Move A} {event : Event A}

/-- **A move at which a transmit fails** has the session closing before anything is asked. -/
theorem closes_of_fails (h : machine.InOrder)
    (hhost : ∀ waiting ∈ machine.waiting, ∀ flush, waiting.rest = .tick flush → flush.id ≠ id)
    (hmove : machine.move move = some (next, event)) (hfails : event.FailsTransmit id) :
    machine.world.Known id ∧ ∃ closed : World A, machine.world.Edits [] closed ∧
      (closed.session id).state.isClosing = true ∧ closed.Edits event.marks next.world := by
  have hturns := h.turns hmove
  obtain ⟨data, failure, signal, hevent⟩ := hfails
  have hwaits {innermost : Waiting A} {outer : List (Waiting A)} (hinnermost : machine.waiting = innermost :: outer)
      (hquery : innermost.query = .transmit id data) : machine.world.Known id ∧
        (innermost.rest.resume machine.world (.failed failure)).Closes id machine.world := by
    have hmem : innermost ∈ machine.waiting := hinnermost ▸ List.mem_cons_self
    have hawaits := (h.waiting innermost hmem).awaits
    rw [hquery] at hawaits
    exact ⟨hawaits.within, Suspended.resume_closes hawaits (hhost innermost hmem) _ failure⟩
  cases hturns with
  | begins => cases hevent
  | passes => cases hevent
  | @goesOn innermost outer reply query rest hinnermost hactivity _ _ _ _ =>
    obtain ⟨hquery, rfl, -⟩ := Event.returned.inj hevent
    obtain ⟨hknown, closed, hclosed, hclosing, hcomes⟩ := hwaits hinnermost hquery
    rw [hactivity] at hcomes
    exact ⟨hknown, closed, hclosed, hclosing, hcomes⟩
  | @ends innermost outer reply answer hinnermost hactivity _ _ =>
    obtain ⟨hquery, rfl, -⟩ := Event.returned.inj hevent
    obtain ⟨hknown, closed, hclosed, hclosing, hcomes⟩ := hwaits hinnermost hquery
    rw [hactivity] at hcomes
    exact ⟨hknown, closed, hclosed, hclosing, hcomes⟩

/-- Where no tick is made on the session itself, none is ever under way. -/
theorem no_tick {moves : List (Move A)} {events : List (Event A)} (h : machine.InOrder) (hidle : machine.waiting = [])
    (hrun : machine.run moves = some (last, events)) (hmoves : .call (.tick id) ∉ moves) :
    ∀ waiting ∈ last.waiting, ∀ flush, waiting.rest = .tick flush → flush.id ≠ id := by
  intro waiting hmem flush hrest hid
  have htallies : ({} : Ledger A).Tallies machine := by
    unfold Ledger.Tallies
    rw [hidle]
    exact .nil
  obtain ⟨ongoing, hongoing, hleaves⟩ := (htallies.run h hrun).exists_ongoing hmem
  have hcall : ongoing.call = .tick id := by
    rw [hrest] at hleaves
    cases hcall : ongoing.call with
    | tick other =>
      rw [hcall] at hleaves
      exact congrArg Call.tick (Eq.trans (Eq.symm hleaves) hid)
    | _ =>
      rw [hcall] at hleaves
      cases hleaves
  rcases Ledger.called_of_ongoing events hongoing with ⟨before, hbefore, -⟩ | ⟨signal, hcalled⟩
  · cases hbefore
  · rw [hcall] at hcalled
    exact hmoves (call_mem_moves moves hrun _ _ hcalled)

end Machine

/-! ## Transmitted bytes -/

/-- The data of a session that the transport took. -/
def Query.taken (id : SessionId) : Query A → Reply → List UInt8
  | transmit other data, .done | transmit other data, .endSession _ => if other = id then data else []
  | transmit _ _, .failed _ | close _ _ _, _ | handle _ _ _, _ | stateChanged _ _ _ _, _ | disconnected _ _ _, _ => []

def Event.taken (id : SessionId) : Event A → List UInt8
  | called _ _ => []
  | returned query reply _ => query.taken id reply

/-- All data of a session that the transport took, in order. -/
def taken (id : SessionId) (events : List (Event A)) : List UInt8 := events.flatMap (Event.taken id)

namespace World

theorem transmitted_credit (world : World A) (query : Query A) (reply : Reply) (id : SessionId) :
    ((world.credit query reply).session id).stats.bytesTransmitted =
      (world.session id).stats.bytesTransmitted + (query.taken id reply).length := by
  have htaken (other : SessionId) (data : List UInt8) :
      ((world.modify other (·.countTransmitted data.length)).session id).stats.bytesTransmitted =
        (world.session id).stats.bytesTransmitted + (if other = id then data else []).length := by
    by_cases hother : other = id
    · subst hother
      rw [if_pos rfl, modify, session_put_self]
      rfl
    · rw [if_neg hother, modify, session_put_of_ne _ _ hother]
      rfl
  cases query with
  | transmit other data =>
    cases reply with
    | failed failure => rfl
    | done => exact htaken other data
    | endSession graceful => exact htaken other data
  | _ => rfl

theorem session_settleTick (world : World A) (number : Nat) (id : SessionId) :
    (world.settleTick number).session id = world.session id := by
  unfold settleTick
  split <;> rfl

theorem session_beginTick (world : World A) (number now : Nat) (id : SessionId) :
    (world.beginTick number now).session id = world.session id := by
  unfold beginTick
  split
  · split <;> rfl
  · rfl
  · rfl
  · rfl

theorem session_dropReported (world : World A) (id : SessionId) (state : ConnectionState) (other : SessionId) :
    (world.dropReported id state).session other = world.session other := by
  unfold dropReported
  split <;> rfl

/-- A session that is opened has transmitted nothing, as its id read before. -/
theorem InOrder.transmitted_open {world : World A} (h : world.InOrder) (id : SessionId) :
    (world.openSession.1.session id).stats.bytesTransmitted = (world.session id).stats.bytesTransmitted := by
  rcases world.openSession_cases with ⟨e, heq⟩ | ⟨-, -, heq⟩
  · rw [heq]
  · rw [heq]
    by_cases hid : id = ⟨world.ids.next⟩
    · have hunknown : world.sessions.get? id = none := by
        rw [← Option.not_isSome_iff_eq_none]
        exact fun hknown => h.ne_next hknown hid
      have hold : world.session id = .start id world.config.session := by
        rw [World.session, hunknown]
        rfl
      have hnew : world.withNext.session id = .start id world.config.session := by
        rw [hid]
        exact session_put_self world _ _
      rw [hnew, hold]
    · rw [session_withNext hid]

end World

theorem World.InOrder.transmitted_notes {world : World A} (h : world.InOrder) (call : Call A) (id : SessionId) :
    ((call.notes world).session id).stats.bytesTransmitted = (world.session id).stats.bytesTransmitted := by
  cases call with
  | hostOpen => exact h.transmitted_open id
  | wakeLoop number now _ => rw [Call.notes, World.session_beginTick]
  | _ => rfl

theorem Call.session_settles (call : Call A) (world : World A) (answer : Answer) (id : SessionId) :
    (call.settles world answer).session id = world.session id := by
  unfold settles
  split
  · exact World.session_dropReported _ _ _ _
  · exact World.session_settleTick _ _ _
  · rfl

theorem Suspended.session_settles (rest : Suspended A) (world : World A) (id : SessionId) :
    (rest.settles world).session id = world.session id := by
  cases rest with
  | report rest => exact World.session_dropReported _ _ _ _
  | loop number rest => exact World.session_settleTick _ _ _
  | _ => rfl

namespace Machine

variable {machine next last : Machine A} {move : Move A} {event : Event A}

/-- **A session counts a transmit's bytes when the transport has taken them**, and at no other move. -/
theorem transmitted_move (h : machine.InOrder) (hmove : machine.move move = some (next, event)) (id : SessionId) :
    (next.world.session id).stats.bytesTransmitted =
      (machine.world.session id).stats.bytesTransmitted + (event.taken id).length := by
  have hturns := h.turns hmove
  cases hturns with
  | begins _ _ _ _ hbooks => exact (hbooks.transmitted id).trans (h.world.transmitted_notes _ id)
  | passes _ _ hbooks =>
    have hsettled := hbooks.transmitted id
    rw [Call.session_settles] at hsettled
    exact hsettled.trans (h.world.transmitted_notes _ id)
  | goesOn _ _ _ _ _ hbooks => exact (hbooks.transmitted id).trans (World.transmitted_credit _ _ _ id)
  | ends _ _ _ hbooks =>
    have hsettled := hbooks.transmitted id
    rw [Suspended.session_settles] at hsettled
    exact hsettled.trans (World.transmitted_credit _ _ _ id)

theorem transmitted_run (id : SessionId) {moves : List (Move A)} {events : List (Event A)} (h : machine.InOrder)
    (hrun : machine.run moves = some (last, events)) :
    (last.world.session id).stats.bytesTransmitted =
      (machine.world.session id).stats.bytesTransmitted + (taken id events).length := by
  refine (run_invariant (motive := fun past reached => reached.InOrder ∧
    (reached.world.session id).stats.bytesTransmitted =
      (machine.world.session id).stats.bytesTransmitted + (taken id past).length)
    (fun hboth hmove => ?_) ⟨h, rfl⟩ hrun).2
  obtain ⟨horder, hcounted⟩ := hboth
  refine ⟨horder.move hmove, ?_⟩
  rw [transmitted_move horder hmove, hcounted, taken, taken, List.flatMap_append, List.flatMap_singleton,
    List.length_append, Nat.add_assoc]

end Machine

/-! ## What a host reports of a tick that failed -/

/-- Outside code failed in the call. -/
def Ongoing.Failed (ongoing : Ongoing A) : Prop := ∃ query failure, (query, .failed failure) ∈ ongoing.exchanged

theorem Ongoing.failed_of_heard {ongoing : Ongoing A} {query : Query A} {reply : Reply}
    (h : (ongoing.heard query reply).Failed) : ongoing.Failed ∨ ∃ failure, reply = .failed failure := by
  obtain ⟨asked, failure, hmem⟩ := h
  rcases List.mem_append.1 hmem with hold | hnew
  · exact .inl ⟨asked, failure, hold⟩
  · cases List.mem_singleton.1 hnew
    exact .inr ⟨failure, rfl⟩

/-- What is left of a host's tick in which a failure has led to a disconnect. -/
def Suspended.IsFailing (rest : Suspended A) : Prop := ∃ current, rest = .hostTick (.failing current)

/-- A disconnect to which a failure led is gone on with as such, and with its end the tick has sent nothing. -/
theorem Activity.failing (first : Activity A (Disconnect A) Unit) {activity : Activity A (Suspended A) Answer}
    (h : activity = Call.wrap (first.andThen .failing fun world _ => .finish world {}) .hostTick
      fun summary => .flushed (.ok summary)) :
    (∀ world query rest, activity = .ask world query rest → rest.IsFailing) ∧
      ∀ world answer, activity = .finish world answer → answer = .flushed (.ok {}) := by
  subst h
  rw [Call.wrap, andThen_andThen]
  unfold andThen
  split
  · refine ⟨fun _ _ _ heq => ?_, fun _ _ heq => ?_⟩
    · cases heq
    · cases heq
      rfl
  · refine ⟨fun _ _ _ heq => ?_, fun _ _ heq => ?_⟩
    · cases heq
      exact ⟨_, rfl⟩
    · cases heq
  · refine ⟨fun _ _ _ heq => ?_, fun _ _ heq => ?_⟩
    · cases heq
    · cases heq

theorem HostFlush.resume_failing {rest : HostFlush A} {reply : Reply} (world : World A)
    (h : (Suspended.hostTick rest).IsFailing ∨ ∃ failure, reply = .failed failure) :
    ∃ first : Activity A (Disconnect A) Unit,
      rest.resume world reply = first.andThen .failing fun world _ => .finish world {} := by
  cases rest with
  | flushing id flush =>
    rcases h with ⟨current, heq⟩ | ⟨failure, rfl⟩
    · cases heq
    · exact ⟨_, rfl⟩
  | failing rest => exact ⟨_, rfl⟩

theorem Call.leaves_hostTick {rest : Suspended A} (h : (Call.hostTick id).Leaves rest) :
    ∃ flush, rest = .hostTick flush := by
  cases rest with
  | hostTick flush => exact ⟨flush, rfl⟩
  | _ => cases h

/-- A host's tick in which outside code has failed goes on as failing, or ends with nothing sent. -/
theorem Ongoing.failing_of_heard {ongoing : Ongoing A} {rest : Suspended A} {query : Query A} {reply : Reply}
    (hcall : ongoing.call = .hostTick id) (hleaves : ongoing.call.Leaves rest) (h : ongoing.Failed → rest.IsFailing)
    (hfailed : (ongoing.heard query reply).Failed) (world : World A) :
    (∀ next query left, rest.resume world reply = .ask next query left → left.IsFailing) ∧
      ∀ next answer, rest.resume world reply = .finish next answer → answer = .flushed (.ok {}) := by
  rw [hcall] at hleaves
  obtain ⟨flush, rfl⟩ := Call.leaves_hostTick hleaves
  obtain ⟨first, hfirst⟩ := HostFlush.resume_failing world ((failed_of_heard hfailed).imp_left h)
  exact Activity.failing first (by rw [Suspended.resume, hfirst])

namespace Ledger

variable {ledger : Ledger A} {machine next last : Machine A} {event : Event A}

/-- Ticks of a host that met a failure are failing, or have ended with nothing sent. -/
structure Honest (ledger : Ledger A) (machine : Machine A) : Prop where
  ongoing : List.Forall₂ (fun ongoing waiting => ∀ id, ongoing.call = .hostTick id → ongoing.Failed →
    waiting.rest.IsFailing) ledger.ongoing machine.waiting
  finished : ∀ record ∈ ledger.finished, ∀ id, record.call = .hostTick id → record.Failed →
    record.answer = .flushed (.ok {})

theorem Honest.turns {scope : SessionId → Prop} (h : ledger.Honest machine) (htallies : ledger.Tallies machine)
    (hturns : machine.Turns scope next event) : (ledger.note event).Honest next := by
  have hfresh (call : Call A) : ¬ (⟨call, []⟩ : Ongoing A).Failed := by
    rintro ⟨_, _, hmem⟩
    cases hmem
  have hongoing := h.ongoing
  cases hturns with
  | @begins call query rest _ _ _ hwaiting _ =>
    refine ⟨?_, List.forall_mem_append.2 ⟨h.finished, fun record hmem => by cases hmem⟩⟩
    rw [hwaiting]
    exact .cons (fun _ _ hfailed => absurd hfailed (hfresh call)) hongoing
  | @passes call answer _ hwaiting _ =>
    refine ⟨?_, List.forall_mem_append.2 ⟨h.finished, fun record hmem _ _ hfailed => ?_⟩⟩
    · rw [hwaiting]
      exact hongoing
    · cases List.mem_singleton.1 hmem
      exact absurd hfailed (hfresh call)
  | @goesOn innermost outer reply query rest hinnermost hactivity _ _ hwaiting _ =>
    obtain ⟨ongoing, below, heq, hleaves⟩ := htallies.innermost hinnermost
    rw [hinnermost, heq] at hongoing
    obtain ⟨hfirst, hbelow⟩ := List.forall₂_cons.1 hongoing
    refine ⟨?_, List.forall_mem_append.2 ⟨h.finished, fun record hmem => by cases hmem⟩⟩
    rw [hwaiting]
    simp only [note, goOn, heq, List.modifyHead_cons]
    refine .cons (fun id hcall hfailed => ?_) hbelow
    have hmade : ongoing.call = .hostTick id := hcall
    exact (Ongoing.failing_of_heard hmade hleaves (hfirst id hmade) hfailed _).1 _ _ _ hactivity
  | @ends innermost outer reply answer hinnermost hactivity hwaiting _ =>
    obtain ⟨ongoing, below, heq, hleaves⟩ := htallies.innermost hinnermost
    rw [hinnermost, heq] at hongoing
    obtain ⟨hfirst, hbelow⟩ := List.forall₂_cons.1 hongoing
    refine ⟨?_, List.forall_mem_append.2 ⟨h.finished, fun record hmem id hcall hfailed => ?_⟩⟩
    · rw [hwaiting]
      simp only [note, goOn, heq, List.tail_cons]
      exact hbelow
    · rw [ends_returned heq] at hmem
      cases List.mem_singleton.1 hmem
      have hmade : ongoing.call = .hostTick id := hcall
      exact (Ongoing.failing_of_heard hmade hleaves (hfirst id hmade) hfailed _).2 _ _ hactivity

theorem Honest.run {moves : List (Move A)} {events : List (Event A)} (h : ledger.Honest machine)
    (htallies : ledger.Tallies machine) (horder : machine.InOrder) (hrun : machine.run moves = some (last, events)) :
    (ledger.after events).Honest last := by
  refine (Machine.run_invariant (motive := fun past machine => machine.InOrder ∧ (ledger.after past).Tallies machine ∧
    (ledger.after past).Honest machine) (fun hall hmove => ?_) ⟨horder, htallies, h⟩ hrun).2.2
  obtain ⟨horder, htallies, h⟩ := hall
  have hturns := horder.turns hmove
  rw [after_concat]
  exact ⟨horder.move hmove, htallies.turns hturns, h.turns htallies hturns⟩

end Ledger

/-! ## The law -/

namespace Machine

/-- **Nothing is sent after a failed transmit.**  Take any run of a new host: any calls in any order, also from within
transports, observers and handlers, and any replies; a disconnect that flushes first from within the session's own
transmit would wait for itself, and no run goes on from it.  The bytes that a session counts as transmitted are those
that the transport took, at every moment, whatever becomes of the flush.  If no tick is made on the session itself, so
that it is flushed by its host and by disconnects only, and a transmit of it fails, then the session is closing from
this very move on, and no transmit is started for it any more, at this move or later.  A host's tick in which a transmit
failed reports nothing as sent. -/
theorem nothing_after_failure {config : HostConfig} {world : World A} {last : Machine A} {moves : List (Move A)}
    {events : List (Event A)} (hworld : World.ofConfig config = .ok world)
    (hrun : (⟨world, []⟩ : Machine A).run moves = some (last, events)) :
    (∀ id, (last.world.session id).stats.bytesTransmitted = (taken id events).length) ∧
    (∀ id, .call (.tick id) ∉ moves → ∀ earlier event later, events = earlier ++ event :: later →
      event.FailsTransmit id → (last.world.session id).state.isClosing = true ∧
        ∀ following ∈ event :: later, ¬ following.Transmits id) ∧
    (∀ record ∈ (({} : Ledger A).after events).finished, ∀ id, record.call = .hostTick id → record.Failed →
      record.answer = .flushed (.ok {})) := by
  have horder := inOrder_ofConfig hworld
  refine ⟨fun id => ?_, fun id hhost earlier event later hevents hfails => ?_, ?_⟩
  · have hcounted := transmitted_run id horder hrun
    have hfresh : (world.session id).stats.bytesTransmitted = 0 := by
      rw [World.eq_of_ofConfig hworld]
      rfl
    rw [hcounted, hfresh, Nat.zero_add]
  · subst hevents
    -- The run is cut at the failing move.  Within it the session closes before outside code is called again, so that
    -- what the move does after that and all later moves are edits from a world in which the session is closing.
    obtain ⟨before, move, after, middle, next, rfl, hbefore, hmove, hafter⟩ := exists_at earlier hrun
    have hmiddle := horder.run hbefore
    have hnone := no_tick horder rfl hbefore fun hmem => hhost (List.mem_append_left _ hmem)
    obtain ⟨hknown, closed, hclosed, hclosing, hedits⟩ := closes_of_fails hmiddle hnone hmove hfails
    obtain ⟨htidy, hissued, -⟩ := hclosed.keep (·.Tidy id) (fun _ => True) (fun htidy _ hedit => htidy.edit hedit)
      ((hmiddle.world.started id).1 hknown).2 (hmiddle.world.tidy id hknown) fun _ _ => True.intro
    have hlater := hedits.trans (run_edits after hafter)
    refine ⟨hlater.isClosing hissued hclosing, fun following hmem htransmits => ?_⟩
    obtain ⟨data, hmark⟩ := htransmits.mark
    refine hlater.silent hissued htidy hclosing data ?_
    rw [← List.flatMap_cons]
    exact List.mem_flatMap.2 ⟨following, hmem, hmark⟩
  · have hbegin : ({} : Ledger A).Honest ⟨world, []⟩ := ⟨.nil, fun _ hmem => absurd hmem List.not_mem_nil⟩
    have htallies : ({} : Ledger A).Tallies (⟨world, []⟩ : Machine A) := .nil
    exact (hbegin.run htallies horder hrun).finished

/-- A host's tick of which the second transmit fails, and another payload that comes too late. -/
def failedInTick : List (Move .bare) :=
  [.call .hostOpen, .call (.hostReport ⟨1⟩ .connected), .call (.hostEnqueue ⟨1⟩ [1, 2, 3]), .call (.hostTick ⟨1⟩),
    .reply .done, .reply (.failed ⟨"broken pipe", none⟩), .call (.hostEnqueue ⟨1⟩ [4]), .reply .done]

theorem nothing_after_failure_inTick :
    ∃ (world : World .bare) (last : Machine .bare) (events earlier later : List (Event .bare)) (event : Event .bare)
      (record : Finished .bare),
      World.ofConfig { session := { transmitBufferSize := 5 } } = .ok world ∧
      (⟨world, []⟩ : Machine .bare).run failedInTick = some (last, events) ∧
      events = earlier ++ event :: later ∧ event.FailsTransmit ⟨1⟩ ∧
      (last.world.session ⟨1⟩).state.isClosing = true ∧ (∀ following ∈ event :: later, ¬ following.Transmits ⟨1⟩) ∧
      (last.world.session ⟨1⟩).stats.bytesTransmitted = 5 ∧
      record ∈ (({} : Ledger .bare).after events).finished ∧ record.call = .hostTick ⟨1⟩ ∧
      record.answer = .flushed (.ok {}) := by
  obtain ⟨world, last, events, hworld, hrun, htaken, ⟨record, hrecord, hcall, hfailed⟩, event, hevent, hfails⟩ :
      ∃ (world : World .bare) (last : Machine .bare) (events : List (Event .bare)),
        World.ofConfig { session := { transmitBufferSize := 5 } } = .ok world ∧
        (⟨world, []⟩ : Machine .bare).run failedInTick = some (last, events) ∧ taken ⟨1⟩ events = [3, 0, 0, 0, 1] ∧
        (∃ record ∈ (({} : Ledger .bare).after events).finished, record.call = .hostTick ⟨1⟩ ∧ record.Failed) ∧
        ∃ event ∈ events, event.FailsTransmit ⟨1⟩ :=
    ⟨_, _, _, rfl, rfl, rfl, ⟨_, List.mem_concat_self, rfl, _, _, List.mem_of_getElem? (i := 1) rfl⟩, _,
      List.mem_of_getElem? (i := 5) rfl, _, _, _, rfl⟩
  have hhost : Move.call (.tick ⟨1⟩) ∉ failedInTick := by simp [failedInTick]
  obtain ⟨earlier, later, hevents⟩ := List.append_of_mem hevent
  obtain ⟨hcounted, hsilent, hreported⟩ := nothing_after_failure hworld hrun
  obtain ⟨hclosing, hnone⟩ := hsilent ⟨1⟩ hhost earlier event later hevents hfails
  refine ⟨world, last, events, earlier, later, event, record, hworld, hrun, hevents, hfails, hclosing, hnone, ?_,
    hrecord, hcall, hreported record hrecord ⟨1⟩ hcall hfailed⟩
  rw [hcounted, htaken]
  rfl

end Machine

end FramedLink
