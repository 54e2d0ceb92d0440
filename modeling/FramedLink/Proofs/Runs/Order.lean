import FramedLink.Proofs.Runs.Books
/-!
# Machines that a host can come to

What is so at every point of every run of a host: it tracks no more sessions than it may, every session that was ever
started is stored under its own id and is tracked until it is disconnected, and whatever is left of a call concerns
sessions that were started.

Main statement: every move keeps a machine in order (`Machine.InOrder.move`).
-/
namespace FramedLink

variable {A : Application}

/-! ## What is left of a call -/

section Awaiting

variable {scope scope' : SessionId → Prop} {query : Query A}

theorem Query.IsQuietIn.imp (h : query.IsQuietIn scope) (hscope : ∀ id, scope id → scope' id) :
    query.IsQuietIn scope' := ⟨h.1, hscope _ h.2⟩

theorem Transition.Awaits.imp {rest : Transition A} (h : rest.Awaits scope query)
    (hscope : ∀ id, scope id → scope' id) : rest.Awaits scope' query := ⟨hscope _ h.1, h.2.imp hscope⟩

theorem Disconnect.Awaits.imp {rest : Disconnect A} (h : rest.Awaits scope query)
    (hscope : ∀ id, scope id → scope' id) : rest.Awaits scope' query := by
  cases rest with
  | flushing id reason rest => exact ⟨hscope _ h.1, h.2⟩
  | leaving id reason rest => exact ⟨hscope _ h.1, h.2.imp hscope⟩
  | closing => exact Query.IsQuietIn.imp h hscope

theorem Delivery.Awaits.imp {rest : Delivery A} (h : rest.Awaits scope query)
    (hscope : ∀ id, scope id → scope' id) : rest.Awaits scope' query := by
  cases rest with
  | handling id message called rest => exact ⟨hscope _ h.1, h.2.imp hscope⟩
  | rejecting reason rest => exact Disconnect.Awaits.imp h hscope
  | ending called rest => exact Disconnect.Awaits.imp h hscope

theorem Arrival.Awaits.imp {rest : Arrival A} (h : rest.Awaits scope query)
    (hscope : ∀ id, scope id → scope' id) : rest.Awaits scope' query := by
  cases rest with
  | delivering id handled rest current => exact ⟨hscope _ h.1, h.2.imp hscope⟩
  | malformed rest => exact Disconnect.Awaits.imp h hscope

theorem HostFlush.Awaits.imp {rest : HostFlush A} (h : rest.Awaits scope query)
    (hscope : ∀ id, scope id → scope' id) : rest.Awaits scope' query := by
  cases rest with
  | flushing id rest => exact ⟨hscope _ h.1, h.2⟩
  | failing rest => exact Disconnect.Awaits.imp h hscope

theorem Sweep.Awaits.imp {rest : Sweep A} (h : rest.Awaits scope query) (hscope : ∀ id, scope id → scope' id) :
    rest.Awaits scope' query := ⟨fun id hid => hscope id (h.1 id hid), h.2.imp hscope⟩

theorem Shutdown.Awaits.imp {rest : Shutdown A} (h : rest.Awaits scope query) (hscope : ∀ id, scope id → scope' id) :
    rest.Awaits scope' query := ⟨fun id hid => hscope id (h.1 id hid), h.2.imp hscope⟩

/-- What is left of a call stays within a larger scope. -/
theorem Suspended.Awaits.imp {rest : Suspended A} (h : rest.Awaits scope query)
    (hscope : ∀ id, scope id → scope' id) : rest.Awaits scope' query := by
  cases rest with
  | transition rest => exact Transition.Awaits.imp h hscope
  | tick rest => exact ⟨hscope _ h.1, h.2⟩
  | disconnect rest => exact Disconnect.Awaits.imp h hscope
  | dispatch rest => exact Delivery.Awaits.imp h hscope
  | report rest => exact Transition.Awaits.imp h hscope
  | arrival rest => exact Arrival.Awaits.imp h hscope
  | hostTick rest => exact HostFlush.Awaits.imp h hscope
  | sweep rest => exact Sweep.Awaits.imp h hscope
  | shutdown rest => exact Shutdown.Awaits.imp h hscope
  | loop number rest => exact Sweep.Awaits.imp h hscope

theorem Flush.Awaits.within {id : SessionId} {flush : Flush} (h : flush.Awaits id query) (hid : scope id) :
    scope query.session := by
  obtain ⟨-, rfl⟩ := h
  exact hid

theorem Disconnect.Awaits.within {rest : Disconnect A} (h : rest.Awaits scope query) : scope query.session := by
  cases rest with
  | flushing id reason rest => exact Flush.Awaits.within h.2 h.1
  | leaving id reason rest => exact h.2.2.2
  | closing => exact h.2

theorem Delivery.Awaits.within {rest : Delivery A} (h : rest.Awaits scope query) : scope query.session := by
  cases rest with
  | handling id message called rest => exact h.2.2
  | rejecting reason rest => exact Disconnect.Awaits.within h
  | ending called rest => exact Disconnect.Awaits.within h

theorem HostFlush.Awaits.within {rest : HostFlush A} (h : rest.Awaits scope query) : scope query.session := by
  cases rest with
  | flushing id rest => exact Flush.Awaits.within h.2 h.1
  | failing rest => exact Disconnect.Awaits.within h

/-- What a call has asked concerns a session of the scope. -/
theorem Suspended.Awaits.within {rest : Suspended A} (h : rest.Awaits scope query) : scope query.session := by
  cases rest with
  | transition rest => exact h.2.2
  | tick rest => exact Flush.Awaits.within h.2 h.1
  | disconnect rest => exact Disconnect.Awaits.within h
  | dispatch rest => exact Delivery.Awaits.within h
  | report rest => exact h.2.2
  | arrival rest =>
    cases rest with
    | delivering id handled rest current => exact h.2.within
    | malformed rest => exact Disconnect.Awaits.within h
  | hostTick rest => exact HostFlush.Awaits.within h
  | sweep rest => exact h.2.within
  | shutdown rest => exact h.2.within
  | loop number rest => exact h.2.within

end Awaiting

theorem World.sameHost_credit {world : World A} {scope : SessionId → Prop} {query : Query A}
    (h : scope query.session) (reply : Reply) : world.SameHost scope (world.credit query reply) := by
  cases query with
  | transmit id data =>
    cases reply with
    | failed failure => exact .refl world
    | done => exact sameHost_put h _
    | endSession graceful => exact sameHost_put h _
  | _ => exact .refl world

/-- The return of a transmit is not noted in the books of the host. -/
theorem World.sameHost_returned (world : World A) (query : Query A) (reply : Reply) :
    world.SameHost (fun _ => True) (world.credit query reply) := sameHost_credit True.intro reply

/-- Of a report what is left says what was reported. -/
theorem Call.leaves_report {call : Call A} {report : Report A} :
    call.Leaves (.report report) ↔ call = .hostReport report.id report.state := by
  refine ⟨fun h => ?_, fun h => ?_⟩
  · cases call with
    | hostReport id state =>
      obtain ⟨hid, hstate⟩ := h
      rw [hid, hstate]
    | _ => cases h
  · rw [h]
    exact ⟨rfl, rfl⟩

theorem Call.leaves_of_report {id : SessionId} {state : ConnectionState} {rest : Suspended A}
    (h : (Call.hostReport id state).Leaves rest) : ∃ report : Report A,
      rest = .report report ∧ report.id = id ∧ report.state = state := by
  cases rest with
  | report report => exact ⟨report, rfl, h⟩
  | _ => cases h

theorem Call.exists_leaves (rest : Suspended A) : ∃ call : Call A, call.Leaves rest := by
  cases rest with
  | transition rest => exact ⟨.transition ⟨0⟩ .connected, True.intro⟩
  | tick rest => exact ⟨.tick rest.id, rfl⟩
  | disconnect rest => exact ⟨.disconnect ⟨0⟩ .requested false, True.intro⟩
  | dispatch rest => exact ⟨.dispatch ⟨0⟩ [], True.intro⟩
  | report rest => exact ⟨.hostReport rest.id rest.state, rfl, rfl⟩
  | arrival rest => exact ⟨.hostReceive ⟨0⟩ [], True.intro⟩
  | hostTick rest => exact ⟨.hostTick ⟨0⟩, True.intro⟩
  | sweep rest => exact ⟨.hostFlushAll .asOpened, True.intro⟩
  | shutdown rest => exact ⟨.hostShutdown .asOpened, True.intro⟩
  | loop number rest => exact ⟨.wakeLoop number 0 .asOpened, rfl⟩

/-! ## Moves -/

/-- The sessions that were ever started. -/
def World.Known (world : World A) (id : SessionId) : Prop := world.knows id = true

namespace Machine

/-- What a move does to the books and leaves for later: a call begins, and asks outside code or ends at once; or outside
code returns to the innermost call, which goes on or ends. -/
inductive Turns (scope : SessionId → Prop) (machine next : Machine A) : Event A → Prop where
  | begins {call : Call A} {query : Query A} {rest : Suspended A}
      (hactivity : call.begin machine.world = .ask next.world query rest) (hleaves : call.Leaves rest)
      (hawaits : rest.Awaits scope query) (hwaiting : next.waiting = ⟨query, rest⟩ :: machine.waiting)
      (hbooks : (call.notes machine.world).SameBooks scope next.world) :
      Turns scope machine next (.called call (.asks query))
  | passes {call : Call A} {answer : Answer} (hactivity : call.begin machine.world = .finish next.world answer)
      (hwaiting : next.waiting = machine.waiting)
      (hbooks : (call.settles (call.notes machine.world) answer).SameBooks scope next.world) :
      Turns scope machine next (.called call (.answers answer))
  | goesOn {innermost : Waiting A} {outer : List (Waiting A)} {reply : Reply} {query : Query A} {rest : Suspended A}
      (hinnermost : machine.waiting = innermost :: outer)
      (hactivity : innermost.rest.resume machine.world reply = .ask next.world query rest)
      (hleaves : ∀ call : Call A, call.Leaves innermost.rest → call.Leaves rest) (hawaits : rest.Awaits scope query)
      (hwaiting : next.waiting = ⟨query, rest⟩ :: outer)
      (hbooks : (machine.world.credit innermost.query reply).SameBooks scope next.world) :
      Turns scope machine next (.returned innermost.query reply (.asks query))
  | ends {innermost : Waiting A} {outer : List (Waiting A)} {reply : Reply} {answer : Answer}
      (hinnermost : machine.waiting = innermost :: outer)
      (hactivity : innermost.rest.resume machine.world reply = .finish next.world answer)
      (hwaiting : next.waiting = outer)
      (hbooks : (innermost.rest.settles (machine.world.credit innermost.query reply)).SameBooks scope next.world) :
      Turns scope machine next (.returned innermost.query reply (.answers answer))

theorem settle_turns {waiting : List (Waiting A)} {activity : Activity A (Suspended A) Answer} {next : Machine A}
    {signal : Signal A} {awaits : Query A → Suspended A → Prop} {scope : SessionId → Prop} {entered : World A}
    {left : Answer → World A} (h : activity.Turns awaits scope entered left)
    (hsettle : settle waiting activity = some (next, signal)) :
    (∃ query rest, signal = .asks query ∧ activity = .ask next.world query rest ∧ awaits query rest ∧
      next.waiting = ⟨query, rest⟩ :: waiting ∧ entered.SameBooks scope next.world) ∨
    ∃ answer, signal = .answers answer ∧ activity = .finish next.world answer ∧ next.waiting = waiting ∧
      (left answer).SameBooks scope next.world := by
  rcases settle_cases hsettle with ⟨answer, rfl, rfl, hwaiting⟩ | ⟨query, rest, rfl, rfl, hwaiting⟩
  · exact .inr ⟨answer, rfl, rfl, hwaiting, h.done answer rfl⟩
  · obtain ⟨hbooks, hawaits⟩ := h.asks query rest rfl
    exact .inl ⟨query, rest, rfl, rfl, hawaits, hwaiting, hbooks⟩

/-- **Every move is a turn**, if what waits concerns sessions that were started. -/
theorem move_turns {machine next : Machine A} {move : Move A} {event : Event A}
    (htracked : ∀ id ∈ machine.world.tracked, machine.world.Known id)
    (hwaiting : ∀ waiting ∈ machine.waiting, waiting.rest.Awaits machine.world.Known waiting.query)
    (hmove : machine.move move = some (next, event)) : machine.Turns machine.world.Known next event := by
  cases move with
  | call call =>
    obtain ⟨hcan, signal, rfl, hsettle⟩ := of_move_call hmove
    have hcall : ∀ id, call.session? = some id → machine.world.Known id := by
      intro id hid
      rwa [canCall, hid] at hcan
    rcases settle_turns (call.begin_turns machine.world htracked hcall) hsettle with
      ⟨query, rest, rfl, hactivity, ⟨hleaves, hawaits⟩, hnext, hbooks⟩ | ⟨answer, rfl, hactivity, hnext, hbooks⟩
    · exact .begins hactivity hleaves hawaits hnext hbooks
    · exact .passes hactivity hnext hbooks
  | reply reply =>
    obtain ⟨innermost, outer, signal, hinnermost, rfl, hsettle⟩ := of_move_reply hmove
    have hrest := hwaiting innermost (hinnermost ▸ List.mem_cons_self)
    rcases settle_turns (Suspended.resume_turns machine.world reply hrest) hsettle with
      ⟨query, rest, rfl, hactivity, ⟨hleaves, hawaits⟩, hnext, hbooks⟩ | ⟨answer, rfl, hactivity, hnext, hbooks⟩
    · exact .goesOn hinnermost hactivity hleaves hawaits hnext hbooks
    · exact .ends hinnermost hactivity hnext hbooks

end Machine

/-! ## What is in order -/

/-- A session that a report says is gone is disconnected before anyone hears of it. -/
theorem World.report_reaches {world : World A} {id : SessionId} (htracks : world.tracks id = true) :
    ((world.report id .disconnected).world.session id).state = .disconnected := by
  have hreaches : ((world.transition id .disconnected).world.session id).state = .disconnected := by
    rcases world.transition_reaches id .disconnected with ⟨e, herror⟩ | hstate
    · refine absurd ?_ (world.transition_disconnected_ne_error id e)
      rw [herror]
      rfl
    · exact hstate
  rw [report, if_pos htracks, Activity.andThen]
  split
  · rename_i moved _
    cases moved <;> exact hreaches
  · exact hreaches
  · exact hreaches

/-- What is so of the world at every point of every run of a host. -/
structure World.InOrder (world : World A) : Prop where
  next : 0 < world.ids.next
  room : world.tracked.length ≤ world.config.maxSessions
  distinct : world.tracked.Nodup
  started : ∀ id, world.Known id ↔ 0 < id.number ∧ id.number < world.ids.next
  tidy : ∀ id, world.Known id → (world.session id).Tidy id
  tracked : ∀ id ∈ world.tracked, world.Known id
  kept : ∀ id, world.Known id → world.tracks id = true ∨ (world.session id).state = .disconnected

/-- What is left of a call fits a world: it concerns sessions that were started there, and a session that it reports
gone is disconnected. -/
structure Waiting.Fits (world : World A) (waiting : Waiting A) : Prop where
  awaits : waiting.rest.Awaits world.Known waiting.query
  reported : ∀ report, waiting.rest = .report report → report.state = .disconnected →
    world.Known report.id ∧ (world.session report.id).state = .disconnected

/-- The world is in order, and what waits fits it. -/
structure Machine.InOrder (machine : Machine A) : Prop where
  world : machine.world.InOrder
  waiting : ∀ waiting ∈ machine.waiting, waiting.Fits machine.world

theorem World.eq_of_ofConfig {config : HostConfig} {world : World A} (h : World.ofConfig config = .ok world) :
    world = { config } := by
  unfold World.ofConfig at h
  cases hvalid : config.validate with
  | error e =>
    rw [hvalid] at h
    cases h
  | ok done =>
    rw [hvalid] at h
    cases h
    rfl

theorem World.inOrder_ofConfig {config : HostConfig} {world : World A} (h : World.ofConfig config = .ok world) :
    world.InOrder := by
  have hworld := World.eq_of_ofConfig h
  subst hworld
  refine ⟨Nat.one_pos, Nat.zero_le _, List.nodup_nil, fun id => ⟨fun hknown => ?_, fun hissued => ?_⟩,
    fun id hknown => ?_, fun id hid => absurd hid List.not_mem_nil, fun id hknown => ?_⟩
  · cases hknown
  · exact absurd hissued.1 (Nat.not_lt.2 (Nat.le_of_lt_succ hissued.2))
  · cases hknown
  · cases hknown

namespace Machine

variable {machine next last : Machine A} {move : Move A} {event : Event A}

/-- Sessions that were started stay so. -/
theorem known_move (h : machine.InOrder) (hmove : machine.move move = some (next, event)) {id : SessionId}
    (hknown : machine.world.Known id) : next.world.Known id :=
  ((move_edits hmove).keep (fun _ => True) (fun _ => True) (fun h _ _ => h) ((h.world.started id).1 hknown).2
    True.intro fun _ _ => True.intro).2.2 hknown

/-- Every move of a machine that is in order is a turn. -/
theorem InOrder.turns (h : machine.InOrder) (hmove : machine.move move = some (next, event)) :
    machine.Turns machine.world.Known next event :=
  move_turns h.world.tracked (fun waiting hmem => (h.waiting waiting hmem).awaits) hmove

/-- Outside code is asked about sessions that were started. -/
theorem InOrder.asks (h : machine.InOrder) (hmove : machine.move move = some (next, event)) {query : Query A}
    (hasks : event.signal = .asks query) : machine.world.Known query.session := by
  have hturns := h.turns hmove
  cases hturns with
  | begins _ _ hawaits _ _ =>
    cases hasks
    exact hawaits.within
  | goesOn _ _ _ hawaits _ _ =>
    cases hasks
    exact hawaits.within
  | passes => cases hasks
  | ends => cases hasks

end Machine

/-! ## The register of sessions -/

/-- The host has given out the same ids, and tracks the same sessions. -/
structure World.SameRegister (world next : World A) : Prop where
  config : next.config = world.config
  ids : next.ids = world.ids
  tracked : next.tracked = world.tracked
  known : ∀ id, next.Known id ↔ world.Known id

namespace World

variable {world middle next : World A}

theorem SameRegister.trans (h : world.SameRegister middle) (hnext : middle.SameRegister next) :
    world.SameRegister next where
  config := hnext.config.trans h.config
  ids := hnext.ids.trans h.ids
  tracked := hnext.tracked.trans h.tracked
  known := fun id => (hnext.known id).trans (h.known id)

theorem sameRegister_setLoop (number : Nat) (loop : FlushLoop) : world.SameRegister (world.setLoop number loop) :=
  ⟨rfl, rfl, rfl, fun _ => Iff.rfl⟩

theorem sameRegister_settleTick (number : Nat) : world.SameRegister (world.settleTick number) := by
  unfold settleTick
  split
  · exact sameRegister_setLoop number _
  · exact ⟨rfl, rfl, rfl, fun _ => Iff.rfl⟩
  · exact ⟨rfl, rfl, rfl, fun _ => Iff.rfl⟩
  · exact ⟨rfl, rfl, rfl, fun _ => Iff.rfl⟩

theorem sameRegister_beginTick (number now : Nat) : world.SameRegister (world.beginTick number now) := by
  unfold beginTick
  split
  · split
    · exact ⟨rfl, rfl, rfl, fun _ => Iff.rfl⟩
    · exact sameRegister_setLoop number _
  · exact ⟨rfl, rfl, rfl, fun _ => Iff.rfl⟩
  · exact ⟨rfl, rfl, rfl, fun _ => Iff.rfl⟩
  · exact ⟨rfl, rfl, rfl, fun _ => Iff.rfl⟩

/-- What is done to sessions that were started before leaves the register as it is. -/
theorem SameHost.register {scope : SessionId → Prop} (h : world.SameHost scope next)
    (hscope : ∀ id, scope id → world.Known id ∧ next.Known id) : world.SameRegister next := by
  refine ⟨h.config, h.ids, h.tracked, fun id => ?_⟩
  by_cases hid : scope id
  · exact ⟨fun _ => (hscope id hid).1, fun _ => (hscope id hid).2⟩
  · rw [Known, Known, h.outside id hid]

theorem sameRegister_credit {query : Query A} (h : world.Known query.session) (reply : Reply) :
    world.SameRegister (world.credit query reply) := by
  refine (sameHost_credit h reply).register fun id hid => ⟨hid, ?_⟩
  cases query with
  | transmit other data =>
    cases reply with
    | failed failure => exact hid
    | done | endSession _ =>
      by_cases hother : other = id
      · subst hother
        exact knows_put_self _ _ _
      · exact (knows_put_of_ne _ _ hother).trans hid
  | _ => exact hid

end World

/-- Only opening a session writes in the register as it begins. -/
theorem Call.sameRegister_notes (world : World A) {call : Call A} (h : call ≠ .hostOpen) :
    world.SameRegister (call.notes world) := by
  cases call with
  | hostOpen => exact absurd rfl h
  | wakeLoop number now _ => exact World.sameRegister_beginTick number now
  | _ => exact ⟨rfl, rfl, rfl, fun _ => Iff.rfl⟩

theorem World.sameRegister_dropReported (world : World A) (id : SessionId) {state : ConnectionState}
    (h : state ≠ .disconnected) : world.SameRegister (world.dropReported id state) := by
  rw [dropReported, if_neg h]
  exact ⟨rfl, rfl, rfl, fun _ => Iff.rfl⟩

/-- Only a report that a session is gone writes in the register as it ends. -/
theorem Call.sameRegister_settles (world : World A) {call : Call A} (h : ∀ id, call ≠ .hostReport id .disconnected)
    (answer : Answer) : world.SameRegister (call.settles world answer) := by
  unfold settles
  split
  · rename_i id state
    exact world.sameRegister_dropReported id fun hgone => h id (hgone ▸ rfl)
  · exact World.sameRegister_settleTick _
  · exact ⟨rfl, rfl, rfl, fun _ => Iff.rfl⟩

theorem Suspended.sameRegister_settles (world : World A) {rest : Suspended A}
    (h : ∀ report, rest = .report report → report.state ≠ .disconnected) :
    world.SameRegister (rest.settles world) := by
  cases rest with
  | report report => exact world.sameRegister_dropReported report.id (h report rfl)
  | loop number rest => exact World.sameRegister_settleTick number
  | _ => exact ⟨rfl, rfl, rfl, fun _ => Iff.rfl⟩

namespace Machine

variable {machine next last : Machine A} {move : Move A} {event : Event A}

/-- The session for which a report ends with which it is gone. -/
def gone? (machine : Machine A) : Event A → Option SessionId
  | .called (.hostReport id .disconnected) (.answers _) => some id
  | .returned _ _ (.answers _) =>
    match machine.waiting with
    | ⟨_, .report report⟩ :: _ => if report.state = .disconnected then some report.id else none
    | _ => none
  | _ => none

theorem gone?_of_asks (machine : Machine A) (call : Call A) (query : Query A) :
    machine.gone? (.called call (.asks query)) = none := by
  cases call with
  | hostReport id state => cases state <;> rfl
  | _ => rfl

theorem gone?_of_other {call : Call A} (h : ∀ id, call ≠ .hostReport id .disconnected) (answer : Answer) :
    machine.gone? (.called call (.answers answer)) = none := by
  cases call with
  | hostReport id state =>
    cases state with
    | disconnected => exact absurd rfl (h id)
    | _ => rfl
  | _ => rfl

theorem gone?_of_report {query : Query A} {report : Report A} {outer : List (Waiting A)}
    (hwaiting : machine.waiting = ⟨query, .report report⟩ :: outer) (asked : Query A) (reply : Reply)
    (answer : Answer) : machine.gone? (.returned asked reply (.answers answer)) =
      if report.state = .disconnected then some report.id else none := by
  simp only [gone?, hwaiting]

theorem gone?_of_ended {innermost : Waiting A} {outer : List (Waiting A)}
    (hwaiting : machine.waiting = innermost :: outer)
    (h : ∀ report, innermost.rest = .report report → report.state ≠ .disconnected) (asked : Query A) (reply : Reply)
    (answer : Answer) : machine.gone? (.returned asked reply (.answers answer)) = none := by
  obtain ⟨query, rest⟩ := innermost
  simp only [gone?, hwaiting]
  cases rest with
  | report report => exact if_neg (h report rfl)
  | _ => rfl

/-- What a move that opens no session does to the register: it strikes one that is gone, if any, and disconnected. -/
structure Strikes (machine next : Machine A) (gone : Option SessionId) : Prop where
  config : next.world.config = machine.world.config
  ids : next.world.ids = machine.world.ids
  known : ∀ id, next.world.Known id ↔ machine.world.Known id
  tracked : next.world.tracked = machine.world.tracked.filter (fun id => gone ≠ some id)
  disconnected : ∀ id, gone = some id → machine.world.tracks id = true → (next.world.session id).state = .disconnected

theorem strikes_nobody (h : machine.world.SameRegister next.world) : machine.Strikes next none where
  config := h.config
  ids := h.ids
  known := h.known
  tracked := by
    rw [h.tracked]
    exact (List.filter_eq_self.2 fun id _ => by simp).symm
  disconnected := fun _ hgone => by cases hgone

theorem strikes_one {world : World A} {id : SessionId} (h : machine.world.SameRegister world)
    (hforget : (world.forget id).SameRegister next.world)
    (hdisconnected : machine.world.tracks id = true → (next.world.session id).state = .disconnected) :
    machine.Strikes next (some id) where
  config := hforget.config.trans h.config
  ids := hforget.ids.trans h.ids
  known := fun other => (hforget.known other).trans (h.known other)
  tracked := by
    rw [hforget.tracked, World.forget, h.tracked]
    exact List.filter_congr fun other _ => by simp [eq_comm]
  disconnected := fun other hgone htracks => by
    cases hgone
    exact hdisconnected htracks

theorem world_of_call {call : Call A} (hmove : machine.move (.call call) = some (next, event)) :
    next.world = (call.begin machine.world).world := by
  obtain ⟨-, signal, -, hsettle⟩ := of_move_call hmove
  exact world_settle hsettle

theorem state_of_report {id : SessionId} (htracks : machine.world.tracks id = true)
    (hmove : machine.move (.call (.hostReport id .disconnected)) = some (next, event)) :
    (next.world.session id).state = .disconnected := by
  rw [world_of_call hmove, Call.begin, Call.wrap, Activity.world_andThen _ _ fun _ _ => rfl]
  exact World.report_reaches htracks

/-- **What a move does to the register**, unless it opens a session. -/
theorem InOrder.strikes (h : machine.InOrder) (hmove : machine.move move = some (next, event))
    (hother : move ≠ .call .hostOpen) : machine.Strikes next (machine.gone? event) := by
  -- what was started before the move was started in the world that the books are compared with
  have hregister : ∀ {world : World A}, (∀ id, world.Known id ↔ machine.world.Known id) →
      world.SameBooks machine.world.Known next.world → world.SameRegister next.world :=
    fun hknown hbooks => hbooks.toSameHost.register fun id hid => ⟨(hknown id).2 hid, known_move h hmove hid⟩
  have hsame : ∀ {world : World A}, machine.world.SameRegister world →
      world.SameBooks machine.world.Known next.world → machine.world.SameRegister next.world :=
    fun hsame hbooks => hsame.trans (hregister hsame.known hbooks)
  have hturns := h.turns hmove
  cases hturns with
  | @begins call query rest _ hleaves hawaits hwaiting hbooks =>
    have hopen : call ≠ .hostOpen := by
      rintro rfl
      cases hleaves
    rw [gone?_of_asks]
    exact strikes_nobody (hsame (call.sameRegister_notes _ hopen) hbooks)
  | @passes call answer _ hwaiting hbooks =>
    have hcall := move_of_called hmove
    subst hcall
    have hnotes : machine.world.SameRegister (call.notes machine.world) :=
      call.sameRegister_notes _ fun heq => hother (heq ▸ rfl)
    by_cases hgone : ∃ id, call = .hostReport id .disconnected
    · obtain ⟨id, rfl⟩ := hgone
      exact strikes_one hnotes (hregister hnotes.known hbooks) fun htracks => state_of_report htracks hmove
    · have hkeeps : ∀ id, call ≠ .hostReport id .disconnected := fun id heq => hgone ⟨id, heq⟩
      rw [gone?_of_other hkeeps]
      exact strikes_nobody (hsame (hnotes.trans (Call.sameRegister_settles _ hkeeps answer)) hbooks)
  | @goesOn innermost outer reply query rest hinnermost _ hleaves hawaits hwaiting hbooks =>
    have hwithin := (h.waiting innermost (hinnermost ▸ List.mem_cons_self)).awaits.within
    exact strikes_nobody (hsame (World.sameRegister_credit hwithin reply) hbooks)
  | @ends innermost outer reply answer hinnermost _ hwaiting hbooks =>
    have hmem : innermost ∈ machine.waiting := hinnermost ▸ List.mem_cons_self
    have hcredit := World.sameRegister_credit (h.waiting innermost hmem).awaits.within reply
    by_cases hgone : ∃ report, innermost.rest = .report report ∧ report.state = .disconnected
    · obtain ⟨report, hrest, hstate⟩ := hgone
      obtain ⟨query, rest⟩ := innermost
      cases hrest
      obtain ⟨hknown, hdisconnected⟩ := (h.waiting _ hmem).reported report rfl hstate
      rw [gone?_of_report hinnermost, if_pos hstate]
      have hforget : (Suspended.report report).settles (machine.world.credit query reply) =
          (machine.world.credit query reply).forget report.id := if_pos hstate
      rw [hforget] at hbooks
      refine strikes_one hcredit (hregister hcredit.known hbooks) fun _ => ConnectionState.eq_disconnected ?_
      rw [← hdisconnected]
      exact ((move_edits hmove).rank_le ((h.world.started report.id).1 hknown).2).1
    · have hkeeps : ∀ report, innermost.rest = .report report → report.state ≠ .disconnected :=
        fun report hrest hstate => hgone ⟨report, hrest, hstate⟩
      rw [gone?_of_ended hinnermost hkeeps]
      exact strikes_nobody (hsame (hcredit.trans (Suspended.sameRegister_settles _ hkeeps)) hbooks)

end Machine

/-! ## Staying in order -/

namespace World

variable {world next : World A}

/-- The world with one more session, which has the next id and is tracked behind the others. -/
def withNext (world : World A) : World A :=
  { world.put ⟨world.ids.next⟩ (.start ⟨world.ids.next⟩ world.config.session) with
    ids := ⟨world.ids.next + 1⟩, tracked := world.tracked ++ [⟨world.ids.next⟩] }

theorem openSession_of_room (hopen : world.isShutDown = false)
    (hroom : world.tracked.length < world.config.maxSessions) :
    world.openSession = (world.withNext, .ok ⟨world.ids.next⟩) := by
  simp [World.openSession, hopen, Nat.not_le.2 hroom, SessionIds.issue, withNext]

theorem openSession_of_shutDown (hdown : world.isShutDown = true) : world.openSession = (world, .error .shutDown) :=
  if_pos hdown

theorem openSession_of_full (hopen : world.isShutDown = false)
    (hfull : world.config.maxSessions ≤ world.tracked.length) :
    world.openSession = (world, .error (.tooManySessions world.tracked.length)) := by
  simp [World.openSession, hopen, hfull]

theorem openSession_cases (world : World A) : (∃ e, world.openSession = (world, .error e)) ∨
    world.isShutDown = false ∧ world.tracked.length < world.config.maxSessions ∧
      world.openSession = (world.withNext, .ok ⟨world.ids.next⟩) := by
  cases hdown : world.isShutDown with
  | true => exact .inl ⟨_, openSession_of_shutDown hdown⟩
  | false =>
    rcases Nat.lt_or_ge world.tracked.length world.config.maxSessions with hroom | hfull
    · exact .inr ⟨rfl, hroom, openSession_of_room hdown hroom⟩
    · exact .inl ⟨_, openSession_of_full hdown hfull⟩

theorem known_withNext (world : World A) (id : SessionId) :
    world.withNext.Known id ↔ id = ⟨world.ids.next⟩ ∨ world.Known id := by
  by_cases hid : (⟨world.ids.next⟩ : SessionId) = id
  · subst hid
    exact ⟨fun _ => .inl rfl, fun _ => knows_put_self _ _ _⟩
  · have hput := knows_put_of_ne world (.start ⟨world.ids.next⟩ world.config.session) hid
    exact ⟨fun hknown => .inr (hput.symm.trans hknown), fun hknown => hput.trans (hknown.resolve_left (Ne.symm hid))⟩

theorem session_withNext {id : SessionId} (h : id ≠ ⟨world.ids.next⟩) :
    world.withNext.session id = world.session id := session_put_of_ne world _ (Ne.symm h)

namespace InOrder

/-- The next id was never given out. -/
theorem ne_next (h : world.InOrder) {id : SessionId} (hknown : world.Known id) : id ≠ ⟨world.ids.next⟩ := by
  rintro rfl
  exact Nat.lt_irrefl _ ((h.started _).1 hknown).2

theorem withNext (h : world.InOrder) (hroom : world.tracked.length < world.config.maxSessions) :
    world.withNext.InOrder where
  next := Nat.succ_pos _
  room := by
    rw [World.withNext, List.length_append]
    exact hroom
  distinct := List.nodup_append.2 ⟨h.distinct, List.pairwise_singleton _ _, fun id hid other hother => by
    rw [List.mem_singleton.1 hother]
    exact h.ne_next (h.tracked id hid)⟩
  started := fun id => by
    rw [known_withNext, h.started]
    constructor
    · rintro (rfl | hissued)
      · exact ⟨h.next, Nat.lt_succ_self _⟩
      · exact ⟨hissued.1, Nat.lt_succ_of_lt hissued.2⟩
    · rintro ⟨hpos, hlt⟩
      rcases Nat.lt_succ_iff_lt_or_eq.1 hlt with hless | heq
      · exact .inr ⟨hpos, hless⟩
      · exact .inl (congrArg SessionId.mk heq)
  tidy := fun id hknown => by
    rcases (known_withNext world id).1 hknown with rfl | hold
    · have hstart : world.withNext.session ⟨world.ids.next⟩ = .start ⟨world.ids.next⟩ world.config.session :=
        session_put_self world _ _
      rw [hstart]
      exact Session.tidy_start _
    · rw [session_withNext (h.ne_next hold)]
      exact h.tidy id hold
  tracked := fun id hid => by
    rw [known_withNext]
    rcases List.mem_append.1 hid with hold | hnew
    · exact .inr (h.tracked id hold)
    · exact .inl (List.mem_singleton.1 hnew)
  kept := fun id hknown => by
    rcases (known_withNext world id).1 hknown with rfl | hold
    · exact .inl (List.contains_iff_mem.2 (List.mem_append_right _ (List.mem_singleton.2 rfl)))
    · rw [session_withNext (h.ne_next hold)]
      refine (h.kept id hold).imp (fun htracks => ?_) fun hgone => hgone
      exact List.contains_iff_mem.2 (List.mem_append_left _ (List.contains_iff_mem.1 htracks))

end InOrder

end World

namespace Machine

variable {machine next last : Machine A} {event : Event A}

/-- Opening a session ends at once. -/
theorem move_hostOpen (machine : Machine A) : machine.move (.call .hostOpen) =
    some (⟨machine.world.openSession.1, machine.waiting⟩,
      .called .hostOpen (.answers (.opened machine.world.openSession.2))) := move_of_finish rfl rfl

namespace InOrder

/-- A world in order stays in order when one of its sessions that is gone is struck. -/
theorem world_of_strikes {move : Move A} (h : machine.InOrder) (hmove : machine.move move = some (next, event))
    {gone : Option SessionId} (hstrikes : machine.Strikes next gone) : next.world.InOrder := by
  have hissued : ∀ {id : SessionId}, machine.world.Known id → id.number < machine.world.ids.next :=
    fun hknown => ((h.world.started _).1 hknown).2
  have hsublist : next.world.tracked.Sublist machine.world.tracked := by
    rw [hstrikes.tracked]
    exact List.filter_sublist
  refine ⟨?_, ?_, h.world.distinct.sublist hsublist, fun id => ?_, fun id hknown => ?_, fun id hid => ?_,
    fun id hknown => ?_⟩
  · rw [hstrikes.ids]
    exact h.world.next
  · rw [hstrikes.config]
    exact Nat.le_trans hsublist.length_le h.world.room
  · rw [hstrikes.known, hstrikes.ids]
    exact h.world.started id
  · have hold := (hstrikes.known id).1 hknown
    exact ((move_edits hmove).keep (·.Tidy id) (fun _ => True) (fun htidy _ hedit => htidy.edit hedit) (hissued hold)
      (h.world.tidy id hold) fun _ _ => True.intro).1
  · exact (hstrikes.known id).2 (h.world.tracked id (hsublist.subset hid))
  · have hold := (hstrikes.known id).1 hknown
    rcases h.world.kept id hold with htracks | hended
    · by_cases hgone : gone = some id
      · exact .inr (hstrikes.disconnected id hgone htracks)
      · refine .inl (List.contains_iff_mem.2 ?_)
        rw [hstrikes.tracked]
        exact List.mem_filter.2 ⟨List.contains_iff_mem.1 htracks, decide_eq_true hgone⟩
    · refine .inr (ConnectionState.eq_disconnected ?_)
      rw [← hended]
      exact ((move_edits hmove).rank_le (hissued hold)).1

/-- What waits on a machine in order fits the world after a move as well. -/
theorem waits_on {move : Move A} (h : machine.InOrder) (hmove : machine.move move = some (next, event))
    {waiting : Waiting A} (hmem : waiting ∈ machine.waiting) : waiting.Fits next.world := by
  have hfits := h.waiting waiting hmem
  refine ⟨hfits.awaits.imp fun id hknown => known_move h hmove hknown, fun report hreport hstate => ?_⟩
  obtain ⟨hknown, hended⟩ := hfits.reported report hreport hstate
  refine ⟨known_move h hmove hknown, ConnectionState.eq_disconnected ?_⟩
  rw [← hended]
  exact ((move_edits hmove).rank_le ((h.world.started _).1 hknown).2).1

/-- What is left of a call after a move fits the world that the move led to. -/
theorem waits_new {move : Move A} (h : machine.InOrder) (hmove : machine.move move = some (next, event))
    {query : Query A} {rest : Suspended A} (hasks : event.signal = .asks query)
    (hwaiting : next.waiting.head? = some ⟨query, rest⟩) : (⟨query, rest⟩ : Waiting A).Fits next.world := by
  have hknown : ∀ id, machine.world.Known id → next.world.Known id := fun id hid => known_move h hmove hid
  have hturns := h.turns hmove
  cases hturns with
  | @begins call asked left _ hleaves hawaits hnext hbooks =>
    have hcall := move_of_called hmove
    subst hcall
    cases hasks
    rw [hnext] at hwaiting
    cases hwaiting
    refine ⟨hawaits.imp hknown, fun report hreport hstate => ?_⟩
    subst hreport
    have heq := Call.leaves_report.1 hleaves
    rw [heq, hstate] at hmove
    cases htracks : machine.world.tracks report.id with
    | true =>
      exact ⟨hknown _ (h.world.tracked _ (List.contains_iff_mem.1 htracks)), state_of_report htracks hmove⟩
    | false =>
      have hbegin : (Call.hostReport report.id .disconnected).begin machine.world =
          .finish machine.world (.accepted (.ok ())) := by
        rw [Call.begin, World.report, htracks]
        rfl
      rw [move_of_finish rfl hbegin] at hmove
      cases hmove
  | @goesOn innermost outer reply asked left hinnermost _ hleaves hawaits hnext hbooks =>
    cases hasks
    rw [hnext] at hwaiting
    cases hwaiting
    refine ⟨hawaits.imp hknown, fun report hreport hstate => ?_⟩
    subst hreport
    -- what is left of a report was left of the same report before
    obtain ⟨call, hcall⟩ := Call.exists_leaves innermost.rest
    have hlater := hleaves call hcall
    rw [Call.leaves_report] at hlater
    subst hlater
    obtain ⟨before, hbefore, hid, hsame⟩ := Call.leaves_of_report hcall
    have hmem : innermost ∈ machine.waiting := hinnermost ▸ List.mem_cons_self
    rw [← hid]
    exact (h.waits_on hmove hmem).reported before hbefore (hsame.trans hstate)
  | passes => cases hasks
  | ends => cases hasks

/-- After a move waits what waited before, and what is left of the call that asks. -/
theorem cases_waiting {scope : SessionId → Prop} (hturns : machine.Turns scope next event) {waiting : Waiting A}
    (hmem : waiting ∈ next.waiting) :
    waiting ∈ machine.waiting ∨ event.signal = .asks waiting.query ∧ next.waiting.head? = some waiting := by
  cases hturns with
  | begins _ _ _ hnext _ =>
    rw [hnext] at hmem ⊢
    rcases List.mem_cons.1 hmem with rfl | hmem
    · exact .inr ⟨rfl, rfl⟩
    · exact .inl hmem
  | passes _ hnext _ => exact .inl (hnext ▸ hmem)
  | goesOn hinnermost _ _ _ hnext _ =>
    rw [hnext] at hmem ⊢
    rw [hinnermost]
    rcases List.mem_cons.1 hmem with rfl | hmem
    · exact .inr ⟨rfl, rfl⟩
    · exact .inl (List.mem_cons_of_mem _ hmem)
  | ends hinnermost _ hnext _ =>
    rw [hinnermost]
    exact .inl (List.mem_cons_of_mem _ (hnext ▸ hmem))

/-- **Every move keeps a machine in order.** -/
theorem move {move : Move A} (h : machine.InOrder) (hmove : machine.move move = some (next, event)) :
    next.InOrder := by
  refine ⟨?_, fun waiting hmem => ?_⟩
  · by_cases hopen : move = .call .hostOpen
    · subst hopen
      rw [move_hostOpen] at hmove
      cases hmove
      rcases machine.world.openSession_cases with ⟨e, heq⟩ | ⟨-, hroom, heq⟩
      · rw [heq]
        exact h.world
      · rw [heq]
        exact h.world.withNext hroom
    · exact h.world_of_strikes hmove (h.strikes hmove hopen)
  · rcases cases_waiting (h.turns hmove) hmem with hold | ⟨hasks, hhead⟩
    · exact h.waits_on hmove hold
    · exact h.waits_new hmove hasks hhead

/-- **Every run keeps a machine in order.** -/
theorem run {moves : List (Move A)} {events : List (Event A)} (h : machine.InOrder)
    (hrun : machine.run moves = some (last, events)) : last.InOrder :=
  run_invariant (motive := fun _ machine => machine.InOrder) (fun h hmove => h.move hmove) h hrun

end InOrder

theorem inOrder_ofConfig {config : HostConfig} {world : World A} (h : World.ofConfig config = .ok world) :
    (⟨world, []⟩ : Machine A).InOrder where
  world := World.inOrder_ofConfig h
  waiting := fun _ hmem => absurd hmem List.not_mem_nil

end Machine

end FramedLink
