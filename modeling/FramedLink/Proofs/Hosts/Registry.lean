import FramedLink.Proofs.Runs.Ledger
import FramedLink.Proofs.Session.Serving
/-!
# The registry of a host

A host gives out ids and says which sessions it tracks.  What it says can be read off its history: a session is tracked
from the moment at which it was opened until a report ends with which it is gone.

Main statement: the registry agrees with the history of any run, and neither the limit on sessions nor a report that a
session is gone ever fails (`Machine.registry`).
-/
namespace FramedLink

variable {A : Application}

/-! ## Histories -/

/-- The session that was opened. -/
def Event.opening? : Event A → Option SessionId
  | called .hostOpen (.answers (.opened (.ok id))) => some id
  | _ => none

/-- The sessions that were opened, in order. -/
def openings (events : List (Event A)) : List SessionId := events.filterMap Event.opening?

/-- The call opened a session. -/
def Finished.Opens (id : SessionId) (record : Finished A) : Prop :=
  record.call = .hostOpen ∧ record.answer = .opened (.ok id)

/-- The call reported that a session is gone. -/
def Finished.Forgets (id : SessionId) (record : Finished A) : Prop := record.call = .hostReport id .disconnected

/-- A session was opened, and no call that reported that it is gone has ended since. -/
def StillOpen (id : SessionId) (finished : List (Finished A)) : Prop :=
  ∃ before record later, finished = before ++ record :: later ∧ record.Opens id ∧ ∀ other ∈ later, ¬ other.Forgets id

theorem not_stillOpen_nil (id : SessionId) : ¬ StillOpen id ([] : List (Finished A)) := by
  rintro ⟨before, record, later, heq, -, -⟩
  exact List.append_ne_nil_of_right_ne_nil before (List.cons_ne_nil record later) heq.symm

theorem stillOpen_concat {id : SessionId} {finished : List (Finished A)} {last : Finished A} :
    StillOpen id (finished ++ [last]) ↔ last.Opens id ∨ StillOpen id finished ∧ ¬ last.Forgets id := by
  constructor
  · rintro ⟨before, record, later, heq, hopens, hkept⟩
    rcases List.eq_nil_or_concat' later with rfl | ⟨later, other, rfl⟩
    · obtain ⟨-, hlast⟩ := List.append_inj' heq rfl
      cases hlast
      exact .inl hopens
    · rw [← List.cons_append, ← List.append_assoc] at heq
      obtain ⟨rfl, hlast⟩ := List.append_inj' heq rfl
      cases hlast
      rw [List.forall_mem_append] at hkept
      exact .inr ⟨⟨before, record, later, rfl, hopens, hkept.1⟩, hkept.2 last (List.mem_singleton.2 rfl)⟩
  · rintro (hopens | ⟨⟨before, record, later, rfl, hopens, hkept⟩, hlast⟩)
    · exact ⟨finished, last, [], rfl, hopens, fun _ hmem => absurd hmem List.not_mem_nil⟩
    · refine ⟨before, record, later ++ [last], by simp, hopens, List.forall_mem_append.2 ⟨hkept, ?_⟩⟩
      intro other hother
      rwa [List.mem_singleton.1 hother]

/-! ## Reports that a session is gone -/

section Reports

variable {id : SessionId} {world : World A}

theorem World.settleReport_done {moved : Except SessionError Bool} {result : Except SessionError Unit}
    {state : ConnectionState} (hmoved : ∀ e, moved ≠ .error e)
    (h : (world.settleReport id state moved).progress = .done result) : result = .ok () := by
  cases moved with
  | error e => exact absurd rfl (hmoved e)
  | ok moved =>
    cases h
    rfl

theorem World.report_done {result : Except SessionError Unit}
    (h : (world.report id .disconnected).progress = .done result) : result = .ok () := by
  unfold report at h
  split at h
  · unfold Activity.andThen at h
    split at h
    · rename_i moved hmoved
      refine settleReport_done (fun e herror => ?_) h
      subst herror
      exact world.transition_disconnected_ne_error id e hmoved
    · cases h
    · cases h
  · cases h
    rfl

theorem World.resumeReport_done {report : Report A} {result : Except SessionError Unit}
    (h : (report.resume world).progress = .done result) : result = .ok () := by
  unfold Report.resume Activity.andThen at h
  split at h
  · rename_i moved hmoved
    refine settleReport_done (fun e herror => ?_) h
    subst herror
    exact world.resumeTransition_ne_error report.rest e hmoved
  · cases h
  · cases h

theorem World.settleReport_ne_stuck (world : World A) (id : SessionId) (state : ConnectionState)
    (moved : Except SessionError Bool) : (world.settleReport id state moved).progress ≠ .stuck := by
  cases moved <;> exact fun h => by cases h

theorem World.report_ne_stuck (world : World A) (id : SessionId) (state : ConnectionState) :
    (world.report id state).progress ≠ .stuck := by
  unfold report
  split
  · exact Activity.andThen_ne_stuck (world.transition_ne_stuck id state) fun world =>
      world.settleReport_ne_stuck id state
  · exact fun h => by cases h

end Reports

namespace Machine

variable {machine next last : Machine A} {move : Move A} {event : Event A} {ledger : Ledger A} {id : SessionId}

/-- **A report never waits for itself**: it ends at once or goes on to ask. -/
theorem exists_report (machine : Machine A) (id : SessionId) (state : ConnectionState) :
    ∃ next signal,
      machine.move (.call (.hostReport id state)) = some (next, .called (.hostReport id state) signal) := by
  obtain ⟨⟨next, signal⟩, hsettle⟩ := exists_settle machine.waiting .report .accepted
    (machine.world.report_ne_stuck id state)
  refine ⟨next, signal, ?_⟩
  rw [Machine.move, if_pos (by rfl), Call.begin, hsettle]
  rfl

theorem exists_reportGoesOn {query : Query A} {report : Report A} {outer : List (Waiting A)}
    (hwaiting : machine.waiting = ⟨query, .report report⟩ :: outer) (reply : Reply) :
    ∃ next signal, machine.move (.reply reply) = some (next, .returned query reply signal) := by
  have hgoing : (report.resume machine.world).progress ≠ .stuck :=
    Activity.andThen_ne_stuck (machine.world.resumeTransition_ne_stuck report.rest) fun world =>
      world.settleReport_ne_stuck report.id report.state
  obtain ⟨⟨next, signal⟩, hsettle⟩ := exists_settle outer .report .accepted hgoing
  refine ⟨next, signal, ?_⟩
  simp only [Machine.move, hwaiting, Suspended.resume, hsettle, Option.map_some]

/-- The session that a move strikes is the one that the ledger says is gone. -/
theorem gone?_iff {scope : SessionId → Prop} (h : ledger.Tallies machine) (hturns : machine.Turns scope next event) :
    machine.gone? event = some id ↔ ∃ record, ledger.ends event = some record ∧ record.Forgets id := by
  cases hturns with
  | @begins call query rest _ _ _ _ _ =>
    rw [gone?_of_asks]
    constructor
    · intro hgone
      cases hgone
    · rintro ⟨record, hends, -⟩
      cases hends
  | @passes call answer hactivity _ _ =>
    have hrecord : (∃ record, ledger.ends (.called call (.answers answer)) = some record ∧ record.Forgets id) ↔
        call = .hostReport id .disconnected := by
      constructor
      · rintro ⟨record, hends, hforgets⟩
        cases hends
        exact hforgets
      · exact fun hcall => ⟨_, rfl, hcall⟩
    rw [hrecord]
    by_cases hgone : ∃ other, call = .hostReport other .disconnected
    · obtain ⟨other, rfl⟩ := hgone
      simp [gone?]
    · rw [gone?_of_other fun other heq => hgone ⟨other, heq⟩]
      refine ⟨fun h => ?_, fun h => absurd ⟨id, h⟩ hgone⟩
      cases h
  | goesOn =>
    constructor
    · intro hgone
      cases hgone
    · rintro ⟨record, hends, -⟩
      cases hends
  | @ends innermost outer reply answer hinnermost hactivity _ _ =>
    obtain ⟨ongoing, below, heq, hongoing⟩ := h.innermost hinnermost
    have hrecord : (∃ record, ledger.ends (.returned innermost.query reply (.answers answer)) = some record ∧
        record.Forgets id) ↔ ongoing.call = .hostReport id .disconnected := by
      simp only [Ledger.ends_returned heq, Option.some.injEq, exists_eq_left']
      exact Iff.rfl
    rw [hrecord]
    by_cases hreport : ∃ report, innermost.rest = .report report
    · obtain ⟨report, hrest⟩ := hreport
      obtain ⟨query, rest⟩ := innermost
      cases hrest
      rw [gone?_of_report hinnermost, Call.leaves_report.1 hongoing]
      by_cases hstate : report.state = .disconnected
      · simp [hstate]
      · simp [hstate]
    · rw [gone?_of_ended hinnermost fun report hrest => absurd ⟨report, hrest⟩ hreport]
      refine ⟨fun h => ?_, fun hcall => ?_⟩
      · cases h
      · rw [hcall] at hongoing
        obtain ⟨report, hrest, -⟩ := Call.leaves_of_report hongoing
        exact absurd ⟨report, hrest⟩ hreport

/-- A call that ends and is not the opening of a session opens none. -/
theorem not_opens {scope : SessionId → Prop} (h : ledger.Tallies machine) (hturns : machine.Turns scope next event)
    (hother : ∀ signal, event ≠ .called .hostOpen signal) {record : Finished A}
    (hends : ledger.ends event = some record) : ¬ record.Opens id := by
  rintro ⟨hcall, -⟩
  rcases h.cases_ends hturns hends with ⟨hevent, -⟩ | ⟨rest, reply, hleaves, -⟩
  · rw [hcall] at hevent
    exact hother _ hevent
  · rw [hcall] at hleaves
    cases hleaves

theorem tracks_withNext (world : World A) (id : SessionId) :
    world.withNext.tracks id = true ↔ id = ⟨world.ids.next⟩ ∨ world.tracks id = true := by
  simp only [World.tracks, World.withNext, List.contains_iff_mem, List.mem_append, List.mem_singleton]
  exact or_comm

/-- **A move makes the host track a session** as it is opened, and untrack it as a report ends with which it is gone. -/
theorem tracks_move (horder : machine.InOrder) (h : ledger.Tallies machine)
    (hmove : machine.move move = some (next, event)) (id : SessionId) :
    next.world.tracks id = true ↔ (∃ record, ledger.ends event = some record ∧ record.Opens id) ∨
      machine.world.tracks id = true ∧ ∀ record, ledger.ends event = some record → ¬ record.Forgets id := by
  by_cases hopen : move = .call .hostOpen
  · subst hopen
    rw [move_hostOpen] at hmove
    cases hmove
    have hends : ∀ answer, ledger.ends (.called .hostOpen (.answers answer)) = some ⟨⟨.hostOpen, []⟩, answer⟩ :=
      fun _ => rfl
    have hforgets : ∀ answer, ¬ (⟨⟨.hostOpen, []⟩, answer⟩ : Finished A).Forgets id := fun _ h => by cases h
    simp only [hends, Option.some.injEq, exists_eq_left', forall_eq', hforgets, not_false_eq_true, and_true]
    rcases machine.world.openSession_cases with ⟨e, heq⟩ | ⟨-, -, heq⟩
    · rw [heq]
      refine ⟨.inr, fun h => h.resolve_left fun hopens => ?_⟩
      cases hopens.2
    · rw [heq, tracks_withNext]
      refine or_congr ⟨fun hid => hid ▸ ⟨rfl, rfl⟩, fun hopens => ?_⟩ Iff.rfl
      have hanswer := hopens.2
      cases hanswer
      rfl
  · have hother : ∀ signal, event ≠ .called .hostOpen signal := by
      rintro signal rfl
      exact hopen (move_of_called hmove)
    have hturns := horder.turns hmove
    have hnone : ¬ ∃ record, ledger.ends event = some record ∧ record.Opens id :=
      fun ⟨record, hends, hopens⟩ => not_opens h hturns hother hends hopens
    have hgone : machine.gone? event ≠ some id ↔ ∀ record, ledger.ends event = some record → ¬ record.Forgets id := by
      rw [Ne, gone?_iff h hturns]
      exact ⟨fun hgone record hends hforgets => hgone ⟨record, hends, hforgets⟩,
        fun hkept ⟨record, hends, hforgets⟩ => hkept record hends hforgets⟩
    rw [or_iff_right hnone, ← hgone]
    simp only [World.tracks, List.contains_iff_mem, (horder.strikes hmove hopen).tracked, List.mem_filter,
      decide_eq_true_eq]

/-- A report that a session is gone never fails. -/
theorem answer_of_forgets {scope : SessionId → Prop} (h : ledger.Tallies machine)
    (hturns : machine.Turns scope next event) {record : Finished A} (hends : ledger.ends event = some record)
    (hforgets : record.Forgets id) : record.answer = .accepted (.ok ()) := by
  unfold Finished.Forgets at hforgets
  rcases h.cases_ends hturns hends with ⟨-, hbegin⟩ | ⟨rest, reply, hleaves, hresume⟩
  · rw [hforgets] at hbegin
    obtain ⟨result, hfinish, hanswer⟩ := Call.wrap_eq_finish hbegin
    rw [hanswer, World.report_done (congrArg Activity.progress hfinish)]
  · rw [hforgets] at hleaves
    obtain ⟨report, rfl, -⟩ := Call.leaves_of_report hleaves
    obtain ⟨result, hfinish, hanswer⟩ := Call.wrap_eq_finish hresume
    rw [hanswer, World.resumeReport_done (congrArg Activity.progress hfinish)]

/-- A move gives out the next id if it opens a session, and none otherwise. -/
theorem ids_move (horder : machine.InOrder) (hmove : machine.move move = some (next, event)) :
    next.world.config = machine.world.config ∧
    ((event.opening? = none ∧ next.world.ids.next = machine.world.ids.next) ∨
      event.opening? = some ⟨machine.world.ids.next⟩ ∧ next.world.ids.next = machine.world.ids.next + 1) := by
  by_cases hopen : move = .call .hostOpen
  · subst hopen
    rw [move_hostOpen] at hmove
    cases hmove
    rcases machine.world.openSession_cases with ⟨e, heq⟩ | ⟨-, -, heq⟩
    · rw [heq]
      exact ⟨rfl, .inl ⟨rfl, rfl⟩⟩
    · rw [heq]
      exact ⟨rfl, .inr ⟨rfl, rfl⟩⟩
  · have hstrikes := horder.strikes hmove hopen
    refine ⟨hstrikes.config, .inl ⟨?_, congrArg SessionIds.next hstrikes.ids⟩⟩
    unfold Event.opening?
    split
    · exact absurd (move_of_called hmove) hopen
    · rfl

/-- What the registry has to do with the events so far. -/
structure Registered (config : HostConfig) (events : List (Event A)) (machine : Machine A) : Prop where
  order : machine.InOrder
  tallies : (({} : Ledger A).after events).Tallies machine
  config : machine.world.config = config
  ids : machine.world.ids.next = (openings events).length + 1
  openings : openings events = (List.range' 1 (openings events).length).map SessionId.mk
  tracks : ∀ id, machine.world.tracks id = true ↔ StillOpen id (({} : Ledger A).after events).finished
  answered : ∀ record ∈ (({} : Ledger A).after events).finished, ∀ id, record.Forgets id →
    record.answer = .accepted (.ok ())

theorem stillOpen_note {ledger : Ledger A} {event : Event A} : StillOpen id (ledger.note event).finished ↔
    (∃ record, ledger.ends event = some record ∧ record.Opens id) ∨
      StillOpen id ledger.finished ∧ ∀ record, ledger.ends event = some record → ¬ record.Forgets id := by
  unfold Ledger.note
  cases hends : ledger.ends event with
  | none => simp
  | some record => simp [stillOpen_concat]

/-- **Every move keeps the registry in step with the history.** -/
theorem Registered.step {config : HostConfig} {events : List (Event A)}
    (h : Registered config events machine) (hmove : machine.move move = some (next, event)) :
    Registered config (events ++ [event]) next := by
  have hledger := ({} : Ledger A).after_concat events event
  have hopenings : FramedLink.openings (events ++ [event]) = FramedLink.openings events ++ event.opening?.toList := by
    rw [FramedLink.openings, List.filterMap_append]
    rfl
  obtain ⟨hconfig, hids⟩ := ids_move h.order hmove
  refine ⟨h.order.move hmove, ?_, hconfig.trans h.config, ?_, ?_, fun id => ?_, ?_⟩
  · rw [hledger]
    exact h.tallies.turns (h.order.turns hmove)
  · rw [hopenings, List.length_append]
    rcases hids with ⟨hnone, hnext⟩ | ⟨hopening, hnext⟩
    · rw [hnone, hnext, h.ids]
      rfl
    · rw [hopening, hnext, h.ids]
      rfl
  · rw [hopenings]
    rcases hids with ⟨hnone, -⟩ | ⟨hopening, -⟩
    · rw [hnone, Option.toList_none, List.append_nil]
      exact h.openings
    · rw [hopening, Option.toList_some, List.length_append, List.length_singleton, List.range'_1_concat,
        List.map_append, ← h.openings, h.ids, Nat.add_comm 1]
      rfl
  · rw [hledger, tracks_move h.order h.tallies hmove, h.tracks, stillOpen_note]
  · rw [hledger]
    intro record hmem id hforgets
    rcases List.mem_append.1 hmem with hold | hnew
    · exact h.answered record hold id hforgets
    · exact answer_of_forgets h.tallies (h.order.turns hmove) (Option.mem_toList.1 hnew) hforgets

theorem Registered.run {config : HostConfig} {moves : List (Move A)} {events : List (Event A)}
    (h : Registered config [] machine) (hrun : machine.run moves = some (last, events)) :
    Registered config events last :=
  run_invariant (motive := Registered config) Registered.step h hrun

theorem registered_ofConfig {config : HostConfig} {world : World A} (h : World.ofConfig config = .ok world) :
    Registered config [] (⟨world, []⟩ : Machine A) := by
  have horder := inOrder_ofConfig h
  have hworld := World.eq_of_ofConfig h
  subst hworld
  refine ⟨horder, .nil, rfl, rfl, rfl, fun id => ⟨fun htracks => ?_, fun hopen => ?_⟩, fun _ hmem => ?_⟩
  · cases htracks
  · exact absurd hopen (not_stillOpen_nil id)
  · exact absurd hmem List.not_mem_nil

/-- A report that ends strikes the session that is gone, and no other. -/
theorem tracked_of_forgets (horder : machine.InOrder) (h : ledger.Tallies machine)
    (hmove : machine.move move = some (next, event)) {record : Finished A} (hends : ledger.ends event = some record)
    (hforgets : record.Forgets id) : next.world.tracked = machine.world.tracked.filter (· ≠ id) := by
  have hopen : move ≠ .call .hostOpen := by
    rintro rfl
    rw [move_hostOpen] at hmove
    cases hmove
    cases hends
    cases hforgets
  have hgone : machine.gone? event = some id := (gone?_iff h (horder.turns hmove)).2 ⟨record, hends, hforgets⟩
  rw [(horder.strikes hmove hopen).tracked, hgone]
  exact List.filter_congr fun other _ => by simp [eq_comm]

theorem length_filter_ne {ids : List SessionId} (hdistinct : ids.Nodup) (hmem : id ∈ ids) :
    (ids.filter (· ≠ id)).length + 1 = ids.length := by
  have hpositive := List.length_pos_of_mem hmem
  have herase : ids.filter (· ≠ id) = ids.erase id := by
    rw [hdistinct.erase_eq_filter]
    exact List.filter_congr fun other _ => by by_cases hsame : other = id <;> simp [hsame]
  rw [herase, List.length_erase_of_mem hmem]
  omega

/-! ## The law -/

/-- **The registry agrees with the history.**  Take any run of a new host: any calls in any order, also from within
transports, observers and handlers, and any replies.  The host tracks no more sessions than it may, each under its own
id.  Ids are given out in ascending order, none twice, one for each session that was opened.  Opening another is
refused exactly if the host is shut down or tracks as many as it may, and a refusal changes nothing.  A session is
tracked exactly if it was opened and no report has ended since with which it is gone.  Such a report can always be made
and always goes on, never fails, and strikes the session and no other, so that its place is free again. -/
theorem registry {config : HostConfig} {world : World A} {last : Machine A} {moves : List (Move A)}
    {events : List (Event A)} (hworld : World.ofConfig config = .ok world)
    (hrun : (⟨world, []⟩ : Machine A).run moves = some (last, events)) :
    let ledger := ({} : Ledger A).after events
    last.world.tracked.length ≤ config.maxSessions ∧ last.world.tracked.Nodup ∧
    (∀ id, last.world.tracks id = true → last.world.knows id = true ∧ (last.world.session id).id = id) ∧
    (openings events).Pairwise (fun a b => a.number < b.number) ∧
    (∀ id ∈ openings events, 1 ≤ id.number ∧ id.number ≤ (openings events).length) ∧
    (last.world.isShutDown = true →
      last.move (.call .hostOpen) = some (last, .called .hostOpen (.answers (.opened (.error .shutDown))))) ∧
    (last.world.isShutDown = false → last.world.tracked.length = config.maxSessions →
      last.move (.call .hostOpen) =
        some (last, .called .hostOpen (.answers (.opened (.error (.tooManySessions config.maxSessions)))))) ∧
    (last.world.isShutDown = false → last.world.tracked.length ≠ config.maxSessions →
      let id : SessionId := ⟨(openings events).length + 1⟩
      ∃ next, last.move (.call .hostOpen) = some (next, .called .hostOpen (.answers (.opened (.ok id)))) ∧
        next.world.tracked = last.world.tracked ++ [id] ∧ next.world.session id = .start id config.session) ∧
    (∀ id, last.world.tracks id = true ↔ StillOpen id ledger.finished) ∧
    (∀ id, (∀ record ∈ ledger.finished, record.Forgets id → record.answer = .accepted (.ok ())) ∧
      (∃ next signal, last.move (.call (.hostReport id .disconnected)) =
        some (next, .called (.hostReport id .disconnected) signal)) ∧
      (∀ query report outer reply, last.waiting = ⟨query, .report report⟩ :: outer →
        ∃ next signal, last.move (.reply reply) = some (next, .returned query reply signal)) ∧
      ∀ move next event record, last.move move = some (next, event) → ledger.ends event = some record →
        record.Forgets id → next.world.tracks id = false ∧
          next.world.tracked = last.world.tracked.filter (· ≠ id) ∧
          (last.world.tracks id = true → next.world.tracked.length + 1 = last.world.tracked.length)) := by
  intro ledger
  have h := (registered_ofConfig hworld).run hrun
  have hroom : last.world.tracked.length ≤ config.maxSessions := h.config ▸ h.order.world.room
  have hnumbers : ∀ id ∈ openings events, 1 ≤ id.number ∧ id.number ≤ (openings events).length := by
    intro id hid
    rw [h.openings] at hid
    obtain ⟨n, hn, rfl⟩ := List.mem_map.1 hid
    obtain ⟨hfirst, hlast⟩ := List.mem_range'_1.1 hn
    exact ⟨hfirst, by rw [Nat.add_comm] at hlast; exact Nat.le_of_lt_succ hlast⟩
  refine ⟨hroom, h.order.world.distinct, fun id htracks => ?_, ?_, hnumbers, fun hdown => ?_, fun hopen hfull => ?_,
    fun hopen hfree => ?_, h.tracks, fun id => ⟨fun record hmem => h.answered record hmem id,
      last.exists_report id .disconnected, fun query report outer reply hwaiting => exists_reportGoesOn hwaiting reply,
      fun move next event record hmove hends hforgets => ?_⟩⟩
  · have hknown := h.order.world.tracked id (List.contains_iff_mem.1 htracks)
    exact ⟨hknown, (h.order.world.tidy id hknown).named⟩
  · rw [h.openings]
    exact List.pairwise_map.2 (List.pairwise_lt_range' _)
  · rw [move_hostOpen, World.openSession_of_shutDown hdown]
  · rw [move_hostOpen, World.openSession_of_full hopen (by rw [h.config, hfull]), hfull]
  · have hless : last.world.tracked.length < last.world.config.maxSessions := by
      rw [h.config]
      exact Nat.lt_of_le_of_ne hroom hfree
    rw [move_hostOpen, World.openSession_of_room hopen hless, ← h.ids, ← h.config]
    exact ⟨_, rfl, rfl, World.session_put_self last.world _ _⟩
  · have htracked := tracked_of_forgets h.order h.tallies hmove hends hforgets
    refine ⟨?_, htracked, fun htracks => ?_⟩
    · rw [World.tracks, htracked]
      simp
    · rw [htracked]
      exact length_filter_ne h.order.world.distinct (List.contains_iff_mem.1 htracks)

/-- A host of two sessions, which an observer asks for a third while the first is being reported gone. -/
def reopenedWithin : List (Move .bare) :=
  [.call (.addObserver ()), .call .hostOpen, .call .hostOpen, .call (.hostReport ⟨1⟩ .disconnected), .call .hostOpen,
    .reply .done, .reply .done, .call .hostOpen]

theorem registry_reopenedWithin :
    ∃ (world : World .bare) (last : Machine .bare) (events : List (Event .bare)),
      World.ofConfig { maxSessions := 2 } = .ok world ∧
      (⟨world, []⟩ : Machine .bare).run reopenedWithin = some (last, events) ∧
      openings events = [⟨1⟩, ⟨2⟩, ⟨3⟩] ∧ last.world.tracked = [⟨2⟩, ⟨3⟩] ∧
      ¬ StillOpen ⟨1⟩ (({} : Ledger .bare).after events).finished ∧
      StillOpen ⟨3⟩ (({} : Ledger .bare).after events).finished ∧
      last.move (.call .hostOpen) =
        some (last, .called .hostOpen (.answers (.opened (.error (.tooManySessions 2))))) := by
  obtain ⟨world, last, events, hworld, hrun, hopenings, htracked, hdown⟩ :
      ∃ (world : World .bare) (last : Machine .bare) (events : List (Event .bare)),
        World.ofConfig { maxSessions := 2 } = .ok world ∧
        (⟨world, []⟩ : Machine .bare).run reopenedWithin = some (last, events) ∧
        openings events = [⟨1⟩, ⟨2⟩, ⟨3⟩] ∧ last.world.tracked = [⟨2⟩, ⟨3⟩] ∧ last.world.isShutDown = false :=
    ⟨_, _, _, rfl, rfl, rfl, rfl, rfl⟩
  obtain ⟨-, -, -, -, -, -, hfull, -, htracks, -⟩ := registry hworld hrun
  refine ⟨world, last, events, hworld, hrun, hopenings, htracked, fun hopen => ?_, ?_, hfull hdown ?_⟩
  · have hgone := (htracks ⟨1⟩).2 hopen
    rw [World.tracks, htracked] at hgone
    exact absurd hgone (by decide)
  · refine (htracks ⟨3⟩).1 ?_
    rw [World.tracks, htracked]
    rfl
  · rw [htracked]
    rfl

end Machine

end FramedLink
