import FramedLink.Machine
/-!
# Serving the transmits of a call

A transport that takes all that it is given ends every transmit of a session with `done`.  Meanwhile outside code may do
what it likes to the world (`during`).  `Activity.Serves` is such a run of one activity, `Machine.Serves` of a machine:
it leads from a transmit to the next, and collects the data.

Main statements: what is served as part of an activity is served within the larger one (`Activity.Serves.andThen`), and
what is served of a call is served by the machine that made it (`Machine.serves_of_settle`).
-/
namespace FramedLink

variable {A : Application} {κ κ' α β : Type}

/-- From one activity to another through transmits of a session, each of which is taken. -/
inductive Activity.Serves (resume : World A → κ → Activity A κ α) (during : World A → World A) (id : SessionId) :
    Activity A κ α → List (List UInt8) → Activity A κ α → Prop where
  | ended (last : Activity A κ α) : Serves resume during id last [] last
  | transmit {world : World A} {data : List UInt8} {rest : κ} {more : List (List UInt8)} {reached : Activity A κ α}
      (h : Serves resume during id (resume (during world) rest) more reached) :
      Serves resume during id (.ask world (.transmit id data) rest) (data :: more) reached

/-- From one state of a machine, with its last signal, to another through transmits of a session, each of which is
taken. -/
inductive Machine.Serves (during : World A → World A) (id : SessionId) :
    Machine A × Signal A → List (List UInt8) → Machine A × Signal A → Prop where
  | ended (last : Machine A × Signal A) : Serves during id last [] last
  | transmit {machine next : Machine A} {event : Event A} {data : List UInt8} {more : List (List UInt8)}
      {reached : Machine A × Signal A}
      (hmove : (⟨during machine.world, machine.waiting⟩ : Machine A).move (.reply .done) = some (next, event))
      (h : Serves during id (next, event.signal) more reached) :
      Serves during id (machine, .asks (.transmit id data)) (data :: more) reached

/-- A call, and the transmits of a session that it leads to, each of which is taken. -/
def Machine.CallServes (during : World A → World A) (id : SessionId) (machine : Machine A) (call : Call A)
    (transmits : List (List UInt8)) (reached : Machine A × Signal A) : Prop :=
  ∃ first event, machine.move (.call call) = some (first, event) ∧
    Serves during id (first, event.signal) transmits reached

theorem Activity.Serves.andThen {resume : World A → κ → Activity A κ α} {resume' : World A → κ' → Activity A κ' β}
    {during : World A → World A} {id : SessionId} {within : κ → κ'} {next : World A → α → Activity A κ' β}
    (hwithin : ∀ world rest, resume' world (within rest) = (resume world rest).andThen within next)
    {first reached : Activity A κ α} {transmits : List (List UInt8)}
    (h : Serves resume during id first transmits reached) :
    Serves resume' during id (first.andThen within next) transmits (reached.andThen within next) := by
  induction h with
  | ended => exact .ended _
  | @transmit world data rest more reached _ hrest =>
    rw [← hwithin] at hrest
    exact .transmit hrest

/-- **What is served of a call is served by the machine**, whatever waits beneath it. -/
theorem Machine.serves_of_settle {during : World A → World A} {id : SessionId}
    {activity last : Activity A (Suspended A) Answer} {transmits : List (List UInt8)} (waiting : List (Waiting A))
    {reached : Machine A × Signal A}
    (h : Activity.Serves (fun world rest => Suspended.resume world .done rest) during id activity transmits last)
    (hlast : settle waiting last = some reached) :
    ∃ first, settle waiting activity = some first ∧ Serves during id first transmits reached := by
  induction h with
  | ended => exact ⟨reached, hlast, .ended reached⟩
  | @transmit world data rest more _ _ hrest =>
    obtain ⟨⟨next, signal⟩, hnext, hserves⟩ := hrest hlast
    have hmove : (⟨during world, ⟨.transmit id data, rest⟩ :: waiting⟩ : Machine A).move (.reply .done)
        = some (next, .returned (.transmit id data) .done signal) := by
      unfold move
      simp only [hnext, Option.map_some]
    exact ⟨_, rfl, .transmit hmove hserves⟩

theorem Machine.callServes_of_begin {during : World A → World A} {id : SessionId} {machine : Machine A} {call : Call A}
    {last : Activity A (Suspended A) Answer} {transmits : List (List UInt8)} {reached : Machine A × Signal A}
    (hcall : machine.canCall call = true)
    (h : Activity.Serves (fun world rest => Suspended.resume world .done rest) during id (call.begin machine.world)
      transmits last)
    (hlast : settle machine.waiting last = some reached) : machine.CallServes during id call transmits reached := by
  obtain ⟨⟨first, signal⟩, hfirst, hserves⟩ := serves_of_settle machine.waiting h hlast
  refine ⟨first, .called call signal, ?_, hserves⟩
  rw [move, if_pos hcall, hfirst]
  rfl

/-! ## Activities that wait for no flush -/

theorem Activity.andThen_ne_stuck {first : Activity A κ α} {within : κ → κ'} {next : World A → α → Activity A κ' β}
    (hfirst : first.progress ≠ .stuck) (hnext : ∀ world result, (next world result).progress ≠ .stuck) :
    (first.andThen within next).progress ≠ .stuck := by
  unfold andThen
  split
  · exact hnext _ _
  · intro h
    cases h
  · rename_i hstuck
    exact absurd hstuck hfirst

theorem World.bidFarewell_ne_stuck (world : World A) (id : SessionId) (reason : DisconnectReason)
    (observers : List A.Observer) : (world.bidFarewell id reason observers).progress ≠ .stuck := by
  cases observers <;> exact fun h => by cases h

theorem World.tell_ne_stuck (world : World A) (id : SessionId) (source target : ConnectionState)
    (observers : List A.Observer) : (world.tell id source target observers).progress ≠ .stuck := by
  cases observers with
  | nil =>
    intro h
    simp only [tell] at h
    split at h
    · exact bidFarewell_ne_stuck _ _ _ _ h
    · cases h
  | cons observer rest => exact fun h => by cases h

theorem World.transition_ne_stuck (world : World A) (id : SessionId) (target : ConnectionState) :
    (world.transition id target).progress ≠ .stuck := by
  intro h
  simp only [transition] at h
  split at h
  · cases h
  · split at h
    · cases h
    · exact tell_ne_stuck _ _ _ _ _ h

theorem World.resumeTransition_ne_stuck (world : World A) (rest : Transition A) :
    (rest.resume world).progress ≠ .stuck := by
  cases rest with
  | telling id source target rest => exact world.tell_ne_stuck id source target rest
  | parting id reason rest => exact world.bidFarewell_ne_stuck id reason rest

theorem World.closeTransport_ne_stuck (world : World A) (id : SessionId) (reason : DisconnectReason)
    (moved : Except SessionError Bool) : (world.closeTransport id reason moved).progress ≠ .stuck := by
  unfold closeTransport
  split <;> exact fun h => by cases h

theorem World.leave_ne_stuck (world : World A) (id : SessionId) (reason : DisconnectReason) :
    (world.leave id reason).progress ≠ .stuck :=
  Activity.andThen_ne_stuck (world.transition_ne_stuck id .disconnecting) fun world =>
    world.closeTransport_ne_stuck id reason

theorem World.pump_ne_stuck (world : World A) (id : SessionId) (limit : Limit) (summary : TickSummary) :
    (world.pump id limit summary).progress ≠ .stuck := by
  unfold pump
  split
  · exact fun h => by cases h
  · cases hresult : ((world.session id).outbox.drain (world.session id).config.transmitBufferSize limit).2 with
    | error e =>
      simp only [hresult]
      exact fun h => by cases h
    | ok output =>
      simp only [hresult]
      split <;> exact fun h => by cases h

theorem World.beginFlush_ne_stuck (world : World A) (id : SessionId) (limit : Limit) :
    (world.beginFlush id limit).progress ≠ .stuck := by
  unfold beginFlush
  split
  · exact pump_ne_stuck _ id limit {}
  · exact fun h => by cases h

theorem World.resumeFlush_ne_stuck (world : World A) (flush : Flush) (reply : Reply) :
    (flush.resume world reply).progress ≠ .stuck := by
  have htaken : (flush.resume world .done).progress ≠ .stuck := by
    simp only [Flush.resume]
    split
    · exact fun h => by cases h
    · exact pump_ne_stuck _ flush.id _ _
  cases reply with
  | failed failure => exact fun h => by cases h
  | done => exact htaken
  | endSession graceful => exact htaken

/-- A disconnect that has begun goes on at every return. -/
theorem World.resumeDisconnect_ne_stuck (world : World A) (reply : Reply) (rest : Disconnect A) :
    (rest.resume world reply).progress ≠ .stuck := by
  cases rest with
  | flushing id reason rest =>
    exact Activity.andThen_ne_stuck (world.resumeFlush_ne_stuck rest reply) fun world _ =>
      world.leave_ne_stuck id reason
  | leaving id reason rest =>
    exact Activity.andThen_ne_stuck (world.resumeTransition_ne_stuck rest) fun world =>
      world.closeTransport_ne_stuck id reason
  | closing => exact fun h => by cases h

/-- Only a disconnect that is to flush waits, and only for a flush of the session that is suspended beneath it. -/
theorem World.flushing_of_stuck {world : World A} {id : SessionId} {reason : DisconnectReason} {flushFirst : Bool}
    (h : (world.disconnect id reason flushFirst).progress = .stuck) :
    flushFirst = true ∧ (world.session id).state = .connected ∧ (world.session id).flushing = true := by
  simp only [disconnect] at h
  split at h
  · cases h
  · split at h
    · rename_i hflush
      rw [Bool.and_eq_true, decide_eq_true_iff] at hflush
      refine ⟨hflush.1, hflush.2, Decidable.byContradiction fun hfree => ?_⟩
      refine Activity.andThen_ne_stuck ?_ (fun world _ => world.leave_ne_stuck id reason) h
      have hnoted : ¬ ((world.modify id (·.noteReason reason)).session id).flushing = true := by
        rw [modify, session_put_self]
        exact hfree
      rw [flushFully, if_neg hnoted]
      exact beginFlush_ne_stuck _ id none
    · exact absurd h (leave_ne_stuck _ id reason)

/-- A call whose activity waits for no flush leads somewhere. -/
theorem Machine.exists_settle {first : Activity A κ α} (waiting : List (Waiting A)) (within : κ → Suspended A)
    (answer : α → Answer) (h : first.progress ≠ .stuck) :
    ∃ reached, settle waiting (Call.wrap first within answer) = some reached := by
  have hwrap : (Call.wrap first within answer).progress ≠ .stuck :=
    Activity.andThen_ne_stuck h fun _ _ h => by cases h
  unfold settle
  split
  · exact ⟨_, rfl⟩
  · exact ⟨_, rfl⟩
  · rename_i hstuck
    exact absurd hstuck hwrap

/-! ## Transmits within calls -/

theorem Activity.Serves.tick {during : World A → World A} {id : SessionId} {transmits : List (List UInt8)}
    {first reached : Activity A Flush (Except FlushError TickSummary)}
    (h : Serves (fun world flush => Flush.resume world flush .done) during id first transmits reached) :
    Serves (fun world rest => Suspended.resume world .done rest) during id (Call.wrap first .tick .flushed) transmits
      (Call.wrap reached .tick .flushed) :=
  h.andThen fun _ _ => rfl

theorem Activity.Serves.disconnect {during : World A → World A} {id : SessionId} {transmits : List (List UInt8)}
    {first reached : Activity A Flush (Except FlushError TickSummary)} (reason : DisconnectReason)
    (h : Serves (fun world flush => Flush.resume world flush .done) during id first transmits reached) :
    Serves (fun world rest => Suspended.resume world .done rest) during id
      (Call.wrap (first.andThen (.flushing id reason) fun world _ => world.leave id reason) .disconnect
        fun _ => .nothing)
      transmits
      (Call.wrap (reached.andThen (.flushing id reason) fun world _ => world.leave id reason) .disconnect
        fun _ => .nothing) := by
  have hflush : Serves (fun world rest => Disconnect.resume world .done rest) during id
      (first.andThen (.flushing id reason) fun world _ => world.leave id reason) transmits
      (reached.andThen (.flushing id reason) fun world _ => world.leave id reason) :=
    h.andThen fun _ _ => rfl
  exact hflush.andThen fun _ _ => rfl

end FramedLink
