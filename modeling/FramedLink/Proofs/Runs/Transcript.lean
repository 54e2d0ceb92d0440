import FramedLink.Proofs.Runs.Chain
/-!
# Transcripts of a run

What a session sent and what it accepted can be read off the events of a run (`transmitted`, `accepted`), and the marks
of the edits that the run made say the same.
-/
namespace FramedLink

variable {A : Application}

/-! ## What deeds say -/

def Deed.bytes : Deed → List UInt8
  | sent data => data
  | accepted _ | direct => []

def Deed.payloads : Deed → List Payload
  | accepted payload => [payload]
  | sent _ | direct => []

def deedsOf (id : SessionId) (marks : List Mark) : List Deed :=
  marks.filterMap fun mark => if mark.session = id then some mark.deed else none

theorem deedsOf_map (id other : SessionId) (deeds : List Deed) :
    deedsOf id (deeds.map (Mark.mk other)) = if other = id then deeds else [] := by
  rw [deedsOf, List.filterMap_map]
  by_cases hother : other = id
  · simp only [Function.comp_def, if_pos hother, List.filterMap_some]
  · rw [if_neg hother, List.filterMap_eq_nil_iff]
    exact fun _ _ => if_neg hother

theorem deedsOf_append (id : SessionId) (marks later : List Mark) :
    deedsOf id (marks ++ later) = deedsOf id marks ++ deedsOf id later := List.filterMap_append

theorem bytes_ofOutput (bytes : List UInt8) : (Deed.ofOutput bytes).flatMap Deed.bytes = bytes := by
  unfold Deed.ofOutput
  split
  · rename_i hempty
    rw [List.isEmpty_iff.1 hempty]
    rfl
  · exact List.append_nil bytes

theorem payloads_ofOutput (bytes : List UInt8) : (Deed.ofOutput bytes).flatMap Deed.payloads = [] := by
  unfold Deed.ofOutput
  split <;> rfl

/-! ## Transcripts -/

/-- The data of a session that a query hands to the transport. -/
def Query.transmitted (id : SessionId) : Query A → List UInt8
  | transmit other data => if other = id then data else []
  | _ => []

/-- The payload that a session took in by a call. -/
def Call.accepted (id : SessionId) : Call A → Answer → List Payload
  | enqueue other payload, .flag taken | hostEnqueue other payload, .flag taken =>
    if taken && other = id then [payload] else []
  | _, _ => []

/-- The data of a session that an event handed to the transport. -/
def Event.transmitted (id : SessionId) (event : Event A) : List UInt8 :=
  match event.signal with
  | .asks query => query.transmitted id
  | .answers _ => []

/-- The payload that a session took in at an event. -/
def Event.accepted (id : SessionId) : Event A → List Payload
  | called call (.answers answer) => call.accepted id answer
  | _ => []

def transmitted (id : SessionId) (events : List (Event A)) : List UInt8 := events.flatMap (Event.transmitted id)

/-- All payloads that a session took in, in order. -/
def accepted (id : SessionId) (events : List (Event A)) : List Payload := events.flatMap (Event.accepted id)

/-- A call made on the outbox of a session, past the session: taking a payload in, or flushing it. -/
def Call.isDirect (id : SessionId) : Call A → Bool
  | outboxEnqueue other _ | outboxFlush other _ _ _ => other = id
  | _ => false

/-! ## What the marks of a run say -/

theorem Query.deeds (id : SessionId) (query : Query A) :
    (deedsOf id query.marks).flatMap Deed.bytes = query.transmitted id ∧
      (deedsOf id query.marks).flatMap Deed.payloads = [] ∧ .direct ∉ deedsOf id query.marks := by
  cases query with
  | transmit other data =>
    have hdeeds := deedsOf_map id other [.sent data]
    rw [List.map_singleton] at hdeeds
    rw [transmitted, marks, hdeeds]
    split
    · exact ⟨List.append_nil data, rfl, by simp⟩
    · exact ⟨rfl, rfl, List.not_mem_nil⟩
  | _ => exact ⟨rfl, rfl, List.not_mem_nil⟩

theorem Call.deeds (id : SessionId) (call : Call A) (answer : Answer) :
    (deedsOf id (call.marks answer)).flatMap Deed.bytes = [] ∧
      (deedsOf id (call.marks answer)).flatMap Deed.payloads = call.accepted id answer ∧
      (.direct ∈ deedsOf id (call.marks answer) → call.isDirect id = true) := by
  have htaken : ∀ (other : SessionId) (payload : Payload) (taken : Bool),
      let deeds := deedsOf id ((Deed.ofAnswer payload taken).map (Mark.mk other))
      deeds.flatMap Deed.bytes = [] ∧ deeds.flatMap Deed.payloads = (if taken && other = id then [payload] else []) ∧
        .direct ∉ deeds := by
    intro other payload taken
    rw [deedsOf_map]
    cases taken with
    | false => simp [Deed.ofAnswer]
    | true => by_cases hother : other = id <;> simp [hother, Deed.ofAnswer, Deed.bytes, Deed.payloads]
  have hdirect : ∀ other : SessionId, let deeds := deedsOf id [⟨other, .direct⟩]
      deeds.flatMap Deed.bytes = [] ∧ deeds.flatMap Deed.payloads = [] ∧
        (.direct ∈ deeds → decide (other = id) = true) := by
    intro other
    by_cases hother : other = id <;> simp [deedsOf, hother, Deed.bytes, Deed.payloads]
  cases call with
  | enqueue other payload =>
    cases answer with
    | flag taken =>
      obtain ⟨hbytes, hpayloads, hnone⟩ := htaken other payload taken
      exact ⟨hbytes, hpayloads, fun h => absurd h hnone⟩
    | _ => exact ⟨rfl, rfl, fun h => absurd h List.not_mem_nil⟩
  | hostEnqueue other payload =>
    cases answer with
    | flag taken =>
      obtain ⟨hbytes, hpayloads, hnone⟩ := htaken other payload taken
      exact ⟨hbytes, hpayloads, fun h => absurd h hnone⟩
    | _ => exact ⟨rfl, rfl, fun h => absurd h List.not_mem_nil⟩
  | outboxEnqueue other payload => exact hdirect other
  | outboxFlush other buffer offset limit => exact hdirect other
  | _ => exact ⟨rfl, rfl, fun h => absurd h List.not_mem_nil⟩

theorem Event.deeds (id : SessionId) (event : Event A) :
    (deedsOf id event.marks).flatMap Deed.bytes = event.transmitted id ∧
      (deedsOf id event.marks).flatMap Deed.payloads = event.accepted id ∧
      (.direct ∈ deedsOf id event.marks → ∃ call signal, event = .called call signal ∧ call.isDirect id = true) := by
  cases event with
  | called call signal =>
    cases signal with
    | asks query =>
      obtain ⟨hbytes, hpayloads, hnone⟩ := query.deeds id
      exact ⟨hbytes, hpayloads, fun h => absurd h hnone⟩
    | answers answer =>
      obtain ⟨hbytes, hpayloads, hdirect⟩ := call.deeds id answer
      exact ⟨hbytes, hpayloads, fun h => ⟨call, _, rfl, hdirect h⟩⟩
  | returned query reply signal =>
    cases signal with
    | asks next =>
      obtain ⟨hbytes, hpayloads, hnone⟩ := next.deeds id
      exact ⟨hbytes, hpayloads, fun h => absurd h hnone⟩
    | answers answer => exact ⟨rfl, rfl, fun h => absurd h List.not_mem_nil⟩

/-- **What the marks of a run say is what its events say.** -/
theorem deeds_of_events (id : SessionId) : ∀ events : List (Event A),
    (deedsOf id (events.flatMap Event.marks)).flatMap Deed.bytes = transmitted id events ∧
      (deedsOf id (events.flatMap Event.marks)).flatMap Deed.payloads = accepted id events ∧
      (.direct ∈ deedsOf id (events.flatMap Event.marks) →
        ∃ call signal, .called call signal ∈ events ∧ call.isDirect id = true)
  | [] => ⟨rfl, rfl, fun h => absurd h List.not_mem_nil⟩
  | event :: events => by
    obtain ⟨hbytes, hpayloads, hdirect⟩ := event.deeds id
    obtain ⟨hbytes', hpayloads', hdirect'⟩ := deeds_of_events id events
    rw [List.flatMap_cons, deedsOf_append, List.flatMap_append, List.flatMap_append, hbytes, hpayloads, hbytes',
      hpayloads']
    refine ⟨rfl, rfl, fun h => ?_⟩
    rcases List.mem_append.1 h with h | h
    · obtain ⟨call, signal, rfl, hcall⟩ := hdirect h
      exact ⟨call, signal, List.mem_cons_self, hcall⟩
    · obtain ⟨call, signal, hmem, hcall⟩ := hdirect' h
      exact ⟨call, signal, List.mem_cons_of_mem _ hmem, hcall⟩

theorem Machine.move_of_called {machine next : Machine A} {move : Move A} {call : Call A} {signal : Signal A}
    (h : machine.move move = some (next, .called call signal)) : move = .call call := by
  cases move with
  | call other =>
    obtain ⟨-, _, heq, -⟩ := of_move_call h
    cases heq
    rfl
  | reply reply =>
    obtain ⟨_, _, _, -, heq, -⟩ := of_move_reply h
    cases heq

theorem Machine.move_of_returned {machine next : Machine A} {move : Move A} {query : Query A} {reply : Reply}
    {signal : Signal A} (h : machine.move move = some (next, .returned query reply signal)) :
    move = .reply reply := by
  cases move with
  | call call =>
    obtain ⟨-, _, heq, -⟩ := of_move_call h
    cases heq
  | reply other =>
    obtain ⟨_, _, _, -, heq, -⟩ := of_move_reply h
    cases heq
    rfl

theorem Machine.call_mem_moves : ∀ (moves : List (Move A)) {machine last : Machine A} {events : List (Event A)},
    machine.run moves = some (last, events) → ∀ call signal, .called call signal ∈ events → .call call ∈ moves
  | [], _, _, _, h, call, signal, hmem => by
    cases h
    exact absurd hmem List.not_mem_nil
  | move :: moves, machine, last, events, h, call, signal, hmem => by
    obtain ⟨next, event, later, hmove, hrun, rfl⟩ := exists_of_run_cons h
    rcases List.mem_cons.1 hmem with rfl | hmem
    · rw [move_of_called hmove]
      exact List.mem_cons_self
    · exact List.mem_cons_of_mem _ (call_mem_moves moves hrun call signal hmem)

end FramedLink
