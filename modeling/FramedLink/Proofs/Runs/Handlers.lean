import FramedLink.Proofs.Runs.Conversation
import FramedLink.Proofs.Runs.Readings
import FramedLink.Proofs.Session.Serving
/-!
# How a message runs through its handlers

The handlers of a kind are called in the order of their registration, each in the world that the one before has left.
None is passed over, whatever the ones before it have done to the session and whether or not they failed; only one that
asks for the end of the session is the last, and then the session is disconnected once that handler has returned.

Main statement: so it is in every run, with the count of the message and the answer (`Machine.runs_through_handlers`).
-/
namespace FramedLink

variable {A : Application}

/-- Whether a handler asks for the end of the session, and if so whether gracefully. -/
def Reply.endsSession : Reply → Option Bool
  | endSession graceful => some graceful
  | done | failed _ => none

/-- How far a message has come: a handler is being called, and these are to follow; all have been called; or the last
one called has asked for the end of the session. -/
inductive Standing (A : Application) where
  | calling (handler : A.Handler) (rest : List A.Handler)
  | through
  | stopped (graceful : Bool)

/-- A message runs through handlers from one world to another. -/
inductive RunsThrough (id : SessionId) (message : A.Message) :
    World A → List A.Handler → List (Exchange A) → World A → Standing A → Prop where
  | calls (world : World A) (handler : A.Handler) (rest : List A.Handler) :
      RunsThrough id message world (handler :: rest) [] world (.calling handler rest)
  | all (world : World A) : RunsThrough id message world [] [] world .through
  | goesOn {world found last : World A} {handler : A.Handler} {rest : List A.Handler} {reply : Reply}
      {later : List (Exchange A)} {standing : Standing A} (hreply : reply.endsSession = none)
      (h : RunsThrough id message found rest later last standing) :
      RunsThrough id message world (handler :: rest) (⟨.handle handler id message, world, reply, found⟩ :: later) last
        standing
  | stops (world found : World A) (handler : A.Handler) (rest : List A.Handler) (graceful : Bool) :
      RunsThrough id message world (handler :: rest)
        [⟨.handle handler id message, world, .endSession graceful, found⟩] found (.stopped graceful)

namespace RunsThrough

variable {id : SessionId} {message : A.Message} {world last : World A} {handlers : List A.Handler}
  {exchanges : List (Exchange A)} {standing : Standing A}

/-- The handlers called are the first ones, each of them once, and with this message. -/
theorem queries (h : RunsThrough id message world handlers exchanges last standing) :
    exchanges.map (·.query) = (handlers.take exchanges.length).map (.handle · id message) := by
  induction h with
  | calls | all | stops => rfl
  | goesOn _ _ ih => rw [List.map_cons, List.length_cons, List.take_succ_cons, List.map_cons, ih]

/-- A session that no handler touches stays as it is. -/
theorem untouched (h : RunsThrough id message world handlers exchanges last standing)
    (hsame : ∀ exchange ∈ exchanges, exchange.found.session id = exchange.asked.session id) :
    last.session id = world.session id := by
  induction h with
  | calls | all => rfl
  | stops world found => exact hsame _ List.mem_cons_self
  | goesOn _ _ ih =>
    obtain ⟨hfirst, hlater⟩ := List.forall_mem_cons.1 hsame
    exact (ih hlater).trans hfirst

end RunsThrough

namespace Standing

/-- The delivery that stands so after calling so many handlers: it calls the next, ends, or disconnects the session. -/
def Comes (id : SessionId) (message : A.Message) (called : Nat) (reached : World A) (ending : List (Exchange A))
    (delivery : Activity A (Delivery A) DispatchOutcome) : Standing A → Prop
  | calling handler rest =>
    ending = [] ∧ delivery = .ask reached (.handle handler id message) (.handling id message (called + 1) rest)
  | through => ending = [] ∧ delivery = .finish reached (.handled called)
  | stopped graceful =>
    ∃ last, Activity.Talks Disconnect.resume (reached.disconnect id .requested graceful) ending last ∧
      delivery = last.andThen (.ending called) fun world _ => .finish world (.handled called)

/-- What a conversation shows that stands so after calling so many handlers: the next handler is asked; the answer is
their number; or what it says is what the disconnect says, and the answer is their number once that is done. -/
def Shows (id : SessionId) (message : A.Message) (called : Nat) (reached : World A) (ending : List (Exchange A))
    (talk : Conversation A) : Standing A → Prop
  | calling handler _ => ending = [] ∧ talk.world = reached ∧ talk.signal = .asks (.handle handler id message)
  | through => ending = [] ∧ talk.world = reached ∧ talk.signal = .answers (.dispatched (.handled called))
  | stopped graceful =>
    ∃ last, Activity.Talks Disconnect.resume (reached.disconnect id .requested graceful) ending last ∧
      talk.world = last.world ∧
      match last.progress with
      | .done _ => talk.signal = .answers (.dispatched (.handled called))
      | .asks query _ => talk.signal = .asks query
      | .stuck => False

end Standing

/-- A message that the session may use is counted, and its handlers are called from the first on. -/
theorem World.dispatch_of_admitted {world : World A} {id : SessionId} {payload : Payload} {message : A.Message}
    {entry : DispatchEntry A.Kind A.Handler} (hopen : (world.session id).state.isClosing = false)
    (hdecode : A.decode payload = some message) (hentry : A.table.get? (A.kindOf message) = some entry)
    (hadmitted : entry.requiresAuthentication = true → (world.session id).isAuthenticated = true) :
    world.dispatch id payload =
      (world.put id (world.session id).countHandled).callHandlers id message 0 entry.handlers := by
  have hpasses : ¬ (entry.requiresAuthentication && !(world.session id).isAuthenticated) = true := by
    cases hrequires : entry.requiresAuthentication with
    | false => exact Bool.false_ne_true
    | true => rw [hadmitted hrequires]; exact Bool.false_ne_true
  simp only [dispatch, hopen, hdecode, hentry, Bool.false_eq_true, if_false]
  exact if_neg hpasses

theorem World.world_callHandlers (world : World A) (id : SessionId) (message : A.Message) (called : Nat) :
    ∀ handlers, (world.callHandlers id message called handlers).world = world
  | [] | _ :: _ => rfl

theorem World.callHandlers_ne_stuck (world : World A) (id : SessionId) (message : A.Message) (called : Nat) :
    ∀ handlers, (world.callHandlers id message called handlers).progress ≠ .stuck
  | [], h | _ :: _, h => by cases h

/-- **A delivery runs through its handlers**, whatever they answer and in whatever worlds. -/
theorem World.callHandlers_talks (id : SessionId) (message : A.Message) : ∀ (handlers : List A.Handler)
    {world : World A} {called : Nat} {exchanges : List (Exchange A)}
    {delivery : Activity A (Delivery A) DispatchOutcome},
    Activity.Talks Delivery.resume (world.callHandlers id message called handlers) exchanges delivery →
    ∃ calls ending reached standing, exchanges = calls ++ ending ∧
      RunsThrough id message world handlers calls reached standing ∧
      standing.Comes id message (called + calls.length) reached ending delivery
  | [], world, called, exchanges, delivery, h => by
    obtain ⟨rfl, rfl⟩ := Activity.Talks.of_finish h
    exact ⟨[], [], world, .through, rfl, .all world, rfl, rfl⟩
  | handler :: rest, world, called, exchanges, delivery, h => by
    rcases Activity.Talks.of_ask h with ⟨rfl, rfl⟩ | ⟨found, reply, later, rfl, hlater⟩
    · exact ⟨[], [], world, .calling handler rest, rfl, .calls world handler rest, rfl, rfl⟩
    have hgoes : ∀ reply : Reply, reply.endsSession = none →
        Activity.Talks Delivery.resume (found.callHandlers id message (called + 1) rest) later delivery →
        ∃ calls ending reached standing,
          ⟨.handle handler id message, world, reply, found⟩ :: later = calls ++ ending ∧
          RunsThrough id message world (handler :: rest) calls reached standing ∧
          standing.Comes id message (called + calls.length) reached ending delivery := by
      intro reply hreply hlater
      obtain ⟨calls, ending, reached, standing, rfl, hruns, hcomes⟩ := callHandlers_talks id message rest hlater
      refine ⟨_ :: calls, ending, reached, standing, rfl, .goesOn hreply hruns, ?_⟩
      rwa [List.length_cons, Nat.add_comm calls.length, ← Nat.add_assoc]
    cases reply with
    | done => exact hgoes .done rfl hlater
    | failed failure => exact hgoes (.failed failure) rfl hlater
    | endSession graceful =>
      obtain ⟨last, htalks, hlast⟩ := Activity.Talks.of_andThen (fun _ _ _ => rfl) (fun _ _ => ⟨_, rfl⟩) hlater
      exact ⟨[_], later, found, .stopped graceful, rfl, .stops world found handler rest graceful, last, htalks, hlast⟩

/-- A delivery to handlers that does not go on after a return would wait for itself: a handler has asked for a graceful
end in the middle of a flush of the session. -/
theorem Standing.Comes.flushing_of_stuck {id : SessionId} {message : A.Message} {called : Nat} {reached : World A}
    {ending : List (Exchange A)} {delivery : Activity A (Delivery A) DispatchOutcome} {standing : Standing A}
    (h : standing.Comes id message called reached ending delivery) {query : Query A} {rest : Delivery A}
    (hasks : delivery.progress = .asks query rest) {world : World A} {reply : Reply}
    (hstuck : (rest.resume world reply).progress = .stuck) :
    (∃ handler later, standing = .calling handler later) ∧ reply = .endSession true ∧
      (world.session id).state = .connected ∧ (world.session id).flushing = true := by
  cases standing with
  | calling handler later =>
    obtain ⟨-, rfl⟩ := h
    cases hasks
    cases reply with
    | done => exact absurd hstuck (world.callHandlers_ne_stuck id message (called + 1) later)
    | failed failure => exact absurd hstuck (world.callHandlers_ne_stuck id message (called + 1) later)
    | endSession graceful =>
      have hdisconnect : (world.disconnect id .requested graceful).progress = .stuck :=
        Classical.byContradiction fun h => Activity.andThen_ne_stuck h (fun _ _ h => by cases h) hstuck
      obtain ⟨rfl, hflushing⟩ := World.flushing_of_stuck hdisconnect
      exact ⟨⟨handler, later, rfl⟩, rfl, hflushing⟩
  | through =>
    obtain ⟨-, rfl⟩ := h
    cases hasks
  | stopped graceful =>
    obtain ⟨⟨here, progress⟩, -, rfl⟩ := h
    cases progress with
    | done result => cases hasks
    | asks asked left =>
      cases hasks
      exact absurd hstuck (Activity.andThen_ne_stuck (world.resumeDisconnect_ne_stuck reply left)
        fun _ _ h => by cases h)
    | stuck => cases hasks

/-- A conversation shows what its delivery has come to. -/
theorem Standing.Comes.shows {id : SessionId} {message : A.Message} {called : Nat} {reached : World A}
    {ending : List (Exchange A)} {delivery : Activity A (Delivery A) DispatchOutcome} {standing : Standing A}
    (h : standing.Comes id message called reached ending delivery) {talk : Conversation A} {outer : List (Waiting A)}
    {machine : Machine A} (hstands : talk.Stands outer machine (Call.wrap delivery .dispatch .dispatched)) :
    standing.Shows id message called reached ending talk := by
  cases standing with
  | calling handler rest =>
    obtain ⟨hending, rfl⟩ := h
    rcases hstands with ⟨answer, hactivity, -⟩ | ⟨query, left, inner, hactivity, hsignal, -⟩
    · cases hactivity
    · cases hactivity
      exact ⟨hending, rfl, hsignal⟩
  | through =>
    obtain ⟨hending, rfl⟩ := h
    rcases hstands with ⟨answer, hactivity, hsignal⟩ | ⟨query, left, inner, hactivity, -, -⟩
    · cases hactivity
      exact ⟨hending, rfl, hsignal⟩
    · cases hactivity
  | stopped graceful =>
    obtain ⟨⟨here, progress⟩, htalks, rfl⟩ := h
    refine ⟨_, htalks, ?_⟩
    rcases hstands with ⟨answer, hactivity, hsignal⟩ | ⟨query, left, inner, hactivity, hsignal, -⟩
    · cases progress with
      | done result =>
        cases hactivity
        exact ⟨rfl, hsignal⟩
      | asks asked rest => cases hactivity
      | stuck => cases hactivity
    · cases progress with
      | done result => cases hactivity
      | asks asked rest =>
        cases hactivity
        exact ⟨rfl, hsignal⟩
      | stuck => cases hactivity

/-! ## Messages handled in the meantime -/

/-- What is left of a call delivers nothing to the session. -/
def Suspended.Bypasses (id : SessionId) : Suspended A → Prop
  | arrival (.delivering other _ _ _) => other ≠ id
  | _ => True

section Bypasses

variable {id other : SessionId} {world next : World A}

theorem Arrival.IsFor.bypasses {rest : Arrival A} (h : rest.IsFor other) (hother : other ≠ id) :
    (Suspended.arrival rest).Bypasses id := by
  cases rest with
  | delivering session handled later current =>
    obtain rfl : session = other := h
    exact hother
  | malformed rest => exact True.intro

/-- What is left of an arrival that bypasses a session is about another one. -/
theorem Suspended.Bypasses.exists_isFor {rest : Arrival A} (h : (arrival rest).Bypasses id) :
    ∃ other, other ≠ id ∧ rest.IsFor other := by
  cases rest with
  | delivering other handled later current => exact ⟨other, h, rfl⟩
  | malformed rest => exact ⟨⟨id.number + 1⟩, fun heq => by simpa using congrArg SessionId.number heq, True.intro⟩

/-- A delivery to another session handles no message of this one, and leaves no such delivery behind. -/
theorem Activity.Delivers.bypasses {counted ahead : Nat} {activity : Activity A (Arrival A) Nat}
    (h : activity.Delivers other world counted ahead) (hother : other ≠ id) :
    (activity.world.session id).stats.messagesHandled = (world.session id).stats.messagesHandled ∧
      ∀ query rest, activity.progress = .asks query rest → (Suspended.arrival rest).Bypasses id := by
  obtain ⟨n, hupkeep, hprogress⟩ := h
  refine ⟨?_, fun query rest hasks => ?_⟩
  · rw [(hupkeep.unfed id).handled, List.count_replicate, if_neg (by simpa using hother), Nat.add_zero]
  · rw [hasks] at hprogress
    exact hprogress.1.bypasses hother

theorem World.Upkeep.handled_eq {handled : List SessionId} (h : world.Upkeep handled next) (hid : id ∉ handled) :
    (next.session id).stats.messagesHandled = (world.session id).stats.messagesHandled := by
  rw [(h.unfed id).handled, List.count_eq_zero.2 hid, Nat.add_zero]

theorem Call.begin_bypasses {call : Call A} (hquiet : ¬ call.DeliversTo id)
    (hnew : world.ids.next ≤ id.number → world.knows id = false) :
    ((call.begin world).world.session id).stats.messagesHandled = (world.session id).stats.messagesHandled ∧
      ∀ next query rest, call.begin world = .ask next query rest → rest.Bypasses id := by
  refine ⟨?_, fun next query rest hasks => ?_⟩
  · obtain ⟨handled, hupkeep, hdelivers⟩ := call.begin_upkeep world
    rw [hupkeep.handled_eq fun hmem => hquiet (hdelivers id hmem)]
    rcases call.primes_session hnew with ⟨-, hunfed⟩ | ⟨chunk, -, hprimes⟩
    · exact hunfed.handled
    · rw [hprimes]
      rcases (world.session id).receive_outcome chunk with ⟨-, heq⟩ | ⟨-, ⟨e, -, heq⟩ | ⟨count, -, heq⟩⟩
      · rw [heq]
      · rw [heq]
      · rw [heq]
        rfl
  · cases call with
    | hostReceive other chunk =>
      obtain ⟨left, hfirst, rfl⟩ := wrap_eq_ask hasks
      exact ((world.hostReceive_delivers other chunk).bypasses hquiet).2 query left (by rw [hfirst]; rfl)
    | hostDisconnect other reason flushFirst =>
      rw [begin] at hasks
      split at hasks
      · obtain ⟨left, -, rfl⟩ := wrap_eq_ask hasks
        exact True.intro
      · cases hasks
    | transition | tick | disconnect | dispatch | hostReport | hostTick | hostFlushAll | hostShutdown | wakeLoop =>
      obtain ⟨left, -, rfl⟩ := wrap_eq_ask hasks
      exact True.intro
    | _ => cases hasks

theorem Suspended.resume_bypasses {rest : Suspended A} (hbypasses : rest.Bypasses id) (reply : Reply) :
    ((rest.resume world reply).world.session id).stats.messagesHandled =
        (world.session id).stats.messagesHandled ∧
      ∀ next query left, rest.resume world reply = .ask next query left → left.Bypasses id := by
  by_cases harrival : ∃ arrival, rest = .arrival arrival
  · obtain ⟨arrival, rfl⟩ := harrival
    obtain ⟨other, hother, hfor⟩ := hbypasses.exists_isFor
    obtain ⟨hhandled, hleft⟩ := (world.resumeArrival_delivers reply hfor).bypasses hother
    rw [resume, Call.world_wrap]
    refine ⟨hhandled, fun next query left hasks => ?_⟩
    obtain ⟨left, hfirst, rfl⟩ := Call.wrap_eq_ask hasks
    exact hleft query left (by rw [hfirst]; rfl)
  · have hother : ∀ arrival, rest ≠ .arrival arrival := fun arrival heq => harrival ⟨arrival, heq⟩
    obtain ⟨handled, hupkeep, hdelivers⟩ := rest.resume_upkeep world reply
    refine ⟨hupkeep.handled_eq ((hdelivers id).resolve_left fun hto => ?_), fun next query left hasks => ?_⟩
    · cases rest with
      | arrival arrival => exact hother arrival rfl
      | _ => exact hto
    · cases rest with
      | arrival arrival => exact absurd rfl (hother arrival)
      | _ =>
        obtain ⟨left, -, rfl⟩ := Call.wrap_eq_ask hasks
        exact True.intro

end Bypasses

namespace Machine

section Bypasses

variable {id : SessionId} {machine next last : Machine A}

/-- Nothing that waits delivers to the session. -/
def Bypasses (id : SessionId) (machine : Machine A) : Prop := ∀ waiting ∈ machine.waiting, waiting.rest.Bypasses id

theorem Bypasses.move {move : Move A} {event : Event A} (h : machine.Bypasses id)
    (hissued : id.number < machine.world.ids.next) (hquiet : ∀ call, move = .call call → ¬ call.DeliversTo id)
    (hmove : machine.move move = some (next, event)) :
    (next.world.session id).stats.messagesHandled = (machine.world.session id).stats.messagesHandled ∧
      next.Bypasses id := by
  have hnext : ∀ {activity : Activity A (Suspended A) Answer} {outer : List (Waiting A)} {signal : Signal A},
      settle outer activity = some (next, signal) → (∀ waiting ∈ outer, waiting.rest.Bypasses id) →
      (∀ next query rest, activity = .ask next query rest → rest.Bypasses id) → next.Bypasses id := by
    intro activity outer signal hsettle houter hrest
    rcases settle_cases hsettle with ⟨answer, -, -, hwaiting⟩ | ⟨query, rest, hactivity, -, hwaiting⟩
    · rw [Bypasses, hwaiting]
      exact houter
    · rw [Bypasses, hwaiting]
      exact List.forall_mem_cons.2 ⟨hrest _ query rest hactivity, houter⟩
  cases event with
  | called call signal =>
    have hsettle := settle_of_called hmove
    obtain ⟨hhandled, hrest⟩ := call.begin_bypasses (hquiet call (move_of_called hmove)) fun hnew =>
      absurd hissued (Nat.not_lt.2 hnew)
    rw [world_settle hsettle]
    exact ⟨hhandled, hnext hsettle h hrest⟩
  | returned query reply signal =>
    obtain ⟨rest, outer, hwaiting, hsettle⟩ := settle_of_returned hmove
    rw [Bypasses, hwaiting] at h
    obtain ⟨hbypasses, houter⟩ := List.forall_mem_cons.1 h
    obtain ⟨hhandled, hrest⟩ := Suspended.resume_bypasses hbypasses reply
    rw [world_settle hsettle]
    exact ⟨hhandled, hnext hsettle houter hrest⟩

/-- **Only what is delivered is handled**: a run in which no payload is delivered to a session handles none of its
messages. -/
theorem Bypasses.run {moves : List (Move A)} {events : List (Event A)} (h : machine.Bypasses id)
    (hissued : id.number < machine.world.ids.next) (hquiet : ∀ call, .call call ∈ moves → ¬ call.DeliversTo id)
    (hrun : machine.run moves = some (last, events)) :
    (last.world.session id).stats.messagesHandled = (machine.world.session id).stats.messagesHandled := by
  refine (run_invariant_of_mem (motive := fun _ reached => reached.Bypasses id ∧ id.number < reached.world.ids.next ∧
    (reached.world.session id).stats.messagesHandled = (machine.world.session id).stats.messagesHandled)
    (fun {_ _ _ _ _} hmem hreached hmove => ?_) ⟨h, hissued, rfl⟩ hrun).2.2
  obtain ⟨hbypasses, hissued, hhandled⟩ := hreached
  obtain ⟨hsame, hnext⟩ := hbypasses.move hissued (fun call hcall => hquiet call (hcall ▸ hmem)) hmove
  exact ⟨hnext, ((move_edits hmove).rank_le hissued).2, hsame.trans hhandled⟩

end Bypasses

/-- The machine goes on after a return to the innermost call unless that call would wait for itself. -/
theorem move_reply_eq_none {machine : Machine A} {query : Query A} {rest : Suspended A} {outer : List (Waiting A)}
    (hwaiting : machine.waiting = ⟨query, rest⟩ :: outer) {reply : Reply} (h : machine.move (.reply reply) = none) :
    (rest.resume machine.world reply).progress = .stuck := by
  simp only [Machine.move, hwaiting, Option.map_eq_none_iff, settle] at h
  cases hprogress : (rest.resume machine.world reply).progress with
  | stuck => rfl
  | done answer => rw [hprogress] at h; cases h
  | asks query rest => rw [hprogress] at h; cases h

section Dispatch

variable {machine first last : Machine A} {id : SessionId} {payload : Payload} {signal : Signal A}

theorem exists_dispatch (hknown : machine.world.knows id = true)
    (hgoes : (machine.world.dispatch id payload).progress ≠ .stuck) : ∃ first signal,
      machine.move (.call (.dispatch id payload)) = some (first, .called (.dispatch id payload) signal) := by
  obtain ⟨⟨first, signal⟩, hsettle⟩ := exists_settle machine.waiting .dispatch .dispatched hgoes
  have hcan : machine.canCall (.dispatch id payload) = true := hknown
  refine ⟨first, signal, ?_⟩
  rw [move, if_pos hcan]
  exact congrArg (Option.map _) hsettle

/-- What a dispatch waits for handles no further message. -/
theorem Bypasses.dispatch (h : machine.Bypasses id)
    (hmove : machine.move (.call (.dispatch id payload)) = some (first, .called (.dispatch id payload) signal)) :
    first.Bypasses id := by
  rcases settle_cases (settle_of_called hmove) with ⟨answer, -, -, hwaiting⟩ | ⟨query, rest, hactivity, -, hwaiting⟩
  · rwa [Bypasses, hwaiting]
  · obtain ⟨left, -, rfl⟩ := Call.wrap_eq_ask hactivity
    rw [Bypasses, hwaiting]
    exact List.forall_mem_cons.2 ⟨True.intro, h⟩

/-- The conversation of a dispatch is one of its delivery. -/
theorem dispatch_talks {moves : List (Move A)} {events : List (Event A)}
    (hmove : machine.move (.call (.dispatch id payload)) = some (first, .called (.dispatch id payload) signal))
    (hrun : first.run moves = some (last, events)) :
    let talk := first.conversation machine.waiting.length first.world signal moves
    ∃ delivery, Activity.Talks Delivery.resume (machine.world.dispatch id payload) talk.exchanges delivery ∧
      talk.Stands machine.waiting last (Call.wrap delivery .dispatch .dispatched) := by
  have hcall : (Call.dispatch id payload).begin machine.world =
      Call.wrap (machine.world.dispatch id payload) .dispatch .dispatched := rfl
  obtain ⟨reached, htalks, hstands⟩ := conversation_talks hmove hrun
  rw [hcall] at htalks
  obtain ⟨delivery, hdelivery, rfl⟩ := Activity.Talks.of_andThen (fun _ _ _ => rfl) (fun _ _ => ⟨_, rfl⟩) htalks
  exact ⟨delivery, hdelivery, hstands⟩

/-- A return to a delivery that waits innermost is only refused if the delivery would wait for itself. -/
theorem stuck_of_refused {talk : Conversation A} {outer : List (Waiting A)}
    {delivery : Activity A (Delivery A) DispatchOutcome}
    (hstands : talk.Stands outer last (Call.wrap delivery .dispatch .dispatched)) {query : Query A} {reply : Reply}
    (hasks : talk.signal = .asks query) (hdepth : last.waiting.length = outer.length + 1)
    (hnone : last.move (.reply reply) = none) :
    ∃ asked left, delivery.progress = .asks asked left ∧ (left.resume last.world reply).progress = .stuck := by
  rcases hstands with ⟨answer, -, hsignal⟩ | ⟨asked, rest, inner, hactivity, -, hwaiting⟩
  · rw [hsignal] at hasks
    cases hasks
  · obtain ⟨left, rfl, rfl⟩ := Call.wrap_eq_ask hactivity
    have hinner : inner = [] := by
      rw [hwaiting, List.length_append, List.length_cons] at hdepth
      exact List.eq_nil_of_length_eq_zero (by omega)
    rw [hinner, List.nil_append] at hwaiting
    exact ⟨asked, left, rfl, Classical.byContradiction fun h =>
      Activity.andThen_ne_stuck h (fun _ _ h => by cases h) (move_reply_eq_none hwaiting hnone)⟩

end Dispatch

/-- **A message runs through its handlers.**  Dispatch a payload whose kind is registered, in any machine, to a session
that is not closing and may use the kind, and take any run from there: handlers, observers and the transport may call
whatever they like, and return what they like.  The conversation of the dispatch consists of calls of handlers and of
the end of the session.

The handlers called are the first registered ones of the kind, each once, in order and with this message, the first one
in the world in which the message has been counted and each later one in the world that the one before has left.  One
that failed, or closed the session itself, is followed by the next; one that asks for the end of the session is the
last, and only then does the dispatch disconnect the session: in the world that this handler has left, as requested, and
with a flush if it is to be graceful.  The answer, when it comes, is the number of handlers called.

The count of messages handled grows by one, besides what it grew by while outside code ran; and by one over the whole
run if no payload is delivered to the session meanwhile.  If no handler touches the session, the rest of it is as it
was.  The dispatch goes on after every return to it, unless a handler asks for a graceful end in the middle of a flush
of the session, and so would wait for itself. -/
theorem runs_through_handlers {machine : Machine A} {id : SessionId} {payload : Payload} {message : A.Message}
    {entry : DispatchEntry A.Kind A.Handler} (hknown : machine.world.knows id = true)
    (hopen : (machine.world.session id).state.isClosing = false) (hdecode : A.decode payload = some message)
    (hentry : A.table.get? (A.kindOf message) = some entry)
    (hadmitted : entry.requiresAuthentication = true → (machine.world.session id).isAuthenticated = true) :
    let session := machine.world.session id
    ∃ first signal,
      machine.move (.call (.dispatch id payload)) = some (first, .called (.dispatch id payload) signal) ∧
      ∀ {moves : List (Move A)} {last : Machine A} {events : List (Event A)}, first.run moves = some (last, events) →
        let talk := first.conversation machine.waiting.length first.world signal moves
        ∃ calls ending reached standing, talk.exchanges = calls ++ ending ∧
          RunsThrough id message (machine.world.put id session.countHandled) entry.handlers calls reached standing ∧
          calls.map (·.query) = (entry.handlers.take calls.length).map (.handle · id message) ∧
          standing.Shows id message calls.length reached ending talk ∧
          (talk.world.session id).stats.messagesHandled +
              (talk.exchanges.map fun exchange => (exchange.asked.session id).stats.messagesHandled).sum =
            session.stats.messagesHandled + 1 +
              (talk.exchanges.map fun exchange => (exchange.found.session id).stats.messagesHandled).sum ∧
          (id.number < machine.world.ids.next → machine.Bypasses id →
            (∀ call, .call call ∈ moves → ¬ call.DeliversTo id) →
            (last.world.session id).stats.messagesHandled = session.stats.messagesHandled + 1) ∧
          ((∀ exchange ∈ calls, exchange.found.session id = exchange.asked.session id) →
            reached.session id = session.countHandled) ∧
          ∀ query reply, talk.signal = .asks query → last.waiting.length = machine.waiting.length + 1 →
            last.move (.reply reply) = none → (∃ handler rest, standing = .calling handler rest) ∧
              reply = .endSession true ∧ (last.world.session id).state = .connected ∧
              (last.world.session id).flushing = true := by
  intro session
  have hbegin : machine.world.dispatch id payload =
      (machine.world.put id session.countHandled).callHandlers id message 0 entry.handlers :=
    World.dispatch_of_admitted hopen hdecode hentry hadmitted
  have hstart := World.world_callHandlers (machine.world.put id session.countHandled) id message 0 entry.handlers
  have hgoes : (machine.world.dispatch id payload).progress ≠ .stuck := by
    rw [hbegin]
    exact World.callHandlers_ne_stuck _ id message 0 entry.handlers
  obtain ⟨first, signal, hmove⟩ := exists_dispatch hknown hgoes
  refine ⟨first, signal, hmove, fun {moves last events} hrun => ?_⟩
  intro talk
  obtain ⟨delivery, hdelivery, hstands⟩ := dispatch_talks hmove hrun
  have hbalance := hdelivery.balance (fun world => (world.session id).stats.messagesHandled) fun world reply rest =>
    ((world.resumeDelivery_upkeep reply rest).1.unfed id).handled
  rw [hbegin] at hdelivery hbalance
  obtain ⟨calls, ending, reached, standing, hcut, hruns, hcomes⟩ :=
    World.callHandlers_talks id message entry.handlers hdelivery
  rw [Nat.zero_add] at hcomes
  refine ⟨calls, ending, reached, standing, hcut, hruns, hruns.queries, hcomes.shows hstands, ?_,
    fun hissued hbypasses hquiet => ?_, fun hsame => ?_, fun query reply hasks hdepth hnone => ?_⟩
  · have hworld : delivery.world = talk.world := (Call.world_wrap _ _ _).symm.trans hstands.world
    rw [hworld, hstart, World.session_put_self] at hbalance
    exact hbalance
  · have hfirst : first.world = machine.world.put id session.countHandled := by
      rw [world_settle (settle_of_called hmove), Call.begin, Call.world_wrap, hbegin, hstart]
    rw [(hbypasses.dispatch hmove).run ((move_edits hmove).rank_le hissued).2 hquiet hrun, hfirst,
      World.session_put_self]
    rfl
  · rw [hruns.untouched hsame, World.session_put_self]
  · obtain ⟨asked, left, hleft, hstuck⟩ := stuck_of_refused hstands hasks hdepth hnone
    exact hcomes.flushing_of_stuck hleft hstuck

/-- An application that hands every message to three handlers. -/
def threefold : Application where
  Message := Payload
  Kind := Unit
  Handler := Nat
  Observer := Unit
  Identity := Unit
  decode := some
  kindOf := fun _ => ()
  kindEq := inferInstance
  table := (((DispatchTable.empty.register () false 0).1.register () false 1).1.register () false 2).1

/-- The first handler fails.  The second closes the session itself, and then asks for a graceful end. -/
def failureAndEnd : List (Move threefold) :=
  [.reply (.failed ⟨"lost", none⟩), .call (.disconnect ⟨1⟩ .requested false), .reply .done, .reply (.endSession true)]

theorem runs_through_handlers_failureAndEnd :
    let machine : Machine threefold := ⟨.ofSession (.start ⟨1⟩ {}), []⟩
    ∃ first signal, machine.move (.call (.dispatch ⟨1⟩ [5])) = some (first, .called (.dispatch ⟨1⟩ [5]) signal) ∧
      ∃ last events, first.run failureAndEnd = some (last, events) ∧
        let talk := first.conversation 0 first.world signal failureAndEnd
        talk.exchanges.map (·.query) = [.handle (0 : Nat) ⟨1⟩ [5], .handle (1 : Nat) ⟨1⟩ [5]] ∧
        talk.signal = .answers (.dispatched (.handled 2)) ∧
        (talk.world.session ⟨1⟩).stats.messagesHandled = 1 ∧
        ∃ calls ending reached standing, talk.exchanges = calls ++ ending ∧
          RunsThrough ⟨1⟩ [5] (machine.world.put ⟨1⟩ (machine.world.session ⟨1⟩).countHandled) ([0, 1, 2] : List Nat)
            calls reached standing ∧
          standing.Shows ⟨1⟩ [5] calls.length reached ending talk := by
  intro machine
  have hknown : machine.world.knows ⟨1⟩ = true := rfl
  have hopen : (machine.world.session ⟨1⟩).state.isClosing = false := rfl
  have hdecode : threefold.decode [5] = some [5] := rfl
  have hentry : threefold.table.get? (threefold.kindOf [5]) = some ⟨(), false, ([0, 1, 2] : List Nat)⟩ := rfl
  obtain ⟨first, signal, hmove, hall⟩ := runs_through_handlers hknown hopen hdecode hentry nofun
  obtain ⟨last, events, hrun, hqueries, hsignal, hhandled⟩ : ∃ last events,
      first.run failureAndEnd = some (last, events) ∧
      let talk := first.conversation 0 first.world signal failureAndEnd
      talk.exchanges.map (·.query) = [.handle (0 : Nat) ⟨1⟩ [5], .handle (1 : Nat) ⟨1⟩ [5]] ∧
      talk.signal = .answers (.dispatched (.handled 2)) ∧
      (talk.world.session ⟨1⟩).stats.messagesHandled = 1 := by
    cases hmove
    refine ⟨_, _, rfl, ?_, ?_, ?_⟩ <;> rfl
  obtain ⟨calls, ending, reached, standing, hcut, hruns, -, hshows, -⟩ := hall hrun
  exact ⟨first, signal, hmove, last, events, hrun, hqueries, hsignal, hhandled, calls, ending, reached, standing, hcut,
    hruns, hshows⟩

end Machine
end FramedLink
