import FramedLink.Proofs.Runs.Couples
/-!
# The authentication gate

A dispatch looks at the login of the session before it calls the first handler, and the login of a session never goes
away.  So a handler of a protected kind is called only on behalf of an authenticated peer, also when handlers log the
peer in or end the session in the middle of a delivery.  A protected message of any other peer ends the session,
before outside code hears of anything.

Main statement: the gate, for any table and along any run (`Machine.authentication_gate`).
-/
namespace FramedLink

variable {A : Application}

/-! ## Logins -/

theorem Session.Edit.login {ι : Type} {session next : Session ι} {deeds : List Deed} (h : session.Edit deeds next) :
    next.login = session.login ∨ session.login = none := by
  cases h with
  | enter hedge =>
    unfold Session.enter
    split
    · exact .inl rfl
    · exact .inl rfl
  | authenticate identity =>
    rcases session.authenticate_cases identity with ⟨e, heq⟩ | ⟨-, hnone, -⟩
    · rw [heq]
      exact .inl rfl
    · exact .inr hnone
  | enqueue payload =>
    rw [Session.enqueue_fst]
    exact .inl rfl
  | receive chunk =>
    rcases session.receive_cases chunk with ⟨-, heq⟩ | ⟨-, stats, heq⟩
    · rw [heq]
      exact .inl rfl
    · rw [heq]
      exact .inl rfl
  | _ => exact .inl rfl

theorem Session.Edit.isAuthenticated {ι : Type} {session next : Session ι} {deeds : List Deed}
    (h : session.Edit deeds next) (hauthenticated : session.isAuthenticated = true) : next.isAuthenticated = true := by
  unfold Session.isAuthenticated at hauthenticated ⊢
  rcases h.login with heq | hnone
  · rwa [heq]
  · rw [hnone] at hauthenticated
    cases hauthenticated

theorem Session.Touch.login {ι : Type} {session : Session ι} {touch : Session ι → Session ι}
    (h : session.Touch touch) : (touch session).login = session.login := by
  cases h with
  | enter hedge =>
    unfold Session.enter
    split <;> rfl
  | _ => rfl

namespace Likeness

/-- Messages of a protected kind pass for an authenticated session only. -/
def admission (id : SessionId) : Likeness A id :=
  keeping id (fun _ => True)
    (fun message session => A.table.requiresAuthentication (A.kindOf message) = some true →
      session.isAuthenticated = true)
    True (fun _ _ => True.intro) (fun _ _ => True.intro) (fun _ _ _ _ => True.intro)
    (fun _ hentry hadmitted hrequires =>
      hadmitted (by simpa [DispatchTable.requiresAuthentication, hentry] using hrequires))
    (fun hgate hedit hrequires => hedit.isAuthenticated (hgate hrequires))

/-- The login of a session that does not log in. -/
def unchangedLogin (id : SessionId) (login : Option (Option A.Identity)) : Likeness A id :=
  keeping id (fun session => session.login = login) (fun _ _ => True) False
    (fun hlogin htouch => htouch.login.trans hlogin)
    (fun {session} hlogin chunk => by
      rcases session.receive_cases chunk with ⟨-, heq⟩ | ⟨-, stats, heq⟩
      · rw [heq]
        exact hlogin
      · rw [heq]
        exact hlogin)
    (fun hlogs => hlogs.elim) (fun _ _ _ => True.intro) (fun _ _ => True.intro)

end Likeness

/-- What was supplied to a session by the calls that authenticated it. -/
def Event.logins (id : SessionId) : Event A → List (Option A.Identity)
  | called (.authenticate other identity) (.answers (.accepted (.ok ()))) => if other = id then [identity] else []
  | _ => []

def logins (id : SessionId) (events : List (Event A)) : List (Option A.Identity) := events.flatMap (Event.logins id)

namespace Machine

variable {id : SessionId} {machine next last : Machine A} {move : Move A} {event : Event A}

theorem logins_of_quiet (hmove : machine.move move = some (next, event))
    (hquiet : ∀ call, move = .call call → call.logsIn id = false) : event.logins id = [] := by
  cases event with
  | returned query reply signal => rfl
  | called call signal =>
    have hcall := hquiet call (move_of_called hmove)
    unfold Event.logins
    split
    · rename_i other identity heq
      cases heq
      exact if_neg (of_decide_eq_false hcall)
    · rfl

/-- **A move logs a session in at most once**, and only one that is not logged in and not closing. -/
theorem move_logins (hissued : id.number < machine.world.ids.next) (hknown : machine.world.knows id = true)
    (hmove : machine.move move = some (next, event)) :
    (machine.world.session id).login.toList ++ event.logins id = (next.world.session id).login.toList ∧
      (event.logins id ≠ [] → (machine.world.session id).state.isClosing = false) := by
  by_cases hcalled : ∃ call, move = .call call ∧ call.logsIn id = true
  · obtain ⟨call, rfl, hlogs⟩ := hcalled
    cases call with
    | authenticate other identity =>
      have hother : other = id := of_decide_eq_true hlogs
      subst hother
      have hbegin : (Call.authenticate other identity).begin machine.world =
          .finish (machine.world.put other ((machine.world.session other).authenticate identity).1)
            (.accepted ((machine.world.session other).authenticate identity).2) := rfl
      rcases (machine.world.session other).authenticate_cases identity with ⟨e, heq⟩ | ⟨hopen, hnone, heq⟩
      · rw [heq] at hbegin
        rw [move_of_finish (canCall_of_move hmove) hbegin] at hmove
        cases hmove
        simp [Event.logins]
      · rw [heq] at hbegin
        rw [move_of_finish (canCall_of_move hmove) hbegin] at hmove
        cases hmove
        simp [Event.logins, hnone, hopen]
    | _ => cases hlogs
  · have hquiet : ∀ call, move = .call call → call.logsIn id = false :=
      fun call hcall => Bool.eq_false_iff.2 fun hlogs => hcalled ⟨call, hcall, hlogs⟩
    have hholds : (Likeness.unchangedLogin id (machine.world.session id).login).Holding machine :=
      .of_pair True.intro hissued hknown ⟨rfl, rfl⟩ fun _ _ _ _ => True.intro
    obtain ⟨hnext, -⟩ := hholds.move (fun _ _ _ => True.intro)
      (fun call hcall hlogs => hcalled ⟨call, hcall, hlogs⟩) hmove
    obtain ⟨-, -, -, hlogin⟩ := hnext.world.paired
    rw [logins_of_quiet hmove hquiet, List.append_nil, hlogin]
    exact ⟨rfl, fun h => absurd rfl h⟩

theorem run_logins : ∀ (moves : List (Move A)) {machine last : Machine A} {events : List (Event A)},
    id.number < machine.world.ids.next → machine.world.knows id = true → machine.run moves = some (last, events) →
    (machine.world.session id).login.toList ++ logins id events = (last.world.session id).login.toList
  | [], _, _, _, _, _, hrun => by
    cases hrun
    exact List.append_nil _
  | move :: moves, machine, last, events, hissued, hknown, hrun => by
    obtain ⟨next, event, later, hmove, hlater, rfl⟩ := exists_of_run_cons hrun
    obtain ⟨-, hissued', hknown'⟩ := (move_edits hmove).keep (fun _ => True) (fun _ => True)
      (fun _ _ _ => True.intro) hissued True.intro fun _ _ => True.intro
    rw [logins, List.flatMap_cons, ← List.append_assoc, (move_logins hissued hknown hmove).1]
    exact run_logins moves hissued' (hknown' hknown) hlater

end Machine

/-! ## Rejections -/

/-- Outside code may turn one world into another, whatever waits. -/
def World.Becomes (world world' : World A) : Prop :=
  ∃ (waiting : List (Waiting A)) (moves : List (Move A)) (last : Machine A) (events : List (Event A)),
    (⟨world, waiting⟩ : Machine A).run moves = some (last, events) ∧ last.world = world'

/-- An activity goes on to another by asking, each query being answered in whatever the world has become. -/
inductive Activity.Course {κ α : Type} (resume : World A → Reply → κ → Activity A κ α) :
    Activity A κ α → List (Query A) → Activity A κ α → Prop where
  | here (activity : Activity A κ α) : Course resume activity [] activity
  | onward {activity last : Activity A κ α} {query : Query A} {rest : κ} {world : World A} {queries : List (Query A)}
      (reply : Reply) (hasks : activity.progress = .asks query rest) (hworld : activity.world.Becomes world)
      (h : Course resume (resume world reply rest) queries last) : Course resume activity (query :: queries) last

namespace Likeness

/-- A closing session keeps its reason and has no message handled. -/
def ended (id : SessionId) (reason : DisconnectReason) (handled : Nat) : Likeness A id :=
  keeping id
    (fun session => session.state.isClosing = true ∧ session.reason = some reason ∧
      session.stats.messagesHandled = handled)
    (fun _ _ => True) True
    (fun {session _} hkept htouch => by
      obtain ⟨hclosing, hreason, hhandled⟩ := hkept
      cases htouch with
      | @enter target hedge =>
        have hstate := ConnectionState.isClosing_of_edge hclosing hedge
        simp only [Session.enter, if_pos hstate]
        exact ⟨hstate, hreason, hhandled⟩
      | noteReason other =>
        refine ⟨hclosing, ?_, hhandled⟩
        simp only [Session.noteReason, hreason]
        rfl
      | countHandled hopen =>
        rw [hclosing] at hopen
        cases hopen
      | flushing | outbox | countTransmitted => exact ⟨hclosing, hreason, hhandled⟩)
    (fun {session} hkept chunk => by
      rcases session.receive_cases chunk with ⟨-, heq⟩ | ⟨hconnected, -⟩
      · rw [heq]
        exact hkept
      · rw [hconnected] at hkept
        cases hkept.1)
    (fun _ session hkept identity => by
      rcases session.authenticate_cases identity with ⟨e, heq⟩ | ⟨hopen, -⟩
      · rw [heq]
        exact hkept
      · rw [hkept.1] at hopen
        cases hopen)
    (fun _ _ _ => True.intro) (fun _ _ => True.intro)

variable {id : SessionId} {R : Likeness A id} {world world' : World A}

theorem Like.becomes (h : R.Like world world) (hfed : R.fed) (hlogs : R.logs)
    (hgate : ∀ message session, R.gate message session) (hworld : world.Becomes world') : R.Like world' world' := by
  obtain ⟨waiting, moves, last, events, hrun, rfl⟩ := hworld
  have hholds : R.Holding ⟨world, waiting⟩ :=
    ⟨h, (List.append_nil _).symm, (List.append_nil _).symm,
      fun _ _ => ⟨fun _ _ => hgate _ _, fun _ _ => .inl hfed⟩⟩
  exact (hholds.run moves hrun (fun _ _ _ => hfed) fun _ _ _ => hlogs).world

end Likeness

/-- A rejection in the middle of telling observers that the session is leaving. -/
def World.rejecting (world : World A) (id : SessionId) (reason : DisconnectReason) (source : ConnectionState)
    (observers : List A.Observer) : Activity A (Delivery A) DispatchOutcome :=
  ((world.tell id source .disconnecting observers).andThen (.leaving id reason)
    (World.closeTransport · id reason)).andThen (.rejecting reason) fun world _ => .finish world (.rejected reason)

theorem World.rejectPayload_of_open {world : World A} {id : SessionId}
    (hopen : (world.session id).state.isClosing = false) (reason : DisconnectReason) :
    world.rejectPayload id reason =
      (world.put id (((world.session id).noteReason reason).enter .disconnecting)).rejecting id reason
        (world.session id).state world.observers := by
  rw [rejectPayload, disconnect_of_open hopen]
  rfl

/-- What is so at every point of a rejection: the session is closing for the recorded reason, no message has been
handled since it began, no handler is called, and the result is the rejection. -/
structure Activity.Rejects (id : SessionId) (reason recorded : DisconnectReason) (handled : Nat)
    (activity : Activity A (Delivery A) DispatchOutcome) : Prop where
  closing : (activity.world.session id).state.isClosing = true
  recorded : (activity.world.session id).reason = some recorded
  handled : (activity.world.session id).stats.messagesHandled = handled
  going : activity.progress ≠ .stuck
  quiet : ∀ query rest, activity.progress = .asks query rest → query.handled? = none
  result : ∀ outcome, activity.progress = .done outcome → outcome = .rejected reason

section

variable {id : SessionId} {reason recorded : DisconnectReason} {handled : Nat} {source : ConnectionState}

theorem Likeness.Like.rejects_ask {world : World A} (h : (Likeness.ended id recorded handled).Like world world)
    {query : Query A} (hquiet : query.handled? = none) (rest : Delivery A) :
    (Activity.ask world query rest).Rejects id reason recorded handled := by
  obtain ⟨-, -, -, hclosing, hreason, hhandled⟩ := h.paired
  refine ⟨hclosing, hreason, hhandled, nofun, fun other rest hasks => ?_, nofun⟩
  cases hasks
  exact hquiet

theorem Likeness.Like.rejects_finish {world : World A} (h : (Likeness.ended id recorded handled).Like world world) :
    (Activity.finish world (.rejected reason)).Rejects id reason recorded handled := by
  obtain ⟨-, -, -, hclosing, hreason, hhandled⟩ := h.paired
  refine ⟨hclosing, hreason, hhandled, ?_, ?_, fun outcome hdone => (Progress.done.inj hdone).symm⟩
  · intro hstuck
    cases hstuck
  · intro query rest hasks
    cases hasks

theorem World.rejecting_nil (world : World A) : world.rejecting id reason source [] =
    .ask world
      (.close id ((world.session id).reason.getD reason) ((world.session id).reason.getD reason).notifiesPeer)
      (.rejecting reason .closing) := rfl

theorem World.rejecting_cons (world : World A) (observer : A.Observer) (observers : List A.Observer) :
    world.rejecting id reason source (observer :: observers) =
      .ask world (.stateChanged observer id source .disconnecting)
        (.rejecting reason (.leaving id reason (.telling id source .disconnecting observers))) := rfl

theorem World.course_rejecting : ∀ (observers : List A.Observer) {world : World A} {queries : List (Query A)}
    {last : Activity A (Delivery A) DispatchOutcome}, (Likeness.ended id recorded handled).Like world world →
    Activity.Course (fun world reply rest => rest.resume world reply) (world.rejecting id reason source observers)
      queries last →
    last.Rejects id reason recorded handled ∧ (∀ query ∈ queries, query.handled? = none) ∧
      queries.length ≤ observers.length + 1
  | [], world, queries, last, h, hcourse => by
    rw [rejecting_nil] at hcourse
    cases hcourse with
    | here => exact ⟨h.rejects_ask rfl _, fun _ hmem => absurd hmem List.not_mem_nil, Nat.zero_le _⟩
    | onward reply hasks hworld hrest =>
      cases hasks
      have hclosed := h.becomes True.intro True.intro (fun _ _ => True.intro) hworld
      cases hrest with
      | here =>
        refine ⟨hclosed.rejects_finish, fun query hmem => ?_, Nat.le_refl _⟩
        rw [List.mem_singleton.1 hmem]
        rfl
      | onward reply hasks => cases hasks
  | observer :: observers, world, queries, last, h, hcourse => by
    rw [rejecting_cons] at hcourse
    cases hcourse with
    | here => exact ⟨h.rejects_ask rfl _, fun _ hmem => absurd hmem List.not_mem_nil, Nat.zero_le _⟩
    | onward reply hasks hworld hrest =>
      cases hasks
      have hnext := h.becomes True.intro True.intro (fun _ _ => True.intro) hworld
      obtain ⟨hrejects, hquiet, hlength⟩ := course_rejecting observers hnext hrest
      refine ⟨hrejects, fun query hmem => ?_, Nat.succ_le_succ hlength⟩
      rcases List.mem_cons.1 hmem with rfl | hmem
      · rfl
      · exact hquiet query hmem

end

/-- **A protected message of a peer that has not authenticated** ends the session, whatever outside code does
meanwhile. -/
theorem World.dispatch_rejects {world : World A} {id : SessionId} {payload : Payload} {message : A.Message}
    (hissued : id.number < world.ids.next) (hdecode : A.decode payload = some message)
    (hprotected : A.table.requiresAuthentication (A.kindOf message) = some true)
    (hopen : (world.session id).state.isClosing = false) (hstranger : (world.session id).isAuthenticated = false)
    {queries : List (Query A)} {last : Activity A (Delivery A) DispatchOutcome}
    (hcourse : Activity.Course (fun world reply rest => rest.resume world reply) (world.dispatch id payload) queries
      last) :
    last.Rejects id .exploitAttempt ((world.session id).reason.getD .exploitAttempt)
        (world.session id).stats.messagesHandled ∧
      (∀ query ∈ queries, query.handled? = none) ∧ queries.length ≤ world.observers.length + 1 := by
  obtain ⟨entry, hentry, hrequires⟩ := Option.map_eq_some_iff.1 hprotected
  have hdispatch : world.dispatch id payload = world.rejectPayload id .exploitAttempt := by
    simp [dispatch, hopen, hdecode, hentry, hrequires, hstranger]
  rw [hdispatch, rejectPayload_of_open hopen] at hcourse
  refine course_rejecting world.observers ?_ hcourse
  have hknown' := knows_put_self world id (((world.session id).noteReason .exploitAttempt).enter .disconnecting)
  refine ⟨hissued, hknown', .inl True.intro, _, (put_session hknown').symm, rfl, ?_⟩
  rw [session_put_self]
  refine ⟨rfl, ?_, rfl⟩
  cases hreason : (world.session id).reason <;>
    simp [Session.enter, Session.noteReason, ConnectionState.isClosing, hreason]

/-! ## The law -/

namespace Machine

/-- **The authentication gate**, for any dispatch table and along any run: any calls in any order, also from within
handlers, observers and transports, and any replies, from a machine on which no message of the session is being handled.
A handler that is called with a message of a protected kind is called for an authenticated session.  A protected message
of any other session that is not closing ends that session before anyone hears of it, whatever outside code does until
the dispatch returns: no handler is called and no message counted.  At most one call of the run logs the session in, it
is made while the session is not closing, and the session stays logged in as what that call supplied. -/
theorem authentication_gate {machine last : Machine A} {moves : List (Move A)} {events : List (Event A)}
    {id : SessionId} (hrun : machine.run moves = some (last, events)) (hknown : machine.world.knows id = true)
    (hissued : id.number < machine.world.ids.next)
    (hidle : ∀ waiting ∈ machine.waiting, waiting.rest.handling?.map Prod.fst ≠ some id) :
    (∀ move next event handler message, last.move move = some (next, event) →
      event.signal = .asks (.handle handler id message) →
      A.table.requiresAuthentication (A.kindOf message) = some true →
      (next.world.session id).isAuthenticated = true) ∧
    (∀ (world : World A) (payload : Payload) (message : A.Message), id.number < world.ids.next →
      A.decode payload = some message → A.table.requiresAuthentication (A.kindOf message) = some true →
      (world.session id).state.isClosing = false → (world.session id).isAuthenticated = false →
      ∀ queries activity,
        Activity.Course (fun world reply rest => rest.resume world reply) (world.dispatch id payload) queries activity →
        activity.Rejects id .exploitAttempt ((world.session id).reason.getD .exploitAttempt)
          (world.session id).stats.messagesHandled ∧
        (∀ query ∈ queries, query.handled? = none) ∧ queries.length ≤ world.observers.length + 1) ∧
    (machine.world.session id).login.toList ++ logins id events = (last.world.session id).login.toList ∧
    (logins id events).length ≤ 1 ∧
    ((machine.world.session id).isAuthenticated = true → (last.world.session id).isAuthenticated = true) ∧
    (∀ identity ∈ logins id events,
      (last.world.session id).isAuthenticated = true ∧ (last.world.session id).identity = identity) ∧
    (∀ move next event, last.move move = some (next, event) → event.logins id ≠ [] →
      (last.world.session id).state.isClosing = false) := by
  have hbegin : (Likeness.admission id).Holding machine := by
    refine .of_pair True.intro hissued hknown ⟨rfl, True.intro⟩ fun waiting hmem message hhandling => ?_
    exact absurd (by rw [hhandling]; rfl) (hidle waiting hmem)
  have hlast := hbegin.run moves hrun (fun _ _ _ => True.intro) fun _ _ _ => True.intro
  have hlogins := run_logins moves hissued hknown hrun
  have hlength : (last.world.session id).login.toList.length ≤ 1 := by
    cases (last.world.session id).login <;> simp
  refine ⟨fun move next event handler message hmove hasks => ?_,
    fun world payload message hissued' hdecode hprotected hopen hstranger queries activity hcourse =>
      World.dispatch_rejects hissued' hdecode hprotected hopen hstranger hcourse,
    hlogins, ?_, fun hauthenticated => ?_, fun identity hmem => ?_, fun move next event hmove hnew => ?_⟩
  · have hgated := (hlast.move (fun _ _ _ => True.intro) (fun _ _ _ => True.intro) hmove).2 _ hasks
    exact hgated message rfl
  · rw [← hlogins, List.length_append] at hlength
    exact Nat.le_trans (Nat.le_add_left _ _) hlength
  · cases hbefore : (machine.world.session id).login with
    | none =>
      rw [Session.isAuthenticated, hbefore] at hauthenticated
      cases hauthenticated
    | some login =>
      rw [hbefore] at hlogins
      cases hafter : (last.world.session id).login with
      | none =>
        rw [hafter] at hlogins
        cases hlogins
      | some other =>
        rw [Session.isAuthenticated, hafter]
        rfl
  · have hlogin : identity ∈ (last.world.session id).login.toList := by
      rw [← hlogins]
      exact List.mem_append_right _ hmem
    rw [Option.mem_toList] at hlogin
    rw [Session.isAuthenticated, Session.identity, hlogin]
    exact ⟨rfl, rfl⟩
  · exact (move_logins hlast.world.issued hlast.world.known hmove).2 hnew

/-- A handler of an open message logs the peer in, and is still running when a protected message is dispatched. -/
def loginWithin : List (Move .guarded) :=
  [.call (.transition ⟨1⟩ .connected), .call (.dispatch ⟨1⟩ [0]), .call (.authenticate ⟨1⟩ (some (7 : Nat))),
    .call (.authenticate ⟨1⟩ none)]

theorem authentication_gate_loginWithin :
    ∃ (last next : Machine .guarded) (events : List (Event .guarded)),
      (⟨.ofSession (.start ⟨1⟩ {}), []⟩ : Machine .guarded).run loginWithin = some (last, events) ∧
      logins ⟨1⟩ events = [some (7 : Nat)] ∧ (last.world.session ⟨1⟩).identity = some (7 : Nat) ∧
      last.move (.call (.dispatch ⟨1⟩ [1, 2])) =
        some (next, .called (.dispatch ⟨1⟩ [1, 2]) (.asks (.handle () ⟨1⟩ [1, 2]))) ∧
      (next.world.session ⟨1⟩).isAuthenticated = true ∧
      ((World.ofSession (.start ⟨1⟩ {}) : World .guarded).dispatch ⟨1⟩ [1, 2]).Rejects ⟨1⟩ .exploitAttempt
        .exploitAttempt 0 := by
  obtain ⟨last, next, events, hrun, hlogins, hmove⟩ :
      ∃ (last next : Machine .guarded) (events : List (Event .guarded)),
        (⟨.ofSession (.start ⟨1⟩ {}), []⟩ : Machine .guarded).run loginWithin = some (last, events) ∧
        logins ⟨1⟩ events = [some (7 : Nat)] ∧
        last.move (.call (.dispatch ⟨1⟩ [1, 2])) =
          some (next, .called (.dispatch ⟨1⟩ [1, 2]) (.asks (.handle () ⟨1⟩ [1, 2]))) := ⟨_, _, _, rfl, rfl, rfl⟩
  have hknown : (World.ofSession (.start ⟨1⟩ {}) : World .guarded).knows ⟨1⟩ = true := rfl
  obtain ⟨hgate, hrejects, -, -, -, hidentity, -⟩ := authentication_gate hrun hknown (by decide) (by simp)
  have hrejected := hrejects (.ofSession (.start ⟨1⟩ {})) [1, 2] [1, 2] (by decide) rfl rfl rfl rfl [] _ (.here _)
  have hlogin : some (7 : Nat) ∈ logins ⟨1⟩ events := by
    rw [hlogins]
    exact List.mem_singleton.2 rfl
  exact ⟨last, next, events, hrun, hlogins, (hidentity _ hlogin).2, hmove, hgate _ _ _ _ _ hmove rfl rfl, hrejected.1⟩

end Machine

end FramedLink
