import FramedLink.Proofs.Lives.Life
import FramedLink.Proofs.Runs.Likeness
/-!
# Lives in a run

Every activity of the library takes the life of a session on by silent steps, up to its result or up to the next call of
outside code, whatever session the activity is about.  There is one statement for each function that makes an activity
or goes on with one.

Main statement: so does every move of a machine (`Machine.move_lives`).
-/
namespace FramedLink

variable {A : Application}

/-- What is under way of a session's life at the end of a transition: its round, if it moved the session that it is
about, or still what was under way before. -/
def Transition.Left (id other : SessionId) (closes : Bool) : Except SessionError Bool → Option (Chapter A) → Prop
  | .ok true, last => ∃ rest : Transition A, rest.IsOver ∧ rest.session = other ∧ last = rest.chapter? id closes
  | .ok false, last | .error _, last => last = if other = id ∧ closes = true then some .ending else none

namespace World

variable {id : SessionId}

/-! ## Transitions -/

theorem bidFarewell_lives (world : World A) (other : SessionId) (reason : DisconnectReason) (closes : Bool)
    {inside : Transition A → Option (Disconnect A)} : ∀ observers,
    (world.bidFarewell other reason observers).Lives id (·.chapter? id closes) inside (Transition.Left id other closes)
      world ((Transition.parting other reason observers).chapter? id closes)
  | [] => Activity.lives_finish world ⟨_, .parted, rfl, rfl⟩
  | observer :: rest => by
    refine Activity.lives_ask world fun below endings asked => ?_
    by_cases hother : other = id
    · subst hother
      simp only [Transition.chapter?, Transition.session, if_true]
      exact .parted rfl
    · have hquery : (Query.disconnected observer other reason : Query A).isNews id = false := decide_eq_false hother
      simp only [Transition.chapter?, Transition.session, hother, if_false]
      exact .other hquery

theorem tell_lives (world : World A) (other : SessionId) (source target : ConnectionState) (closes : Bool)
    {inside : Transition A → Option (Disconnect A)}
    (hfits : other = id → target = .disconnected → (world.session id).state = .disconnected) : ∀ observers,
    (world.tell other source target observers).Lives id (·.chapter? id closes) inside (Transition.Left id other closes)
      world ((Transition.telling other source target observers).chapter? id closes)
  | [] => by
    by_cases htarget : target = .disconnected
    · rw [tell, if_pos htarget]
      refine (bidFarewell_lives _ other _ closes _).onward (edits_put other (.noteReason .transportClosed))
        fun below endings asked => ?_
      by_cases hother : other = id
      · subst hother
        have hstate := hfits rfl htarget
        subst htarget
        have hreason : (((world.session other).noteReason .transportClosed).reason.getD .transportClosed) =
            (world.session other).reason.getD .transportClosed := by
          cases hreason : (world.session other).reason <;> simp [Session.noteReason, hreason]
        simp only [Transition.chapter?, Transition.session, if_true, modify, session_put_self, life_put_self, hreason]
        exact (Life.Silent.farewell rfl hstate).once
      · simp only [Transition.chapter?, Transition.session, hother, if_false]
        rw [(sameLife_put_of_ne hother _).life]
        exact .refl _
    · rw [tell, if_neg htarget]
      exact Activity.lives_finish world ⟨_, .told htarget, rfl, rfl⟩
  | observer :: rest => by
    refine Activity.lives_ask world fun below endings asked => ?_
    by_cases hother : other = id
    · subst hother
      simp only [Transition.chapter?, Transition.session, if_true]
      exact .told rfl
    · have hquery : (Query.stateChanged observer other source target : Query A).isNews id = false :=
        decide_eq_false hother
      simp only [Transition.chapter?, Transition.session, hother, if_false]
      exact .other hquery

theorem state_enter {ι : Type} (session : Session ι) (target : ConnectionState) :
    (session.enter target).state = target := by
  unfold Session.enter
  split <;> rfl

theorem reason_enter {ι : Type} (session : Session ι) (target : ConnectionState) :
    (session.enter target).reason = session.reason := by
  unfold Session.enter
  split <;> rfl

theorem transition_lives (world : World A) (other : SessionId) (target : ConnectionState) (closes : Bool)
    {inside : Transition A → Option (Disconnect A)} (hcloses : closes = true → target = .disconnecting) :
    (world.transition other target).Lives id (·.chapter? id closes) inside (Transition.Left id other closes) world
      (if other = id ∧ closes = true then some .ending else none) := by
  unfold transition
  by_cases hsame : (world.session other).state = target
  · rw [if_pos hsame]
    exact Activity.lives_finish world rfl
  rw [if_neg hsame]
  cases hedge : (world.session other).state.canTransitionTo target with
  | false => exact Activity.lives_finish world rfl
  | true =>
    refine (tell_lives _ other _ target closes (fun hother htarget => ?_) _).onward (edits_put other (.enter hedge))
      fun below endings asked => ?_
    · subst hother
      rw [session_put_self, state_enter, htarget]
    · by_cases hother : other = id
      · subst hother
        simp only [Transition.chapter?, Transition.session, if_true, life_put_self, state_enter, reason_enter]
        cases closes with
        | true =>
          cases hcloses rfl
          exact (Life.Silent.left rfl hedge).once
        | false => exact (Life.Silent.moved hedge).once
      · simp only [Transition.chapter?, Transition.session, hother, if_false, false_and]
        rw [(sameLife_put_of_ne hother _).life]
        exact .refl _

theorem resumeTransition_lives (world : World A) (closes : Bool) {inside : Transition A → Option (Disconnect A)} :
    ∀ rest : Transition A, (rest.session = id → rest.Fits (world.session id).state) →
      (rest.resume world).Lives id (·.chapter? id closes) inside (Transition.Left id rest.session closes) world
        (rest.chapter? id closes)
  | .telling other source target rest, hfits => world.tell_lives other source target closes hfits rest
  | .parting other reason rest, _ => world.bidFarewell_lives other reason closes rest

theorem bidFarewell_session (world : World A) (other : SessionId) (reason : DisconnectReason)
    (observers : List A.Observer) {query : Query A} {rest : Transition A}
    (hasks : (world.bidFarewell other reason observers).progress = .asks query rest) : rest.session = other := by
  cases observers <;> cases hasks
  rfl

theorem tell_session (world : World A) (other : SessionId) (source target : ConnectionState)
    (observers : List A.Observer) {query : Query A} {rest : Transition A}
    (hasks : (world.tell other source target observers).progress = .asks query rest) : rest.session = other := by
  cases observers with
  | nil =>
    rw [tell] at hasks
    split at hasks
    · exact bidFarewell_session _ other _ _ hasks
    · cases hasks
  | cons observer observers =>
    cases hasks
    rfl

theorem resumeTransition_session (world : World A) : ∀ (rest : Transition A) {query : Query A} {next : Transition A},
    (rest.resume world).progress = .asks query next → next.session = rest.session
  | .telling other source target observers, _, _, hasks => tell_session world other source target observers hasks
  | .parting other reason observers, _, _, hasks => bidFarewell_session world other reason observers hasks

/-- A transition tells of the session that it moves. -/
theorem transition_session {world : World A} {other : SessionId} {target : ConnectionState} {query : Query A}
    {rest : Transition A} (hasks : (world.transition other target).progress = .asks query rest) :
    rest.session = other := by
  simp only [transition] at hasks
  split at hasks
  · cases hasks
  · split at hasks
    · cases hasks
    · exact tell_session _ other _ target _ hasks

/-! ## Flushes -/

theorem endFlush_still (world : World A) (other : SessionId) (result : Except FlushError TickSummary) :
    (world.endFlush other result).Still id world :=
  ⟨sameLife_put other rfl rfl, nofun⟩

theorem pump_still (world : World A) (other : SessionId) (limit : Limit) (summary : TickSummary) :
    (world.pump other limit summary).Still id world := by
  unfold pump
  split
  · exact endFlush_still world other _
  · dsimp only
    have hsame (box : Outbox) : world.SameLife id (world.put other { world.session other with outbox := box }) :=
      sameLife_put other rfl rfl
    split
    · exact (endFlush_still _ other _).before (hsame _)
    · split
      · exact (endFlush_still _ other _).before (hsame _)
      · exact ⟨hsame _, fun _ _ hasks => by cases hasks; rfl⟩

theorem beginFlush_still (world : World A) (other : SessionId) (limit : Limit) :
    (world.beginFlush other limit).Still id world := by
  unfold beginFlush
  split
  · refine (pump_still _ other limit {}).before ?_
    exact sameLife_put other rfl rfl
  · exact Activity.still_finish world _

theorem tick_still (world : World A) (other : SessionId) : (world.tick other).Still id world := by
  unfold tick
  split
  · exact Activity.still_finish world _
  · exact beginFlush_still world other _

theorem flushFully_still (world : World A) (other : SessionId) : (world.flushFully other).Still id world := by
  unfold flushFully
  split
  · exact ⟨.refl world, nofun⟩
  · exact beginFlush_still world other none

theorem resumeFlush_still (world : World A) (flush : Flush) (reply : Reply) :
    (flush.resume world reply).Still id world := by
  have htaken : (flush.resume world .done).Still id world := by
    have hsame : world.SameLife id (world.modify flush.id (·.countTransmitted flush.output.bytes.length)) :=
      sameLife_put flush.id rfl rfl
    simp only [Flush.resume]
    split
    · exact (endFlush_still _ flush.id _).before hsame
    · exact (pump_still _ flush.id _ _).before hsame
  cases reply with
  | failed failure => exact endFlush_still world flush.id _
  | done => exact htaken
  | endSession graceful => exact htaken

end World

/-! ## Disconnects -/

namespace World

variable {id : SessionId}

theorem closeTransport_lives (world : World A) {other session : SessionId} (reason : DisconnectReason)
    {inside : Disconnect A → Option (Disconnect A)} (hsession : other = id → session = id) :
    ∀ (moved : Except SessionError Bool) (last : Option (Chapter A)),
      Transition.Left id session (other = id) moved last →
      (world.closeTransport other reason moved).Lives id (·.chapter? id) inside (fun _ last => last = none) world last
  | .ok true, last, hleft => by
    obtain ⟨rest, hover, hrest, rfl⟩ := hleft
    by_cases hother : other = id
    · subst hother
      refine Activity.lives_ask world fun below endings asked => ?_
      simp only [Transition.chapter?, hrest, hsession rfl, if_true, decide_true, Disconnect.chapter?]
      exact .closed reason rfl hover
    · have hquery (reason : DisconnectReason) (notifies : Bool) :
          (Query.close other reason notifies : Query A).isNews id = false := decide_eq_false hother
      have hask : (world.closeTransport other reason (.ok true)).Lives id (·.chapter? id) inside
          (fun _ last => last = none) world none :=
        Activity.lives_ask world fun _ _ _ => .other (hquery _ _)
      refine hask.onward (.none world) fun below endings asked => ?_
      simp only [Transition.chapter?, hother, decide_false]
      split
      · exact (Life.Silent.ends rfl hover).once
      · exact .refl _
  | .ok false, last, hleft | .error _, last, hleft => by
    have hfinish : (Activity.finish world () : Activity A (Disconnect A) Unit).Lives id (·.chapter? id) inside
        (fun _ last => last = none) world none := Activity.lives_end world _
    refine hfinish.onward (.none world) fun below endings asked => ?_
    rw [show last = _ from hleft]
    split
    · exact (Life.Silent.stayed rfl).once
    · exact .refl _

theorem leave_lives (world : World A) (other : SessionId) (reason : DisconnectReason)
    {inside : Disconnect A → Option (Disconnect A)} :
    (world.leave other reason).Lives id (·.chapter? id) inside (fun _ last => last = none) world
      (if other = id then some .ending else none) := by
  have htransition : (world.transition other .disconnecting).Lives id (·.chapter? id (other = id)) (fun _ => none)
      (Transition.Left id other (other = id)) world (if other = id then some .ending else none) := by
    have hending : (if other = id then some .ending else none : Option (Chapter A)) =
        if other = id ∧ decide (other = id) = true then some .ending else none := by
      simp only [decide_eq_true_eq, and_self]
    rw [hending]
    exact world.transition_lives other .disconnecting (other = id) fun _ => rfl
  refine htransition.andThen (world.transition_comesFrom other .disconnecting) (fun query rest hasks => ?_)
    (fun _ _ heq => by cases heq)
    fun world moved last hleft => world.closeTransport_lives reason (fun hother => hother) moved last hleft
  rw [Disconnect.chapter?, Transition.chapter?, Transition.chapter?, transition_session hasks]
  by_cases hother : other = id <;> simp [hother]

/-- Moving an open session to Disconnecting asks somebody: an observer, or the transport to close. -/
theorem leave_asks {world : World A} (hopen : (world.session id).state.isClosing = false) (reason : DisconnectReason)
    (result : Unit) : (world.leave id reason).progress ≠ .done result := by
  have hedge : (world.session id).state.canTransitionTo .disconnecting = true := by
    cases hstate : (world.session id).state <;> rw [hstate] at hopen <;> first | rfl | cases hopen
  have hother : (world.session id).state ≠ .disconnecting := by
    intro hstate
    rw [hstate] at hopen
    cases hopen
  simp only [leave, transition, if_neg hother, hedge, Bool.not_true, Bool.false_eq_true, if_false]
  generalize (world.put id ((world.session id).enter .disconnecting)).observers = observers
  cases observers <;> exact fun hdone => by cases hdone

/-- What is left of a disconnect that has noted its reason. -/
def finishEnding (world : World A) (id : SessionId) (reason : DisconnectReason) (flushFirst : Bool) :
    Activity A (Disconnect A) Unit :=
  if flushFirst then (world.flushFully id).andThen (.flushing id reason) fun world _ => world.leave id reason
  else world.leave id reason

theorem disconnect_eq {world : World A} (hopen : (world.session id).state.isClosing = false)
    (reason : DisconnectReason) (flushFirst : Bool) :
    world.disconnect id reason flushFirst = (world.modify id (·.noteReason reason)).finishEnding id reason
      (flushFirst && (world.session id).state = .connected) := by
  simp only [disconnect, hopen, Bool.false_eq_true, if_false, finishEnding]

theorem finishEnding_comesFrom (world : World A) (id : SessionId) (reason : DisconnectReason) (flushFirst : Bool) :
    (world.finishEnding id reason flushFirst).ComesFrom world := by
  unfold finishEnding
  split
  · exact (flushFully_comesFrom world id).andThen fun world _ => world.leave_comesFrom id reason
  · exact leave_comesFrom world id reason

theorem finishEnding_lives (world : World A) (other : SessionId) (reason : DisconnectReason) (flushFirst : Bool)
    {inside : Disconnect A → Option (Disconnect A)} :
    (world.finishEnding other reason flushFirst).Lives id (·.chapter? id) inside (fun _ last => last = none) world
      (if other = id then some .ending else none) := by
  cases flushFirst with
  | true =>
    have hflush : (world.flushFully other).Lives id (fun _ => if other = id then some .ending else none)
        (fun _ => none) (fun _ last => last = if other = id then some .ending else none) world
        (if other = id then some .ending else none) :=
      (world.flushFully_still other).lives (fun _ _ _ => rfl) fun _ _ => rfl
    refine hflush.andThen (world.flushFully_comesFrom other) (fun _ _ _ => rfl) (fun _ _ heq => by cases heq)
      fun world _ last hleft => ?_
    rw [hleft]
    exact world.leave_lives other reason
  | false => exact world.leave_lives other reason

theorem finishEnding_asks {world : World A} (hopen : (world.session id).state.isClosing = false)
    (reason : DisconnectReason) (flushFirst : Bool) (result : Unit) :
    (world.finishEnding id reason flushFirst).progress ≠ .done result := by
  unfold finishEnding
  split
  · have hstill : (world.flushFully id).Still id world := world.flushFully_still id
    unfold Activity.andThen
    split
    · refine leave_asks ?_ reason result
      rwa [hstill.same.state]
    · exact fun hdone => by cases hdone
    · exact fun hdone => by cases hdone
  · exact leave_asks hopen reason result

/-- **A disconnect that finds the session open** asks outside code before it ends. -/
theorem disconnect_asks {world : World A} (hopen : (world.session id).state.isClosing = false)
    (reason : DisconnectReason) (flushFirst : Bool) (result : Unit) :
    (world.disconnect id reason flushFirst).progress ≠ .done result := by
  rw [disconnect_eq hopen]
  refine finishEnding_asks ?_ reason _ result
  rw [modify, session_put_self]
  exact hopen

theorem disconnect_lives (world : World A) (other : SessionId) (reason : DisconnectReason) (flushFirst : Bool) :
    (world.disconnect other reason flushFirst).LivesWithin id some world none := by
  by_cases hclosing : (world.session other).state.isClosing = true
  · rw [disconnect_of_closing hclosing]
    exact Activity.lives_end world _
  have hopen := Bool.eq_false_iff.2 hclosing
  have hedits : world.Edits [] (world.modify other (·.noteReason reason)) := edits_put other (.noteReason reason)
  have hlives (inside : Disconnect A → Option (Disconnect A)) :
      (world.disconnect other reason flushFirst).Lives id (·.chapter? id) inside (fun _ last => last = none)
        (world.modify other (·.noteReason reason)) (if other = id then some .ending else none) := by
    rw [disconnect_eq hopen]
    exact finishEnding_lives _ other reason _
  by_cases hother : other = id
  · subst hother
    replace hlives := hlives fun _ => none
    unfold Activity.LivesWithin Activity.Lives
    unfold Activity.Lives at hlives
    split at hlives
    · rename_i result hdone
      exact absurd hdone (disconnect_asks hopen reason flushFirst result)
    · rename_i query rest hprogress
      obtain ⟨ended, hlives, hends⟩ := hlives
      have hnone : ended = none := by
        cases ended with
        | none => rfl
        | some reason =>
          obtain ⟨_, _, _, _, _, _, _, _, _, hinside, _⟩ := hends reason rfl
          cases hinside
      subst hnone
      refine ⟨some reason, fun below endings asked => ?_, fun other hreason => ?_⟩
      · obtain ⟨middle, hsilent, hasked⟩ := hlives below (endings ++ [reason]) asked
        refine ⟨middle, ?_, ?_⟩
        · refine (Life.Silent.ended reason hopen).once.trans ?_
          simp only [if_true, modify, life_put_self] at hsilent
          exact hsilent
        · rwa [Option.toList_none, List.append_nil] at hasked
      · cases hreason
        refine ⟨world, flushFirst, query, rest, rest, .none world, fun _ _ _ => .refl _, hopen, hprogress, rfl, ?_⟩
        rw [Activity.ask, ← hprogress]
    · exact True.intro
  · have hsame : world.SameLife id (world.modify other (·.noteReason reason)) := sameLife_put_of_ne hother _
    rw [if_neg hother] at hlives
    exact (hlives some).before hedits hsame

theorem resumeDisconnect_lives (world : World A) (reply : Reply) : ∀ rest : Disconnect A,
    (∀ chapter, rest.chapter? id = some chapter → chapter.Fits id (world.session id).state) →
    (rest.resume world reply).LivesWithin id some world (rest.chapter? id)
  | .flushing other reason flush, _ => by
    have hflush : (flush.resume world reply).Lives id (fun _ => if other = id then some .ending else none)
        (fun _ => none) (fun _ last => last = if other = id then some .ending else none) world
        (if other = id then some .ending else none) :=
      (world.resumeFlush_still flush reply).lives (fun _ _ _ => rfl) fun _ _ => rfl
    refine hflush.andThen (world.resumeFlush_comesFrom flush reply) (fun _ _ _ => rfl) (fun _ _ heq => by cases heq)
      fun world _ last hleft => ?_
    rw [hleft]
    exact world.leave_lives other reason
  | .leaving other reason rest, hfits => by
    have hsession : other = id → rest.session = id ∧ rest.Fits (world.session id).state := fun hother =>
      hfits _ (if_pos hother)
    have hrest : rest.session = id → rest.Fits (world.session id).state := by
      intro hrest
      by_cases hother : other = id
      · exact (hsession hother).2
      · exact (hfits (.round rest false) (by simp [Disconnect.chapter?, Transition.chapter?, hother, hrest])).2
    have hchapter (next : Transition A) (hnext : next.session = rest.session) :
        (Disconnect.leaving other reason next).chapter? id = next.chapter? id (other = id) := by
      by_cases hother : other = id
      · simp [Disconnect.chapter?, Transition.chapter?, hnext, hother, (hsession hother).1]
      · simp [Disconnect.chapter?, hother]
    rw [hchapter rest rfl]
    have htold : (rest.resume world).Lives id (·.chapter? id (other = id)) (fun _ => none)
        (Transition.Left id rest.session (other = id)) world (rest.chapter? id (other = id)) :=
      world.resumeTransition_lives (other = id) rest hrest
    exact htold.andThen (world.resumeTransition_comesFrom rest)
      (fun query next hasks => hchapter next (world.resumeTransition_session rest hasks)) (fun _ _ heq => by cases heq)
      fun world moved last hleft =>
        world.closeTransport_lives reason (fun hother => (hsession hother).1) moved last hleft
  | .closing, _ => Activity.lives_end world _

/-! ## Deliveries -/

theorem callHandlers_lives (world : World A) (other : SessionId) (message : A.Message) (called : Nat) :
    ∀ handlers, (world.callHandlers other message called handlers).LivesWithin id Delivery.disconnect? world none
  | [] => Activity.lives_end world _
  | _ :: _ => Activity.lives_ask world fun _ _ _ => .other rfl

theorem rejectPayload_lives (world : World A) (other : SessionId) (reason : DisconnectReason) :
    (world.rejectPayload other reason).LivesWithin id Delivery.disconnect? world none :=
  (world.disconnect_lives other reason false).andThen (world.disconnect_comesFrom other reason false) (fun _ => rfl)
    fun world _ => Activity.lives_end world _

theorem dispatch_lives (world : World A) (other : SessionId) (payload : Payload) :
    (world.dispatch other payload).LivesWithin id Delivery.disconnect? world none := by
  unfold dispatch
  by_cases hclosing : (world.session other).state.isClosing = true
  · rw [if_pos hclosing]
    exact Activity.lives_end world _
  rw [if_neg hclosing]
  cases A.decode payload with
  | none => exact rejectPayload_lives world other _
  | some message =>
    cases hentry : A.table.get? (A.kindOf message) with
    | none =>
      simp only [hentry]
      exact Activity.lives_end world _
    | some entry =>
      simp only [hentry]
      split
      · exact rejectPayload_lives world other _
      · exact (callHandlers_lives _ other message 0 _).before (edits_put other .countHandled)
          (sameLife_put other rfl rfl)

theorem resumeDelivery_lives (world : World A) (reply : Reply) : ∀ rest : Delivery A,
    (∀ chapter, rest.disconnect?.bind (·.chapter? id) = some chapter → chapter.Fits id (world.session id).state) →
    (rest.resume world reply).LivesWithin id Delivery.disconnect? world (rest.disconnect?.bind (·.chapter? id))
  | .handling other message called rest, _ => by
    cases reply with
    | endSession graceful =>
      exact (world.disconnect_lives other .requested graceful).andThen (world.disconnect_comesFrom other _ _)
        (fun _ => rfl) fun world _ => Activity.lives_end world _
    | done => exact world.callHandlers_lives other message called rest
    | failed failure => exact world.callHandlers_lives other message called rest
  | .rejecting _ rest, hfits =>
    (world.resumeDisconnect_lives reply rest hfits).andThen (world.resumeDisconnect_comesFrom reply rest)
      (fun _ => rfl) fun world _ => Activity.lives_end world _
  | .ending _ rest, hfits =>
    (world.resumeDisconnect_lives reply rest hfits).andThen (world.resumeDisconnect_comesFrom reply rest)
      (fun _ => rfl) fun world _ => Activity.lives_end world _

theorem deliverAll_lives (other : SessionId) : ∀ (payloads : List Payload) (world : World A) (handled : Nat),
    (world.deliverAll other handled payloads).LivesWithin id Arrival.disconnect? world none
  | [], world, handled => Activity.lives_end world _
  | payload :: rest, world, handled => by
    unfold deliverAll
    split
    · exact (world.dispatch_lives other payload).andThen (world.dispatch_comesFrom other payload) (fun _ => rfl)
        fun world _ => deliverAll_lives other rest world _
    · exact Activity.lives_end world _

theorem sameLife_receive (world : World A) (other : SessionId) (chunk : List UInt8) :
    world.SameLife id (world.put other ((world.session other).receive chunk).1) := by
  rcases (world.session other).receive_cases chunk with ⟨-, heq⟩ | ⟨-, stats, heq⟩
  · rw [heq]
    exact sameLife_put other rfl rfl
  · rw [heq]
    exact sameLife_put other rfl rfl

theorem hostReceive_lives (world : World A) (other : SessionId) (chunk : List UInt8) :
    (world.hostReceive other chunk).LivesWithin id Arrival.disconnect? world none := by
  unfold hostReceive
  by_cases htracks : world.tracks other = true
  · rw [if_pos htracks]
    refine .before (edits_put other (.receive chunk)) (world.sameLife_receive other chunk) ?_
    cases hresult : ((world.session other).receive chunk).2 with
    | error e =>
      simp only [hresult]
      exact (disconnect_lives _ other .malformedData false).andThen (disconnect_comesFrom _ other _ _) (fun _ => rfl)
        fun world _ => Activity.lives_end world _
    | ok payloads =>
      simp only [hresult]
      exact deliverAll_lives other payloads _ 0
  · rw [if_neg htracks]
    exact Activity.lives_end world _

theorem resumeArrival_lives (world : World A) (reply : Reply) : ∀ rest : Arrival A,
    (∀ chapter, rest.disconnect?.bind (·.chapter? id) = some chapter → chapter.Fits id (world.session id).state) →
    (rest.resume world reply).LivesWithin id Arrival.disconnect? world (rest.disconnect?.bind (·.chapter? id))
  | .delivering other _ rest current, hfits =>
    (world.resumeDelivery_lives reply current hfits).andThen (world.resumeDelivery_comesFrom reply current)
      (fun _ => rfl) fun world _ => deliverAll_lives other rest world _
  | .malformed rest, hfits =>
    (world.resumeDisconnect_lives reply rest hfits).andThen (world.resumeDisconnect_comesFrom reply rest)
      (fun _ => rfl) fun world _ => Activity.lives_end world _

/-! ## Hosts -/

theorem settleFlush_lives (world : World A) (other : SessionId) :
    ∀ result, (world.settleFlush other result).LivesWithin id HostFlush.disconnect? world none
  | .ok _ => Activity.lives_end world _
  | .error e =>
    (world.disconnect_lives other e.reason false).andThen (world.disconnect_comesFrom other e.reason false)
      (fun _ => rfl) fun world _ => Activity.lives_end world _

theorem flushSession_lives (world : World A) (other : SessionId) :
    (world.flushSession other).LivesWithin id HostFlush.disconnect? world none :=
  (world.tick_still other).andThen (world.tick_comesFrom other) (fun _ => rfl)
    fun world result => world.settleFlush_lives other result

theorem hostTick_lives (world : World A) (other : SessionId) :
    (world.hostTick other).LivesWithin id HostFlush.disconnect? world none := by
  unfold hostTick
  split
  · exact flushSession_lives world other
  · exact Activity.lives_end world _

theorem resumeHostFlush_lives (world : World A) (reply : Reply) : ∀ rest : HostFlush A,
    (∀ chapter, rest.disconnect?.bind (·.chapter? id) = some chapter → chapter.Fits id (world.session id).state) →
    (rest.resume world reply).LivesWithin id HostFlush.disconnect? world (rest.disconnect?.bind (·.chapter? id))
  | .flushing other rest, _ =>
    (world.resumeFlush_still rest reply).andThen (world.resumeFlush_comesFrom rest reply) (fun _ => rfl)
      fun world result => world.settleFlush_lives other result
  | .failing rest, hfits =>
    (world.resumeDisconnect_lives reply rest hfits).andThen (world.resumeDisconnect_comesFrom reply rest)
      (fun _ => rfl) fun world _ => Activity.lives_end world _

theorem sweep_lives : ∀ (ids : List SessionId) (world : World A) (total : TickSummary),
    (world.sweep total ids).LivesWithin id (·.current.disconnect?) world none
  | [], world, _ => Activity.lives_end world _
  | other :: rest, world, _ =>
    (world.flushSession_lives other).andThen (world.flushSession_comesFrom other) (fun _ => rfl)
      fun world _ => sweep_lives rest world _

theorem resumeSweep_lives (world : World A) (reply : Reply) (sweep : Sweep A)
    (hfits : ∀ chapter, sweep.current.disconnect?.bind (·.chapter? id) = some chapter →
      chapter.Fits id (world.session id).state) :
    (sweep.resume world reply).LivesWithin id (·.current.disconnect?) world
      (sweep.current.disconnect?.bind (·.chapter? id)) :=
  (world.resumeHostFlush_lives reply sweep.current hfits).andThen (world.resumeHostFlush_comesFrom reply sweep.current)
    (fun _ => rfl) fun world _ => sweep_lives sweep.rest world _

theorem disconnectEach_lives : ∀ (ids : List SessionId) (world : World A),
    (world.disconnectEach ids).LivesWithin id (fun shutdown => some shutdown.current) world none
  | [], world => Activity.lives_end world _
  | other :: rest, world =>
    (world.disconnect_lives other .hostShutdown true).andThen (world.disconnect_comesFrom other .hostShutdown true)
      (fun _ => rfl) fun world _ => disconnectEach_lives rest world

theorem shutdown_lives (world : World A) (order : Enumeration) :
    (world.shutdown order).LivesWithin id (fun shutdown => some shutdown.current) world none := by
  unfold shutdown
  split
  · exact Activity.lives_end world _
  · exact (disconnectEach_lives _ _).before Edit.shutDown.once ⟨rfl, rfl, rfl⟩

theorem resumeShutdown_lives (world : World A) (reply : Reply) (shutdown : Shutdown A)
    (hfits : ∀ chapter, shutdown.current.chapter? id = some chapter → chapter.Fits id (world.session id).state) :
    (shutdown.resume world reply).LivesWithin id (fun shutdown => some shutdown.current) world
      (shutdown.current.chapter? id) :=
  (world.resumeDisconnect_lives reply shutdown.current hfits).andThen
    (world.resumeDisconnect_comesFrom reply shutdown.current) (fun _ => rfl)
    fun world _ => disconnectEach_lives shutdown.rest world

theorem finishTick_lives (world : World A) (number : Nat) :
    (Activity.finish (world.settleTick number) true : Activity A (Sweep A) Bool).LivesWithin id
      (·.current.disconnect?) world none := by
  have hsame : world.SameLife id (world.settleTick number) := by
    unfold settleTick
    split <;> exact ⟨rfl, rfl, rfl⟩
  exact Activity.Lives.before (world.settleTick_edits number) hsame (Activity.lives_end _ _)

theorem wakeLoop_lives (world : World A) (number now : Nat) (order : Enumeration) :
    (world.wakeLoop number now order).LivesWithin id (·.current.disconnect?) world none := by
  unfold wakeLoop
  split
  · split
    · exact Activity.lives_end world _
    · rename_i due _ _
      refine .before (Edit.setLoop number (.ticking (nextTick world.config.tickInterval due now))).once
        ⟨rfl, rfl, rfl⟩ ?_
      exact (sweep_lives _ _ _).andThen (sweep_comesFrom _ _ _) (fun _ => rfl)
        fun world _ => world.finishTick_lives number
  · exact Activity.lives_end world _
  · exact Activity.lives_end world _
  · exact Activity.lives_end world _

theorem resumeTick_lives (world : World A) (reply : Reply) (number : Nat) (sweep : Sweep A)
    (hfits : ∀ chapter, sweep.current.disconnect?.bind (·.chapter? id) = some chapter →
      chapter.Fits id (world.session id).state) :
    (world.resumeTick reply number sweep).LivesWithin id (·.current.disconnect?) world
      (sweep.current.disconnect?.bind (·.chapter? id)) :=
  (world.resumeSweep_lives reply sweep hfits).andThen (world.resumeSweep_comesFrom reply sweep) (fun _ => rfl)
    fun world _ => world.finishTick_lives number

/-! ## Reports -/

/-- A transition that closes nothing leaves a round that is over, if any. -/
theorem left_settles (world : World A) {session : SessionId} : ∀ {moved : Except SessionError Bool}
    {last : Option (Chapter A)}, Transition.Left id session false moved last → ∀ below endings asked,
      (world.life id (last.toList ++ below) endings asked).Silently id (world.life id below endings asked)
  | .ok true, last, hleft, below, endings, asked => by
    obtain ⟨rest, hover, -, rfl⟩ := hleft
    unfold Transition.chapter?
    split
    · exact (Life.Silent.ends rfl hover).once
    · exact .refl _
  | .ok false, last, hleft, below, endings, asked | .error _, last, hleft, below, endings, asked => by
    rw [show last = none from hleft.trans (by simp)]
    exact .refl _

theorem settleReport_lives (world : World A) {other session : SessionId} (state : ConnectionState)
    {inside : Report A → Option (Disconnect A)} (moved : Except SessionError Bool) {last : Option (Chapter A)}
    (hleft : Transition.Left id session false moved last) :
    (world.settleReport other state moved).Lives id (fun report => report.rest.chapter? id false) inside
      (fun _ last => last = none) world last := by
  have hsettled : (world.settleReport other state moved).Still id world := by
    cases moved with
    | error e => exact Activity.still_finish world _
    | ok moved =>
      unfold settleReport
      by_cases hgone : state = .disconnected
      · rw [if_pos hgone]
        exact ⟨⟨rfl, rfl, rfl⟩, fun _ _ hasks => by cases hasks⟩
      · rw [if_neg hgone]
        exact Activity.still_finish world _
  have hend : (world.settleReport other state moved).Lives id (fun report => report.rest.chapter? id false) inside
      (fun _ last => last = none) world none := by
    cases moved <;> exact hsettled.lives (fun _ _ hasks => by cases hasks) fun _ _ => rfl
  refine hend.onward (.none world) ?_
  exact world.left_settles hleft

theorem report_lives (world : World A) (other : SessionId) (state : ConnectionState)
    {inside : Report A → Option (Disconnect A)} :
    (world.report other state).Lives id (fun report => report.rest.chapter? id false) inside
      (fun _ last => last = none) world none := by
  unfold report
  split
  · have htransition : (world.transition other state).Lives id (·.chapter? id false) (fun _ => none)
        (Transition.Left id other false) world none := by
      simpa only [Bool.false_eq_true, and_false, if_false] using world.transition_lives other state false nofun
    exact htransition.andThen (world.transition_comesFrom other state) (fun _ _ _ => rfl) (fun _ _ heq => by cases heq)
      fun world moved _ hleft => world.settleReport_lives state moved hleft
  · exact Activity.lives_end world _

theorem resumeReport_lives (world : World A) (report : Report A) {inside : Report A → Option (Disconnect A)}
    (hfits : report.rest.session = id → report.rest.Fits (world.session id).state) :
    (report.resume world).Lives id (fun report => report.rest.chapter? id false) inside (fun _ last => last = none)
      world (report.rest.chapter? id false) := by
  have htold : (report.rest.resume world).Lives id (·.chapter? id false) (fun _ => none)
      (Transition.Left id report.rest.session false) world (report.rest.chapter? id false) :=
    world.resumeTransition_lives false report.rest hfits
  exact htold.andThen (world.resumeTransition_comesFrom report.rest) (fun _ _ _ => rfl) (fun _ _ heq => by cases heq)
    fun world moved _ hleft => world.settleReport_lives report.state moved hleft

end World

/-! ## Calls and moves -/

section Calls

variable {id : SessionId} {κ α : Type}

theorem Activity.LivesWithin.wrap {inside : κ → Option (Disconnect A)} {world : World A} {chapter : Option (Chapter A)}
    {first : Activity A κ α} (h : first.LivesWithin id inside world chapter) (hcomes : first.ComesFrom world)
    {within : κ → Suspended A} {answer : α → Answer} (hchapter : ∀ rest, (within rest).chapter? id =
      (within rest).disconnect?.bind (·.chapter? id)) (hinside : ∀ rest, (within rest).disconnect? = inside rest) :
    (Call.wrap first within answer).Lives id (·.chapter? id) Suspended.disconnect? (fun _ last => last = none) world
      chapter := by
  refine Lives.andThen h hcomes (fun query rest _ => ?_) (fun rest _ heq => (hinside rest).trans heq)
    fun world result last hleft => lives_finish world hleft
  rw [hchapter, hinside]

theorem Activity.Still.wrap {world : World A} {first : Activity A κ α} (h : first.Still id world)
    (hcomes : first.ComesFrom world) {within : κ → Suspended A} {answer : α → Answer}
    (hchapter : ∀ rest, (within rest).chapter? id = none) :
    (Call.wrap first within answer).Lives id (·.chapter? id) Suspended.disconnect? (fun _ last => last = none) world
      none := by
  have hfirst : first.LivesWithin id (fun _ => none) world none := h.lives (fun _ _ _ => rfl) fun _ _ => rfl
  exact Lives.andThen hfirst hcomes (fun query rest _ => hchapter rest) (fun _ _ heq => by cases heq)
    fun world result last hleft => lives_finish world hleft

theorem World.answerMoved_lives (world : World A) {session : SessionId} {moved : Except SessionError Bool}
    {last : Option (Chapter A)} (hleft : Transition.Left id session false moved last) :
    (Activity.finish world (Answer.moved moved) : Activity A (Suspended A) Answer).Lives id (·.chapter? id)
      Suspended.disconnect? (fun _ last => last = none) world last := by
  have hend : (Activity.finish world (Answer.moved moved) : Activity A (Suspended A) Answer).Lives id (·.chapter? id)
      Suspended.disconnect? (fun _ last => last = none) world none := Activity.lives_end world _
  refine hend.onward (.none world) ?_
  exact world.left_settles hleft

theorem World.sameLife_enqueue (world : World A) (other : SessionId) (payload : Payload) :
    world.SameLife id (world.put other ((world.session other).enqueue payload).1) := by
  rw [Session.enqueue_fst]
  exact sameLife_put other rfl rfl

theorem World.sameLife_authenticate (world : World A) (other : SessionId) (identity : Option A.Identity) :
    world.SameLife id (world.put other ((world.session other).authenticate identity).1) := by
  rcases (world.session other).authenticate_cases identity with ⟨e, heq⟩ | ⟨-, -, heq⟩
  · rw [heq]
    exact sameLife_put other rfl rfl
  · rw [heq]
    exact sameLife_put other rfl rfl

theorem World.sameLife_openSession {world : World A} (hissued : id.number < world.ids.next) :
    world.SameLife id world.openSession.1 := by
  unfold openSession
  split
  · exact .refl world
  · split
    · exact .refl world
    · have hnew : (⟨world.ids.next⟩ : SessionId) ≠ id := by
        rintro rfl
        exact Nat.lt_irrefl _ hissued
      have hsame := world.session_put_of_ne (.start ⟨world.ids.next⟩ world.config.session) hnew
      exact ⟨congrArg Session.state hsame, congrArg Session.reason hsame, rfl⟩

/-- **What a call means to the life of a session** that was started before. -/
theorem Call.begin_lives (world : World A) (call : Call A) (hissued : id.number < world.ids.next) :
    (call.begin world).Lives id (·.chapter? id) Suspended.disconnect? (fun _ last => last = none) world none := by
  have hfinish {next : World A} {answer : Answer} (hsame : world.SameLife id next) :
      (Activity.finish next answer : Activity A (Suspended A) Answer).Lives id (·.chapter? id) Suspended.disconnect?
        (fun _ last => last = none) world none := by
    have hstill : (Activity.finish next answer : Activity A (Suspended A) Answer).Still id world :=
      ⟨hsame, fun _ _ hasks => by cases hasks⟩
    exact hstill.lives (fun _ _ hasks => by cases hasks) fun _ _ => rfl
  cases call with
  | transition other target =>
    have htransition : (world.transition other target).Lives id (·.chapter? id false) (fun _ => none)
        (Transition.Left id other false) world none := by
      simpa only [Bool.false_eq_true, and_false, if_false] using world.transition_lives other target false nofun
    exact htransition.andThen (world.transition_comesFrom other target) (fun _ _ _ => rfl) (fun _ _ heq => by cases heq)
      fun world moved last hleft => world.answerMoved_lives hleft
  | authenticate other identity => exact hfinish (world.sameLife_authenticate other identity)
  | enqueue other payload => exact hfinish (world.sameLife_enqueue other payload)
  | tick other => exact (world.tick_still other).wrap (world.tick_comesFrom other) fun _ => rfl
  | receive other chunk => exact hfinish (world.sameLife_receive other chunk)
  | disconnect other reason flushFirst =>
    exact (world.disconnect_lives other reason flushFirst).wrap (world.disconnect_comesFrom other _ _) (fun _ => rfl)
      fun _ => rfl
  | dispatch other payload =>
    exact (world.dispatch_lives other payload).wrap (world.dispatch_comesFrom other _) (fun _ => rfl) fun _ => rfl
  | outboxEnqueue other payload => exact hfinish (World.sameLife_put other rfl rfl)
  | outboxFlush other buffer offset limit => exact hfinish (World.sameLife_put other rfl rfl)
  | outboxClose other => exact hfinish (World.sameLife_put other rfl rfl)
  | addObserver observer =>
    have hend : (Activity.finish (world.addObserver observer) Answer.nothing : Activity A (Suspended A) Answer).Lives id
        (·.chapter? id) Suspended.disconnect? (fun _ last => last = none) (world.addObserver observer) none :=
      Activity.lives_end _ _
    refine hend.onward (World.Edit.addObserver observer).once fun below endings asked => ?_
    exact (Life.Silent.join observer).once
  | hostOpen => exact hfinish (World.sameLife_openSession hissued)
  | hostReport other state =>
    have hreport : (world.report other state).Lives id (fun report => report.rest.chapter? id false) (fun _ => none)
        (fun _ last => last = none) world none := world.report_lives other state
    exact hreport.andThen (world.report_comesFrom other state) (fun _ _ _ => rfl) (fun _ _ heq => by cases heq)
      fun world _ _ hleft => Activity.lives_finish world hleft
  | hostReceive other chunk =>
    exact (world.hostReceive_lives other chunk).wrap (world.hostReceive_comesFrom other chunk) (fun _ => rfl)
      fun _ => rfl
  | hostEnqueue other payload =>
    by_cases htracks : world.tracks other = true
    · simp only [begin, World.hostEnqueue, if_pos htracks]
      exact hfinish (world.sameLife_enqueue other payload)
    · simp only [begin, World.hostEnqueue, if_neg htracks]
      exact hfinish (.refl world)
  | hostTick other =>
    exact (world.hostTick_lives other).wrap (world.hostTick_comesFrom other) (fun _ => rfl) fun _ => rfl
  | hostFlushAll _ =>
    exact (World.sweep_lives _ world _).wrap (World.sweep_comesFrom _ world _) (fun _ => rfl) fun _ => rfl
  | hostDisconnect other reason flushFirst =>
    by_cases htracks : world.tracks other = true
    · rw [begin, if_pos htracks]
      exact (world.disconnect_lives other reason flushFirst).wrap (world.disconnect_comesFrom other _ _) (fun _ => rfl)
        fun _ => rfl
    · rw [begin, if_neg htracks]
      exact hfinish (.refl world)
  | hostShutdown order =>
    exact (world.shutdown_lives order).wrap (world.shutdown_comesFrom order) (fun _ => rfl) fun _ => rfl
  | startLoop now => exact hfinish ⟨rfl, rfl, rfl⟩
  | wakeLoop number now order =>
    exact (world.wakeLoop_lives number now order).wrap (world.wakeLoop_comesFrom number now order) (fun _ => rfl)
      fun _ => rfl

theorem Transition.fits_of_chapter {rest : Transition A} {closes : Bool} {state : ConnectionState}
    (hfits : ∀ chapter, rest.chapter? id closes = some chapter → chapter.Fits id state) (hrest : rest.session = id) :
    rest.Fits state := (hfits (.round rest closes) (if_pos hrest)).2

/-- **What a call means to the life of a session** when it goes on with a chapter that fits. -/
theorem Suspended.resume_lives (world : World A) (reply : Reply) (rest : Suspended A)
    (hfits : ∀ chapter, rest.chapter? id = some chapter → chapter.Fits id (world.session id).state) :
    (rest.resume world reply).Lives id (·.chapter? id) Suspended.disconnect? (fun _ last => last = none) world
      (rest.chapter? id) := by
  cases rest with
  | transition rest =>
    have htold : (rest.resume world).Lives id (·.chapter? id false) (fun _ => none)
        (Transition.Left id rest.session false) world (rest.chapter? id false) :=
      world.resumeTransition_lives false rest (Transition.fits_of_chapter hfits)
    exact htold.andThen (world.resumeTransition_comesFrom rest) (fun _ _ _ => rfl) (fun _ _ heq => by cases heq)
      fun world moved last hleft => world.answerMoved_lives hleft
  | tick rest => exact (world.resumeFlush_still rest reply).wrap (world.resumeFlush_comesFrom rest reply) fun _ => rfl
  | disconnect rest =>
    exact (world.resumeDisconnect_lives reply rest hfits).wrap (world.resumeDisconnect_comesFrom reply rest)
      (fun _ => rfl) fun _ => rfl
  | dispatch rest =>
    exact (world.resumeDelivery_lives reply rest hfits).wrap (world.resumeDelivery_comesFrom reply rest) (fun _ => rfl)
      fun _ => rfl
  | report rest =>
    have htold : (rest.resume world).Lives id (fun report => report.rest.chapter? id false) (fun _ => none)
        (fun _ last => last = none) world (rest.rest.chapter? id false) :=
      world.resumeReport_lives rest (Transition.fits_of_chapter hfits)
    exact htold.andThen (world.resumeReport_comesFrom rest) (fun _ _ _ => rfl) (fun _ _ heq => by cases heq)
      fun world _ _ hleft => Activity.lives_finish world hleft
  | arrival rest =>
    exact (world.resumeArrival_lives reply rest hfits).wrap (world.resumeArrival_comesFrom reply rest) (fun _ => rfl)
      fun _ => rfl
  | hostTick rest =>
    exact (world.resumeHostFlush_lives reply rest hfits).wrap (world.resumeHostFlush_comesFrom reply rest)
      (fun _ => rfl) fun _ => rfl
  | sweep rest =>
    exact (world.resumeSweep_lives reply rest hfits).wrap (world.resumeSweep_comesFrom reply rest) (fun _ => rfl)
      fun _ => rfl
  | shutdown rest =>
    exact (world.resumeShutdown_lives reply rest hfits).wrap (world.resumeShutdown_comesFrom reply rest) (fun _ => rfl)
      fun _ => rfl
  | loop number rest =>
    exact (world.resumeTick_lives reply number rest hfits).wrap (world.resumeTick_comesFrom reply number rest)
      (fun _ => rfl) fun _ => rfl

end Calls

namespace Machine

variable {id : SessionId} {machine next last : Machine A}

/-- What is under way of a session's life, the innermost first. -/
def chapters (machine : Machine A) (id : SessionId) : List (Chapter A) :=
  machine.waiting.filterMap (·.rest.chapter? id)

/-- The life of a session, with a past. -/
def life (machine : Machine A) (id : SessionId) (endings : List DisconnectReason) (asked : List (Query A)) : Life A :=
  machine.world.life id (machine.chapters id) endings asked

/-- The move from one machine to the next ended in the middle of a disconnect that found the session open. -/
def Disconnects (machine next : Machine A) (id : SessionId) (reason : DisconnectReason) : Prop :=
  ∃ (before : World A) (flushFirst : Bool) (innermost : Waiting A) (outer : List (Waiting A))
    (disconnect : Disconnect A),
    machine.world.Edits [] before ∧ (before.session id).reason = (machine.world.session id).reason ∧
    (before.session id).state.isClosing = false ∧ next.waiting = innermost :: outer ∧
    innermost.rest.disconnect? = some disconnect ∧
    before.disconnect id reason flushFirst = .ask next.world innermost.query disconnect

/-- What a move means to the life of a session: silent steps, and then the question that it asked, if it asked one.  The
move may have been the one with which a disconnect found the session open. -/
def Goes (machine next : Machine A) (id : SessionId) (signal : Signal A) (ended : Option DisconnectReason) : Prop :=
  ∀ endings asked, ∃ middle, (machine.life id endings asked).Silently id middle ∧
    match signal with
    | .answers _ => middle = next.life id endings asked ∧ ended = none
    | .asks query => middle.Asks id query (next.life id (endings ++ ended.toList) (asked ++ [query]))

theorem settle_lives {chapter : Option (Chapter A)} {outer : List (Waiting A)} {signal : Signal A}
    {activity : Activity A (Suspended A) Answer}
    (h : activity.Lives id (·.chapter? id) Suspended.disconnect? (fun _ last => last = none) machine.world chapter)
    (hchapters : machine.chapters id = chapter.toList ++ outer.filterMap (·.rest.chapter? id))
    (hsettle : settle outer activity = some (next, signal)) :
    ∃ ended, machine.Goes next id signal ended ∧
      ∀ reason, ended = some reason → activity.Ends id Suspended.disconnect? machine.world chapter reason ∧
        ∃ query rest, activity.progress = .asks query rest ∧ next = ⟨activity.world, ⟨query, rest⟩ :: outer⟩ := by
  unfold settle at hsettle
  unfold Activity.Lives at h
  split at hsettle
  · rename_i answer hdone
    rw [hdone] at h
    cases hsettle
    obtain ⟨last, rfl, hsilent⟩ := h
    refine ⟨none, fun endings asked => ⟨_, ?_, rfl, rfl⟩, fun _ heq => by cases heq⟩
    rw [life, hchapters]
    exact hsilent _ endings asked
  · rename_i query rest hasks
    rw [hasks] at h
    cases hsettle
    obtain ⟨ended, hlives, hends⟩ := h
    refine ⟨ended, fun endings asked => ?_, fun reason hreason => ⟨hends reason hreason, query, rest, hasks, rfl⟩⟩
    obtain ⟨middle, hsilent, hasked⟩ := hlives (outer.filterMap (·.rest.chapter? id)) endings asked
    rw [life, hchapters]
    refine ⟨middle, hsilent, ?_⟩
    have hnext : chapters ⟨activity.world, ⟨query, rest⟩ :: outer⟩ id =
        (rest.chapter? id).toList ++ outer.filterMap (·.rest.chapter? id) := by
      simp only [chapters, List.filterMap_cons]
      cases rest.chapter? id <;> rfl
    show Life.Asks id middle query (life ⟨activity.world, ⟨query, rest⟩ :: outer⟩ id (endings ++ ended.toList)
      (asked ++ [query]))
    rw [life, hnext]
    exact hasked
  · cases hsettle

theorem disconnects_of_ends {chapter : Option (Chapter A)} {outer : List (Waiting A)} {query : Query A}
    {rest : Suspended A} {activity : Activity A (Suspended A) Answer} {reason : DisconnectReason}
    (h : activity.Ends id Suspended.disconnect? machine.world chapter reason)
    (hasks : activity.progress = .asks query rest) :
    machine.Disconnects ⟨activity.world, ⟨query, rest⟩ :: outer⟩ id reason := by
  obtain ⟨before, flushFirst, query', rest', disconnect, hedits, hsilent, hopen, hasks', hinside, hdisconnect⟩ := h
  rw [hasks] at hasks'
  cases hasks'
  refine ⟨before, flushFirst, ⟨query, rest⟩, outer, disconnect, hedits, ?_, hopen, rfl, hinside, hdisconnect⟩
  rcases (hsilent [] [] []).reason rfl with hreason | hended
  · exact hreason
  · rw [show (before.session id).state = .disconnected from hended] at hopen
    cases hopen

/-- **What a move means to the life of a session** that was started before. -/
theorem move_lives {move : Move A} {event : Event A} (hissued : id.number < machine.world.ids.next)
    (hfits : ∀ chapter ∈ machine.chapters id, chapter.Fits id (machine.world.session id).state)
    (hmove : machine.move move = some (next, event)) :
    ∃ ended, machine.Goes next id event.signal ended ∧
      ∀ reason, ended = some reason → machine.Disconnects next id reason := by
  have hended {chapter : Option (Chapter A)} {outer : List (Waiting A)} {reached : Machine A} {signal : Signal A}
      {activity : Activity A (Suspended A) Answer}
      (h : activity.Lives id (·.chapter? id) Suspended.disconnect? (fun _ last => last = none) machine.world chapter)
      (hchapters : machine.chapters id = chapter.toList ++ outer.filterMap (·.rest.chapter? id))
      (hsettle : settle outer activity = some (reached, signal)) :
      ∃ ended, machine.Goes reached id signal ended ∧
        ∀ reason, ended = some reason → machine.Disconnects reached id reason := by
    obtain ⟨ended, hgoes, hends⟩ := settle_lives h hchapters hsettle
    refine ⟨ended, hgoes, fun reason hreason => ?_⟩
    obtain ⟨hended, query, rest, hasks, rfl⟩ := hends reason hreason
    exact disconnects_of_ends hended hasks
  cases move with
  | call call =>
    obtain ⟨-, signal, rfl, hsettle⟩ := of_move_call hmove
    exact hended (call.begin_lives machine.world hissued) rfl hsettle
  | reply reply =>
    obtain ⟨innermost, outer, signal, hwaiting, rfl, hsettle⟩ := of_move_reply hmove
    have hchapters : machine.chapters id =
        (innermost.rest.chapter? id).toList ++ outer.filterMap (·.rest.chapter? id) := by
      simp only [chapters, hwaiting, List.filterMap_cons]
      cases innermost.rest.chapter? id <;> rfl
    refine hended (innermost.rest.resume_lives machine.world reply fun chapter hchapter => hfits chapter ?_) hchapters
      hsettle
    rw [hchapters, hchapter]
    exact List.mem_cons_self

end Machine

end FramedLink
