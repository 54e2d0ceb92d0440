import FramedLink.Proofs.Lives.Ending
import FramedLink.Proofs.Runs.Order
import FramedLink.Proofs.Runs.Upkeep
/-!
# Who is to blame for a failed flush

The outbox of a session is sound wherever the library comes, so it never refuses a flush that the session makes
(`World.Accountable`).  A flush that fails has met a failed transmit.  A host lets such a failure end the session, if
nobody else has ended it meanwhile, and notes the reason by what the transport reported (`World.blamed`).
Everything else that a host's flush does leaves the lives of its sessions alone (`Activity.Peaceful`).

Main statement: no outbox refuses a flush, and a session that a host's flush ends is ended for what its transport
reported (`Machine.blame_lies_with_transport`).
-/
namespace FramedLink

variable {A : Application} {κ κ' α β : Type} {ι : Type} {id : SessionId}

/-! ## Outboxes that refuse no flush -/

namespace Session.Accounted

variable {session next : Session ι}

theorem upkeep (h : session.Accounted) (hupkeep : session.Upkeep next) : next.Accounted := by
  obtain ⟨deeds, hedit, hdirect⟩ := hupkeep.edit
  exact h.edit hdirect hedit

/-- **An outbox that is accounted for refuses no flush.** -/
theorem drain_ok (h : session.Accounted) (room : Nat) (limit : Limit) :
    ∃ output, (session.outbox.drain room limit).2 = .ok output := by
  obtain ⟨after, output, hdrain, -⟩ := Outbox.drain_eq room limit h.sound
  exact ⟨output, congrArg Prod.snd hdrain⟩

end Session.Accounted

/-- New sessions take in only what a header can describe, and every session's outbox is accounted for. -/
structure World.Accountable (world : World A) : Prop where
  limit : world.config.session.maxMessageSize < lengthLimit
  accounted : ∀ id, (world.session id).Accounted

namespace World

variable {world last : World A}

theorem Accountable.upkeep {handled : List SessionId} (h : world.Accountable) (hupkeep : world.Upkeep handled last) :
    last.Accountable where
  limit := by
    rw [hupkeep.config]
    exact h.limit
  accounted := fun id =>
    @Upkeep.keep _ _ _ id _ (fun _ session => session.Accounted) (fun hkept hstep => hkept.upkeep hstep)
      (fun hkept => ⟨hkept.limit, hkept.sound⟩) hupkeep 0 (h.accounted id)

/-- **What a call does at once** keeps every outbox accounted for, unless it takes in a payload past the session that no
header can describe. -/
theorem Accountable.primes (h : world.Accountable) {call : Call A}
    (hdirect : ∀ id payload, call = .outboxEnqueue id payload → payload.length < lengthLimit) :
    (call.primes world).Accountable where
  limit := by
    rw [call.config_primes]
    exact h.limit
  accounted := fun id => by
    have hsession := h.accounted id
    have hnone : ∀ deed ∈ ([] : List Deed), deed ≠ .direct := fun _ hmem => absurd hmem List.not_mem_nil
    have hprimed := call.primes_primed world id
    generalize (call.primes world).session id = next at hprimed ⊢
    cases hprimed with
    | still => exact hsession
    | start => exact ⟨h.limit, Outbox.sound_ofCap _⟩
    | authenticate identity => exact hsession.edit hnone (.authenticate identity)
    | enqueue payload | hostEnqueue payload => exact hsession.enqueue payload
    | receive chunk | hostReceive chunk => exact hsession.edit hnone (.receive chunk)
    | outboxEnqueue payload => exact ⟨hsession.limit, hsession.sound.enqueue (hdirect id payload rfl)⟩
    | outboxFlush buffer offset limit => exact ⟨hsession.limit, hsession.sound.flush buffer offset limit⟩
    | outboxClose => exact ⟨hsession.limit, hsession.sound.close⟩

theorem accountable_ofConfig {config : HostConfig} (hworld : ofConfig config = .ok world)
    (hlimit : config.session.maxMessageSize < lengthLimit) : world.Accountable := by
  rw [eq_of_ofConfig hworld]
  exact ⟨hlimit, fun _ => ⟨hlimit, Outbox.sound_ofCap _⟩⟩

end World

/-- What a move does at once keeps every outbox accounted for. -/
theorem Move.primes_accountable {world : World A} (h : world.Accountable) {move : Move A}
    (hdirect : ∀ id payload, move = .call (.outboxEnqueue id payload) → payload.length < lengthLimit) :
    (move.primes world).Accountable := by
  cases move with
  | call call => exact h.primes fun id payload heq => hdirect id payload (congrArg Move.call heq)
  | reply reply => exact h

/-! ## Flushes that blame the transport -/

namespace World

variable {world : World A} {limit : Limit} {summary : TickSummary} {e : FlushError}

theorem pump_ne_error (h : (world.session id).Accounted) :
    (world.pump id limit summary).progress ≠ .done (.error e) := by
  obtain ⟨output, hok⟩ := h.drain_ok (world.session id).config.transmitBufferSize limit
  unfold pump
  split
  · exact fun hdone => by cases hdone
  · simp only [hok]
    split
    · exact fun hdone => by cases hdone
    · exact fun hdone => by cases hdone

theorem beginFlush_ne_error (h : (world.session id).Accounted) :
    (world.beginFlush id limit).progress ≠ .done (.error e) := by
  unfold beginFlush
  split
  · refine pump_ne_error ?_
    rw [modify, session_put_self]
    exact ⟨h.limit, h.sound⟩
  · exact fun hdone => by cases hdone

theorem tick_ne_error (h : (world.session id).Accounted) : (world.tick id).progress ≠ .done (.error e) := by
  unfold tick
  split
  · exact fun hdone => by cases hdone
  · exact beginFlush_ne_error h

/-- **A flush that goes on and fails** was told of a failure by the transport. -/
theorem resumeFlush_error {flush : Flush} {reply : Reply} (h : (world.session flush.id).Accounted)
    (hdone : (flush.resume world reply).progress = .done (.error e)) :
    ∃ failure, reply = .failed failure ∧ e = .transport failure := by
  have htaken : (flush.resume world .done).progress ≠ .done (.error e) := by
    simp only [Flush.resume]
    split
    · exact fun hdone => by cases hdone
    · refine pump_ne_error ?_
      rw [modify, session_put_self]
      exact ⟨h.limit, h.sound⟩
  cases reply with
  | failed failure =>
    cases hdone
    exact ⟨failure, rfl, rfl⟩
  | done => exact absurd hdone htaken
  | endSession graceful => exact absurd hdone htaken

end World

/-- No outbox refuses a flush, and a flush of a session fails only if the transport does. -/
structure World.FlushesSafely (world : World A) : Prop where
  drains : ∀ id room limit, ∃ output, ((world.session id).outbox.drain room limit).2 = .ok output
  begins : ∀ id limit e, (world.beginFlush id limit).progress ≠ .done (.error e)
  goesOn : ∀ (flush : Flush) reply e, (flush.resume world reply).progress = .done (.error e) →
    ∃ failure, reply = .failed failure ∧ e = .transport failure

theorem World.Accountable.flushesSafely {world : World A} (h : world.Accountable) : world.FlushesSafely where
  drains := fun id room limit => (h.accounted id).drain_ok room limit
  begins := fun id _ _ => beginFlush_ne_error (h.accounted id)
  goesOn := fun flush _ _ hdone => resumeFlush_error (h.accounted flush.id) hdone

/-! ## Flushes of a host -/

/-- What is left of a disconnect that moved the session: telling that it leaves, and closing the transport. -/
def Disconnect.Winds : Disconnect A → Prop
  | leaving _ _ (.telling _ _ target _) => target = .disconnecting
  | closing => True
  | leaving _ _ (.parting _ _ _) | flushing _ _ _ => False

/-- What is left of a host's flush is in the middle of a transmit, or of the ending of a session that failed. -/
def HostFlush.Winds : HostFlush A → Prop
  | flushing _ _ => True
  | failing rest => rest.Winds

/-- The life of no session goes on, and what is left of a host's flush winds it up. -/
structure Activity.Peaceful (inside : κ → HostFlush A) (start : World A) (activity : Activity A κ α) : Prop where
  same : ∀ id, start.SameLife id activity.world
  winds : ∀ query rest, activity.progress = .asks query rest → (inside rest).Winds

namespace Activity

variable {inside : κ → HostFlush A} {inside' : κ' → HostFlush A} {start middle : World A} {activity : Activity A κ α}

theorem peaceful_finish (world : World A) (result : α) :
    (finish world result : Activity A κ α).Peaceful inside world where
  same := fun _ => .refl world
  winds := fun _ _ hasks => by cases hasks

theorem Peaceful.before (hsame : ∀ id, start.SameLife id middle) (h : activity.Peaceful inside middle) :
    activity.Peaceful inside start where
  same := fun id => (hsame id).trans (h.same id)
  winds := h.winds

theorem Peaceful.andThen {within : κ → κ'} {next : World A → α → Activity A κ' β} (h : activity.Peaceful inside start)
    (hinside : ∀ rest, inside' (within rest) = inside rest)
    (hnext : ∀ result, activity.progress = .done result →
      (next activity.world result).Peaceful inside' activity.world) :
    (activity.andThen within next).Peaceful inside' start := by
  cases hprogress : activity.progress with
  | done result =>
    have heq : activity.andThen within next = next activity.world result := by rw [Activity.andThen, hprogress]
    rw [heq]
    exact (hnext result hprogress).before h.same
  | asks query rest =>
    have heq : activity.andThen within next = .ask activity.world query (within rest) := by
      rw [Activity.andThen, hprogress]
      rfl
    rw [heq]
    refine ⟨h.same, fun asked left hasks => ?_⟩
    cases hasks
    rw [hinside]
    exact h.winds query rest hprogress
  | stuck =>
    have heq : activity.andThen within next = ⟨activity.world, .stuck⟩ := by rw [Activity.andThen, hprogress]
    rw [heq]
    exact ⟨h.same, fun _ _ hasks => by cases hasks⟩

end Activity

open Activity (peaceful_finish)

namespace World

variable {world : World A}

/-- The world after a host has met a failed transmit of a session: an open session has noted the failure and leaves. -/
def blamed (world : World A) (id : SessionId) (failure : Failure) : World A :=
  if (world.session id).state.isClosing then world
  else world.put id (((world.session id).noteReason (FlushError.transport failure).reason).enter .disconnecting)

theorem sameLife_blamed {middle : World A} (hsame : ∀ id, world.SameLife id middle) (id : SessionId)
    (failure : Failure) : ∀ other, (world.blamed id failure).SameLife other (middle.blamed id failure) := by
  intro other
  unfold blamed
  rw [(hsame id).state]
  split
  · exact hsame other
  · by_cases hother : id = other
    · subst hother
      refine ⟨?_, ?_, (hsame id).observers⟩
      · rw [session_put_self, session_put_self, state_enter, state_enter]
      · rw [session_put_self, session_put_self, reason_enter, reason_enter, Session.noteReason, Session.noteReason,
          (hsame id).reason]
    · refine ⟨?_, ?_, (hsame id).observers⟩
      · rw [session_put_of_ne _ _ hother, session_put_of_ne _ _ hother, (hsame other).state]
      · rw [session_put_of_ne _ _ hother, session_put_of_ne _ _ hother, (hsame other).reason]

/-- Telling that a session leaves, and closing its transport, is no part of its life any more. -/
theorem tellLeaving_peaceful (world : World A) (id told : SessionId) (reason : DisconnectReason)
    (source : ConnectionState) (observers : List A.Observer) :
    ((world.tell told source .disconnecting observers).andThen (.leaving id reason)
      (closeTransport · id reason)).Peaceful HostFlush.failing world := by
  cases observers with
  | nil =>
    refine ⟨fun _ => .refl world, fun query rest hasks => ?_⟩
    cases hasks
    exact True.intro
  | cons observer rest =>
    refine ⟨fun _ => .refl world, fun query left hasks => ?_⟩
    cases hasks
    exact rfl

theorem resumeDisconnect_peaceful (world : World A) (reply : Reply) {rest : Disconnect A} (h : rest.Winds) :
    (rest.resume world reply).Peaceful HostFlush.failing world := by
  cases rest with
  | flushing other reason flush => exact False.elim h
  | leaving other reason rest =>
    cases rest with
    | telling told source target observers =>
      obtain rfl : target = .disconnecting := h
      exact world.tellLeaving_peaceful other told reason source observers
    | parting told reason observers => exact False.elim h
  | closing => exact peaceful_finish world ()

theorem tick_peaceful (world : World A) (id : SessionId) :
    (world.tick id).Peaceful (HostFlush.flushing id) world :=
  ⟨fun _ => (world.tick_still id).same, fun _ _ _ => True.intro⟩

/-- **A failed transmit** ends the session for what the transport reported, if it is open, and nothing else. -/
theorem settleFlush_blamed (world : World A) (id : SessionId) (failure : Failure) :
    (world.settleFlush id (.error (.transport failure))).Peaceful (fun rest => rest) (world.blamed id failure) := by
  have hfinish (world : World A) :
      (.finish world {} : Activity A (HostFlush A) TickSummary).Peaceful (fun rest => rest) world :=
    peaceful_finish world _
  have hsettle : world.settleFlush id (.error (.transport failure)) =
      (world.disconnect id (FlushError.transport failure).reason false).andThen .failing
        fun world _ => .finish world {} := rfl
  rw [hsettle]
  unfold blamed
  cases hclosing : (world.session id).state.isClosing with
  | true =>
    rw [disconnect_of_closing hclosing, if_pos rfl]
    exact hfinish world
  | false =>
    rw [disconnect_of_open hclosing, if_neg Bool.false_ne_true]
    exact (tellLeaving_peaceful _ id id _ _ _).andThen (fun _ => rfl) fun _ _ => hfinish _

/-- **A host's tick of a session** leaves all lives alone until the transport has its say. -/
theorem flushSession_peaceful (h : world.Accountable) (id : SessionId) :
    (world.flushSession id).Peaceful (fun rest => rest) world := by
  refine (world.tick_peaceful id).andThen (fun _ => rfl) fun result hdone => ?_
  cases result with
  | ok summary => exact peaceful_finish _ summary
  | error e => exact absurd hdone (tick_ne_error (h.accounted id))

theorem hostTick_peaceful (h : world.Accountable) (id : SessionId) :
    (world.hostTick id).Peaceful (fun rest => rest) world := by
  unfold hostTick
  split
  · exact flushSession_peaceful h id
  · exact peaceful_finish world _

theorem sweep_peaceful : ∀ (ids : List SessionId) {world : World A} (total : TickSummary), world.Accountable →
    (world.sweep total ids).Peaceful Sweep.current world
  | [], world, total, _ => peaceful_finish world total
  | id :: rest, world, _, h =>
    (flushSession_peaceful h id).andThen (fun _ => rfl) fun _ _ =>
      sweep_peaceful rest _ (h.upkeep (world.flushSession_upkeep id))

theorem sameLife_settleTick (world : World A) (number : Nat) (id : SessionId) :
    world.SameLife id (world.settleTick number) := by
  unfold settleTick
  split
  · exact ⟨rfl, rfl, rfl⟩
  · exact .refl world
  · exact .refl world
  · exact .refl world

theorem finishTick_peaceful (world : World A) (number : Nat) :
    (.finish (world.settleTick number) true : Activity A (Sweep A) Bool).Peaceful Sweep.current world :=
  (peaceful_finish _ true).before (world.sameLife_settleTick number)

theorem wakeLoop_peaceful (h : world.Accountable) (number now : Nat) (order : Enumeration) :
    (world.wakeLoop number now order).Peaceful Sweep.current world := by
  unfold wakeLoop
  split
  · rename_i due _
    split
    · exact peaceful_finish world false
    · have hset : (world.setLoop number (.ticking (nextTick world.config.tickInterval due now))).Accountable :=
        h.upkeep (upkeep_notes rfl rfl rfl)
      have hsame (id : SessionId) :
          world.SameLife id (world.setLoop number (.ticking (nextTick world.config.tickInterval due now))) :=
        ⟨rfl, rfl, rfl⟩
      exact ((sweep_peaceful _ {} hset).andThen (fun _ => rfl) fun _ _ => finishTick_peaceful _ number).before hsame
  · exact peaceful_finish world false
  · exact peaceful_finish world false
  · exact peaceful_finish world false

/-- What the reply to a host's flush means to the lives of the sessions. -/
def ruled (world : World A) (reply : Reply) : HostFlush A → World A
  | .flushing id _ =>
    match reply with
    | .failed failure => world.blamed id failure
    | .done | .endSession _ => world
  | .failing _ => world

variable {scope : SessionId → Prop} {query : Query A}

/-- **A host's flush that goes on** leaves all lives alone, but for that of a session that its transport failed. -/
theorem resumeHostFlush_peaceful (h : world.Accountable) (reply : Reply) {rest : HostFlush A} (hwinds : rest.Winds)
    (hawaits : rest.Awaits scope query) :
    (rest.resume world reply).Peaceful (fun rest => rest) (world.ruled reply rest) := by
  cases rest with
  | failing rest =>
    unfold HostFlush.resume ruled
    exact (world.resumeDisconnect_peaceful reply hwinds).andThen (fun _ => rfl) fun _ _ => peaceful_finish _ _
  | flushing id flush =>
    obtain ⟨-, rfl, -⟩ := hawaits
    have hfirst : (flush.resume world reply).Peaceful (HostFlush.flushing flush.id) world :=
      ⟨fun _ => (world.resumeFlush_still flush reply).same, fun _ _ _ => True.intro⟩
    have htaken (hreply : ∀ failure, reply ≠ .failed failure) :
        ((HostFlush.flushing flush.id flush : HostFlush A).resume world reply).Peaceful (fun rest => rest) world := by
      unfold HostFlush.resume
      refine hfirst.andThen (fun _ => rfl) fun result hdone => ?_
      cases result with
      | ok summary => exact peaceful_finish _ summary
      | error e =>
        obtain ⟨failure, heq, -⟩ := resumeFlush_error (h.accounted flush.id) hdone
        exact absurd heq (hreply failure)
    cases reply with
    | failed failure =>
      exact (settleFlush_blamed _ flush.id failure).before
        (sameLife_blamed (fun id => (hfirst.same id)) flush.id failure)
    | done => exact htaken fun _ heq => by cases heq
    | endSession graceful => exact htaken fun _ heq => by cases heq

theorem resumeSweep_peaceful (h : world.Accountable) (reply : Reply) {sweep : Sweep A} (hwinds : sweep.current.Winds)
    (hawaits : sweep.Awaits scope query) :
    (sweep.resume world reply).Peaceful Sweep.current (world.ruled reply sweep.current) :=
  (resumeHostFlush_peaceful h reply hwinds hawaits.2).andThen (fun _ => rfl) fun _ _ =>
    sweep_peaceful sweep.rest _ (h.upkeep (world.resumeHostFlush_upkeep reply sweep.current))

theorem resumeTick_peaceful (h : world.Accountable) (reply : Reply) (number : Nat) {sweep : Sweep A}
    (hwinds : sweep.current.Winds) (hawaits : sweep.Awaits scope query) :
    (world.resumeTick reply number sweep).Peaceful Sweep.current (world.ruled reply sweep.current) :=
  (resumeSweep_peaceful h reply hwinds hawaits).andThen (fun _ => rfl) fun _ _ => finishTick_peaceful _ number

end World

/-! ## Calls and moves -/

/-- The call flushes sessions of the host: one of them, or all, at a call or as a tick of a flush loop. -/
def Call.FlushesHost : Call A → Prop
  | hostTick _ | hostFlushAll _ | wakeLoop _ _ _ => True
  | _ => False

/-- The host's flush that a call is in the middle of. -/
def Suspended.hostFlush? : Suspended A → Option (HostFlush A)
  | hostTick rest => some rest
  | sweep rest | loop _ rest => some rest.current
  | transition _ | tick _ | disconnect _ | dispatch _ | report _ | arrival _ | shutdown _ => none

/-- What is left of a host's flush, if the call is in the middle of one, winds it up. -/
def Suspended.Winds (rest : Suspended A) : Prop := ∀ flush, rest.hostFlush? = some flush → flush.Winds

theorem Suspended.awaits_hostFlush {rest : Suspended A} {flush : HostFlush A} (hflush : rest.hostFlush? = some flush)
    {scope : SessionId → Prop} {query : Query A} (h : rest.Awaits scope query) : flush.Awaits scope query := by
  cases rest with
  | hostTick rest =>
    cases hflush
    exact h
  | sweep rest =>
    cases hflush
    exact h.2
  | loop number rest =>
    cases hflush
    exact h.2
  | _ => cases hflush

theorem Call.flushesHost_of_leaves {call : Call A} {rest : Suspended A} (h : call.Leaves rest) :
    call.FlushesHost ↔ rest.hostFlush?.isSome = true := by
  cases call <;> cases rest <;> first
    | exact False.elim h
    | simp [FlushesHost, Suspended.hostFlush?]

/-- A flush that a call begins does not fail at once. -/
theorem Call.begin_ne_error {world last : World A} (h : world.Accountable) (call : Call A) (e : FlushError) :
    call.begin world ≠ .finish last (.flushed (.error e)) := by
  intro heq
  cases call with
  | tick id =>
    obtain ⟨result, htick, hresult⟩ := Call.wrap_eq_finish heq
    cases hresult
    exact World.tick_ne_error (h.accounted id) (congrArg Activity.progress htick)
  | hostDisconnect id reason flushFirst =>
    rw [begin] at heq
    cases htracks : world.tracks id with
    | true =>
      rw [if_pos htracks] at heq
      obtain ⟨_, -, hresult⟩ := Call.wrap_eq_finish heq
      cases hresult
    | false =>
      rw [if_neg (Bool.eq_false_iff.1 htracks)] at heq
      cases heq
  | authenticate | enqueue | receive | outboxEnqueue | outboxFlush | outboxClose | addObserver | hostOpen | hostEnqueue
  | startLoop => cases heq
  | _ =>
    obtain ⟨_, -, hresult⟩ := Call.wrap_eq_finish heq
    cases hresult

/-- **A flush that a call goes on with** fails as the transport has failed it. -/
theorem Suspended.resume_error {world last : World A} (h : world.Accountable) {reply : Reply} {rest : Suspended A}
    {scope : SessionId → Prop} {query : Query A} (hawaits : rest.Awaits scope query) {e : FlushError}
    (heq : rest.resume world reply = .finish last (.flushed (.error e))) :
    ∃ id data failure, query = .transmit id data ∧ reply = .failed failure ∧ e = .transport failure := by
  cases rest with
  | tick rest =>
    obtain ⟨result, hresume, hresult⟩ := Call.wrap_eq_finish heq
    cases hresult
    obtain ⟨failure, hreply, he⟩ :=
      World.resumeFlush_error (h.accounted rest.id) (congrArg Activity.progress hresume)
    obtain ⟨-, -, hquery⟩ := hawaits
    exact ⟨_, _, failure, hquery, hreply, he⟩
  | _ =>
    obtain ⟨_, -, hresult⟩ := Call.wrap_eq_finish heq
    cases hresult

theorem Activity.Peaceful.wrap {inside : κ → HostFlush A} {start : World A} {first : Activity A κ α}
    (h : first.Peaceful inside start) {within : κ → Suspended A} (answer : α → Answer)
    (hwithin : ∀ rest, (within rest).hostFlush? = some (inside rest)) :
    (∀ id, start.SameLife id (Call.wrap first within answer).world) ∧
      ∀ query rest, (Call.wrap first within answer).progress = .asks query rest → rest.Winds := by
  refine ⟨fun id => ?_, fun query rest hasks flush hflush => ?_⟩
  · rw [Call.world_wrap]
    exact h.same id
  · have hask : Call.wrap first within answer = .ask (Call.wrap first within answer).world query rest := by
      rw [Activity.ask, ← hasks]
    obtain ⟨left, hfirst, rfl⟩ := Call.wrap_eq_ask hask
    rw [hwithin] at hflush
    cases hflush
    exact h.winds query left (congrArg Activity.progress hfirst)

/-- **A call that flushes sessions of the host** leaves all lives alone until a transport has its say. -/
theorem Call.begin_peaceful {world : World A} (h : world.Accountable) {call : Call A} (hflushes : call.FlushesHost) :
    (∀ id, world.SameLife id (call.begin world).world) ∧
      ∀ query rest, (call.begin world).progress = .asks query rest → rest.Winds := by
  cases call with
  | hostTick id => exact (World.hostTick_peaceful h id).wrap _ fun _ => rfl
  | hostFlushAll _ => exact (World.sweep_peaceful _ _ h).wrap _ fun _ => rfl
  | wakeLoop number now order => exact (World.wakeLoop_peaceful h number now order).wrap _ fun _ => rfl
  | _ => cases hflushes

theorem Suspended.resume_peaceful {world : World A} (h : world.Accountable) (reply : Reply) {rest : Suspended A}
    {flush : HostFlush A} (hflush : rest.hostFlush? = some flush) (hwinds : flush.Winds) {scope : SessionId → Prop}
    {query : Query A} (hawaits : rest.Awaits scope query) :
    (∀ id, (world.ruled reply flush).SameLife id (rest.resume world reply).world) ∧
      ∀ query rest', (rest.resume world reply).progress = .asks query rest' → rest'.Winds := by
  cases rest with
  | hostTick rest =>
    cases hflush
    exact (World.resumeHostFlush_peaceful h reply hwinds hawaits).wrap _ fun _ => rfl
  | sweep rest =>
    cases hflush
    exact (World.resumeSweep_peaceful h reply hwinds hawaits).wrap _ fun _ => rfl
  | loop number rest =>
    cases hflush
    exact (World.resumeTick_peaceful h reply number hwinds hawaits).wrap _ fun _ => rfl
  | _ => cases hflush

/-- The transport returns from a transmit for the session with this failure. -/
def Event.FailsWith (id : SessionId) (failure : Failure) (event : Event A) : Prop :=
  ∃ data signal, event = .returned (.transmit id data) (.failed failure) signal

/-- The event leaves the life of the session alone, or the transport has failed the session in it, and it ends the life
of the session for that. -/
structure Event.Judges (id : SessionId) (event : Event A) (world next : World A) : Prop where
  stays : (∀ failure, ¬ event.FailsWith id failure) → world.SameLife id next
  fails : ∀ failure, event.FailsWith id failure → (world.blamed id failure).SameLife id next

namespace Event

variable {event : Event A} {world middle next : World A}

theorem Judges.trans (h : event.Judges id world middle) (hsame : middle.SameLife id next) :
    event.Judges id world next where
  stays := fun hnever => (h.stays hnever).trans hsame
  fails := fun failure hfails => (h.fails failure hfails).trans hsame

theorem judges_of_call {call : Call A} {signal : Signal A} (hsame : world.SameLife id next) :
    (called call signal).Judges id world next where
  stays := fun _ => hsame
  fails := fun failure hfails => by
    obtain ⟨_, _, heq⟩ := hfails
    cases heq

/-- **What the reply means** to a session that the transport did not fail, or did. -/
theorem judges_ruled (id : SessionId) (world : World A) (reply : Reply) (signal : Signal A) {flush : HostFlush A}
    {scope : SessionId → Prop} {query : Query A} (hwinds : flush.Winds) (hawaits : flush.Awaits scope query) :
    (returned query reply signal).Judges id world (world.ruled reply flush) := by
  cases flush with
  | failing rest =>
    refine ⟨fun _ => .refl world, fun failure hfails => ?_⟩
    obtain ⟨data, _, heq⟩ := hfails
    cases heq
    cases rest with
    | flushing other reason flush => exact False.elim hwinds
    | leaving other reason rest => cases hawaits.2.2.1
    | closing => cases hawaits.1
  | flushing other flush =>
    obtain ⟨-, -, rfl⟩ := hawaits
    refine ⟨fun hnever => ?_, fun failure hfails => ?_⟩
    · cases reply with
      | done => exact .refl world
      | endSession graceful => exact .refl world
      | failed failure =>
        have hother : other ≠ id := by
          rintro rfl
          exact hnever failure ⟨_, _, rfl⟩
        show world.SameLife id (world.blamed other failure)
        unfold World.blamed
        split
        · exact .refl world
        · exact ⟨by rw [World.session_put_of_ne _ _ hother], by rw [World.session_put_of_ne _ _ hother], rfl⟩
    · obtain ⟨data, _, heq⟩ := hfails
      cases heq
      exact .refl _

end Event

namespace Machine

variable {machine next last : Machine A} {move : Move A} {event : Event A}

/-- The move begins a host's flush, or goes on with one. -/
def FlushesHost (machine : Machine A) : Move A → Prop
  | .call call => call.FlushesHost
  | .reply _ => ∃ innermost outer, machine.waiting = innermost :: outer ∧ innermost.rest.hostFlush?.isSome = true

/-- Everything is in order, every outbox is accounted for, and the host's flushes that wait wind up. -/
structure Blameless (machine : Machine A) : Prop where
  order : machine.InOrder
  accountable : machine.world.Accountable
  winds : ∀ waiting ∈ machine.waiting, waiting.rest.Winds

namespace Blameless

/-- **A host's flush and the lives of the sessions.**  A move of a host's flush leaves the life of a session alone, or
it is the one at which the transport failed the session, and then ends its life for that. -/
theorem judges (h : machine.Blameless) (hmove : machine.move move = some (next, event))
    (hflushes : machine.FlushesHost move) (id : SessionId) : event.Judges id machine.world next.world := by
  have hcalled {call : Call A} {signal : Signal A} (hevent : event = .called call signal)
      (hworld : (call.begin machine.world).world = next.world) : event.Judges id machine.world next.world := by
    subst hevent
    obtain rfl := move_of_called hmove
    exact Event.judges_of_call (hworld ▸ (Call.begin_peaceful h.accountable hflushes).1 id)
  have hreturned {innermost : Waiting A} {outer : List (Waiting A)} {reply : Reply} {signal : Signal A}
      (hinnermost : machine.waiting = innermost :: outer) (hevent : event = .returned innermost.query reply signal)
      (hworld : (innermost.rest.resume machine.world reply).world = next.world) :
      event.Judges id machine.world next.world := by
    subst hevent
    obtain rfl := move_of_returned hmove
    obtain ⟨_, _, heq, hsome⟩ := hflushes
    cases hinnermost.symm.trans heq
    obtain ⟨flush, hflush⟩ := Option.isSome_iff_exists.1 hsome
    have hmem : innermost ∈ machine.waiting := hinnermost ▸ List.mem_cons_self
    have hwinds := h.winds innermost hmem flush hflush
    have hawaits := (h.order.waiting innermost hmem).awaits
    have hsame := (Suspended.resume_peaceful h.accountable reply hflush hwinds hawaits).1 id
    rw [hworld] at hsame
    exact (Event.judges_ruled id machine.world reply signal hwinds (Suspended.awaits_hostFlush hflush hawaits)).trans
      hsame
  have hturns := h.order.turns hmove
  cases hturns with
  | begins hactivity => exact hcalled rfl (congrArg Activity.world hactivity)
  | passes hactivity => exact hcalled rfl (congrArg Activity.world hactivity)
  | goesOn hinnermost hactivity => exact hreturned hinnermost rfl (congrArg Activity.world hactivity)
  | ends hinnermost hactivity => exact hreturned hinnermost rfl (congrArg Activity.world hactivity)

variable {world : World A} {query : Query A} {rest : Suspended A}

theorem winds_of_begin (h : machine.Blameless) {call : Call A}
    (hactivity : call.begin machine.world = .ask world query rest) (hleaves : call.Leaves rest) : rest.Winds := by
  intro flush hflush
  have hflushes : call.FlushesHost := (Call.flushesHost_of_leaves hleaves).2 (by rw [hflush]; rfl)
  exact (Call.begin_peaceful h.accountable hflushes).2 query rest (congrArg Activity.progress hactivity) flush hflush

theorem winds_of_resume (h : machine.Blameless) {innermost : Waiting A} (hmem : innermost ∈ machine.waiting)
    {reply : Reply} (hactivity : innermost.rest.resume machine.world reply = .ask world query rest)
    (hleaves : ∀ call : Call A, call.Leaves innermost.rest → call.Leaves rest) : rest.Winds := by
  intro flush hflush
  -- what is left is of the call that it was left of before
  obtain ⟨call, hcall⟩ := Call.exists_leaves innermost.rest
  have hflushes : call.FlushesHost := (Call.flushesHost_of_leaves (hleaves call hcall)).2 (by rw [hflush]; rfl)
  obtain ⟨current, hcurrent⟩ := Option.isSome_iff_exists.1 ((Call.flushesHost_of_leaves hcall).1 hflushes)
  exact (Suspended.resume_peaceful h.accountable reply hcurrent (h.winds innermost hmem current hcurrent)
    (h.order.waiting innermost hmem).awaits).2 query rest (congrArg Activity.progress hactivity) flush hflush

/-- **Every move keeps a machine blameless.** -/
theorem step (h : machine.Blameless) (hmove : machine.move move = some (next, event))
    (hdirect : ∀ id payload, move = .call (.outboxEnqueue id payload) → payload.length < lengthLimit) :
    next.Blameless where
  order := h.order.move hmove
  accountable := by
    obtain ⟨handled, hupkeep⟩ := move_upkeep hmove
    exact (Move.primes_accountable h.accountable hdirect).upkeep hupkeep
  winds := by
    intro waiting hmem
    have hturns := h.order.turns hmove
    cases hturns with
    | begins hactivity hleaves _ hwaiting =>
      rcases List.mem_cons.1 (hwaiting ▸ hmem) with rfl | hmem
      · exact h.winds_of_begin hactivity hleaves
      · exact h.winds waiting hmem
    | passes hactivity hwaiting => exact h.winds waiting (hwaiting ▸ hmem)
    | goesOn hinnermost hactivity hleaves _ hwaiting =>
      rcases List.mem_cons.1 (hwaiting ▸ hmem) with rfl | hmem
      · exact h.winds_of_resume (hinnermost ▸ List.mem_cons_self) hactivity hleaves
      · exact h.winds waiting (hinnermost ▸ List.mem_cons_of_mem _ hmem)
    | ends hinnermost hactivity hwaiting =>
      exact h.winds waiting (hinnermost ▸ List.mem_cons_of_mem _ (hwaiting ▸ hmem))

/-- **Every run keeps a machine blameless.** -/
theorem run {moves : List (Move A)} {events : List (Event A)} (h : machine.Blameless)
    (hrun : machine.run moves = some (last, events))
    (hdirect : ∀ id payload, .call (.outboxEnqueue id payload) ∈ moves → payload.length < lengthLimit) :
    last.Blameless :=
  run_invariant_of_mem (motive := fun _ machine => machine.Blameless)
    (fun hmem h hmove => h.step hmove fun id payload heq => hdirect id payload (heq ▸ hmem)) h hrun

/-- The session that a transport fails was started. -/
theorem issued (h : machine.Blameless) (hmove : machine.move move = some (next, event)) {failure : Failure}
    (hfails : event.FailsWith id failure) : id.number < machine.world.ids.next := by
  obtain ⟨data, signal, rfl⟩ := hfails
  obtain rfl := move_of_returned hmove
  obtain ⟨innermost, outer, _, hinnermost, heq, -⟩ := of_move_reply hmove
  have hknown := (h.order.waiting innermost (hinnermost ▸ List.mem_cons_self)).awaits.within
  obtain ⟨hquery, -, -⟩ := Event.returned.inj heq
  rw [← hquery] at hknown
  exact ((h.order.world.started id).1 hknown).2

/-- An answer that a flush has failed names the failure of the transport that the flush was told of. -/
theorem answers (h : machine.Blameless) (hmove : machine.move move = some (next, event)) {e : FlushError}
    (hanswers : event.signal = .answers (.flushed (.error e))) :
    ∃ id failure, event.FailsWith id failure ∧ e = .transport failure := by
  have hturns := h.order.turns hmove
  cases hturns with
  | begins | goesOn => cases hanswers
  | passes hactivity =>
    cases hanswers
    exact absurd hactivity (Call.begin_ne_error h.accountable _ e)
  | @ends innermost outer reply answer hinnermost hactivity =>
    cases hanswers
    have hawaits := (h.order.waiting innermost (hinnermost ▸ List.mem_cons_self)).awaits
    obtain ⟨id, data, failure, hquery, rfl, he⟩ := Suspended.resume_error h.accountable hawaits hactivity
    exact ⟨id, failure, ⟨data, _, by rw [hquery]⟩, he⟩

/-- **A session that the transport failed** is closing from then on; if it was open, for what the transport reported
unless something else was noted before. -/
theorem ends (h : machine.Blameless) (hmove : machine.move move = some (next, event))
    (hflushes : machine.FlushesHost move) {failure : Failure} (hfails : event.FailsWith id failure)
    {later : List (Move A)} {rest : List (Event A)} (hlater : next.run later = some (last, rest)) :
    (last.world.session id).state.isClosing = true ∧
      ((machine.world.session id).state.isClosing = false → (last.world.session id).reason =
        some ((machine.world.session id).reason.getD (FlushError.transport failure).reason)) := by
  have hissued : id.number < next.world.ids.next := ((move_edits hmove).rank_le (h.issued hmove hfails)).2
  have hsame := (h.judges hmove hflushes id).fails failure hfails
  have hedits := run_edits later hlater
  cases hclosing : (machine.world.session id).state.isClosing with
  | true =>
    rw [World.blamed, if_pos hclosing] at hsame
    refine ⟨hedits.isClosing hissued ?_, fun hopen => by cases hopen⟩
    rw [hsame.state]
    exact hclosing
  | false =>
    have hblamed : (machine.world.blamed id failure).session id =
        ((machine.world.session id).noteReason (FlushError.transport failure).reason).enter .disconnecting := by
      rw [World.blamed, if_neg (Bool.eq_false_iff.1 hclosing), World.session_put_self]
    refine ⟨hedits.isClosing hissued ?_, fun _ => hedits.reason hissued ?_⟩
    · rw [hsame.state, hblamed, World.state_enter]
      rfl
    · rw [hsame.reason, hblamed, World.reason_enter, Session.noteReason]
      cases (machine.world.session id).reason <;> rfl

end Blameless

theorem blameless_ofConfig {config : HostConfig} {world : World A} (hworld : World.ofConfig config = .ok world)
    (hlimit : config.session.maxMessageSize < lengthLimit) : (⟨world, []⟩ : Machine A).Blameless where
  order := inOrder_ofConfig hworld
  accountable := World.accountable_ofConfig hworld hlimit
  winds := fun _ hmem => absurd hmem List.not_mem_nil

/-- **Whose fault it is.**  Take any run of a host, with any calls in any order, also from within transports, observers
and handlers, in which no payload is taken in that a header cannot describe, and one move more.  The library's own
steps lead from what the move does at once to where it ends, and wherever such steps lead, no outbox refuses a flush,
and a flush fails only if the transport does.  A flush that is answered to have failed has failed as the transport did.
If the move is of a flush of the host, then it leaves the state and the reason of every session alone, unless the
transport returns a failure to a transmit for the session.  Then a session that was closing stays as it was, and one
that was open is closing from then on.  If no reason had been noted for it before, the reason is a violated contract if
the failure is a queue error, under whatever context, and a lost transport otherwise, also if a queue error has only
caused it.  So where no failure is a queue error, no flush of the host notes a violated contract. -/
theorem blame_lies_with_transport {config : HostConfig} {world : World A} {moves : List (Move A)} {move : Move A}
    {last next : Machine A} {events : List (Event A)} {event : Event A} (hworld : World.ofConfig config = .ok world)
    (hlimit : config.session.maxMessageSize < lengthLimit)
    (hdirect : ∀ id payload, .call (.outboxEnqueue id payload) ∈ moves ++ [move] → payload.length < lengthLimit)
    (hrun : (⟨world, []⟩ : Machine A).run moves = some (last, events))
    (hmove : last.move move = some (next, event)) :
    (∃ handled, (move.primes last.world).Upkeep handled next.world) ∧
    (∀ handled middle, (move.primes last.world).Upkeep handled middle → middle.FlushesSafely) ∧
    (∀ e, event.signal = .answers (.flushed (.error e)) →
      ∃ id failure, event.FailsWith id failure ∧ e = .transport failure) ∧
    (last.FlushesHost move → ∀ id,
      ((∀ failure, ¬ event.FailsWith id failure) ∨ (last.world.session id).state.isClosing = true →
        (next.world.session id).state = (last.world.session id).state ∧
        (next.world.session id).reason = (last.world.session id).reason) ∧
      ∀ failure, event.FailsWith id failure → ∀ later final rest, next.run later = some (final, rest) →
        (final.world.session id).state.isClosing = true ∧
        ((last.world.session id).state.isClosing = false → (final.world.session id).reason =
          some ((last.world.session id).reason.getD
            (if failure.queueError.isSome then .contractViolation else .transportClosed)))) ∧
    (last.FlushesHost move → (∀ id failure, event.FailsWith id failure → failure.queueError = none) → ∀ id,
      (next.world.session id).reason = some .contractViolation →
        (last.world.session id).reason = some .contractViolation) := by
  have hblameless : last.Blameless := (blameless_ofConfig hworld hlimit).run hrun fun id payload hmem =>
    hdirect id payload (List.mem_append_left _ hmem)
  have hmoved (id : SessionId) (payload : Payload) (heq : move = .call (.outboxEnqueue id payload)) :
      payload.length < lengthLimit :=
    hdirect id payload (List.mem_append_right _ (List.mem_singleton.2 heq.symm))
  have hquiet (hflushes : last.FlushesHost move) (id : SessionId)
      (h : (∀ failure, ¬ event.FailsWith id failure) ∨ (last.world.session id).state.isClosing = true) :
      last.world.SameLife id next.world := by
    have hjudges := hblameless.judges hmove hflushes id
    by_cases hfailed : ∃ failure, event.FailsWith id failure
    · obtain ⟨failure, hfailed⟩ := hfailed
      have hclosing := h.resolve_left fun hnever => hnever failure hfailed
      have hsame := hjudges.fails failure hfailed
      rwa [World.blamed, if_pos hclosing] at hsame
    · exact hjudges.stays fun failure hfails => hfailed ⟨failure, hfails⟩
  refine ⟨move_upkeep hmove, fun handled middle hupkeep => ?_, fun e => hblameless.answers hmove,
    fun hflushes id => ⟨fun h => ?_, ?_⟩, fun hflushes hnone id hviolated => ?_⟩
  · exact ((Move.primes_accountable hblameless.accountable hmoved).upkeep hupkeep).flushesSafely
  · exact ⟨(hquiet hflushes id h).state, (hquiet hflushes id h).reason⟩
  · exact fun failure hfails later final rest => hblameless.ends hmove hflushes hfails
  · by_cases hfailed : ∃ failure, event.FailsWith id failure
    · obtain ⟨failure, hfails⟩ := hfailed
      cases hclosing : (last.world.session id).state.isClosing with
      | true => rwa [(hquiet hflushes id (.inr hclosing)).reason] at hviolated
      | false =>
        have hnow : next.run [] = some (next, []) := rfl
        have hlost : (FlushError.transport failure).reason = .transportClosed := by
          rw [FlushError.reason, FlushError.queueError, hnone id failure hfails]
          rfl
        have hnoted := (hblameless.ends hmove hflushes hfails hnow).2 hclosing
        rw [hviolated, hlost] at hnoted
        cases hreason : (last.world.session id).reason with
        | none =>
          rw [hreason] at hnoted
          cases hnoted
        | some reason =>
          rw [hreason] at hnoted
          exact hnoted.symm
    · rwa [(hquiet hflushes id (.inl fun failure hfails => hfailed ⟨failure, hfails⟩)).reason] at hviolated

/-- A session is opened and connected and takes in a payload, and its host's flush transmits for it. -/
def transmitting : List (Move .bare) :=
  [.call .hostOpen, .call (.hostReport ⟨1⟩ .connected), .call (.hostEnqueue ⟨1⟩ [7]), .call .hostFlushAll]

/-- The transport fails with a queue error, because it has used an outbox wrongly itself. -/
def misused : Failure := ⟨"busy", some .flushInProgress⟩

theorem blame_lies_with_transport_misused :
    ∃ (last next : Machine .bare) (events : List (Event .bare)) (event : Event .bare),
      (⟨{}, []⟩ : Machine .bare).run transmitting = some (last, events) ∧
      last.move (.reply (.failed misused)) = some (next, event) ∧
      last.FlushesHost (.reply (.failed misused)) ∧ event.FailsWith ⟨1⟩ misused ∧
      (next.world.session ⟨1⟩).state.isClosing = true ∧
      (next.world.session ⟨1⟩).reason = some .contractViolation := by
  have hworld : World.ofConfig {} = .ok ({} : World .bare) := rfl
  obtain ⟨last, next, events, event, hrun, hmove, hflushes, hfails, hopen, hreason⟩ :
      ∃ (last next : Machine .bare) (events : List (Event .bare)) (event : Event .bare),
        (⟨{}, []⟩ : Machine .bare).run transmitting = some (last, events) ∧
        last.move (.reply (.failed misused)) = some (next, event) ∧
        last.FlushesHost (.reply (.failed misused)) ∧ event.FailsWith ⟨1⟩ misused ∧
        (last.world.session ⟨1⟩).state.isClosing = false ∧ (last.world.session ⟨1⟩).reason = none :=
    ⟨_, _, _, _, rfl, rfl, ⟨_, _, rfl, rfl⟩, ⟨_, _, rfl⟩, rfl, rfl⟩
  have hdirect : ∀ id payload, Move.call (.outboxEnqueue id payload) ∈ transmitting ++ [.reply (.failed misused)] →
      payload.length < lengthLimit := by
    intro id payload hmem
    simp [transmitting] at hmem
  obtain ⟨-, -, -, hends, -⟩ := blame_lies_with_transport hworld (by decide) hdirect hrun hmove
  obtain ⟨hclosing, hnoted⟩ := (hends hflushes ⟨1⟩).2 misused hfails [] next [] rfl
  have hviolated := hnoted hopen
  rw [hreason] at hviolated
  exact ⟨last, next, events, event, hrun, hmove, hflushes, hfails, hclosing, hviolated⟩

/-- A session of which no reason was ever noted has none after a failed transmit either, if the transport moved it to
Disconnecting before it returned. -/
theorem left_before_failure :
    ∃ (last next : Machine .bare) (events : List (Event .bare)) (event : Event .bare),
      (⟨{}, []⟩ : Machine .bare).run (transmitting ++ [.call (.transition ⟨1⟩ .disconnecting)]) = some (last, events) ∧
      last.move (.reply (.failed ⟨"reset", none⟩)) = some (next, event) ∧
      last.FlushesHost (.reply (.failed ⟨"reset", none⟩)) ∧ event.FailsWith ⟨1⟩ ⟨"reset", none⟩ ∧
      next.waiting.isEmpty = true ∧
      (last.world.session ⟨1⟩).reason = none ∧ (next.world.session ⟨1⟩).reason = none :=
  ⟨_, _, _, _, rfl, rfl, ⟨_, _, rfl, rfl⟩, ⟨_, _, rfl⟩, rfl, rfl, rfl⟩

end Machine

end FramedLink
