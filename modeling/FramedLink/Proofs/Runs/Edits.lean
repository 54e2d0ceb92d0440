import FramedLink.Machine
/-!
# Edits of a world

Whatever is called, and however deep the calls nest, a world changes by a few kinds of edits (`World.Edit`).  Most of
them change one session (`Session.Edit`).  An edit is marked with what it means to the outgoing stream of a session:
data was handed to the transport, a payload was accepted, or outside code took the outbox in its own hands.

Main statement: what every edit keeps is kept by a chain of them (`World.Edits.invariant`).
-/
namespace FramedLink

/-- What an edit of a session means to its outgoing stream. -/
inductive Deed where
  | sent (data : List UInt8)
  | accepted (payload : Payload)
  | direct
deriving DecidableEq

/-- A deed, and the session that it is about. -/
structure Mark where
  session : SessionId
  deed : Deed
deriving DecidableEq

/-- The deed of a flush that put out some bytes. -/
def Deed.ofOutput (bytes : List UInt8) : List Deed := if bytes.isEmpty then [] else [sent bytes]

/-- The deed of a payload that was taken in or refused. -/
def Deed.ofAnswer (payload : Payload) (accepted : Bool) : List Deed := if accepted then [.accepted payload] else []

inductive Session.Edit {ι : Type} (session : Session ι) : List Deed → Session ι → Prop where
  | enter {next : ConnectionState} (h : session.state.canTransitionTo next = true) :
      Edit session [] (session.enter next)
  | authenticate (identity : Option ι) : Edit session [] (session.authenticate identity).1
  | noteReason (reason : DisconnectReason) : Edit session [] (session.noteReason reason)
  | enqueue (payload : Payload) :
      Edit session (Deed.ofAnswer payload (session.enqueue payload).2) (session.enqueue payload).1
  | flushing (on : Bool) : Edit session [] { session with flushing := on }
  | drain {limit : Limit} {box : Outbox} {output : Output}
      (h : session.outbox.drain session.config.transmitBufferSize limit = (box, .ok output)) :
      Edit session (Deed.ofOutput output.bytes) { session with outbox := box }
  | drainFails {limit : Limit} {box : Outbox} {e : QueueError}
      (h : session.outbox.drain session.config.transmitBufferSize limit = (box, .error e)) :
      Edit session [] { session with outbox := box }
  | countTransmitted (bytes : Nat) : Edit session [] (session.countTransmitted bytes)
  | receive (chunk : List UInt8) : Edit session [] (session.receive chunk).1
  | countHandled : Edit session [] session.countHandled
  | outboxEnqueue (payload : Payload) :
      Edit session [.direct] { session with outbox := (session.outbox.enqueue payload).1 }
  | outboxFlush (buffer : List UInt8) (offset : Nat) (limit : Limit) :
      Edit session [.direct] { session with outbox := (session.outbox.flush buffer offset limit).1 }
  | outboxClose : Edit session [] { session with outbox := session.outbox.close }

namespace World

variable {A : Application}

inductive Edit (world : World A) : List Mark → World A → Prop where
  | session {id : SessionId} {deeds : List Deed} {next : Session A.Identity}
      (h : (world.session id).Edit deeds next) : Edit world (deeds.map (Mark.mk id)) (world.put id next)
  | addObserver (observer : A.Observer) : Edit world [] (world.addObserver observer)
  | openSession : Edit world [] world.openSession.1
  | forget (id : SessionId) : Edit world [] (world.forget id)
  | shutDown : Edit world [] { world with isShutDown := true }
  | setLoop (number : Nat) (loop : FlushLoop) : Edit world [] (world.setLoop number loop)
  | startLoop (now : Nat) : Edit world [] (world.startLoop now).1

inductive Edits : World A → List Mark → World A → Prop where
  | none (world : World A) : Edits world [] world
  | more {world middle last : World A} {marks later : List Mark} (h : world.Edit marks middle)
      (rest : Edits middle later last) : Edits world (marks ++ later) last

theorem Edit.once {world last : World A} {marks : List Mark} (h : world.Edit marks last) : world.Edits marks last := by
  have honce := Edits.more h (.none last)
  rwa [List.append_nil] at honce

theorem Edits.trans {world middle last : World A} {marks later : List Mark} (h : world.Edits marks middle)
    (hlater : middle.Edits later last) : world.Edits (marks ++ later) last := by
  induction h with
  | none => exact hlater
  | more h _ hrest =>
    rw [List.append_assoc]
    exact .more h (hrest hlater)

theorem edits_put {world : World A} (id : SessionId) {next : Session A.Identity} (h : (world.session id).Edit [] next) :
    world.Edits [] (world.put id next) := (Edit.session h).once

/-- **What is kept by every edit is kept by all of them**: an invariant of the marks so far and the world. -/
theorem Edits.invariant {motive : List Mark → World A → Prop}
    (hedit : ∀ {past : List Mark} {world next : World A} {marks : List Mark}, motive past world →
      world.Edit marks next → motive (past ++ marks) next)
    {world last : World A} {marks : List Mark} (h : world.Edits marks last) :
    ∀ {past : List Mark}, motive past world → motive (past ++ marks) last := by
  induction h with
  | none =>
    intro past hpast
    rwa [List.append_nil]
  | more h _ hrest =>
    intro past hpast
    rw [← List.append_assoc]
    exact hrest (hedit hpast h)

end World

/-! ## Activities -/

/-- What a call of outside code means to the outgoing stream of a session. -/
def Query.marks {A : Application} : Query A → List Mark
  | transmit id data => [⟨id, .sent data⟩]
  | close _ _ _ | handle _ _ _ | stateChanged _ _ _ _ | disconnected _ _ _ => []

namespace Activity

variable {A : Application} {κ κ' α β : Type}

/-- An activity has come so far from a world by edits, and their marks are those of what it asks now, or `record` says
them of its result. -/
def Records (activity : Activity A κ α) (world : World A) (record : α → List Mark) : Prop :=
  match activity.progress with
  | .done result => world.Edits (record result) activity.world
  | .asks query _ => world.Edits query.marks activity.world
  | .stuck => True

/-- An activity has come so far from a world by edits that only what it asks has marked. -/
abbrev ComesFrom (activity : Activity A κ α) (world : World A) : Prop := activity.Records world fun _ => []

variable {world middle : World A} {activity : Activity A κ α}

theorem Records.before {record : α → List Mark} (hedits : world.Edits [] middle) (h : activity.Records middle record) :
    activity.Records world record := by
  unfold Records at h ⊢
  split at h
  · exact hedits.trans h
  · exact hedits.trans h
  · exact h

theorem comesFrom_finish (world : World A) (result : α) : (finish world result : Activity A κ α).ComesFrom world :=
  .none world

theorem comesFrom_ask (world : World A) {query : Query A} (rest : κ) (h : query.marks = []) :
    (ask world query rest : Activity A κ α).ComesFrom world := by
  have hnone : world.Edits query.marks world := by
    rw [h]
    exact .none world
  exact hnone

theorem ComesFrom.andThen {within : κ → κ'} {next : World A → α → Activity A κ' β} {record : β → List Mark}
    (h : activity.ComesFrom world) (hnext : ∀ world result, (next world result).Records world record) :
    (activity.andThen within next).Records world record := by
  cases hprogress : activity.progress with
  | done result =>
    have hedits : world.Edits [] activity.world := by rwa [ComesFrom, Records, hprogress] at h
    have heq : activity.andThen within next = next activity.world result := by rw [Activity.andThen, hprogress]
    rw [heq]
    exact .before hedits (hnext activity.world result)
  | asks query rest =>
    have hedits : world.Edits query.marks activity.world := by rwa [ComesFrom, Records, hprogress] at h
    have heq : activity.andThen within next = .ask activity.world query (within rest) := by
      rw [Activity.andThen, hprogress]
      rfl
    rw [heq]
    exact hedits
  | stuck =>
    have heq : activity.andThen within next = ⟨activity.world, .stuck⟩ := by rw [Activity.andThen, hprogress]
    rw [heq]
    exact True.intro

end Activity

end FramedLink
