import FramedLink.Proofs.Runs.Closing
import Mathlib.Logic.Relation
/-!
# The life of a session

Of all that happens to a session, its life is what observers and the transport's closing depend on: its state, the
reason of its end, the observers, and what is under way of it, the innermost first.  A life goes on by a
few steps.  Some are silent (`Life.Silent`): an observer joins, a disconnect ends the session, the session moves and a
round begins, a round is over.  The others ask outside code (`Life.Asks`): an observer is told, or the transport is
closed after the round of the disconnect that moved the session.

Main statement: what a first activity and what follows it mean to a life add up (`Activity.Lives.andThen`).
-/
namespace FramedLink

variable {A : Application}

/-! ## Rounds -/

/-- What is under way of a session's life: a disconnect that has not moved the session yet, or a round of news, after
which the transport is closed or not. -/
inductive Chapter (A : Application) where
  | ending
  | round (rest : Transition A) (closes : Bool)

namespace Transition

def session : Transition A → SessionId
  | telling id _ _ _ | parting id _ _ => id

/-- Nobody is left to be told. -/
inductive IsOver : Transition A → Prop where
  | told {id : SessionId} {source target : ConnectionState} (h : target ≠ .disconnected) :
      IsOver (.telling id source target [])
  | parted {id : SessionId} {reason : DisconnectReason} : IsOver (.parting id reason [])

/-- A round that tells of Disconnected fits a session in that state only. -/
def Fits (state : ConnectionState) : Transition A → Prop
  | telling _ _ target _ => target = .disconnected → state = .disconnected
  | parting _ _ _ => True

def chapter? (id : SessionId) (closes : Bool) (rest : Transition A) : Option (Chapter A) :=
  if rest.session = id then some (.round rest closes) else none

end Transition

namespace Chapter

def Fits (id : SessionId) (state : ConnectionState) : Chapter A → Prop
  | ending => True
  | round rest _ => rest.session = id ∧ rest.Fits state

end Chapter

/-! ## What activities are in the middle of -/

/-- What a disconnect has under way of a session's life. -/
def Disconnect.chapter? (id : SessionId) : Disconnect A → Option (Chapter A)
  | flushing other _ _ => if other = id then some .ending else none
  | leaving other _ rest => if other = id then some (.round rest true) else rest.chapter? id false
  | closing => none

/-- The disconnect that an activity is in the middle of. -/
def Delivery.disconnect? : Delivery A → Option (Disconnect A)
  | handling _ _ _ _ => none
  | rejecting _ rest | ending _ rest => some rest

def Arrival.disconnect? : Arrival A → Option (Disconnect A)
  | delivering _ _ _ current => current.disconnect?
  | malformed rest => some rest

def HostFlush.disconnect? : HostFlush A → Option (Disconnect A)
  | flushing _ _ => none
  | failing rest => some rest

def Suspended.disconnect? : Suspended A → Option (Disconnect A)
  | transition _ | tick _ | report _ => none
  | disconnect rest => some rest
  | dispatch rest => rest.disconnect?
  | arrival rest => rest.disconnect?
  | hostTick rest => rest.disconnect?
  | sweep rest | loop _ rest => rest.current.disconnect?
  | shutdown rest => some rest.current

/-- What a suspended call has under way of a session's life. -/
def Suspended.chapter? (id : SessionId) : Suspended A → Option (Chapter A)
  | transition rest => rest.chapter? id false
  | report rest => rest.rest.chapter? id false
  | rest => rest.disconnect?.bind (·.chapter? id)

/-- A query tells of a session's life, or closes its transport. -/
def Query.isNews (id : SessionId) : Query A → Bool
  | close other _ _ | stateChanged _ other _ _ | disconnected _ other _ => other = id
  | transmit _ _ | handle _ _ _ => false

/-! ## Lives -/

/-- The life of a session so far.  `endings` are the reasons of all disconnects that found it open, and `asked` is all
that outside code was asked. -/
structure Life (A : Application) where
  state : ConnectionState
  reason : Option DisconnectReason
  observers : List A.Observer
  chapters : List (Chapter A)
  endings : List DisconnectReason
  asked : List (Query A)

namespace Life

/-- A step of which outside code hears nothing. -/
inductive Silent (id : SessionId) (life : Life A) : Life A → Prop where
  | join (observer : A.Observer) : Silent id life { life with observers := life.observers ++ [observer] }
  | ended (reason : DisconnectReason) (h : life.state.isClosing = false) :
      Silent id life { life with
        reason := life.reason.or (some reason)
        chapters := .ending :: life.chapters
        endings := life.endings ++ [reason] }
  | moved {target : ConnectionState} (h : life.state.canTransitionTo target = true) :
      Silent id life { life with
        state := target, chapters := .round (.telling id life.state target life.observers) false :: life.chapters }
  | left {below : List (Chapter A)} (hchapters : life.chapters = .ending :: below)
      (h : life.state.canTransitionTo .disconnecting = true) :
      Silent id life { life with
        state := .disconnecting
        chapters := .round (.telling id life.state .disconnecting life.observers) true :: below }
  | stayed {below : List (Chapter A)} (hchapters : life.chapters = .ending :: below) :
      Silent id life { life with chapters := below }
  | farewell {source : ConnectionState} {closes : Bool} {below : List (Chapter A)}
      (hchapters : life.chapters = .round (.telling id source .disconnected []) closes :: below)
      (h : life.state = .disconnected) :
      Silent id life { life with
        reason := life.reason.or (some .transportClosed)
        chapters := .round (.parting id (life.reason.getD .transportClosed) life.observers) closes :: below }
  | ends {rest : Transition A} {below : List (Chapter A)} (hchapters : life.chapters = .round rest false :: below)
      (h : rest.IsOver) : Silent id life { life with chapters := below }

/-- A step that asks outside code. -/
inductive Asks (id : SessionId) (life : Life A) : Query A → Life A → Prop where
  | told {source target : ConnectionState} {observer : A.Observer} {rest : List A.Observer} {closes : Bool}
      {below : List (Chapter A)}
      (hchapters : life.chapters = .round (.telling id source target (observer :: rest)) closes :: below) :
      Asks id life (.stateChanged observer id source target) { life with
        chapters := .round (.telling id source target rest) closes :: below
        asked := life.asked ++ [.stateChanged observer id source target] }
  | parted {reason : DisconnectReason} {observer : A.Observer} {rest : List A.Observer} {closes : Bool}
      {below : List (Chapter A)}
      (hchapters : life.chapters = .round (.parting id reason (observer :: rest)) closes :: below) :
      Asks id life (.disconnected observer id reason) { life with
        chapters := .round (.parting id reason rest) closes :: below
        asked := life.asked ++ [.disconnected observer id reason] }
  | closed {rest : Transition A} {below : List (Chapter A)} (fallback : DisconnectReason)
      (hchapters : life.chapters = .round rest true :: below) (h : rest.IsOver) :
      Asks id life (.close id (life.reason.getD fallback) (life.reason.getD fallback).notifiesPeer) { life with
        chapters := below
        asked := life.asked ++
          [.close id (life.reason.getD fallback) (life.reason.getD fallback).notifiesPeer] }
  | other {query : Query A} (h : query.isNews id = false) :
      Asks id life query { life with asked := life.asked ++ [query] }

/-- Any number of silent steps. -/
def Silently (id : SessionId) : Life A → Life A → Prop := Relation.ReflTransGen (Silent id)

theorem Silently.refl {id : SessionId} (life : Life A) : Silently id life life := Relation.ReflTransGen.refl

theorem Silent.once {id : SessionId} {life next : Life A} (h : Silent id life next) : Silently id life next :=
  Relation.ReflTransGen.single h

theorem Silently.trans {id : SessionId} {life middle last : Life A} (h : Silently id life middle)
    (hlater : Silently id middle last) : Silently id life last := Relation.ReflTransGen.trans h hlater

variable {id : SessionId} {life next : Life A}

theorem Silent.disconnected (h : Silent id life next) (hended : life.state = .disconnected) :
    next.state = .disconnected := by
  cases h with
  | moved hedge =>
    rw [hended] at hedge
    cases hedge
  | left _ hedge =>
    rw [hended] at hedge
    cases hedge
  | _ => exact hended

theorem Silently.length_endings (h : Silently id life next) : life.endings.length ≤ next.endings.length := by
  induction h with
  | refl => exact Nat.le_refl _
  | tail _ hstep hle =>
    cases hstep with
    | ended reason => exact Nat.le_trans hle (by simp)
    | _ => exact hle

/-- Silent steps without a disconnect note no reason, unless the session has reached its end. -/
theorem Silently.reason (h : Silently id life next) (hendings : next.endings = life.endings) :
    next.reason = life.reason ∨ next.state = .disconnected := by
  induction h with
  | refl => exact .inl rfl
  | @tail middle next hbefore hstep hmiddle =>
    have hle := Silently.length_endings hbefore
    have hsame : middle.endings = life.endings ∧ (next.reason = middle.reason ∨ next.state = .disconnected) := by
      cases hstep with
      | ended reason =>
        rw [← hendings, List.length_append] at hle
        exact absurd hle (by simp)
      | farewell _ hended => exact ⟨hendings, .inr hended⟩
      | _ => exact ⟨hendings, .inl rfl⟩
    rcases hsame.2 with hreason | hended
    · exact (hmiddle hsame.1).imp (fun heq => hreason.trans heq) hstep.disconnected
    · exact .inr hended

end Life

/-! ## Lives in a world -/

namespace World

/-- The life of a session as a world has it, with what waits of it and its past. -/
def life (world : World A) (id : SessionId) (chapters : List (Chapter A)) (endings : List DisconnectReason)
    (asked : List (Query A)) : Life A where
  state := (world.session id).state
  reason := (world.session id).reason
  observers := world.observers
  chapters := chapters
  endings := endings
  asked := asked

/-- Two worlds of which a session's life cannot tell one from the other. -/
structure SameLife (id : SessionId) (world next : World A) : Prop where
  state : (next.session id).state = (world.session id).state
  reason : (next.session id).reason = (world.session id).reason
  observers : next.observers = world.observers

variable {id : SessionId} {world middle next : World A}

theorem SameLife.refl (world : World A) : world.SameLife id world := ⟨rfl, rfl, rfl⟩

theorem SameLife.trans (h : world.SameLife id middle) (hnext : middle.SameLife id next) : world.SameLife id next :=
  ⟨hnext.state.trans h.state, hnext.reason.trans h.reason, hnext.observers.trans h.observers⟩

theorem SameLife.life (h : world.SameLife id next) (chapters : List (Chapter A)) (endings : List DisconnectReason)
    (asked : List (Query A)) : next.life id chapters endings asked = world.life id chapters endings asked := by
  rw [World.life, World.life, h.state, h.reason, h.observers]

theorem sameLife_put_of_ne {other : SessionId} (hother : other ≠ id) (session : Session A.Identity) :
    world.SameLife id (world.put other session) := by
  have hsame := session_put_of_ne world session hother
  exact ⟨congrArg Session.state hsame, congrArg Session.reason hsame, rfl⟩

/-- What is put in the place of any session has no part in the life of one, if state and reason stay. -/
theorem sameLife_put (other : SessionId) {session : Session A.Identity}
    (hstate : session.state = (world.session other).state) (hreason : session.reason = (world.session other).reason) :
    world.SameLife id (world.put other session) := by
  by_cases hother : other = id
  · subst hother
    refine ⟨?_, ?_, rfl⟩
    · rwa [session_put_self]
    · rwa [session_put_self]
  · exact sameLife_put_of_ne hother session

theorem life_put_self (world : World A) (id : SessionId) (session : Session A.Identity) (chapters : List (Chapter A))
    (endings : List DisconnectReason) (asked : List (Query A)) :
    (world.put id session).life id chapters endings asked =
      { world.life id chapters endings asked with state := session.state, reason := session.reason } := by
  rw [life, session_put_self]
  rfl

end World

/-! ## What activities mean to a life -/

namespace Activity

variable {κ κ' α β : Type}

/-- The activity has come into the middle of a disconnect that found the session open, for a reason of its own.  The
disconnect was made in a world that came about by silent steps. -/
def Ends (id : SessionId) (inside : κ → Option (Disconnect A)) (start : World A) (chapter : Option (Chapter A))
    (reason : DisconnectReason) (activity : Activity A κ α) : Prop :=
  ∃ (before : World A) (flushFirst : Bool) (query : Query A) (rest : κ) (disconnect : Disconnect A),
    start.Edits [] before ∧
    (∀ below endings asked,
      (start.life id (chapter.toList ++ below) endings asked).Silently id (before.life id below endings asked)) ∧
    (before.session id).state.isClosing = false ∧
    activity.progress = .asks query rest ∧ inside rest = some disconnect ∧
    before.disconnect id reason flushFirst = .ask activity.world query disconnect

/-- What an activity, with a chapter of the session's life that it goes on with, means to this life: silent steps up to
its result or up to what it asks.  `view` is the chapter that it leaves for later, `left` the one that its result
leaves, and `inside` the disconnect that it is in the middle of. -/
def Lives (id : SessionId) (view : κ → Option (Chapter A)) (inside : κ → Option (Disconnect A))
    (left : α → Option (Chapter A) → Prop) (start : World A) (chapter : Option (Chapter A))
    (activity : Activity A κ α) : Prop :=
  match activity.progress with
  | .done result => ∃ last, left result last ∧ ∀ below endings asked,
      (start.life id (chapter.toList ++ below) endings asked).Silently id
        (activity.world.life id (last.toList ++ below) endings asked)
  | .asks query rest => ∃ ended : Option DisconnectReason,
      (∀ below endings asked, ∃ middle,
        (start.life id (chapter.toList ++ below) endings asked).Silently id middle ∧
        middle.Asks id query (activity.world.life id ((view rest).toList ++ below) (endings ++ ended.toList)
          (asked ++ [query]))) ∧
      ∀ reason, ended = some reason → activity.Ends id inside start chapter reason
  | .stuck => True

variable {id : SessionId} {view : κ → Option (Chapter A)} {inside : κ → Option (Disconnect A)}
  {left : α → Option (Chapter A) → Prop} {start middle : World A} {chapter chapter' : Option (Chapter A)}
  {activity : Activity A κ α}

theorem lives_finish (world : World A) {result : α} (hleft : left result chapter) :
    (finish world result : Activity A κ α).Lives id view inside left world chapter :=
  ⟨chapter, hleft, fun _ _ _ => Life.Silently.refl _⟩

/-- An activity that ends with nothing under way. -/
theorem lives_end (world : World A) (result : α) :
    (finish world result : Activity A κ α).Lives id view inside (fun _ last => last = none) world none :=
  lives_finish world rfl

theorem lives_ask (world : World A) {query : Query A} {rest : κ}
    (h : ∀ below endings asked, (world.life id (chapter.toList ++ below) endings asked).Asks id query
      (world.life id ((view rest).toList ++ below) endings (asked ++ [query]))) :
    (ask world query rest : Activity A κ α).Lives id view inside left world chapter := by
  refine ⟨none, fun below endings asked => ⟨_, Life.Silently.refl _, ?_⟩, nofun⟩
  rw [Option.toList_none, List.append_nil]
  exact h below endings asked

/-- Silent steps before an activity count as its own. -/
theorem Lives.onward (hedits : start.Edits [] middle)
    (hsilent : ∀ below endings asked, (start.life id (chapter.toList ++ below) endings asked).Silently id
      (middle.life id (chapter'.toList ++ below) endings asked))
    (h : activity.Lives id view inside left middle chapter') : activity.Lives id view inside left start chapter := by
  unfold Lives at h ⊢
  split at h
  · obtain ⟨last, hleft, hlast⟩ := h
    exact ⟨last, hleft, fun below endings asked => (hsilent below endings asked).trans (hlast below endings asked)⟩
  · obtain ⟨ended, hasks, hends⟩ := h
    refine ⟨ended, fun below endings asked => ?_, fun reason hreason => ?_⟩
    · obtain ⟨reached, hreached, hasked⟩ := hasks below endings asked
      exact ⟨reached, (hsilent below endings asked).trans hreached, hasked⟩
    · obtain ⟨before, flushFirst, query, rest, disconnect, hbefore, hlife, hopen⟩ := hends reason hreason
      exact ⟨before, flushFirst, query, rest, disconnect, hedits.trans hbefore,
        fun below endings asked => (hsilent below endings asked).trans (hlife below endings asked), hopen⟩
  · exact True.intro

theorem Lives.before (hedits : start.Edits [] middle) (hsame : start.SameLife id middle)
    (h : activity.Lives id view inside left middle chapter) : activity.Lives id view inside left start chapter := by
  refine h.onward hedits fun below endings asked => ?_
  rw [hsame.life]
  exact Life.Silently.refl _

/-- **What a first activity and what follows it mean to a life** add up. -/
theorem Lives.andThen {view' : κ' → Option (Chapter A)} {inside' : κ' → Option (Disconnect A)}
    {left' : β → Option (Chapter A) → Prop} {within : κ → κ'} {next : World A → α → Activity A κ' β}
    (h : activity.Lives id view inside left start chapter) (hcomes : activity.ComesFrom start)
    (hview : ∀ query rest, activity.progress = .asks query rest → view' (within rest) = view rest)
    (hinside : ∀ rest disconnect, inside rest = some disconnect → inside' (within rest) = some disconnect)
    (hnext : ∀ world result last, left result last → (next world result).Lives id view' inside' left' world last) :
    (activity.andThen within next).Lives id view' inside' left' start chapter := by
  cases hprogress : activity.progress with
  | done result =>
    have heq : activity.andThen within next = next activity.world result := by rw [Activity.andThen, hprogress]
    have hedits : start.Edits [] activity.world := by rwa [ComesFrom, Records, hprogress] at hcomes
    rw [Lives, hprogress] at h
    obtain ⟨last, hleft, hlast⟩ := h
    rw [heq]
    exact (hnext activity.world result last hleft).onward hedits hlast
  | asks query rest =>
    have heq : activity.andThen within next = .ask activity.world query (within rest) := by
      rw [Activity.andThen, hprogress]
      rfl
    rw [Lives, hprogress] at h
    obtain ⟨ended, hasks, hends⟩ := h
    rw [heq]
    refine ⟨ended, fun below endings asked => ?_, fun reason hreason => ?_⟩
    · rw [hview query rest hprogress]
      exact hasks below endings asked
    · obtain ⟨before, flushFirst, query', rest', disconnect, hbefore, hlife, hopen, hprogress', hrest, hdisconnect⟩ :=
        hends reason hreason
      rw [hprogress] at hprogress'
      cases hprogress'
      exact ⟨before, flushFirst, query, within rest, disconnect, hbefore, hlife, hopen, rfl,
        hinside rest disconnect hrest, hdisconnect⟩
  | stuck =>
    have heq : activity.andThen within next = ⟨activity.world, .stuck⟩ := by rw [Activity.andThen, hprogress]
    rw [heq]
    exact True.intro

/-- What an activity means to a life that has nothing under way but what a disconnect has, before, within and after. -/
abbrev LivesWithin (id : SessionId) (inside : κ → Option (Disconnect A)) (start : World A)
    (chapter : Option (Chapter A)) (activity : Activity A κ α) : Prop :=
  activity.Lives id (fun rest => (inside rest).bind (·.chapter? id)) inside (fun _ last => last = none) start chapter

/-- An activity that is nothing but a part of a larger one. -/
theorem LivesWithin.andThen {inside' : κ' → Option (Disconnect A)} {within : κ → κ'}
    {next : World A → α → Activity A κ' β} (h : activity.LivesWithin id inside start chapter)
    (hcomes : activity.ComesFrom start) (hinside : ∀ rest, inside' (within rest) = inside rest)
    (hnext : ∀ world result, (next world result).LivesWithin id inside' world none) :
    (activity.andThen within next).LivesWithin id inside' start chapter := by
  refine Lives.andThen h hcomes (fun query rest _ => by rw [hinside]) (fun rest _ heq => (hinside rest).trans heq)
    fun world result last hleft => ?_
  rw [hleft]
  exact hnext world result

/-- The session's life does not go on: nothing that it depends on changes, and nobody is told of it. -/
structure Still (id : SessionId) (start : World A) (activity : Activity A κ α) : Prop where
  same : start.SameLife id activity.world
  quiet : ∀ query rest, activity.progress = .asks query rest → query.isNews id = false

theorem still_finish (world : World A) (result : α) : (finish world result : Activity A κ α).Still id world :=
  ⟨.refl world, nofun⟩

theorem Still.before (hsame : start.SameLife id middle) (h : activity.Still id middle) : activity.Still id start :=
  ⟨hsame.trans h.same, h.quiet⟩

theorem Still.lives (h : activity.Still id start)
    (hview : ∀ query rest, activity.progress = .asks query rest → view rest = chapter)
    (hleft : ∀ result, activity.progress = .done result → left result chapter) :
    activity.Lives id view inside left start chapter := by
  unfold Lives
  split
  · rename_i result hdone
    refine ⟨chapter, hleft result hdone, fun below endings asked => ?_⟩
    rw [h.same.life]
    exact Life.Silently.refl _
  · rename_i query rest hasks
    refine ⟨none, fun below endings asked => ⟨_, Life.Silently.refl _, ?_⟩, nofun⟩
    rw [h.same.life, hview query rest hasks, Option.toList_none, List.append_nil]
    exact .other (h.quiet query rest hasks)
  · exact True.intro

/-- A life that does not go on in a first activity, which leaves nothing of it for later. -/
theorem Still.andThen {inside : κ' → Option (Disconnect A)} {within : κ → κ'} {next : World A → α → Activity A κ' β}
    (h : activity.Still id start) (hcomes : activity.ComesFrom start) (hinside : ∀ rest, inside (within rest) = none)
    (hnext : ∀ world result, (next world result).LivesWithin id inside world none) :
    (activity.andThen within next).LivesWithin id inside start none := by
  have hfirst : activity.LivesWithin id (fun _ => none) start none := h.lives (fun _ _ _ => rfl) fun _ _ => rfl
  exact hfirst.andThen hcomes hinside hnext

end Activity

end FramedLink
