import FramedLink.Proofs.Hosts.Scene
/-!
# Calls for all sessions as calls for one after the other

A flush of all sessions ticks them in turn, and a shutdown disconnects them in turn.  Each is one `Loop`: what is left
of it holds what is left of the call for the session at hand, and goes on with the next session when this one is
through.  So the whole is performed exactly if the calls for the single sessions are, one after the other (`Rounds`),
although sessions may close and be forgotten meanwhile.

Main statements: a loop is performed as its rounds (`Loop.concludes_iff`), and both calls of the host are loops
(`Loop.flushes`, `Loop.farewells`).
-/
namespace FramedLink

variable {A : Application} {κ α σ : Type}

/-- Calls for some sessions, performed one after the other. -/
inductive Rounds (outside : Outside A) (call : SessionId → Call A) (each : SessionId → Answer) :
    Scene A → List SessionId → Scene A → Prop
  | nil (scene : Scene A) : Rounds outside call each scene [] scene
  | cons {scene next last : Scene A} {id : SessionId} {ids : List SessionId}
    (hfirst : Performs outside scene (call id) (each id) next) (hrest : Rounds outside call each next ids last) :
    Rounds outside call each scene (id :: ids) last

/-- A call of the host that does for some sessions in turn what another call does for one: how it begins and goes on,
with what it has gathered from the sessions before. -/
structure Loop (A : Application) (κ α σ : Type) where
  call : SessionId → Call A
  first : World A → SessionId → Activity A κ α
  resume : World A → Reply → κ → Activity A κ α
  single : κ → Suspended A
  answerOf : α → Answer
  nothing : α
  whole : World A → σ → List SessionId → Activity A (Suspended A) Answer
  within : σ → List SessionId → κ → Suspended A
  add : σ → α → σ
  answer : σ → Answer
  addressee : ∀ id, (call id).addressee? = some id
  session : ∀ id, (call id).session? = none
  begin : ∀ {world id}, world.tracks id = true → (call id).begin world = Call.wrap (first world id) single answerOf
  begin_untracked : ∀ {world id}, world.tracks id = false → (call id).begin world = .finish world (answerOf nothing)
  whole_nil : ∀ world total, whole world total [] = .finish world (answer total)
  whole_cons : ∀ world total id ids, whole world total (id :: ids) =
    (first world id).andThen (within total ids) fun world result => whole world (add total result) ids
  resume_single : ∀ world reply rest,
    (single rest).resume world reply = Call.wrap (resume world reply rest) single answerOf
  resume_within : ∀ world reply total ids rest, (within total ids rest).resume world reply =
    (resume world reply rest).andThen (within total ids) fun world result => whole world (add total result) ids
  injective : Function.Injective answerOf

section Rounds

variable {outside : Outside A} {call : SessionId → Call A} {each each' : SessionId → Answer}
  {scene last : Scene A} {id : SessionId} {ids : List SessionId}

theorem Rounds.congr (h : Rounds outside call each scene ids last) (heach : ∀ id ∈ ids, each' id = each id) :
    Rounds outside call each' scene ids last := by
  induction h with
  | nil scene => exact .nil scene
  | cons hfirst _ ih =>
    refine .cons ?_ (ih fun other hmem => heach other (List.mem_cons_of_mem _ hmem))
    rw [heach _ (List.mem_cons_self ..)]
    exact hfirst

theorem Rounds.rests (h : Rounds outside call each scene ids last) (hidle : scene.machine.waiting = []) :
    last.machine.waiting = [] := by
  induction h with
  | nil scene => exact hidle
  | cons hfirst _ ih => exact ih hfirst.rests

/-- Sessions are forgotten at most, and the host is no further shut down. -/
theorem Rounds.keeps (h : Rounds outside call each scene ids last) (hminds : outside.Minds)
    (hcall : ∀ id, (call id).addressee? = some id) (hidle : scene.machine.waiting = []) :
    last.machine.world.tracked.Sublist scene.machine.world.tracked ∧
      last.machine.world.isShutDown = scene.machine.world.isShutDown := by
  induction h with
  | nil scene => exact ⟨.refl _, rfl⟩
  | @cons scene next last id ids hfirst _ ih =>
    have hbeside := (hfirst.beside hminds hidle (hcall id)).world
    obtain ⟨htracked, hdown⟩ := ih hfirst.rests
    exact ⟨htracked.trans hbeside.sublist, hdown.trans hbeside.isShutDown⟩

end Rounds

theorem concludes_finish {outside : Outside A} {shown : SessionId → List (Glance A)} {world : World A}
    {result answer : Answer} {last : Scene A} :
    Concludes outside shown (.finish world result) answer last ↔ answer = result ∧ last = ⟨⟨world, []⟩, shown⟩ := by
  constructor
  · intro h
    cases h with
    | returned _ => exact ⟨rfl, rfl⟩
    | onward h => exact (not_ends_of_rests rfl h).elim
  · rintro ⟨rfl, rfl⟩
    exact .returned rfl

namespace Loop

variable (loop : Loop A κ α σ) {outside : Outside A} {scene last : Scene A} {id : SessionId} {answer : Answer}

theorem performs_iff_of_tracked (hidle : scene.machine.waiting = []) (htracked : scene.machine.world.tracks id = true) :
    Performs outside scene (loop.call id) answer last ↔
      Concludes outside scene.shown (Call.wrap (loop.first scene.machine.world id) loop.single loop.answerOf) answer
        last := by
  rw [performs_iff hidle (loop.session id), loop.begin htracked]

theorem performs_iff_of_untracked (hidle : scene.machine.waiting = [])
    (htracked : scene.machine.world.tracks id = false) :
    Performs outside scene (loop.call id) answer last ↔ answer = loop.answerOf loop.nothing ∧ last = scene := by
  rw [performs_iff hidle (loop.session id), loop.begin_untracked htracked, concludes_finish]
  obtain ⟨⟨world, waiting⟩, shown⟩ := scene
  cases hidle
  exact Iff.rfl

/-- The call for one session answers with a result of its activity. -/
theorem exists_result (hidle : scene.machine.waiting = []) (h : Performs outside scene (loop.call id) answer last) :
    ∃ result, answer = loop.answerOf result := by
  cases htracked : scene.machine.world.tracks id with
  | false => exact ⟨_, ((loop.performs_iff_of_untracked hidle htracked).1 h).1⟩
  | true =>
    have hpart : PartOf loop.resume loop.single loop.single loop.answerOf fun world result =>
        .finish world (loop.answerOf result) := ⟨loop.resume_single, loop.resume_single, loop.injective⟩
    rw [loop.performs_iff_of_tracked hidle htracked] at h
    obtain ⟨result, middle, -, hrest⟩ := (concludes_andThen hpart _ _).1 h
    exact ⟨result, (concludes_finish.1 hrest).1⟩

/-- **A loop is performed as its rounds**, one for each session. -/
theorem concludes_iff (hminds : outside.Minds) {ids : List SessionId} (hnodup : ids.Nodup)
    (hidle : scene.machine.waiting = []) (htracked : ∀ id ∈ ids, scene.machine.world.tracks id = true) (total : σ) :
    Concludes outside scene.shown (loop.whole scene.machine.world total ids) answer last ↔
      ∃ each : SessionId → α, Rounds outside loop.call (fun id => loop.answerOf (each id)) scene ids last ∧
        answer = loop.answer ((ids.map each).foldl loop.add total) := by
  induction ids generalizing scene total with
  | nil =>
    obtain ⟨⟨world, waiting⟩, shown⟩ := scene
    cases hidle
    rw [loop.whole_nil, concludes_finish]
    constructor
    · rintro ⟨rfl, rfl⟩
      exact ⟨fun _ => loop.nothing, .nil _, rfl⟩
    · rintro ⟨each, hrounds, rfl⟩
      cases hrounds
      exact ⟨rfl, rfl⟩
  | cons id ids ih =>
    obtain ⟨hnotin, hnodup⟩ := List.nodup_cons.1 hnodup
    have hid := htracked id (List.mem_cons_self ..)
    -- the sessions still to come are tracked after the round of this one
    have hlater {middle : Scene A} {first : Answer} (hfirst : Performs outside scene (loop.call id) first middle) :
        ∀ other ∈ ids, middle.machine.world.tracks other = true := by
      intro other hmem
      have hother : other ≠ id := fun heq => hnotin (heq ▸ hmem)
      rw [(hfirst.beside hminds hidle (loop.addressee id)).world.tracks hother]
      exact htracked other (List.mem_cons_of_mem _ hmem)
    have hpart : PartOf loop.resume loop.single (loop.within total ids) loop.answerOf fun world result =>
        loop.whole world (loop.add total result) ids :=
      ⟨loop.resume_single, fun world reply => loop.resume_within world reply total ids, loop.injective⟩
    rw [loop.whole_cons, concludes_andThen hpart]
    simp only [← loop.performs_iff_of_tracked hidle hid]
    constructor
    · rintro ⟨result, middle, hfirst, hrest⟩
      obtain ⟨each, hrounds, hanswer⟩ := (ih hnodup hfirst.rests (hlater hfirst) _).1 hrest
      obtain ⟨both, hhead, htail⟩ : ∃ both : SessionId → α, both id = result ∧ ∀ other ∈ ids, both other = each other :=
        ⟨fun other => if other = id then result else each other, if_pos rfl, fun other hmem =>
          if_neg fun heq : other = id => hnotin (heq ▸ hmem)⟩
      refine ⟨both, .cons ?_ (hrounds.congr fun other hmem => ?_), ?_⟩
      · rw [hhead]
        exact hfirst
      · rw [htail other hmem]
      · rw [hanswer, List.map_cons, List.foldl_cons, hhead, List.map_congr_left htail]
    · rintro ⟨each, hrounds, hanswer⟩
      cases hrounds with
      | @cons _ middle _ _ _ hfirst hrest =>
      exact ⟨each id, middle, hfirst, (ih hnodup hfirst.rests (hlater hfirst) _).2 ⟨each, hrest, hanswer⟩⟩

/-- The flush of all sessions. -/
def flushes : Loop A (HostFlush A) TickSummary TickSummary where
  call := .hostTick
  first world id := world.flushSession id
  resume world reply rest := rest.resume world reply
  single := .hostTick
  answerOf summary := .flushed (.ok summary)
  nothing := {}
  whole world total ids := Call.wrap (world.sweep total ids) .sweep fun summary => .flushed (.ok summary)
  within total ids current := .sweep ⟨total, current, ids⟩
  add := TickSummary.add
  answer total := .flushed (.ok total)
  addressee _ := rfl
  session _ := rfl
  begin h := by rw [Call.begin, World.hostTick, if_pos h]
  begin_untracked h := by rw [Call.begin, World.hostTick, h]; rfl
  whole_nil _ _ := rfl
  whole_cons world total id ids := by
    rw [World.sweep, Call.wrap, Activity.andThen_andThen]
    rfl
  resume_single _ _ _ := rfl
  resume_within world reply total ids current := by
    rw [Suspended.resume, Sweep.resume, Call.wrap, Activity.andThen_andThen]
    rfl
  injective _ _ heq := by cases heq; rfl

/-- The disconnects of a shutdown. -/
def farewells : Loop A (Disconnect A) Unit Unit where
  call id := .hostDisconnect id .hostShutdown true
  first world id := world.disconnect id .hostShutdown true
  resume world reply rest := rest.resume world reply
  single := .disconnect
  answerOf _ := .nothing
  nothing := ()
  whole world _ ids := Call.wrap (world.disconnectEach ids) .shutdown fun _ => .nothing
  within _ ids current := .shutdown ⟨current, ids⟩
  add _ _ := ()
  answer _ := .nothing
  addressee _ := rfl
  session _ := rfl
  begin h := by rw [Call.begin, if_pos h]
  begin_untracked h := by rw [Call.begin, h]; rfl
  whole_nil _ _ := rfl
  whole_cons world _ id ids := by
    rw [World.disconnectEach, Call.wrap, Activity.andThen_andThen]
    rfl
  resume_single _ _ _ := rfl
  resume_within world reply _ ids current := by
    rw [Suspended.resume, Shutdown.resume, Call.wrap, Activity.andThen_andThen]
    rfl
  injective _ _ _ := rfl

end Loop

end FramedLink
