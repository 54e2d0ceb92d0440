import FramedLink.Proofs.Hosts.Abreast
/-!
# Calls with outside code that keeps its sessions apart

Transports, handlers and observers act for each session separately: their next move depends on nothing but what they
have been shown of this session (`Outside`).  Outside code that minds its session calls the library for this session
only.

A call that is made when nothing waits is performed once it has returned (`Performs`).  Meanwhile outside code makes its
moves; the library does not return if outside code never does, or if a flush waits for itself.

Main statements: a call that is addressed to a session is performed alike wherever the session and what was shown of it
are the same, and touches nothing else (`Performs.transfer`); an activity that is followed by another is performed as
the two, one after the other (`concludes_andThen`).
-/
namespace FramedLink

variable {A : Application} {κ α : Type}

/-- What outside code is shown of a session: what the library has just done, the session as it is then, and whether the
host tracks it. -/
structure Glance (A : Application) where
  signal : Signal A
  session : Session A.Identity
  isTracked : Bool

/-- Outside code: its next move for a session, by what it has been shown of this session, the latest first. -/
def Outside (A : Application) := SessionId → List (Glance A) → Move A

/-- Outside code calls the library for no session but the one that it is called for. -/
def Outside.Minds (outside : Outside A) : Prop :=
  ∀ id shown call, outside id shown = .call call → call.addressee? = some id

/-- A machine, with what outside code has been shown of each session, the latest first. -/
structure Scene (A : Application) where
  machine : Machine A
  shown : SessionId → List (Glance A) := fun _ => []

namespace Scene

/-- What the library did is shown to the outside code that it turns to, if a call waits. -/
def after (shown : SessionId → List (Glance A)) (machine : Machine A) (signal : Signal A) : Scene A :=
  match machine.waiting with
  | [] => ⟨machine, shown⟩
  | innermost :: _ =>
    ⟨machine, fun id =>
      if id = innermost.query.session then ⟨signal, machine.world.session id, machine.world.tracks id⟩ :: shown id
      else shown id⟩

def advance (scene : Scene A) (move : Move A) : Option (Scene A × Signal A) :=
  (scene.machine.move move).map fun (next, event) => (after scene.shown next event.signal, event.signal)

/-- Outside code makes its next move, for the session of the query that waits innermost. -/
def react (outside : Outside A) (scene : Scene A) : Option (Scene A × Signal A) :=
  match scene.machine.waiting with
  | [] => none
  | innermost :: _ => scene.advance (outside innermost.query.session (scene.shown innermost.query.session))

/-- An activity has come as far as it could, and what it did is shown. -/
def settled (shown : SessionId → List (Glance A)) (waiting : List (Waiting A))
    (activity : Activity A (Suspended A) Answer) : Option (Scene A × Signal A) :=
  (Machine.settle waiting activity).map fun (next, signal) => (after shown next signal, signal)

variable {scene : Scene A}

theorem advance_call (call : Call A) :
    scene.advance (.call call) =
      if scene.machine.canCall call then
        settled scene.shown scene.machine.waiting (call.begin scene.machine.world) else none := by
  unfold advance settled
  rw [Machine.move]
  split
  · rw [Option.map_map]
    rfl
  · rfl

theorem advance_reply {innermost : Waiting A} {outer : List (Waiting A)}
    (h : scene.machine.waiting = innermost :: outer) (reply : Reply) :
    scene.advance (.reply reply) =
      settled scene.shown outer (innermost.rest.resume scene.machine.world reply) := by
  unfold advance settled Machine.move
  simp only [h, Option.map_map]
  rfl

theorem react_of_waiting (outside : Outside A) {innermost : Waiting A} {outer : List (Waiting A)}
    (h : scene.machine.waiting = innermost :: outer) :
    scene.react outside =
      scene.advance (outside innermost.query.session (scene.shown innermost.query.session)) := by
  rw [react, h]

end Scene

/-! ## Calls that return -/

open Scene (settled)

/-- Outside code makes its moves until no call waits, and the library has given an answer. -/
inductive Ends (outside : Outside A) : Option (Scene A × Signal A) → Answer → Scene A → Prop
  | returned {scene : Scene A} {answer : Answer} (h : scene.machine.waiting = []) :
    Ends outside (some (scene, .answers answer)) answer scene
  | onward {scene last : Scene A} {signal : Signal A} {answer : Answer}
    (h : Ends outside (scene.react outside) answer last) : Ends outside (some (scene, signal)) answer last

/-- A call has been performed: it has returned with an answer. -/
def Performs (outside : Outside A) (scene : Scene A) (call : Call A) (answer : Answer) (last : Scene A) : Prop :=
  Ends outside (scene.advance (.call call)) answer last

/-- An activity that began when nothing waited has ended with an answer. -/
def Concludes (outside : Outside A) (shown : SessionId → List (Glance A)) (activity : Activity A (Suspended A) Answer)
    (answer : Answer) (last : Scene A) : Prop :=
  Ends outside (settled shown [] activity) answer last

section Endings

variable {outside : Outside A} {start : Option (Scene A × Signal A)} {answer answer' : Answer}
  {scene last last' : Scene A}

theorem Ends.rests (h : Ends outside start answer last) : last.machine.waiting = [] := by
  induction h with
  | returned hidle => exact hidle
  | onward _ ih => exact ih

theorem not_ends_of_rests (hidle : scene.machine.waiting = []) : ¬Ends outside (scene.react outside) answer last := by
  intro h
  rw [Scene.react, hidle] at h
  cases h

/-- **There is one way to end**, as outside code has one next move. -/
theorem Ends.unique (h : Ends outside start answer last) (h' : Ends outside start answer' last') :
    answer' = answer ∧ last' = last := by
  induction h with
  | returned hidle =>
    cases h' with
    | returned _ => exact ⟨rfl, rfl⟩
    | onward hends => exact (not_ends_of_rests hidle hends).elim
  | onward hends ih =>
    cases h' with
    | returned hidle => exact (not_ends_of_rests hidle hends).elim
    | onward hends' => exact ih hends'

/-- A call through the host is always possible. -/
theorem performs_iff (hidle : scene.machine.waiting = []) {call : Call A} (hcall : call.session? = none) :
    Performs outside scene call answer last ↔
      Concludes outside scene.shown (call.begin scene.machine.world) answer last := by
  rw [Performs, Concludes, Scene.advance_call, Machine.canCall, hcall, hidle]
  exact Iff.rfl

end Endings

/-! ## One session in two places -/

/-- Two scenes that hold the same of a session, of which the same was shown. -/
structure Scene.Matches (id : SessionId) (scene scene' : Scene A) : Prop where
  world : scene.machine.world.Shares id scene'.machine.world
  shown : scene'.shown id = scene.shown id

/-- Nothing was done in a scene but for one session. -/
structure Scene.Beside (id : SessionId) (start scene : Scene A) : Prop where
  world : start.machine.world.Beside id scene.machine.world
  shown : ∀ other, other ≠ id → scene.shown other = start.shown other

/-- Two scenes that have come equally far with calls on one session. -/
structure Scene.Level (id : SessionId) (start start' scene scene' : Scene A) : Prop where
  same : scene.Matches id scene'
  beside : start.Beside id scene
  beside' : start'.Beside id scene'
  waiting : scene'.machine.waiting = scene.machine.waiting
  own : ∀ frame ∈ scene.machine.waiting, frame.query.session = id ∧ frame.rest.isOf id

section Transfer

variable {outside : Outside A} {id other : SessionId} {start start' scene scene' last : Scene A}
  {answer : Answer}

theorem Scene.Matches.symm (h : scene.Matches id scene') : scene'.Matches id scene := ⟨h.world.symm, h.shown.symm⟩

theorem Scene.Matches.trans (h : scene.Matches id scene') (h' : scene'.Matches id last) : scene.Matches id last :=
  ⟨h.world.trans h'.world, h'.shown.trans h.shown⟩

theorem Scene.Beside.same (h : start.Beside id scene) (hother : other ≠ id) : start.Matches other scene :=
  ⟨h.world.shares hother, h.shown other hother⟩

theorem Scene.Matches.level (h : start.Matches id start') (hidle : start.machine.waiting = [])
    (hidle' : start'.machine.waiting = []) : Level id start start' start start' where
  same := h
  beside := ⟨.refl _, fun _ _ => rfl⟩
  beside' := ⟨.refl _, fun _ _ => rfl⟩
  waiting := by rw [hidle, hidle']
  own := by simp [hidle]

namespace Scene.Level

theorem abreast (h : Level id start start' scene scene') :
    World.Abreast id start.machine.world start'.machine.world scene.machine.world scene'.machine.world :=
  ⟨h.same.world, h.beside.world, h.beside'.world⟩

/-- Activities that are twins leave scenes level. -/
theorem settled (h : Level id start start' scene scene') {waiting : List (Waiting A)}
    (hwaiting : ∀ frame ∈ waiting, frame.query.session = id ∧ frame.rest.isOf id)
    {activity activity' : Activity A (Suspended A) Answer}
    (htwin : Twin id start.machine.world start'.machine.world (Suspended.isOf id) activity activity') :
    Option.Rel (fun next next' => Level id start start' next.1 next'.1 ∧ next'.2 = next.2)
      (Scene.settled scene.shown waiting activity) (Scene.settled scene'.shown waiting activity') := by
  obtain ⟨⟨hshares, hbeside, hbeside'⟩, hprogress, hown⟩ := htwin
  -- what is shown goes to the session whose query waits innermost, and this is `id`
  have hafter (signal : Signal A) {waiting : List (Waiting A)}
      (hwaiting : ∀ frame ∈ waiting, frame.query.session = id ∧ frame.rest.isOf id) :
      Level id start start' (after scene.shown ⟨activity.world, waiting⟩ signal)
        (after scene'.shown ⟨activity'.world, waiting⟩ signal) := by
    cases waiting with
    | nil => exact ⟨⟨hshares, h.same.shown⟩, ⟨hbeside, h.beside.shown⟩, ⟨hbeside', h.beside'.shown⟩, rfl, hwaiting⟩
    | cons innermost outer =>
      have hsession := (hwaiting innermost (List.mem_cons_self ..)).1
      refine ⟨⟨hshares, ?_⟩, ⟨hbeside, fun other hother => ?_⟩, ⟨hbeside', fun other hother => ?_⟩, rfl, hwaiting⟩
      · simp only [after, hsession, if_true, hshares.session, hshares.tracks, h.same.shown]
      · simp only [after, hsession, if_neg hother, h.beside.shown other hother]
      · simp only [after, hsession, if_neg hother, h.beside'.shown other hother]
  unfold Scene.settled Machine.settle
  rw [hprogress]
  cases hasks : activity.progress with
  | done answer => exact .some ⟨hafter _ hwaiting, rfl⟩
  | asks query rest =>
    have hframes : ∀ frame ∈ (⟨query, rest⟩ :: waiting : List (Waiting A)),
        frame.query.session = id ∧ frame.rest.isOf id := by
      intro frame hmem
      rcases List.mem_cons.1 hmem with rfl | hmem
      · exact hown query rest hasks
      · exact hwaiting frame hmem
    exact .some ⟨hafter _ hframes, rfl⟩
  | stuck => exact .none

theorem advance_call (h : Level id start start' scene scene') {call : Call A} (hcall : call.addressee? = some id) :
    Option.Rel (fun next next' => Level id start start' next.1 next'.1 ∧ next'.2 = next.2)
      (scene.advance (.call call)) (scene'.advance (.call call)) := by
  have hcan : scene'.machine.canCall call = scene.machine.canCall call := by
    have hknows := h.same.world.knows
    unfold Machine.canCall
    cases call <;> cases hcall <;> first | rfl | simp only [Call.session?, Option.map_some, hknows]
  rw [Scene.advance_call, Scene.advance_call, hcan, h.waiting]
  split
  · exact h.settled h.own (h.abreast.begin hcall)
  · exact .none

theorem react (h : Level id start start' scene scene') (hminds : outside.Minds) :
    Option.Rel (fun next next' => Level id start start' next.1 next'.1 ∧ next'.2 = next.2)
      (scene.react outside) (scene'.react outside) := by
  cases hwaiting : scene.machine.waiting with
  | nil =>
    rw [Scene.react, Scene.react, h.waiting, hwaiting]
    exact .none
  | cons innermost outer =>
    have hwaiting' : scene'.machine.waiting = innermost :: outer := h.waiting.trans hwaiting
    obtain ⟨hsession, hrest⟩ := h.own innermost (by rw [hwaiting]; exact List.mem_cons_self ..)
    rw [react_of_waiting outside hwaiting, react_of_waiting outside hwaiting', hsession, h.same.shown]
    cases hmove : outside id (scene.shown id) with
    | call call => exact h.advance_call (hminds id _ call hmove)
    | reply reply =>
      rw [advance_reply hwaiting, advance_reply hwaiting']
      refine h.settled (fun frame hmem => h.own frame ?_) (h.abreast.resume reply hrest)
      rw [hwaiting]
      exact List.mem_cons_of_mem _ hmem

end Scene.Level

theorem Ends.transfer (hminds : outside.Minds) {first first' : Option (Scene A × Signal A)}
    (h : Ends outside first answer last)
    (hlevel : Option.Rel (fun next next' => Scene.Level id start start' next.1 next'.1 ∧ next'.2 = next.2) first
      first') :
    ∃ last', Ends outside first' answer last' ∧ Scene.Level id start start' last last' := by
  induction h generalizing first' with
  | @returned scene answer hidle =>
    cases hlevel with
    | @some _ next' hlevel =>
    obtain ⟨scene', signal'⟩ := next'
    obtain ⟨hscene, hsignal : signal' = .answers answer⟩ := hlevel
    subst hsignal
    exact ⟨scene', .returned (hscene.waiting.trans hidle), hscene⟩
  | onward _ ih =>
    cases hlevel with
    | some hlevel =>
    obtain ⟨last', hends, hlast⟩ := ih (hlevel.1.react hminds)
    exact ⟨last', .onward hends, hlast⟩

/-- **A call that is addressed to a session** has the same answer and leaves the same of the session wherever the
session is the same, and it touches nothing else. -/
theorem Performs.transfer (hminds : outside.Minds) (hsame : start.Matches id start')
    (hidle : start.machine.waiting = []) (hidle' : start'.machine.waiting = []) {call : Call A}
    (hcall : call.addressee? = some id) (h : Performs outside start call answer last) :
    ∃ last', Performs outside start' call answer last' ∧ Scene.Level id start start' last last' :=
  Ends.transfer hminds h ((hsame.level hidle hidle').advance_call hcall)

theorem Performs.beside (hminds : outside.Minds) (hidle : start.machine.waiting = []) {call : Call A}
    (hcall : call.addressee? = some id) (h : Performs outside start call answer last) : start.Beside id last := by
  obtain ⟨_, _, hlevel⟩ := h.transfer hminds ⟨.refl _, rfl⟩ hidle hidle hcall
  exact hlevel.beside

end Transfer

/-! ## One activity after the other -/

section Parts

variable {outside : Outside A} {single within : κ → Suspended A} {answerOf : α → Answer}
  {next : World A → α → Activity A (Suspended A) Answer} {resume : World A → Reply → κ → Activity A κ α}

/-- What is left of an activity goes on alike on its own, where it is `single`, and as the first part of a larger
activity, where it is `within`. -/
structure PartOf (resume : World A → Reply → κ → Activity A κ α) (single within : κ → Suspended A)
    (answerOf : α → Answer) (next : World A → α → Activity A (Suspended A) Answer) : Prop where
  single : ∀ world reply rest, (single rest).resume world reply = Call.wrap (resume world reply rest) single answerOf
  within : ∀ world reply rest, (within rest).resume world reply = (resume world reply rest).andThen within next
  injective : Function.Injective answerOf

/-- How an activity on its own and the same activity as the first part of a larger one have come equally far: neither
goes on, both wait and differ in what is left at the bottom, or the one has answered and the other goes on with the
second part. -/
inductive Parts (single within : κ → Suspended A) (answerOf : α → Answer)
    (next : World A → α → Activity A (Suspended A) Answer) :
    Option (Scene A × Signal A) → Option (Scene A × Signal A) → Prop
  | stuck : Parts single within answerOf next none none
  | inner (world : World A) (above : List (Waiting A)) (query : Query A) (rest : κ)
    (shown : SessionId → List (Glance A)) (signal : Signal A) :
    Parts single within answerOf next (some (⟨⟨world, above ++ [⟨query, single rest⟩]⟩, shown⟩, signal))
      (some (⟨⟨world, above ++ [⟨query, within rest⟩]⟩, shown⟩, signal))
  | handed (world : World A) (result : α) (shown : SessionId → List (Glance A))
    {larger : Option (Scene A × Signal A)} (h : settled shown [] (next world result) = larger) :
    Parts single within answerOf next (some (⟨⟨world, []⟩, shown⟩, .answers (answerOf result))) larger

theorem parts_settled (shown : SessionId → List (Glance A)) (first : Activity A κ α) :
    Parts single within answerOf next (settled shown [] (Call.wrap first single answerOf))
      (settled shown [] (first.andThen within next)) := by
  unfold Call.wrap Activity.andThen
  cases first.progress with
  | done result => exact .handed first.world result shown rfl
  | asks query rest => exact .inner first.world [] query rest _ (.asks query)
  | stuck => exact .stuck

/-- A further activity on top of what waits leaves the bottom as it is. -/
theorem parts_above (shown : SessionId → List (Glance A)) (above : List (Waiting A)) (query : Query A) (rest : κ)
    (activity : Activity A (Suspended A) Answer) :
    Parts single within answerOf next (settled shown (above ++ [⟨query, single rest⟩]) activity)
      (settled shown (above ++ [⟨query, within rest⟩]) activity) := by
  unfold settled Machine.settle
  cases activity.progress with
  | done answer =>
    cases above with
    | nil => exact .inner activity.world [] query rest _ (.answers answer)
    | cons frame above => exact .inner activity.world (frame :: above) query rest _ (.answers answer)
  | asks asked left => exact .inner activity.world (⟨asked, left⟩ :: above) query rest _ (.asks asked)
  | stuck => exact .stuck

theorem parts_react (hpart : PartOf resume single within answerOf next)
    (world : World A) (above : List (Waiting A)) (query : Query A) (rest : κ) (shown : SessionId → List (Glance A)) :
    Parts single within answerOf next
      (Scene.react outside ⟨⟨world, above ++ [⟨query, single rest⟩]⟩, shown⟩)
      (Scene.react outside ⟨⟨world, above ++ [⟨query, within rest⟩]⟩, shown⟩) := by
  -- outside code makes the same move, as it is called for the same session
  have hcall (call : Call A) : Parts single within answerOf next
      (Scene.advance ⟨⟨world, above ++ [⟨query, single rest⟩]⟩, shown⟩ (.call call))
      (Scene.advance ⟨⟨world, above ++ [⟨query, within rest⟩]⟩, shown⟩ (.call call)) := by
    rw [Scene.advance_call, Scene.advance_call]
    unfold Machine.canCall
    split
    · exact parts_above shown above query rest _
    · exact .stuck
  cases above with
  | nil =>
    simp only [Scene.react, List.nil_append]
    cases outside query.session (shown query.session) with
    | call call => exact hcall call
    | reply reply =>
      rw [Scene.advance_reply rfl, Scene.advance_reply rfl]
      simp only [hpart.single, hpart.within]
      exact parts_settled shown _
  | cons frame above =>
    simp only [Scene.react, List.cons_append]
    cases outside frame.query.session (shown frame.query.session) with
    | call call => exact hcall call
    | reply reply =>
      rw [Scene.advance_reply rfl, Scene.advance_reply rfl]
      exact parts_above shown above query rest _

variable {answer : Answer} {last : Scene A} {alone larger : Option (Scene A × Signal A)}

theorem split_of_parts (hpart : PartOf resume single within answerOf next)
    (h : Parts single within answerOf next alone larger) (hends : Ends outside larger answer last) :
    ∃ result middle, Ends outside alone (answerOf result) middle ∧
      Concludes outside middle.shown (next middle.machine.world result) answer last := by
  induction hends generalizing alone with
  | returned hidle =>
    cases h with
    | inner world above query rest shown => simp at hidle
    | handed world result shown h => exact ⟨result, _, .returned rfl, by rw [Concludes, h]; exact .returned hidle⟩
  | onward hends ih =>
    cases h with
    | inner world above query rest shown =>
      obtain ⟨result, middle, halone, hnext⟩ := ih (parts_react hpart world above query rest shown)
      exact ⟨result, middle, .onward halone, hnext⟩
    | handed world result shown h => exact ⟨result, _, .returned rfl, by rw [Concludes, h]; exact .onward hends⟩

theorem join_of_parts (hpart : PartOf resume single within answerOf next)
    (h : Parts single within answerOf next alone larger) {result : α} {middle : Scene A} {given : Answer}
    (hgiven : given = answerOf result) (halone : Ends outside alone given middle)
    (hnext : Concludes outside middle.shown (next middle.machine.world result) answer last) :
    Ends outside larger answer last := by
  induction halone generalizing larger with
  | returned hidle =>
    cases h with
    | inner world above query rest shown => simp at hidle
    | handed world result' shown h =>
      cases hpart.injective hgiven
      exact h ▸ hnext
  | onward hends ih =>
    cases h with
    | inner world above query rest shown =>
      exact .onward (ih (parts_react hpart world above query rest shown) hgiven hnext)
    | handed world result' shown h => exact (not_ends_of_rests rfl hends).elim

/-- **An activity that is followed by another** ends as the two do, one after the other. -/
theorem concludes_andThen (hpart : PartOf resume single within answerOf next) (shown : SessionId → List (Glance A))
    (first : Activity A κ α) :
    Concludes outside shown (first.andThen within next) answer last ↔
      ∃ result middle, Concludes outside shown (Call.wrap first single answerOf) (answerOf result) middle ∧
        Concludes outside middle.shown (next middle.machine.world result) answer last :=
  ⟨split_of_parts hpart (parts_settled shown first), fun ⟨_, _, halone, hnext⟩ =>
    join_of_parts hpart (parts_settled shown first) rfl halone hnext⟩

end Parts

end FramedLink
