import FramedLink.Proofs.Hosts.Solos
/-!
# Sessions of one host do not interfere

A host is called any number of times, and each call is performed before the next is made.  At each call the host may go
through the sessions that it tracks in another order.  As long as outside code acts on no session but the one that it
is called for, every session has the same experience as on a host of its own that gets the session's share of the calls
(`callsAlone`): outside code is shown the same of it, the calls that are addressed to it have the same answers, and it
ends the same.

The inductions are on the calls.  What carries them is that the host and the sessions alone stay together
(`Scene.Together`).

Main statement: `sessions_apart`.
-/
namespace FramedLink

variable {A : Application}

/-! ## Sessions alone -/

/-- The world with one session only. -/
def World.alone (world : World A) (id : SessionId) : World A :=
  { world with
    sessions := ⟨world.sessions.entries.filter fun entry => entry.1 = id⟩
    tracked := world.tracked.filter (· = id) }

theorem Directory.find_filter {ι : Type} (id : SessionId) :
    ∀ entries : List (SessionId × ι), find id (entries.filter fun entry => entry.1 = id) = find id entries
  | [] => rfl
  | (other, value) :: rest => by
    by_cases hother : other = id
    · simp [find, hother]
    · simp [find, hother, find_filter id rest]

theorem World.shares_alone (world : World A) (id : SessionId) : world.Shares id (world.alone id) := by
  have hget : (world.alone id).sessions.get? id = world.sessions.get? id := Directory.find_filter id _
  refine ⟨?_, ?_, ?_, rfl⟩
  · rw [World.session, World.session, hget]
    rfl
  · rw [World.knows, World.knows, hget]
  · simp [World.tracks, World.alone]

namespace Scene

def alone (scene : Scene A) (id : SessionId) : Scene A :=
  { scene with machine := { scene.machine with world := scene.machine.world.alone id } }

theorem together_alone {scene : Scene A} (hidle : scene.machine.waiting = []) : scene.Together scene.alone where
  same id := ⟨scene.machine.world.shares_alone id, rfl⟩
  idle := hidle
  idles _ := hidle

end Scene

/-! ## Calls one after the other -/

/-- A session's share of the calls of a host.  The calls that are none of its business leave gaps. -/
def callsAlone (id : SessionId) : Bool → List (Call A) → List (Option (Call A))
  | _, [] => []
  | isShutDown, call :: calls => call.alone id isShutDown :: callsAlone id (call.shutsDown isShutDown) calls

/-- Calls are performed one after the other, each in whatever order the host goes through its sessions. -/
inductive Plays (outside : Outside A) :
    Scene A → List (Option (Call A)) → List (Option Answer) → Scene A → Prop
  | nil (scene : Scene A) : Plays outside scene [] [] scene
  | cons {scene next last : Scene A} {call : Option (Call A)} {answer : Option Answer}
    {calls : List (Option (Call A))} {answers : List (Option Answer)} (order : Enumeration)
    (hfirst : Turn outside scene (call.map (·.along order)) answer next)
    (hrest : Plays outside next calls answers last) : Plays outside scene (call :: calls) (answer :: answers) last

/-- Calls return one after the other, in whatever order the host goes through its sessions at each. -/
def Completes (outside : Outside A) : Scene A → List (Option (Call A)) → Prop
  | _, [] => True
  | scene, call :: calls => ∀ order : Enumeration,
    ∃ answer next, Turn outside scene (call.map (·.along order)) answer next ∧ Completes outside next calls

section Runs

variable {outside : Outside A} {scene next next' last : Scene A} {solos lasts : SessionId → Scene A}
  {call : Option (Call A)} {calls : List (Option (Call A))} {answer answer' : Option Answer}
  {answers : List (Option Answer)} {ledger : SessionId → List (Option Answer)} {hostCalls : List (Call A)}

theorem Turn.unique (h : Turn outside scene call answer next) (h' : Turn outside scene call answer' next') :
    answer' = answer ∧ next' = next := by
  cases h with
  | none => cases h'; exact ⟨rfl, rfl⟩
  | some h =>
    cases h' with
    | some h' =>
    obtain ⟨rfl, rfl⟩ := h.unique h'
    exact ⟨rfl, rfl⟩

theorem Plays.nil_cases (h : Plays outside scene [] answers last) : answers = [] ∧ last = scene := by
  cases h
  exact ⟨rfl, rfl⟩

theorem Plays.cons_cases (h : Plays outside scene (call :: calls) answers last) :
    ∃ order answer next rest, answers = answer :: rest ∧ Turn outside scene (call.map (·.along order)) answer next ∧
      Plays outside next calls rest last := by
  cases h with
  | cons order hfirst hrest => exact ⟨order, _, _, _, rfl, hfirst, hrest⟩

theorem Completes.exists_plays (h : Completes outside scene calls) :
    ∃ answers last, Plays outside scene calls answers last := by
  induction calls generalizing scene with
  | nil => exact ⟨[], scene, .nil scene⟩
  | cons call calls ih =>
    obtain ⟨answer, next, hfirst, hcompletes⟩ := h .asOpened
    obtain ⟨answers, last, hrest⟩ := ih hcompletes
    exact ⟨answer :: answers, last, .cons .asOpened hfirst hrest⟩

/-- A session alone makes its share of a call as it is. -/
theorem Plays.cons_alone {call : Call A} {calls : List (Option (Call A))} {id : SessionId} {isShutDown : Bool}
    (hfirst : Turn outside scene (call.alone id isShutDown) answer next)
    (hrest : Plays outside next calls answers last) :
    Plays outside scene (call.alone id isShutDown :: calls) (answer :: answers) last := by
  refine .cons .asOpened ?_ hrest
  rw [call.along_alone]
  exact hfirst

/-- **What a host goes through, each session goes through alone.** -/
theorem exists_plays_alone (hminds : outside.Minds) (hcalls : ∀ call ∈ hostCalls, call.isForSessions = true)
    (h : scene.Together solos) (hnodup : scene.machine.world.tracked.Nodup)
    (hplays : Plays outside scene (hostCalls.map some) answers last) :
    ∃ (ledger : SessionId → List (Option Answer)) (lasts : SessionId → Scene A), ∀ id,
      Plays outside (solos id) (callsAlone id scene.machine.world.isShutDown hostCalls) (ledger id) (lasts id) := by
  induction hostCalls generalizing scene solos answers with
  | nil => exact ⟨fun _ => [], solos, fun id => .nil (solos id)⟩
  | cons call calls ih =>
    obtain ⟨hcall, hcalls⟩ := List.forall_mem_cons.1 hcalls
    obtain ⟨order, _, next, _, -, hfirst, hrest⟩ := hplays.cons_cases
    cases hfirst with
    | some hfirst =>
    obtain ⟨each, solos', hturns, hnext, hkeeps, hdown, -⟩ := h.turn hminds hnodup hcall hfirst
    obtain ⟨ledger, lasts, hplays⟩ := ih hcalls hnext (hkeeps.nodup hnodup) hrest
    simp only [hdown] at hplays
    exact ⟨fun id => each id :: ledger id, lasts, fun id => .cons_alone (hturns id) (hplays id)⟩

/-- The first share of each session, and what follows it. -/
theorem shares_cases {call : Call A} {calls : List (Call A)} {isShutDown : Bool}
    (hsolos : ∀ id, Plays outside (solos id) (callsAlone id isShutDown (call :: calls)) (ledger id) (lasts id)) :
    ∃ (each : SessionId → Option Answer) (nexts : SessionId → Scene A) (rests : SessionId → List (Option Answer)),
      (∀ id, ledger id = each id :: rests id) ∧
      (∀ id, Turn outside (solos id) (call.alone id isShutDown) (each id) (nexts id)) ∧
      ∀ id, Plays outside (nexts id) (callsAlone id (call.shutsDown isShutDown) calls) (rests id) (lasts id) := by
  choose orders each nexts rests hledger hturns hrests using fun id => (hsolos id).cons_cases
  simp only [Call.along_alone] at hturns
  exact ⟨each, nexts, rests, hledger, hturns, hrests⟩

/-- The host and the sessions alone have made their first calls, and are together again. -/
theorem together_next {call : Call A} {answer : Answer} {order : Enumeration} {each : SessionId → Option Answer}
    {nexts : SessionId → Scene A} (hminds : outside.Minds) (hcall : call.isForSessions = true)
    (h : scene.Together solos) (hnodup : scene.machine.world.tracked.Nodup)
    (hturns : ∀ id, Turn outside (solos id) (call.alone id scene.machine.world.isShutDown) (each id) (nexts id))
    (hfirst : Performs outside scene (call.along order) answer next) :
    next.Together nexts ∧ next.machine.world.tracked.Nodup ∧ next.machine.world.tracked ⊆ scene.machine.world.tracked ∧
      next.machine.world.isShutDown = call.shutsDown scene.machine.world.isShutDown ∧
      ∀ all, scene.machine.world.tracked ⊆ all → some answer = call.gathered all each := by
  obtain ⟨each', nexts', hturns', hnext, hkeeps, hdown, hanswer⟩ := h.turn hminds hnodup hcall hfirst
  obtain rfl : each' = each := funext fun id => ((hturns id).unique (hturns' id)).1
  obtain rfl : nexts' = nexts := funext fun id => ((hturns id).unique (hturns' id)).2
  exact ⟨hnext, hkeeps.nodup hnodup, hkeeps.subset, hdown, hanswer⟩

/-- **If each session goes through its share alone, the host returns from every call**, in whatever order it goes
through its sessions. -/
theorem completes_of_alone (hminds : outside.Minds) (hcalls : ∀ call ∈ hostCalls, call.isForSessions = true)
    (h : scene.Together solos) (hnodup : scene.machine.world.tracked.Nodup)
    (hsolos : ∀ id,
      Plays outside (solos id) (callsAlone id scene.machine.world.isShutDown hostCalls) (ledger id) (lasts id)) :
    Completes outside scene (hostCalls.map some) := by
  induction hostCalls generalizing scene solos ledger with
  | nil => trivial
  | cons call calls ih =>
    obtain ⟨hcall, hcalls⟩ := List.forall_mem_cons.1 hcalls
    obtain ⟨each, nexts, rests, -, hturns, hrests⟩ := shares_cases hsolos
    intro order
    obtain ⟨answer, next, hfirst⟩ := h.exists_performs order hminds hnodup hcall fun id => ⟨_, _, hturns id⟩
    obtain ⟨hnext, hnodup', -, hdown, -⟩ := together_next hminds hcall h hnodup hturns hfirst
    rw [← hdown] at hrests
    exact ⟨some answer, next, .some hfirst, ih hcalls hnext hnodup' hrests⟩

/-- **The host and the sessions alone agree**: on the sessions as they are at last, and on the answers. -/
theorem plays_agree (hminds : outside.Minds) (hcalls : ∀ call ∈ hostCalls, call.isForSessions = true)
    (h : scene.Together solos) (hnodup : scene.machine.world.tracked.Nodup) {all : List SessionId}
    (hall : scene.machine.world.tracked ⊆ all) (hplays : Plays outside scene (hostCalls.map some) answers last)
    (hsolos : ∀ id,
      Plays outside (solos id) (callsAlone id scene.machine.world.isShutDown hostCalls) (ledger id) (lasts id)) :
    last.Together lasts ∧
      ∀ n : Nat, answers[n]? = hostCalls[n]?.map fun call => call.gathered all fun id => ((ledger id)[n]?).join := by
  induction hostCalls generalizing scene solos answers ledger with
  | nil =>
    obtain ⟨rfl, rfl⟩ := hplays.nil_cases
    have hlasts : lasts = solos := funext fun id => (hsolos id).nil_cases.2
    rw [hlasts]
    exact ⟨h, fun _ => rfl⟩
  | cons call calls ih =>
    obtain ⟨hcall, hcalls⟩ := List.forall_mem_cons.1 hcalls
    obtain ⟨each, nexts, rests, hledger, hturns, hrests⟩ := shares_cases hsolos
    obtain ⟨order, _, next, answers, rfl, hfirst, hrest⟩ := hplays.cons_cases
    cases hfirst with
    | some hfirst =>
    obtain ⟨hnext, hnodup', hsubset, hdown, hanswer⟩ := together_next hminds hcall h hnodup hturns hfirst
    rw [← hdown] at hrests
    obtain ⟨hlast, hanswers⟩ := ih hcalls hnext hnodup' (fun id hmem => hall (hsubset hmem)) hrest hrests
    refine ⟨hlast, fun n => ?_⟩
    simp only [hledger]
    cases n with
    | zero =>
      simp only [List.getElem?_cons_zero, Option.map_some, Option.join_some]
      rw [hanswer all hall]
    | succ n =>
      simp only [List.getElem?_cons_succ]
      exact hanswers n

/-- **A session whose flush fails adds nothing**: the host's tick of a session answers what the session's tick sent, and
nothing if it failed. -/
theorem hostTick_answer {id : SessionId} {answer : Answer} (hidle : scene.machine.waiting = [])
    (htracked : scene.machine.world.tracks id = true) (hknown : scene.machine.world.knows id = true)
    (h : Performs outside scene (.hostTick id) answer last) :
    ∃ result middle, Performs outside scene (.tick id) (.flushed result) middle ∧
      answer = .flushed (.ok (result.toOption.getD {})) := by
  have hflush : PartOf (fun world reply rest => Flush.resume world rest reply) Suspended.tick
      (fun rest => (.hostTick (.flushing id rest) : Suspended A)) Answer.flushed fun world result =>
        Call.wrap (world.settleFlush id result) .hostTick fun summary => .flushed (.ok summary) :=
    ⟨fun _ _ _ => rfl, fun _ _ _ => by
      rw [Suspended.resume, HostFlush.resume, Call.wrap, Activity.andThen_andThen]
      rfl, fun _ _ heq => by cases heq; rfl⟩
  have hleave : PartOf (fun world reply rest => Disconnect.resume world reply rest) Suspended.disconnect
      (fun rest => (.hostTick (.failing rest) : Suspended A)) (fun _ => Answer.nothing) fun world (_ : Unit) =>
        .finish world (.flushed (.ok {})) :=
    ⟨fun _ _ _ => rfl, fun _ _ _ => by
      rw [Suspended.resume, HostFlush.resume, Call.wrap, Activity.andThen_andThen]
      rfl, fun _ _ _ => rfl⟩
  rw [performs_iff hidle rfl, Call.begin, World.hostTick, if_pos htracked, World.flushSession, Call.wrap,
    Activity.andThen_andThen] at h
  obtain ⟨result, middle, htick, hsettle⟩ := (concludes_andThen hflush _ _).1 h
  refine ⟨result, middle, ?_, ?_⟩
  · rw [Performs, Scene.advance_call, Machine.canCall, Call.session?, Option.map_some, hknown, hidle]
    exact htick
  · cases result with
    | ok summary => exact (concludes_finish.1 hsettle).1
    | error e =>
      rw [World.settleFlush, Call.wrap, Activity.andThen_andThen] at hsettle
      obtain ⟨_, _, -, hfinish⟩ := (concludes_andThen hleave _ _).1 hsettle
      exact (concludes_finish.1 hfinish).1

end Runs

/-- **Sessions of one host do not interfere.**  Let outside code act on no session but the one that it is called for,
and let the host be called for its sessions in any way, with each call made once the one before has returned.
- The host returns from all calls exactly if each session does that gets its share of the calls on a host of its own,
  and then it returns whatever the order in which it goes through its sessions at each call.
- At last each session is as it is alone, and outside code has been shown the same of it, in the same order.  Every
  answer is that of the session alone that the call is addressed to; a flush of all sessions answers the sum of what
  their ticks answer alone.
- None of this depends on these orders.
- The tick of a session whose flush fails adds nothing to the sum. -/
theorem sessions_apart {outside : Outside A} (hminds : outside.Minds) {scene : Scene A}
    (hidle : scene.machine.waiting = []) (hnodup : scene.machine.world.tracked.Nodup) {calls : List (Call A)}
    (hcalls : ∀ call ∈ calls, call.isForSessions = true) :
    ((∃ answers last, Plays outside scene (calls.map some) answers last) ↔
      ∀ id, ∃ answers last,
        Plays outside (scene.alone id) (callsAlone id scene.machine.world.isShutDown calls) answers last) ∧
    ((∃ answers last, Plays outside scene (calls.map some) answers last) → Completes outside scene (calls.map some)) ∧
    (∀ (answers : List (Option Answer)) (last : Scene A) (ledger : SessionId → List (Option Answer))
        (lasts : SessionId → Scene A), Plays outside scene (calls.map some) answers last →
      (∀ id, Plays outside (scene.alone id) (callsAlone id scene.machine.world.isShutDown calls) (ledger id)
        (lasts id)) →
      (∀ id, last.Matches id (lasts id)) ∧
      ∀ n : Nat, answers[n]? = calls[n]?.map fun call =>
        call.gathered scene.machine.world.tracked fun id => ((ledger id)[n]?).join) ∧
    (∀ answers last answers' last', Plays outside scene (calls.map some) answers last →
      Plays outside scene (calls.map some) answers' last' → answers' = answers ∧ ∀ id, last.Matches id last') ∧
    ∀ (next last : Scene A) (id : SessionId) (answer : Answer), next.machine.waiting = [] →
      next.machine.world.tracks id = true → next.machine.world.knows id = true →
      Performs outside next (.hostTick id) answer last →
      ∃ result middle, Performs outside next (.tick id) (.flushed result) middle ∧
        answer = .flushed (.ok (result.toOption.getD {})) := by
  have htogether := Scene.together_alone hidle
  have hagree {answers : List (Option Answer)} {last : Scene A} {ledger : SessionId → List (Option Answer)}
      {lasts : SessionId → Scene A} (hplays : Plays outside scene (calls.map some) answers last)
      (hsolos : ∀ id,
        Plays outside (scene.alone id) (callsAlone id scene.machine.world.isShutDown calls) (ledger id) (lasts id)) :=
    plays_agree hminds hcalls htogether hnodup (List.Subset.refl _) hplays hsolos
  have hcompletes (hsolos : ∀ id, ∃ answers last,
      Plays outside (scene.alone id) (callsAlone id scene.machine.world.isShutDown calls) answers last) :
      Completes outside scene (calls.map some) := by
    choose ledger lasts hsolos using hsolos
    exact completes_of_alone hminds hcalls htogether hnodup hsolos
  have hsolos {answers : List (Option Answer)} {last : Scene A}
      (hplays : Plays outside scene (calls.map some) answers last) :=
    exists_plays_alone hminds hcalls htogether hnodup hplays
  refine ⟨⟨?_, fun hsolos => (hcompletes hsolos).exists_plays⟩, ?_, ?_, ?_, ?_⟩
  · rintro ⟨answers, last, hplays⟩ id
    obtain ⟨ledger, lasts, halone⟩ := hsolos hplays
    exact ⟨ledger id, lasts id, halone id⟩
  · rintro ⟨answers, last, hplays⟩
    obtain ⟨ledger, lasts, halone⟩ := hsolos hplays
    exact hcompletes fun id => ⟨ledger id, lasts id, halone id⟩
  · intro answers last ledger lasts hplays halone
    obtain ⟨hlast, hanswers⟩ := hagree hplays halone
    exact ⟨hlast.same, hanswers⟩
  · intro answers last answers' last' hplays hplays'
    obtain ⟨ledger, lasts, halone⟩ := hsolos hplays
    obtain ⟨hlast, hanswers⟩ := hagree hplays halone
    obtain ⟨hlast', hanswers'⟩ := hagree hplays' halone
    refine ⟨List.ext_getElem? fun n => ?_, fun id => (hlast.same id).trans (hlast'.same id).symm⟩
    rw [hanswers, hanswers']
  · exact fun next last id answer hidle htracked hknown h => hostTick_answer hidle htracked hknown h

/-! ## Computing a run -/

/-- Outside code makes its moves until the call has returned, or fuel has run out. -/
def Scene.finish (outside : Outside A) : Nat → Option (Scene A × Signal A) → Option (Answer × Scene A)
  | 0, _ | _, none => none
  | fuel + 1, some (scene, signal) =>
    match scene.machine.waiting, signal with
    | [], .answers answer => some (answer, scene)
    | _, _ => finish outside fuel (scene.react outside)

/-- The calls in turn, each in the order that it comes with. -/
def Scene.play (outside : Outside A) (fuel : Nat) : Scene A → List (Call A) → Option (List (Option Answer) × Scene A)
  | scene, [] => some ([], scene)
  | scene, call :: calls =>
    (finish outside fuel (scene.advance (.call call))).bind fun (answer, next) =>
      (next.play outside fuel calls).map fun (answers, last) => (some answer :: answers, last)

theorem ends_of_finish {outside : Outside A} {answer : Answer} {last : Scene A} :
    ∀ (fuel : Nat) {start : Option (Scene A × Signal A)},
      Scene.finish outside fuel start = some (answer, last) → Ends outside start answer last
  | 0, _, h => by cases h
  | _ + 1, none, h => by cases h
  | fuel + 1, some (scene, signal), h => by
    unfold Scene.finish at h
    split at h
    · rename_i hidle
      cases h
      exact .returned hidle
    · exact .onward (ends_of_finish fuel h)

theorem plays_of_play {outside : Outside A} {fuel : Nat} {last : Scene A} :
    ∀ {calls : List (Call A)} {scene : Scene A} {answers : List (Option Answer)},
      scene.play outside fuel calls = some (answers, last) → Plays outside scene (calls.map some) answers last
  | [], _, _, h => by
    cases h
    exact .nil _
  | call :: calls, _, _, h => by
    obtain ⟨⟨answer, next⟩, hfirst, hrest⟩ := Option.bind_eq_some_iff.1 h
    obtain ⟨⟨answers, _⟩, hplay, heq⟩ := Option.map_eq_some_iff.1 hrest
    cases heq
    obtain ⟨order, horder⟩ := call.exists_along
    refine .cons order ?_ (plays_of_play hplay)
    rw [Option.map_some, horder]
    exact .some (ends_of_finish fuel hfirst)

/-- Two connected sessions. -/
def bothConnected : Scene .bare where
  machine :=
    { world :=
        { (({} : World .bare).put ⟨1⟩ { id := ⟨1⟩, config := {}, state := .connected }).put ⟨2⟩
            { id := ⟨2⟩, config := {}, state := .connected } with
          ids := ⟨3⟩
          tracked := [⟨1⟩, ⟨2⟩] } }

/-- The transport of the first session fails; that of the second sends more from within its first transmit. -/
def firstFails : Outside .bare := fun id shown =>
  match shown with
  | [_] => if id = ⟨1⟩ then .reply (.failed { text := "broken" }) else .call (.enqueue id [7])
  | _ => .reply .done

def flushedAndShutDown : List (Call .bare) :=
  [.hostEnqueue ⟨1⟩ [5], .hostEnqueue ⟨2⟩ [6], .hostFlushAll .latestFirst, .hostShutdown .asOpened]

theorem sessions_apart_firstFails :
    ∃ answers last, Plays firstFails bothConnected (flushedAndShutDown.map some) answers last ∧
      answers = [some (.flag true), some (.flag true), some (.flushed (.ok ⟨5, 1, 1⟩)), some .nothing] ∧
      ∀ id, ∃ ledger solo,
        Plays firstFails (bothConnected.alone id) (callsAlone id false flushedAndShutDown) ledger solo ∧
          last.Matches id solo := by
  obtain ⟨last, hplay⟩ : ∃ last, bothConnected.play firstFails 9 flushedAndShutDown =
      some ([some (.flag true), some (.flag true), some (.flushed (.ok ⟨5, 1, 1⟩)), some .nothing], last) := ⟨_, rfl⟩
  have hplays := plays_of_play hplay
  have hminds : firstFails.Minds := by
    intro id shown call hcall
    unfold firstFails at hcall
    split at hcall
    · split at hcall
      · cases hcall
      · cases hcall
        rfl
    · cases hcall
  obtain ⟨hsolos, -, hagree, -⟩ := sessions_apart hminds (rfl : bothConnected.machine.waiting = []) (by decide)
    (by decide : ∀ call ∈ flushedAndShutDown, call.isForSessions = true)
  choose ledger lasts halone using hsolos.1 ⟨_, _, hplays⟩
  exact ⟨_, last, hplays, rfl, fun id => ⟨ledger id, lasts id, halone id, (hagree _ _ _ _ hplays halone).1 id⟩⟩

end FramedLink
