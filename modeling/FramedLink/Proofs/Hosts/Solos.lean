import Mathlib.Algebra.BigOperators.Group.Finset.Basic
import FramedLink.Proofs.Hosts.Rounds
import FramedLink.Proofs.Session.FlushLaw
/-!
# One call of a host as calls of its sessions

Beside a host with all its sessions stand scenes that hold one session each, and of which the same was shown
(`Scene.Together`).  Whatever the host is called for, each session alone is called for its part of it (`Call.alone`):
then all have come equally far again, and the host's answer is what the sessions alone have answered
(`Call.gathered`).

Main statements: a call of the host is taken apart (`Scene.Together.turn`) and put together
(`Scene.Together.exists_performs`).
-/
namespace FramedLink

variable {A : Application} {κ α σ : Type}

/-! ## Calls -/

instance : Add TickSummary := ⟨TickSummary.add⟩

instance : Zero TickSummary := ⟨{}⟩

instance : AddCommMonoid TickSummary where
  add_assoc := TickSummary.add_assoc
  zero_add := TickSummary.zero_add
  add_zero _ := rfl
  add_comm a b := by
    show TickSummary.mk _ _ _ = TickSummary.mk _ _ _
    rw [Nat.add_comm, Nat.add_comm a.messages, Nat.add_comm a.transmits]
  nsmul := nsmulRec

/-- What a flush has sent by its answer. -/
def Answer.summary : Option Answer → TickSummary
  | some (.flushed (.ok summary)) => summary
  | _ => {}

namespace Call

/-- Calls that are addressed to a session, and the calls of a host for all its sessions. -/
def isForSessions : Call A → Bool
  | addObserver _ | hostOpen | startLoop _ | wakeLoop _ _ _ => false
  | _ => true

/-- What a session alone is called for when a host is called: a flush of all sessions is a tick of this one, and a
shutdown disconnects it unless the host is shut down already. -/
def alone (id : SessionId) (isShutDown : Bool) : Call A → Option (Call A)
  | hostFlushAll _ => some (.hostTick id)
  | hostShutdown _ => if isShutDown then none else some (.hostDisconnect id .hostShutdown true)
  | call => if call.addressee? = some id then some call else none

/-- Whether the host is shut down after a call. -/
def shutsDown (isShutDown : Bool) : Call A → Bool
  | hostShutdown _ => true
  | _ => isShutDown

/-- The answer of a host by what the sessions alone have answered: that of the session the call is addressed to, and
the sum over all sessions if all are flushed. -/
def gathered (all : List SessionId) (each : SessionId → Option Answer) : Call A → Option Answer
  | hostFlushAll _ => some (.flushed (.ok (∑ id ∈ all.toFinset, Answer.summary (each id))))
  | hostShutdown _ => some .nothing
  | call => call.addressee?.bind each

/-- The call, with the host going through its sessions in the given order. -/
def along (order : Enumeration) : Call A → Call A
  | hostFlushAll _ => hostFlushAll order
  | hostShutdown _ => hostShutdown order
  | wakeLoop number now _ => wakeLoop number now order
  | call => call

variable {call : Call A} {id : SessionId}

theorem cases_isForSessions (h : call.isForSessions = true) :
    (∃ order, call = .hostFlushAll order) ∨ (∃ order, call = .hostShutdown order) ∨
      ∃ id, call.addressee? = some id := by
  cases call <;> first | exact .inl ⟨_, rfl⟩ | exact .inr (.inl ⟨_, rfl⟩) | exact .inr (.inr ⟨_, rfl⟩) | cases h

theorem alone_of_addressee (h : call.addressee? = some id) (other : SessionId) (isShutDown : Bool) :
    call.alone other isShutDown = if id = other then some call else none := by
  cases call <;> cases h <;> simp only [alone, addressee?, Option.some.injEq]

theorem addressee_of_alone {isShutDown : Bool} {single : Call A} (h : call.alone id isShutDown = some single) :
    single.addressee? = some id := by
  unfold alone at h
  split at h
  · cases h
    rfl
  · split at h <;> cases h
    rfl
  · split at h
    · rename_i haddressee
      cases h
      exact haddressee
    · cases h

theorem shutsDown_of_addressee (h : call.addressee? = some id) (isShutDown : Bool) :
    call.shutsDown isShutDown = isShutDown := by
  cases call <;> cases h <;> rfl

theorem gathered_of_addressee (h : call.addressee? = some id) (all : List SessionId)
    (each : SessionId → Option Answer) : call.gathered all each = each id := by
  cases call <;> cases h <;> rfl

theorem along_of_addressee (h : call.addressee? = some id) (order : Enumeration) : call.along order = call := by
  cases call <;> cases h <;> rfl

/-- What a session alone is called for leaves a host no choice of order. -/
theorem along_alone (call : Call A) (id : SessionId) (isShutDown : Bool) (order : Enumeration) :
    (call.alone id isShutDown).map (·.along order) = call.alone id isShutDown := by
  cases hsingle : call.alone id isShutDown with
  | none => rfl
  | some single => exact congrArg some (along_of_addressee (addressee_of_alone hsingle) order)

theorem exists_along (call : Call A) : ∃ order, call.along order = call := by
  cases call with
  | hostFlushAll order | hostShutdown order | wakeLoop _ _ order => exact ⟨order, rfl⟩
  | _ => exact ⟨.asOpened, rfl⟩

end Call

/-- A call is performed, or there is none. -/
inductive Turn (outside : Outside A) : Scene A → Option (Call A) → Option Answer → Scene A → Prop
  | none (scene : Scene A) : Turn outside scene none none scene
  | some {scene next : Scene A} {call : Call A} {answer : Answer} (h : Performs outside scene call answer next) :
    Turn outside scene (some call) (some answer) next

/-! ## A host beside its sessions -/

namespace Scene

/-- A scene with all sessions, and one for each session; nothing waits. -/
structure Together (scene : Scene A) (solos : SessionId → Scene A) : Prop where
  same : ∀ id, scene.Matches id (solos id)
  idle : scene.machine.waiting = []
  idles : ∀ id, (solos id).machine.waiting = []

def shutDown (scene : Scene A) : Scene A :=
  { scene with machine := { scene.machine with world := { scene.machine.world with isShutDown := true } } }

/-- Sessions are forgotten at most. -/
def Keeps (scene next : Scene A) : Prop := next.machine.world.tracked.Sublist scene.machine.world.tracked

namespace Together

variable {outside : Outside A} {scene next last : Scene A} {solos solos' : SessionId → Scene A} {id : SessionId}
  {ids : List SessionId} {call : Call A} {answer : Answer} {callOf : SessionId → Call A} {each : SessionId → Answer}

/-- A session that has come as far alone as with the others leaves the others as they were. -/
theorem update (h : scene.Together solos) {solo : Scene A} (hlevel : Level id scene (solos id) last solo)
    (hidle : last.machine.waiting = []) : last.Together (Function.update solos id solo) where
  same other := by
    by_cases hother : other = id
    · subst hother
      rw [Function.update_self]
      exact hlevel.same
    · rw [Function.update_of_ne hother]
      exact (hlevel.beside.same hother).symm.trans (h.same other)
  idle := hidle
  idles other := by
    by_cases hother : other = id
    · subst hother
      rw [Function.update_self, hlevel.waiting]
      exact hidle
    · rw [Function.update_of_ne hother]
      exact h.idles other

theorem performs (h : scene.Together solos) (hminds : outside.Minds) (hcall : call.addressee? = some id)
    (hperforms : Performs outside scene call answer last) :
    ∃ solo, Performs outside (solos id) call answer solo ∧ last.Together (Function.update solos id solo) := by
  obtain ⟨solo, hsolo, hlevel⟩ := hperforms.transfer hminds (h.same id) h.idle (h.idles id) hcall
  exact ⟨solo, hsolo, h.update hlevel hperforms.rests⟩

theorem performed (h : scene.Together solos) (hminds : outside.Minds) (hcall : call.addressee? = some id)
    {solo : Scene A} (hsolo : Performs outside (solos id) call answer solo) :
    ∃ last, Performs outside scene call answer last ∧ last.Together (Function.update solos id solo) := by
  obtain ⟨last, hperforms, -⟩ := hsolo.transfer hminds (h.same id).symm (h.idles id) h.idle hcall
  obtain ⟨solo', hsolo', htogether⟩ := h.performs hminds hcall hperforms
  obtain ⟨-, rfl⟩ := hsolo.unique hsolo'
  exact ⟨last, hperforms, htogether⟩

theorem rounds (hminds : outside.Minds) (hcall : ∀ id, (callOf id).addressee? = some id) (hnodup : ids.Nodup)
    (hrounds : Rounds outside callOf each scene ids last) (h : scene.Together solos) :
    ∃ solos', (∀ id ∈ ids, Performs outside (solos id) (callOf id) (each id) (solos' id)) ∧
      (∀ id, id ∉ ids → solos' id = solos id) ∧ last.Together solos' := by
  induction hrounds generalizing solos with
  | nil scene => exact ⟨solos, fun _ hmem => absurd hmem List.not_mem_nil, fun _ _ => rfl, h⟩
  | @cons scene next last id ids hfirst _ ih =>
    obtain ⟨hnotin, hnodup⟩ := List.nodup_cons.1 hnodup
    obtain ⟨solo, hsolo, hnext⟩ := h.performs hminds (hcall id) hfirst
    obtain ⟨solos', hin, hout, hlast⟩ := ih hnodup hnext
    refine ⟨solos', fun other hmem => ?_, fun other hother => ?_, hlast⟩
    · by_cases hother : other = id
      · subst hother
        rw [hout other hnotin, Function.update_self]
        exact hsolo
      · have hperforms := hin other (List.mem_of_ne_of_mem hother hmem)
        rwa [Function.update_of_ne hother] at hperforms
    · obtain ⟨hne, hmem⟩ := not_or.1 (List.mem_cons.not.1 hother)
      rw [hout other hmem, Function.update_of_ne hne]

theorem exists_rounds (hminds : outside.Minds) (hcall : ∀ id, (callOf id).addressee? = some id) (hnodup : ids.Nodup)
    (h : scene.Together solos) (hsolos : ∀ id ∈ ids, ∃ solo, Performs outside (solos id) (callOf id) (each id) solo) :
    ∃ last, Rounds outside callOf each scene ids last := by
  induction ids generalizing scene solos with
  | nil => exact ⟨scene, .nil scene⟩
  | cons id ids ih =>
    obtain ⟨hnotin, hnodup⟩ := List.nodup_cons.1 hnodup
    obtain ⟨solo, hsolo⟩ := hsolos id (List.mem_cons_self ..)
    obtain ⟨next, hfirst, hnext⟩ := h.performed hminds (hcall id) hsolo
    obtain ⟨last, hrest⟩ := ih hnodup hnext fun other hmem => by
      rw [Function.update_of_ne fun heq : other = id => hnotin (heq ▸ hmem)]
      exact hsolos other (List.mem_cons_of_mem _ hmem)
    exact ⟨last, .cons hfirst hrest⟩

theorem tracks_arranged (order : Enumeration) (scene : Scene A) :
    ∀ id ∈ order.arrange scene.machine.world.tracked, scene.machine.world.tracks id = true := by
  simp [World.tracks]

theorem untracked (h : scene.Together solos) (hmem : id ∉ scene.machine.world.tracked) :
    (solos id).machine.world.tracks id = false := by
  rw [(h.same id).world.tracks]
  simpa [World.tracks] using hmem

/-- **What a host does for all its sessions**, in whatever order, is done for each alone; nothing is done for those it
does not track. -/
theorem loop (loop : Loop A κ α σ) (order : Enumeration) (hminds : outside.Minds) (h : scene.Together solos)
    (hnodup : scene.machine.world.tracked.Nodup) {total : σ}
    (hends : Concludes outside scene.shown
      (loop.whole scene.machine.world total (order.arrange scene.machine.world.tracked)) answer last) :
    ∃ (each : SessionId → α) (solos' : SessionId → Scene A),
      (∀ id, Performs outside (solos id) (loop.call id) (loop.answerOf (each id)) (solos' id)) ∧
      (∀ id, id ∉ scene.machine.world.tracked → each id = loop.nothing) ∧ last.Together solos' ∧ scene.Keeps last ∧
      last.machine.world.isShutDown = scene.machine.world.isShutDown ∧
      answer = loop.answer (((order.arrange scene.machine.world.tracked).map each).foldl loop.add total) := by
  have htracked := tracks_arranged order scene
  have hdistinct := order.nodup_arrange.2 hnodup
  obtain ⟨each, hrounds, hanswer⟩ := (loop.concludes_iff hminds hdistinct h.idle htracked total).1 hends
  obtain ⟨solos', hin, hout, hlast⟩ := rounds hminds loop.addressee hdistinct hrounds h
  obtain ⟨hkeeps, hdown⟩ := hrounds.keeps hminds loop.addressee h.idle
  refine ⟨fun id => if id ∈ scene.machine.world.tracked then each id else loop.nothing, solos', fun id => ?_,
    fun id hmem => if_neg hmem, hlast, hkeeps, hdown, ?_⟩
  · by_cases hmem : id ∈ scene.machine.world.tracked
    · simp only [if_pos hmem]
      exact hin id (order.mem_arrange.2 hmem)
    · simp only [if_neg hmem]
      exact (loop.performs_iff_of_untracked (h.idles id) (h.untracked hmem)).2
        ⟨rfl, hout id (order.mem_arrange.not.2 hmem)⟩
  · rw [hanswer]
    congr 2
    exact List.map_congr_left fun id hmem => (if_pos (order.mem_arrange.1 hmem)).symm

theorem exists_loop (loop : Loop A κ α σ) (order : Enumeration) (hminds : outside.Minds) (h : scene.Together solos)
    (hnodup : scene.machine.world.tracked.Nodup) (total : σ)
    (hsolos : ∀ id, ∃ answer solo, Performs outside (solos id) (loop.call id) answer solo) :
    ∃ answer last, Concludes outside scene.shown
      (loop.whole scene.machine.world total (order.arrange scene.machine.world.tracked)) answer last := by
  have hresult (id : SessionId) :
      ∃ result solo, Performs outside (solos id) (loop.call id) (loop.answerOf result) solo := by
    obtain ⟨answer, solo, hsolo⟩ := hsolos id
    obtain ⟨result, rfl⟩ := loop.exists_result (h.idles id) hsolo
    exact ⟨result, solo, hsolo⟩
  choose each hsolo using hresult
  have htracked := tracks_arranged order scene
  have hdistinct := order.nodup_arrange.2 hnodup
  obtain ⟨last, hrounds⟩ := exists_rounds hminds loop.addressee hdistinct h fun id _ => hsolo id
  exact ⟨_, last, (loop.concludes_iff hminds hdistinct h.idle htracked total).2 ⟨each, hrounds, rfl⟩⟩

/-! ## One call of the host -/

theorem shutDown (h : scene.Together solos) : scene.shutDown.Together solos where
  same id :=
    ⟨⟨(h.same id).world.session, (h.same id).world.knows, (h.same id).world.tracks, (h.same id).world.observers⟩,
      (h.same id).shown⟩
  idle := h.idle
  idles := h.idles

theorem foldl_add (summaries : List TickSummary) : summaries.foldl TickSummary.add {} = summaries.sum :=
  List.sum_eq_foldl.symm

/-- What is sent for all sessions is sent for those that are tracked, in whatever order. -/
theorem sum_tracked (order : Enumeration) {tracked all : List SessionId} (hnodup : tracked.Nodup)
    (hall : tracked ⊆ all) {sent : SessionId → TickSummary} (hnothing : ∀ id, id ∉ tracked → sent id = {}) :
    ((order.arrange tracked).map sent).foldl TickSummary.add {} = ∑ id ∈ all.toFinset, sent id := by
  rw [foldl_add, ((order.perm tracked).map sent).sum_eq, ← List.sum_toFinset sent hnodup]
  refine Finset.sum_subset (fun id hmem => ?_) fun id _ hmem => ?_
  · rw [List.mem_toFinset] at hmem ⊢
    exact hall hmem
  · rw [List.mem_toFinset] at hmem
    exact hnothing id hmem

/-- **A call of the host is one call at most for each session alone**, in whatever order the host goes through its
sessions, and its answer is gathered from theirs. -/
theorem turn {order : Enumeration} (hminds : outside.Minds) (h : scene.Together solos)
    (hnodup : scene.machine.world.tracked.Nodup) (hcall : call.isForSessions = true)
    (hperforms : Performs outside scene (call.along order) answer next) :
    ∃ (each : SessionId → Option Answer) (solos' : SessionId → Scene A),
      (∀ id, Turn outside (solos id) (call.alone id scene.machine.world.isShutDown) (each id) (solos' id)) ∧
      next.Together solos' ∧ scene.Keeps next ∧
      next.machine.world.isShutDown = call.shutsDown scene.machine.world.isShutDown ∧
      ∀ all, scene.machine.world.tracked ⊆ all → some answer = call.gathered all each := by
  rcases call.cases_isForSessions hcall with ⟨_, rfl⟩ | ⟨_, rfl⟩ | ⟨id, hid⟩
  · have hends : Concludes outside scene.shown
        (Loop.flushes.whole scene.machine.world {} (order.arrange scene.machine.world.tracked)) answer next :=
      (performs_iff h.idle rfl).1 hperforms
    obtain ⟨each, solos', hsolos, hnothing, hnext, hkeeps, hdown, hanswer⟩ := h.loop .flushes order hminds hnodup hends
    refine ⟨fun id => some (.flushed (.ok (each id))), solos', fun id => .some (hsolos id), hnext, hkeeps, hdown,
      fun all hall => ?_⟩
    rw [hanswer]
    exact congrArg (fun total => some (Answer.flushed (.ok total))) (sum_tracked order hnodup hall hnothing)
  · have hends := (performs_iff h.idle rfl).1 hperforms
    rw [Call.along, Call.begin, World.shutdown] at hends
    cases hdown : scene.machine.world.isShutDown with
    | true =>
      rw [hdown, if_pos rfl] at hends
      obtain ⟨rfl, rfl⟩ := concludes_finish.1 hends
      refine ⟨fun _ => none, solos, fun id => .none _, ?_, .refl _, hdown, fun _ _ => rfl⟩
      obtain ⟨⟨world, waiting⟩, shown⟩ := scene
      cases h.idle
      exact h
    | false =>
      rw [hdown, if_neg Bool.false_ne_true] at hends
      obtain ⟨each, solos', hsolos, -, hnext, hkeeps, hlast, hanswer⟩ :=
        @loop _ _ _ _ _ _ _ _ _ .farewells order hminds h.shutDown hnodup () hends
      exact ⟨fun _ => some .nothing, solos', fun id => .some (hsolos id), hnext, hkeeps, hlast,
        fun _ _ => congrArg some hanswer⟩
  · rw [Call.along_of_addressee hid] at hperforms
    obtain ⟨solo, hsolo, hnext⟩ := h.performs hminds hid hperforms
    have hbeside := (hperforms.beside hminds h.idle hid).world
    refine ⟨fun other => if id = other then some answer else none, Function.update solos id solo, fun other => ?_,
      hnext, hbeside.sublist, ?_, fun all _ => ?_⟩
    · simp only [Call.alone_of_addressee hid]
      by_cases hother : id = other
      · subst hother
        rw [if_pos rfl, if_pos rfl, Function.update_self]
        exact .some hsolo
      · rw [if_neg hother, if_neg hother, Function.update_of_ne (Ne.symm hother)]
        exact .none _
    · rw [Call.shutsDown_of_addressee hid]
      exact hbeside.isShutDown
    · rw [Call.gathered_of_addressee hid, if_pos rfl]

/-- **A call of the host returns if the calls for the single sessions do**, in whatever order the host goes through its
sessions. -/
theorem exists_performs (order : Enumeration) (hminds : outside.Minds) (h : scene.Together solos)
    (hnodup : scene.machine.world.tracked.Nodup) (hcall : call.isForSessions = true)
    (hsolos : ∀ id, ∃ answer solo,
      Turn outside (solos id) (call.alone id scene.machine.world.isShutDown) answer solo) :
    ∃ answer last, Performs outside scene (call.along order) answer last := by
  have hperforms {single : Call A} {id : SessionId}
      (halone : call.alone id scene.machine.world.isShutDown = some single) :
      ∃ answer solo, Performs outside (solos id) single answer solo := by
    obtain ⟨answer, solo, hturn⟩ := hsolos id
    rw [halone] at hturn
    cases hturn with
    | some h => exact ⟨_, _, h⟩
  rcases call.cases_isForSessions hcall with ⟨_, rfl⟩ | ⟨_, rfl⟩ | ⟨id, hid⟩
  · simp only [Call.along, performs_iff h.idle (rfl : (Call.hostFlushAll order : Call A).session? = none)]
    exact h.exists_loop .flushes order hminds hnodup {} fun id => hperforms rfl
  · simp only [Call.along, performs_iff h.idle (rfl : (Call.hostShutdown order : Call A).session? = none),
      Call.begin, World.shutdown]
    cases hdown : scene.machine.world.isShutDown with
    | true => exact ⟨_, _, concludes_finish.2 ⟨rfl, rfl⟩⟩
    | false =>
      exact h.shutDown.exists_loop .farewells order hminds hnodup () fun id =>
        hperforms (by rw [Call.alone, hdown]; rfl)
  · obtain ⟨answer, solo, hsolo⟩ := hperforms (by rw [Call.alone_of_addressee hid, if_pos rfl])
    obtain ⟨last, hlast, -⟩ := h.performed hminds hid hsolo
    rw [Call.along_of_addressee hid]
    exact ⟨answer, last, hlast⟩

end Together
end Scene
end FramedLink
