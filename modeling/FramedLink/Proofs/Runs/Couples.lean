import FramedLink.Proofs.Runs.Alike
/-!
# Machines that run alike

Two machines whose worlds are alike, and on which the same calls wait down to some depth, make the same moves as long as
outside code does not return to what waits below.

Main statements: one move (`Likeness.Couples.move`), and an invariant of a whole run of one machine
(`Likeness.Holding.run`).
-/
namespace FramedLink

variable {A : Application}

namespace Likeness

variable {id : SessionId} {R : Likeness A id} {world world' last : World A} {marks : List Mark}

/-! ## What waits -/

theorem Fits.edits {rest : Suspended A} (h : R.Fits world rest) (hissued : id.number < world.ids.next)
    (hedits : world.Edits marks last) : R.Fits last rest where
  gated := fun message hmessage =>
    (hedits.keep (R.gate message) (fun _ => True) (fun hgate _ hedit => R.keeps hgate hedit) hissued
      (h.gated message hmessage) fun _ _ => True.intro).1
  reported := fun report hreport => by
    refine (h.reported report hreport).imp (fun hfed => hfed) fun hended hid hstate => ?_
    have hrank := (hedits.rank_le hissued).1
    rw [hended hid hstate] at hrank
    exact ConnectionState.eq_disconnected hrank

theorem exists_edits {κ α : Type} {activity : Activity A κ α} {record : α → List Mark}
    (h : activity.Records world record) (hgoing : activity.progress ≠ .stuck) :
    ∃ marks, world.Edits marks activity.world := by
  unfold Activity.Records at h
  split at h
  · exact ⟨_, h⟩
  · exact ⟨_, h⟩
  · rename_i hstuck
    exact absurd hstuck hgoing

/-- The worlds of two machines are alike, and the same calls wait, those below apart. -/
structure Couples (R : Likeness A id) (inner below below' : List (Waiting A)) (machine machine' : Machine A) :
    Prop where
  world : R.Like machine.world machine'.world
  waiting : machine.waiting = inner ++ below
  waiting' : machine'.waiting = inner ++ below'
  fits : ∀ call ∈ inner, R.Fits machine.world call.rest

/-- The same has happened on two machines, and they are coupled again. -/
structure Steps (R : Likeness A id) {σ : Type} (signal : σ → Signal A) (below below' : List (Waiting A))
    (result result' : Machine A × σ) : Prop where
  same : result'.2 = result.2
  couples : ∃ inner, R.Couples inner below below' result.1 result'.1
  gated : ∀ query, signal result.2 = .asks query → R.Gated result.1.world query.handled?

variable {inner below below' : List (Waiting A)} {machine machine' : Machine A}

theorem Alike.settle {activity activity' : Activity A (Suspended A) Answer} (h : R.Alike R.Suspends activity activity')
    (hfits : activity.progress ≠ .stuck → ∀ call ∈ inner, R.Fits activity.world call.rest) :
    Option.Rel (R.Steps (fun signal => signal) below below') (Machine.settle (inner ++ below) activity)
      (Machine.settle (inner ++ below') activity') := by
  unfold Machine.settle
  rw [h.progress]
  cases hprogress : activity.progress with
  | done answer =>
    have hstill := hfits (by rw [hprogress]; exact fun heq => by cases heq)
    exact .some ⟨rfl, ⟨inner, h.world, rfl, rfl, hstill⟩, fun _ hasks => by cases hasks⟩
  | asks query rest =>
    have hstill := hfits (by rw [hprogress]; exact fun heq => by cases heq)
    obtain ⟨hhandled, hrest⟩ := h.fits query rest hprogress
    refine .some ⟨rfl, ⟨⟨query, rest⟩ :: inner, h.world, rfl, rfl, List.forall_mem_cons.2 ⟨hrest, hstill⟩⟩, ?_⟩
    intro other hasks
    cases hasks
    rw [hhandled]
    exact hrest.gated
  | stuck => exact .none

theorem steps_map {σ τ : Type} {signal : σ → Signal A} {signal' : τ → Signal A} (f : σ → τ)
    (hsignal : ∀ s, signal' (f s) = signal s) {result result' : Option (Machine A × σ)}
    (h : Option.Rel (R.Steps signal below below') result result') :
    Option.Rel (R.Steps signal' below below') (result.map fun (next, s) => (next, f s))
      (result'.map fun (next, s) => (next, f s)) := by
  cases h with
  | some hsteps =>
    refine .some ⟨congrArg f hsteps.same, hsteps.couples, fun query hasks => hsteps.gated query ?_⟩
    rw [← hsignal]
    exact hasks
  | none => exact .none

namespace Couples

theorem call (h : R.Couples inner below below' machine machine') (call : Call A) (hfed : call.feeds id = true → R.fed)
    (hlogs : call.logsIn id = true → R.logs) :
    Option.Rel (R.Steps Event.signal below below') (machine.move (.call call)) (machine'.move (.call call)) := by
  have hcan : machine'.canCall call = machine.canCall call := by
    unfold Machine.canCall
    cases call.session? with
    | none => rfl
    | some other => exact h.world.knows other
  unfold Machine.move
  simp only [hcan]
  split
  · rw [h.waiting, h.waiting']
    refine steps_map _ (fun _ => rfl) ((h.world.begin call hfed hlogs).settle fun hgoing => ?_)
    obtain ⟨marks, hedits⟩ := exists_edits (call.begin_records machine.world) hgoing
    exact fun waiting hmem => (h.fits waiting hmem).edits h.world.issued hedits
  · exact .none

theorem reply {innermost : Waiting A} (h : R.Couples (innermost :: inner) below below' machine machine')
    (reply : Reply) :
    Option.Rel (R.Steps Event.signal below below') (machine.move (.reply reply)) (machine'.move (.reply reply)) := by
  unfold Machine.move
  simp only [h.waiting, h.waiting', List.cons_append]
  obtain ⟨hinnermost, hinner⟩ := List.forall_mem_cons.1 h.fits
  refine steps_map _ (fun _ => rfl) ((h.world.resume reply innermost.rest hinnermost).settle fun hgoing => ?_)
  obtain ⟨marks, hedits⟩ := exists_edits (innermost.rest.resume_comesFrom machine.world reply) hgoing
  exact fun waiting hmem => (hinner waiting hmem).edits h.world.issued hedits

end Couples

/-! ## Invariants of one session -/

/-- A likeness of equal sessions is something that is kept of a session. -/
def keeping (id : SessionId) (kept : Session A.Identity → Prop) (gate : A.Message → Session A.Identity → Prop)
    (logs : Prop) (htouch : ∀ {session touch}, kept session → session.Touch touch → kept (touch session))
    (hreceive : ∀ {session}, kept session → ∀ chunk, kept (session.receive chunk).1)
    (hlogs : logs → ∀ {session}, kept session → ∀ identity, kept (session.authenticate identity).1)
    (hadmits : ∀ {session message entry}, kept session → A.table.get? (A.kindOf message) = some entry →
      (entry.requiresAuthentication = true → session.isAuthenticated = true) → gate message session.countHandled)
    (hkeeps : ∀ {session next message deeds}, gate message session → session.Edit deeds next → gate message next) :
    Likeness A id where
  pair session other := other = session ∧ kept session
  fed := True
  logs := logs
  gate := gate
  face := fun h => by rw [h.1]
  touch := fun h htouched => ⟨by rw [h.1], htouch h.2 htouched⟩
  receive := fun _ _ _ h chunk => ⟨⟨by rw [h.1], hreceive h.2 chunk⟩, by rw [h.1]⟩
  authenticate := fun hlog _ _ h identity => ⟨by rw [h.1], hlogs hlog h.2 identity⟩
  admits := fun h => hadmits h.2
  keeps := hkeeps

/-- One machine is coupled with itself: what is kept of the session is kept, and all that waits may go on. -/
def Holding (R : Likeness A id) (machine : Machine A) : Prop := R.Couples machine.waiting [] [] machine machine

namespace Holding

theorem of_pair (hfed : R.fed) (hissued : id.number < machine.world.ids.next) (hknown : machine.world.knows id = true)
    (hpair : R.pair (machine.world.session id) (machine.world.session id))
    (hgated : ∀ waiting ∈ machine.waiting, R.Gated machine.world waiting.rest.handling?) : R.Holding machine where
  world := ⟨hissued, hknown, .inl hfed, _, (World.put_session hknown).symm, hpair⟩
  waiting := (List.append_nil _).symm
  waiting' := (List.append_nil _).symm
  fits := fun waiting hmem => ⟨hgated waiting hmem, fun _ _ => .inl hfed⟩

theorem move {next : Machine A} {move : Move A} {event : Event A} (h : R.Holding machine)
    (hfed : ∀ call, move = .call call → call.feeds id = true → R.fed)
    (hlogs : ∀ call, move = .call call → call.logsIn id = true → R.logs)
    (hmove : machine.move move = some (next, event)) :
    R.Holding next ∧ ∀ query, event.signal = .asks query → R.Gated next.world query.handled? := by
  have hsteps : Option.Rel (R.Steps Event.signal [] []) (machine.move move) (machine.move move) := by
    cases move with
    | call call => exact h.call call (hfed call rfl) (hlogs call rfl)
    | reply reply =>
      cases hwaiting : machine.waiting with
      | nil =>
        rw [Machine.move, hwaiting] at hmove
        cases hmove
      | cons innermost outer =>
        rw [Holding, hwaiting] at h
        exact h.reply reply
  rw [hmove] at hsteps
  obtain ⟨-, ⟨inner, hcouples⟩, hgated⟩ := Option.rel_some_some.1 hsteps
  have hinner : inner = next.waiting := by rw [hcouples.waiting, List.append_nil]
  subst hinner
  exact ⟨hcouples, hgated⟩

theorem run : ∀ (moves : List (Move A)) {machine last : Machine A} {events : List (Event A)}, R.Holding machine →
    machine.run moves = some (last, events) → (∀ call, .call call ∈ moves → call.feeds id = true → R.fed) →
    (∀ call, .call call ∈ moves → call.logsIn id = true → R.logs) → R.Holding last
  | [], _, _, _, h, hrun, _, _ => by
    cases hrun
    exact h
  | move :: moves, machine, last, events, h, hrun, hfed, hlogs => by
    obtain ⟨next, event, later, hmove, hlater, rfl⟩ := Machine.exists_of_run_cons hrun
    have hnext := (h.move (fun call hcall => hfed call (hcall ▸ List.mem_cons_self))
      (fun call hcall => hlogs call (hcall ▸ List.mem_cons_self)) hmove).1
    exact run moves hnext hlater (fun call hmem => hfed call (List.mem_cons_of_mem _ hmem))
      fun call hmem => hlogs call (List.mem_cons_of_mem _ hmem)

end Holding

end Likeness

end FramedLink
