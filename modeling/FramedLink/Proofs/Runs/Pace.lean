import FramedLink.Proofs.Runs.Order
/-!
# The flush loops along a run

A flush loop changes as it is woken, and as the tick ends that it is in the middle of.  It is in the middle of a tick
exactly as long as that tick waits for outside code, and never in the middle of two.

Main statements: what a move does to a flush loop (`Machine.Paced.beats`), and that it is in the middle of as many ticks
as wait (`Machine.Paced.run`).
-/
namespace FramedLink

variable {A : Application} {number : Nat}

/-- The number of the flush loop that a call wakes. -/
def Call.wakes? : Call A → Option Nat
  | wakeLoop number _ _ => some number
  | _ => none

/-- The number of the flush loop whose tick it is. -/
def Suspended.loop? : Suspended A → Option Nat
  | loop number _ => some number
  | transition _ | tick _ | disconnect _ | dispatch _ | report _ | arrival _ | hostTick _ | sweep _ | shutdown _ => none

/-- A flush loop is woken and flushes. -/
def Event.flushes (number : Nat) : Event A → Bool
  | called (.wakeLoop _ _ _) (.answers (.flag false)) => false
  | called (.wakeLoop other _ _) _ => other = number
  | called _ _ | returned _ _ _ => false

/-- How many ticks a loop is in the middle of. -/
def FlushLoop.ticks : FlushLoop → Nat
  | ticking _ => 1
  | waiting _ | ended => 0

/-- How many ticks a loop waits for. -/
def FlushLoop.waits : FlushLoop → Nat
  | waiting _ => 1
  | ticking _ | ended => 0

theorem FlushLoop.ticks_await (isShutDown : Bool) (due : Nat) : (await isShutDown due).ticks = 0 := by
  cases isShutDown <;> rfl

theorem Call.loop?_of_leaves {call : Call A} {rest : Suspended A} (h : call.Leaves rest) :
    rest.loop? = call.wakes? := by
  cases call <;> cases rest <;> first | rfl | cases h
  rfl

/-- A tick that ends was due. -/
theorem Activity.flag_of_tick {first : Activity A (Sweep A) TickSummary} {world : World A} {ticked : Bool}
    (h : first.andThen (fun sweep => sweep) (fun world _ => .finish (world.settleTick number) true) =
      .finish world ticked) : ticked = true := by
  unfold andThen at h
  split at h
  · exact (Progress.done.inj (congrArg Activity.progress h)).symm
  · cases congrArg Activity.progress h
  · cases congrArg Activity.progress h

/-! ## The books of the loops -/

namespace World

variable {world : World A}

theorem loops_openSession (world : World A) : world.openSession.1.loops = world.loops := by
  rcases world.openSession_cases with ⟨e, heq⟩ | ⟨-, -, heq⟩
  · rw [heq]
  · rw [heq]
    rfl

theorem loops_dropReported (world : World A) (id : SessionId) (state : ConnectionState) :
    (world.dropReported id state).loops = world.loops := by
  unfold dropReported
  split <;> rfl

/-- A loop that is in the middle of a tick waits for the next one or ends, when the tick ends. -/
theorem loop?_settleTick_self {due : Nat} (h : world.loop? number = some (.ticking due)) :
    (world.settleTick number).loop? number = some (.await world.isShutDown due) := by
  have hlength : number < world.loops.length := (List.getElem?_eq_some_iff.1 h).1
  rw [settleTick, h]
  exact loop?_setLoop_self world _ hlength

theorem loop?_settleTick_of_ne (world : World A) {other : Nat} (h : other ≠ number) :
    (world.settleTick other).loop? number = world.loop? number := by
  unfold settleTick
  split
  · exact loop?_setLoop_of_ne world _ h
  · rfl
  · rfl
  · rfl

theorem loop?_of_loops {next : World A} (h : next.loops = world.loops) (number : Nat) :
    next.loop? number = world.loop? number := by rw [loop?, loop?, h]

/-- A loop that is started leaves the others as they are. -/
theorem loop?_startLoop (world : World A) (now number : Nat) : (world.startLoop now).1.loop? number =
    world.loop? number ∨ world.loop? number = none ∧
      (world.startLoop now).1.loop? number = some (.await world.isShutDown now) := by
  simp only [loop?, startLoop]
  rcases Nat.lt_trichotomy number world.loops.length with hless | heq | hmore
  · exact .inl (List.getElem?_append_left hless)
  · subst heq
    exact .inr ⟨List.getElem?_eq_none (Nat.le_refl _), by simp⟩
  · refine .inl ?_
    rw [List.getElem?_eq_none (Nat.le_of_lt hmore), List.getElem?_eq_none]
    rw [List.length_append]
    exact hmore

end World

/-- A call that does not wake a loop leaves it as it is as it begins, or starts it. -/
theorem Call.loop?_notes (world : World A) {call : Call A} (hwakes : call.wakes? ≠ some number) :
    (call.notes world).loop? number = world.loop? number ∨ ∃ now, world.loop? number = none ∧
      (call.notes world).loop? number = some (.await world.isShutDown now) := by
  cases call with
  | hostOpen => exact .inl (World.loop?_of_loops world.loops_openSession number)
  | startLoop now => exact (world.loop?_startLoop now number).imp_right fun hnew => ⟨now, hnew⟩
  | wakeLoop other now order =>
    have hother : other ≠ number := fun heq => hwakes (congrArg some heq)
    refine .inl ?_
    rcases world.wakeLoop_cases other now order with ⟨hsame, -, -⟩ | ⟨due, -, -, hbegin, -⟩
    · rw [Call.notes, hsame]
    · rw [Call.notes, hbegin]
      exact World.loop?_setLoop_of_ne world _ hother
  | _ => exact .inl rfl

theorem Call.loop?_settles (world : World A) {call : Call A} (hwakes : call.wakes? ≠ some number) (answer : Answer) :
    (call.settles world answer).loop? number = world.loop? number := by
  unfold Call.settles
  split
  · exact World.loop?_of_loops (world.loops_dropReported _ _) number
  · exact world.loop?_settleTick_of_ne fun heq => hwakes (congrArg some heq)
  · rfl

theorem Suspended.loop?_settles (world : World A) {rest : Suspended A} (h : rest.loop? ≠ some number) :
    (rest.settles world).loop? number = world.loop? number := by
  cases rest with
  | report report => exact World.loop?_of_loops (world.loops_dropReported report.id report.state) number
  | loop other rest => exact world.loop?_settleTick_of_ne fun heq => h (congrArg some heq)
  | _ => rfl

theorem Event.flushes_of_other {call : Call A} (h : call.wakes? ≠ some number) (signal : Signal A) :
    (Event.called call signal).flushes number = false := by
  unfold Event.flushes
  split
  · rfl
  · rename_i heq
    cases heq
    exact decide_eq_false fun hsame => h (congrArg some hsame)
  · rfl
  · rfl

theorem Call.eq_wakeLoop {call : Call A} (h : call.wakes? = some number) :
    ∃ now order, call = .wakeLoop number now order := by
  cases call with
  | wakeLoop other now order =>
    cases h
    exact ⟨now, order, rfl⟩
  | _ => cases h

/-- A loop that is woken and asks was waiting, and is in the middle of its tick. -/
theorem Call.wakeLoop_asks {world reached : World A} {now : Nat} {order : Enumeration} {query : Query A}
    {rest : Suspended A} (h : (Call.wakeLoop number now order).begin world = .ask reached query rest) :
    ∃ due later, world.loop? number = some (.waiting due) ∧
      ((Call.wakeLoop number now order).notes world).loop? number = some (.ticking later) := by
  obtain ⟨sweep, hasks, -⟩ := Call.wrap_eq_ask h
  rcases world.wakeLoop_cases number now order with ⟨-, hfinish, -⟩ | ⟨due, hdue, -, hbegin, -⟩
  · rw [hfinish] at hasks
    cases congrArg Activity.progress hasks
  · refine ⟨due, nextTick world.config.tickInterval due now, hdue, ?_⟩
    rw [Call.notes, hbegin]
    exact World.loop?_setLoop_self _ _ (List.getElem?_eq_some_iff.1 hdue).1

/-- A loop that is woken and does not ask was not due, or was waiting and is through with its tick. -/
theorem Call.wakeLoop_passes {world reached : World A} {now : Nat} {order : Enumeration} {answer : Answer}
    (h : (Call.wakeLoop number now order).begin world = .finish reached answer) :
    let settled := (Call.wakeLoop number now order).settles ((Call.wakeLoop number now order).notes world) answer
    answer = .flag false ∧ settled.loop? number = world.loop? number ∨
      answer = .flag true ∧ ∃ due later, world.loop? number = some (.waiting due) ∧
        settled.loop? number = some (.await world.isShutDown later) := by
  obtain ⟨ticked, hfinish, rfl⟩ := Call.wrap_eq_finish h
  rcases world.wakeLoop_cases number now order with ⟨hsame, hidle, -⟩ | ⟨due, hdue, -, hbegin, htick⟩
  · rw [hidle] at hfinish
    cases congrArg Activity.progress hfinish
    refine .inl ⟨rfl, ?_⟩
    simp only [Call.settles, Call.notes, hsame]
  · rw [htick] at hfinish
    obtain rfl := Activity.flag_of_tick hfinish
    refine .inr ⟨rfl, due, nextTick world.config.tickInterval due now, hdue, ?_⟩
    simp only [Call.settles, Call.notes, hbegin]
    exact World.loop?_settleTick_self (World.loop?_setLoop_self _ _ (List.getElem?_eq_some_iff.1 hdue).1)

/-! ## What a move does to a loop -/

namespace Machine

variable {machine next last : Machine A} {event : Event A}

/-- How many ticks of a flush loop wait for outside code. -/
def ticksOf (number : Nat) (machine : Machine A) : Nat :=
  machine.waiting.countP fun waiting => waiting.rest.loop? = some number

/-- A flush loop is in the middle of as many ticks as wait for outside code. -/
def Paced (number : Nat) (machine : Machine A) : Prop :=
  machine.ticksOf number = ((machine.world.loop? number).map FlushLoop.ticks).getD 0

/-- What a move does to a flush loop: nothing, or the loop is started, a due tick begins, begins and ends, or ends. -/
inductive Beats (number : Nat) (machine next : Machine A) : Event A → Prop where
  | rests {event : Event A} (hloop : next.world.loop? number = machine.world.loop? number)
      (hticks : next.ticksOf number = machine.ticksOf number) (hevent : event.flushes number = false) :
      Beats number machine next event
  | starts {event : Event A} {now : Nat} (hnone : machine.world.loop? number = none)
      (hloop : next.world.loop? number = some (.await machine.world.isShutDown now))
      (hticks : next.ticksOf number = machine.ticksOf number) (hevent : event.flushes number = false) :
      Beats number machine next event
  | begins {event : Event A} {due later : Nat} (hwaiting : machine.world.loop? number = some (.waiting due))
      (hloop : next.world.loop? number = some (.ticking later))
      (hticks : next.ticksOf number = machine.ticksOf number + 1) (hevent : event.flushes number = true) :
      Beats number machine next event
  | passes {event : Event A} {due later : Nat} (hwaiting : machine.world.loop? number = some (.waiting due))
      (hloop : next.world.loop? number = some (.await machine.world.isShutDown later))
      (hticks : next.ticksOf number = machine.ticksOf number) (hevent : event.flushes number = true) :
      Beats number machine next event
  | ends {event : Event A} {due : Nat} (hticking : machine.world.loop? number = some (.ticking due))
      (hloop : next.world.loop? number = some (.await machine.world.isShutDown due))
      (hticks : machine.ticksOf number = next.ticksOf number + 1) (hevent : event.flushes number = false) :
      Beats number machine next event

theorem Paced.exists_ticking (h : machine.Paced number) (hticks : 0 < machine.ticksOf number) :
    ∃ due, machine.world.loop? number = some (.ticking due) := by
  unfold Paced at h
  rw [h] at hticks
  cases hloop : machine.world.loop? number with
  | none =>
    rw [hloop] at hticks
    cases hticks
  | some loop =>
    rw [hloop] at hticks
    cases loop with
    | ticking due => exact ⟨due, rfl⟩
    | waiting due => cases hticks
    | ended => cases hticks

/-- **Every move is one of these** for a loop that is in the middle of the ticks that wait. -/
theorem Paced.beats {scope : SessionId → Prop} (h : machine.Paced number) (hturns : machine.Turns scope next event) :
    machine.Beats number next event := by
  cases hturns with
  | @begins call query rest hactivity hleaves _ hwaiting hbooks =>
    have hloop := hbooks.loop? number
    have hticks : next.ticksOf number = machine.ticksOf number + if call.wakes? = some number then 1 else 0 := by
      simp only [ticksOf, hwaiting, List.countP_cons, Call.loop?_of_leaves hleaves, decide_eq_true_eq]
    by_cases hwakes : call.wakes? = some number
    · rw [if_pos hwakes] at hticks
      obtain ⟨now, order, rfl⟩ := Call.eq_wakeLoop hwakes
      obtain ⟨due, later, hdue, hbegun⟩ := Call.wakeLoop_asks hactivity
      exact .begins hdue (hloop.trans hbegun) hticks (decide_eq_true rfl)
    · rw [if_neg hwakes] at hticks
      have hquiet := Event.flushes_of_other hwakes (Signal.asks query)
      rcases call.loop?_notes machine.world hwakes with hsame | ⟨now, hnone, hnew⟩
      · exact .rests (hloop.trans hsame) hticks hquiet
      · exact .starts hnone (hloop.trans hnew) hticks hquiet
  | @passes call answer hactivity hwaiting hbooks =>
    have hloop := hbooks.loop? number
    have hticks : next.ticksOf number = machine.ticksOf number := by rw [ticksOf, ticksOf, hwaiting]
    by_cases hwakes : call.wakes? = some number
    · obtain ⟨now, order, rfl⟩ := Call.eq_wakeLoop hwakes
      rcases Call.wakeLoop_passes hactivity with ⟨rfl, hsame⟩ | ⟨rfl, due, later, hdue, hsettled⟩
      · exact .rests (hloop.trans hsame) hticks rfl
      · exact .passes hdue (hloop.trans hsettled) hticks (decide_eq_true rfl)
    · rw [Call.loop?_settles _ hwakes] at hloop
      have hquiet := Event.flushes_of_other hwakes (Signal.answers answer)
      rcases call.loop?_notes machine.world hwakes with hsame | ⟨now, hnone, hnew⟩
      · exact .rests (hloop.trans hsame) hticks hquiet
      · exact .starts hnone (hloop.trans hnew) hticks hquiet
  | @goesOn innermost outer reply query rest hinnermost _ hleaves _ hwaiting hbooks =>
    have hsame : rest.loop? = innermost.rest.loop? := by
      obtain ⟨call, hcall⟩ := Call.exists_leaves innermost.rest
      rw [Call.loop?_of_leaves hcall, Call.loop?_of_leaves (hleaves call hcall)]
    have hcredit := machine.world.sameHost_returned innermost.query reply
    refine .rests ((hbooks.loop? number).trans (hcredit.loop? number)) ?_ rfl
    simp only [ticksOf, hwaiting, hinnermost, List.countP_cons, hsame]
  | @ends innermost outer reply answer hinnermost _ hwaiting hbooks =>
    have hloop := hbooks.loop? number
    have hticks :
        machine.ticksOf number = next.ticksOf number + if innermost.rest.loop? = some number then 1 else 0 := by
      simp only [ticksOf, hwaiting, hinnermost, List.countP_cons, decide_eq_true_eq]
    have hcredit := machine.world.sameHost_returned innermost.query reply
    by_cases hown : innermost.rest.loop? = some number
    · rw [if_pos hown] at hticks
      obtain ⟨due, hdue⟩ := h.exists_ticking (hticks ▸ Nat.succ_pos _)
      obtain ⟨query, rest⟩ := innermost
      cases rest with
      | loop other sweep =>
        cases hown
        have hticking := (hcredit.loop? number).trans hdue
        simp only [Suspended.settles] at hloop
        rw [World.loop?_settleTick_self hticking, hcredit.isShutDown] at hloop
        exact .ends hdue hloop hticks rfl
      | _ => cases hown
    · rw [if_neg hown] at hticks
      rw [Suspended.loop?_settles _ hown, hcredit.loop?] at hloop
      exact .rests hloop hticks.symm rfl

/-- What a move does to a flush loop keeps it paced. -/
theorem Beats.paced (h : machine.Beats number next event) (hpaced : machine.Paced number) : next.Paced number := by
  unfold Paced at hpaced ⊢
  cases h with
  | rests hloop hticks _ => rw [hloop, hticks, hpaced]
  | starts hnone hloop hticks _ =>
    rw [hloop, hticks, hpaced, hnone]
    exact (FlushLoop.ticks_await _ _).symm
  | begins hwaiting hloop hticks _ =>
    rw [hloop, hticks, hpaced, hwaiting]
    rfl
  | passes hwaiting hloop hticks _ =>
    rw [hloop, hticks, hpaced, hwaiting]
    exact (FlushLoop.ticks_await _ _).symm
  | ends hticking hloop hticks _ =>
    rw [hticking] at hpaced
    rw [hloop]
    have hnone : next.ticksOf number = 0 := Nat.succ.inj (hticks.symm.trans hpaced)
    exact hnone.trans (FlushLoop.ticks_await _ _).symm

/-- **Along every run a loop is in the middle of as many ticks as wait.** -/
theorem Paced.run {moves : List (Move A)} {events : List (Event A)} (h : machine.Paced number)
    (horder : machine.InOrder) (hrun : machine.run moves = some (last, events)) : last.Paced number := by
  refine (run_invariant (motive := fun _ machine => machine.InOrder ∧ machine.Paced number)
    (fun hboth hmove => ?_) ⟨horder, h⟩ hrun).2
  obtain ⟨horder, h⟩ := hboth
  exact ⟨horder.move hmove, (h.beats (horder.turns hmove)).paced h⟩

end Machine

end FramedLink
