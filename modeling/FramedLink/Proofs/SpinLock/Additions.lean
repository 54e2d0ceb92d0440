import Mathlib.Algebra.Ring.Nat
import FramedLink.SpinLock.Contention
/-!
# No addition is lost

Workers contend for a guarded number, in any interleaving of their atomic steps.  A worker takes the lock by an exchange
that need not follow its last look at it, and a release does not ask whether the lock is held; so that the lock excludes
is a fact about all workers at once (`Contention.Sound`): as many hold a guard as the bit of the lock says, a number that
was read is still the number when it is written back, and the number and all that is still to be added make the same sum
at every moment.  What a step of one worker does is said once, as balances (`Worker.Advance`).

Main statement: at most one worker holds the guard at any moment, the work can always be brought to its end, and then
every addition has been made (`Contention.additions_made`).
-/
namespace FramedLink

namespace Worker

/-- What the worker has still to add.  Before its release the addition at hand is made already. -/
def owed (worker : Worker) : Nat :=
  (if worker.place = .releasing then worker.turns - 1 else worker.turns) * worker.increment.toNat

/-- How many steps the worker has still to make if nobody is in its way. -/
def toDo (worker : Worker) : Nat :=
  match worker.place with
  | .trying => 4 * worker.turns
  | .watching => 4 * worker.turns + 1
  | .reading => 4 * (worker.turns - 1) + 3
  | .writing _ => 4 * (worker.turns - 1) + 2
  | .releasing => 4 * (worker.turns - 1) + 1

/-- A worker that holds the guard is in the middle of an addition, and what it has read is what there is. -/
structure Sound (worker : Worker) (value : UInt64) : Prop where
  busy : worker.holdsGuard = true → 0 < worker.turns
  seen : ∀ n, worker.place = .writing n → n = value

/-- What a step of one worker does, as balances: a guard comes with the lock and goes with it, what is added is no
longer owed, and who holds no guard leaves the number alone. -/
structure Advance (worker : Worker) (cell : Guarded UInt64) (next : Worker) (after : Guarded UInt64) : Prop where
  guards : next.holdsGuard.toNat + cell.lock.taken.toNat = worker.holdsGuard.toNat + after.lock.taken.toNat
  total : after.value + .ofNat next.owed = cell.value + .ofNat worker.owed
  sound : next.Sound after.value
  apart : worker.holdsGuard = false → after.value = cell.value

theorem sound_of_idle {worker : Worker} {value : UInt64} (h : worker.place = .trying ∨ worker.place = .watching) :
    worker.Sound value := by
  obtain ⟨place, turns, increment⟩ := worker
  rcases h with rfl | rfl
  · exact ⟨nofun, fun _ => nofun⟩
  · exact ⟨nofun, fun _ => nofun⟩

/-- **One step of a worker**, one case for each place where it may stand. -/
theorem advance_step {worker : Worker} {cell : Guarded UInt64} (h : worker.Sound cell.value)
    (hheld : worker.holdsGuard = true → cell.lock.taken = true) :
    worker.Advance cell (worker.step cell).1 (worker.step cell).2 := by
  obtain ⟨place, turns, increment⟩ := worker
  obtain ⟨value, ⟨taken⟩⟩ := cell
  cases place with
  | trying =>
    by_cases hdone : turns = 0
    · simp only [step, if_pos hdone]
      exact ⟨rfl, rfl, h, fun _ => rfl⟩
    · cases taken with
      | true =>
        simp only [step, if_neg hdone, SpinLock.tryTake_taken]
        exact ⟨rfl, rfl, sound_of_idle (.inr rfl), fun _ => rfl⟩
      | false =>
        simp only [step, if_neg hdone, SpinLock.tryTake_free]
        exact ⟨rfl, rfl, ⟨fun _ => Nat.pos_of_ne_zero hdone, fun _ => nofun⟩, fun _ => rfl⟩
  | watching =>
    cases taken with
    | true => exact ⟨rfl, rfl, sound_of_idle (.inr rfl), fun _ => rfl⟩
    | false => exact ⟨rfl, rfl, sound_of_idle (.inl rfl), fun _ => rfl⟩
  | reading =>
    refine ⟨rfl, rfl, ⟨fun _ => h.busy rfl, fun n hn => ?_⟩, nofun⟩
    cases hn
    rfl
  | writing seen =>
    obtain rfl : seen = value := h.seen seen rfl
    have hturns : 0 < turns := h.busy rfl
    have howed : turns * increment.toNat = increment.toNat + (turns - 1) * increment.toNat := by
      obtain ⟨more, rfl⟩ := Nat.exists_eq_add_of_le' hturns
      rw [Nat.succ_mul, Nat.add_comm]
      rfl
    refine ⟨rfl, ?_, ⟨fun _ => hturns, fun _ => nofun⟩, nofun⟩
    simp [step, owed, howed, UInt64.ofNat_add, UInt64.add_assoc]
  | releasing =>
    obtain rfl : taken = true := hheld rfl
    exact ⟨rfl, rfl, sound_of_idle (.inl rfl), nofun⟩

/-- A worker comes nearer to its end with every step, if it holds the guard or the lock is free. -/
theorem toDo_step {worker : Worker} {cell : Guarded UInt64}
    (h : worker.holdsGuard = true ∨ cell.lock.taken = false ∧ worker.isFinished = false) :
    (worker.step cell).1.toDo < worker.toDo := by
  obtain ⟨place, turns, increment⟩ := worker
  obtain ⟨value, ⟨taken⟩⟩ := cell
  cases place with
  | trying =>
    obtain ⟨rfl, hturns⟩ : taken = false ∧ turns ≠ 0 := by simpa [holdsGuard, isFinished] using h
    simp only [step, if_neg hturns, SpinLock.tryTake_free, toDo]
    omega
  | watching =>
    obtain ⟨rfl, -⟩ : taken = false ∧ _ := by simpa [holdsGuard] using h
    simp [step, toDo]
  | reading => simp [step, toDo]
  | writing seen => simp [step, toDo]
  | releasing => simp [step, toDo]

end Worker

namespace Contention

/-- What a step does to the list of workers: one of them is replaced. -/
theorem step_of_mem {contention : Contention} {who : Nat} {worker : Worker}
    (h : contention.workers[who]? = some worker) : ∃ before behind,
      contention.workers = before ++ worker :: behind ∧
      contention.step who = ⟨(worker.step contention.cell).2, before ++ (worker.step contention.cell).1 :: behind⟩ := by
  obtain ⟨hwho, rfl⟩ := List.getElem?_eq_some_iff.1 h
  refine ⟨contention.workers.take who, contention.workers.drop (who + 1), ?_, ?_⟩
  · rw [List.getElem_cons_drop, List.take_append_drop]
  · simp [step, List.set_eq_take_append_cons_drop, hwho]

theorem mem_split {before behind : List Worker} {worker other : Worker} :
    other ∈ before ++ worker :: behind ↔ other = worker ∨ other ∈ before ++ behind := by
  simp only [List.mem_append, List.mem_cons, or_left_comm]

theorem holders_split (cell : Guarded UInt64) (before behind : List Worker) (worker : Worker) :
    (Contention.mk cell (before ++ worker :: behind)).holders
      = worker.holdsGuard.toNat + (before ++ behind).countP Worker.holdsGuard := by
  simp only [holders, List.countP_append, List.countP_cons]
  cases worker.holdsGuard with
  | true => simp only [if_true, Bool.toNat_true]; omega
  | false => simp only [Bool.false_eq_true, if_false, Bool.toNat_false]; omega

/-- A sum over the workers, one of them apart. -/
theorem sum_split (f : Worker → Nat) (before behind : List Worker) (worker : Worker) :
    ((before ++ worker :: behind).map f).sum = f worker + ((before ++ behind).map f).sum := by
  simp only [List.map_append, List.map_cons, List.sum_append, List.sum_cons]
  omega

/-- The invariant of a contention that makes `goal` of its number. -/
structure Sound (goal : UInt64) (contention : Contention) : Prop where
  held : contention.holders = contention.cell.lock.taken.toNat
  workers : ∀ worker ∈ contention.workers, worker.Sound contention.cell.value
  total : contention.cell.value + .ofNat (contention.workers.map Worker.owed).sum = goal

/-- Who holds the guard holds it alone, and the lock is taken. -/
theorem Sound.alone {goal : UInt64} {cell : Guarded UInt64} {before behind : List Worker} {worker : Worker}
    (h : (Contention.mk cell (before ++ worker :: behind)).Sound goal) (hholds : worker.holdsGuard = true) :
    cell.lock.taken = true ∧ ∀ other ∈ before ++ behind, other.holdsGuard = false := by
  have hheld : _ = cell.lock.taken.toNat := h.held
  rw [holders_split, hholds, Bool.toNat_true] at hheld
  have hbit := Bool.toNat_le cell.lock.taken
  refine ⟨Bool.toNat_eq_one.1 (by omega), fun other hother => Bool.eq_false_iff.2 ?_⟩
  exact List.countP_eq_zero.1 (by omega) other hother

/-- **One step keeps the invariant**, whoever makes it. -/
theorem Sound.step {goal : UInt64} {contention : Contention} (h : contention.Sound goal) (who : Nat) :
    (contention.step who).Sound goal := by
  cases hwho : contention.workers[who]? with
  | none => simpa only [Contention.step, hwho] using h
  | some worker =>
    obtain ⟨before, behind, hworkers, hstep⟩ := step_of_mem hwho
    obtain ⟨cell, workers⟩ := contention
    obtain rfl : workers = before ++ worker :: behind := hworkers
    have hadvance : worker.Advance cell (worker.step cell).1 (worker.step cell).2 :=
      Worker.advance_step (h.workers worker (mem_split.2 (.inl rfl))) fun hholds => (h.alone hholds).1
    have hheld : _ = cell.lock.taken.toNat := h.held
    have htotal : cell.value + _ = goal := h.total
    rw [hstep]
    refine ⟨?_, fun other hother => ?_, ?_⟩
    · have hguards := hadvance.guards
      rw [holders_split] at hheld ⊢
      simp only
      omega
    · rcases mem_split.1 hother with rfl | hother
      · exact hadvance.sound
      -- Only a holder changes the number, and then nobody else has read it.
      cases hholds : worker.holdsGuard with
      | true =>
        have hfree := (h.alone hholds).2 other hother
        refine ⟨fun hbusy => ?_, fun n hplace => ?_⟩
        · rw [hfree] at hbusy
          cases hbusy
        · rw [Worker.holdsGuard, hplace] at hfree
          cases hfree
      | false =>
        simp only [hadvance.apart hholds]
        exact h.workers other (mem_split.2 (.inr hother))
    · rw [sum_split, UInt64.ofNat_add, ← UInt64.add_assoc] at htotal ⊢
      rw [hadvance.total]
      exact htotal

/-- **Any run keeps the invariant.** -/
theorem Sound.run {goal : UInt64} : ∀ (schedule : List Nat) {contention : Contention}, contention.Sound goal →
    (contention.run schedule).Sound goal
  | [], _, h => h
  | who :: schedule, _, h => Sound.run schedule (h.step who)

/-- Once all workers have finished, the number is what it was to be and the lock is free. -/
theorem Sound.cell_of_isFinished {goal : UInt64} {contention : Contention} (h : contention.Sound goal)
    (hfinished : contention.isFinished = true) : contention.cell = ⟨goal, .free⟩ := by
  obtain ⟨⟨value, ⟨taken⟩⟩, workers⟩ := contention
  have hdone : ∀ worker ∈ workers, worker.place = .trying ∧ worker.turns = 0 := by
    simpa [Contention.isFinished, Worker.isFinished] using hfinished
  have hheld : workers.countP Worker.holdsGuard = taken.toNat := h.held
  have htotal : value + .ofNat (workers.map Worker.owed).sum = goal := h.total
  have hnobody : workers.countP Worker.holdsGuard = 0 := by
    refine List.countP_eq_zero.2 fun worker hworker => ?_
    simp [Worker.holdsGuard, (hdone worker hworker).1]
  have hnothing : (workers.map Worker.owed).sum = 0 := by
    rw [List.sum_eq_zero_iff_forall_eq_nat, List.forall_mem_map]
    intro worker hworker
    simp [Worker.owed, hdone worker hworker]
  rw [hnobody] at hheld
  rw [hnothing, show UInt64.ofNat 0 = 0 from rfl, UInt64.add_zero] at htotal
  rw [htotal, Bool.toNat_eq_zero.1 hheld.symm]
  rfl

/-! ## The work comes to an end -/

def toDo (contention : Contention) : Nat := (contention.workers.map Worker.toDo).sum

theorem toDo_step {contention : Contention} {worker : Worker} (hmem : worker ∈ contention.workers)
    (h : (worker.step contention.cell).1.toDo < worker.toDo) :
    ∃ who, (contention.step who).toDo < contention.toDo := by
  obtain ⟨who, hwho⟩ := List.mem_iff_getElem?.1 hmem
  obtain ⟨before, behind, hworkers, hstep⟩ := step_of_mem hwho
  refine ⟨who, ?_⟩
  rw [hstep, toDo, toDo, hworkers, sum_split, sum_split]
  omega

/-- **Somebody can go on** as long as not all have finished: the holder if there is one, else anybody. -/
theorem Sound.exists_progress {goal : UInt64} {contention : Contention} (h : contention.Sound goal)
    (hunfinished : contention.isFinished = false) : ∃ who, (contention.step who).toDo < contention.toDo := by
  have hheld := h.held
  cases htaken : contention.cell.lock.taken with
  | true =>
    rw [htaken, Bool.toNat_true] at hheld
    obtain ⟨worker, hworker, hholds⟩ := List.countP_pos_iff.1 (Nat.lt_of_sub_eq_succ hheld)
    exact toDo_step hworker (Worker.toDo_step (.inl hholds))
  | false =>
    obtain ⟨worker, hworker, hbusy⟩ := List.all_eq_false.1 hunfinished
    exact toDo_step hworker (Worker.toDo_step (.inr ⟨htaken, Bool.eq_false_iff.2 hbusy⟩))

/-- From every moment on there is a schedule that brings all workers to their end. -/
theorem Sound.exists_finish {goal : UInt64} {contention : Contention} (h : contention.Sound goal) :
    ∃ schedule, (contention.run schedule).isFinished = true := by
  induction hn : contention.toDo using Nat.strongRecOn generalizing contention with
  | ind n ih =>
    cases hfinished : contention.isFinished with
    | true => exact ⟨[], hfinished⟩
    | false =>
      obtain ⟨who, hless⟩ := h.exists_progress hfinished
      obtain ⟨schedule, hend⟩ := ih _ (hn ▸ hless) (h.step who) rfl
      exact ⟨who :: schedule, hend⟩

/-! ## The law -/

/-- What a worker is to do: how often to add, and what to add each time. -/
structure Task where
  turns : Nat
  increment : UInt64
deriving DecidableEq

/-- Workers that have not begun, each with its task, and a free lock. -/
def start (value : UInt64) (tasks : List Task) : Contention :=
  ⟨⟨value, .free⟩, tasks.map fun task => { turns := task.turns, increment := task.increment }⟩

/-- The number with every addition made, modulo the size of a machine word. -/
def addedUp (value : UInt64) (tasks : List Task) : UInt64 :=
  .ofNat (value.toNat + (tasks.map fun task => task.turns * task.increment.toNat).sum)

theorem sound_start (value : UInt64) (tasks : List Task) :
    (start value tasks).Sound (addedUp value tasks) := by
  have hidle : ∀ worker ∈ (start value tasks).workers, worker.place = .trying := by
    intro worker hworker
    obtain ⟨task, -, rfl⟩ := List.mem_map.1 hworker
    rfl
  refine ⟨?_, fun worker hworker => Worker.sound_of_idle (.inl (hidle worker hworker)), ?_⟩
  · refine List.countP_eq_zero.2 fun worker hworker => ?_
    simp [Worker.holdsGuard, hidle worker hworker]
  · have howed : (start value tasks).workers.map Worker.owed =
        tasks.map fun task => task.turns * task.increment.toNat := by
      simp [start, Worker.owed, Function.comp_def]
    rw [howed, addedUp, UInt64.ofNat_add, UInt64.ofNat_toNat]
    rfl

/-- **No addition is lost**, whatever the workers, their increments and the interleaving.  At every moment at most one
worker holds the guard, the lock is taken exactly if one does, and a try on it then fails and changes nothing.  The work
can always be brought to its end; and once it is, the lock is free and the number is what it was with every addition
made. -/
theorem additions_made (value : UInt64) (tasks : List Task) (schedule : List Nat) :
    let contention := (start value tasks).run schedule
    contention.holders ≤ 1 ∧
    (contention.cell.isLocked = true ↔ contention.holders = 1) ∧
    (contention.holders = 1 →
      contention.cell.tryLock = none ∧ contention.cell.lock.tryTake = (false, contention.cell.lock)) ∧
    (∃ later, (contention.run later).isFinished = true) ∧
    (contention.isFinished = true →
      contention.cell.isLocked = false ∧ contention.cell.value = addedUp value tasks) := by
  intro contention
  have h : contention.Sound (addedUp value tasks) := (sound_start value tasks).run schedule
  have hlocked : contention.cell.isLocked = true ↔ contention.holders = 1 := by
    rw [h.held, Bool.toNat_eq_one]
    rfl
  refine ⟨?_, hlocked, fun hheld => ?_, h.exists_finish, fun hfinished => ?_⟩
  · rw [h.held]
    exact Bool.toNat_le _
  · have htake : contention.cell.lock.tryTake = (false, contention.cell.lock) := if_pos (hlocked.2 hheld)
    refine ⟨?_, htake⟩
    rw [Guarded.tryLock, htake]
  · rw [h.cell_of_isFinished hfinished]
    exact ⟨rfl, rfl⟩

end Contention
end FramedLink
