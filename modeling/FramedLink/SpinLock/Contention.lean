import FramedLink.SpinLock
/-!
# Workers contending for one guarded number

Any number of workers add to one guarded number, each a given number of times.  A worker moves in atomic steps: the
exchange that takes the lock, the look at a lock that was not free, the read of the number, the write, the release.
A schedule names the worker of each step, so that every interleaving is one schedule.
-/
namespace FramedLink

/-- Where a worker stands: before its exchange, waiting for the lock to look free, holding the guard before the read,
holding it with the number read, or holding it with the number written. -/
inductive Place where
  | trying
  | watching
  | reading
  | writing (seen : UInt64)
  | releasing
deriving DecidableEq

/-- A worker: where it stands, how many additions are still to be made, and what it adds each time. -/
structure Worker where
  place : Place := .trying
  turns : Nat
  increment : UInt64
deriving DecidableEq

namespace Worker

/-- The worker is between its exchange and its release. -/
def holdsGuard (worker : Worker) : Bool :=
  match worker.place with
  | .trying | .watching => false
  | .reading | .writing _ | .releasing => true

/-- All additions are made and the guard is given back. -/
def isFinished (worker : Worker) : Bool := worker.place = .trying ∧ worker.turns = 0

/-- One atomic step.  A finished worker does nothing. -/
def step (worker : Worker) (cell : Guarded UInt64) : Worker × Guarded UInt64 :=
  match worker.place with
  | .trying =>
    if worker.turns = 0 then (worker, cell)
    else
      match cell.lock.tryTake with
      | (true, lock) => ({ worker with place := .reading }, { cell with lock })
      | (false, _) => ({ worker with place := .watching }, cell)
  | .watching => if cell.lock.taken then (worker, cell) else ({ worker with place := .trying }, cell)
  | .reading => ({ worker with place := .writing cell.value }, cell)
  | .writing seen => ({ worker with place := .releasing }, { cell with value := seen + worker.increment })
  | .releasing => ({ worker with place := .trying, turns := worker.turns - 1 }, cell.unlock)

end Worker

/-- A guarded number and the workers that add to it. -/
structure Contention where
  cell : Guarded UInt64
  workers : List Worker
deriving DecidableEq

namespace Contention

/-- The next step of the worker at a place of the list; no step if nobody is there. -/
def step (contention : Contention) (who : Nat) : Contention :=
  match contention.workers[who]? with
  | none => contention
  | some worker =>
    let (worker, cell) := worker.step contention.cell
    ⟨cell, contention.workers.set who worker⟩

/-- The steps that a schedule names, one after the other. -/
def run (contention : Contention) (schedule : List Nat) : Contention := schedule.foldl step contention

def holders (contention : Contention) : Nat := contention.workers.countP Worker.holdsGuard

def isFinished (contention : Contention) : Bool := contention.workers.all Worker.isFinished

/-- The workers that start while somebody else, who stands first in the list, holds the guard and is about to
release it. -/
def behindHolder (value : UInt64) (workers : List Worker) : Contention :=
  ⟨⟨value, ⟨true⟩⟩, { place := .releasing, turns := 1, increment := 0 } :: workers⟩

/-- A schedule in which everybody first finds the guard taken, then the holder releases it, and then each worker in
turn finishes: a look, and four steps for each of at most `turns` additions. -/
def inTurn (workers turns : Nat) : List Nat :=
  (List.range workers).map (· + 1) ++ 0 :: (List.range workers).flatMap fun i => List.replicate (1 + 4 * turns) (i + 1)

end Contention
end FramedLink
