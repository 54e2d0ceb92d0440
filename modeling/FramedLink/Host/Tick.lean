import FramedLink.Host.Flush
/-!
# Ticks of the flush loops

A host may have any number of flush loops.  They are numbered from zero in the order in which they were started, and
each keeps its own time.  Each tick of a loop flushes every session.  A loop looks whether the host is shut down before
it waits for a tick and not after, so a loop that waits when the host is shut down still makes one tick and then ends.

Main statements: a loop that was set is the one that is there (`loop?_setLoop_self`), and no other loop is touched
(`loop?_setLoop_of_ne`).
-/
namespace FramedLink

namespace World

variable {A : Application}

/-- The flush loop with a number, if that many were started. -/
def loop? (world : World A) (number : Nat) : Option FlushLoop := world.loops[number]?

def setLoop (world : World A) (number : Nat) (loop : FlushLoop) : World A :=
  { world with loops := world.loops.set number loop }

/-- Starts one more flush loop, whose first tick is due at once.  The result is its number. -/
def startLoop (world : World A) (now : Nat) : World A × Nat :=
  ({ world with loops := world.loops ++ [.await world.isShutDown now] }, world.loops.length)

/-- After a tick a loop waits for the next one, or ends. -/
def settleTick (world : World A) (number : Nat) : World A :=
  match world.loop? number with
  | some (.ticking due) => world.setLoop number (.await world.isShutDown due)
  | some (.waiting _) | some .ended | none => world

/-- Wakes a flush loop.  The result says whether a tick was due. -/
def wakeLoop (world : World A) (number now : Nat) (order : Enumeration) : Activity A (Sweep A) Bool :=
  match world.loop? number with
  | some (.waiting due) =>
    if now < due then .finish world false
    else
      let world := world.setLoop number (.ticking (nextTick world.config.tickInterval due now))
      (world.flushAll order).andThen id fun world _ => .finish (world.settleTick number) true
  | some (.ticking _) | some .ended | none => .finish world false

def resumeTick (world : World A) (reply : Reply) (number : Nat) (sweep : Sweep A) : Activity A (Sweep A) Bool :=
  (sweep.resume world reply).andThen id fun world _ => .finish (world.settleTick number) true

/-- The moments at which the waiting flush loops have their next ticks due, each with the number of its loop. -/
def dueTicks (world : World A) : List (Nat × Nat) :=
  world.loops.zipIdx.filterMap fun (loop, number) => loop.due?.map fun due => (due, number)

/-- When the next tick of any flush loop is due, if a loop waits. -/
def nextDue? (world : World A) : Option Nat := (world.dueTicks.map Prod.fst).min?

/-- The flush loops to be woken at the moment `now`: the longest overdue first, and those due together in the order in
which they were started. -/
def overdueLoops (world : World A) (now : Nat) : List Nat :=
  ((world.dueTicks.filter fun tick => tick.1 ≤ now).mergeSort fun a b => a.1 ≤ b.1).map Prod.snd

/-- **A flush loop that was set is there**, if one with its number was started. -/
theorem loop?_setLoop_self (world : World A) {number : Nat} (loop : FlushLoop) (h : number < world.loops.length) :
    (world.setLoop number loop).loop? number = some loop := by
  simp [loop?, setLoop, h]

theorem loop?_setLoop_of_ne (world : World A) {number other : Nat} (loop : FlushLoop) (h : number ≠ other) :
    (world.setLoop number loop).loop? other = world.loop? other := by
  simp [loop?, setLoop, List.getElem?_set_ne h]

end World
end FramedLink
