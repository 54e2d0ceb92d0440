/-!
# A spin lock

A lock of one bit, for sections of a few memory operations, and a value behind such a lock.  Taking the lock tries one
exchange of free for taken; who fails waits until the lock looks free and tries again.  Here are the single operations;
many workers contending for one lock are in `FramedLink.SpinLock.Contention`.

Main statements: a try on a taken lock fails and changes nothing (`SpinLock.tryTake_taken`), and one on a free lock
takes it (`SpinLock.tryTake_free`).
-/
namespace FramedLink

/-- One bit: taken or free. -/
structure SpinLock where
  taken : Bool := false
deriving DecidableEq

namespace SpinLock

def free : SpinLock := {}

/-- One exchange of free for taken: whether it succeeded, and the lock afterwards. -/
def tryTake (lock : SpinLock) : Bool × SpinLock := if lock.taken then (false, lock) else (true, ⟨true⟩)

/-- Frees the lock, whoever holds it. -/
def release (_ : SpinLock) : SpinLock := free

@[simp] theorem tryTake_taken : tryTake ⟨true⟩ = (false, ⟨true⟩) := rfl

@[simp] theorem tryTake_free : tryTake ⟨false⟩ = (true, ⟨true⟩) := rfl

end SpinLock

/-- A value and the lock that guards it. -/
structure Guarded (α : Type) where
  value : α
  lock : SpinLock := .free
deriving DecidableEq

namespace Guarded

variable {α : Type}

def isLocked (cell : Guarded α) : Bool := cell.lock.taken

/-- The cell with its guard taken, or nothing if another holds it. -/
def tryLock (cell : Guarded α) : Option (Guarded α) :=
  match cell.lock.tryTake with
  | (true, lock) => some { cell with lock }
  | (false, _) => none

/-- Changes the value; for the holder of the guard, or for a sole owner, who needs no guard. -/
def modify (cell : Guarded α) (f : α → α) : Guarded α := { cell with value := f cell.value }

def unlock (cell : Guarded α) : Guarded α := { cell with lock := cell.lock.release }

end Guarded
end FramedLink
