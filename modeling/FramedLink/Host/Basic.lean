import FramedLink.Session.State
/-!
# What a host goes by

A host refuses sessions that it has no room for.  What it does for all its sessions it does for one after the other, in
an order that nobody can rely on (`Enumeration`).  A flush loop makes its first tick at once and then one per interval.
A tick that comes late is not made up for: the next one is due at the first multiple of the interval, counted from the
tick that was missed, that still lies ahead.  Times are in nanoseconds.
-/
namespace FramedLink

/-- A host refuses new sessions while as many as allowed are open, and for good once it is shut down. -/
inductive HostError where
  | tooManySessions (count : Nat)
  | shutDown
deriving DecidableEq

def HostError.message : HostError → String
  | .tooManySessions count => s!"Refusing new session: {count} sessions are already open"
  | .shutDown => "The host is shut down"

/-- An order in which a host goes through sessions: any, and another one at each call. -/
structure Enumeration where
  arrange : List SessionId → List SessionId
  perm : ∀ ids, (arrange ids).Perm ids

namespace Enumeration

/-- The sessions as they were opened. -/
def asOpened : Enumeration := ⟨id, List.Perm.refl⟩

/-- The session that was opened last goes first. -/
def latestFirst : Enumeration := ⟨List.reverse, List.reverse_perm⟩

@[simp] theorem mem_arrange (order : Enumeration) {ids : List SessionId} {id : SessionId} :
    id ∈ order.arrange ids ↔ id ∈ ids := (order.perm ids).mem_iff

theorem forall_mem_arrange (order : Enumeration) {ids : List SessionId} {p : SessionId → Prop} :
    (∀ id ∈ order.arrange ids, p id) ↔ ∀ id ∈ ids, p id := by
  simp only [mem_arrange]

theorem nodup_arrange (order : Enumeration) {ids : List SessionId} : (order.arrange ids).Nodup ↔ ids.Nodup :=
  (order.perm ids).nodup_iff

end Enumeration

/-- A tick no later than this after it was due counts as in time. -/
def tickGrace : Nat := 5000000

/-- When the next tick is due, if the one due at `due` happens at `now`. -/
def nextTick (interval due now : Nat) : Nat :=
  if now ≤ due + tickGrace then due + interval else now + interval - (now - due) % interval

/-- A flush loop waits for a tick, is in the middle of one with the next already set, or has ended. -/
inductive FlushLoop where
  | waiting (due : Nat)
  | ticking (due : Nat)
  | ended
deriving DecidableEq

namespace FlushLoop

/-- When the loop wants to be woken, if it waits. -/
def due? : FlushLoop → Option Nat
  | waiting due => some due
  | ticking _ | ended => none

/-- A loop looks whether its host is shut down before it waits, and ends if so. -/
def await (isShutDown : Bool) (due : Nat) : FlushLoop := if isShutDown then ended else waiting due

end FlushLoop

end FramedLink
