import FramedLink.Outbox.Flush
import FramedLink.Proofs.Wire.Sending
/-!
# The backlog of an outbox

What an outbox still has to send is a list of frames: what is left of the held one, then those of the payloads that
wait.  Here is what sending does to such a list, whatever sends it: the first `n` bytes go out, frames that end in them
are gone, and the frame that they end in loses its front (`advance`).  The laws are those of cutting a joined list.
-/
namespace FramedLink

/-- A frame that is still to be completed: what is unsent of it, and the length of its payload. -/
structure Pending where
  unsent : List UInt8
  charge : Nat
deriving DecidableEq

def Pending.ofPayload (payload : Payload) : Pending := ⟨frame payload, payload.length⟩

def Pending.ofHeld (held : Held) : Pending := ⟨held.unsent, held.payloadLen⟩

def unsentOf (backlog : List Pending) : List UInt8 := backlog.flatMap Pending.unsent

/-- What is left of a backlog when its first `n` bytes have been sent. -/
def advance (n : Nat) : List Pending → List Pending
  | [] => []
  | entry :: rest =>
    if entry.unsent.length ≤ n then advance (n - entry.unsent.length) rest
    else { entry with unsent := entry.unsent.drop n } :: rest

/-- No frame is pending of which everything has been sent. -/
def Live (backlog : List Pending) : Prop := ∀ entry ∈ backlog, entry.unsent ≠ []

@[simp] theorem unsentOf_nil : unsentOf [] = [] := rfl

@[simp] theorem unsentOf_cons (entry : Pending) (rest : List Pending) :
    unsentOf (entry :: rest) = entry.unsent ++ unsentOf rest := List.flatMap_cons

@[simp] theorem unsentOf_append (front back : List Pending) :
    unsentOf (front ++ back) = unsentOf front ++ unsentOf back := List.flatMap_append

theorem unsentOf_ofPayload (payloads : List Payload) : unsentOf (payloads.map .ofPayload) = frames payloads := by
  rw [unsentOf, List.flatMap_map]
  rfl

theorem unsentOf_eq_flatten (backlog : List Pending) : unsentOf backlog = (backlog.map Pending.unsent).flatten :=
  List.flatMap_def

theorem live_ofPayload (payloads : List Payload) : Live (payloads.map .ofPayload) := by
  intro entry hentry
  obtain ⟨payload, -, rfl⟩ := List.mem_map.1 hentry
  exact Encoder.frame_ne_nil payload

theorem Live.eq_nil {backlog : List Pending} (h : Live backlog) (hnone : unsentOf backlog = []) : backlog = [] := by
  cases backlog with
  | nil => rfl
  | cons entry rest =>
    rw [unsentOf_cons, List.append_eq_nil_iff] at hnone
    exact absurd hnone.1 (h entry List.mem_cons_self)

theorem Live.take {backlog : List Pending} (h : Live backlog) (k : Nat) : Live (backlog.take k) :=
  fun entry hentry => h entry (List.mem_of_mem_take hentry)

theorem advance_whole {entry : Pending} {n : Nat} (rest : List Pending) :
    advance (entry.unsent.length + n) (entry :: rest) = advance n rest := by
  rw [advance, if_pos (Nat.le_add_right _ _), Nat.add_sub_cancel_left]

theorem advance_front {entry : Pending} {n : Nat} (rest : List Pending) (h : n < entry.unsent.length) :
    advance n (entry :: rest) = { entry with unsent := entry.unsent.drop n } :: rest := by
  rw [advance, if_neg (Nat.not_le.2 h)]

theorem advance_zero {backlog : List Pending} (h : Live backlog) : advance 0 backlog = backlog := by
  cases backlog with
  | nil => rfl
  | cons entry rest => exact advance_front rest (List.length_pos_iff.2 (h entry List.mem_cons_self))

/-- **What is left to be sent** is what was, without the bytes that were sent. -/
theorem unsentOf_advance : ∀ (backlog : List Pending) (n : Nat),
    unsentOf (advance n backlog) = (unsentOf backlog).drop n
  | [], n => by rw [advance, unsentOf_nil, List.drop_nil]
  | entry :: rest, n => by
    rw [advance, unsentOf_cons, List.drop_append]
    split
    · rename_i hwhole
      rw [unsentOf_advance rest, List.drop_of_length_le hwhole, List.nil_append]
    · rename_i hlong
      rw [unsentOf_cons, Nat.sub_eq_zero_of_le (Nat.le_of_not_le hlong), List.drop_zero]

/-- Frames are completed from the front, and the others keep what their payloads are charged. -/
theorem charges_advance : ∀ (backlog : List Pending) (n : Nat),
    ∃ k, k + (advance n backlog).length = backlog.length ∧
      (advance n backlog).map Pending.charge = (backlog.map Pending.charge).drop k
  | [], _ => ⟨0, rfl, rfl⟩
  | entry :: rest, n => by
    rw [advance]
    split
    · obtain ⟨k, hlength, hcharges⟩ := charges_advance rest (n - entry.unsent.length)
      exact ⟨k + 1, by rw [List.length_cons]; omega, hcharges⟩
    · exact ⟨0, by rw [Nat.zero_add]; rfl, rfl⟩

/-- Bytes that end within some frames leave the frames behind them alone. -/
theorem advance_append : ∀ (front back : List Pending) (n : Nat), n ≤ (unsentOf front).length → Live back →
    advance n (front ++ back) = advance n front ++ back
  | [], back, n, h, hback => by
    obtain rfl : n = 0 := Nat.le_zero.1 h
    exact advance_zero hback
  | entry :: rest, back, n, h, hback => by
    rw [List.cons_append, advance, advance]
    split
    · refine advance_append rest back _ ?_ hback
      rw [unsentOf_cons, List.length_append] at h
      omega
    · rfl

/-! ## Limits on completed frames -/

namespace Limit

/-- How many of `n` frames a limit lets through. -/
def among (limit : Limit) (n : Nat) : Nat :=
  match limit with
  | none => n
  | some m => min m n

theorem among_le (limit : Limit) (n : Nat) : limit.among n ≤ n := by
  cases limit with
  | none => exact Nat.le_refl _
  | some m => exact Nat.min_le_right m n

theorem among_zero (limit : Limit) : limit.among 0 = 0 := Nat.le_zero.1 (limit.among_le 0)

theorem among_of_isReached {limit : Limit} (h : limit.isReached = true) (n : Nat) : limit.among n = 0 := by
  obtain rfl : limit = some 0 := of_decide_eq_true h
  exact Nat.zero_min n

/-- A limit that is not reached lets the first frame through, and of the others as many as are left of it. -/
theorem among_succ {limit : Limit} (h : limit.isReached = false) (n : Nat) :
    limit.among (n + 1) = (limit.less 1).among n + 1 := by
  cases limit with
  | none => rfl
  | some m =>
    have hm : m ≠ 0 := fun hzero => of_decide_eq_false h (congrArg some hzero)
    simp only [less, Option.map_some, among]
    omega

/-- A limit that lets at least one frame through. -/
def atLeastOne (limit : Limit) : Limit := limit.map (max 1)

theorem isReached_atLeastOne (limit : Limit) : limit.atLeastOne.isReached = false := by
  cases limit with
  | none => rfl
  | some m => exact decide_eq_false fun hzero => absurd (Option.some.inj hzero) (by omega)

theorem atLeastOne_of_not_reached {limit : Limit} (h : limit.isReached = false) : limit.atLeastOne = limit := by
  cases limit with
  | none => rfl
  | some m =>
    have hm : m ≠ 0 := fun hzero => of_decide_eq_false h (congrArg some hzero)
    exact congrArg some (Nat.max_eq_right (Nat.pos_of_ne_zero hm))

theorem less_atLeastOne (limit : Limit) : limit.atLeastOne.less 1 = limit.less 1 := by
  cases limit with
  | none => rfl
  | some m =>
    have hm : max 1 m - 1 = m - 1 := by omega
    exact congrArg some hm

/-- After `k` completed frames a limit lets through what is left of it. -/
theorem among_less (limit : Limit) (k n : Nat) (h : k ≤ n) (hk : k ≤ limit.among n) :
    (limit.less k).among (n - k) = limit.among n - k := by
  cases limit with
  | none => rfl
  | some m =>
    simp only [less, Option.map_some, among]
    omega

end Limit

end FramedLink
