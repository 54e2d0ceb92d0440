import Mathlib.Data.List.Forall2
import FramedLink.Proofs.Runs.Order
/-!
# Calls under way and calls that have ended

Of the events of a run each is about one call, the one that begins or the innermost that waits.  So it can be read off
them which calls are under way and which have ended, what each of them asked of outside code, how that ended, and what
the call answered (`Ledger.after`).

Main statement: the calls under way are those that wait on the machine (`Ledger.Tallies.run`).
-/
namespace FramedLink

variable {A : Application}

/-- A call under way, and what it has asked of outside code so far, each with the reply. -/
structure Ongoing (A : Application) where
  call : Call A
  exchanged : List (Query A × Reply) := []

/-- Outside code has returned to the call once more. -/
def Ongoing.heard (ongoing : Ongoing A) (query : Query A) (reply : Reply) : Ongoing A :=
  { ongoing with exchanged := ongoing.exchanged ++ [(query, reply)] }

/-- A call that has ended. -/
structure Finished (A : Application) extends Ongoing A where
  answer : Answer

/-- The calls under way, the innermost first, and those that have ended, in the order in which they did. -/
structure Ledger (A : Application) where
  ongoing : List (Ongoing A) := []
  finished : List (Finished A) := []

namespace Ledger

/-- The call that ends with an event, if one does. -/
def ends (ledger : Ledger A) : Event A → Option (Finished A)
  | .called call (.answers answer) => some ⟨⟨call, []⟩, answer⟩
  | .returned query reply (.answers answer) =>
    ledger.ongoing.head?.map fun innermost => ⟨innermost.heard query reply, answer⟩
  | .called _ (.asks _) | .returned _ _ (.asks _) => none

/-- The calls that are under way after an event. -/
def goOn (ledger : Ledger A) : Event A → List (Ongoing A)
  | .called call (.asks _) => ⟨call, []⟩ :: ledger.ongoing
  | .called _ (.answers _) => ledger.ongoing
  | .returned query reply (.asks _) => ledger.ongoing.modifyHead (·.heard query reply)
  | .returned _ _ (.answers _) => ledger.ongoing.tail

def note (ledger : Ledger A) (event : Event A) : Ledger A :=
  ⟨ledger.goOn event, ledger.finished ++ (ledger.ends event).toList⟩

def after (ledger : Ledger A) (events : List (Event A)) : Ledger A := events.foldl note ledger

/-- The calls under way are those that wait. -/
def Tallies (ledger : Ledger A) (machine : Machine A) : Prop :=
  List.Forall₂ (fun ongoing waiting => ongoing.call.Leaves waiting.rest) ledger.ongoing machine.waiting

variable {ledger : Ledger A} {machine next last : Machine A} {event : Event A}

theorem Tallies.turns {scope : SessionId → Prop} (h : ledger.Tallies machine)
    (hturns : machine.Turns scope next event) : (ledger.note event).Tallies next := by
  unfold Tallies at h ⊢
  cases hturns with
  | begins _ hleaves _ hwaiting _ =>
    rw [hwaiting]
    exact .cons hleaves h
  | passes _ hwaiting _ =>
    rw [hwaiting]
    exact h
  | goesOn hinnermost _ hleaves _ hwaiting _ =>
    rw [hinnermost] at h
    rw [hwaiting]
    obtain ⟨ongoing, outer, hongoing, houter, heq⟩ := List.forall₂_cons_right_iff.1 h
    simp only [note, goOn, heq, List.modifyHead_cons]
    exact .cons (hleaves ongoing.call hongoing) houter
  | ends hinnermost _ hwaiting _ =>
    rw [hinnermost] at h
    rw [hwaiting]
    obtain ⟨ongoing, outer, -, houter, heq⟩ := List.forall₂_cons_right_iff.1 h
    simp only [note, goOn, heq, List.tail_cons]
    exact houter

/-- The innermost call under way is the one that waits innermost. -/
theorem Tallies.innermost (h : ledger.Tallies machine) {innermost : Waiting A} {outer : List (Waiting A)}
    (hinnermost : machine.waiting = innermost :: outer) : ∃ ongoing below, ledger.ongoing = ongoing :: below ∧
      ongoing.call.Leaves innermost.rest := by
  unfold Tallies at h
  rw [hinnermost] at h
  obtain ⟨ongoing, below, hleaves, -, heq⟩ := List.forall₂_cons_right_iff.1 h
  exact ⟨ongoing, below, heq, hleaves⟩

theorem ends_returned {ongoing : Ongoing A} {below : List (Ongoing A)} (heq : ledger.ongoing = ongoing :: below)
    (query : Query A) (reply : Reply) (answer : Answer) : ledger.ends (.returned query reply (.answers answer)) =
      some ⟨ongoing.heard query reply, answer⟩ := by
  rw [ends, heq]
  rfl

/-- A call that ends has been made just now, or outside code has returned to what was left of it. -/
theorem Tallies.cases_ends {scope : SessionId → Prop} (h : ledger.Tallies machine)
    (hturns : machine.Turns scope next event) {record : Finished A} (hends : ledger.ends event = some record) :
    event = .called record.call (.answers record.answer) ∧
      record.call.begin machine.world = .finish next.world record.answer ∨
    ∃ rest reply, record.call.Leaves rest ∧ rest.resume machine.world reply = .finish next.world record.answer := by
  cases hturns with
  | begins => cases hends
  | passes hactivity _ _ =>
    cases hends
    exact .inl ⟨rfl, hactivity⟩
  | goesOn => cases hends
  | @ends innermost outer reply answer hinnermost hactivity _ _ =>
    obtain ⟨ongoing, below, heq, hleaves⟩ := h.innermost hinnermost
    rw [ends_returned heq] at hends
    cases hends
    exact .inr ⟨innermost.rest, reply, hleaves, hactivity⟩

/-- Of whatever waits the call is under way that has left it. -/
theorem Tallies.exists_ongoing (h : ledger.Tallies machine) {waiting : Waiting A} (hmem : waiting ∈ machine.waiting) :
    ∃ ongoing ∈ ledger.ongoing, ongoing.call.Leaves waiting.rest := by
  obtain ⟨place, hplace, rfl⟩ := List.mem_iff_getElem.1 hmem
  have hlength : place < ledger.ongoing.length := by
    rw [List.Forall₂.length_eq h]
    exact hplace
  exact ⟨ledger.ongoing[place], List.getElem_mem hlength, List.Forall₂.get h hlength hplace⟩

theorem after_concat (events : List (Event A)) (event : Event A) :
    ledger.after (events ++ [event]) = (ledger.after events).note event := List.foldl_append

/-- **The calls under way are those that wait**, along every run. -/
theorem Tallies.run {moves : List (Move A)} {events : List (Event A)} (h : ledger.Tallies machine)
    (horder : machine.InOrder) (hrun : machine.run moves = some (last, events)) :
    (ledger.after events).Tallies last := by
  refine (Machine.run_invariant (motive := fun past machine => machine.InOrder ∧ (ledger.after past).Tallies machine)
    (fun hboth hmove => ?_) ⟨horder, h⟩ hrun).2
  obtain ⟨horder, h⟩ := hboth
  rw [after_concat]
  exact ⟨horder.move hmove, h.turns (horder.turns hmove)⟩

/-- A call under way was made before, or at one of the events. -/
theorem called_of_ongoing : ∀ (events : List (Event A)) {ledger : Ledger A} {ongoing : Ongoing A},
    ongoing ∈ (ledger.after events).ongoing →
    (∃ before ∈ ledger.ongoing, before.call = ongoing.call) ∨ ∃ signal, .called ongoing.call signal ∈ events
  | [], _, ongoing, hmem => .inl ⟨ongoing, hmem, rfl⟩
  | event :: events, ledger, ongoing, hmem => by
    rcases called_of_ongoing events hmem with ⟨before, hbefore, hcall⟩ | ⟨signal, hcalled⟩
    · rw [← hcall]
      match event with
      | .called call (.asks query) =>
        rcases List.mem_cons.1 hbefore with rfl | hbefore
        · exact .inr ⟨.asks query, List.mem_cons_self⟩
        · exact .inl ⟨before, hbefore, rfl⟩
      | .called call (.answers answer) => exact .inl ⟨before, hbefore, rfl⟩
      | .returned query reply (.asks next) =>
        cases hongoing : ledger.ongoing with
        | nil =>
          simp only [note, goOn, hongoing, List.modifyHead_nil] at hbefore
          cases hbefore
        | cons innermost outer =>
          simp only [note, goOn, hongoing, List.modifyHead_cons] at hbefore
          rcases List.mem_cons.1 hbefore with rfl | hbefore
          · exact .inl ⟨innermost, List.mem_cons_self, rfl⟩
          · exact .inl ⟨before, List.mem_cons_of_mem _ hbefore, rfl⟩
      | .returned query reply (.answers answer) => exact .inl ⟨before, List.mem_of_mem_tail hbefore, rfl⟩
    · exact .inr ⟨signal, List.mem_cons_of_mem _ hcalled⟩

end Ledger

end FramedLink
