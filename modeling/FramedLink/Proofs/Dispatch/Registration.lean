import Mathlib.Data.List.Nodup
import FramedLink.Dispatch.Table
/-!
# What registration makes of a table

A table is built by calls that name kinds.  A call is answered, and leaves its mark on the entry of its kind, by nothing
but the earlier calls of that kind: the first of them fixes the requirement, and the later ones that agree with it add
their handlers (`get?_after`).  A refused call has then made no entry, for a kind that has a requirement has one.

Main statement: so the requirement of a kind is that of its first call for good, its handlers are those of the calls
that succeeded, and neither the refused calls nor the order among calls of different kinds shows in a table
(`DispatchTable.first_call_binds`).
-/
namespace FramedLink

/-- A call that builds a table.  A handler is registered alike whether it is shared, handed over or a function. -/
inductive Registration (κ η : Type) where
  | declare (kind : κ) (authentication : Bool)
  | register (kind : κ) (authentication : Bool) (handler : η)
deriving DecidableEq

namespace Registration

variable {κ η : Type}

def kind : Registration κ η → κ
  | .declare kind _ => kind
  | .register kind _ _ => kind

def authentication : Registration κ η → Bool
  | .declare _ authentication => authentication
  | .register _ authentication _ => authentication

def handler? : Registration κ η → Option η
  | .declare _ _ => none
  | .register _ _ handler => some handler

theorem filterMap_handler? (call : Registration κ η) : [call].filterMap handler? = call.handler?.toList := by
  cases call <;> rfl

/-- The answer to a call for a kind with this requirement, if the kind has been named. -/
def answer (call : Registration κ η) : Option Bool → Except (DispatchError κ) Unit
  | some existing =>
    if existing = call.authentication then .ok ()
    else .error (.conflictingAuthentication call.kind existing call.authentication)
  | none => .ok ()

/-- What a call makes of the entry of its kind. -/
def mark (call : Registration κ η) : Option (DispatchEntry κ η) → DispatchEntry κ η
  | some entry =>
    if entry.requiresAuthentication = call.authentication then
      { entry with handlers := entry.handlers ++ call.handler?.toList }
    else entry
  | none => ⟨call.kind, call.authentication, call.handler?.toList⟩

theorem exists_of_answer {call : Registration κ η} {required : Option Bool} {e : DispatchError κ}
    (h : call.answer required = .error e) : ∃ existing, required = some existing ∧ existing ≠ call.authentication ∧
      e = .conflictingAuthentication call.kind existing call.authentication := by
  cases required with
  | none => cases h
  | some existing =>
    rw [answer] at h
    by_cases hsame : existing = call.authentication
    · rw [if_pos hsame] at h
      cases h
    · rw [if_neg hsame] at h
      exact ⟨existing, rfl, hsame, (Except.error.inj h).symm⟩

theorem agrees_of_answer {call : Registration κ η} {existing : Bool} (h : call.answer (some existing) = .ok ()) :
    existing = call.authentication := by
  rw [answer] at h
  by_cases hsame : existing = call.authentication
  · exact hsame
  · rw [if_neg hsame] at h
    cases h

variable [DecidableEq κ]

/-- The requirement that the first call for a kind asks for. -/
def firstRequirement (kind : κ) (calls : List (Registration κ η)) : Option Bool :=
  (calls.find? (·.kind = kind)).map authentication

theorem firstRequirement_cons (kind : κ) (call : Registration κ η) (calls : List (Registration κ η)) :
    firstRequirement kind (call :: calls) =
      (if call.kind = kind then some call.authentication else none).or (firstRequirement kind calls) := by
  rw [firstRequirement, List.find?_cons]
  by_cases hkind : call.kind = kind <;> simp [hkind, firstRequirement]

theorem firstRequirement_eq_none {kind : κ} {calls : List (Registration κ η)} :
    firstRequirement kind calls = none ↔ ∀ call ∈ calls, call.kind ≠ kind := by
  simp [firstRequirement]

end Registration

namespace DispatchTable

variable {κ η : Type} [DecidableEq κ]

open Registration

def perform (table : DispatchTable κ η) : Registration κ η → DispatchTable κ η × Except (DispatchError κ) Unit
  | .declare kind authentication => table.declare kind authentication
  | .register kind authentication handler => table.register kind authentication handler

def after (table : DispatchTable κ η) (calls : List (Registration κ η)) : DispatchTable κ η :=
  calls.foldl (fun table call => (table.perform call).1) table

/-- The calls that are not refused. -/
def succeeded (table : DispatchTable κ η) : List (Registration κ η) → List (Registration κ η)
  | [] => []
  | call :: calls =>
    match (table.perform call).2 with
    | .ok () => call :: (table.perform call).1.succeeded calls
    | .error _ => (table.perform call).1.succeeded calls

/-- No kind has two entries. -/
def Keyed (table : DispatchTable κ η) : Prop := (table.entries.map (·.kind)).Nodup

theorem kind_of_found {table : DispatchTable κ η} {kind : κ} {entry : DispatchEntry κ η}
    (h : table.get? kind = some entry) : entry.kind = kind := by
  simpa using List.find?_some h

/-! ## The steps of a call -/

theorem get?_ensure (table : DispatchTable κ η) (kind other : κ) (authentication : Bool) :
    (table.ensure kind authentication).get? other =
      (table.get? other).or (if kind = other then some ⟨kind, authentication, []⟩ else none) := by
  rw [ensure]
  cases hentry : table.get? kind with
  | some entry =>
    by_cases hsame : kind = other
    · rw [← hsame, hentry, Option.some_or]
    · rw [if_neg hsame, Option.or_none]
  | none =>
    simp only [get?, List.find?_append]
    by_cases hsame : kind = other <;> simp [hsame]

theorem get?_append (table : DispatchTable κ η) (kind other : κ) (handler : η) :
    (table.append kind handler).get? other =
      (table.get? other).map fun entry =>
        if kind = other then { entry with handlers := entry.handlers ++ [handler] } else entry := by
  have hkind : ((fun entry : DispatchEntry κ η => decide (entry.kind = other)) ∘ fun entry =>
      if entry.kind = kind then { entry with handlers := entry.handlers ++ [handler] } else entry) =
      fun entry => decide (entry.kind = other) := by
    funext entry
    by_cases hentry : entry.kind = kind <;> simp [hentry]
  rw [append, get?, List.find?_map, hkind]
  change (table.get? other).map _ = _
  cases hfound : table.get? other with
  | none => rfl
  | some entry => simp only [Option.map_some, kind_of_found hfound, eq_comm]

/-- What a call that is not refused does: it makes an entry if its kind has none, and adds its handler if it has one. -/
def grow (table : DispatchTable κ η) (call : Registration κ η) : DispatchTable κ η :=
  match call.handler? with
  | some handler => (table.ensure call.kind call.authentication).append call.kind handler
  | none => table.ensure call.kind call.authentication

theorem ensure_of_required {table : DispatchTable κ η} {kind : κ} {existing : Bool} (authentication : Bool)
    (h : table.requiresAuthentication kind = some existing) : table.ensure kind authentication = table := by
  obtain ⟨entry, hentry, -⟩ := Option.map_eq_some_iff.1 h
  rw [ensure, hentry]

theorem declare_eq (table : DispatchTable κ η) (kind : κ) (authentication : Bool) :
    table.declare kind authentication = (table.ensure kind authentication,
      (Registration.declare kind authentication : Registration κ η).answer (table.requiresAuthentication kind)) := by
  have hrequires : (table.ensure kind authentication).requiresAuthentication kind =
      (table.requiresAuthentication kind).or (some authentication) := by
    rw [requiresAuthentication, get?_ensure, if_pos rfl, requiresAuthentication]
    cases table.get? kind <;> rfl
  rw [declare, hrequires]
  cases table.requiresAuthentication kind with
  | none => simp [answer]
  | some existing =>
    by_cases h : existing = authentication <;> simp [answer, Registration.kind, Registration.authentication, h]

/-- **A call** is answered by the requirement of its kind, and a refused call does nothing. -/
theorem perform_eq (table : DispatchTable κ η) (call : Registration κ η) :
    table.perform call =
      match call.answer (table.requiresAuthentication call.kind) with
      | .ok () => (table.grow call, .ok ())
      | .error e => (table, .error e) := by
  cases call with
  | declare kind authentication =>
    rw [perform, declare_eq]
    cases hanswer : (Registration.declare kind authentication : Registration κ η).answer
        (table.requiresAuthentication kind) with
    | ok _ => simp only [Registration.kind, hanswer, grow, handler?, Registration.authentication]
    | error e =>
      obtain ⟨existing, hrequires, -, -⟩ := exists_of_answer hanswer
      simp only [Registration.kind, hanswer, ensure_of_required authentication hrequires]
  | register kind authentication handler =>
    have hsame : ∀ required, (Registration.register kind authentication handler).answer required =
        (Registration.declare kind authentication : Registration κ η).answer required := fun required => by
      cases required <;> rfl
    rw [perform, register, declare_eq, hsame]
    cases hanswer : (Registration.declare kind authentication : Registration κ η).answer
        (table.requiresAuthentication kind) with
    | ok _ => simp only [Registration.kind, hanswer, grow, handler?, Registration.authentication]
    | error e =>
      obtain ⟨existing, hrequires, -, -⟩ := exists_of_answer hanswer
      simp only [Registration.kind, hanswer, ensure_of_required authentication hrequires]

theorem eq_of_refused {table : DispatchTable κ η} {call : Registration κ η} {e : DispatchError κ}
    (h : (table.perform call).2 = .error e) : (table.perform call).1 = table := by
  rw [perform_eq] at h ⊢
  cases hanswer : call.answer (table.requiresAuthentication call.kind) with
  | error _ => rfl
  | ok _ =>
    rw [hanswer] at h
    cases h

theorem get?_grow (table : DispatchTable κ η) (call : Registration κ η) (other : κ) :
    (table.grow call).get? other =
      if call.kind = other then
        some (match table.get? other with
          | some entry => { entry with handlers := entry.handlers ++ call.handler?.toList }
          | none => ⟨call.kind, call.authentication, call.handler?.toList⟩)
      else table.get? other := by
  rw [grow]
  by_cases hkind : call.kind = other
  · cases call.handler? with
    | none => cases hentry : table.get? other <;> simp [get?_ensure, hkind, hentry]
    | some handler => cases hentry : table.get? other <;> simp [get?_append, get?_ensure, hkind, hentry]
  · cases call.handler? with
    | none => simp [get?_ensure, hkind]
    | some handler => simp [get?_append, get?_ensure, hkind]

/-- A call marks the entry of its kind, and no other. -/
theorem get?_perform (table : DispatchTable κ η) (call : Registration κ η) (other : κ) :
    (table.perform call).1.get? other =
      if call.kind = other then some (call.mark (table.get? other)) else table.get? other := by
  by_cases hkind : call.kind = other
  · subst hkind
    have hrequires : table.requiresAuthentication call.kind =
        (table.get? call.kind).map (·.requiresAuthentication) := rfl
    rw [perform_eq, if_pos rfl]
    cases hanswer : call.answer (table.requiresAuthentication call.kind) with
    | ok _ =>
      rw [get?_grow, if_pos rfl]
      cases hentry : table.get? call.kind with
      | none => rfl
      | some entry =>
        rw [hrequires, hentry, Option.map_some] at hanswer
        rw [mark, if_pos (agrees_of_answer hanswer)]
    | error e =>
      obtain ⟨existing, hsome, hother, -⟩ := exists_of_answer hanswer
      obtain ⟨entry, hentry, rfl⟩ := Option.map_eq_some_iff.1 hsome
      rw [hentry, mark, if_neg hother]
  · rw [perform_eq, if_neg hkind]
    cases call.answer (table.requiresAuthentication call.kind) with
    | ok _ => rw [get?_grow, if_neg hkind]
    | error e => rfl

theorem requiresAuthentication_perform (table : DispatchTable κ η) (call : Registration κ η) (kind : κ) :
    (table.perform call).1.requiresAuthentication kind =
      (table.requiresAuthentication kind).or (if call.kind = kind then some call.authentication else none) := by
  rw [requiresAuthentication, get?_perform, requiresAuthentication]
  by_cases hkind : call.kind = kind
  · rw [if_pos hkind, if_pos hkind, Option.map_some]
    cases table.get? kind with
    | none => rfl
    | some entry => by_cases hagrees : entry.requiresAuthentication = call.authentication <;> simp [mark, hagrees]
  · rw [if_neg hkind, if_neg hkind, Option.or_none]

/-- The handlers of a kind grow by that of a call for the kind that is not refused. -/
theorem handlers_perform (table : DispatchTable κ η) (call : Registration κ η) (kind : κ) :
    (table.perform call).1.handlers kind = table.handlers kind ++
      match (table.perform call).2 with
      | .ok () => if call.kind = kind then call.handler?.toList else []
      | .error _ => [] := by
  rw [perform_eq]
  cases call.answer (table.requiresAuthentication call.kind) with
  | error e => exact (List.append_nil _).symm
  | ok _ =>
    simp only [handlers, get?_grow]
    by_cases hkind : call.kind = kind
    · rw [if_pos hkind, if_pos hkind]
      cases table.get? kind <;> rfl
    · rw [if_neg hkind, if_neg hkind, List.append_nil]

/-! ## Any number of calls -/

theorem after_cons (table : DispatchTable κ η) (call : Registration κ η) (calls : List (Registration κ η)) :
    table.after (call :: calls) = (table.perform call).1.after calls := rfl

theorem requiresAuthentication_after (calls : List (Registration κ η)) (table : DispatchTable κ η) (kind : κ) :
    (table.after calls).requiresAuthentication kind =
      (table.requiresAuthentication kind).or (firstRequirement kind calls) := by
  induction calls generalizing table with
  | nil => exact (Option.or_none).symm
  | cons call calls ih =>
    rw [after_cons, ih, requiresAuthentication_perform, firstRequirement_cons, Option.or_assoc]

/-- The entry of a kind is what the calls for the kind have made of it, in their order. -/
theorem get?_after (calls : List (Registration κ η)) (table : DispatchTable κ η) (kind : κ) :
    (table.after calls).get? kind =
      (calls.filter (·.kind = kind)).foldl (fun entry call => some (call.mark entry)) (table.get? kind) := by
  induction calls generalizing table with
  | nil => rfl
  | cons call calls ih =>
    rw [after_cons, ih, get?_perform]
    by_cases hkind : call.kind = kind <;> simp [hkind]

theorem handlers_after (calls : List (Registration κ η)) (table : DispatchTable κ η) (kind : κ) :
    (table.after calls).handlers kind =
      table.handlers kind ++ ((table.succeeded calls).filter (·.kind = kind)).filterMap handler? := by
  induction calls generalizing table with
  | nil => exact (List.append_nil _).symm
  | cons call calls ih =>
    rw [after_cons, ih, handlers_perform, succeeded]
    cases (table.perform call).2 with
    | error e => rw [List.append_nil]
    | ok _ =>
      by_cases hkind : call.kind = kind
      · rw [if_pos hkind, List.filter_cons_of_pos (by simpa using hkind), ← List.singleton_append,
          List.filterMap_append, filterMap_handler?, List.append_assoc]
      · rw [if_neg hkind, List.filter_cons_of_neg (by simpa using hkind), List.append_nil]

/-- The refused calls do not show in a table. -/
theorem after_succeeded (calls : List (Registration κ η)) (table : DispatchTable κ η) :
    table.after (table.succeeded calls) = table.after calls := by
  induction calls generalizing table with
  | nil => rfl
  | cons call calls ih =>
    rw [succeeded, after_cons]
    cases hanswer : (table.perform call).2 with
    | ok _ => exact ih _
    | error e =>
      simp only [eq_of_refused hanswer]
      exact ih table

/-! ## Tables as their entries show them -/

theorem keyed_ensure {table : DispatchTable κ η} (h : table.Keyed) (kind : κ) (authentication : Bool) :
    (table.ensure kind authentication).Keyed := by
  rw [ensure]
  cases hentry : table.get? kind with
  | some entry => exact h
  | none =>
    have hnew : ∀ entry ∈ table.entries, entry.kind ≠ kind := by simpa [get?] using hentry
    rw [Keyed, List.map_append, List.map_singleton, List.nodup_append]
    refine ⟨h, List.nodup_singleton _, fun a ha b hb => ?_⟩
    obtain ⟨entry, hentry, rfl⟩ := List.mem_map.1 ha
    rw [List.mem_singleton.1 hb]
    exact hnew entry hentry

theorem keyed_append {table : DispatchTable κ η} (h : table.Keyed) (kind : κ) (handler : η) :
    (table.append kind handler).Keyed := by
  have hkinds : (table.append kind handler).entries.map (·.kind) = table.entries.map (·.kind) := by
    rw [append, List.map_map]
    refine List.map_congr_left fun entry _ => ?_
    by_cases hentry : entry.kind = kind <;> simp [hentry]
  rw [Keyed, hkinds]
  exact h

theorem keyed_perform {table : DispatchTable κ η} (h : table.Keyed) (call : Registration κ η) :
    (table.perform call).1.Keyed := by
  rw [perform_eq]
  cases call.answer (table.requiresAuthentication call.kind) with
  | error e => exact h
  | ok _ =>
    change (table.grow call).Keyed
    rw [grow]
    cases call.handler? with
    | none => exact keyed_ensure h _ _
    | some handler => exact keyed_append (keyed_ensure h _ _) _ _

theorem Keyed.after {table : DispatchTable κ η} (h : table.Keyed) (calls : List (Registration κ η)) :
    (table.after calls).Keyed := by
  induction calls generalizing table with
  | nil => exact h
  | cons call calls ih => exact ih (keyed_perform h call)

theorem mem_entries_iff {table : DispatchTable κ η} (h : table.Keyed) {entry : DispatchEntry κ η} :
    entry ∈ table.entries ↔ table.get? entry.kind = some entry := by
  refine ⟨fun hmem => ?_, fun hfound => List.mem_of_find?_eq_some hfound⟩
  cases hfound : table.get? entry.kind with
  | none => exact absurd (List.find?_eq_none.1 hfound entry hmem) (by simp)
  | some other =>
    rw [List.inj_on_of_nodup_map h (List.mem_of_find?_eq_some hfound) hmem (kind_of_found hfound)]

/-- Two tables that show the same entries hold the same ones. -/
theorem perm_of_same {table other : DispatchTable κ η} (h : table.Keyed) (hother : other.Keyed)
    (hsame : ∀ kind, table.get? kind = other.get? kind) : table.entries.Perm other.entries := by
  rw [List.perm_ext_iff_of_nodup (List.Nodup.of_map _ h) (List.Nodup.of_map _ hother)]
  intro entry
  rw [mem_entries_iff h, mem_entries_iff hother, hsame]

/-- **The first call for a kind binds it.**  Take the table that any calls have built, some of which may have been
refused.  A kind requires what the first call for it asked for, whatever calls come later; only a kind that no call has
named has no requirement.  A further call is refused exactly if its kind requires the other value; then it is told both
values, and the table stays as it is.  The handlers of a kind are those that the successful calls for it registered, in
order.  The same table is built without the refused calls, and any calls that keep the order of those for each kind
build a table with the same entries. -/
theorem first_call_binds (calls : List (Registration κ η)) :
    let table := (empty : DispatchTable κ η).after calls
    (∀ kind, table.requiresAuthentication kind = firstRequirement kind calls ∧
      (table.requiresAuthentication kind = none ↔ ∀ call ∈ calls, call.kind ≠ kind) ∧
      (∀ required, table.requiresAuthentication kind = some required →
        ∀ later, (table.after later).requiresAuthentication kind = some required) ∧
      table.handlers kind = ((empty.succeeded calls).filter (·.kind = kind)).filterMap handler?) ∧
    (∀ call, (table.perform call).2 =
        (match table.requiresAuthentication call.kind with
        | some existing =>
          if existing = call.authentication then .ok ()
          else .error (.conflictingAuthentication call.kind existing call.authentication)
        | none => .ok ()) ∧
      ∀ e, (table.perform call).2 = .error e → (table.perform call).1 = table) ∧
    table = empty.after (empty.succeeded calls) ∧
    ∀ others : List (Registration κ η), (∀ kind, others.filter (·.kind = kind) = calls.filter (·.kind = kind)) →
      (empty.after others).entries.Perm table.entries ∧
        ∀ kind, (empty.after others).get? kind = table.get? kind := by
  intro table
  have hkeyed : (empty : DispatchTable κ η).Keyed := List.nodup_nil
  have hrequires : ∀ kind, table.requiresAuthentication kind = firstRequirement kind calls :=
    requiresAuthentication_after calls empty
  refine ⟨fun kind => ⟨hrequires kind, ?_, fun required hrequired later => ?_, handlers_after calls empty kind⟩,
    fun call => ⟨?_, fun e => eq_of_refused⟩, (after_succeeded calls empty).symm, fun others hothers => ?_⟩
  · rw [hrequires, firstRequirement_eq_none]
  · rw [requiresAuthentication_after, hrequired, Option.some_or]
  · rw [perform_eq]
    change _ = call.answer _
    cases call.answer (table.requiresAuthentication call.kind) <;> rfl
  · have hentries : ∀ kind, (empty.after others).get? kind = table.get? kind := fun kind => by
      rw [get?_after, hothers, ← get?_after]
    exact ⟨perm_of_same (hkeyed.after others) (hkeyed.after calls) hentries, hentries⟩

end DispatchTable
end FramedLink
