import FramedLink.Text
/-!
# The dispatch table

Says which handlers receive the messages of a kind, and whether the sender must have authenticated.  The first call that
names a kind fixes what it requires; a later call that asks for the other value is refused.
-/
namespace FramedLink

/-- Why a registration was refused: a kind's requirement is fixed and the call asked for another. -/
inductive DispatchError (κ : Type) where
  | conflictingAuthentication (kind : κ) (existing requested : Bool)
deriving DecidableEq

def DispatchError.message {κ : Type} [ToString κ] : DispatchError κ → String
  | .conflictingAuthentication kind existing requested =>
    s!"Handlers for {kind} already require authentication={existing}, but a handler asked for {requested}"

/-- What is registered for one kind: its handlers run in the order of the list. -/
structure DispatchEntry (κ η : Type) where
  kind : κ
  requiresAuthentication : Bool
  handlers : List η := []
deriving DecidableEq

/-- The entries of all kinds that some call has named. -/
structure DispatchTable (κ η : Type) where
  entries : List (DispatchEntry κ η) := []
deriving DecidableEq

namespace DispatchTable

variable {κ η : Type} [DecidableEq κ]

def empty : DispatchTable κ η := {}

/-- What is registered for a kind, if a call has named it. -/
def get? (table : DispatchTable κ η) (kind : κ) : Option (DispatchEntry κ η) :=
  table.entries.find? (·.kind = kind)

/-- Whether a kind requires authentication; nothing for a kind that no call has named. -/
def requiresAuthentication (table : DispatchTable κ η) (kind : κ) : Option Bool :=
  (table.get? kind).map (·.requiresAuthentication)

/-- The handlers of a kind, in order of registration. -/
def handlers (table : DispatchTable κ η) (kind : κ) : List η := ((table.get? kind).map (·.handlers)).getD []

/-- Makes an entry for a kind that has none. -/
def ensure (table : DispatchTable κ η) (kind : κ) (authentication : Bool) : DispatchTable κ η :=
  match table.get? kind with
  | some _ => table
  | none => ⟨table.entries ++ [{ kind, requiresAuthentication := authentication }]⟩

/-- Names a kind without giving it a handler.  The answer is an error if the kind requires otherwise. -/
def declare (table : DispatchTable κ η) (kind : κ) (authentication : Bool) :
    DispatchTable κ η × Except (DispatchError κ) Unit :=
  let table := table.ensure kind authentication
  match table.requiresAuthentication kind with
  | some existing =>
    if existing = authentication then (table, .ok ())
    else (table, .error (.conflictingAuthentication kind existing authentication))
  | none => (table, .ok ())

def append (table : DispatchTable κ η) (kind : κ) (handler : η) : DispatchTable κ η :=
  ⟨table.entries.map fun entry =>
    if entry.kind = kind then { entry with handlers := entry.handlers ++ [handler] } else entry⟩

/-- Registers a handler for a kind, unless the kind requires otherwise. -/
def register (table : DispatchTable κ η) (kind : κ) (authentication : Bool) (handler : η) :
    DispatchTable κ η × Except (DispatchError κ) Unit :=
  match table.declare kind authentication with
  | (table, .ok ()) => (table.append kind handler, .ok ())
  | (table, .error e) => (table, .error e)

def describe (table : DispatchTable κ η) : String :=
  Text.record "DispatchTable" [("kinds", toString table.entries.length)]

end DispatchTable
end FramedLink
