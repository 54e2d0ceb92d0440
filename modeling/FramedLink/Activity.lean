import FramedLink.World
/-!
# Activities that call outside code

Moving a session to another state, flushing it or handing it a message calls observers, transports and handlers, and
these may call the library again before they return.  Such an activity therefore runs up to its next call, gives out
the call together with what is left to be done, and goes on from there when the call has ended, in whatever world it
then finds.

What is left is a value of a type of its own for every activity (`κ` below), so that each point at which outside code
runs has a name.
-/
namespace FramedLink

/-- How far an activity has come: it has its result, it has called outside code, or it waits for a flush that is
suspended beneath it and cannot end before it does. -/
inductive Progress (A : Application) (κ α : Type) where
  | done (result : α)
  | asks (query : Query A) (rest : κ)
  | stuck

/-- An activity that has come as far as it could in a world. -/
structure Activity (A : Application) (κ α : Type) where
  world : World A
  progress : Progress A κ α

namespace Activity

variable {A : Application} {κ κ' α β : Type}

def finish (world : World A) (result : α) : Activity A κ α := ⟨world, .done result⟩

/-- The activity calls outside code and leaves the rest for later. -/
def ask (world : World A) (query : Query A) (rest : κ) : Activity A κ α := ⟨world, .asks query rest⟩

/-- An activity as the first part of a larger one: what is left of it is left within the larger, and its result is
handed on. -/
def andThen (first : Activity A κ α) (within : κ → κ') (next : World A → α → Activity A κ' β) : Activity A κ' β :=
  match first.progress with
  | .done result => next first.world result
  | .asks query rest => ⟨first.world, .asks query (within rest)⟩
  | .stuck => ⟨first.world, .stuck⟩

@[simp] theorem andThen_finish (world : World A) (result : α) (within : κ → κ')
    (next : World A → α → Activity A κ' β) : (finish world result).andThen within next = next world result := rfl

@[simp] theorem andThen_ask (world : World A) (query : Query A) (rest : κ) (within : κ → κ')
    (next : World A → α → Activity A κ' β) :
    (ask world query rest : Activity A κ α).andThen within next = ask world query (within rest) := rfl

/-- An activity that only hands on a result does nothing to the world. -/
theorem world_andThen (first : Activity A κ α) (within : κ → κ') {next : World A → α → Activity A κ' β}
    (hnext : ∀ world result, (next world result).world = world) : (first.andThen within next).world = first.world := by
  unfold andThen
  cases first.progress with
  | done result => exact hnext first.world result
  | asks query rest => rfl
  | stuck => rfl

theorem andThen_andThen {κ'' γ : Type} (first : Activity A κ α) (within : κ → κ')
    (next : World A → α → Activity A κ' β) (within' : κ' → κ'') (next' : World A → β → Activity A κ'' γ) :
    (first.andThen within next).andThen within' next' =
      first.andThen (fun rest => within' (within rest)) fun world result =>
        (next world result).andThen within' next' := by
  unfold andThen
  cases hprogress : first.progress <;> simp

end Activity
end FramedLink
