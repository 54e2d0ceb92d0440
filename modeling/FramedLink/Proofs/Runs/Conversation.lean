import Mathlib.Algebra.Ring.Nat
import FramedLink.Proofs.Runs.Transcript
/-!
# The conversation of a call

While a call waits for outside code, other calls may begin and end above it.  Its conversation leaves these out: what
the call itself asked, in which world, how it was answered, and in which world it went on.

Main statement: the conversation of a call in a run is one that its activity has with an outside that answers when and
in whatever world it likes (`Machine.conversation_talks`).
-/
namespace FramedLink

variable {A : Application} {κ κ' α β : Type}

/-- What outside code was asked, in which world, how it returned, and the world that was found then. -/
structure Exchange (A : Application) where
  query : Query A
  asked : World A
  reply : Reply
  found : World A

namespace Activity

/-- An activity goes on to another by asking, and is answered in any world. -/
inductive Talks (resume : World A → Reply → κ → Activity A κ α) :
    Activity A κ α → List (Exchange A) → Activity A κ α → Prop where
  | here (activity : Activity A κ α) : Talks resume activity [] activity
  | onward {world found : World A} {query : Query A} {rest : κ} {reply : Reply} {exchanges : List (Exchange A)}
      {last : Activity A κ α} (h : Talks resume (resume found reply rest) exchanges last) :
      Talks resume (.ask world query rest) (⟨query, world, reply, found⟩ :: exchanges) last

variable {resume : World A → Reply → κ → Activity A κ α} {resume' : World A → Reply → κ' → Activity A κ' β}

theorem Talks.of_finish {world : World A} {result : α} {exchanges : List (Exchange A)} {last : Activity A κ α}
    (h : Talks resume (.finish world result) exchanges last) : exchanges = [] ∧ last = .finish world result := by
  generalize hfirst : Activity.finish world result = first at h
  cases h with
  | here => exact ⟨rfl, rfl⟩
  | onward => cases hfirst

theorem Talks.of_ask {world : World A} {query : Query A} {rest : κ} {exchanges : List (Exchange A)}
    {last : Activity A κ α} (h : Talks resume (.ask world query rest) exchanges last) :
    (exchanges = [] ∧ last = .ask world query rest) ∨ ∃ found reply later,
      exchanges = ⟨query, world, reply, found⟩ :: later ∧ Talks resume (resume found reply rest) later last := by
  generalize hfirst : (Activity.ask world query rest : Activity A κ α) = first at h
  cases h with
  | here => exact .inl ⟨rfl, rfl⟩
  | onward h =>
    cases hfirst
    exact .inr ⟨_, _, _, rfl, h⟩

/-- **What is said of an activity within a larger one** is what it says alone, if the larger one asks nothing behind
it. -/
theorem Talks.of_andThen {within : κ → κ'} {next : World A → α → Activity A κ' β}
    (hwithin : ∀ world reply rest, resume' world reply (within rest) = (resume world reply rest).andThen within next)
    (hnext : ∀ world result, ∃ answer, next world result = .finish world answer) {first : Activity A κ α}
    {exchanges : List (Exchange A)} {last : Activity A κ' β}
    (h : Talks resume' (first.andThen within next) exchanges last) :
    ∃ reached, Talks resume first exchanges reached ∧ last = reached.andThen within next := by
  generalize hfirst : first.andThen within next = activity at h
  induction h generalizing first with
  | here activity => exact ⟨first, .here first, hfirst.symm⟩
  | @onward world found query rest reply exchanges last _ ih =>
    obtain ⟨here, progress⟩ := first
    cases progress with
    | done result =>
      obtain ⟨answer, hfinish⟩ := hnext here result
      exact absurd (hfinish.symm.trans hfirst) fun h => by cases h
    | asks asked left =>
      cases hfirst
      obtain ⟨reached, htalks, hlast⟩ := ih (hwithin found reply left).symm
      exact ⟨reached, .onward htalks, hlast⟩
    | stuck => cases hfirst

/-- A count that going on leaves alone changes only while outside code runs. -/
theorem Talks.balance (count : World A → Nat)
    (hcount : ∀ world reply rest, count (resume world reply rest).world = count world) {first last : Activity A κ α}
    {exchanges : List (Exchange A)} (h : Talks resume first exchanges last) :
    count last.world + (exchanges.map (count ·.asked)).sum =
      count first.world + (exchanges.map (count ·.found)).sum := by
  induction h with
  | here => rfl
  | @onward world found query rest reply exchanges last _ ih =>
    rw [hcount] at ih
    rw [List.map_cons, List.map_cons, List.sum_cons, List.sum_cons]
    simp only [ask]
    omega

end Activity

/-- What a call has said and heard: its exchanges with outside code, its last signal, and the world at that time. -/
structure Conversation (A : Application) where
  exchanges : List (Exchange A)
  signal : Signal A
  world : World A

/-- An activity has come to what the conversation shows, and if it waits, then above `outer` in the machine. -/
def Conversation.Stands (talk : Conversation A) (outer : List (Waiting A)) (machine : Machine A)
    (activity : Activity A (Suspended A) Answer) : Prop :=
  (∃ answer, activity = .finish talk.world answer ∧ talk.signal = .answers answer) ∨
    ∃ query rest inner, activity = .ask talk.world query rest ∧ talk.signal = .asks query ∧
      machine.waiting = inner ++ ⟨query, rest⟩ :: outer

theorem Conversation.Stands.world {talk : Conversation A} {outer : List (Waiting A)} {machine : Machine A}
    {activity : Activity A (Suspended A) Answer} (h : talk.Stands outer machine activity) :
    activity.world = talk.world := by
  rcases h with ⟨answer, rfl, -⟩ | ⟨query, rest, inner, rfl, -⟩ <;> rfl

namespace Machine

variable {machine next last : Machine A}

/-- The conversation over some moves of a call that waits at a depth, and has given this signal in this world. -/
def conversation (depth : Nat) (machine : Machine A) (world : World A) (signal : Signal A) :
    List (Move A) → Conversation A
  | [] => ⟨[], signal, world⟩
  | move :: moves =>
    match signal, machine.move move with
    | .asks query, some (next, .returned _ reply later) =>
      if machine.waiting.length = depth + 1 then
        let talk := next.conversation depth next.world later moves
        { talk with exchanges := ⟨query, world, reply, machine.world⟩ :: talk.exchanges }
      else next.conversation depth world signal moves
    | .asks _, some (next, .called _ _) => next.conversation depth world signal moves
    | .asks _, none | .answers _, _ => ⟨[], signal, world⟩

theorem settle_of_called {move : Move A} {call : Call A} {signal : Signal A}
    (h : machine.move move = some (next, .called call signal)) :
    settle machine.waiting (call.begin machine.world) = some (next, signal) := by
  obtain rfl := move_of_called h
  obtain ⟨-, _, heq, hsettle⟩ := of_move_call h
  cases heq
  exact hsettle

theorem settle_of_returned {move : Move A} {query : Query A} {reply : Reply} {signal : Signal A}
    (h : machine.move move = some (next, .returned query reply signal)) :
    ∃ rest outer, machine.waiting = ⟨query, rest⟩ :: outer ∧
      settle outer (rest.resume machine.world reply) = some (next, signal) := by
  obtain rfl := move_of_returned h
  obtain ⟨innermost, outer, _, hwaiting, heq, hsettle⟩ := of_move_reply h
  cases heq
  exact ⟨innermost.rest, outer, hwaiting, hsettle⟩

/-! ## Steps of a conversation -/

section Steps

variable {depth : Nat} {world : World A} {query asked : Query A} {signal : Signal A} {move : Move A}

theorem conversation_of_answer (depth : Nat) (machine : Machine A) (world : World A) (answer : Answer)
    (moves : List (Move A)) :
    machine.conversation depth world (.answers answer) moves = ⟨[], .answers answer, world⟩ := by
  cases moves <;> rfl

/-- A call above it does not belong to a conversation. -/
theorem conversation_of_called {call : Call A} (hmove : machine.move move = some (next, .called call signal))
    (moves : List (Move A)) : machine.conversation depth world (.asks query) (move :: moves) =
      next.conversation depth world (.asks query) moves := by
  simp only [conversation, hmove]

/-- A return to a call above it does not belong to a conversation. -/
theorem conversation_of_above {reply : Reply} (hmove : machine.move move = some (next, .returned asked reply signal))
    (hdepth : machine.waiting.length ≠ depth + 1) (moves : List (Move A)) :
    machine.conversation depth world (.asks query) (move :: moves) =
      next.conversation depth world (.asks query) moves := by
  simp only [conversation, hmove]
  exact if_neg hdepth

theorem conversation_of_returned {reply : Reply} (hmove : machine.move move = some (next, .returned asked reply signal))
    (hdepth : machine.waiting.length = depth + 1) (moves : List (Move A)) :
    machine.conversation depth world (.asks query) (move :: moves) =
      let talk := next.conversation depth next.world signal moves
      { talk with exchanges := ⟨query, world, reply, machine.world⟩ :: talk.exchanges } := by
  simp only [conversation, hmove]
  exact if_pos hdepth

end Steps

/-- A call that waits in the middle of a run has this conversation until the run ends. -/
theorem run_talks {outer : List (Waiting A)} : ∀ (moves : List (Move A)) {machine last : Machine A}
    {events : List (Event A)} {query : Query A} {rest : Suspended A} {world : World A} (inner : List (Waiting A)),
    machine.waiting = inner ++ ⟨query, rest⟩ :: outer → machine.run moves = some (last, events) →
    let talk := machine.conversation outer.length world (.asks query) moves
    ∃ reached, Activity.Talks Suspended.resume (.ask world query rest) talk.exchanges reached ∧
      talk.Stands outer last reached
  | [], machine, _, _, query, rest, _, inner, hwaiting, hrun => by
    cases hrun
    exact ⟨_, .here _, .inr ⟨query, rest, inner, rfl, rfl, hwaiting⟩⟩
  | move :: moves, machine, last, events, query, rest, world, inner, hwaiting, hrun => by
    obtain ⟨next, event, later, hmove, hlater, rfl⟩ := exists_of_run_cons hrun
    cases event with
    | called call signal =>
      rw [conversation_of_called hmove]
      rcases settle_cases (settle_of_called hmove) with ⟨answer, -, -, hnext⟩ | ⟨asked, left, -, -, hnext⟩
      · exact run_talks moves inner (hnext.trans hwaiting) hlater
      · rw [hwaiting] at hnext
        exact run_talks moves (⟨asked, left⟩ :: inner) hnext hlater
    | returned asked reply signal =>
      obtain ⟨left, below, hbelow, hsettle⟩ := settle_of_returned hmove
      rw [hbelow] at hwaiting
      cases inner with
      | nil =>
        -- The return is to the call itself.
        obtain ⟨hown, rfl⟩ := List.cons.inj hwaiting
        cases hown
        rw [conversation_of_returned hmove (by rw [hbelow, List.length_cons])]
        rcases settle_cases hsettle with ⟨answer, hactivity, rfl, -⟩ | ⟨query, rest, hactivity, rfl, hnext⟩
        · rw [conversation_of_answer]
          refine ⟨_, .onward (.here _), .inl ⟨answer, hactivity, rfl⟩⟩
        · obtain ⟨reached, htalks, hstands⟩ := run_talks moves [] hnext hlater
          rw [← hactivity] at htalks
          exact ⟨reached, .onward htalks, hstands⟩
      | cons innermost inner =>
        obtain ⟨-, rfl⟩ := List.cons.inj hwaiting
        have hdepth : machine.waiting.length ≠ outer.length + 1 := by
          simp [hbelow]
          omega
        rw [conversation_of_above hmove hdepth]
        rcases settle_cases hsettle with ⟨answer, -, -, hnext⟩ | ⟨asked, left, -, -, hnext⟩
        · exact run_talks moves inner hnext hlater
        · exact run_talks moves (⟨asked, left⟩ :: inner) hnext hlater

/-- **The conversation of a call is one of its activity**, whatever waits beneath it and whatever is called above it. -/
theorem conversation_talks {call : Call A} {first : Machine A} {signal : Signal A} {moves : List (Move A)}
    {events : List (Event A)} (hmove : machine.move (.call call) = some (first, .called call signal))
    (hrun : first.run moves = some (last, events)) :
    let talk := first.conversation machine.waiting.length first.world signal moves
    ∃ reached, Activity.Talks Suspended.resume (call.begin machine.world) talk.exchanges reached ∧
      talk.Stands machine.waiting last reached := by
  rcases settle_cases (settle_of_called hmove) with ⟨answer, hactivity, rfl, -⟩ | ⟨query, rest, hactivity, rfl, hnext⟩
  · rw [conversation_of_answer, hactivity]
    exact ⟨_, .here _, .inl ⟨answer, rfl, rfl⟩⟩
  · rw [hactivity]
    exact run_talks moves [] hnext hrun

end Machine
end FramedLink
