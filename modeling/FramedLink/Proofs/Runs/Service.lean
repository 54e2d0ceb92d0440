import FramedLink.Proofs.Runs.Couples
/-!
# Calls with all that happens until they return

A call of the library is played together with a script: the moves that outside code makes, one after the other, until
the call has returned.  A list of chunks is passed to the host in the same way, each chunk once the call for the one
before has returned.
-/
namespace FramedLink

variable {A : Application}

/-- What outside code may see when the library turns to it. -/
structure Sight (A : Application) where
  signal : Signal A
  world : World A

/-- How far a call has come: the machine, what outside code has been shown meanwhile, the answer if the call has
returned, and the moves that outside code has not made then. -/
structure Service (A : Application) where
  machine : Machine A
  sights : List (Sight A) := []
  answer : Option Answer := none
  left : List (Move A) := []

/-- How far chunks have been passed: as for one call, with the sum of what the calls have answered, and whether all have
returned. -/
structure Feeding (A : Application) where
  machine : Machine A
  sights : List (Sight A) := []
  total : Nat := 0
  finished : Bool := false
  left : List (Move A) := []

def Service.note (sight : Sight A) (service : Service A) : Service A :=
  { service with sights := sight :: service.sights }

def Feeding.note (sight : Sight A) (feeding : Feeding A) : Feeding A :=
  { feeding with sights := sight :: feeding.sights }

namespace Service

/-- After a signal the call has returned, or it goes on. -/
def after (depth : Nat) (machine : Machine A) (signal : Signal A) (left : List (Move A)) (later : Option (Service A)) :
    Option (Service A) :=
  match signal with
  | .answers answer =>
    if machine.waiting.length = depth then some { machine, answer := some answer, left }
    else later.map (note ⟨signal, machine.world⟩)
  | .asks _ => later.map (note ⟨signal, machine.world⟩)

/-- The next chunks are passed once the call for this one has returned. -/
def thenFeed (service : Service A) (next : Machine A → List (Move A) → Option (Feeding A)) : Option (Feeding A) :=
  match service.answer with
  | some (.count n) =>
    (next service.machine service.left).map fun feeding =>
      { feeding with sights := service.sights ++ feeding.sights, total := n + feeding.total }
  | _ => some { machine := service.machine, sights := service.sights, left := service.left }

theorem thenFeed_note (sight : Sight A) (service : Service A)
    (next : Machine A → List (Move A) → Option (Feeding A)) :
    (service.note sight).thenFeed next = (service.thenFeed next).map (Feeding.note sight) := by
  unfold thenFeed
  simp only [note]
  split
  · rw [Option.map_map]
    rfl
  · rfl

theorem bind_note (sight : Sight A) (service : Option (Service A))
    (next : Machine A → List (Move A) → Option (Feeding A)) :
    (service.map (note sight)).bind (·.thenFeed next) = (service.bind (·.thenFeed next)).map (Feeding.note sight) := by
  cases service with
  | none => rfl
  | some service => exact thenFeed_note sight service next

/-- A call that still waits has not returned. -/
theorem after_of_deeper {depth : Nat} {machine : Machine A} (h : depth < machine.waiting.length) (signal : Signal A)
    (left : List (Move A)) (later : Option (Service A)) :
    after depth machine signal left later = later.map (note ⟨signal, machine.world⟩) := by
  cases signal with
  | answers answer => exact if_neg (Nat.ne_of_gt h)
  | asks query => rfl

theorem after_cases {depth : Nat} {machine : Machine A} {signal : Signal A} {left : List (Move A)}
    {later : Option (Service A)} {service : Service A} (h : after depth machine signal left later = some service) :
    service.machine = machine ∧ service.left = left ∨
      ∃ further, later = some further ∧ service = further.note ⟨signal, machine.world⟩ := by
  unfold after at h
  split at h
  · split at h
    · cases h
      exact .inl ⟨rfl, rfl⟩
    · obtain ⟨further, hlater, rfl⟩ := Option.map_eq_some_iff.1 h
      exact .inr ⟨further, hlater, rfl⟩
  · obtain ⟨further, hlater, rfl⟩ := Option.map_eq_some_iff.1 h
    exact .inr ⟨further, hlater, rfl⟩

theorem thenFeed_cases {service : Service A} {next : Machine A → List (Move A) → Option (Feeding A)}
    {feeding : Feeding A} (h : service.thenFeed next = some feeding) :
    (∃ n further, service.answer = some (.count n) ∧ next service.machine service.left = some further ∧
      feeding.machine = further.machine ∧ feeding.finished = further.finished) ∨
    feeding.machine = service.machine ∧ feeding.finished = false := by
  unfold thenFeed at h
  split at h
  · rename_i n hanswer
    obtain ⟨further, hnext, rfl⟩ := Option.map_eq_some_iff.1 h
    exact .inl ⟨n, further, hanswer, hnext, rfl, rfl⟩
  · cases h
    exact .inr ⟨rfl, rfl⟩

end Service

namespace Machine

/-- Outside code makes its moves until the call above `depth` waiting ones has returned. -/
def serve (depth : Nat) (machine : Machine A) : List (Move A) → Option (Service A)
  | [] => some { machine }
  | move :: script =>
    (machine.move move).bind fun (next, event) => Service.after depth next event.signal script (next.serve depth script)

def perform (machine : Machine A) (call : Call A) (script : List (Move A)) : Option (Service A) :=
  machine.serve machine.waiting.length (.call call :: script)

/-- Passes chunks to the host, one after the other and with nothing in between. -/
def feedAll (id : SessionId) : List (List UInt8) → Machine A → List (Move A) → Option (Feeding A)
  | [], machine, script => some { machine, finished := true, left := script }
  | chunk :: chunks, machine, script =>
    (machine.perform (.hostReceive id chunk) script).bind (·.thenFeed (feedAll id chunks))

/-- A call goes on from where its activity has come, and the next chunks follow. -/
def playOut (id : SessionId) (waiting : List (Waiting A)) (activity : Activity A (Suspended A) Answer)
    (chunks : List (List UInt8)) (script : List (Move A)) : Option (Feeding A) :=
  (settle waiting activity).bind fun (next, signal) =>
    (Service.after waiting.length next signal script (next.serve waiting.length script)).bind
      (·.thenFeed (feedAll id chunks))

theorem feedAll_cons (id : SessionId) (chunk : List UInt8) (chunks : List (List UInt8)) (world : World A)
    (waiting : List (Waiting A)) (script : List (Move A)) :
    feedAll id (chunk :: chunks) ⟨world, waiting⟩ script =
      playOut id waiting (Call.wrap (world.hostReceive id chunk) .arrival .count) chunks script := by
  have hmove : (⟨world, waiting⟩ : Machine A).move (.call (.hostReceive id chunk)) =
      (settle waiting (Call.wrap (world.hostReceive id chunk) .arrival .count)).map
        fun (next, signal) => (next, .called (.hostReceive id chunk) signal) := by
    have hcall : (⟨world, waiting⟩ : Machine A).canCall (.hostReceive id chunk) = true := rfl
    rw [move, if_pos hcall]
    rfl
  simp only [feedAll, perform, serve, hmove, playOut, Option.bind_map, Option.bind_assoc, Function.comp_def,
    Event.signal]

/-- Once the call has returned, the next chunks are passed. -/
theorem playOut_of_done {id : SessionId} {waiting : List (Waiting A)} {activity : Activity A (Arrival A) Nat} {n : Nat}
    (h : activity.progress = .done n) (chunks : List (List UInt8)) (script : List (Move A)) :
    playOut id waiting (Call.wrap activity .arrival .count) chunks script =
      (feedAll id chunks ⟨activity.world, waiting⟩ script).map fun feeding =>
        { feeding with total := n + feeding.total } := by
  simp [playOut, Call.wrap, Activity.andThen, h, settle, Activity.finish, Service.after, Service.thenFeed]

theorem serve_reply (id : SessionId) (innermost : Waiting A) (outer : List (Waiting A)) (world : World A)
    (reply : Reply) (chunks : List (List UInt8)) (script : List (Move A)) :
    ((⟨world, innermost :: outer⟩ : Machine A).serve outer.length (.reply reply :: script)).bind
        (·.thenFeed (feedAll id chunks)) =
      playOut id outer (innermost.rest.resume world reply) chunks script := by
  simp only [serve, move, playOut, Option.bind_map, Option.bind_assoc, Function.comp_def, Event.signal]

/-! ## What a chunk leads to -/

/-- Outside code has made its moves in order. -/
theorem serve_edits : ∀ (script : List (Move A)) {depth : Nat} {machine : Machine A} {service : Service A},
    machine.serve depth script = some service →
      (∃ marks, machine.world.Edits marks service.machine.world) ∧ service.left <:+ script.tail
  | [], _, machine, _, h => by
    cases h
    exact ⟨⟨[], .none machine.world⟩, List.suffix_refl _⟩
  | move :: script, _, machine, service, h => by
    unfold serve at h
    obtain ⟨⟨next, event⟩, hmove, hafter⟩ := Option.bind_eq_some_iff.1 h
    have hedits := move_edits hmove
    rcases Service.after_cases hafter with ⟨hmachine, hleft⟩ | ⟨further, hlater, rfl⟩
    · rw [hmachine, hleft]
      exact ⟨⟨_, hedits⟩, List.suffix_refl _⟩
    · obtain ⟨⟨marks, hrest⟩, hleft⟩ := serve_edits script hlater
      exact ⟨⟨_, hedits.trans hrest⟩, hleft.trans (List.tail_suffix script)⟩

variable {id : SessionId} {machine : Machine A} {script : List (Move A)} {feeding : Feeding A}

theorem thenFeed_edits {service : Service A} {next : Machine A → List (Move A) → Option (Feeding A)}
    (hnext : ∀ {machine script feeding}, next machine script = some feeding →
      ∃ marks, machine.world.Edits marks feeding.machine.world)
    (h : service.thenFeed next = some feeding) : ∃ marks, service.machine.world.Edits marks feeding.machine.world := by
  rcases Service.thenFeed_cases h with ⟨n, further, -, hfurther, hmachine, -⟩ | ⟨hmachine, -⟩
  · rw [hmachine]
    exact hnext hfurther
  · rw [hmachine]
    exact ⟨[], .none _⟩

theorem feedAll_edits : ∀ (chunks : List (List UInt8)) {machine : Machine A} {script : List (Move A)}
    {feeding : Feeding A}, feedAll id chunks machine script = some feeding →
      ∃ marks, machine.world.Edits marks feeding.machine.world
  | [], machine, _, _, h => by
    cases h
    exact ⟨[], .none machine.world⟩
  | chunk :: chunks, _, _, _, h => by
    unfold feedAll at h
    obtain ⟨service, hservice, hthen⟩ := Option.bind_eq_some_iff.1 h
    obtain ⟨⟨marks, hedits⟩, -⟩ := serve_edits _ hservice
    obtain ⟨more, hmore⟩ := thenFeed_edits (feedAll_edits chunks) hthen
    exact ⟨_, hedits.trans hmore⟩

theorem playOut_edits {waiting : List (Waiting A)} {activity : Activity A (Suspended A) Answer}
    {chunks : List (List UInt8)} (h : playOut id waiting activity chunks script = some feeding) :
    ∃ marks, activity.world.Edits marks feeding.machine.world := by
  unfold playOut at h
  obtain ⟨⟨next, signal⟩, hsettle, hrest⟩ := Option.bind_eq_some_iff.1 h
  have hworld : next.world = activity.world := world_settle hsettle
  obtain ⟨service, hafter, hthen⟩ := Option.bind_eq_some_iff.1 hrest
  obtain ⟨more, hmore⟩ := thenFeed_edits (feedAll_edits chunks) hthen
  rw [← hworld]
  rcases Service.after_cases hafter with ⟨hmachine, -⟩ | ⟨further, hlater, rfl⟩
  · rw [hmachine] at hmore
    exact ⟨more, hmore⟩
  · obtain ⟨⟨marks, hedits⟩, -⟩ := serve_edits script hlater
    exact ⟨_, hedits.trans hmore⟩

/-- Chunks that have all been passed were passed one by one. -/
theorem feedAll_split {chunk : List UInt8} {chunks : List (List UInt8)}
    (h : feedAll id (chunk :: chunks) machine script = some feeding) (hfinished : feeding.finished = true) :
    ∃ first rest, feedAll id [chunk] machine script = some first ∧ first.finished = true ∧ first.left <:+ script ∧
      feedAll id chunks first.machine first.left = some rest ∧ rest.finished = true ∧
      feeding.machine = rest.machine := by
  unfold feedAll at h
  obtain ⟨service, hservice, hthen⟩ := Option.bind_eq_some_iff.1 h
  obtain ⟨-, hleft⟩ := serve_edits _ hservice
  rcases Service.thenFeed_cases hthen with ⟨n, further, hanswer, hfurther, hmachine, hsame⟩ | ⟨-, hunfinished⟩
  · refine ⟨⟨service.machine, service.sights ++ [], n + 0, true, service.left⟩, further, ?_, rfl, hleft, hfurther,
      hsame ▸ hfinished, hmachine⟩
    simp only [feedAll, hservice, Option.bind_some, Service.thenFeed, hanswer, Option.map_some]
  · rw [hfinished] at hunfinished
    cases hunfinished

end Machine

end FramedLink
