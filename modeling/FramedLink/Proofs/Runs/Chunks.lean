import FramedLink.Proofs.Runs.Service
/-!
# Chunks of received bytes

The host decodes a chunk completely before the first of its payloads is delivered, and the next chunk only after the
last.  So a session that is given its bytes in other chunks is decoded at other times, and a handler that ends the
session finds another part of the stream decoded.  It makes no difference: the worlds of the two runs are alike but
for their decoders, the payloads that one run has still to deliver are those that the other has still to decode, and
both are dropped once the session closes.

Main statement: however the bytes are cut, outside code sees the same (`Machine.chunks_irrelevant`).
-/
namespace FramedLink

variable {A : Application} {ι : Type}

/-! ## Sessions at different points of decoding -/

/-- Two sessions that have been decoded up to different points, as long as they are connected. -/
structure Session.Decoding (first second : Decoder) (session other : Session ι) : Prop where
  face : other.face = session.face
  transmitted : other.stats.bytesTransmitted = session.stats.bytesTransmitted
  handled : other.stats.messagesHandled = session.stats.messagesHandled
  max : other.decoder.max = session.decoder.max
  decoders : session.state = .connected ∧ session.decoder = first ∧ other.decoder = second ∨
    session.state.isClosing = true ∧ session.decoder.stage = .start ∧ other.decoder.stage = .start

namespace Session

/-- A session with nothing of what it has received and decoded. -/
def veiled (session : Session ι) : Session ι :=
  { session with
    decoder := .fresh session.decoder.max
    stats := { session.stats with bytesReceived := 0, framesReceived := 0 } }

/-- All that is left of a session when nobody has counted what was received and decoded. -/
def uncounted (session : Session ι) : Session ι :=
  { session with
    decoder := { session.decoder with decoded := 0 }
    stats := { session.stats with bytesReceived := 0, framesReceived := 0 } }

variable {first second : Decoder} {session other : Session ι}

theorem Decoding.state (h : session.Decoding first second other) : other.state = session.state :=
  (congrArg Session.state h.face :)

theorem Decoding.touch {touch : Session ι → Session ι} (h : session.Decoding first second other)
    (htouch : session.Touch touch) : (touch session).Decoding first second (touch other) := by
  have hface : (touch other).face = (touch session).face := by rw [htouch.face, h.face, ← htouch.face]
  cases htouch with
  | @enter target hedge =>
    have hclosing : target.isClosing = true := by
      rcases h.decoders with ⟨hconnected, -, -⟩ | ⟨hclosing, -, -⟩
      · rw [hconnected] at hedge
        cases target <;> first | rfl | cases hedge
      · exact ConnectionState.isClosing_of_edge hclosing hedge
    simp only [enter, if_pos hclosing] at hface ⊢
    exact ⟨hface, h.transmitted, h.handled, h.max, .inr ⟨hclosing, rfl, rfl⟩⟩
  | countTransmitted bytes => exact ⟨hface, congrArg (· + bytes) h.transmitted, h.handled, h.max, h.decoders⟩
  | countHandled => exact ⟨hface, h.transmitted, congrArg (· + 1) h.handled, h.max, h.decoders⟩
  | noteReason | flushing | outbox => exact ⟨hface, h.transmitted, h.handled, h.max, h.decoders⟩

theorem authenticate_fst (session : Session ι) (identity : Option ι) :
    (session.authenticate identity).1 = { session with login := (session.authenticate identity).1.login } := by
  rcases session.authenticate_cases identity with ⟨e, heq⟩ | ⟨-, -, heq⟩
  · rw [heq]
  · rw [heq]

theorem Decoding.authenticate (h : session.Decoding first second other) (identity : Option ι) :
    (session.authenticate identity).1.Decoding first second (other.authenticate identity).1 := by
  have hbefore : other.login = session.login := (congrArg Session.login h.face :)
  have hlogin : (other.authenticate identity).1.login = (session.authenticate identity).1.login := by
    unfold Session.authenticate Session.isAuthenticated
    simp only [h.state, hbefore]
    split
    · exact hbefore
    · split
      · exact hbefore
      · rfl
  rw [authenticate_fst session, authenticate_fst other, hlogin]
  refine ⟨?_, h.transmitted, h.handled, h.max, h.decoders⟩
  exact congrArg (fun face : Session ι => { face with login := (session.authenticate identity).1.login }) h.face

theorem Decoding.receive (h : session.Decoding first second other) (hconnected : session.state = .connected)
    {chunk : List UInt8} {n : Nat} (hanswer : (session.decoder.feed chunk).answer = .ok n)
    (hmax : other.decoder.max = (session.decoder.feed chunk).decoder.max) :
    (session.receive chunk).2 = .ok (session.decoder.feed chunk).ready ∧
      (session.receive chunk).1.Decoding (session.decoder.feed chunk).decoder second other := by
  have hreceive : session.receive chunk =
      (({ session with decoder := (session.decoder.feed chunk).decoder } : Session ι).countReceived chunk.length
        (session.decoder.feed chunk).ready.length, .ok (session.decoder.feed chunk).ready) := by
    simp only [Session.receive, if_pos hconnected, hanswer]
  rw [hreceive]
  rcases h.decoders with ⟨-, -, hother⟩ | ⟨hclosing, -⟩
  · exact ⟨rfl, h.face, h.transmitted, h.handled, hmax, .inl ⟨hconnected, rfl, hother⟩⟩
  · rw [hconnected] at hclosing
    cases hclosing

theorem Decoding.veiled (h : session.Decoding first second other) : other.veiled = session.veiled := by
  have hparts : ∀ session : Session ι, session.veiled =
      { session.face with
        decoder := .fresh session.decoder.max
        stats := ⟨0, 0, session.stats.bytesTransmitted, session.stats.messagesHandled⟩ } := fun _ => rfl
  rw [hparts, hparts, h.face, h.max, h.transmitted, h.handled]

/-- Sessions whose decoders stand at the same place differ in what they have counted only. -/
theorem Decoding.uncounted (h : session.Decoding first second other)
    (hstage : session.state = .connected → first.stage = second.stage) : other.uncounted = session.uncounted := by
  have hdecoder : other.decoder.stage = session.decoder.stage := by
    rcases h.decoders with ⟨hconnected, hfirst, hsecond⟩ | ⟨-, hfirst, hsecond⟩
    · rw [hfirst, hsecond, hstage hconnected]
    · rw [hfirst, hsecond]
  have hparts : ∀ session : Session ι, session.uncounted =
      { session.face with
        decoder := ⟨session.decoder.max, session.decoder.stage, 0⟩
        stats := ⟨0, 0, session.stats.bytesTransmitted, session.stats.messagesHandled⟩ } := fun _ => rfl
  rw [hparts, hparts, h.face, h.max, hdecoder, h.transmitted, h.handled]

end Session

namespace Likeness

/-- Sessions at different points of decoding, as long as nobody feeds them. -/
def decoding (A : Application) (id : SessionId) (first second : Decoder) : Likeness A id where
  pair := Session.Decoding first second
  fed := False
  logs := True
  gate := fun _ _ => True
  face := fun h => h.face
  touch := fun h htouch => h.touch htouch
  receive := fun hfed => hfed.elim
  authenticate := fun _ _ _ h identity => h.authenticate identity
  admits := fun _ _ _ => True.intro
  keeps := fun _ _ => True.intro

end Likeness

/-! ## Deliveries with more to come -/

/-- An arrival with more payloads behind those that it has still to deliver, of whose bytes `before` messages have been
handled earlier. -/
def Arrival.followed (before : Nat) (later : List Payload) : Arrival A → Arrival A
  | delivering id handled rest current => delivering id (before + handled) (rest ++ later) current
  | malformed rest => malformed rest

namespace World

theorem add_handled (before handled : Nat) (outcome : DispatchOutcome) :
    (if outcome.isHandled then before + handled + 1 else before + handled) =
      before + if outcome.isHandled then handled + 1 else handled := by
  split <;> rfl

theorem deliverAll_append (id : SessionId) (before : Nat) (later : List Payload) :
    ∀ (payloads : List Payload) (world : World A) (handled : Nat),
      world.deliverAll id (before + handled) (payloads ++ later) =
        (world.deliverAll id handled payloads).andThen (Arrival.followed before later) fun world handled =>
          world.deliverAll id (before + handled) later
  | [], world, handled => rfl
  | payload :: rest, world, handled => by
    by_cases hconnected : (world.session id).state = .connected
    · rw [List.cons_append, deliverAll, deliverAll, if_pos hconnected, if_pos hconnected, Activity.andThen_andThen]
      simp only [add_handled, deliverAll_append id before later rest]
      rfl
    · rw [List.cons_append, deliverAll, deliverAll, if_neg hconnected, if_neg hconnected, Activity.andThen_finish]
      cases later with
      | nil => rfl
      | cons payload later => rw [deliverAll, if_neg hconnected]

theorem resume_followed (world : World A) (reply : Reply) (id : SessionId) (before handled : Nat)
    (rest later : List Payload) (current : Delivery A) :
    (Arrival.followed before later (.delivering id handled rest current)).resume world reply =
      ((Arrival.delivering id handled rest current).resume world reply).andThen (Arrival.followed before later)
        fun world handled => world.deliverAll id (before + handled) later := by
  simp only [Arrival.followed, Arrival.resume, Activity.andThen_andThen, add_handled, deliverAll_append]

end World

/-- Whatever the activity leaves for later is a delivery for one session. -/
def Activity.DeliversFor (id : SessionId) {α : Type} (activity : Activity A (Arrival A) α) : Prop :=
  ∀ query rest, activity.progress = .asks query rest →
    ∃ handled payloads current, rest = .delivering id handled payloads current

theorem Activity.DeliversFor.andThen {κ α : Type} {id : SessionId} {first : Activity A κ α} {within : κ → Arrival A}
    {next : World A → α → Activity A (Arrival A) Nat}
    (hwithin : ∀ rest, ∃ handled payloads current, within rest = .delivering id handled payloads current)
    (hnext : ∀ world result, (next world result).DeliversFor id) : (first.andThen within next).DeliversFor id := by
  unfold Activity.andThen
  split
  · exact hnext _ _
  · intro query rest hasks
    cases hasks
    exact hwithin _
  · intro query rest hasks
    cases hasks

theorem World.deliverAll_deliversFor (id : SessionId) : ∀ (payloads : List Payload) (world : World A) (handled : Nat),
    (world.deliverAll id handled payloads).DeliversFor id
  | [], world, handled => fun query rest hasks => by cases hasks
  | payload :: rest, world, handled => by
    unfold deliverAll
    split
    · exact .andThen (fun current => ⟨handled, rest, current, rfl⟩) fun world _ =>
        deliverAll_deliversFor id rest world _
    · intro query rest hasks
      cases hasks

theorem World.resume_deliversFor (world : World A) (reply : Reply) (id : SessionId) (handled : Nat)
    (rest : List Payload) (current : Delivery A) :
    ((Arrival.delivering id handled rest current).resume world reply).DeliversFor id :=
  .andThen (fun current => ⟨handled, rest, current, rfl⟩) fun world _ => world.deliverAll_deliversFor id rest _

/-! ## Decoders at different points of one stream -/

/-- The second decoder has seen the chunks that are still to come for the first, and they complete these payloads. -/
def Decoder.Ahead (first second : Decoder) (chunks : List (List UInt8)) (later : List Payload) : Prop :=
  ∃ seen, first.Follows seen ∧ second.Follows (seen ++ chunks.flatten) ∧ second.max = first.max ∧
    (unframe first.max (seen ++ chunks.flatten)).oversized = none ∧
    (unframe first.max (seen ++ chunks.flatten)).payloads = (unframe first.max seen).payloads ++ later

namespace Decoder.Ahead

variable {first second : Decoder} {later : List Payload}

theorem nil (h : first.Ahead second [] later) : first.stage = second.stage ∧ later = [] := by
  obtain ⟨seen, hfirst, hsecond, hmax, -, hlater⟩ := h
  rw [List.flatten_nil, List.append_nil] at hsecond hlater
  rw [Follows, hmax] at hsecond
  exact ⟨hfirst.trans hsecond.symm, List.append_right_eq_self.1 hlater.symm⟩

theorem max {chunks : List (List UInt8)} (h : first.Ahead second chunks later) : second.max = first.max := by
  obtain ⟨seen, -, -, hmax, -⟩ := h
  exact hmax

theorem cons {chunk : List UInt8} {chunks : List (List UInt8)} (h : first.Ahead second (chunk :: chunks) later) :
    ∃ later', (first.feed chunk).answer = .ok (first.feed chunk).ready.length ∧
      later = (first.feed chunk).ready ++ later' ∧ (first.feed chunk).decoder.Ahead second chunks later' := by
  obtain ⟨seen, hfirst, hsecond, hmax, hfits, hlater⟩ := h
  rw [List.flatten_cons, ← List.append_assoc] at hsecond hfits hlater
  have hfront := oversized_front hfits
  have hseen := oversized_front hfront
  obtain ⟨hready, hdecoder, hanswer⟩ := feed_of_follows hfirst chunk
  rw [unframe_append _ (seen ++ chunk), hready, List.append_assoc] at hlater
  refine ⟨_, ?_, (List.append_cancel_left hlater).symm, seen ++ chunk, hfirst.feed chunk, hsecond, ?_, ?_, ?_⟩
  · rw [hanswer, hseen, Unframed.answer, hfront]
    rfl
  · rw [hdecoder]
    exact hmax
  · rw [hdecoder]
    exact hfits
  · rw [hdecoder]
    exact congrArg Unframed.payloads (unframe_append _ (seen ++ chunk) _)

end Decoder.Ahead

/-! ## The two runs side by side -/

/-- A world in which nobody may look at what a session has received and decoded. -/
def World.veiled (id : SessionId) (world : World A) : World A := world.modify id (·.veiled)

def Sight.veiled (id : SessionId) (sight : Sight A) : Sight A := { sight with world := sight.world.veiled id }

/-- Outside code has seen the same, and if all calls have returned, they have answered as much in all, with `before`
counted in, and have left worlds that differ in nothing but how much was decoded when: the other decoder was `second`
all the time, and it has ended where this one has. -/
structure Feeding.Agrees (id : SessionId) (before : Nat) (second : Decoder) (feeding other : Feeding A) : Prop where
  sights : other.sights.map (Sight.veiled id) = feeding.sights.map (Sight.veiled id)
  left : other.left = feeding.left
  finished : other.finished = feeding.finished
  ended : feeding.finished = true → other.total = before + feeding.total ∧
    other.machine.waiting = feeding.machine.waiting ∧
    ∃ first, (Likeness.decoding A id first second).Like feeding.machine.world other.machine.world ∧
      ((feeding.machine.world.session id).state = .connected → first.stage = second.stage)

namespace Machine

open Likeness (decoding)

variable {id : SessionId} {base : List (Waiting A)} {first second : Decoder} {before : Nat}
  {later : List Payload} {chunks : List (List UInt8)} {script : List (Move A)} {world world' last : World A}

theorem agrees_note {feeding other : Option (Feeding A)}
    (h : Option.Rel (Feeding.Agrees id before second) feeding other) (signal : Signal A)
    (hlike : (decoding A id first second).Like world world') :
    Option.Rel (Feeding.Agrees id before second) (feeding.map (Feeding.note ⟨signal, world⟩))
      (other.map (Feeding.note ⟨signal, world'⟩)) := by
  cases h with
  | some h =>
    have hsight : (⟨signal, world'⟩ : Sight A).veiled id = (⟨signal, world⟩ : Sight A).veiled id :=
      congrArg (Sight.mk signal) (hlike.modify_eq fun _ hpair => Session.Decoding.veiled hpair)
    refine .some ⟨?_, h.left, h.finished, h.ended⟩
    rw [Feeding.note, Feeding.note, List.map_cons, List.map_cons, hsight, h.sights]
  | none => exact .none

theorem agrees_count {feeding other : Option (Feeding A)} (n : Nat)
    (h : Option.Rel (Feeding.Agrees id (before + n) second) feeding other) :
    Option.Rel (Feeding.Agrees id before second)
      (feeding.map fun feeding => { feeding with total := n + feeding.total }) other := by
  cases h with
  | some h =>
    refine .some ⟨h.sights, h.left, h.finished, fun hfinished => ?_⟩
    obtain ⟨htotal, hsame⟩ := h.ended hfinished
    exact ⟨htotal.trans (Nat.add_assoc _ _ _), hsame⟩
  | none => exact .none

theorem exists_decoding (h : (decoding A id first second).Like world world') :
    ∃ session, world' = world.put id session ∧ (world.session id).Decoding first second session := h.paired

theorem tracked_of_connected (h : (decoding A id first second).Like world world')
    (hconnected : (world.session id).state = .connected) : world.tracks id = true :=
  h.tracked.resolve_left (fun hfed => hfed) (by rw [hconnected]; rfl)

/-- A session that is connected after some edits was connected before. -/
theorem connected_before {marks : List Mark} (h : (decoding A id first second).Like world world')
    (hedits : world.Edits marks last) (hconnected : (last.session id).state = .connected) :
    (world.session id).state = .connected := by
  obtain ⟨session, -, hpair⟩ := exists_decoding h
  rcases hpair.decoders with ⟨hstate, -⟩ | ⟨hclosing, -⟩
  · exact hstate
  · have hstill := hedits.isClosing h.issued hclosing
    rw [hconnected] at hstill
    cases hstill

/-- Both runs are in the middle of a delivery, with the same calls above it: the first has still to decode the chunks of
which the second has decoded and has still to deliver the payloads. -/
def RunsMidway (id : SessionId) (base : List (Waiting A)) (script : List (Move A)) : Prop :=
  ∀ ⦃first second : Decoder⦄ ⦃before handled : Nat⦄ ⦃payloads later : List Payload⦄ ⦃chunks : List (List UInt8)⦄
    ⦃inner : List (Waiting A)⦄ ⦃query : Query A⦄ ⦃current : Delivery A⦄ ⦃machine machine' : Machine A⦄,
    (decoding A id first second).Couples inner
      (⟨query, .arrival (.delivering id handled payloads current)⟩ :: base)
      (⟨query, .arrival (.followed before later (.delivering id handled payloads current))⟩ :: base) machine machine' →
    ((machine.world.session id).state = .connected → first.Ahead second chunks later) →
    Option.Rel (Feeding.Agrees id before second)
      ((machine.serve base.length script).bind (·.thenFeed (feedAll id chunks)))
      ((machine'.serve base.length script).bind (·.thenFeed (feedAll id [])))

/-- The first run is about to pass chunks whose payloads the second is about to deliver. -/
def RunsOn (id : SessionId) (base : List (Waiting A)) (script : List (Move A)) (chunks : List (List UInt8)) : Prop :=
  ∀ ⦃first second : Decoder⦄ ⦃before : Nat⦄ ⦃later : List Payload⦄ ⦃world world' : World A⦄,
    (decoding A id first second).Like world world' →
    ((world.session id).state = .connected → first.Ahead second chunks later) →
    Option.Rel (Feeding.Agrees id before second) (feedAll id chunks ⟨world, base⟩ script)
      (playOut id base (Call.wrap (world'.deliverAll id before later) .arrival .count) [] script)

/-- One chunk's delivery in both runs, up to the next call of outside code or to the next chunk. -/
theorem playOut_agrees (hmidway : RunsMidway id base script) (hon : RunsOn id base script chunks)
    {fits : World A → Query A → Arrival A → Prop} {activity activity' : Activity A (Arrival A) Nat}
    (halike : (decoding A id first second).Alike fits activity activity') (hdelivers : activity.DeliversFor id)
    (hahead : activity.progress ≠ .stuck → (activity.world.session id).state = .connected →
      first.Ahead second chunks later) :
    Option.Rel (Feeding.Agrees id before second) (playOut id base (Call.wrap activity .arrival .count) chunks script)
      (playOut id base
        (Call.wrap (activity'.andThen (Arrival.followed before later) fun world handled =>
          world.deliverAll id (before + handled) later) .arrival .count) [] script) := by
  have hprogress := halike.progress
  cases hcome : activity.progress with
  | done n =>
    rw [hcome] at hprogress
    have hsecond : (activity'.andThen (Arrival.followed before later) fun world handled =>
        world.deliverAll id (before + handled) later) = activity'.world.deliverAll id (before + n) later := by
      rw [Activity.andThen, hprogress]
    rw [playOut_of_done hcome, hsecond]
    have hgoing : activity.progress ≠ .stuck := by rw [hcome]; exact fun heq => by cases heq
    exact agrees_count n (hon halike.world (hahead hgoing))
  | asks query rest =>
    rw [hcome] at hprogress
    obtain ⟨handled, payloads, current, rfl⟩ := hdelivers query rest hcome
    have hfirst : settle base (Call.wrap activity .arrival .count) =
        some (⟨activity.world, ⟨query, .arrival (.delivering id handled payloads current)⟩ :: base⟩, .asks query) := by
      simp [Call.wrap, Activity.andThen, hcome, settle]
    have hsecond : settle base (Call.wrap (activity'.andThen (Arrival.followed before later) fun world handled =>
        world.deliverAll id (before + handled) later) .arrival .count) =
        some (⟨activity'.world,
          ⟨query, .arrival (.followed before later (.delivering id handled payloads current))⟩ :: base⟩,
          .asks query) := by
      simp [Call.wrap, Activity.andThen, hprogress, settle]
    have hcouples : (decoding A id first second).Couples []
        (⟨query, .arrival (.delivering id handled payloads current)⟩ :: base)
        (⟨query, .arrival (.followed before later (.delivering id handled payloads current))⟩ :: base)
        ⟨activity.world, ⟨query, .arrival (.delivering id handled payloads current)⟩ :: base⟩
        ⟨activity'.world,
          ⟨query, .arrival (.followed before later (.delivering id handled payloads current))⟩ :: base⟩ :=
      ⟨halike.world, rfl, rfl, fun _ hmem => absurd hmem List.not_mem_nil⟩
    simp only [playOut, hfirst, hsecond, Option.bind_some, Service.after, Service.bind_note]
    have hgoing : activity.progress ≠ .stuck := by rw [hcome]; exact fun heq => by cases heq
    exact agrees_note (hmidway hcouples (hahead hgoing)) _ halike.world
  | stuck =>
    rw [hcome] at hprogress
    have hfirst : settle base (Call.wrap activity .arrival .count) = none := by
      simp [Call.wrap, Activity.andThen, hcome, settle]
    have hsecond : settle base (Call.wrap (activity'.andThen (Arrival.followed before later) fun world handled =>
        world.deliverAll id (before + handled) later) .arrival .count) = none := by
      simp [Call.wrap, Activity.andThen, hprogress, settle]
    rw [playOut, playOut, hfirst, hsecond]
    exact .none

/-- **Chunk by chunk**, a run does what one does that has decoded all chunks before. -/
theorem runsOn (hmidway : RunsMidway id base script) : ∀ chunks, RunsOn id base script chunks
  | [] => fun first second before later world world' hlike hahead => by
    obtain ⟨session, rfl, hpair⟩ := exists_decoding hlike
    have hdelivered : (world.put id session).deliverAll id before later = .finish (world.put id session) before := by
      rcases hpair.decoders with ⟨hconnected, -⟩ | ⟨hclosing, -⟩
      · rw [(hahead hconnected).nil.2]
        rfl
      · exact World.deliverAll_of_closing (by rwa [World.session_put_self, hpair.state]) before later
    rw [hdelivered, playOut_of_done rfl]
    exact .some ⟨rfl, rfl, rfl, fun _ => ⟨rfl, rfl, first, hlike, fun hconnected => (hahead hconnected).nil.1⟩⟩
  | chunk :: chunks => fun first second before later world world' hlike hahead => by
    rw [feedAll_cons]
    obtain ⟨session, rfl, hpair⟩ := exists_decoding hlike
    rcases hpair.decoders with ⟨hconnected, rfl, rfl⟩ | ⟨hclosing, -, -⟩
    · have htracked := tracked_of_connected hlike hconnected
      -- This run decodes the next chunk only now; the other has its payloads in front of those that it has to deliver.
      obtain ⟨later', hanswer, rfl, hstill⟩ := (hahead hconnected).cons
      obtain ⟨hresult, hreceived⟩ := hpair.receive hconnected hanswer hstill.max
      have hnext : (decoding A id ((world.session id).decoder.feed chunk).decoder session.decoder).Like
          (world.put id ((world.session id).receive chunk).1) (world.put id session) := by
        refine ⟨hlike.issued, World.knows_put_self _ _ _, .inr fun _ => htracked, session, ?_, ?_⟩
        · rw [World.put_put]
        · rwa [World.session_put_self]
      have hhost : world.hostReceive id chunk = (world.put id ((world.session id).receive chunk).1).deliverAll id 0
          ((world.session id).decoder.feed chunk).ready := by
        simp only [World.hostReceive, if_pos htracked, hresult]
      rw [hhost]
      have hwhole := World.deliverAll_append id before later' ((world.session id).decoder.feed chunk).ready
        (world.put id session) 0
      rw [Nat.add_zero] at hwhole
      rw [hwhole]
      exact playOut_agrees hmidway (runsOn hmidway chunks) (hnext.deliverAll id _ 0)
        (World.deliverAll_deliversFor id _ _ 0) fun _ _ => hstill
    · rw [World.hostReceive_of_closing hlike.known hclosing, playOut_of_done rfl]
      refine agrees_count 0 (runsOn hmidway chunks hlike fun hconnected => ?_)
      exact absurd hclosing (by rw [show (world.session id).state = .connected from hconnected]; decide)

/-- A move that does not return to the deliveries. -/
theorem midway_move (hmidway : RunsMidway id base script) {handled : Nat} {payloads : List Payload} {query : Query A}
    {current : Delivery A} {machine machine' : Machine A} {move : Move A}
    (hlike : (decoding A id first second).Like machine.world machine'.world)
    (hahead : (machine.world.session id).state = .connected → first.Ahead second chunks later)
    (hsteps : Option.Rel ((decoding A id first second).Steps Event.signal
      (⟨query, .arrival (.delivering id handled payloads current)⟩ :: base)
      (⟨query, .arrival (.followed before later (.delivering id handled payloads current))⟩ :: base))
      (machine.move move) (machine'.move move)) :
    Option.Rel (Feeding.Agrees id before second)
      ((machine.serve base.length (move :: script)).bind (·.thenFeed (feedAll id chunks)))
      ((machine'.serve base.length (move :: script)).bind (·.thenFeed (feedAll id []))) := by
  unfold serve
  cases hmove : machine.move move <;> cases hmove' : machine'.move move <;> rw [hmove, hmove'] at hsteps
  case none.none => exact .none
  case none.some => cases hsteps
  case some.none => cases hsteps
  case some.some result result' =>
    obtain ⟨next, event⟩ := result
    obtain ⟨next', event'⟩ := result'
    obtain ⟨hsame, ⟨inner, hcouples⟩, -⟩ := Option.rel_some_some.1 hsteps
    obtain rfl : event' = event := hsame
    have hdeeper : base.length < next.waiting.length := by
      rw [hcouples.waiting, List.length_append, List.length_cons]
      omega
    have hdeeper' : base.length < next'.waiting.length := by
      rw [hcouples.waiting', List.length_append, List.length_cons]
      omega
    simp only [Option.bind_some, Service.after_of_deeper hdeeper, Service.after_of_deeper hdeeper',
      Service.bind_note]
    refine agrees_note (hmidway hcouples fun hconnected => hahead ?_) _ hcouples.world
    exact connected_before hlike (move_edits hmove) hconnected

/-- **Move by move**, two deliveries with the same payloads in hand go on alike, by induction on the moves to come. -/
theorem runsMidway : ∀ script, (∀ call, .call call ∈ script → call.feeds id = false) → RunsMidway id base script
  | [], _ => fun _ _ _ _ _ _ _ _ _ _ _ _ _ _ => .some ⟨rfl, rfl, rfl, nofun⟩
  | move :: script, hscript => by
    intro first second before handled payloads later chunks inner query current machine machine' hcouples hahead
    have hmidway := runsMidway script fun call hmem => hscript call (List.mem_cons_of_mem _ hmem)
    cases move with
    | call call =>
      have hfeeds := hscript call List.mem_cons_self
      refine midway_move hmidway hcouples.world hahead (hcouples.call call (fun hfeeds' => ?_) fun _ => True.intro)
      rw [hfeeds] at hfeeds'
      cases hfeeds'
    | reply reply =>
      cases inner with
      | cons innermost inner => exact midway_move hmidway hcouples.world hahead (hcouples.reply reply)
      | nil =>
        -- Outside code returns to the delivery itself.  What is left of the script is shorter, so `runsOn` may be used.
        obtain ⟨world, waiting⟩ := machine
        obtain ⟨world', waiting'⟩ := machine'
        obtain rfl := hcouples.waiting
        obtain rfl := hcouples.waiting'
        have hwhole := World.resume_followed world' reply id before handled payloads later current
        rw [List.nil_append, List.nil_append, serve_reply, serve_reply]
        simp only [Suspended.resume, hwhole]
        refine playOut_agrees hmidway (runsOn hmidway chunks)
          (hcouples.world.resumeArrival reply (.delivering id handled payloads current) fun _ _ => True.intro)
          (world.resume_deliversFor reply id handled payloads current) fun hgoing hconnected => hahead ?_
        obtain ⟨marks, hedits⟩ := Likeness.exists_edits (world.resumeArrival_comesFrom reply _) hgoing
        exact connected_before hcouples.world hedits hconnected

end Machine

/-! ## Whole streams -/

/-- A session that the host tracks is connected, and its decoder, which accepts lengths up to `max`, was given this
stream since it was new or reset. -/
structure World.Listens (world : World A) (id : SessionId) (max : Nat) (seen : List UInt8) : Prop where
  issued : id.number < world.ids.next
  known : world.knows id = true
  tracked : world.tracks id = true
  connected : (world.session id).state = .connected
  limit : (world.session id).decoder.max = max
  follows : (world.session id).decoder.Follows seen

/-- **A chunk that the decoder refuses** is not delivered at all: it ends the session before anyone hears of it. -/
theorem World.hostReceive_of_refused {world : World A} {id : SessionId} {chunk : List UInt8} {e : DecoderError}
    (htracked : world.tracks id = true) (hconnected : (world.session id).state = .connected)
    (hrefused : ((world.session id).decoder.feed chunk).answer = .error e) :
    let session := { world.session id with decoder := ((world.session id).decoder.feed chunk).decoder }
    (world.hostReceive id chunk).world = world.put id ((session.noteReason .malformedData).enter .disconnecting) := by
  intro session
  have hreceive : (world.session id).receive chunk = (session, .error e) := by
    simp only [Session.receive, if_pos hconnected, hrefused]
    rfl
  have hopen : ((world.put id session).session id).state.isClosing = false := by
    rw [World.session_put_self]
    exact congrArg ConnectionState.isClosing hconnected
  have hworld := world_disconnect_of_open hopen .malformedData
  rw [World.session_put_self, World.put_put] at hworld
  rw [World.hostReceive, if_pos htracked, hreceive]
  exact (Activity.world_andThen _ _ fun _ _ => rfl).trans hworld

/-- A world in which nobody has counted what a session has received and decoded. -/
def World.uncounted (id : SessionId) (world : World A) : World A := world.modify id (·.uncounted)

/-- Outside code has seen the same and has made the same moves.  If all calls have returned, they have answered as
much in all, and have left the same world but for what was counted. -/
structure Feeding.Same (id : SessionId) (feeding other : Feeding A) : Prop where
  sights : other.sights.map (Sight.veiled id) = feeding.sights.map (Sight.veiled id)
  left : other.left = feeding.left
  finished : other.finished = feeding.finished
  total : feeding.finished = true → other.total = feeding.total
  waiting : feeding.finished = true → other.machine.waiting = feeding.machine.waiting
  world : feeding.finished = true → other.machine.world.uncounted id = feeding.machine.world.uncounted id

theorem Feeding.Agrees.uncounted {id : SessionId} {before : Nat} {second : Decoder} {feeding other : Feeding A}
    (h : feeding.Agrees id before second other) (hfinished : feeding.finished = true) :
    other.machine.world.uncounted id = feeding.machine.world.uncounted id := by
  obtain ⟨-, -, first, hlike, hstage⟩ := h.ended hfinished
  exact hlike.modify_eq fun _ hpair => Session.Decoding.uncounted hpair hstage

/-- Two runs that agree with a third are the same. -/
theorem Feeding.Agrees.same {id : SessionId} {before : Nat} {second : Decoder} {feeding other third : Feeding A}
    (h : feeding.Agrees id before second third) (hother : other.Agrees id before second third) :
    feeding.Same id other := by
  have hfinished : other.finished = feeding.finished := hother.finished.symm.trans h.finished
  refine ⟨hother.sights.symm.trans h.sights, hother.left.symm.trans h.left, hfinished, fun hdone => ?_, fun hdone => ?_,
    fun hdone => ?_⟩
  · exact Nat.add_left_cancel ((hother.ended (hfinished.trans hdone)).1.symm.trans (h.ended hdone).1)
  · exact (hother.ended (hfinished.trans hdone)).2.1.symm.trans (h.ended hdone).2.1
  · exact (hother.uncounted (hfinished.trans hdone)).symm.trans (h.uncounted hdone)

namespace Machine

open Likeness (decoding)

variable {id : SessionId} {max : Nat} {seen : List UInt8} {machine : Machine A} {script : List (Move A)}
  {chunks : List (List UInt8)} {feeding : Feeding A}

theorem exists_of_rel_some {α β : Type} {R : α → β → Prop} {a : α} {result : Option β}
    (h : Option.Rel R (some a) result) : ∃ b, result = some b ∧ R a b := by
  cases h with
  | some h => exact ⟨_, rfl, h⟩

theorem rel_of_common {α β : Type} {R : α → β → Prop} {S : α → α → Prop} {first second : Option α} {common : Option β}
    (h : Option.Rel R first common) (h' : Option.Rel R second common)
    (hpair : ∀ {a a' b}, R a b → R a' b → S a a') : Option.Rel S first second := by
  cases h with
  | some h =>
    cases h' with
    | some h' => exact .some (hpair h h')
  | none =>
    cases h' with
    | none => exact .none

/-- However bytes are cut, the run is that of a session which has decoded all of them before the first payload is
delivered. -/
theorem feedAll_agrees (h : machine.world.Listens id max seen)
    (hscript : ∀ call, .call call ∈ script → call.feeds id = false)
    (hfits : (unframe max (seen ++ chunks.flatten)).oversized = none) :
    let session := machine.world.session id
    let intake := session.decoder.feed chunks.flatten
    Option.Rel (Feeding.Agrees id 0 intake.decoder) (feedAll id chunks machine script)
      (playOut id machine.waiting
        (Call.wrap ((machine.world.put id { session with decoder := intake.decoder }).deliverAll id 0 intake.ready)
          .arrival .count) [] script) := by
  intro session intake
  obtain ⟨hready, hdecoder, -⟩ := Decoder.feed_of_follows h.follows chunks.flatten
  have hmax : intake.decoder.max = session.decoder.max := (congrArg Decoder.max hdecoder :)
  have hlike : (decoding A id session.decoder intake.decoder).Like machine.world
      (machine.world.put id { session with decoder := intake.decoder }) :=
    ⟨h.issued, h.known, .inr fun _ => h.tracked, _, rfl, rfl, rfl, rfl, hmax, .inl ⟨h.connected, rfl, rfl⟩⟩
  rw [← h.limit] at hfits
  exact runsOn (runsMidway script hscript) chunks hlike fun _ =>
    ⟨seen, h.follows, h.follows.feed chunks.flatten, hmax, hfits, hready⟩

/-- After such a stream the session is closing, or it has decoded just this. -/
theorem listens_of_feedAll (h : machine.world.Listens id max seen)
    (hscript : ∀ call, .call call ∈ script → call.feeds id = false)
    (hfits : (unframe max (seen ++ chunks.flatten)).oversized = none)
    (hfeeding : feedAll id chunks machine script = some feeding) (hfinished : feeding.finished = true) :
    (feeding.machine.world.session id).state.isClosing = true ∨
      feeding.machine.world.Listens id max (seen ++ chunks.flatten) := by
  have hagrees := feedAll_agrees h hscript hfits
  obtain ⟨hready, hdecoder, -⟩ := Decoder.feed_of_follows h.follows chunks.flatten
  rw [hfeeding] at hagrees
  obtain ⟨other, -, hagree⟩ := exists_of_rel_some hagrees
  obtain ⟨-, -, first, hlike, hstage⟩ := hagree.ended hfinished
  obtain ⟨session, -, hpair⟩ := exists_decoding hlike
  rcases hpair.decoders with ⟨hconnected, hfirst, hsecond⟩ | ⟨hclosing, -, -⟩
  · have hlimit : (feeding.machine.world.session id).decoder.max = max := by
      rw [← hpair.max, hsecond, hdecoder]
      exact h.limit
    refine .inr ⟨hlike.issued, hlike.known, tracked_of_connected hlike hconnected, hconnected, hlimit, ?_⟩
    rw [Decoder.Follows, hlimit, hfirst, hstage hconnected, hdecoder, h.limit]
  · exact .inl hclosing

/-- A stream with an oversized header ends the session, if nothing else has. -/
theorem closing_of_oversized : ∀ (chunks : List (List UInt8)) {machine : Machine A} {script : List (Move A)}
    {seen : List UInt8} {feeding : Feeding A}, machine.world.Listens id max seen →
    (∀ call, .call call ∈ script → call.feeds id = false) → (unframe max seen).oversized = none →
    (unframe max (seen ++ chunks.flatten)).oversized ≠ none → feedAll id chunks machine script = some feeding →
    feeding.finished = true → (feeding.machine.world.session id).state.isClosing = true
  | [], _, _, _, _, _, _, hfits, hoversized, _, _ => by
    rw [List.flatten_nil, List.append_nil] at hoversized
    exact absurd hfits hoversized
  | chunk :: chunks, machine, script, seen, feeding, h, hscript, hfits, hoversized, hfeeding, hfinished => by
    cases hchunk : (unframe max (seen ++ chunk)).oversized with
    | none =>
      obtain ⟨first, rest, hfirst, hwhole, hleft, hrest, hdone, hmachine⟩ := feedAll_split hfeeding hfinished
      have hscript' : ∀ call, .call call ∈ first.left → call.feeds id = false :=
        fun call hmem => hscript call (hleft.subset hmem)
      rw [hmachine]
      rcases listens_of_feedAll h hscript (by simpa using hchunk) hfirst hwhole with hclosing | hlistens
      · obtain ⟨marks, hedits⟩ := feedAll_edits _ hfirst
        obtain ⟨more, hmore⟩ := feedAll_edits _ hrest
        exact hmore.isClosing (hedits.rank_le h.issued).2 hclosing
      · rw [List.flatten_singleton] at hlistens
        refine closing_of_oversized chunks hlistens hscript' hchunk ?_ hrest hdone
        rwa [List.append_assoc]
    | some length =>
      obtain ⟨world, waiting⟩ := machine
      rw [feedAll_cons] at hfeeding
      obtain ⟨marks, hedits⟩ := playOut_edits hfeeding
      obtain ⟨-, -, hanswer⟩ := Decoder.feed_of_follows h.follows chunk
      rw [h.limit, hfits, Unframed.answer, hchunk] at hanswer
      have hrefused := World.hostReceive_of_refused h.tracked h.connected hanswer
      rw [Call.wrap, Activity.world_andThen _ _ fun _ _ => rfl, hrefused] at hedits
      refine hedits.isClosing h.issued ?_
      rw [World.session_put_self]
      rfl

/-- **The cut of the bytes does not matter.**  A tracked session is connected, with any partial frame in its decoder,
and the same bytes are passed to the host in two ways, with nothing else in between; outside code makes the same moves
whenever the library calls it, and feeds nothing to the session itself.  If the bytes complete no oversized header,
outside code sees the same in both runs, the calls answer the same number in all, and the worlds at the end are the
same but for what was counted.  If they do complete one, the session ends closing, however they are cut.  Once the
session is closing, no payload is delivered or decoded, of the same chunk or a later one, and a chunk that the decoder
refuses ends the session before anyone hears of it. -/
theorem chunks_irrelevant {chunks' : List (List UInt8)} (hlistens : machine.world.Listens id max seen)
    (hfits : (unframe max seen).oversized = none) (hsame : chunks'.flatten = chunks.flatten)
    (hscript : ∀ call, .call call ∈ script → call.feeds id = false) :
    ((unframe max (seen ++ chunks.flatten)).oversized = none →
      Option.Rel (Feeding.Same id) (feedAll id chunks machine script) (feedAll id chunks' machine script)) ∧
    ((unframe max (seen ++ chunks.flatten)).oversized ≠ none → ∀ feeding,
      feedAll id chunks machine script = some feeding ∨ feedAll id chunks' machine script = some feeding →
      feeding.finished = true → (feeding.machine.world.session id).state.isClosing = true) ∧
    (∀ world : World A, world.knows id = true → (world.session id).state.isClosing = true →
      ∀ handled payloads chunk, world.deliverAll id handled payloads = .finish world handled ∧
        world.hostReceive id chunk = .finish world 0) ∧
    (∀ (world : World A) (chunk : List UInt8) (e : DecoderError), world.tracks id = true →
      (world.session id).state = .connected → ((world.session id).decoder.feed chunk).answer = .error e →
      (((world.hostReceive id chunk).world.session id).state = .disconnecting ∧
        ((world.hostReceive id chunk).world.session id).reason =
          some ((world.session id).reason.getD .malformedData))) := by
  refine ⟨fun hwhole => ?_, fun hoversized feeding hfeeding hfinished => ?_,
    fun world hknown hclosing handled payloads chunk =>
      ⟨World.deliverAll_of_closing hclosing handled payloads, World.hostReceive_of_closing hknown hclosing chunk⟩,
    fun world chunk e htracked hconnected hrefused => ?_⟩
  · have hwhole' : (unframe max (seen ++ chunks'.flatten)).oversized = none := by rwa [hsame]
    have hagrees' := feedAll_agrees hlistens hscript hwhole'
    rw [hsame] at hagrees'
    exact rel_of_common (feedAll_agrees hlistens hscript hwhole) hagrees' Feeding.Agrees.same
  · rcases hfeeding with hfeeding | hfeeding
    · exact closing_of_oversized chunks hlistens hscript hfits hoversized hfeeding hfinished
    · exact closing_of_oversized chunks' hlistens hscript hfits (by rwa [hsame]) hfeeding hfinished
  · rw [World.hostReceive_of_refused htracked hconnected hrefused, World.session_put_self]
    refine ⟨rfl, ?_⟩
    cases hreason : (world.session id).reason <;>
      simp [Session.enter, Session.noteReason, ConnectionState.isClosing, hreason]

/-- A session that has received most of a header. -/
def halfHeard : Machine .guarded where
  world :=
    { sessions := ({} : Directory SessionId (Session Nat)).set ⟨1⟩
        { Session.start ⟨1⟩ {} with state := .connected, decoder := ⟨16, .header [1, 0, 0], 0⟩ }
      ids := ⟨2⟩
      tracked := [⟨1⟩] }

/-- The handler of the first message answers it, and the transport is closed for the second. -/
def answering : List (Move .guarded) := [.call (.enqueue ⟨1⟩ [5]), .reply .done, .reply .done]

theorem chunks_irrelevant_rejected : ∃ feeding feeding' : Feeding .guarded,
    feedAll ⟨1⟩ [[0, 7], frame [1, 9] ++ frame [8]] halfHeard answering = some feeding ∧
    feedAll ⟨1⟩ [[0], [7, 2, 0], [0, 0, 1], [9, 1, 0, 0], [0, 8]] halfHeard answering = some feeding' ∧
    feeding.Same ⟨1⟩ feeding' ∧ feeding.finished = true ∧ feeding.total = 1 ∧ feeding.sights.length = 3 ∧
    (feeding.machine.world.session ⟨1⟩).state = .disconnecting := by
  have hlistens : halfHeard.world.Listens ⟨1⟩ 16 [1, 0, 0] := by
    refine ⟨by decide, rfl, rfl, rfl, rfl, ?_⟩
    rw [Decoder.Follows, unframe_of_short (by decide)]
    rfl
  have hfits : ∀ payload ∈ ([[7], [1, 9], [8]] : List Payload), Fits 16 payload := by simp [Fits, lengthLimit]
  have hwhole : unframe 16 ([1, 0, 0] ++ [[0, 7], frame [1, 9] ++ frame [8]].flatten) =
    ⟨[[7], [1, 9], [8]], [], none⟩ := unframe_frames hfits
  have hcut : [[0], [7, 2, 0], [0, 0, 1], [9, 1, 0, 0], [0, 8]].flatten =
    [[0, 7], frame [1, 9] ++ frame [8]].flatten := rfl
  obtain ⟨feeding, hfeeding, hended⟩ : ∃ feeding : Feeding .guarded,
      feedAll ⟨1⟩ [[0, 7], frame [1, 9] ++ frame [8]] halfHeard answering = some feeding ∧
      feeding.finished = true ∧ feeding.total = 1 ∧ feeding.sights.length = 3 ∧
      (feeding.machine.world.session ⟨1⟩).state = .disconnecting := ⟨_, rfl, rfl, rfl, rfl, rfl⟩
  have hscript : ∀ call, Move.call call ∈ answering → call.feeds ⟨1⟩ = false := by
    intro call hmem
    simp only [answering, List.mem_cons, List.not_mem_nil, or_false, Move.call.injEq, reduceCtorEq] at hmem
    rw [hmem]
    rfl
  have hsame := (chunks_irrelevant hlistens (by rw [unframe_of_short (by decide)]) hcut hscript).1 (by rw [hwhole])
  rw [hfeeding] at hsame
  obtain ⟨feeding', hfeeding', hsame'⟩ := exists_of_rel_some hsame
  exact ⟨feeding, feeding', hfeeding, hfeeding', hsame', hended⟩

end Machine

end FramedLink
