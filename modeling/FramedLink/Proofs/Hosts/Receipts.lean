import FramedLink.Proofs.Lives.Ending
import FramedLink.Proofs.Runs.Ledger
import FramedLink.Proofs.Runs.Readings
import FramedLink.Proofs.Wire.RoundTrip
/-!
# What was received, and what was handled

A session counts the bytes that it took in and the payloads that it gave, its decoder counts frames, and handled
messages are counted as they are delivered.  Here is that these counts agree with each other and with what calls were
answered, at every point of every run.

Main statement: every byte taken in is in a frame that was given or still waits in the decoder, no more messages are
handled than frames were received, and those handled are those that arrivals were answered
(`Machine.receipts_balance`).
-/
namespace FramedLink

variable {A : Application} {ι : Type}

/-! ## The counters of a session -/

namespace Reading

/-- The payloads that the session gave for the chunk. -/
def payloads (reading : Reading ι) : List Payload := reading.result.toOption.getD []

/-- The bytes that were taken in: the chunk, if the session was connected and did not refuse it. -/
def taken (reading : Reading ι) : List UInt8 :=
  if reading.session.state = .connected ∧ reading.result.isOk = true then reading.chunk else []

theorem state_after (reading : Reading ι) : reading.after.state = reading.session.state := by
  rcases reading.session.receive_outcome reading.chunk with ⟨-, heq⟩ | ⟨-, ⟨e, -, heq⟩ | ⟨count, -, heq⟩⟩
  · rw [after, heq]
  · rw [after, heq]
  · rw [after, heq]
    rfl

/-- **What is taken in and given is counted.** -/
theorem stats_after (reading : Reading ι) :
    reading.after.stats = { reading.session.stats with
      bytesReceived := reading.session.stats.bytesReceived + reading.taken.length
      framesReceived := reading.session.stats.framesReceived + reading.payloads.length } := by
  rcases reading.session.receive_outcome reading.chunk with
    ⟨hother, heq⟩ | ⟨hconnected, ⟨e, -, heq⟩ | ⟨count, -, heq⟩⟩
  · simp [after, taken, payloads, result, heq, hother, Except.toOption]
  · simp [after, taken, payloads, result, heq, Except.toOption, Except.isOk, Except.toBool]
  · simp [after, taken, payloads, result, heq, hconnected, Except.toOption, Except.isOk, Except.toBool,
      Session.countReceived]

/-- A session that is not connected drops the chunk. -/
theorem of_unconnected {reading : Reading ι} (h : reading.session.state ≠ .connected) :
    reading.after = reading.session ∧ reading.result = .ok [] := by
  have heq : reading.session.receive reading.chunk = (reading.session, .ok []) := if_neg h
  rw [after, result, heq]
  exact ⟨rfl, rfl⟩

theorem decoder_after {reading : Reading ι} (h : reading.session.state = .connected) :
    reading.after.decoder = (reading.session.decoder.feed reading.chunk).decoder := by
  rcases reading.session.receive_outcome reading.chunk with ⟨hother, -⟩ | ⟨-, ⟨e, -, heq⟩ | ⟨count, -, heq⟩⟩
  · exact absurd h hother
  · rw [after, heq]
  · rw [after, heq]
    rfl

/-- A connected session that does not refuse a chunk takes it in and gives the payloads that it completes. -/
theorem of_accepted {reading : Reading ι} (h : reading.session.state = .connected) (haccepted : ¬ reading.Fails) :
    reading.taken = reading.chunk ∧ reading.payloads = (reading.session.decoder.feed reading.chunk).ready ∧
      ∃ count, (reading.session.decoder.feed reading.chunk).answer = .ok count := by
  rcases reading.session.receive_outcome reading.chunk with ⟨hother, -⟩ | ⟨-, ⟨e, -, heq⟩ | ⟨count, hanswer, heq⟩⟩
  · exact absurd h hother
  · exact absurd ⟨e, congrArg Prod.snd heq⟩ haccepted
  · have hresult : reading.result = .ok (reading.session.decoder.feed reading.chunk).ready := congrArg Prod.snd heq
    rw [taken, payloads, hresult]
    exact ⟨if_pos ⟨h, rfl⟩, rfl, count, hanswer⟩

end Reading

/-- The chunks that found the session connected. -/
def offered (readings : List (Reading ι)) : List (List UInt8) :=
  (readings.filter fun reading => reading.session.state = .connected).map Reading.chunk

theorem offered_concat (past : List (Reading ι)) (reading : Reading ι) :
    offered (past ++ [reading]) =
      offered past ++ if reading.session.state = .connected then [reading.chunk] else [] := by
  rw [offered, List.filter_append, List.map_append, List.filter_singleton]
  by_cases hconnected : reading.session.state = .connected
  · rw [decide_eq_true hconnected, if_pos hconnected]
    rfl
  · rw [decide_eq_false hconnected, if_neg hconnected]
    rfl

theorem Decoder.afterChunks_concat (decoder : Decoder) (chunks : List (List UInt8)) (chunk : List UInt8) :
    decoder.afterChunks (chunks ++ [chunk]) = ((decoder.afterChunks chunks).feed chunk).decoder := by
  induction chunks generalizing decoder with
  | nil => rfl
  | cons first chunks ih => exact ih (decoder.feed first).decoder

namespace Session

/-- What a session has received: it has counted what was taken in and given, its decoder is where the chunks that found
it connected bring a new one, and if none of them was refused these are what was taken in, and hold what was given. -/
structure Receives (max : Nat) (past : List (Reading ι)) (session : Session ι) : Prop where
  frames : session.stats.framesReceived = (past.flatMap Reading.payloads).length
  bytes : session.stats.bytesReceived = (past.flatMap Reading.taken).length
  decoder : session.state.isClosing = false → session.decoder = (Decoder.fresh max).afterChunks (offered past)
  sound : (∀ reading ∈ past, ¬ reading.Fails) → past.flatMap Reading.taken = (offered past).flatten ∧
    past.flatMap Reading.payloads = (unframe max (offered past).flatten).payloads ∧
    (unframe max (offered past).flatten).oversized = none

variable {max : Nat} {past : List (Reading ι)} {session next : Session ι}

theorem receives_start (id : SessionId) (config : SessionConfig) :
    (start id config : Session ι).Receives config.maxMessageSize [] where
  frames := rfl
  bytes := rfl
  decoder := fun _ => rfl
  sound := fun _ => by
    rw [offered, List.filter_nil, List.map_nil, List.flatten_nil, unframe_of_short (by decide)]
    exact ⟨rfl, rfl, rfl⟩

namespace Receives

theorem unfed {n : Nat} (h : session.Receives max past) (hunfed : session.Unfed n next) : next.Receives max past where
  frames := hunfed.frames.trans h.frames
  bytes := hunfed.bytes.trans h.bytes
  decoder := fun hopen => by
    rcases hunfed.decoder with ⟨hstill, hsame⟩ | ⟨hclosing, -⟩
    · rw [hsame]
      exact h.decoder (hstill.symm.trans hopen)
    · rw [hclosing] at hopen
      cases hopen
  sound := h.sound

/-- The decoder follows the stream of the chunks that found the session connected. -/
theorem follows (h : session.Receives max past) (hopen : session.state.isClosing = false) :
    session.decoder.Follows (offered past).flatten ∧ session.decoder.max = max ∧
      session.decoder.decoded = (unframe max (offered past).flatten).payloads.length := by
  have hstart : (Decoder.fresh max).Follows [] := Decoder.follows_nil rfl
  have hnil : (unframe (Decoder.fresh max).max []).payloads = [] := by rw [unframe_of_short (by decide)]
  obtain ⟨hfollows, hmax, hready, hdecoded⟩ := hstart.afterChunks (offered past)
  rw [List.nil_append] at hfollows hready
  rw [hnil, List.nil_append] at hready
  rw [← h.decoder hopen] at hfollows hmax hdecoded
  refine ⟨hfollows, hmax, ?_⟩
  rw [hdecoded, ← hready]
  exact Nat.zero_add _

/-- What was taken in and given so far, when one more chunk finds the session connected and is not refused. -/
theorem sound_read {reading : Reading ι} (h : reading.session.Receives max past)
    (hconnected : reading.session.state = .connected) (hnone : ∀ other ∈ past, ¬ other.Fails)
    (haccepted : ¬ reading.Fails) :
    past.flatMap Reading.taken ++ reading.taken = (offered past).flatten ++ reading.chunk ∧
    past.flatMap Reading.payloads ++ reading.payloads =
      (unframe max ((offered past).flatten ++ reading.chunk)).payloads ∧
    (unframe max ((offered past).flatten ++ reading.chunk)).oversized = none := by
  obtain ⟨hbytes, hgiven, hsound⟩ := h.sound hnone
  obtain ⟨htaken, hpayloads, count, hanswer⟩ := Reading.of_accepted hconnected haccepted
  obtain ⟨hfollows, hmax, -⟩ := h.follows (by rw [hconnected]; rfl)
  obtain ⟨hmore, -, hanswered⟩ := Decoder.feed_of_follows hfollows reading.chunk
  rw [hmax] at hmore hanswered
  refine ⟨by rw [hbytes, htaken], by rw [hgiven, hpayloads, hmore], ?_⟩
  rw [hanswer, hsound, Unframed.answer] at hanswered
  cases hover : (unframe max ((offered past).flatten ++ reading.chunk)).oversized with
  | none => rfl
  | some length =>
    rw [hover] at hanswered
    cases hanswered

/-- **Whatever a session makes of a chunk, it has counted it.** -/
theorem read {reading : Reading ι} (h : reading.session.Receives max past) :
    reading.after.Receives max (past ++ [reading]) where
  frames := by
    rw [reading.stats_after, List.flatMap_append, List.flatMap_singleton, List.length_append, ← h.frames]
  bytes := by
    rw [reading.stats_after, List.flatMap_append, List.flatMap_singleton, List.length_append, ← h.bytes]
  decoder := fun hopen => by
    rw [reading.state_after] at hopen
    rw [offered_concat]
    by_cases hconnected : reading.session.state = .connected
    · rw [if_pos hconnected, Decoder.afterChunks_concat, ← h.decoder hopen, Reading.decoder_after hconnected]
    · rw [if_neg hconnected, List.append_nil, (Reading.of_unconnected hconnected).1]
      exact h.decoder hopen
  sound := fun hnone => by
    obtain ⟨hpast, hlast⟩ := List.forall_mem_append.1 hnone
    have haccepted := hlast reading (List.mem_singleton.2 rfl)
    rw [List.flatMap_append, List.flatMap_append, List.flatMap_singleton, List.flatMap_singleton, offered_concat,
      List.flatten_append]
    by_cases hconnected : reading.session.state = .connected
    · rw [if_pos hconnected, List.flatten_singleton]
      exact h.sound_read hconnected hpast haccepted
    · have htaken : reading.taken = [] := if_neg fun hboth => hconnected hboth.1
      have hpayloads : reading.payloads = [] := by
        rw [Reading.payloads, (Reading.of_unconnected hconnected).2]
        rfl
      rw [if_neg hconnected, htaken, hpayloads, List.flatten_nil, List.append_nil, List.append_nil, List.append_nil]
      exact h.sound hpast

/-- **Every byte taken in is in a frame that was given or waits in the decoder**, as long as nothing was refused. -/
theorem balance (h : session.Receives max past) (hconnected : session.state = .connected)
    (hnone : ∀ reading ∈ past, ¬ reading.Fails) :
    session.stats.bytesReceived =
        ((past.flatMap Reading.payloads).map fun payload => headerSize + payload.length).sum +
          session.decoder.buffered ∧
      session.decoder.decoded = session.stats.framesReceived := by
  have hopen : session.state.isClosing = false := by rw [hconnected]; rfl
  obtain ⟨hbytes, hgiven, hsound⟩ := h.sound hnone
  obtain ⟨hfollows, hmax, hdecoded⟩ := h.follows hopen
  have hbuffered : session.decoder.buffered = (unframe max (offered past).flatten).rest.length := by
    rw [hfollows.buffered (by rw [hmax]; exact hsound), hmax]
  refine ⟨?_, by rw [hdecoded, h.frames, hgiven]⟩
  rw [h.bytes, hbytes, hgiven, hbuffered, ← length_frames, ← List.length_append, frames_unframe]

end Receives

end Session

/-! ## Messages handled by arrivals -/

/-- How many messages of a session a call says that it has handled, if bytes arrived for the session. -/
def Call.handled (id : SessionId) : Call A → Answer → Nat
  | hostReceive other _, .count n => if other = id then n else 0
  | _, _ => 0

def Finished.handled (id : SessionId) (record : Finished A) : Nat := record.call.handled id record.answer

/-- How many messages of a session what is left of an arrival has handled so far. -/
def Suspended.handled (id : SessionId) : Suspended A → Nat
  | arrival (.delivering other handled _ current) => if other = id then handled + current.counted else 0
  | _ => 0

/-- How many payloads of a session what is left of an arrival has still to deliver. -/
def Suspended.ahead (id : SessionId) : Suspended A → Nat
  | arrival (.delivering other _ rest _) => if other = id then rest.length else 0
  | _ => 0

/-- The arrival is of bytes for the session that the call named. -/
def Call.Brings : Call A → Suspended A → Prop
  | hostReceive id _, .arrival rest => rest.IsFor id
  | call, rest => call.Leaves rest

theorem Suspended.of_arrival (id : SessionId) {other : SessionId} {rest : Arrival A} (h : rest.IsFor other) :
    (Suspended.arrival rest).handled id = (if other = id then rest.counted else 0) ∧
      (Suspended.arrival rest).ahead id = if other = id then rest.ahead else 0 := by
  cases rest with
  | delivering session handled rest current =>
    obtain rfl : session = other := h
    exact ⟨rfl, rfl⟩
  | malformed rest => exact ⟨(ite_self 0).symm, (ite_self 0).symm⟩

theorem Suspended.of_no_arrival (id : SessionId) {rest : Suspended A} (h : ∀ arrival, rest ≠ .arrival arrival) :
    rest.handled id = 0 ∧ rest.ahead id = 0 := by
  cases rest with
  | arrival arrival => exact absurd rfl (h arrival)
  | _ => exact ⟨rfl, rfl⟩

theorem Call.Brings.leaves {call : Call A} {rest : Suspended A} (h : call.Brings rest) : call.Leaves rest := by
  cases call with
  | hostReceive id chunk =>
    cases rest with
    | arrival rest => exact True.intro
    | _ => exact h
  | _ => exact h

/-- A call that has left something else than an arrival is no arrival. -/
theorem Call.not_arrival {call : Call A} {rest : Suspended A} (h : call.Leaves rest)
    (hcall : ∀ id chunk, call ≠ .hostReceive id chunk) : ∀ arrival, rest ≠ .arrival arrival := by
  rintro arrival rfl
  cases call with
  | hostReceive id chunk => exact hcall id chunk rfl
  | _ => exact h

theorem Call.handled_of_no_arrival (id : SessionId) {call : Call A} (hcall : ∀ id chunk, call ≠ .hostReceive id chunk)
    (answer : Answer) : call.handled id answer = 0 := by
  cases call with
  | hostReceive other chunk => exact absurd rfl (hcall other chunk)
  | _ => rfl

/-- From one world to the next the counts of a session agree with those of a call on its way: what it has handled since
is counted, and for each message handled or still ahead a frame was received. -/
structure World.Counts (id : SessionId) (world next : World A) (handled ahead handled' ahead' : Nat) : Prop where
  handled : (next.session id).stats.messagesHandled + handled = (world.session id).stats.messagesHandled + handled'
  ahead : (next.session id).stats.messagesHandled + ahead' + (world.session id).stats.framesReceived ≤
    (world.session id).stats.messagesHandled + ahead + (next.session id).stats.framesReceived

namespace World

variable {id other : SessionId} {world next : World A}

theorem Upkeep.counts {handled : List SessionId} (h : world.Upkeep handled next) (hid : id ∉ handled) :
    world.Counts id next 0 0 0 0 := by
  have hunfed := h.unfed id
  have hhandled := hunfed.handled
  have hframes := hunfed.frames
  rw [List.count_eq_zero.2 hid] at hhandled
  exact ⟨by omega, by omega⟩

end World

theorem Activity.Delivers.counts {other : SessionId} {world : World A} {activity : Activity A (Arrival A) Nat}
    {counted ahead : Nat} (h : activity.Delivers other world counted ahead) (id : SessionId) :
    (∀ total, activity.progress = .done total → world.Counts id activity.world (if other = id then counted else 0)
      (if other = id then ahead else 0) (if other = id then total else 0) 0) ∧
    (∀ query rest, activity.progress = .asks query rest → rest.IsFor other ∧
      world.Counts id activity.world (if other = id then counted else 0) (if other = id then ahead else 0)
        ((Suspended.arrival rest).handled id) ((Suspended.arrival rest).ahead id)) := by
  obtain ⟨n, hupkeep, hprogress⟩ := h
  have hunfed := hupkeep.unfed id
  have hframes := hunfed.frames
  have hcount : (activity.world.session id).stats.messagesHandled =
      (world.session id).stats.messagesHandled + if other = id then n else 0 := by
    rw [hunfed.handled, List.count_replicate]
    simp
  refine ⟨fun total hdone => ?_, fun query rest hasks => ?_⟩
  · rw [hdone] at hprogress
    obtain ⟨htotal, hahead⟩ := hprogress
    constructor <;> split_ifs at hcount ⊢ <;> omega
  · rw [hasks] at hprogress
    obtain ⟨hfor, hcounted, hahead⟩ := hprogress
    obtain ⟨hhandled, hleft⟩ := Suspended.of_arrival id hfor
    refine ⟨hfor, ?_⟩
    rw [hhandled, hleft]
    constructor <;> split_ifs at hcount ⊢ <;> omega

/-- The payloads to be delivered of an arrival are counted as received. -/
theorem World.stats_takeIn (world : World A) (other : SessionId) (chunk : List UInt8) (id : SessionId) :
    ((world.takeIn other chunk).session id).stats.messagesHandled = (world.session id).stats.messagesHandled ∧
    ((world.takeIn other chunk).session id).stats.framesReceived =
      (world.session id).stats.framesReceived + if other = id then (world.toDeliver other chunk).length else 0 := by
  unfold takeIn toDeliver
  by_cases htracks : world.tracks other = true
  · rw [if_pos htracks, if_pos htracks]
    by_cases hother : other = id
    · subst hother
      have hstats := Reading.stats_after ⟨world.session other, chunk⟩
      rw [Reading.after] at hstats
      rw [session_put_self, if_pos rfl, hstats]
      exact ⟨rfl, rfl⟩
    · rw [session_put_of_ne _ _ hother, if_neg hother]
      exact ⟨rfl, rfl⟩
  · rw [if_neg htracks, if_neg htracks]
    exact ⟨rfl, (ite_self 0).symm ▸ rfl⟩

/-- **What a call does to the counts of a session** up to its end, or up to its first call of outside code. -/
theorem Call.begin_counts {id : SessionId} {world : World A}
    (hnew : world.ids.next ≤ id.number → world.knows id = false)
    {call : Call A} (hdirect : ∀ payload, call ≠ .dispatch id payload) :
    (∀ next answer, call.begin world = .finish next answer → world.Counts id next 0 0 (call.handled id answer) 0) ∧
    (∀ next query rest, call.begin world = .ask next query rest → call.Leaves rest →
      call.Brings rest ∧ world.Counts id next 0 0 (rest.handled id) (rest.ahead id)) := by
  by_cases hcall : ∃ other chunk, call = .hostReceive other chunk
  · obtain ⟨other, chunk, rfl⟩ := hcall
    obtain ⟨hhandled, hframes⟩ := world.stats_takeIn other chunk id
    obtain ⟨hdone, hasks⟩ := (world.hostReceive_delivers other chunk).counts id
    refine ⟨fun next answer hactivity => ?_, fun next query rest hactivity _ => ?_⟩
    · obtain ⟨total, hfirst, rfl⟩ := wrap_eq_finish hactivity
      rw [hfirst] at hdone
      have hcounts := hdone total rfl
      have hsame := hcounts.handled
      have hroom := hcounts.ahead
      refine ⟨?_, ?_⟩ <;> simp only [Call.handled, Activity.finish] at hsame hroom ⊢ <;> split_ifs at * <;> omega
    · obtain ⟨left, hfirst, rfl⟩ := wrap_eq_ask hactivity
      rw [hfirst] at hasks
      obtain ⟨hfor, hcounts⟩ := hasks query left rfl
      have hsame := hcounts.handled
      have hroom := hcounts.ahead
      refine ⟨hfor, ?_, ?_⟩ <;> simp only [Activity.ask] at hsame hroom ⊢ <;> split_ifs at * <;> omega
  · have hnone : ∀ other chunk, call ≠ .hostReceive other chunk := fun other chunk heq => hcall ⟨other, chunk, heq⟩
    have hcounts : world.Counts id (call.begin world).world 0 0 0 0 := by
      obtain ⟨handled, hupkeep, hdelivers⟩ := call.begin_upkeep world
      have hid : id ∉ handled := by
        intro hmem
        have hto := hdelivers id hmem
        cases call with
        | dispatch other payload => exact hdirect payload (by rw [show other = id from hto])
        | hostReceive other chunk => exact hnone other chunk rfl
        | _ => exact hto
      have hlater := hupkeep.counts hid
      have hsame := hlater.handled
      have hroom := hlater.ahead
      rcases call.primes_session hnew with ⟨-, hunfed⟩ | ⟨chunk, -, hprimes⟩
      · have hhandled := hunfed.handled
        have hframes := hunfed.frames
        exact ⟨by omega, by omega⟩
      · have hstats := Reading.stats_after ⟨world.session id, chunk⟩
        rw [Reading.after, ← hprimes] at hstats
        have hhandled : ((call.primes world).session id).stats.messagesHandled =
            (world.session id).stats.messagesHandled := by rw [hstats]
        have hframes : (world.session id).stats.framesReceived ≤
            ((call.primes world).session id).stats.framesReceived := by
          rw [hstats]
          exact Nat.le_add_right _ _
        exact ⟨by omega, by omega⟩
    refine ⟨fun next answer hactivity => ?_, fun next query rest hactivity hleaves => ?_⟩
    · rw [hactivity] at hcounts
      rw [Call.handled_of_no_arrival id hnone]
      exact hcounts
    · rw [hactivity] at hcounts
      obtain ⟨hhandled, hahead⟩ := Suspended.of_no_arrival id (Call.not_arrival hleaves hnone)
      rw [hhandled, hahead]
      refine ⟨?_, hcounts⟩
      cases call with
      | hostReceive other chunk => exact absurd rfl (hnone other chunk)
      | _ => exact hleaves

/-- **What a call does to the counts of a session** when outside code has returned to it. -/
theorem Suspended.resume_counts (id : SessionId) {world : World A} {reply : Reply} {call : Call A}
    {rest : Suspended A} (hbrings : call.Brings rest) :
    (∀ next answer, rest.resume world reply = .finish next answer →
      world.Counts id next (rest.handled id) (rest.ahead id) (call.handled id answer) 0) ∧
    (∀ next query left, rest.resume world reply = .ask next query left → call.Leaves left →
      call.Brings left ∧ world.Counts id next (rest.handled id) (rest.ahead id) (left.handled id) (left.ahead id)) := by
  by_cases hcall : ∃ other chunk, call = .hostReceive other chunk
  · obtain ⟨other, chunk, rfl⟩ := hcall
    cases rest with
    | arrival rest =>
      obtain ⟨hhandled, hahead⟩ := of_arrival id hbrings
      obtain ⟨hdone, hasks⟩ := (world.resumeArrival_delivers reply hbrings).counts id
      rw [hhandled, hahead]
      refine ⟨fun next answer hactivity => ?_, fun next query left hactivity _ => ?_⟩
      · obtain ⟨total, hfirst, rfl⟩ := Call.wrap_eq_finish hactivity
        rw [hfirst] at hdone
        exact hdone total rfl
      · obtain ⟨next', hfirst, rfl⟩ := Call.wrap_eq_ask hactivity
        rw [hfirst] at hasks
        exact hasks query next' rfl
    | _ => cases hbrings
  · have hnone : ∀ other chunk, call ≠ .hostReceive other chunk := fun other chunk heq => hcall ⟨other, chunk, heq⟩
    have hquiet := Call.not_arrival hbrings.leaves hnone
    obtain ⟨hhandled, hahead⟩ := of_no_arrival id hquiet
    have hcounts : world.Counts id (rest.resume world reply).world 0 0 0 0 := by
      obtain ⟨handled, hupkeep, hdelivers⟩ := rest.resume_upkeep world reply
      refine hupkeep.counts ((hdelivers id).resolve_left fun hto => ?_)
      cases rest with
      | arrival rest => exact hquiet rest rfl
      | _ => exact hto
    rw [hhandled, hahead]
    refine ⟨fun next answer hactivity => ?_, fun next query left hactivity hleaves => ?_⟩
    · rw [hactivity] at hcounts
      rw [Call.handled_of_no_arrival id hnone]
      exact hcounts
    · rw [hactivity] at hcounts
      obtain ⟨hhandled', hahead'⟩ := of_no_arrival id (Call.not_arrival hleaves hnone)
      rw [hhandled', hahead']
      refine ⟨?_, hcounts⟩
      cases call with
      | hostReceive other chunk => exact absurd rfl (hnone other chunk)
      | _ => exact hleaves

/-! ## Runs -/

namespace Ledger

variable {id : SessionId} {ledger : Ledger A} {machine next last : Machine A} {event : Event A}

/-- The counts of a session agree with the calls on the ledger: every message handled is in the answer of an arrival, or
in an arrival under way, and for each of them and for each payload still to be delivered a frame was received. -/
structure Balances (id : SessionId) (ledger : Ledger A) (machine : Machine A) : Prop where
  brings : List.Forall₂ (fun ongoing waiting => ongoing.call.Brings waiting.rest) ledger.ongoing machine.waiting
  handled : (machine.world.session id).stats.messagesHandled =
    (ledger.finished.map (Finished.handled id)).sum + (machine.waiting.map (·.rest.handled id)).sum
  ahead : (machine.world.session id).stats.messagesHandled + (machine.waiting.map (·.rest.ahead id)).sum ≤
    (machine.world.session id).stats.framesReceived

/-- A call under way that leaves no arrival for a session has handled none of its messages. -/
theorem sum_handled_eq_zero {ongoing : List (Ongoing A)} {waiting : List (Waiting A)}
    (h : List.Forall₂ (fun ongoing waiting => ongoing.call.Brings waiting.rest) ongoing waiting)
    (hnone : ∀ other ∈ ongoing, ∀ chunk, other.call ≠ .hostReceive id chunk) :
    (waiting.map (·.rest.handled id)).sum = 0 := by
  induction h with
  | nil => rfl
  | @cons first innermost outer below hbrings _ ih =>
    obtain ⟨hfirst, hrest⟩ := List.forall_mem_cons.1 hnone
    have hnothing : innermost.rest.handled id = 0 := by
      obtain ⟨call, exchanged⟩ := first
      by_cases hcall : ∃ other chunk, call = .hostReceive other chunk
      · obtain ⟨other, chunk, rfl⟩ := hcall
        have hother : other ≠ id := fun heq => hfirst chunk (by rw [heq])
        obtain ⟨query, rest⟩ := innermost
        cases rest with
        | arrival rest => rw [(Suspended.of_arrival id hbrings).1, if_neg hother]
        | _ => rfl
      · have hquiet := Call.not_arrival hbrings.leaves fun other chunk heq => hcall ⟨other, chunk, heq⟩
        exact (Suspended.of_no_arrival id hquiet).1
    rw [List.map_cons, List.sum_cons, hnothing, ih hrest]

/-- **Every move keeps the balance**, if no payload is dispatched to the session past the arrivals. -/
theorem Balances.turns {scope : SessionId → Prop} (h : ledger.Balances id machine)
    (hturns : machine.Turns scope next event)
    (hnew : machine.world.ids.next ≤ id.number → machine.world.knows id = false)
    (hdirect : ∀ payload signal, event ≠ .called (.dispatch id payload) signal) :
    (ledger.note event).Balances id next := by
  obtain ⟨hbrings, hhandled, hahead⟩ := h
  cases hturns with
  | @begins call query rest hactivity hleaves _ hwaiting _ =>
    have hcall : ∀ payload, call ≠ .dispatch id payload := by
      rintro payload rfl
      exact hdirect payload _ rfl
    obtain ⟨hnext, hcounts⟩ := (Call.begin_counts hnew hcall).2 _ _ _ hactivity hleaves
    have hsame := hcounts.handled
    have hroom := hcounts.ahead
    refine ⟨?_, ?_, ?_⟩
    · rw [hwaiting]
      exact .cons hnext hbrings
    · simp only [hwaiting, note, ends, Option.toList_none, List.append_nil, List.map_cons, List.sum_cons]
      omega
    · simp only [hwaiting, List.map_cons, List.sum_cons]
      omega
  | @passes call answer hactivity hwaiting _ =>
    have hcall : ∀ payload, call ≠ .dispatch id payload := by
      rintro payload rfl
      exact hdirect payload _ rfl
    have hcounts := (Call.begin_counts hnew hcall).1 _ _ hactivity
    have hsame := hcounts.handled
    have hroom := hcounts.ahead
    refine ⟨?_, ?_, ?_⟩
    · rw [hwaiting]
      exact hbrings
    · simp only [hwaiting, note, ends, Option.toList_some, List.map_append, List.sum_append, List.map_singleton,
        List.sum_singleton, Finished.handled]
      omega
    · rw [hwaiting]
      omega
  | @goesOn innermost outer reply query rest hinnermost hactivity hleaves _ hwaiting _ =>
    rw [hinnermost] at hbrings hhandled hahead
    rw [List.map_cons, List.sum_cons] at hhandled hahead
    obtain ⟨ongoing, below, hfirst, hbelow, heq⟩ := List.forall₂_cons_right_iff.1 hbrings
    obtain ⟨hnext, hcounts⟩ :=
      (Suspended.resume_counts id hfirst).2 _ _ _ hactivity (hleaves ongoing.call hfirst.leaves)
    have hsame := hcounts.handled
    have hroom := hcounts.ahead
    refine ⟨?_, ?_, ?_⟩
    · rw [hwaiting, note, goOn, heq, List.modifyHead_cons]
      exact .cons hnext hbelow
    · simp only [hwaiting, note, ends, Option.toList_none, List.append_nil, List.map_cons, List.sum_cons]
      omega
    · simp only [hwaiting, List.map_cons, List.sum_cons]
      omega
  | @ends innermost outer reply answer hinnermost hactivity hwaiting _ =>
    rw [hinnermost] at hbrings hhandled hahead
    rw [List.map_cons, List.sum_cons] at hhandled hahead
    obtain ⟨ongoing, below, hfirst, hbelow, heq⟩ := List.forall₂_cons_right_iff.1 hbrings
    have hcounts := (Suspended.resume_counts id hfirst).1 _ _ hactivity
    have hsame := hcounts.handled
    have hroom := hcounts.ahead
    refine ⟨?_, ?_, ?_⟩
    · rw [hwaiting, note, goOn, heq, List.tail_cons]
      exact hbelow
    · simp only [hwaiting, note, ends_returned heq, Option.toList_some, List.map_append, List.sum_append,
        List.map_singleton, List.sum_singleton, Finished.handled, Ongoing.heard]
      omega
    · rw [hwaiting]
      omega

end Ledger

namespace Machine

variable {id : SessionId} {machine last : Machine A} {moves : List (Move A)} {events : List (Event A)}

/-- A machine in order knows no session under an id that was not given out. -/
theorem InOrder.unknown (h : machine.InOrder) (hnext : machine.world.ids.next ≤ id.number) :
    machine.world.knows id = false := by
  refine Bool.eq_false_iff.2 fun hknown => ?_
  exact absurd ((h.world.started id).1 hknown).2 (Nat.not_lt.2 hnext)

/-- **Along every run of a host the counts of a session agree with its arrivals.** -/
theorem balances_run {host : HostConfig} {world : World A} (hworld : World.ofConfig host = .ok world)
    (hrun : (⟨world, []⟩ : Machine A).run moves = some (last, events))
    (hdirect : ∀ payload, .call (.dispatch id payload) ∉ moves) :
    (({} : Ledger A).after events).Balances id last := by
  have hnone : ∀ payload signal, .called (.dispatch id payload) signal ∉ events :=
    fun payload signal hmem => hdirect payload (call_mem_moves moves hrun _ signal hmem)
  have hstart : ({} : Ledger A).Balances id ⟨world, []⟩ := by
    obtain rfl := World.eq_of_ofConfig hworld
    exact ⟨.nil, rfl, Nat.le_refl _⟩
  refine (run_invariant (motive := fun past machine => machine.InOrder ∧
    ((∀ payload signal, .called (.dispatch id payload) signal ∉ past) →
      (({} : Ledger A).after past).Balances id machine))
    (fun hboth hmove => ?_) ⟨inOrder_ofConfig hworld, fun _ => hstart⟩ hrun).2 hnone
  obtain ⟨horder, hpast⟩ := hboth
  refine ⟨horder.move hmove, fun hnone => ?_⟩
  rw [Ledger.after_concat]
  refine (hpast fun payload signal hmem => hnone payload signal (List.mem_append_left _ hmem)).turns
    (horder.turns hmove) horder.unknown fun payload signal heq => ?_
  exact hnone payload signal (List.mem_append_right _ (List.mem_singleton.2 heq.symm))

/-- **What is received is conserved.**  Take any run of a machine in which a session has just been started, and all
chunks that the session is given in it.  It has counted as many frames as it has given payloads, and as many bytes as it
has taken in.  While it is not closing its decoder is where the chunks that found it connected bring a new decoder, so
what was offered before does not matter.  While it is connected and has refused nothing, every byte taken in is in a
frame that was given or is buffered, and its decoder has counted as many frames as the session.  A chunk offered in any
other state changes nothing.  On a host on which nothing is dispatched to the session but what arrives, no more messages
are handled than frames received, and whenever no arrival is under way, those handled are what arrivals were
answered. -/
theorem receipts_balance {config : SessionConfig} (hrun : machine.run moves = some (last, events))
    (hstart : machine.world.session id = .start id config) (hissued : id.number < machine.world.ids.next) :
    let readings := machine.readings id moves
    let session := last.world.session id
    session.stats.framesReceived = (readings.flatMap Reading.payloads).length ∧
    session.stats.bytesReceived = (readings.flatMap Reading.taken).length ∧
    (session.state.isClosing = false →
      session.decoder = (Decoder.fresh config.maxMessageSize).afterChunks (offered readings)) ∧
    (session.state = .connected → (∀ reading ∈ readings, ¬ reading.Fails) →
      session.stats.bytesReceived =
          ((readings.flatMap Reading.payloads).map fun payload => headerSize + payload.length).sum +
            session.decoder.buffered ∧
        session.decoder.decoded = session.stats.framesReceived) ∧
    (∀ reading ∈ readings, reading.session.state ≠ .connected →
      reading.after = reading.session ∧ reading.result = .ok []) ∧
    ∀ {host : HostConfig} {world : World A} {before : List (Move A)} {earlier : List (Event A)},
      World.ofConfig host = .ok world → (⟨world, []⟩ : Machine A).run before = some (machine, earlier) →
      (∀ payload, .call (.dispatch id payload) ∉ before ++ moves) →
      let ledger := ({} : Ledger A).after (earlier ++ events)
      session.stats.messagesHandled ≤ session.stats.framesReceived ∧
      ((∀ ongoing ∈ ledger.ongoing, ∀ chunk, ongoing.call ≠ .hostReceive id chunk) →
        session.stats.messagesHandled = (ledger.finished.map (Finished.handled id)).sum) := by
  intro readings session
  have hbegin : (machine.world.session id).Receives config.maxMessageSize [] := by
    rw [hstart]
    exact Session.receives_start id config
  have hreceives : session.Receives config.maxMessageSize readings :=
    readings_invariant (fun h hunfed => h.unfed hunfed) (fun _ h => h.read) moves [] hrun hissued hbegin
  refine ⟨hreceives.frames, hreceives.bytes, hreceives.decoder, hreceives.balance,
    fun reading _ hother => Reading.of_unconnected hother, ?_⟩
  intro host world before earlier hworld hbefore hdirect ledger
  obtain ⟨hbrings, hhandled, hahead⟩ := balances_run hworld (run_trans hbefore hrun) hdirect
  refine ⟨Nat.le_trans (Nat.le_add_right _ _) hahead, fun hnone => ?_⟩
  rw [hhandled, Ledger.sum_handled_eq_zero hbrings hnone]
  rfl

/-- Bytes that arrive for a session of a host: a frame, and the front of another one.  The handler of the first lets the
rest of the second arrive before it returns. -/
def arrivals : List (Move .guarded) :=
  [.call (.hostReport ⟨1⟩ .connected), .call (.hostReceive ⟨1⟩ [1, 0, 0, 0, 7, 2, 0]),
    .call (.hostReceive ⟨1⟩ [0, 0, 8, 9, 3]), .reply .done, .reply .done]

theorem receipts_balance_arrivals : ∃ (opened last : Machine .guarded) (earlier events : List (Event .guarded)),
    (⟨{}, []⟩ : Machine .guarded).run [.call .hostOpen] = some (opened, earlier) ∧
    opened.run arrivals = some (last, events) ∧
    (last.world.session ⟨1⟩).stats.bytesReceived = 11 + (last.world.session ⟨1⟩).decoder.buffered ∧
    (last.world.session ⟨1⟩).decoder.decoded = 2 ∧ (last.world.session ⟨1⟩).stats.messagesHandled = 2 := by
  obtain ⟨opened, last, earlier, events, hbefore, hrun, hstart, hissued, hconnected, hgiven, hnone, hongoing, hsum⟩ :
      ∃ (opened last : Machine .guarded) (earlier events : List (Event .guarded)),
        (⟨{}, []⟩ : Machine .guarded).run [.call .hostOpen] = some (opened, earlier) ∧
        opened.run arrivals = some (last, events) ∧ opened.world.session ⟨1⟩ = .start ⟨1⟩ {} ∧
        (⟨1⟩ : SessionId).number < opened.world.ids.next ∧ (last.world.session ⟨1⟩).state = .connected ∧
        (opened.readings ⟨1⟩ arrivals).flatMap Reading.payloads = [[7], [8, 9]] ∧
        (opened.readings ⟨1⟩ arrivals).map Reading.result = [.ok [[7]], .ok [[8, 9]]] ∧
        (({} : Ledger .guarded).after (earlier ++ events)).ongoing = [] ∧
        ((({} : Ledger .guarded).after (earlier ++ events)).finished.map (Finished.handled ⟨1⟩)).sum = 2 :=
    ⟨_, _, _, _, rfl, rfl, rfl, by decide, rfl, rfl, rfl, rfl, rfl⟩
  have haccepted : ∀ reading ∈ opened.readings ⟨1⟩ arrivals, ¬ reading.Fails := by
    rintro reading hmem ⟨e, herror⟩
    have hresult := List.mem_map_of_mem (f := Reading.result) hmem
    rw [hnone, herror] at hresult
    simp at hresult
  have hdirect : ∀ payload, Move.call (.dispatch ⟨1⟩ payload) ∉ [Move.call .hostOpen] ++ arrivals := by
    intro payload hmem
    simp [arrivals] at hmem
  obtain ⟨hframes, -, -, hbalance, -, hhost⟩ := receipts_balance hrun hstart hissued
  obtain ⟨hbytes, hdecoded⟩ := hbalance hconnected haccepted
  have hworld : World.ofConfig {} = .ok ({} : World .guarded) := rfl
  obtain ⟨-, hhandled⟩ := hhost hworld hbefore hdirect
  rw [hgiven] at hbytes hframes
  refine ⟨opened, last, earlier, events, hbefore, hrun, hbytes, ?_, ?_⟩
  · rw [hdecoded, hframes]
    rfl
  · rw [hongoing] at hhandled
    rw [hhandled fun _ hmem => absurd hmem List.not_mem_nil, hsum]

end Machine

end FramedLink
