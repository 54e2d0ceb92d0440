import FramedLink.Proofs.Lives.Pass
import FramedLink.Proofs.Runs.Gate
/-!
# One ending, one reason

Whoever moves a session to Disconnecting closes its transport, so this happens once.  The round in which observers are
told that the session ended belongs to the one transition that reaches Disconnected.  And the first reason that is
recorded stays: that of the first disconnect that found the session open, or that the transport went away.

Each of these is kept by every step of a life, and so by every move and every run.

Main statement: the law of endings, along any run of a session (`Machine.one_ending`).
-/
namespace FramedLink

variable {A : Application} {id : SessionId}

/-! ## What was asked -/

/-- How a query closes the transport of a session: for which reason, and whether the peer is to be told. -/
def Query.closing? (id : SessionId) : Query A → Option (DisconnectReason × Bool)
  | close other reason notifies => if other = id then some (reason, notifies) else none
  | _ => none

/-- The observer that a query tells why a session ended, and the reason. -/
def Query.farewell? (id : SessionId) : Query A → Option (A.Observer × DisconnectReason)
  | disconnected observer other reason => if other = id then some (observer, reason) else none
  | _ => none

def closings (id : SessionId) (asked : List (Query A)) : List (DisconnectReason × Bool) :=
  asked.filterMap (Query.closing? id)

def farewells (id : SessionId) (asked : List (Query A)) : List (A.Observer × DisconnectReason) :=
  asked.filterMap (Query.farewell? id)

def Signal.query? : Signal A → Option (Query A)
  | asks query => some query
  | answers _ => none

/-- All that outside code was asked, in order. -/
def questions (events : List (Event A)) : List (Query A) := events.filterMap (·.signal.query?)

theorem questions_cons (event : Event A) (events : List (Event A)) :
    questions (event :: events) = event.signal.query?.toList ++ questions events := by
  rw [questions, List.filterMap_cons]
  cases event.signal.query? <;> rfl

theorem questions_append (first second : List (Event A)) :
    questions (first ++ second) = questions first ++ questions second := List.filterMap_append

theorem closings_append (first second : List (Query A)) :
    closings id (first ++ second) = closings id first ++ closings id second := List.filterMap_append

theorem farewells_append (first second : List (Query A)) :
    farewells id (first ++ second) = farewells id first ++ farewells id second := List.filterMap_append

theorem closings_of_quiet {query : Query A} (h : query.isNews id = false) : closings id [query] = [] := by
  cases query with
  | close other reason notifies => simp [closings, Query.closing?, of_decide_eq_false h]
  | _ => rfl

theorem farewells_of_quiet {query : Query A} (h : query.isNews id = false) : farewells id [query] = [] := by
  cases query with
  | disconnected observer other reason => simp [farewells, Query.farewell?, of_decide_eq_false h]
  | _ => rfl

/-! ## Chapters -/

namespace Chapter

/-- What a disconnect has under way. -/
def isDisconnect : Chapter A → Bool
  | ending => true
  | round _ closes => closes

/-- The transport is closed at the end. -/
def closes : Chapter A → Bool
  | ending => false
  | round _ closes => closes

/-- A round of the transition to Disconnected. -/
def isLast : Chapter A → Bool
  | ending => false
  | round (.telling _ _ target _) _ => target = .disconnected
  | round (.parting _ _ _) _ => true

/-- No edge leads out of Disconnected, so a chapter that fits goes on to fit. -/
theorem Fits.edge {chapter : Chapter A} {source target : ConnectionState} (h : chapter.Fits id source)
    (hedge : source.canTransitionTo target = true) : chapter.Fits id target := by
  have hnever : source ≠ .disconnected := by
    rintro rfl
    cases hedge
  match chapter with
  | ending => exact True.intro
  | round (.telling _ _ last _) _ => exact ⟨h.1, fun hlast => absurd (h.2 hlast) hnever⟩
  | round (.parting _ _ _) _ => exact ⟨h.1, True.intro⟩

end Chapter

namespace Life

variable {life next : Life A}

/-- One step of a life, silent or not. -/
inductive Step (id : SessionId) (life next : Life A) : Prop where
  | silent (h : Silent id life next)
  | asks {query : Query A} (h : Asks id life query next)

/-- All that is under way belongs to the session and fits its state. -/
def Fits (id : SessionId) (life : Life A) : Prop := ∀ chapter ∈ life.chapters, chapter.Fits id life.state

theorem Step.fits (h : Step id life next) (hfits : life.Fits id) : next.Fits id := by
  have hbelow {top : Chapter A} {below : List (Chapter A)} (hchapters : life.chapters = top :: below) :
      top.Fits id life.state ∧ ∀ chapter ∈ below, chapter.Fits id life.state := by
    rw [Fits, hchapters] at hfits
    exact List.forall_mem_cons.1 hfits
  cases h with
  | silent h =>
    cases h with
    | join observer => exact hfits
    | ended reason hopen => exact List.forall_mem_cons.2 ⟨True.intro, hfits⟩
    | moved hedge =>
      refine List.forall_mem_cons.2 ⟨⟨rfl, fun htarget => htarget⟩, fun chapter hmem => ?_⟩
      exact (hfits chapter hmem).edge hedge
    | left hchapters hedge =>
      refine List.forall_mem_cons.2 ⟨⟨rfl, fun htarget => htarget⟩, fun chapter hmem => ?_⟩
      exact ((hbelow hchapters).2 chapter hmem).edge hedge
    | stayed hchapters => exact (hbelow hchapters).2
    | farewell hchapters _ => exact List.forall_mem_cons.2 ⟨⟨rfl, True.intro⟩, (hbelow hchapters).2⟩
    | ends hchapters _ => exact (hbelow hchapters).2
  | asks h =>
    cases h with
    | told hchapters => exact List.forall_mem_cons.2 ⟨(hbelow hchapters).1, (hbelow hchapters).2⟩
    | parted hchapters => exact List.forall_mem_cons.2 ⟨(hbelow hchapters).1, (hbelow hchapters).2⟩
    | closed _ hchapters _ => exact (hbelow hchapters).2
    | other _ => exact hfits

/-! ## The reason -/

/-- The recorded reason is that of the first disconnect that found the session open, or that the transport went away if
the session has reached its end without one. -/
def Recorded (life : Life A) : Prop :=
  life.reason = life.endings.head? ∨
    life.endings = [] ∧ life.reason = some .transportClosed ∧ life.state = .disconnected

theorem Step.recorded (h : Step id life next) (hrecorded : life.Recorded) : next.Recorded := by
  cases h with
  | silent h =>
    cases h with
    | ended reason hopen =>
      refine .inl ?_
      rcases hrecorded with hreason | ⟨-, -, hstate⟩
      · show life.reason.or (some reason) = (life.endings ++ [reason]).head?
        rw [hreason, List.head?_append]
        rfl
      · rw [hstate] at hopen
        cases hopen
    | moved hedge =>
      refine hrecorded.imp (fun hreason => hreason) fun hended => ?_
      rw [hended.2.2] at hedge
      cases hedge
    | left _ hedge =>
      refine hrecorded.imp (fun hreason => hreason) fun hended => ?_
      rw [hended.2.2] at hedge
      cases hedge
    | farewell _ hstate =>
      rcases hrecorded with hreason | ⟨hnone, hreason, -⟩
      · cases hendings : life.endings with
        | nil =>
          rw [hendings] at hreason
          exact .inr ⟨rfl, congrArg (·.or (some .transportClosed)) hreason, hstate⟩
        | cons first rest =>
          rw [hendings] at hreason
          refine .inl ?_
          show life.reason.or _ = some first
          rw [hreason]
          rfl
      · exact .inr ⟨hnone, congrArg (·.or (some .transportClosed)) hreason, hstate⟩
    | _ => exact hrecorded
  | asks h => cases h <;> exact hrecorded

/-! ## Closing -/

/-- The transport has been closed or will be, but not twice, and for the recorded reason. -/
structure ClosesOnce (id : SessionId) (life : Life A) : Prop where
  count : (closings id life.asked).length + (life.chapters.filter Chapter.closes).length ≤ life.state.isClosing.toNat
  noted : ∀ chapter ∈ life.chapters, chapter.isDisconnect = true → life.reason ≠ none
  told : ∀ closing ∈ closings id life.asked, life.reason = some closing.1 ∧ closing.2 = closing.1.notifiesPeer

theorem ClosesOnce.below (h : life.ClosesOnce id) {top : Chapter A} {below : List (Chapter A)}
    (hchapters : life.chapters = top :: below) (htop : top.closes = false) :
    { life with chapters := below }.ClosesOnce id := by
  refine ⟨?_, fun chapter hmem => h.noted chapter ?_, h.told⟩
  · have hcount := h.count
    rwa [hchapters, List.filter_cons_of_neg (by simp [htop])] at hcount
  · rw [hchapters]
    exact List.mem_cons_of_mem _ hmem

/-- A chapter that does not close the transport may come on top. -/
theorem ClosesOnce.above (h : life.ClosesOnce id) {top : Chapter A} (htop : top.isDisconnect = false) :
    { life with chapters := top :: life.chapters }.ClosesOnce id := by
  have hcloses : top.closes = false := by
    cases top with
    | ending => cases htop
    | round rest closes => exact htop
  refine ⟨?_, fun chapter hmem hdisconnect => ?_, h.told⟩
  · rw [List.filter_cons_of_neg (by simp [hcloses])]
    exact h.count
  · rcases List.mem_cons.1 hmem with rfl | hmem
    · rw [htop] at hdisconnect
      cases hdisconnect
    · exact h.noted chapter hmem hdisconnect

theorem ClosesOnce.edge (h : life.ClosesOnce id) {target : ConnectionState}
    (hedge : life.state.canTransitionTo target = true) : { life with state := target }.ClosesOnce id := by
  refine ⟨Nat.le_trans h.count ?_, h.noted, h.told⟩
  cases hclosing : life.state.isClosing with
  | false => exact Nat.zero_le _
  | true =>
    show Bool.toNat true ≤ target.isClosing.toNat
    rw [ConnectionState.isClosing_of_edge hclosing hedge]

/-- What is on top may change, as long as the transport is closed after it as before. -/
theorem ClosesOnce.same (h : life.ClosesOnce id) {top top' : Chapter A} {below : List (Chapter A)}
    (hchapters : life.chapters = top :: below) (hcloses : top'.closes = top.closes)
    (hdisconnect : top'.isDisconnect = top.isDisconnect) : { life with chapters := top' :: below }.ClosesOnce id := by
  have hcount := h.count
  have hnoted := h.noted
  rw [hchapters] at hcount hnoted
  refine ⟨?_, fun chapter hmem hchapter => ?_, h.told⟩
  · rw [List.filter_cons] at hcount
    rw [List.filter_cons, hcloses]
    split
    · rename_i hcloses
      rwa [if_pos hcloses, List.length_cons] at hcount
    · rename_i hcloses
      rwa [if_neg hcloses] at hcount
  · rcases List.mem_cons.1 hmem with rfl | hmem
    · exact hnoted top List.mem_cons_self (hdisconnect ▸ hchapter)
    · exact hnoted chapter (List.mem_cons_of_mem _ hmem) hchapter

theorem ClosesOnce.note (h : life.ClosesOnce id) (reason : DisconnectReason) :
    { life with reason := life.reason.or (some reason) }.ClosesOnce id := by
  refine ⟨h.count, fun _ _ _ hnone => by simp at hnone, fun closing hmem => ?_⟩
  obtain ⟨hreason, hnotifies⟩ := h.told closing hmem
  exact ⟨congrArg (·.or (some reason)) hreason, hnotifies⟩

theorem ClosesOnce.ask (h : life.ClosesOnce id) (query : Query A) (hquery : closings id [query] = []) :
    { life with asked := life.asked ++ [query] }.ClosesOnce id := by
  have hsame : closings id (life.asked ++ [query]) = closings id life.asked := by
    rw [closings_append, hquery, List.append_nil]
  exact ⟨by rw [hsame]; exact h.count, h.noted, by rw [hsame]; exact h.told⟩

theorem Step.closesOnce (h : Step id life next) (honce : life.ClosesOnce id) : next.ClosesOnce id := by
  cases h with
  | silent h =>
    cases h with
    | join observer => exact ⟨honce.count, honce.noted, honce.told⟩
    | ended reason hopen =>
      obtain ⟨hcount, -, htold⟩ := honce.note reason
      exact ⟨hcount, fun _ _ _ hnone => by simp at hnone, htold⟩
    | moved hedge => exact (honce.edge hedge).above rfl
    | @left below hchapters hedge =>
      have hnone : life.state.isClosing = false := by
        cases hstate : life.state <;> rw [hstate] at hedge <;> first | rfl | cases hedge
      have hcount := honce.count
      have hnoted := honce.noted
      rw [hnone, hchapters] at hcount
      rw [hchapters] at hnoted
      refine ⟨?_, fun chapter hmem _ => ?_, honce.told⟩
      · simp only [List.filter_cons, Chapter.closes, Bool.false_eq_true, if_false, Bool.toNat_false] at hcount
        simp only [List.filter_cons, Chapter.closes, if_true, List.length_cons]
        show _ ≤ 1
        omega
      · exact hnoted .ending List.mem_cons_self rfl
    | stayed hchapters => exact honce.below hchapters rfl
    | farewell hchapters _ => exact (honce.note .transportClosed).same hchapters rfl rfl
    | ends hchapters _ => exact honce.below hchapters rfl
  | asks h =>
    cases h with
    | told hchapters => exact (honce.ask (.stateChanged _ _ _ _) rfl).same hchapters rfl rfl
    | parted hchapters => exact (honce.ask (.disconnected _ _ _) rfl).same hchapters rfl rfl
    | @closed rest below fallback hchapters _ =>
      obtain ⟨reason, hreason⟩ : ∃ reason, life.reason = some reason := by
        refine Option.ne_none_iff_exists'.1 (honce.noted (.round rest true) ?_ rfl)
        rw [hchapters]
        exact List.mem_cons_self
      have hclosings : closings id (life.asked ++ [.close id (life.reason.getD fallback)
          (life.reason.getD fallback).notifiesPeer]) = closings id life.asked ++ [(reason, reason.notifiesPeer)] := by
        rw [closings_append, hreason]
        simp [closings, Query.closing?]
      have hcount := honce.count
      have hnoted := honce.noted
      rw [hchapters] at hcount hnoted
      refine ⟨?_, fun chapter hmem => hnoted chapter (List.mem_cons_of_mem _ hmem), ?_⟩
      · rw [hclosings]
        simp only [List.filter_cons, Chapter.closes, if_true, List.length_cons, List.length_append,
          List.length_nil] at hcount ⊢
        omega
      · rw [hclosings, List.forall_mem_append]
        exact ⟨honce.told, fun closing hmem => by rw [List.mem_singleton.1 hmem]; exact ⟨hreason, rfl⟩⟩
    | other hquiet => exact honce.ask _ (closings_of_quiet hquiet)

/-! ## The last round -/

/-- How far the round has come in which observers are told that the session ended: those in `early` are among them. -/
inductive Farewell (id : SessionId) (early : List A.Observer) (life : Life A) : Prop where
  | before (hstate : life.state ≠ .disconnected) (hearly : early <+: life.observers)
      (hchapters : life.chapters.filter Chapter.isLast = []) (hasked : farewells id life.asked = [])
  | telling (source : ConnectionState) (rest : List A.Observer) (closes : Bool) (hstate : life.state = .disconnected)
      (hearly : early <+: life.observers)
      (hchapters : life.chapters.filter Chapter.isLast = [.round (.telling id source .disconnected rest) closes])
      (hasked : farewells id life.asked = [])
  | parting (reason : DisconnectReason) (told rest : List A.Observer) (closes : Bool)
      (hstate : life.state = .disconnected) (hreason : life.reason = some reason) (hearly : early <+: told ++ rest)
      (hobservers : told ++ rest <+: life.observers)
      (hchapters : life.chapters.filter Chapter.isLast = [.round (.parting id reason rest) closes])
      (hasked : farewells id life.asked = told.map (·, reason))
  | after (reason : DisconnectReason) (told : List A.Observer) (hstate : life.state = .disconnected)
      (hreason : life.reason = some reason) (hearly : early <+: told) (hobservers : told <+: life.observers)
      (hchapters : life.chapters.filter Chapter.isLast = [])
      (hasked : farewells id life.asked = told.map (·, reason))

variable {early : List A.Observer}

/-- A step that has no part in the last round. -/
theorem Farewell.keep (h : life.Farewell id early)
    (hstate : next.state = life.state ∨ life.state ≠ .disconnected ∧ next.state ≠ .disconnected)
    (hreason : ∀ reason, life.reason = some reason → next.reason = some reason)
    (hobservers : life.observers <+: next.observers)
    (hchapters : next.chapters.filter Chapter.isLast = life.chapters.filter Chapter.isLast)
    (hasked : farewells id next.asked = farewells id life.asked) : next.Farewell id early := by
  have hended (hended : life.state = .disconnected) : next.state = .disconnected := by
    rcases hstate with hsame | ⟨hopen, -⟩
    · exact hsame.trans hended
    · exact absurd hended hopen
  cases h with
  | before hopen hearly hnone htold =>
    refine .before ?_ (hearly.trans hobservers) (hchapters.trans hnone) (hasked.trans htold)
    rcases hstate with hsame | ⟨-, hnext⟩
    · rwa [hsame]
    · exact hnext
  | telling source rest closes hstate hearly hlast htold =>
    exact .telling source rest closes (hended hstate) (hearly.trans hobservers) (hchapters.trans hlast)
      (hasked.trans htold)
  | parting reason told rest closes hstate hnoted hearly hbefore hlast htold =>
    exact .parting reason told rest closes (hended hstate) (hreason _ hnoted) hearly (hbefore.trans hobservers)
      (hchapters.trans hlast) (hasked.trans htold)
  | after reason told hstate hnoted hearly hbefore hlast htold =>
    exact .after reason told (hended hstate) (hreason _ hnoted) hearly (hbefore.trans hobservers)
      (hchapters.trans hlast) (hasked.trans htold)

theorem map_fst_pairs {α β : Type} (b : β) (as : List α) : (as.map (·, b)).map Prod.fst = as := by
  rw [List.map_map]
  exact List.map_id' as

theorem Farewell.told (h : life.Farewell id early) : (farewells id life.asked).map Prod.fst <+: life.observers ∧
    ∀ farewell ∈ farewells id life.asked, life.reason = some farewell.2 ∧ life.state = .disconnected := by
  have hpairs {told : List A.Observer} {reason : DisconnectReason} (hreason : life.reason = some reason)
      (hstate : life.state = .disconnected) : ∀ farewell ∈ told.map (·, reason),
      life.reason = some farewell.2 ∧ life.state = .disconnected := by
    intro farewell hmem
    obtain ⟨observer, -, rfl⟩ := List.mem_map.1 hmem
    exact ⟨hreason, hstate⟩
  cases h with
  | before _ _ _ htold | telling _ _ _ _ _ _ htold =>
    rw [htold]
    exact ⟨List.nil_prefix, fun _ hmem => absurd hmem List.not_mem_nil⟩
  | parting reason told rest _ hstate hreason _ hobservers _ htold =>
    rw [htold, map_fst_pairs]
    exact ⟨(List.prefix_append told rest).trans hobservers, hpairs hreason hstate⟩
  | after reason told hstate hreason _ hobservers _ htold =>
    rw [htold, map_fst_pairs]
    exact ⟨hobservers, hpairs hreason hstate⟩

theorem Farewell.nobody (h : life.Farewell id early) (hstate : life.state ≠ .disconnected) :
    life.chapters.filter Chapter.isLast = [] ∧ farewells id life.asked = [] := by
  cases h with
  | before _ _ hnone htold => exact ⟨hnone, htold⟩
  | telling _ _ _ hended | parting _ _ _ _ hended | after _ _ hended => exact absurd hended hstate

theorem Farewell.everybody (h : life.Farewell id early) (hstate : life.state = .disconnected)
    (hidle : life.chapters = []) : early <+: (farewells id life.asked).map Prod.fst := by
  cases h with
  | before hopen => exact absurd hstate hopen
  | telling _ _ _ _ _ hround _ | parting _ _ _ _ _ _ _ _ hround _ =>
    rw [hidle] at hround
    cases hround
  | after reason told _ _ hearly _ _ htold =>
    rw [htold, map_fst_pairs]
    exact hearly

theorem filter_isLast {top : Chapter A} {below : List (Chapter A)} (hchapters : life.chapters = top :: below) :
    life.chapters.filter Chapter.isLast =
      if top.isLast = true then top :: below.filter Chapter.isLast else below.filter Chapter.isLast := by
  rw [hchapters, List.filter_cons]

/-- A chapter that is not of the last round may come off the top. -/
theorem filter_below {top : Chapter A} {below : List (Chapter A)} (hchapters : life.chapters = top :: below)
    (htop : top.isLast = false) : below.filter Chapter.isLast = life.chapters.filter Chapter.isLast := by
  rw [filter_isLast hchapters, htop]
  rfl

theorem farewells_ask (life : Life A) {query : Query A} (h : farewells id [query] = []) :
    farewells id (life.asked ++ [query]) = farewells id life.asked := by
  rw [farewells_append, h, List.append_nil]

/-- **The last round has told everybody** and is over. -/
theorem Farewell.finish (h : life.Farewell id early) {reason : DisconnectReason} {closes : Bool} {other : SessionId}
    {below : List (Chapter A)} (hchapters : life.chapters = .round (.parting other reason []) closes :: below) :
    { life with chapters := below }.Farewell id early := by
  have hlast := filter_isLast hchapters
  simp only [Chapter.isLast, if_true] at hlast
  cases h with
  | before _ _ hnone _ =>
    rw [hlast] at hnone
    cases hnone
  | telling _ _ _ _ _ hround _ =>
    rw [hlast] at hround
    cases hround
  | parting reason told rest closes hstate hreason hearly hobservers hround htold =>
    rw [hlast] at hround
    injection hround with hround hbelow
    cases hround
    rw [List.append_nil] at hearly hobservers
    exact .after reason told hstate hreason hearly hobservers hbelow htold
  | after _ _ _ _ _ _ hnone _ =>
    rw [hlast] at hnone
    cases hnone

/-- A transition that begins is the first to Disconnected, if it leads there at all. -/
theorem Farewell.begin (h : life.Farewell id early) {target : ConnectionState} {closes : Bool}
    {below : List (Chapter A)} (hedge : life.state.canTransitionTo target = true)
    (hbelow : below.filter Chapter.isLast = life.chapters.filter Chapter.isLast) :
    { life with
      state := target
      chapters := .round (.telling id life.state target life.observers) closes :: below }.Farewell id early := by
  have hopen : life.state ≠ .disconnected := by
    intro hstate
    rw [hstate] at hedge
    cases hedge
  cases h with
  | before _ hearly hnone htold =>
    by_cases htarget : target = .disconnected
    · subst htarget
      refine .telling life.state life.observers closes rfl hearly ?_ htold
      rw [List.filter_cons_of_pos rfl, hbelow, hnone]
    · refine .before htarget hearly ?_ htold
      rw [List.filter_cons_of_neg (by simp [Chapter.isLast, htarget]), hbelow, hnone]
  | telling _ _ _ hstate | parting _ _ _ _ hstate | after _ _ hstate => exact absurd hstate hopen

theorem Step.farewell (h : Step id life next) (hfarewell : life.Farewell id early) : next.Farewell id early := by
  cases h with
  | silent h =>
    cases h with
    | join observer => exact hfarewell.keep (.inl rfl) (fun _ h => h) (List.prefix_append _ _) rfl rfl
    | ended reason hopen =>
      exact hfarewell.keep (.inl rfl) (fun _ h => congrArg (·.or (some reason)) h) (List.prefix_refl _) rfl rfl
    | moved hedge => exact hfarewell.begin hedge rfl
    | left hchapters hedge => exact hfarewell.begin hedge (filter_below hchapters rfl)
    | stayed hchapters =>
      exact hfarewell.keep (.inl rfl) (fun _ h => h) (List.prefix_refl _) (filter_below hchapters rfl) rfl
    | @farewell source closes below hchapters hstate =>
      have hlast := filter_isLast hchapters
      simp only [Chapter.isLast, decide_true, if_true] at hlast
      cases hfarewell with
      | before hopen => exact absurd hstate hopen
      | telling _ _ _ _ hearly hround htold =>
        rw [hlast] at hround
        injection hround with _ hbelow
        refine .parting (life.reason.getD .transportClosed) [] life.observers closes hstate ?_ hearly
          (List.prefix_refl _) ?_ htold
        · cases life.reason <;> rfl
        · rw [List.filter_cons_of_pos rfl, hbelow]
      | parting _ _ _ _ _ _ _ _ hround _ =>
        rw [hlast] at hround
        cases hround
      | after _ _ _ _ _ _ hnone _ =>
        rw [hlast] at hnone
        cases hnone
    | ends hchapters hover =>
      cases hover with
      | @told _ source target htarget =>
        refine hfarewell.keep (.inl rfl) (fun _ h => h) (List.prefix_refl _) (filter_below hchapters ?_) rfl
        exact decide_eq_false htarget
      | parted => exact hfarewell.finish hchapters
  | asks h =>
    cases h with
    | @told source target observer rest closes below hchapters =>
      have hquiet : farewells id (life.asked ++ [.stateChanged observer id source target]) =
          farewells id life.asked := farewells_ask life rfl
      by_cases htarget : target = .disconnected
      · subst htarget
        have hlast := filter_isLast hchapters
        simp only [Chapter.isLast, decide_true, if_true] at hlast
        cases hfarewell with
        | before _ _ hnone _ | after _ _ _ _ _ _ hnone _ =>
          rw [hlast] at hnone
          cases hnone
        | telling _ _ _ hstate hearly hround htold =>
          rw [hlast] at hround
          injection hround with hround hbelow
          refine .telling source rest closes hstate hearly ?_ (hquiet.trans htold)
          rw [List.filter_cons_of_pos rfl, hbelow]
        | parting _ _ _ _ _ _ _ _ hround _ =>
          rw [hlast] at hround
          cases hround
      · have hnot (observers : List A.Observer) :
            (Chapter.round (.telling id source target observers) closes : Chapter A).isLast = false :=
          decide_eq_false htarget
        refine hfarewell.keep (.inl rfl) (fun _ h => h) (List.prefix_refl _) ?_ hquiet
        rw [filter_isLast hchapters, List.filter_cons, hnot, hnot]
        rfl
    | @parted reason observer rest closes below hchapters =>
      have hlast := filter_isLast hchapters
      simp only [Chapter.isLast, if_true] at hlast
      cases hfarewell with
      | before _ _ hnone _ | after _ _ _ _ _ _ hnone _ =>
        rw [hlast] at hnone
        cases hnone
      | telling _ _ _ _ _ hround _ =>
        rw [hlast] at hround
        cases hround
      | parting _ told _ _ hstate hreason hearly hobservers hround htold =>
        rw [hlast] at hround
        injection hround with hround hbelow
        cases hround
        rw [List.append_cons] at hearly hobservers
        refine .parting reason (told ++ [observer]) rest closes hstate hreason hearly hobservers ?_ ?_
        · rw [List.filter_cons_of_pos rfl, hbelow]
        · show farewells id (life.asked ++ [.disconnected observer id reason]) = _
          rw [farewells_append, htold, List.map_append]
          simp [farewells, Query.farewell?]
    | closed fallback hchapters hover =>
      have hquiet : farewells id (life.asked ++ [.close id (life.reason.getD fallback)
          (life.reason.getD fallback).notifiesPeer]) = farewells id life.asked := farewells_ask life rfl
      cases hover with
      | told htarget =>
        exact hfarewell.keep (.inl rfl) (fun _ h => h) (List.prefix_refl _)
          (filter_below hchapters (decide_eq_false htarget)) hquiet
      | parted =>
        exact (hfarewell.finish hchapters).keep (.inl rfl) (fun _ h => h) (List.prefix_refl _) rfl hquiet
    | other hquiet =>
      exact hfarewell.keep (.inl rfl) (fun _ h => h) (List.prefix_refl _) rfl
        (farewells_ask life (farewells_of_quiet hquiet))

end Life

/-! ## Runs -/

namespace Machine

variable {machine middle next last : Machine A} {moves : List (Move A)} {events : List (Event A)}

/-- What every step of a life keeps, moves keep. -/
theorem move_keeps {motive : Life A → Prop}
    (hstep : ∀ {life next : Life A}, motive life → life.Step id next → motive next)
    {signal : Signal A} {ended : Option DisconnectReason} (hgoes : machine.Goes next id signal ended)
    {endings : List DisconnectReason} {asked : List (Query A)} (h : motive (machine.life id endings asked)) :
    motive (next.life id (endings ++ ended.toList) (asked ++ signal.query?.toList)) := by
  have hsilently {life last : Life A} (h : motive life) (hsilent : life.Silently id last) : motive last := by
    induction hsilent with
    | refl => exact h
    | tail _ hsilent hmiddle => exact hstep hmiddle (.silent hsilent)
  obtain ⟨middle, hsilent, hsignal⟩ := hgoes endings asked
  cases signal with
  | asks query => exact hstep (hsilently h hsilent) (.asks hsignal)
  | answers answer =>
    obtain ⟨rfl, rfl⟩ := hsignal
    simpa only [Signal.query?, Option.toList_none, List.append_nil] using hsilently h hsilent

/-- **What every step of a life keeps, runs keep**, for a session that was started before. -/
theorem run_keeps {motive : Life A → Prop}
    (hstep : ∀ {life next : Life A}, motive life → life.Step id next → motive next) :
    ∀ (moves : List (Move A)) {machine last : Machine A} {events : List (Event A)} {endings : List DisconnectReason}
      {asked : List (Query A)}, id.number < machine.world.ids.next → (machine.life id endings asked).Fits id →
      motive (machine.life id endings asked) → machine.run moves = some (last, events) →
      ∃ endings, (last.life id endings (asked ++ questions events)).Fits id ∧
        motive (last.life id endings (asked ++ questions events))
  | [], machine, last, events, endings, asked, _, hfits, h, hrun => by
    cases hrun
    refine ⟨endings, ?_⟩
    rw [questions, List.filterMap_nil, List.append_nil]
    exact ⟨hfits, h⟩
  | move :: moves, machine, last, events, endings, asked, hissued, hfits, h, hrun => by
    obtain ⟨next, event, later, hmove, hlater, rfl⟩ := exists_of_run_cons hrun
    have hissued' := ((move_edits hmove).rank_le hissued).2
    obtain ⟨ended, hgoes, -⟩ := move_lives hissued hfits hmove
    have hfits' := move_keeps (fun hfits hstep => hstep.fits hfits) hgoes hfits
    obtain ⟨endings', hlast⟩ := run_keeps hstep moves hissued' hfits' (move_keeps hstep hgoes h) hlater
    refine ⟨endings', ?_⟩
    rwa [questions_cons, ← List.append_assoc]

/-- A run is the run of its first moves and then that of the others. -/
theorem run_append (second : List (Move A)) : ∀ (first : List (Move A)) (machine : Machine A),
    machine.run (first ++ second) = (machine.run first).bind fun (middle, earlier) =>
      (middle.run second).map fun (last, later) => (last, earlier ++ later)
  | [], machine => by
    rw [List.nil_append, Machine.run, Option.bind_some]
    exact Option.map_id'.symm
  | move :: first, machine => by
    rw [List.cons_append, Machine.run, Machine.run]
    cases machine.move move with
    | none => rfl
    | some result =>
      obtain ⟨next, event⟩ := result
      simp only [Option.bind_some, run_append second first next]
      cases next.run first with
      | none => rfl
      | some reached => exact Option.map_map ..

theorem run_trans {first second : List (Move A)} {earlier later : List (Event A)}
    (hfirst : machine.run first = some (middle, earlier)) (hsecond : middle.run second = some (last, later)) :
    machine.run (first ++ second) = some (last, earlier ++ later) := by
  simp only [run_append, hfirst, Option.bind_some, hsecond, Option.map_some]

theorem exists_later {first second : List (Move A)} {earlier : List (Event A)}
    (hfirst : machine.run first = some (middle, earlier)) (hrun : machine.run (first ++ second) = some (last, events)) :
    ∃ later, middle.run second = some (last, later) ∧ events = earlier ++ later := by
  simp only [run_append, hfirst, Option.bind_some] at hrun
  obtain ⟨⟨_, later⟩, hsecond, heq⟩ := Option.map_eq_some_iff.1 hrun
  cases heq
  exact ⟨later, hsecond, rfl⟩

/-- A run at an event: what led there, the move, and what followed. -/
theorem exists_at : ∀ (earlier : List (Event A)) {moves : List (Move A)} {machine last : Machine A} {event : Event A}
    {later : List (Event A)}, machine.run moves = some (last, earlier ++ event :: later) →
    ∃ before move after middle next, moves = before ++ move :: after ∧ machine.run before = some (middle, earlier) ∧
      middle.move move = some (next, event) ∧ next.run after = some (last, later)
  | earlier, [], _, _, _, _, hrun => by
    rw [run, Option.some.injEq, Prod.mk.injEq] at hrun
    exact absurd hrun.2.symm (List.append_ne_nil_of_right_ne_nil earlier (List.cons_ne_nil _ _))
  | [], move :: moves, machine, last, event, later, hrun => by
    obtain ⟨next, first, rest, hmove, hlater, heq⟩ := exists_of_run_cons hrun
    cases heq
    exact ⟨[], move, moves, machine, next, rfl, rfl, hmove, hlater⟩
  | first :: earlier, move :: moves, machine, last, event, later, hrun => by
    obtain ⟨reached, found, rest, hfirst, hlater, heq⟩ := exists_of_run_cons hrun
    cases heq
    obtain ⟨before, at', after, middle, next, rfl, hbefore, hmove, hafter⟩ := exists_at earlier hlater
    refine ⟨move :: before, at', after, middle, next, rfl, ?_, hmove, hafter⟩
    simp only [run, hfirst, Option.bind_some, hbefore, Option.map_some]

end Machine

/-! ## The recorded reason -/

/-- A recorded reason stays. -/
theorem Session.Edit.reason {ι : Type} {session next : Session ι} {deeds : List Deed} {reason : DisconnectReason}
    (h : session.Edit deeds next) (hreason : session.reason = some reason) : next.reason = some reason := by
  cases h with
  | enter _ => rwa [World.reason_enter]
  | authenticate identity =>
    rcases session.authenticate_cases identity with ⟨e, heq⟩ | ⟨-, -, heq⟩
    · rwa [heq]
    · rwa [heq]
  | noteReason other => rw [Session.noteReason, hreason]; rfl
  | enqueue payload => rwa [Session.enqueue_fst]
  | receive chunk =>
    rcases session.receive_cases chunk with ⟨-, heq⟩ | ⟨-, stats, heq⟩
    · rwa [heq]
    · rwa [heq]
  | _ => exact hreason

theorem World.Edits.reason {world last : World A} {marks : List Mark} {reason : DisconnectReason}
    (h : world.Edits marks last) (hissued : id.number < world.ids.next)
    (hreason : (world.session id).reason = some reason) : (last.session id).reason = some reason :=
  (h.keep (·.reason = some reason) (fun _ => True) (fun hreason _ hedit => hedit.reason hreason) hissued hreason
    fun _ _ => True.intro).1

namespace World

variable {world : World A}

/-- **A disconnect that finds the session open** has noted its reason when it first asks outside code, unless one was
noted before. -/
theorem disconnect_notes (hissued : id.number < world.ids.next) (hopen : (world.session id).state.isClosing = false)
    (reason : DisconnectReason) (flushFirst : Bool) {query : Query A} {rest : Disconnect A}
    (hasks : (world.disconnect id reason flushFirst).progress = .asks query rest) :
    ((world.disconnect id reason flushFirst).world.session id).reason = (world.session id).reason.or (some reason) := by
  have hcomes := finishEnding_comesFrom (world.modify id (·.noteReason reason)) id reason
    (flushFirst && (world.session id).state = .connected)
  rw [← disconnect_eq hopen, Activity.ComesFrom, Activity.Records, hasks] at hcomes
  obtain ⟨noted, hnoted⟩ : ∃ noted, (world.session id).reason.or (some reason) = some noted := by
    cases (world.session id).reason with
    | none => exact ⟨reason, rfl⟩
    | some noted => exact ⟨noted, rfl⟩
  rw [hnoted]
  refine hcomes.reason hissued ?_
  rw [modify, session_put_self]
  exact hnoted

/-! ## What a disconnect leads to -/

theorem leave_closing (world : World A) (id : SessionId) (reason : DisconnectReason) :
    ((world.leave id reason).world.session id).state.isClosing = true := by
  rw [leave, Activity.world_andThen]
  · cases hclosing : (world.session id).state.isClosing with
    | true =>
      have hnone : (world.session id).state.canTransitionTo .disconnecting = false := by
        cases hstate : (world.session id).state <;> rw [hstate] at hclosing <;> first | rfl | cases hclosing
      obtain ⟨result, -, heq⟩ := transition_of_no_edge hnone
      rw [heq]
      exact hclosing
    | false =>
      have hedge : (world.session id).state.canTransitionTo .disconnecting = true := by
        cases hstate : (world.session id).state <;> rw [hstate] at hclosing <;> first | rfl | cases hclosing
      rw [transition_of_edge hedge]
      rfl
  · intro world moved
    unfold closeTransport
    split <;> rfl

/-- A disconnect that goes on is in the middle of its flush, or the session is closing. -/
def Heading (id : SessionId) (activity : Activity A (Disconnect A) Unit) : Prop :=
  activity.progress = .stuck ∨ id.number < activity.world.ids.next ∧
    ((activity.world.session id).state.isClosing = true ∨
      ∃ query reason flush, activity.progress = .asks query (.flushing id reason flush))

theorem heading_of_comesFrom {activity : Activity A (Disconnect A) Unit} (hcomes : activity.ComesFrom world)
    (hissued : id.number < world.ids.next)
    (h : (world.session id).state.isClosing = true ∨ (activity.world.session id).state.isClosing = true ∨
      ∃ query reason flush, activity.progress = .asks query (.flushing id reason flush)) : Heading id activity := by
  by_cases hstuck : activity.progress = .stuck
  · exact .inl hstuck
  · obtain ⟨marks, hedits⟩ := Likeness.exists_edits hcomes hstuck
    refine .inr ⟨(hedits.rank_le hissued).2, ?_⟩
    rcases h with hclosing | h
    · exact .inl (hedits.isClosing hissued hclosing)
    · exact h

theorem heading_andThen_leave {first : Activity A Flush (Except FlushError TickSummary)} {reason : DisconnectReason}
    (hcomes : first.ComesFrom world) (hissued : id.number < world.ids.next) :
    Heading id (first.andThen (.flushing id reason) fun world _ => world.leave id reason) := by
  by_cases hstuck : (first.andThen (.flushing id reason) fun world _ => world.leave id reason).progress = .stuck
  · exact .inl hstuck
  · refine heading_of_comesFrom (hcomes.andThen fun world _ => world.leave_comesFrom id reason) hissued (.inr ?_)
    unfold Activity.andThen at hstuck ⊢
    split
    · exact .inl (leave_closing _ id reason)
    · exact .inr ⟨_, reason, _, rfl⟩
    · rename_i hnever
      rw [hnever] at hstuck
      exact absurd rfl hstuck

theorem heading_disconnect (hissued : id.number < world.ids.next) (reason : DisconnectReason) (flushFirst : Bool) :
    Heading id (world.disconnect id reason flushFirst) := by
  cases hclosing : (world.session id).state.isClosing with
  | true => exact heading_of_comesFrom (world.disconnect_comesFrom id reason flushFirst) hissued (.inl hclosing)
  | false =>
    rw [disconnect_eq hclosing, finishEnding]
    split
    · exact heading_andThen_leave (flushFully_comesFrom _ id) hissued
    · exact heading_of_comesFrom (leave_comesFrom _ id reason) hissued (.inr (.inl (leave_closing _ id reason)))

/-- Whatever outside code does meanwhile, a disconnect goes on to close the session. -/
theorem heading_course {activity last : Activity A (Disconnect A) Unit} {queries : List (Query A)}
    (hcourse : Activity.Course (fun world reply rest => rest.resume world reply) activity queries last)
    (h : Heading id activity) : Heading id last := by
  induction hcourse with
  | here => exact h
  | @onward activity last query rest world queries reply hasks hworld _ hlast =>
    rcases h with hstuck | ⟨hissued, h⟩
    · rw [hstuck] at hasks
      cases hasks
    · obtain ⟨waiting, moves, reached, events, hrun, rfl⟩ := hworld
      have hedits := Machine.run_edits moves hrun
      have hissued' := (hedits.rank_le hissued).2
      refine hlast ?_
      rcases h with hclosing | ⟨_, reason, flush, hflushing⟩
      · exact heading_of_comesFrom (reached.world.resumeDisconnect_comesFrom reply rest) hissued'
          (.inl (hedits.isClosing hissued hclosing))
      · rw [hasks] at hflushing
        cases hflushing
        exact heading_andThen_leave (reached.world.resumeFlush_comesFrom flush reply) hissued'

/-- **Whenever a disconnect returns, the session is closing.** -/
theorem closing_of_disconnect (hissued : id.number < world.ids.next) {reason : DisconnectReason} {flushFirst : Bool}
    {queries : List (Query A)} {last : Activity A (Disconnect A) Unit}
    (hcourse : Activity.Course (fun world reply rest => rest.resume world reply)
      (world.disconnect id reason flushFirst) queries last) (hdone : last.progress = .done ()) :
    (last.world.session id).state.isClosing = true := by
  rcases heading_course hcourse (heading_disconnect hissued reason flushFirst) with
    hstuck | ⟨-, hclosing | ⟨_, _, _, hasks⟩⟩
  · rw [hdone] at hstuck
    cases hstuck
  · exact hclosing
  · rw [hdone] at hasks
    cases hasks

end World

/-! ## The law -/

namespace Machine

variable {machine middle next last : Machine A} {moves : List (Move A)} {events : List (Event A)}

/-- No disconnect finds the session open in any of these moves. -/
def NeverDisconnects (id : SessionId) (machine : Machine A) : List (Move A) → Prop
  | [] => True
  | move :: moves => ∀ next event, machine.move move = some (next, event) →
      (∀ reason, ¬ machine.Disconnects next id reason) ∧ next.NeverDisconnects id moves

/-- What is known of a session that no disconnect has found open. -/
def Undisturbed (id : SessionId) (machine : Machine A) : Prop :=
  (machine.world.session id).reason = none ∨
    (machine.world.session id).reason = some .transportClosed ∧ (machine.world.session id).state = .disconnected

theorem recorded_life_iff (id : SessionId) (machine : Machine A) (asked : List (Query A)) :
    (machine.life id [] asked).Recorded ↔ machine.Undisturbed id := by
  simp [Life.Recorded, Undisturbed, life, World.life]

/-- No chapter of the session is under way that does not fit it. -/
def Coherent (id : SessionId) (machine : Machine A) : Prop :=
  ∀ chapter ∈ machine.chapters id, chapter.Fits id (machine.world.session id).state

theorem move_coherent {move : Move A} {event : Event A} (hissued : id.number < machine.world.ids.next)
    (hfits : machine.Coherent id) (hmove : machine.move move = some (next, event)) : next.Coherent id := by
  obtain ⟨ended, hgoes, -⟩ := move_lives hissued hfits hmove
  have hstart : (machine.life id [] []).Fits id := hfits
  exact move_keeps (fun hfits hstep => hstep.fits hfits) hgoes hstart

theorem move_undisturbed {move : Move A} {event : Event A} (hissued : id.number < machine.world.ids.next)
    (hfits : machine.Coherent id) (h : machine.Undisturbed id) (hmove : machine.move move = some (next, event))
    (hnever : ∀ reason, ¬ machine.Disconnects next id reason) : next.Undisturbed id := by
  obtain ⟨ended, hgoes, hends⟩ := move_lives hissued hfits hmove
  have hnone : ended = none :=
    Option.eq_none_iff_forall_ne_some.2 fun reason hreason => hnever reason (hends reason hreason)
  subst hnone
  have hrecorded := move_keeps (fun hrecorded hstep => hstep.recorded hrecorded) hgoes
    ((recorded_life_iff id machine []).2 h)
  exact (recorded_life_iff id next _).1 hrecorded

theorem run_undisturbed : ∀ (moves : List (Move A)) {machine last : Machine A} {events : List (Event A)},
    id.number < machine.world.ids.next → machine.Coherent id → machine.Undisturbed id →
    machine.run moves = some (last, events) → machine.NeverDisconnects id moves → last.Undisturbed id
  | [], _, _, _, _, _, h, hrun, _ => by
    cases hrun
    exact h
  | move :: moves, machine, last, events, hissued, hfits, h, hrun, hnever => by
    obtain ⟨next, event, later, hmove, hlater, rfl⟩ := exists_of_run_cons hrun
    obtain ⟨hnever, hrest⟩ := hnever next event hmove
    exact run_undisturbed moves ((move_edits hmove).rank_le hissued).2 (move_coherent hissued hfits hmove)
      (move_undisturbed hissued hfits h hmove hnever) hlater hrest

/-- The first disconnect that finds the session open has its reason recorded. -/
theorem Disconnects.records {reason : DisconnectReason} (h : machine.Disconnects next id reason)
    (hissued : id.number < machine.world.ids.next) (hundisturbed : machine.Undisturbed id) :
    (next.world.session id).reason = some reason := by
  obtain ⟨before, flushFirst, innermost, outer, disconnect, hedits, hreason, hopen, -, -, hdisconnect⟩ := h
  obtain ⟨hrank, hissued'⟩ := hedits.rank_le hissued
  have hnone : (before.session id).reason = none := by
    rcases hundisturbed with hnone | ⟨-, hended⟩
    · exact hreason.trans hnone
    · rw [hended] at hrank
      rw [ConnectionState.eq_disconnected hrank] at hopen
      cases hopen
  have hasks : (before.disconnect id reason flushFirst).progress = .asks innermost.query disconnect := by
    rw [hdisconnect]
    rfl
  have hnotes := World.disconnect_notes hissued' hopen reason flushFirst hasks
  rwa [hdisconnect, hnone] at hnotes

/-- **One ending, one reason.**  Take any run of a session that has just been started: any calls in any order, also from
within transports, observers and handlers, and any replies.  Its transport is closed at most once.  Observers are told
at most once each that it has ended, in order of registration, and only in Disconnected; whoever was registered when it
got there has been told once nothing of it is under way, and nobody was told before.  Both are given the recorded
reason.  A recorded reason stays, and it is that of the first disconnect that found the session open, or that the
transport went away if the session reached Disconnected without one.  Whenever a disconnect returns, whatever happened
meanwhile, the session is closing; if it found the session open it asks outside code before it ends, with its reason
noted. -/
theorem one_ending {config : SessionConfig} (hrun : machine.run moves = some (last, events))
    (hissued : id.number < machine.world.ids.next) (hstart : machine.world.session id = .start id config)
    (hidle : machine.chapters id = []) :
    (closings id (questions events)).length ≤ 1 ∧
    (∀ closing ∈ closings id (questions events),
      (last.world.session id).reason = some closing.1 ∧ closing.2 = closing.1.notifiesPeer) ∧
    (farewells id (questions events)).map Prod.fst <+: last.world.observers ∧
    (∀ farewell ∈ farewells id (questions events),
      (last.world.session id).reason = some farewell.2 ∧ (last.world.session id).state = .disconnected) ∧
    (∀ early move late middle next earlier event, moves = early ++ move :: late →
      machine.run early = some (middle, earlier) → middle.move move = some (next, event) →
      ((middle.world.session id).state ≠ .disconnected → (next.world.session id).state = .disconnected →
        farewells id (questions earlier) = [] ∧
          (last.chapters id = [] → middle.world.observers <+: (farewells id (questions events)).map Prod.fst)) ∧
      (∀ reason, (middle.world.session id).reason = some reason → (last.world.session id).reason = some reason) ∧
      (∀ reason, machine.NeverDisconnects id early → middle.Disconnects next id reason →
        (last.world.session id).reason = some reason)) ∧
    (machine.NeverDisconnects id moves → last.Undisturbed id) ∧
    (∀ (world : World A) (reason : DisconnectReason) (flushFirst : Bool), id.number < world.ids.next →
      (∀ queries activity, Activity.Course (fun world reply rest => rest.resume world reply)
        (world.disconnect id reason flushFirst) queries activity → activity.progress = .done () →
        (activity.world.session id).state.isClosing = true) ∧
      ((world.session id).state.isClosing = false →
        (world.disconnect id reason flushFirst).progress ≠ .done () ∧
        ∀ query rest, (world.disconnect id reason flushFirst).progress = .asks query rest →
          ((world.disconnect id reason flushFirst).world.session id).reason =
            (world.session id).reason.or (some reason))) := by
  have hfits : machine.Coherent id := by
    intro chapter hmem
    rw [hidle] at hmem
    cases hmem
  have hclean : machine.Undisturbed id := .inl (by rw [hstart]; rfl)
  have honce : (machine.life id [] []).ClosesOnce id := by
    refine ⟨Nat.le_of_eq ?_, fun chapter hmem => ?_, fun _ hmem => absurd hmem List.not_mem_nil⟩
    · simp [life, World.life, hidle, hstart, closings, Session.start, ConnectionState.isClosing]
    · rw [life, hidle] at hmem
      cases hmem
  have hbefore : (machine.life id [] []).Farewell id [] := by
    refine .before ?_ List.nil_prefix ?_ rfl
    · show (machine.world.session id).state ≠ .disconnected
      rw [hstart]
      exact fun heq => by cases heq
    · rw [life, hidle]
      rfl
  obtain ⟨endings, -, hlastOnce⟩ := run_keeps (fun honce hstep => hstep.closesOnce honce) moves hissued hfits honce hrun
  obtain ⟨_, -, hlastFarewell⟩ := run_keeps (fun h hstep => hstep.farewell h) moves hissued hfits hbefore hrun
  rw [List.nil_append] at hlastOnce hlastFarewell
  refine ⟨?_, hlastOnce.told, ?_, ?_, ?_, fun hnever => run_undisturbed moves hissued hfits hclean hrun hnever,
    fun world reason flushFirst hissued => ⟨fun _ _ => World.closing_of_disconnect hissued, fun hopen =>
      ⟨World.disconnect_asks hopen reason flushFirst (), fun _ _ =>
        World.disconnect_notes hissued hopen reason flushFirst⟩⟩⟩
  · have hcount := hlastOnce.count
    have hone : ∀ closing : Bool, closing.toNat ≤ 1 := fun closing => by cases closing <;> decide
    exact Nat.le_trans (Nat.le_trans (Nat.le_add_right _ _) hcount) (hone _)
  · exact hlastFarewell.told.1
  · exact hlastFarewell.told.2
  · rintro early move late middle next earlier event rfl hearlier hmove
    obtain ⟨later, hlate, rfl⟩ := exists_later hearlier hrun
    have hmiddle := ((run_edits early hearlier).rank_le hissued).2
    have hafter : ∃ rest, next.run late = some (last, rest) := by
      unfold Machine.run at hlate
      rw [hmove] at hlate
      obtain ⟨⟨reached, rest⟩, hrest, heq⟩ := Option.map_eq_some_iff.1 hlate
      cases heq
      exact ⟨rest, hrest⟩
    obtain ⟨rest, hrest⟩ := hafter
    have hnext := ((move_edits hmove).rank_le hmiddle).2
    refine ⟨fun hopen hended => ?_, fun reason hreason => (run_edits _ hlate).reason hmiddle hreason,
      fun reason hnever hdisconnects => ?_⟩
    · obtain ⟨endings', hfits', h⟩ := run_keeps (fun h hstep => hstep.farewell h) early hissued hfits hbefore hearlier
      rw [List.nil_append] at hfits' h
      obtain ⟨hnone, htold⟩ := h.nobody hopen
      refine ⟨htold, fun hquiet => ?_⟩
      have hall : (middle.life id endings' (questions earlier)).Farewell id middle.world.observers :=
        .before hopen (List.prefix_refl _) hnone htold
      obtain ⟨_, -, hlast⟩ := run_keeps (fun h hstep => hstep.farewell h) (move :: late) hmiddle hfits' hall hlate
      have hquestions : questions (earlier ++ later) = questions earlier ++ questions later := List.filterMap_append
      rw [hquestions]
      refine hlast.everybody ?_ hquiet
      have hrank := ((run_edits late hrest).rank_le hnext).1
      rw [hended] at hrank
      exact ConnectionState.eq_disconnected hrank
    · have hundisturbed := run_undisturbed early hissued hfits hclean hearlier hnever
      exact (run_edits late hrest).reason hnext (hdisconnects.records hmiddle hundisturbed)

/-- A session is disconnected, and while an observer hears that it is leaving, the transport reports that it has gone
and somebody disconnects it again. -/
def goneWhileLeaving : List (Move .bare) :=
  [.call (.transition ⟨1⟩ .connected), .reply .done, .call (.disconnect ⟨1⟩ .malformedData false),
    .call (.transition ⟨1⟩ .disconnected), .call (.disconnect ⟨1⟩ .hostShutdown true), .reply .done, .reply .done,
    .reply .done, .reply .done]

theorem one_ending_goneWhileLeaving :
    ∃ (last : Machine .bare) (events : List (Event .bare)),
      (⟨{ (World.ofSession (.start ⟨1⟩ {}) : World .bare) with observers := [()] }, []⟩ : Machine .bare).run
        goneWhileLeaving = some (last, events) ∧
      closings ⟨1⟩ (questions events) = [(.malformedData, false)] ∧
      farewells ⟨1⟩ (questions events) = [((), .malformedData)] ∧
      (last.world.session ⟨1⟩).reason = some .malformedData ∧
      (last.world.session ⟨1⟩).state = .disconnected := by
  obtain ⟨last, events, hrun, hclosings, hfarewells⟩ : ∃ (last : Machine .bare) (events : List (Event .bare)),
      (⟨{ (World.ofSession (.start ⟨1⟩ {}) : World .bare) with observers := [()] }, []⟩ : Machine .bare).run
        goneWhileLeaving = some (last, events) ∧
      closings ⟨1⟩ (questions events) = [(.malformedData, false)] ∧
      farewells ⟨1⟩ (questions events) = [((), .malformedData)] := ⟨_, _, rfl, rfl, rfl⟩
  have hissued : (⟨1⟩ : SessionId).number < (World.ofSession (.start ⟨1⟩ {}) : World .bare).ids.next := by decide
  obtain ⟨-, -, -, htold, -⟩ := one_ending hrun hissued rfl rfl
  have hended := htold ((), .malformedData) (by rw [hfarewells]; exact List.mem_singleton.2 rfl)
  exact ⟨last, events, hrun, hclosings, hfarewells, hended⟩

end Machine

end FramedLink
