import FramedLink.Proofs.Lives.Ending
/-!
# The news of a session

Observers are told of a session's moves in rounds, from the first observer to the last.  Any of them may move the
session again when it is told, and the round of that move is then over before the first one goes on: whoever comes later
in the list hears of the second move first, and of the session's end before what led to it.

What holds in any case is that an observer hears of every move once, and of the session's end once and after the move
that led there.  It hears of them in order if the session is not moved while a round is under way that has yet to reach
the observer.

Main statement: the law of news, along any run of a session (`Machine.news_in_order`).
-/
namespace FramedLink

variable {A : Application} {id : SessionId}

/-! ## News -/

/-- What an observer is told about a session. -/
inductive News where
  | moved (source target : ConnectionState)
  | gone (reason : DisconnectReason)
deriving DecidableEq

/-- A move of a session, from one state to another. -/
abbrev Edge := ConnectionState × ConnectionState

namespace News

def edge? : News → Option Edge
  | moved source target => some (source, target)
  | gone _ => none

def isGone : News → Bool
  | moved _ _ => false
  | gone _ => true

end News

/-- What a query tells an observer about a session, if it tells it anything. -/
def Query.news? [DecidableEq A.Observer] (id : SessionId) (observer : A.Observer) : Query A → Option News
  | stateChanged other session source target =>
    if other = observer ∧ session = id then some (.moved source target) else none
  | disconnected other session reason => if other = observer ∧ session = id then some (.gone reason) else none
  | transmit _ _ | close _ _ _ | handle _ _ _ => none

/-- All that an observer has been told about a session, in order. -/
def news [DecidableEq A.Observer] (id : SessionId) (observer : A.Observer) (asked : List (Query A)) : List News :=
  asked.filterMap (Query.news? id observer)

/-- The moves among the news. -/
def edges (told : List News) : List Edge := told.filterMap News.edge?

/-- News in order, for an observer that has the session in state `known`: each move starts where the one before it led,
the session's end comes in Disconnected, and nothing follows it. -/
def Orderly (known : ConnectionState) : List News → Prop
  | [] => True
  | .moved source target :: later => source = known ∧ Orderly target later
  | .gone _ :: later => known = .disconnected ∧ later = []

/-- In which state an observer has the session after all that it was told. -/
def reached (known : ConnectionState) : List News → ConnectionState
  | [] => known
  | .moved _ target :: later => reached target later
  | .gone _ :: later => reached known later

/-- The session's end is told at most once, and after a move to Disconnected. -/
def Departs (told : List News) : Prop :=
  (told.filter News.isGone).length ≤ 1 ∧
    ∀ before reason, before ++ [.gone reason] <+: told → ∃ source, .moved source .disconnected ∈ before

/-- The moves lead from one state to another, each along an edge from where the one before it led. -/
def Leads (source : ConnectionState) : List Edge → ConnectionState → Prop
  | [], last => last = source
  | edge :: later, last => edge.1 = source ∧ edge.1.canTransitionTo edge.2 = true ∧ Leads edge.2 later last

section Moves

variable {source last known : ConnectionState} {edge : Edge}

theorem leads_concat : ∀ {chain : List Edge} {source : ConnectionState},
    Leads source (chain ++ [edge]) last ↔
      Leads source chain edge.1 ∧ edge.1.canTransitionTo edge.2 = true ∧ last = edge.2
  | [], source => by simp [Leads]
  | first :: later, source => by
    rw [List.cons_append, Leads, Leads, leads_concat]
    simp only [and_assoc]

/-- The session is never behind where its moves led. -/
theorem Leads.rank_le : ∀ {chain : List Edge} {source : ConnectionState} {edge : Edge}, Leads source chain last →
    edge ∈ chain → edge.2.rank ≤ last.rank
  | first :: [], _, edge, h, hmem => by
    obtain rfl := List.mem_singleton.1 hmem
    exact Nat.le_of_eq (congrArg ConnectionState.rank h.2.2.symm)
  | first :: second :: later, _, edge, h, hmem => by
    have hlater := h.2.2
    rcases List.mem_cons.1 hmem with rfl | hmem
    · have hedge := (ConnectionState.canTransitionTo_iff second.1 second.2).1 hlater.2.1
      have hsecond : second.2.rank ≤ last.rank := hlater.rank_le List.mem_cons_self
      rw [hlater.1] at hedge
      exact Nat.le_trans (Nat.le_of_lt hedge) hsecond
    · exact hlater.rank_le hmem

/-- Where moves lead is the target of one of them, unless there are none. -/
theorem Leads.exists_last {chain : List Edge} (h : Leads source chain last) (hne : last ≠ source) :
    ∃ before, (before, last) ∈ chain := by
  rcases chain.eq_nil_or_concat with rfl | ⟨earlier, edge, rfl⟩
  · exact absurd h hne
  · rw [List.concat_eq_append] at h ⊢
    obtain ⟨-, -, rfl⟩ := leads_concat.1 h
    exact ⟨edge.1, List.mem_append_right _ List.mem_cons_self⟩

end Moves

section Concat

variable {told : List News} {known target : ConnectionState} {reason : DisconnectReason}

theorem edges_concat_moved (told : List News) (source target : ConnectionState) :
    edges (told ++ [.moved source target]) = edges told ++ [(source, target)] := List.filterMap_append

theorem edges_concat_gone (told : List News) (reason : DisconnectReason) :
    edges (told ++ [.gone reason]) = edges told := by
  rw [edges, List.filterMap_append]
  exact List.append_nil _

theorem mem_edges {source target : ConnectionState} : (source, target) ∈ edges told ↔ .moved source target ∈ told := by
  rw [edges, List.mem_filterMap]
  constructor
  · rintro ⟨news, hmem, hedge⟩
    cases news with
    | moved s t => cases hedge; exact hmem
    | gone reason => cases hedge
  · exact fun hmem => ⟨_, hmem, rfl⟩

theorem reached_concat_moved : ∀ (told : List News) (known source target : ConnectionState),
    reached known (told ++ [.moved source target]) = target
  | [], _, _, _ => rfl
  | .moved _ _ :: later, _, source, target => reached_concat_moved later _ source target
  | .gone _ :: later, _, source, target => reached_concat_moved later _ source target

theorem reached_concat_gone : ∀ (told : List News) (known : ConnectionState) (reason : DisconnectReason),
    reached known (told ++ [.gone reason]) = reached known told
  | [], _, _ => rfl
  | .moved _ _ :: later, _, reason => reached_concat_gone later _ reason
  | .gone _ :: later, _, reason => reached_concat_gone later _ reason

/-- A move in its turn comes where the news before it led. -/
theorem Orderly.concat_moved : ∀ {told : List News} {known : ConnectionState}, Orderly known told →
    (∀ reason, .gone reason ∉ told) → Orderly known (told ++ [.moved (reached known told) target])
  | [], _, _, _ => ⟨rfl, True.intro⟩
  | .moved _ _ :: _, _, h, hopen =>
    ⟨h.1, h.2.concat_moved fun reason hmem => hopen reason (List.mem_cons_of_mem _ hmem)⟩
  | .gone reason :: _, _, _, hopen => absurd List.mem_cons_self (hopen reason)

theorem Orderly.concat_gone : ∀ {told : List News} {known : ConnectionState}, Orderly known told →
    (∀ reason, .gone reason ∉ told) → reached known told = .disconnected → Orderly known (told ++ [.gone reason])
  | [], _, _, _, hended => ⟨hended, rfl⟩
  | .moved _ _ :: _, _, h, hopen, hended =>
    ⟨h.1, h.2.concat_gone (fun reason hmem => hopen reason (List.mem_cons_of_mem _ hmem)) hended⟩
  | .gone reason :: _, _, _, hopen, _ => absurd List.mem_cons_self (hopen reason)

end Concat

/-! ## What an observer waits for -/

/-- Those who are still to be told of a move. -/
def Chapter.audience : Chapter A → List A.Observer
  | round (.telling _ _ _ rest) _ => rest
  | ending | round (.parting _ _ _) _ => []

/-- Observers that have joined stay. -/
theorem Life.Step.observers {life next : Life A} (h : Life.Step id life next) : life.observers <+: next.observers := by
  cases h with
  | silent h =>
    cases h with
    | join observer => exact List.prefix_append _ _
    | _ => exact List.prefix_refl _
  | asks h => cases h <;> exact List.prefix_refl _

theorem Machine.run_observers {machine last : Machine A} {events : List (Event A)} {endings : List DisconnectReason}
    {asked : List (Query A)} (moves : List (Move A)) (hissued : id.number < machine.world.ids.next)
    (hfits : (machine.life id endings asked).Fits id) (hrun : machine.run moves = some (last, events)) :
    machine.world.observers <+: last.world.observers := by
  have hstep {life next : Life A} (hgrows : machine.world.observers <+: life.observers) (hstep : life.Step id next) :
      machine.world.observers <+: next.observers := hgrows.trans hstep.observers
  obtain ⟨_, -, hlast⟩ := run_keeps hstep moves hissued hfits (List.prefix_refl _) hrun
  exact hlast

section Observer

variable [DecidableEq A.Observer]

/-- The move of which an observer is still to be told in a round. -/
def Chapter.edge? (observer : A.Observer) : Chapter A → Option Edge
  | round (.telling _ source target rest) _ => if observer ∈ rest then some (source, target) else none
  | ending | round (.parting _ _ _) _ => none

/-- The moves of which an observer is still to be told, the latest first. -/
def awaited (observer : A.Observer) (chapters : List (Chapter A)) : List Edge :=
  chapters.filterMap (Chapter.edge? observer)

theorem awaited_cons_none {observer : A.Observer} {chapter : Chapter A} (below : List (Chapter A))
    (h : chapter.edge? observer = none) : awaited observer (chapter :: below) = awaited observer below :=
  List.filterMap_cons_none h

theorem awaited_telling (observer : A.Observer) (source target : ConnectionState) (rest : List A.Observer)
    (closes : Bool) (below : List (Chapter A)) :
    awaited observer (.round (.telling id source target rest) closes :: below) =
      if observer ∈ rest then (source, target) :: awaited observer below else awaited observer below := by
  by_cases h : observer ∈ rest
  · rw [if_pos h]
    exact List.filterMap_cons_some (if_pos h)
  · rw [if_neg h]
    exact List.filterMap_cons_none (if_neg h)

theorem Chapter.isLast_of_edge? {observer : A.Observer} {chapter : Chapter A} {edge : Edge}
    (h : chapter.edge? observer = some edge) (hedge : edge.2 = .disconnected) : chapter.isLast = true := by
  match chapter with
  | .round (.telling session source target rest) closes =>
    rw [Chapter.edge?] at h
    split at h
    · cases h
      exact decide_eq_true hedge
    · cases h
  | .ending | .round (.parting _ _ _) _ => cases h

theorem edge?_of_isOver {observer : A.Observer} {rest : Transition A} (h : rest.IsOver) (closes : Bool) :
    (Chapter.round rest closes).edge? observer = none := by
  cases h <;> rfl

variable {observer : A.Observer}

theorem news_ask (asked : List (Query A)) (query : Query A) :
    news id observer (asked ++ [query]) = news id observer asked ++ (query.news? id observer).toList := by
  rw [news, List.filterMap_append]
  cases h : query.news? id observer with
  | none => rw [List.filterMap_cons_none h]; rfl
  | some told => rw [List.filterMap_cons_some h]; rfl

theorem news?_of_quiet {query : Query A} (h : query.isNews id = false) : query.news? id observer = none := by
  cases query with
  | stateChanged other session source target => exact if_neg fun heq => of_decide_eq_false h heq.2
  | disconnected other session reason => exact if_neg fun heq => of_decide_eq_false h heq.2
  | _ => rfl

/-- An observer is told of the session's end as often as it is among those to whom farewell is bidden. -/
theorem length_filter_isGone (id : SessionId) (observer : A.Observer) : ∀ asked : List (Query A),
    ((news id observer asked).filter News.isGone).length = ((farewells id asked).map Prod.fst).count observer
  | [] => rfl
  | query :: asked => by
    have hquery : ((query.news? id observer).toList.filter News.isGone).length =
        ((query.farewell? id).toList.map Prod.fst).count observer := by
      cases query with
      | stateChanged other session source target =>
        rw [Query.news?]
        split <;> rfl
      | disconnected other session reason =>
        rw [Query.news?, Query.farewell?]
        by_cases hsession : session = id
        · by_cases hother : other = observer
          · rw [if_pos ⟨hother, hsession⟩, if_pos hsession, hother]
            exact List.count_singleton_self.symm
          · rw [if_neg fun h => hother h.1, if_pos hsession]
            exact (List.count_eq_zero.2 fun hmem => hother (List.mem_singleton.1 hmem).symm).symm
        · rw [if_neg fun h => hsession h.2, if_neg hsession]
          rfl
      | _ => rfl
    have hrest := length_filter_isGone id observer asked
    have hnews : news id observer (query :: asked) = (query.news? id observer).toList ++ news id observer asked := by
      rw [news, List.filterMap_cons]
      cases query.news? id observer <;> rfl
    have hfarewells : farewells id (query :: asked) = (query.farewell? id).toList ++ farewells id asked := by
      rw [farewells, List.filterMap_cons]
      cases query.farewell? id <;> rfl
    rw [hnews, hfarewells, List.filter_append, List.length_append, List.map_append, List.count_append, hquery, hrest]

namespace Life

variable {life next : Life A} {early : List A.Observer}

/-- An observer that is registered once is told of the session's end at most once. -/
theorem Farewell.gone_once (h : life.Farewell id early) (honce : life.observers.count observer ≤ 1) :
    ((news id observer life.asked).filter News.isGone).length ≤ 1 := by
  rw [length_filter_isGone]
  exact Nat.le_trans (h.told.1.sublist.count_le observer) honce

/-- When farewell is bidden, no round of the move to Disconnected is under way any more. -/
theorem Farewell.last_round (h : life.Farewell id early) {other : SessionId} {reason : DisconnectReason}
    {rest : List A.Observer} {closes : Bool} {below : List (Chapter A)}
    (hchapters : life.chapters = .round (.parting other reason rest) closes :: below) :
    life.state = .disconnected ∧ ∀ edge ∈ awaited observer life.chapters, edge.2 ≠ .disconnected := by
  have hlast := filter_isLast hchapters
  simp only [Chapter.isLast, if_true] at hlast
  cases h with
  | before _ _ hnone _ | after _ _ _ _ _ _ hnone _ =>
    rw [hlast] at hnone
    cases hnone
  | telling _ _ _ _ _ hround _ =>
    rw [hlast] at hround
    cases hround
  | parting _ _ _ _ hstate _ _ _ hround _ =>
    refine ⟨hstate, fun edge hmem hedge => ?_⟩
    obtain ⟨chapter, hchapter, heq⟩ := List.mem_filterMap.1 hmem
    have hparting : chapter ∈ life.chapters.filter Chapter.isLast :=
      List.mem_filter.2 ⟨hchapter, Chapter.isLast_of_edge? heq hedge⟩
    rw [hround] at hparting
    rw [List.mem_singleton.1 hparting] at heq
    cases heq

/-! ## What one step tells an observer -/

/-- What a step of a life means to an observer: nothing, a move that it is still to be told of, the news of a move, or
the news of the session's end. -/
inductive Hears (id : SessionId) (observer : A.Observer) (life next : Life A) : Prop where
  | nothing (hstate : next.state = life.state)
      (hawaited : awaited observer next.chapters = awaited observer life.chapters)
      (hnews : news id observer next.asked = news id observer life.asked)
  | waits (hedge : life.state.canTransitionTo next.state = true)
      (hawaited : awaited observer next.chapters = (life.state, next.state) :: awaited observer life.chapters)
      (hnews : news id observer next.asked = news id observer life.asked)
  | moved (source target : ConnectionState) (hstate : next.state = life.state)
      (hawaited : awaited observer life.chapters = (source, target) :: awaited observer next.chapters)
      (hnews : news id observer next.asked = news id observer life.asked ++ [.moved source target])
  | gone (reason : DisconnectReason) (hstate : next.state = life.state) (hended : life.state = .disconnected)
      (hawaited : awaited observer next.chapters = awaited observer life.chapters)
      (hlast : ∀ edge ∈ awaited observer life.chapters, edge.2 ≠ .disconnected)
      (hnews : news id observer next.asked = news id observer life.asked ++ [.gone reason])

theorem Silent.hears (h : Silent id life next) (hregistered : observer ∈ life.observers) :
    life.Hears id observer next := by
  cases h with
  | join other => exact .nothing rfl rfl rfl
  | ended reason hopen => exact .nothing rfl (awaited_cons_none _ rfl) rfl
  | moved hedge => exact .waits hedge ((awaited_telling _ _ _ _ _ _).trans (if_pos hregistered)) rfl
  | @left below hchapters hedge =>
    refine .waits hedge ?_ rfl
    rw [awaited_telling, if_pos hregistered, hchapters, awaited_cons_none below rfl]
  | @stayed below hchapters =>
    refine .nothing rfl ?_ rfl
    rw [hchapters, awaited_cons_none below rfl]
  | @farewell source closes below hchapters hstate =>
    refine .nothing rfl ?_ rfl
    rw [hchapters, awaited_cons_none below rfl, awaited_cons_none below rfl]
  | @ends rest below hchapters hover =>
    refine .nothing rfl ?_ rfl
    rw [hchapters, awaited_cons_none below (edge?_of_isOver hover false)]

theorem Asks.hears {query : Query A} (h : Asks id life query next)
    (haudience : ∀ chapter ∈ life.chapters, chapter.audience.count observer ≤ 1) (hfarewell : life.Farewell id early) :
    life.Hears id observer next := by
  cases h with
  | @told source target other rest closes below hchapters =>
    by_cases hother : other = observer
    · subst hother
      have hlast : other ∉ rest := by
        have hcount := haudience (.round (.telling id source target (other :: rest)) closes)
          (by rw [hchapters]; exact List.mem_cons_self)
        rw [Chapter.audience, List.count_cons_self] at hcount
        exact List.count_eq_zero.1 (Nat.le_zero.1 (Nat.le_of_succ_le_succ hcount))
      refine .moved source target rfl ?_ ?_
      · rw [hchapters, awaited_telling, awaited_telling, if_pos List.mem_cons_self, if_neg hlast]
      · rw [news_ask, Query.news?, if_pos ⟨rfl, rfl⟩]
        rfl
    · have hmem : observer ∈ other :: rest ↔ observer ∈ rest := by
        rw [List.mem_cons]
        exact or_iff_right fun heq => hother heq.symm
      refine .nothing rfl ?_ ?_
      · rw [hchapters, awaited_telling, awaited_telling]
        simp only [hmem]
      · rw [news_ask, Query.news?, if_neg fun heq => hother heq.1]
        exact List.append_nil _
  | @parted reason other rest closes below hchapters =>
    have hawaited : ∀ rest, awaited observer (.round (.parting id reason rest) closes :: below) =
        awaited observer below := fun rest => awaited_cons_none below rfl
    by_cases hother : other = observer
    · subst hother
      obtain ⟨hended, hlast⟩ := hfarewell.last_round hchapters
      refine .gone reason rfl hended ?_ hlast ?_
      · rw [hchapters, hawaited, hawaited]
      · rw [news_ask, Query.news?, if_pos ⟨rfl, rfl⟩]
        rfl
    · refine .nothing rfl ?_ ?_
      · rw [hchapters, hawaited, hawaited]
      · rw [news_ask, Query.news?, if_neg fun heq => hother heq.1]
        exact List.append_nil _
  | @closed rest below fallback hchapters hover =>
    refine .nothing rfl ?_ ?_
    · rw [hchapters, awaited_cons_none below (edge?_of_isOver hover true)]
    · rw [news_ask]
      exact List.append_nil _
  | other hquiet =>
    refine .nothing rfl rfl ?_
    rw [news_ask, news?_of_quiet hquiet]
    exact List.append_nil _

/-! ## Every move is told once -/

/-- An observer that is registered once hears, or is still to hear, of every move, and hears of no move twice; and of
the session's end it hears after the move that led there. -/
structure Informs (id : SessionId) (observer : A.Observer) (life : Life A) : Prop where
  registered : observer ∈ life.observers
  farewell : life.Farewell id []
  audience : ∀ chapter ∈ life.chapters, chapter.audience.count observer ≤ 1
  moves : ∃ chain, Leads .connecting chain life.state ∧
    (edges (news id observer life.asked) ++ awaited observer life.chapters).Perm chain
  departs : ∀ before reason, before ++ [.gone reason] <+: news id observer life.asked →
    ∃ source, .moved source .disconnected ∈ before

theorem Step.audience (h : Step id life next) (honce : life.observers.count observer ≤ 1)
    (haudience : ∀ chapter ∈ life.chapters, chapter.audience.count observer ≤ 1) :
    ∀ chapter ∈ next.chapters, chapter.audience.count observer ≤ 1 := by
  have hbelow {top : Chapter A} {below : List (Chapter A)} (hchapters : life.chapters = top :: below) :
      top.audience.count observer ≤ 1 ∧ ∀ chapter ∈ below, chapter.audience.count observer ≤ 1 := by
    rw [hchapters] at haudience
    exact List.forall_mem_cons.1 haudience
  cases h with
  | silent h =>
    cases h with
    | join _ => exact haudience
    | ended _ _ => exact List.forall_mem_cons.2 ⟨Nat.zero_le _, haudience⟩
    | moved _ => exact List.forall_mem_cons.2 ⟨honce, haudience⟩
    | left hchapters _ => exact List.forall_mem_cons.2 ⟨honce, (hbelow hchapters).2⟩
    | stayed hchapters => exact (hbelow hchapters).2
    | farewell hchapters _ => exact List.forall_mem_cons.2 ⟨Nat.zero_le _, (hbelow hchapters).2⟩
    | ends hchapters _ => exact (hbelow hchapters).2
  | asks h =>
    cases h with
    | told hchapters =>
      obtain ⟨htop, hrest⟩ := hbelow hchapters
      exact List.forall_mem_cons.2 ⟨Nat.le_trans (List.Sublist.count_le _ (List.sublist_cons_self _ _)) htop, hrest⟩
    | parted hchapters => exact List.forall_mem_cons.2 ⟨Nat.zero_le _, (hbelow hchapters).2⟩
    | closed _ hchapters _ => exact (hbelow hchapters).2
    | other _ => exact haudience

theorem Informs.hears (h : life.Informs id observer) (hstep : Step id life next) : life.Hears id observer next := by
  cases hstep with
  | silent hstep => exact hstep.hears h.registered
  | asks hstep => exact hstep.hears h.audience h.farewell

/-- When farewell is bidden to an observer, it has heard of the move that led there. -/
theorem Informs.mem_news (h : life.Informs id observer) (hended : life.state = .disconnected)
    (hlast : ∀ edge ∈ awaited observer life.chapters, edge.2 ≠ .disconnected) :
    ∃ source, .moved source .disconnected ∈ news id observer life.asked := by
  obtain ⟨chain, hleads, hperm⟩ := h.moves
  rw [hended] at hleads
  obtain ⟨source, hmem⟩ := hleads.exists_last fun heq => by cases heq
  rcases List.mem_append.1 (hperm.mem_iff.2 hmem) with htold | hawaited
  · exact ⟨source, mem_edges.1 htold⟩
  · exact absurd rfl (hlast _ hawaited)

theorem Step.informs (hstep : Step id life next) (honce : next.observers.count observer ≤ 1)
    (h : life.Informs id observer) : next.Informs id observer := by
  have hgrows := hstep.observers
  have hhears := h.hears hstep
  refine ⟨hgrows.subset h.registered, hstep.farewell h.farewell,
    hstep.audience (Nat.le_trans (hgrows.sublist.count_le observer) honce) h.audience, ?_, ?_⟩
  · obtain ⟨chain, hleads, hperm⟩ := h.moves
    cases hhears with
    | nothing hstate hawaited hnews => exact ⟨chain, by rwa [hstate], by rwa [hnews, hawaited]⟩
    | waits hedge hawaited hnews =>
      refine ⟨chain ++ [(life.state, next.state)], leads_concat.2 ⟨hleads, hedge, rfl⟩, ?_⟩
      rw [hnews, hawaited]
      exact List.perm_middle.trans ((hperm.cons _).trans (List.perm_append_singleton _ _).symm)
    | moved source target hstate hawaited hnews =>
      refine ⟨chain, by rwa [hstate], ?_⟩
      rwa [hnews, edges_concat_moved, List.append_assoc, List.singleton_append, ← hawaited]
    | gone reason hstate hended hawaited hlast hnews =>
      refine ⟨chain, by rwa [hstate], ?_⟩
      rwa [hnews, edges_concat_gone, hawaited]
  · intro before reason hprefix
    cases hhears with
    | nothing _ _ hnews | waits _ _ hnews => exact h.departs before reason (by rwa [hnews] at hprefix)
    | moved source target hstate hawaited hnews =>
      rw [hnews, List.prefix_concat_iff] at hprefix
      rcases hprefix with heq | hprefix
      · cases (List.append_inj' heq rfl).2
      · exact h.departs before reason hprefix
    | gone told hstate hended hawaited hlast hnews =>
      rw [hnews, List.prefix_concat_iff] at hprefix
      rcases hprefix with heq | hprefix
      · rw [(List.append_inj' heq rfl).1]
        exact h.mem_news hended hlast
      · exact h.departs before reason hprefix

/-! ## News in order -/

/-- An observer has heard in order of all moves but those that it is still to be told of, and those come next. -/
structure InTurn (id : SessionId) (observer : A.Observer) (life : Life A) : Prop where
  orderly : Orderly .connecting (news id observer life.asked)
  leads : Leads (reached .connecting (news id observer life.asked)) (awaited observer life.chapters).reverse life.state
  gone : ∀ reason, .gone reason ∈ news id observer life.asked →
    life.state = .disconnected ∧ awaited observer life.chapters = []

/-- **A step keeps the news in order** if it leaves the observer with no move to be told of that the session has left
behind.  Silent steps may leave one, since nobody hears of them. -/
theorem Step.inTurn (hstep : Step id life next) (honce : next.observers.count observer ≤ 1)
    (hinforms : life.Informs id observer)
    (hprompt : next.asked = life.asked ∨ ∀ edge ∈ awaited observer next.chapters, edge.2 = next.state)
    (h : life.InTurn id observer) : next.InTurn id observer := by
  cases hinforms.hears hstep with
  | nothing hstate hawaited hnews => exact ⟨hnews ▸ h.orderly, by rw [hnews, hawaited, hstate]; exact h.leads,
      fun reason hmem => by rw [hstate, hawaited]; exact h.gone reason (hnews ▸ hmem)⟩
  | waits hedge hawaited hnews =>
    refine ⟨hnews ▸ h.orderly, ?_, fun reason hmem => ?_⟩
    · rw [hnews, hawaited, List.reverse_cons]
      exact leads_concat.2 ⟨h.leads, hedge, rfl⟩
    · rw [hnews] at hmem
      rw [(h.gone reason hmem).1] at hedge
      cases hedge
  | moved source target hstate hawaited hnews =>
    have hopen : ∀ reason, .gone reason ∉ news id observer life.asked := by
      intro reason hmem
      have hnone := (h.gone reason hmem).2
      rw [hawaited] at hnone
      cases hnone
    have hleads := h.leads
    rw [hawaited, List.reverse_cons, leads_concat] at hleads
    obtain ⟨hleads, hedge, htarget⟩ := hleads
    have hnone : awaited observer next.chapters = [] := by
      have hprompt := hprompt.resolve_left fun heq => by rw [heq] at hnews; simp at hnews
      refine List.eq_nil_iff_forall_not_mem.2 fun edge hmem => ?_
      have hle := hleads.rank_le (List.mem_reverse.2 hmem)
      have hlt := (ConnectionState.canTransitionTo_iff source target).1 hedge
      rw [hprompt edge hmem, hstate, htarget] at hle
      exact absurd hle (Nat.not_le_of_lt hlt)
    rw [hnone, List.reverse_nil] at hleads
    have hsource : source = reached .connecting (news id observer life.asked) := hleads
    subst hsource
    refine ⟨hnews ▸ h.orderly.concat_moved hopen, ?_, fun reason hmem => ?_⟩
    · rw [hnews, hnone, reached_concat_moved, hstate]
      exact htarget
    · rw [hnews, List.mem_append, List.mem_singleton] at hmem
      rcases hmem with hmem | heq
      · exact absurd hmem (hopen reason)
      · cases heq
  | gone reason hstate hended hawaited hlast hnews =>
    have hopen : ∀ reason, .gone reason ∉ news id observer life.asked := by
      intro other hmem
      have hcount := (hstep.farewell hinforms.farewell).gone_once honce
      rw [hnews, List.filter_append, List.length_append] at hcount
      have hnone : (news id observer life.asked).filter News.isGone = [] :=
        List.eq_nil_of_length_eq_zero (Nat.le_zero.1 (Nat.le_of_succ_le_succ hcount))
      exact absurd rfl (List.filter_eq_nil_iff.1 hnone _ hmem)
    have hnone : awaited observer life.chapters = [] := by
      refine List.eq_nil_iff_forall_not_mem.2 fun edge hmem => ?_
      cases hchain : awaited observer life.chapters with
      | nil =>
        rw [hchain] at hmem
        cases hmem
      | cons top below =>
        have hleads := h.leads
        rw [hchain, List.reverse_cons, leads_concat, hended] at hleads
        exact hlast top (hchain ▸ List.mem_cons_self) hleads.2.2.symm
    have hleads := h.leads
    rw [hnone, hended] at hleads
    refine ⟨hnews ▸ h.orderly.concat_gone hopen hleads.symm, ?_, fun _ _ => ?_⟩
    · rw [hnews, hawaited, hnone, reached_concat_gone, hstate, hended]
      exact hleads
    · exact ⟨hstate.trans hended, hawaited.trans hnone⟩

end Life

/-! ## The law -/

namespace Machine

variable {machine next last : Machine A} {moves : List (Move A)} {events : List (Event A)}

/-- The session is where the rounds led that have yet to reach an observer: none has been overtaken. -/
def isPrompt (id : SessionId) (observer : A.Observer) (machine : Machine A) : Bool :=
  (awaited observer (machine.chapters id)).all fun edge => edge.2 = (machine.world.session id).state

/-- Along all of these moves the session is not moved on while a round is under way that has yet to reach an
observer. -/
def isPatient (id : SessionId) (observer : A.Observer) (machine : Machine A) : List (Move A) → Bool
  | [] => true
  | move :: moves =>
    match machine.move move with
    | none => true
    | some (next, _) => next.isPrompt id observer && next.isPatient id observer moves

/-- What is known of the news of an observer that turns out to be registered once. -/
def Telling (id : SessionId) (observer : A.Observer) (life : Life A) : Prop :=
  life.observers.count observer ≤ 1 → life.Informs id observer

theorem step_telling {life next : Life A} (h : Telling id observer life) (hstep : life.Step id next) :
    Telling id observer next := fun honce =>
  hstep.informs honce (h (Nat.le_trans (hstep.observers.sublist.count_le observer) honce))

/-- One move tells an observer nothing out of turn, unless it leaves a round overtaken that has yet to reach it. -/
theorem move_inTurn {signal : Signal A} {ended : Option DisconnectReason} {endings : List DisconnectReason}
    {asked : List (Query A)} (hgoes : machine.Goes next id signal ended)
    (hinforms : Telling id observer (machine.life id endings asked))
    (hprompt : next.isPrompt id observer = true) (honce : next.world.observers.count observer ≤ 1)
    (h : (machine.life id endings asked).InTurn id observer) :
    (next.life id (endings ++ ended.toList) (asked ++ signal.query?.toList)).InTurn id observer := by
  have hsilently {life last : Life A} (hsilent : life.Silently id last) (honce : last.observers.count observer ≤ 1)
      (hinforms : Telling id observer life) (h : life.InTurn id observer) :
      Telling id observer last ∧ last.InTurn id observer := by
    induction hsilent with
    | refl => exact ⟨hinforms, h⟩
    | @tail middle last _ hsilent ih =>
      have hstep : middle.Step id last := .silent hsilent
      have honce' := Nat.le_trans (hstep.observers.sublist.count_le observer) honce
      obtain ⟨hinforms, h⟩ := ih honce'
      have hquiet : last.asked = middle.asked := by cases hsilent <;> rfl
      exact ⟨step_telling hinforms hstep, hstep.inTurn honce (hinforms honce') (.inl hquiet) h⟩
  obtain ⟨middle, hsilent, hsignal⟩ := hgoes endings asked
  cases signal with
  | answers answer =>
    obtain ⟨rfl, rfl⟩ := hsignal
    simpa only [Signal.query?, Option.toList_none, List.append_nil] using (hsilently hsilent honce hinforms h).2
  | asks query =>
    have hstep : middle.Step id _ := .asks hsignal
    have honce' := Nat.le_trans (hstep.observers.sublist.count_le observer) honce
    obtain ⟨hinforms, h⟩ := hsilently hsilent honce' hinforms h
    refine hstep.inTurn honce (hinforms honce') (.inr fun edge hmem => ?_) h
    exact of_decide_eq_true (List.all_eq_true.1 hprompt edge hmem)

theorem run_inTurn : ∀ (moves : List (Move A)) {machine last : Machine A} {events : List (Event A)}
    {endings : List DisconnectReason} {asked : List (Query A)}, id.number < machine.world.ids.next →
    (machine.life id endings asked).Fits id → Telling id observer (machine.life id endings asked) →
    (machine.life id endings asked).InTurn id observer → machine.run moves = some (last, events) →
    last.world.observers.count observer ≤ 1 → machine.isPatient id observer moves = true →
    ∃ endings, (last.life id endings (asked ++ questions events)).InTurn id observer
  | [], machine, last, events, endings, asked, _, _, _, h, hrun, _, _ => by
    cases hrun
    refine ⟨endings, ?_⟩
    rwa [questions, List.filterMap_nil, List.append_nil]
  | move :: moves, machine, last, events, endings, asked, hissued, hfits, hinforms, h, hrun, honce, hpatient => by
    obtain ⟨next, event, later, hmove, hlater, rfl⟩ := exists_of_run_cons hrun
    rw [isPatient, hmove, Bool.and_eq_true] at hpatient
    have hissued' := ((move_edits hmove).rank_le hissued).2
    obtain ⟨ended, hgoes, -⟩ := move_lives hissued hfits hmove
    have hfits' := move_keeps (fun hfits hstep => hstep.fits hfits) hgoes hfits
    have honce' := Nat.le_trans ((run_observers moves hissued' hfits' hlater).sublist.count_le observer) honce
    obtain ⟨endings', hlast⟩ := run_inTurn moves hissued' hfits' (move_keeps step_telling hgoes hinforms)
      (move_inTurn hgoes hinforms hpatient.1 honce' h) hlater honce hpatient.2
    refine ⟨endings', ?_⟩
    rwa [questions_cons, ← List.append_assoc]

/-- **The news of a session.**  Take any run of a session that is Connecting with nothing of it under way, and any
observer that is registered from the start and once only.  The moves that it has been told of, with those of which it is
still to be told, are the session's moves from Connecting to its present state, each of them once.  It is told at most
once that the session has ended, and after a move to Disconnected.  And if the session is never moved on while a round is
under way that has yet to reach it, it hears of the moves in order, from Connecting on, of the session's end in
Disconnected, and of nothing after that. -/
theorem news_in_order (hrun : machine.run moves = some (last, events)) (hissued : id.number < machine.world.ids.next)
    (hstate : (machine.world.session id).state = .connecting) (hidle : machine.chapters id = [])
    (hregistered : observer ∈ machine.world.observers) (honce : last.world.observers.count observer = 1) :
    (∃ chain, Leads .connecting chain (last.world.session id).state ∧
      (edges (news id observer (questions events)) ++ awaited observer (last.chapters id)).Perm chain) ∧
    Departs (news id observer (questions events)) ∧
    (machine.isPatient id observer moves = true → Orderly .connecting (news id observer (questions events))) := by
  have hchapters : (machine.life id [] []).chapters = [] := hidle
  have hawaited : awaited observer (machine.life id [] []).chapters = [] := congrArg (awaited observer) hchapters
  have hfits : (machine.life id [] []).Fits id := by
    intro chapter hmem
    rw [hchapters] at hmem
    cases hmem
  have hinforms : (machine.life id [] []).Informs id observer := by
    refine ⟨hregistered, .before ?_ List.nil_prefix ?_ rfl, fun chapter hmem => ?_, ⟨[], hstate, ?_⟩, ?_⟩
    · intro hended
      cases hstate.symm.trans hended
    · rw [hchapters]
      rfl
    · rw [hchapters] at hmem
      cases hmem
    · rw [hawaited]
      exact .refl _
    · intro before reason hprefix
      exact absurd (List.prefix_nil.1 hprefix) (List.append_ne_nil_of_right_ne_nil before (List.cons_ne_nil _ _))
  have hinTurn : (machine.life id [] []).InTurn id observer := by
    refine ⟨True.intro, ?_, fun _ hmem => absurd hmem List.not_mem_nil⟩
    rw [hawaited]
    exact hstate
  obtain ⟨_, -, hlast⟩ := run_keeps step_telling moves hissued hfits (fun _ => hinforms) hrun
  have hinformed := hlast (Nat.le_of_eq honce)
  rw [List.nil_append] at hinformed
  refine ⟨hinformed.moves, ⟨hinformed.farewell.gone_once (Nat.le_of_eq honce), hinformed.departs⟩, fun hpatient => ?_⟩
  obtain ⟨_, hordered⟩ := run_inTurn moves hissued hfits (fun _ => hinforms) hinTurn hrun (Nat.le_of_eq honce) hpatient
  exact hordered.orderly

end Machine

end Observer

/-! ## Overtaken news -/

/-- Two observers, in the order in which they are registered. -/
inductive Seat where
  | first
  | second
deriving DecidableEq

/-- An application with two observers. -/
def Application.observed : Application := { Application.bare with Observer := Seat }

instance : DecidableEq Application.observed.Observer := inferInstanceAs (DecidableEq Seat)

namespace Machine

/-- A session that both observers watch, and nothing under way. -/
def watched : Machine .observed :=
  ⟨{ (World.ofSession (.start ⟨1⟩ {}) : World .observed) with observers := [Seat.first, Seat.second] }, []⟩

/-- The second observer disconnects the session when it hears that it is connected; then the session has gone. -/
def leftByTheSecond : List (Move .observed) :=
  [.call (.transition ⟨1⟩ .connected), .reply .done, .call (.disconnect ⟨1⟩ .requested false), .reply .done,
    .reply .done, .reply .done, .reply .done, .call (.transition ⟨1⟩ .disconnected), .reply .done, .reply .done,
    .reply .done, .reply .done]

theorem news_in_order_leftByTheSecond :
    ∃ last events, watched.run leftByTheSecond = some (last, events) ∧
      news ⟨1⟩ Seat.second (questions events) =
        [.moved .connecting .connected, .moved .connected .disconnecting, .moved .disconnecting .disconnected,
          .gone .requested] ∧
      Orderly .connecting (news ⟨1⟩ Seat.second (questions events)) := by
  obtain ⟨last, events, hrun, hnews, honce⟩ : ∃ last events, watched.run leftByTheSecond = some (last, events) ∧
      news ⟨1⟩ Seat.second (questions events) =
        [.moved .connecting .connected, .moved .connected .disconnecting, .moved .disconnecting .disconnected,
          .gone .requested] ∧ last.world.observers.count Seat.second = 1 := ⟨_, _, rfl, rfl, rfl⟩
  have hissued : (⟨1⟩ : SessionId).number < watched.world.ids.next := by decide
  obtain ⟨-, -, hordered⟩ := news_in_order hrun hissued rfl rfl (List.mem_cons_of_mem _ List.mem_cons_self) honce
  exact ⟨last, events, hrun, hnews, hordered rfl⟩

/-- The first observer disconnects the session when it hears that it is connected. -/
def leftByTheFirst : List (Move .observed) :=
  [.call (.transition ⟨1⟩ .connected), .call (.disconnect ⟨1⟩ .requested false), .reply .done, .reply .done,
    .reply .done, .reply .done, .reply .done]

/-- **News may be overtaken**: the second observer hears that the session leaves before it hears that it was
connected. -/
theorem overtaken_leftByTheFirst :
    ∃ last events, watched.run leftByTheFirst = some (last, events) ∧ last.waiting.length = 0 ∧
      last.world.observers = [Seat.first, Seat.second] ∧
      news ⟨1⟩ Seat.second (questions events) = [.moved .connected .disconnecting, .moved .connecting .connected] ∧
      ¬ Orderly .connecting (news ⟨1⟩ Seat.second (questions events)) := by
  refine ⟨_, _, rfl, rfl, rfl, rfl, ?_⟩
  rintro ⟨h, -⟩
  cases h

end Machine

end FramedLink
