/-
  Subject:   Runs of refreshes and agent events: every update is applied once and in order, and a
             deleted agent stays away where no refresh brings it back.
-/
import Frogg.Ui.DirectoryTransactions
import Mathlib.Data.List.Induction

namespace Frogg.Ui

open Library List AgentStore Option Function JsMap

variable {Usage Rest Project : Type}

/-! ## 1. What a run has seen -/

namespace DirectoryState

variable (s : DirectoryState Usage Rest Project)

/-- The update that an event brings. -/
def arrivals : DirectoryEvent Usage Rest Project → List (AgentDirectoryDelta Usage Rest Project)
  | .agentUpdate delta => if s.hears then [delta] else []
  | _ => []

/-- The agents whose `agent_deleted` has arrived, and no upsert of them since. -/
def goneAfter (gone : List String) : DirectoryEvent Usage Rest Project → List String
  | .agentUpdate (.upsert agent _ _) =>
    if s.hears then gone.filter fun agentId => agentId ≠ agent.id else gone
  | .agentDeleted agentId => if s.hears then agentId :: gone else gone
  | _ => gone

end DirectoryState

/-- A state with the updates that arrived, the updates that were applied, and the agents gone. -/
structure DirectoryTrace (Usage Rest Project : Type) where
  state : DirectoryState Usage Rest Project
  arrived : List (AgentDirectoryDelta Usage Rest Project)
  applied : List (AgentDirectoryDelta Usage Rest Project)
  gone : List String

namespace DirectoryTrace

variable [DecidableEq Usage] (placements : Placements Project)

omit [DecidableEq Usage] in
def initial (stored : Bool) : DirectoryTrace Usage Rest Project := ⟨.initial stored, [], [], []⟩

def step (t : DirectoryTrace Usage Rest Project) (event : DirectoryEvent Usage Rest Project) :
    DirectoryTrace Usage Rest Project where
  state := (t.state.step placements event).1
  arrived := t.arrived ++ t.state.arrivals event
  applied := t.applied ++ (t.state.step placements event).2.flatMap StoreEffect.updates
  gone := t.state.goneAfter t.gone event

def run (stored : Bool) (events : List (DirectoryEvent Usage Rest Project)) :
    DirectoryTrace Usage Rest Project :=
  events.foldl (step placements) (initial stored)

theorem run_concat (stored : Bool) (events : List (DirectoryEvent Usage Rest Project))
    (event : DirectoryEvent Usage Rest Project) :
    run placements stored (events ++ [event]) =
      (run placements stored events).step placements event := by
  rw [run, foldl_append]
  rfl

end DirectoryTrace

/-! ## 2. Transactions of a run -/

namespace DirectoryState

/-- The updates of the open transaction. -/
def pending (s : DirectoryState Usage Rest Project) :
    List (AgentDirectoryDelta Usage Rest Project) :=
  s.agentTransactions.pending

/-- The open transaction is of the connection there is, and of a refresh that is under way. -/
structure Owned (s : DirectoryState Usage Rest Project) : Prop where
  ofConnection : ∀ transaction, s.agentTransactions.current = some transaction →
    transaction.source = s.connection.source ∧ s.isOnline = true
  ofRefresh : ∀ transaction, s.agentTransactions.current = some transaction →
    ∃ refresh, s.refreshes refresh = some .loadingCache ∨
      ∃ client source, s.refreshes refresh = some (.fetching transaction.number client source)

variable {s : DirectoryState Usage Rest Project}

theorem owned_of_none (h : s.agentTransactions.current = none) : s.Owned :=
  ⟨fun _ ht => by simp [h] at ht, fun _ ht => by simp [h] at ht⟩

attribute [local simp] DirectoryTransactionOwner.pending DirectoryTransactionOwner.isCurrent

/-- The refresh that stops waiting for a transaction was not the one that keeps another open. -/
theorem Owned.without (h : s.Owned) {refresh number : Nat} {client : Option Nat}
    {source : DirectorySourceToken}
    (hstage : s.refreshes refresh = some (.fetching number client source))
    (hother : s.agentTransactions.isCurrent number = false) : (s.setStage refresh none).Owned := by
  refine ⟨h.ofConnection, fun transaction ht => ?_⟩
  obtain ⟨owner, howner⟩ := h.ofRefresh transaction ht
  have hne : owner ≠ refresh := by
    rintro rfl
    rcases howner with hloading | ⟨client', source', hfetching⟩
    · cases hstage.symm.trans hloading
    · have hsame := mem_unique hstage hfetching
      injection hsame with hnumber
      have hcurrent : s.agentTransactions.current = some transaction := ht
      simp [hcurrent, hnumber] at hother
  have hkept : (s.setStage refresh none).refreshes owner = s.refreshes owner :=
    update_of_ne hne _ _
  exact ⟨owner, hkept ▸ howner⟩

/-- What every step does with the updates: applied and still pending, they are those that were
    pending and the one that arrived. -/
structure Balanced (s s' : DirectoryState Usage Rest Project)
    (effects : List (StoreEffect Usage Rest Project))
    (arrivals : List (AgentDirectoryDelta Usage Rest Project)) : Prop where
  updates : effects.flatMap StoreEffect.updates ++ s'.pending = s.pending ++ arrivals
  owned : s'.Owned

theorem flatMap_applyDelta (deltas : List (AgentDirectoryDelta Usage Rest Project)) :
    (deltas.map StoreEffect.applyDelta).flatMap StoreEffect.updates = deltas := by
  rw [flatMap_map]
  exact flatMap_singleton' deltas

theorem pending_of_none (h : s.agentTransactions.current = none) : s.pending = [] := by
  rw [pending, DirectoryTransactionOwner.pending, h]
  rfl

/-- A refresh that begins takes over what is pending. -/
theorem pending_beginRefresh (h : s.Owned) : s.beginRefresh.pending = s.pending := by
  unfold pending beginRefresh DirectoryTransactionOwner.pending
    DirectoryTransactionOwner.beginTransaction
  cases hcurrent : s.agentTransactions.current with
  | none => rfl
  | some transaction =>
    rw [map_some, map_some]
    simp only [(h.ofConnection transaction hcurrent).1, if_true]

theorem owned_beginRefresh (hon : s.isOnline = true) {refresh : Nat} {stage : RefreshStage}
    (hstage : stage = .loadingCache ∨ ∃ client source,
      stage = .fetching s.agentTransactions.nextNumber client source) :
    (s.beginRefresh.setStage refresh (some stage)).Owned := by
  have hself : update s.refreshes refresh (some stage) refresh = some stage :=
    update_self ..
  refine ⟨fun transaction ht => ?_, fun transaction ht => ⟨refresh, ?_⟩⟩
  · obtain rfl := some.inj ht; exact ⟨rfl, hon⟩
  · obtain rfl := some.inj ht
    refine hstage.imp (fun h => ?_) fun ⟨client, source, h⟩ => ⟨client, source, ?_⟩
    · exact hself.trans (congrArg some h)
    · exact hself.trans (congrArg some h)

theorem fetchFrom_balanced (h : s.Owned) (refresh : Nat) :
    Balanced s (s.fetchFrom refresh) [] [] := by
  unfold fetchFrom
  split
  · rename_i hon
    refine ⟨?_, owned_beginRefresh hon (.inr ⟨_, _, rfl⟩)⟩
    rw [append_nil]
    exact pending_beginRefresh h
  · rename_i hoff
    have hnone : s.agentTransactions.current = none := by
      rw [eq_none_iff_forall_ne_some]
      exact fun transaction ht => hoff (h.ofConnection transaction ht).2
    exact ⟨(append_nil _).symm, owned_of_none hnone⟩

section Steps

variable [DecidableEq Usage] (placements : Placements Project)

variable {refresh number : Nat} {source : DirectorySourceToken} {client : Option Nat}

section

variable (h : s.Owned) (hstage : s.refreshes refresh = some (.fetching number client source))
include h hstage

theorem failRefresh_balanced :
    Balanced s (s.failRefresh placements refresh number).1
      (s.failRefresh placements refresh number).2 [] := by
  unfold failRefresh emit
  by_cases hcurrent : s.agentTransactions.isCurrent number = true
  · obtain ⟨transaction, ht, rfl⟩ := map_eq_some_iff.mp (of_decide_eq_true hcurrent)
    have hfail : s.agentTransactions.fail transaction.number =
        (transaction.deltas, { s.agentTransactions with current := none }) := by
      simp [DirectoryTransactionOwner.fail, DirectoryTransactionOwner.complete, ht]
    have hpending : s.pending = transaction.deltas := by simp [pending, ht]
    rw [hfail]
    refine ⟨?_, owned_of_none rfl⟩
    rw [flatMap_applyDelta, pending_of_none rfl, hpending]
  · have hother : s.agentTransactions.isCurrent number = false := by simpa using hcurrent
    have hfail : s.agentTransactions.fail number = ([], s.agentTransactions) := by
      unfold DirectoryTransactionOwner.fail DirectoryTransactionOwner.complete
      cases ht : s.agentTransactions.current with
      | none => rfl
      | some transaction =>
        have hne : transaction.number ≠ number := by rintro rfl; simp [ht] at hcurrent
        simp [hne]
    rw [hfail]
    have howned := h.without hstage hother
    exact ⟨(append_nil _).symm, howned.ofConnection, howned.ofRefresh⟩

theorem receivePage_balanced (page : AgentPage Usage Rest Project) :
    Balanced s (s.receivePage placements refresh page number client source).1
      (s.receivePage placements refresh page number client source).2 [] := by
  unfold receivePage
  split
  · unfold DirectoryTransactionOwner.modifySnapshot
    cases ht : s.agentTransactions.current with
    | none => exact ⟨by simp [pending, ht], owned_of_none rfl⟩
    | some transaction =>
      refine ⟨by simp [pending, ht], ?_, ?_⟩
      · rintro _ ⟨⟩; exact h.ofConnection transaction ht
      · rintro _ ⟨⟩; exact h.ofRefresh transaction ht
  · exact failRefresh_balanced placements h hstage

theorem completeRefresh_balanced (sameSession : Bool) :
    Balanced s (s.completeRefresh placements refresh sameSession number client source).1
      (s.completeRefresh placements refresh sameSession number client source).2 [] := by
  unfold completeRefresh
  split
  · unfold DirectoryTransactionOwner.complete
    cases ht : s.agentTransactions.current with
    | none => exact failRefresh_balanced placements h hstage
    | some transaction =>
      dsimp only
      by_cases hnumber : transaction.number = number
      · rw [if_pos hnumber]
        have hpending : s.pending = transaction.deltas := by simp [pending, ht]
        refine ⟨?_, owned_of_none rfl⟩
        rw [hpending]
        exact congrArg (· ++ []) (append_nil transaction.deltas)
      · rw [if_neg hnumber]; exact failRefresh_balanced placements h hstage
  · exact failRefresh_balanced placements h hstage

end

theorem changeConnection_balanced (h : s.Owned) (connection : DirectoryConnection) :
    Balanced s (s.changeConnection placements connection).1
      (s.changeConnection placements connection).2 [] := by
  unfold changeConnection
  split
  · refine ⟨?_, owned_of_none rfl⟩
    show ((s.agentTransactions.abort.1).map StoreEffect.applyDelta).flatMap StoreEffect.updates ++
      [] = s.pending ++ []
    rw [flatMap_applyDelta]
    rfl
  · rename_i hsame
    obtain ⟨⟨hclient, hsource⟩, honline⟩ : (s.connection.client = connection.client ∧
        s.connection.source = connection.source) ∧
        (s.connection.online = true → connection.online = true) := by simpa [switches] using hsame
    refine ⟨(append_nil _).symm, fun transaction ht => ?_, h.ofRefresh⟩
    obtain ⟨hof, hon⟩ := h.ofConnection transaction ht
    have hon : s.connection.client.isSome = true ∧ s.connection.online = true := by
      simpa [isOnline] using hon
    refine ⟨hof.trans hsource, ?_⟩
    show (connection.client.isSome && connection.online) = true
    rw [← hclient, hon.1, honline hon.2]
    rfl

theorem acceptCache_balanced (h : s.Owned) (cached : CachedAgents Usage Rest Project)
    (sameSession : Bool) :
    Balanced s (s.acceptCache placements cached sameSession).1
      (s.acceptCache placements cached sameSession).2 [] := by
  unfold acceptCache
  split
  · split
    · exact ⟨(append_nil _).symm, h.ofConnection, h.ofRefresh⟩
    · exact ⟨(append_nil _).symm, h.ofConnection, h.ofRefresh⟩
  · exact ⟨(append_nil _).symm, h⟩

theorem updateAgent_direct (h : s.agentTransactions.current = none)
    (delta : AgentDirectoryDelta Usage Rest Project) :
    s.updateAgent placements delta =
      { s with revision := s.revision + 1, cursor := noteLiveCursor s.cursor delta }.emit placements
        [.applyDelta delta] := by
  unfold updateAgent DirectoryTransactionOwner.record
  dsimp only
  rw [h]

theorem updateAgent_recorded {transaction : DirectoryTransaction (AgentSnapshot Usage Rest Project)
      (AgentDirectoryDelta Usage Rest Project)} (h : s.agentTransactions.current = some transaction)
    (hsource : transaction.source = s.connection.source)
    (delta : AgentDirectoryDelta Usage Rest Project) :
    s.updateAgent placements delta =
      ({ s with
          revision := s.revision + 1
          agentTransactions := { s.agentTransactions with
            current := some { transaction with deltas := transaction.deltas ++ [delta] } } },
        []) := by
  unfold updateAgent DirectoryTransactionOwner.record
  dsimp only
  rw [h]
  dsimp only
  rw [if_pos hsource]

/-- An update is recorded where a transaction is open, and applied where none is. -/
theorem updateAgent_balanced (h : s.Owned) (delta : AgentDirectoryDelta Usage Rest Project) :
    Balanced s (s.updateAgent placements delta).1 (s.updateAgent placements delta).2 [delta] := by
  cases ht : s.agentTransactions.current with
  | none =>
    have hnone : s.pending = [] := pending_of_none ht
    rw [updateAgent_direct placements ht]
    refine ⟨?_, owned_of_none ht⟩
    show [delta] ++ s.pending = s.pending ++ [delta]
    rw [hnone]
    rfl
  | some transaction =>
    have hsource := (h.ofConnection transaction ht).1
    rw [updateAgent_recorded placements ht hsource]
    refine ⟨by simp [pending, ht], ?_, ?_⟩
    · rintro _ ⟨⟩; exact ⟨hsource, (h.ofConnection transaction ht).2⟩
    · rintro _ ⟨⟩; exact h.ofRefresh transaction ht

omit [DecidableEq Usage] in
theorem pending_startCacheLoad (s : DirectoryState Usage Rest Project) :
    s.startCacheLoad.pending = s.pending := by
  unfold startCacheLoad
  split <;> rfl

omit [DecidableEq Usage] in
theorem Owned.startCacheLoad {s : DirectoryState Usage Rest Project} {stage : RefreshStage}
    (h : (s.setStage refresh (some stage)).Owned) :
    (s.startCacheLoad.setStage refresh (some stage)).Owned := by
  unfold DirectoryState.startCacheLoad
  split
  · exact ⟨h.ofConnection, h.ofRefresh⟩
  · exact h

omit [DecidableEq Usage] in
/-- A refresh that loads the cache first opens a transaction that no page is of. -/
theorem prime_balanced {s : DirectoryState Usage Rest Project} (h : s.Owned) (refresh : Nat) :
    Balanced s (((if s.isOnline then s.beginRefresh else s).startCacheLoad).setStage refresh
      (some .loadingCache)) [] [] := by
  by_cases hon : s.isOnline = true
  · rw [if_pos hon]
    refine ⟨?_, (owned_beginRefresh hon (.inl rfl)).startCacheLoad⟩
    show s.beginRefresh.startCacheLoad.pending = s.pending ++ []
    rw [pending_startCacheLoad, append_nil]
    exact pending_beginRefresh h
  · rw [if_neg hon]
    have hnone : s.agentTransactions.current = none := by
      rw [eq_none_iff_forall_ne_some]
      exact fun transaction ht => hon (h.ofConnection transaction ht).2
    have howned : (s.setStage refresh (some .loadingCache)).Owned := owned_of_none hnone
    refine ⟨?_, howned.startCacheLoad⟩
    show s.startCacheLoad.pending = s.pending ++ []
    rw [pending_startCacheLoad, append_nil]

/-- **Every step applies and keeps the updates that there are, in their order.** -/
theorem step_balanced (h : s.Owned) (event : DirectoryEvent Usage Rest Project) :
    Balanced s (s.step placements event).1 (s.step placements event).2 (s.arrivals event) := by
  have hidle : Balanced s s [] [] := ⟨(append_nil _).symm, h⟩
  cases event with
  | connectionChanged connection => exact changeConnection_balanced placements h connection
  | loadCachedDirectory =>
    show Balanced s s.startCacheLoad [] []
    unfold startCacheLoad
    split
    · exact ⟨(append_nil _).symm, h.ofConnection, h.ofRefresh⟩
    · exact hidle
  | refreshAgents refresh loadDirectoryCache =>
    show Balanced s (s.startRefresh refresh loadDirectoryCache) [] []
    unfold startRefresh
    split
    · exact hidle
    · split
      · exact prime_balanced h refresh
      · exact fetchFrom_balanced h refresh
  | cacheRead cached sameSession => exact acceptCache_balanced placements h cached sameSession
  | resume refresh =>
    dsimp only [step, arrivals]
    split
    · exact fetchFrom_balanced h refresh
    · exact hidle
  | page refresh page =>
    dsimp only [step, arrivals]
    split
    · exact receivePage_balanced placements h ‹_› page
    · exact hidle
  | complete refresh sameSession =>
    dsimp only [step, arrivals]
    split
    · exact completeRefresh_balanced placements h ‹_› sameSession
    · exact hidle
  | fail refresh =>
    dsimp only [step, arrivals]
    split
    · exact failRefresh_balanced placements h ‹_›
    · exact hidle
  | agentUpdate delta =>
    dsimp only [step, arrivals]
    split
    · exact updateAgent_balanced placements h delta
    · exact hidle
  | agentDeleted agentId =>
    dsimp only [step, arrivals]
    split
    · exact ⟨(append_nil _).symm, h.ofConnection, h.ofRefresh⟩
    · exact hidle
  | agentArchived agentId archivedAt =>
    dsimp only [step, arrivals]
    split
    · exact ⟨(append_nil _).symm, h.ofConnection, h.ofRefresh⟩
    · exact hidle

end Steps

/-! ## 3. What brings an agent back -/

section

variable (s : DirectoryState Usage Rest Project)

/-- The step ends the open transaction without a snapshot. -/
def flushes : DirectoryEvent Usage Rest Project → Bool
  | .connectionChanged connection => s.switches connection
  | .page refresh _ =>
    match s.refreshes refresh with
    | some (.fetching number client source) =>
      s.agentTransactions.isCurrent number && !s.isCurrent client source
    | _ => false
  | .complete refresh sameSession =>
    match s.refreshes refresh with
    | some (.fetching number client source) =>
      s.agentTransactions.isCurrent number && !(s.isCurrent client source && sameSession)
    | _ => false
  | .fail refresh =>
    match s.refreshes refresh with
    | some (.fetching number _ _) => s.agentTransactions.isCurrent number
    | _ => false
  | _ => false

/-- The step commits the snapshot of the open transaction. -/
def commits : DirectoryEvent Usage Rest Project → Bool
  | .complete refresh sameSession =>
    match s.refreshes refresh with
    | some (.fetching number client source) =>
      s.agentTransactions.isCurrent number && (s.isCurrent client source && sameSession)
    | _ => false
  | _ => false

/-- The pages of the open transaction list an agent, and their removals do not. -/
def snapshotLists (agentId : String) : Bool :=
  match s.agentTransactions.current with
  | none => false
  | some transaction =>
    AgentStore.lists transaction.snapshot.entries agentId &&
      !(transaction.snapshot.syncMode = some .changes &&
        transaction.snapshot.syncRemovals.contains agentId)

/-- The event brings back an agent that is not there: the last pending update about it is an
    upsert, or there is none and the snapshot to be committed lists it, or the cache has it. -/
def revives (event : DirectoryEvent Usage Rest Project) (agentId : String) : Bool :=
  (s.flushes event && AgentStore.presentAfter s.pending agentId false) ||
    (s.commits event && AgentStore.presentAfter s.pending agentId (s.snapshotLists agentId)) ||
    match event with
    | .cacheRead cached sameSession => s.takesCache sameSession && cached.agents.has agentId
    | _ => false

end

section Steps

variable [DecidableEq Usage] (placements : Placements Project) {agentId : String}

theorem has_failRefresh (habsent : s.store.agents.has agentId = false) (refresh number : Nat) :
    (s.failRefresh placements refresh number).1.store.agents.has agentId =
      (s.agentTransactions.isCurrent number &&
        presentAfter s.pending agentId false) := by
  show ((((s.agentTransactions.fail number).1).map StoreEffect.applyDelta).foldl
    (StoreEffect.run placements) s.store).agents.has agentId = _
  have hrun : ∀ deltas : List (AgentDirectoryDelta Usage Rest Project),
      ((deltas.map StoreEffect.applyDelta).foldl (StoreEffect.run placements)
        s.store).agents.has agentId = presentAfter deltas agentId false := by
    intro deltas
    rw [foldl_map, ← habsent]
    exact has_applyDeltas placements s.store deltas agentId
  rw [hrun]
  unfold DirectoryTransactionOwner.fail DirectoryTransactionOwner.complete
    DirectoryTransactionOwner.isCurrent pending DirectoryTransactionOwner.pending
  cases s.agentTransactions.current with
  | none => rfl
  | some transaction =>
    by_cases hnumber : transaction.number = number
    · simp [hnumber]
    · simp [hnumber]; rfl

omit [DecidableEq Usage] in
theorem presentAfter_legacy (deltas : List (AgentDirectoryDelta Usage Rest Project))
    (agentId : String) (before : Bool) :
    AgentStore.presentAfter (deltas.map legacyDelta) agentId before =
      AgentStore.presentAfter deltas agentId before := by
  induction deltas generalizing before with
  | nil => rfl
  | cons delta deltas ih =>
    have htarget : (legacyDelta delta).target = delta.target := by cases delta <;> rfl
    have hupsert : (legacyDelta delta).isUpsert = delta.isUpsert := by cases delta <;> rfl
    rw [map_cons, AgentStore.presentAfter_cons, AgentStore.presentAfter_cons, ih, htarget,
      hupsert]

theorem has_commit {store : AgentStore Usage Rest Project} (hkeyed : AgentStore.Keyed store.agents)
    (habsent : store.agents.has agentId = false) (snapshot : AgentSnapshot Usage Rest Project)
    (deltas : List (AgentDirectoryDelta Usage Rest Project)) :
    (StoreEffect.run placements store (.commitSnapshot snapshot deltas)).agents.has agentId =
      presentAfter deltas agentId (AgentStore.lists snapshot.entries agentId &&
        !(snapshot.syncMode = some .changes && snapshot.syncRemovals.contains agentId)) := by
  have hlegacy : ∀ before, presentAfter
      (if snapshot.legacy then deltas.map legacyDelta else deltas) agentId before =
        presentAfter deltas agentId before := by
    intro before
    split
    · exact presentAfter_legacy deltas agentId before
    · rfl
  unfold StoreEffect.run
  dsimp only
  by_cases hmode : snapshot.syncMode = some .changes
  · rw [if_pos hmode, has_commitChanges placements hkeyed _ _ _ habsent, hlegacy]; simp [hmode]
  · rw [if_neg hmode, has_commitSnapshot, hlegacy]; simp [hmode]

theorem has_completeRefresh (hkeyed : AgentStore.Keyed s.store.agents)
    (habsent : s.store.agents.has agentId = false) (refresh number : Nat) (sameSession : Bool)
    (client : Option Nat) (source : DirectorySourceToken) :
    (s.completeRefresh placements refresh sameSession number client source).1.store.agents.has
        agentId =
      if s.isCurrent client source && sameSession then
        s.agentTransactions.isCurrent number &&
          presentAfter s.pending agentId (s.snapshotLists agentId)
      else
        s.agentTransactions.isCurrent number &&
          presentAfter s.pending agentId false := by
  unfold completeRefresh
  split
  · have hfailed := has_failRefresh placements habsent refresh number
    unfold DirectoryTransactionOwner.complete
    cases ht : s.agentTransactions.current with
    | none => rw [hfailed]; simp [ht]
    | some transaction =>
      dsimp only
      by_cases hnumber : transaction.number = number
      · rw [if_pos hnumber]
        have hpending : s.pending = transaction.deltas := by simp [pending, ht]
        have hcurrent : s.agentTransactions.isCurrent number = true := by simp [ht, hnumber]
        have hcommit := has_commit placements hkeyed habsent transaction.snapshot transaction.deltas
        rw [hcurrent, hpending, Bool.true_and]
        unfold snapshotLists
        rw [ht]
        exact hcommit
      · rw [if_neg hnumber]
        have hcurrent : s.agentTransactions.isCurrent number = false := by simp [ht, hnumber]
        rw [hfailed, hcurrent]
        rfl
  · exact has_failRefresh placements habsent refresh number

omit [DecidableEq Usage] in
theorem store_fetchFrom (s : DirectoryState Usage Rest Project) (refresh : Nat) :
    (s.fetchFrom refresh).store = s.store := by
  unfold fetchFrom
  split <;> rfl

omit [DecidableEq Usage] in
theorem store_startRefresh (s : DirectoryState Usage Rest Project) (refresh : Nat)
    (loadDirectoryCache : Bool) : (s.startRefresh refresh loadDirectoryCache).store = s.store := by
  have hload : ∀ s : DirectoryState Usage Rest Project, s.startCacheLoad.store = s.store := by
    intro s
    unfold startCacheLoad
    split <;> rfl
  unfold startRefresh
  split
  · rfl
  · split
    · show ((if s.isOnline then s.beginRefresh else s).startCacheLoad).store = s.store
      rw [hload]
      split <;> rfl
    · exact store_fetchFrom s refresh

/-- **An agent that is not there is there after a step exactly where the step brings it back**, or
    where it is the agent of an update applied at once. -/
theorem has_step (howned : s.Owned) (hkeyed : AgentStore.Keyed s.store.agents)
    (habsent : s.store.agents.has agentId = false) (event : DirectoryEvent Usage Rest Project)
    (hother : ∀ agent project version,
      event = .agentUpdate (.upsert agent project version) → s.hears = true → agent.id ≠ agentId) :
    (s.step placements event).1.store.agents.has agentId = s.revives event agentId := by
  cases event with
  | connectionChanged connection =>
    dsimp only [step, revives, flushes, commits]
    rw [Bool.false_and, Bool.or_false, Bool.or_false]
    unfold changeConnection
    cases s.switches connection with
    | false => exact habsent
    | true =>
      show (((s.pending).map StoreEffect.applyDelta).foldl (StoreEffect.run placements)
        s.store).agents.has agentId = _
      rw [foldl_map, ← habsent]
      exact has_applyDeltas placements s.store s.pending agentId
  | loadCachedDirectory =>
    have hstore : s.startCacheLoad.store = s.store := by
      unfold startCacheLoad
      split <;> rfl
    show s.startCacheLoad.store.agents.has agentId = false
    rw [hstore, habsent]
  | refreshAgents refresh loadDirectoryCache =>
    show (s.startRefresh refresh loadDirectoryCache).store.agents.has agentId = false
    rw [store_startRefresh, habsent]
  | cacheRead cached sameSession =>
    dsimp only [step, revives, flushes, commits]
    unfold acceptCache
    split
    · cases htakes : s.takesCache sameSession with
      | true => exact (Bool.true_and _).symm
      | false => exact habsent
    · rename_i hreading
      have htakes : s.takesCache sameSession = false := by
        unfold takesCache
        split
        · exact absurd ‹_› (hreading _ _)
        · rfl
      rw [htakes]
      exact habsent
  | resume refresh =>
    dsimp only [step, revives, flushes, commits]
    split
    · show (s.fetchFrom refresh).store.agents.has agentId = false; rw [store_fetchFrom, habsent]
    · exact habsent
  | page refresh page =>
    dsimp only [step, revives, flushes, commits]
    cases hstage : s.refreshes refresh with
    | none => exact habsent
    | some stage =>
      cases stage with
      | loadingCache => exact habsent
      | fetching number client source =>
        dsimp only
        rw [Bool.false_and, Bool.or_false, Bool.or_false]
        unfold receivePage
        cases hcurrent : s.agentTransactions.isCurrent number with
        | false => rw [if_neg (by simp), has_failRefresh placements habsent, hcurrent]; rfl
        | true =>
          cases hconnection : s.isCurrent client source with
          | true => exact habsent
          | false => rw [if_neg (by simp), has_failRefresh placements habsent, hcurrent]; rfl
  | complete refresh sameSession =>
    dsimp only [step, revives, flushes, commits]
    cases hstage : s.refreshes refresh with
    | none => exact habsent
    | some stage =>
      cases stage with
      | loadingCache => exact habsent
      | fetching number client source =>
        dsimp only
        rw [Bool.or_false, has_completeRefresh placements hkeyed habsent]
        cases s.isCurrent client source && sameSession <;>
          cases s.agentTransactions.isCurrent number <;> simp
  | fail refresh =>
    dsimp only [step, revives, flushes, commits]
    cases hstage : s.refreshes refresh with
    | none => exact habsent
    | some stage =>
      cases stage with
      | loadingCache => exact habsent
      | fetching number client source =>
        rw [has_failRefresh placements habsent, Bool.false_and, Bool.or_false, Bool.or_false]
  | agentUpdate delta =>
    show (if s.hears then s.updateAgent placements delta else (s, [])).1.store.agents.has agentId =
      false
    split
    · rename_i hhears
      cases ht : s.agentTransactions.current with
      | some transaction =>
        rw [updateAgent_recorded placements ht (howned.ofConnection transaction ht).1]
        exact habsent
      | none =>
        rw [updateAgent_direct placements ht]
        show (s.store.applyDelta placements delta).agents.has agentId = false
        rw [has_applyDelta]
        cases delta with
        | upsert agent project version =>
          exact (if_neg (hother agent project version rfl hhears)).trans habsent
        | remove removed version =>
          split
          · rfl
          · exact habsent
    · exact habsent
  | agentDeleted deleted =>
    show (if s.hears then
      emit placements { s with revision := s.revision + 1 } [.remove deleted] else
        (s, [])).1.store.agents.has agentId = false
    split
    · show (s.store.agents.delete deleted).has agentId = false
      rw [has_delete, habsent, Bool.and_false]
    · exact habsent
  | agentArchived archived archivedAt =>
    show (if s.hears then
      emit placements { s with revision := s.revision + 1 } [.archive archived archivedAt] else
        (s, [])).1.store.agents.has agentId = false
    split
    · show (s.store.archiveAgent archived archivedAt).agents.has agentId = false
      unfold archiveAgent
      split
      · exact habsent
      · rename_i a ha
        have hne : agentId ≠ archived := by
          rintro rfl
          exact absurd (has_iff.mpr ⟨a, ha⟩) (by simp [habsent])
        rw [has_set, habsent, decide_eq_false hne]
        rfl
    · exact habsent

theorem keyed_run {store : AgentStore Usage Rest Project} (h : AgentStore.Keyed store.agents)
    (effect : StoreEffect Usage Rest Project) :
    AgentStore.Keyed (effect.run placements store).agents := by
  have hsnapshot : ∀ (store : AgentStore Usage Rest Project) entries deltas,
      AgentStore.Keyed (store.commitSnapshot placements entries deltas).agents :=
    fun _ _ _ => keyed_fetchedAgents _
  cases effect with
  | applyDelta delta => exact keyed_applyDelta placements h delta
  | commitSnapshot snapshot deltas =>
    unfold StoreEffect.run
    dsimp only
    split
    · exact hsnapshot _ _ _
    · exact hsnapshot _ _ _
  | commitCached cached => exact cached.keyed
  | remove agentId => exact keyed_applyDelta placements h (.remove agentId none)
  | archive agentId archivedAt =>
    show AgentStore.Keyed (store.archiveAgent agentId archivedAt).agents
    unfold archiveAgent
    split
    · exact h
    · rename_i a ha
      intro k b hb
      rw [get?_set] at hb
      split at hb
      · rename_i hk; obtain rfl := some.inj hb; exact (h agentId a ha).trans hk.symm
      · exact h k b hb

/-- The store is what the effects make of it. -/
theorem store_step (s : DirectoryState Usage Rest Project)
    (event : DirectoryEvent Usage Rest Project) :
    (s.step placements event).1.store =
      (s.step placements event).2.foldl (StoreEffect.run placements) s.store := by
  have hfail : ∀ refresh number, (s.failRefresh placements refresh number).1.store =
      (s.failRefresh placements refresh number).2.foldl (StoreEffect.run placements) s.store :=
    fun _ _ => rfl
  cases event with
  | connectionChanged connection =>
    dsimp only [step]
    unfold changeConnection
    split <;> rfl
  | loadCachedDirectory =>
    show s.startCacheLoad.store = s.store
    unfold startCacheLoad
    split <;> rfl
  | refreshAgents refresh loadDirectoryCache => exact store_startRefresh s refresh _
  | cacheRead cached sameSession =>
    dsimp only [step]
    unfold acceptCache
    split
    · split <;> rfl
    · rfl
  | resume refresh =>
    dsimp only [step]
    split
    · exact store_fetchFrom s refresh
    · rfl
  | page refresh page =>
    dsimp only [step]
    split
    · unfold receivePage
      split
      · rfl
      · exact hfail _ _
    · rfl
  | complete refresh sameSession =>
    dsimp only [step]
    split
    · unfold completeRefresh
      split
      · split
        · exact hfail _ _
        · rfl
      · exact hfail _ _
    · rfl
  | fail refresh =>
    dsimp only [step]
    split
    · exact hfail _ _
    · rfl
  | agentUpdate delta =>
    dsimp only [step]
    split
    · unfold updateAgent
      dsimp only
      split <;> rfl
    · rfl
  | agentDeleted agentId =>
    dsimp only [step]
    split <;> rfl
  | agentArchived agentId archivedAt =>
    dsimp only [step]
    split <;> rfl

theorem keyed_step (h : AgentStore.Keyed s.store.agents)
    (event : DirectoryEvent Usage Rest Project) :
    AgentStore.Keyed (s.step placements event).1.store.agents := by
  rw [store_step]
  generalize (s.step placements event).2 = effects
  generalize s.store = store at h
  induction effects generalizing store with
  | nil => exact h
  | cons effect effects ih => exact ih _ (keyed_run placements h effect)

end Steps

end DirectoryState

/-! ## 4. Runs -/

namespace DirectoryTrace

variable [DecidableEq Usage] (placements : Placements Project)

/-- What every run keeps. -/
structure Sound (t : DirectoryTrace Usage Rest Project) : Prop where
  updates : t.applied ++ t.state.pending = t.arrived
  owned : t.state.Owned
  keyed : AgentStore.Keyed t.state.store.agents

variable (t : DirectoryTrace Usage Rest Project)

/-- No agent that is gone is there. -/
def StaysGone : Prop :=
  ∀ agentId ∈ t.gone, t.state.store.agents.has agentId = false

/-- The event brings back none of the agents that are gone. -/
def Spares (event : DirectoryEvent Usage Rest Project) : Prop :=
  ∀ agentId ∈ t.gone, t.state.revives event agentId = false

theorem sound_step {t : DirectoryTrace Usage Rest Project} (h : t.Sound)
    (event : DirectoryEvent Usage Rest Project) : (t.step placements event).Sound := by
  have hbalanced := DirectoryState.step_balanced placements h.owned event
  refine ⟨?_, hbalanced.owned, DirectoryState.keyed_step placements h.keyed event⟩
  show (t.applied ++ (t.state.step placements event).2.flatMap StoreEffect.updates) ++
    (t.state.step placements event).1.pending = t.arrived ++ t.state.arrivals event
  rw [append_assoc, hbalanced.updates, ← append_assoc, h.updates]

omit [DecidableEq Usage] in
/-- An agent is gone after a step where it was and no upsert of it has arrived, or where it has been
    deleted. -/
theorem mem_goneAfter {s : DirectoryState Usage Rest Project} {gone : List String}
    {event : DirectoryEvent Usage Rest Project} {agentId : String} :
    agentId ∈ s.goneAfter gone event ↔
      (agentId ∈ gone ∧ ∀ agent project version,
        event = .agentUpdate (.upsert agent project version) → s.hears = true →
          agent.id ≠ agentId) ∨ (event = .agentDeleted agentId ∧ s.hears = true) := by
  unfold DirectoryState.goneAfter
  cases event with
  | agentUpdate delta =>
    cases delta with
    | upsert agent project version =>
      cases s.hears with
      | true =>
        show agentId ∈ gone.filter (fun agentId => agentId ≠ agent.id) ↔ _
        rw [mem_filter]
        constructor
        · rintro ⟨hmem, hne⟩
          refine .inl ⟨hmem, ?_⟩
          rintro _ _ _ ⟨⟩ -
          exact Ne.symm (of_decide_eq_true hne)
        · rintro (⟨hmem, hother⟩ | ⟨hdeleted, -⟩)
          · exact ⟨hmem, decide_eq_true (hother agent project version rfl rfl).symm⟩
          · cases hdeleted
      | false => simp
    | remove removed version => simp
  | agentDeleted deleted =>
    cases s.hears with
    | true =>
      show agentId ∈ deleted :: gone ↔ _
      rw [mem_cons]
      constructor
      · rintro (rfl | hmem)
        · exact .inr ⟨rfl, rfl⟩
        · exact .inl ⟨hmem, fun _ _ _ => nofun⟩
      · rintro (⟨hmem, -⟩ | ⟨hdeleted, -⟩)
        · exact .inr hmem
        · injection hdeleted with hsame
          exact .inl hsame.symm
    | false => simp
  | connectionChanged connection => simp
  | loadCachedDirectory => simp
  | refreshAgents refresh loadDirectoryCache => simp
  | cacheRead cached sameSession => simp
  | resume refresh => simp
  | page refresh page => simp
  | complete refresh sameSession => simp
  | fail refresh => simp
  | agentArchived archived archivedAt => simp

/-- **A step from a state without the agents that are gone leads to one exactly where it spares
    them.** -/
theorem staysGone_step {t : DirectoryTrace Usage Rest Project} (h : t.Sound) (hgone : t.StaysGone)
    (event : DirectoryEvent Usage Rest Project) :
    (t.step placements event).StaysGone ↔ t.Spares event := by
  constructor
  · intro hafter agentId hmem
    by_cases hupsert : ∃ agent project version,
        event = .agentUpdate (.upsert agent project version) ∧ t.state.hears = true ∧
          agent.id = agentId
    · obtain ⟨agent, project, version, rfl, -, -⟩ := hupsert; rfl
    · have hother : ∀ agent project version,
          event = .agentUpdate (.upsert agent project version) → t.state.hears = true →
            agent.id ≠ agentId :=
        fun agent project version hevent hhears hid =>
          hupsert ⟨agent, project, version, hevent, hhears, hid⟩
      rw [← DirectoryState.has_step placements h.owned h.keyed (hgone agentId hmem) event hother]
      exact hafter agentId (mem_goneAfter.mpr (.inl ⟨hmem, hother⟩))
  · intro hspares agentId hmem
    show (t.state.step placements event).1.store.agents.has agentId = false
    rcases mem_goneAfter.mp hmem with ⟨hwas, hother⟩ | ⟨rfl, hhears⟩
    · rw [DirectoryState.has_step placements h.owned h.keyed (hgone agentId hwas) event hother]
      exact hspares agentId hwas
    · dsimp only [DirectoryState.step]
      rw [if_pos hhears]
      show (t.state.store.agents.delete agentId).has agentId = false
      rw [has_delete]
      simp

theorem sound_run (stored : Bool) (events : List (DirectoryEvent Usage Rest Project)) :
    (run placements stored events).Sound := by
  induction events using reverseRecOn with
  | nil =>
    exact ⟨rfl, DirectoryState.owned_of_none rfl, fun k a h => by
      simp [run, initial, DirectoryState.initial, AgentStore.empty] at h⟩
  | append_singleton events event ih => rw [run_concat]; exact sound_step placements ih event

/-- **Every update that arrived is applied once and in order, but for those that an open
    transaction still holds; none is held when no refresh is under way; and no agent that is gone
    is there, in any state of a run, exactly where no event of the run brings one back.** -/
theorem updates_survive_refreshes (placements : Placements Project) (stored : Bool)
    (events : List (DirectoryEvent Usage Rest Project)) :
    (run placements stored events).applied ++ (run placements stored events).state.pending =
        (run placements stored events).arrived ∧
      ((∀ refresh, (run placements stored events).state.refreshes refresh = none) →
        (run placements stored events).state.pending = []) ∧
      ((∀ seen rest, events = seen ++ rest → (run placements stored seen).StaysGone) ↔
        ∀ seen event rest, events = seen ++ event :: rest →
          (run placements stored seen).Spares event) := by
  have hsound := sound_run placements stored events
  refine ⟨hsound.updates, fun hsettled => ?_, ?_, ?_⟩
  · refine DirectoryState.pending_of_none (eq_none_iff_forall_ne_some.mpr fun open' ht => ?_)
    obtain ⟨refresh, hstage⟩ := hsound.owned.ofRefresh open' ht
    rcases hstage with hstage | ⟨client, source, hstage⟩
    · cases (hsettled refresh).symm.trans hstage
    · cases (hsettled refresh).symm.trans hstage
  · intro hgone seen event rest hevents
    have hbefore := hgone seen (event :: rest) hevents
    have hafter := hgone (seen ++ [event]) rest (by rw [hevents, append_assoc]; rfl)
    rw [run_concat] at hafter
    exact (staysGone_step placements (sound_run placements stored seen) hbefore event).mp hafter
  · intro hspares seen
    induction seen using reverseRecOn with
    | nil => exact fun _ _ agentId hmem => absurd hmem not_mem_nil
    | append_singleton seen event ih =>
      intro rest hevents
      rw [append_assoc] at hevents
      have hbefore := ih ([event] ++ rest) hevents
      rw [run_concat]
      exact (staysGone_step placements (sound_run placements stored seen) hbefore event).mpr
        (hspares seen event rest hevents)

/-- The first page of a refresh lists an agent, the agent is deleted, and the refresh completes. -/
def deletedDuringRefresh : List (DirectoryEvent Unit Unit Unit) :=
  [.connectionChanged ⟨some 0, true, ⟨1, 1⟩⟩, .refreshAgents 0 false,
    .page 0 ⟨[⟨⟨"agent-1", some 0, "idle", "/repo", none, none, none, ()⟩, ()⟩], none, none, false⟩,
    .agentDeleted "agent-1", .complete 0 true]

/-- **A page older than the deletion brings the agent back.** -/
theorem deleted_agent_comes_back :
    (∀ refresh, (run ⟨fun _ => (), fun _ => (), fun _ => none⟩ true
      deletedDuringRefresh).state.refreshes refresh = none) ∧
      "agent-1" ∈ (run ⟨fun _ => (), fun _ => (), fun _ => none⟩ true deletedDuringRefresh).gone ∧
      (run ⟨fun _ => (), fun _ => (), fun _ => none⟩ true
        deletedDuringRefresh).state.store.agents.has "agent-1" = true := by
  refine ⟨fun refresh => ?_, by decide, by decide⟩
  cases refresh with
  | zero => rfl
  | succ refresh => rfl

end DirectoryTrace

end Frogg.Ui
