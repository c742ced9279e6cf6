/-
  Subject:   The agents of a host as the app holds them (apps/ui/src/utils/agent-directory-sync.ts,
             agent-directory-reconciliation.ts, agent-directory-update-policy.ts and
             apps/ui/src/runtime/directory-sync/agent-replica.ts).

  What else the store keeps of an agent (streams, drafts, permissions, liveness) follows the
  agents and is left out, and so are the lifecycle versions, which only timeline and cache reads
  look at.
-/
import Frogg.Library.JsMap

namespace Frogg.Ui

open Library List JsMap

/-! ## 1. Agents and updates -/

/-- The fields of an `AgentSnapshotPayload` that the directory looks at. `updatedAt` is none where
    the date does not parse. -/
structure Agent (Usage Rest : Type) where
  id : String
  updatedAt : Option Int
  status : String
  cwd : String
  workspaceId : Option String
  archivedAt : Option Int
  lastUsage : Option Usage
  rest : Rest
  deriving DecidableEq

/-- An `Agent` of the store. -/
structure ReplicaAgent (Usage Rest Project : Type) where
  agent : Agent Usage Rest
  projectPlacement : Option Project
  deriving DecidableEq

/-- `FetchAgentsEntry` -/
structure FetchAgentsEntry (Usage Rest Project : Type) where
  agent : Agent Usage Rest
  project : Project
  deriving DecidableEq

/-- The payload of an `agent_update`, with its generation and number. -/
inductive AgentDirectoryDelta (Usage Rest Project : Type) where
  | upsert (agent : Agent Usage Rest) (project : Option Project) (version : Option (String × Nat))
  | remove (agentId : String) (version : Option (String × Nat))
  deriving DecidableEq

variable {Usage Rest Project : Type}

namespace AgentDirectoryDelta

def target : AgentDirectoryDelta Usage Rest Project → String
  | upsert agent _ _ => agent.id
  | remove agentId _ => agentId

def version : AgentDirectoryDelta Usage Rest Project → Option (String × Nat)
  | upsert _ _ version => version
  | remove _ version => version

def isUpsert : AgentDirectoryDelta Usage Rest Project → Bool
  | upsert _ _ _ => true
  | remove _ _ => false

end AgentDirectoryDelta

/-- Where a directory without a placement is put, and the workspace of a directory with an old
    daemon. -/
structure Placements (Project : Type) where
  deriveProjectPlacementFromCwd : String → Project
  placementOfUpdate : String → Project
  legacyWorkspaceId : String → Option String

/-! ## 2. Which of two versions is kept -/

/-- What `acceptAgentDirectoryUpdate` returns: one of the two objects, or a copy of it with the
    usage of the other. -/
inductive Acceptance where
  | incoming | incomingWithUsage | current | currentWithUsage
  deriving DecidableEq

/-- `timestamp(incoming) >= timestamp(current)`, false for a date that does not parse. -/
def notOlder : Option Int → Option Int → Bool
  | some incoming, some current => incoming ≥ current
  | _, _ => false

section Acceptance

variable [DecidableEq Usage] (current : Option (Agent Usage Rest)) (incoming : Agent Usage Rest)

def acceptance : Acceptance :=
  match current with
  | none => .incoming
  | some c =>
    if notOlder incoming.updatedAt c.updatedAt then
      if incoming.lastUsage = none ∧ c.lastUsage ≠ none then .incomingWithUsage else .incoming
    else if incoming.lastUsage = none then .current
    else if incoming.lastUsage = c.lastUsage then .current
    else .currentWithUsage

/-- `acceptAgentDirectoryUpdate` of two agents. -/
def acceptAgentDirectoryUpdate : Agent Usage Rest :=
  match current, acceptance current incoming with
  | none, _ => incoming
  | some _, .incoming => incoming
  | some c, .incomingWithUsage => { incoming with lastUsage := c.lastUsage }
  | some c, .current => c
  | some c, .currentWithUsage => { c with lastUsage := incoming.lastUsage }

/-- `acceptAgentDirectoryUpdate` of two agents of the store. -/
def acceptReplica (current : Option (ReplicaAgent Usage Rest Project))
    (incoming : ReplicaAgent Usage Rest Project) : ReplicaAgent Usage Rest Project :=
  match current, acceptance (current.map ReplicaAgent.agent) incoming.agent with
  | none, _ => incoming
  | some _, .incoming => incoming
  | some c, .incomingWithUsage =>
    { incoming with agent := { incoming.agent with lastUsage := c.agent.lastUsage } }
  | some c, .current => c
  | some c, .currentWithUsage =>
    { c with agent := { c.agent with lastUsage := incoming.agent.lastUsage } }

end Acceptance

/-! ## 3. Single updates -/

/-- `agents` and `agentDetails` of a session. -/
structure AgentStore (Usage Rest Project : Type) where
  agents : JsMap String (ReplicaAgent Usage Rest Project)
  agentDetails : JsMap String (ReplicaAgent Usage Rest Project)

namespace AgentStore

def empty : AgentStore Usage Rest Project := ⟨.empty, .empty⟩

/-- `removeAgentDirectoryReplica` -/
def removeAgent (store : AgentStore Usage Rest Project) (agentId : String) :
    AgentStore Usage Rest Project :=
  ⟨store.agents.delete agentId, store.agentDetails.delete agentId⟩

/-- `archive` -/
def archiveAgent (store : AgentStore Usage Rest Project) (agentId : String) (archivedAt : Int) :
    AgentStore Usage Rest Project :=
  match store.agents.get? agentId with
  | none => store
  | some a =>
    { store with
      agents := store.agents.set agentId
        { a with agent := { a.agent with archivedAt := some archivedAt } } }

variable [DecidableEq Usage] (placements : Placements Project)

section

variable (store : AgentStore Usage Rest Project)

/-- `upsertAgentDirectoryReplica` -/
def upsertAgent (agent : Agent Usage Rest)
    (project : Option Project) : AgentStore Usage Rest Project :=
  let previous := (store.agents.get? agent.id).or (store.agentDetails.get? agent.id)
  let legacyWorkspaceId := (previous.bind fun p => p.agent.workspaceId).or
    (placements.legacyWorkspaceId agent.cwd)
  let incoming : ReplicaAgent Usage Rest Project :=
    ⟨{ agent with workspaceId := agent.workspaceId.or legacyWorkspaceId },
      some (project.getD (placements.deriveProjectPlacementFromCwd agent.cwd))⟩
  { store with
    agents := store.agents.set agent.id (acceptReplica (store.agents.get? agent.id) incoming) }

/-- `applyAgentDirectoryDelta` -/
def applyDelta : AgentDirectoryDelta Usage Rest Project → AgentStore Usage Rest Project
  | .remove agentId _ => store.removeAgent agentId
  | .upsert agent project _ => store.upsertAgent placements agent project

/-! ## 4. Snapshots -/

/-- One recorded update on the entries of a snapshot, in the loop of `reconcileAgentDirectory`. -/
def reconcileDelta (entries : JsMap String (FetchAgentsEntry Usage Rest Project)) :
    AgentDirectoryDelta Usage Rest Project → JsMap String (FetchAgentsEntry Usage Rest Project)
  | .remove agentId _ => entries.delete agentId
  | .upsert agent project _ =>
    let previous := entries.get? agent.id
    let previousProject := previous.map FetchAgentsEntry.project
    let previousAgent := previous.map FetchAgentsEntry.agent
    let acceptedProject :=
      if acceptance previousAgent agent = .incoming then project.or previousProject
      else previousProject
    entries.set agent.id
      ⟨acceptAgentDirectoryUpdate previousAgent agent,
        acceptedProject.getD (placements.placementOfUpdate agent.cwd)⟩

/-- The entries of `reconcileAgentDirectory`. -/
def reconcileAgentDirectory (snapshot : List (FetchAgentsEntry Usage Rest Project))
    (deltas : List (AgentDirectoryDelta Usage Rest Project)) :
    JsMap String (FetchAgentsEntry Usage Rest Project) :=
  deltas.foldl (reconcileDelta placements)
    (.ofList (snapshot.map fun entry => (entry.agent.id, entry)))

variable (entries : List (FetchAgentsEntry Usage Rest Project))

/-- `buildAgentDirectoryState`: the agents of fetched entries. -/
def fetchedAgents : JsMap String (ReplicaAgent Usage Rest Project) :=
  .ofList (entries.map fun entry => (entry.agent.id, ⟨entry.agent, some entry.project⟩))

/-- `replaceFetchedAgentDirectory` -/
def replaceFetched : AgentStore Usage Rest Project :=
  let agents := fetchedAgents entries
  ⟨agents, agents.keys.foldl delete store.agentDetails⟩

/-- `commitSnapshot` -/
def commitSnapshot
    (deltas : List (AgentDirectoryDelta Usage Rest Project)) : AgentStore Usage Rest Project :=
  let reconciled := (reconcileAgentDirectory placements entries deltas).values
  let nextIds := reconciled.map fun entry => entry.agent.id
  let dropped := store.agents.keys.filter fun agentId => agentId ∉ nextIds
  (dropped.foldl removeAgent store).replaceFetched reconciled

/-- `projectAgentDirectoryEntry` -/
def projectAgentDirectoryEntry (a : ReplicaAgent Usage Rest Project) :
    Option (FetchAgentsEntry Usage Rest Project) :=
  a.projectPlacement.map fun project => ⟨a.agent, project⟩

/-- `merged`, in `commitChanges`. -/
def mergedEntries : JsMap String (FetchAgentsEntry Usage Rest Project) :=
  .ofList ((store.agents.values.filterMap projectAgentDirectoryEntry ++ entries).map fun entry =>
    (entry.agent.id, entry))

/-- `commitChanges` -/
def commitChanges (removals : List String)
    (deltas : List (AgentDirectoryDelta Usage Rest Project)) : AgentStore Usage Rest Project :=
  store.commitSnapshot placements (store.mergedEntries entries).values
    (removals.map (fun id => .remove id none) ++ deltas)

end

/-! ## 5. Which agents are held -/

variable (deltas : List (AgentDirectoryDelta Usage Rest Project))

/-- The last of some updates about an agent. -/
def lastUpdate (agentId : String) : Option (AgentDirectoryDelta Usage Rest Project) :=
  deltas.reverse.find? fun delta => delta.target = agentId

/-- Whether an agent is there after updates: as the last of them about it says, else as before. -/
def presentAfter (agentId : String) (before : Bool) : Bool :=
  ((lastUpdate deltas agentId).map AgentDirectoryDelta.isUpsert).getD before

/-- Whether one of the entries is of the agent. -/
def lists (entries : List (FetchAgentsEntry Usage Rest Project)) (agentId : String) : Bool :=
  entries.any fun entry => entry.agent.id = agentId

omit [DecidableEq Usage] in
theorem presentAfter_cons (delta : AgentDirectoryDelta Usage Rest Project)
    (deltas : List (AgentDirectoryDelta Usage Rest Project)) (agentId : String) (before : Bool) :
    presentAfter (delta :: deltas) agentId before =
      presentAfter deltas agentId (if delta.target = agentId then delta.isUpsert else before) := by
  unfold presentAfter lastUpdate
  rw [reverse_cons, find?_append]
  cases deltas.reverse.find? fun delta => decide (delta.target = agentId) with
  | some last => rfl
  | none =>
    by_cases h : delta.target = agentId
    · simp [h]
    · simp [h]

omit [DecidableEq Usage] in
theorem presentAfter_append (deltas later : List (AgentDirectoryDelta Usage Rest Project))
    (agentId : String) (before : Bool) :
    presentAfter (deltas ++ later) agentId before =
      presentAfter later agentId (presentAfter deltas agentId before) := by
  induction deltas generalizing before with
  | nil => rfl
  | cons delta deltas ih => rw [cons_append, presentAfter_cons, ih, presentAfter_cons]

section

variable {κ α : Type} [DecidableEq κ] {m : JsMap κ α} {k k' : κ} {a : α}

theorem has_set_eq_ite : (m.set k a).has k' = if k = k' then true else m.has k' := by
  rw [has_set]
  by_cases h : k' = k
  · simp [h]
  · simp [h, Ne.symm h]

theorem has_delete_eq_ite : (m.delete k).has k' = if k = k' then false else m.has k' := by
  rw [has_delete]
  by_cases h : k' = k
  · simp [h]
  · simp [h, Ne.symm h]

end

variable (store : AgentStore Usage Rest Project)

theorem has_applyDelta (delta : AgentDirectoryDelta Usage Rest Project) (agentId : String) :
    (store.applyDelta placements delta).agents.has agentId =
      if delta.target = agentId then delta.isUpsert else store.agents.has agentId := by
  cases delta with
  | upsert agent project version => exact has_set_eq_ite
  | remove removed version => exact has_delete_eq_ite

theorem has_applyDeltas (deltas : List (AgentDirectoryDelta Usage Rest Project)) (agentId : String) :
    (deltas.foldl (applyDelta placements) store).agents.has agentId =
      presentAfter deltas agentId (store.agents.has agentId) := by
  induction deltas generalizing store with
  | nil => rfl
  | cons delta deltas ih => rw [foldl_cons, ih, has_applyDelta, presentAfter_cons]

theorem has_reconcileDelta (entries : JsMap String (FetchAgentsEntry Usage Rest Project))
    (delta : AgentDirectoryDelta Usage Rest Project) (agentId : String) :
    (reconcileDelta placements entries delta).has agentId =
      if delta.target = agentId then delta.isUpsert else entries.has agentId := by
  cases delta with
  | upsert agent project version => exact has_set_eq_ite
  | remove removed version => exact has_delete_eq_ite

variable (snapshot : List (FetchAgentsEntry Usage Rest Project))

variable (deltas : List (AgentDirectoryDelta Usage Rest Project))

theorem has_reconcile (agentId : String) :
    (reconcileAgentDirectory placements snapshot deltas).has agentId =
      presentAfter deltas agentId (lists snapshot agentId) := by
  have hfold : ∀ entries : JsMap String (FetchAgentsEntry Usage Rest Project),
      (deltas.foldl (reconcileDelta placements) entries).has agentId =
        presentAfter deltas agentId (entries.has agentId) := by
    induction deltas with
    | nil => exact fun _ => rfl
    | cons delta deltas ih =>
      intro entries
      rw [foldl_cons, ih, has_reconcileDelta, presentAfter_cons]
  unfold reconcileAgentDirectory
  rw [hfold, has_ofList, any_map]
  rfl

/-! ## 6. Agents under their own id -/

/-- Each entry is kept under the id of its agent. -/
def EntriesKeyed (entries : JsMap String (FetchAgentsEntry Usage Rest Project)) : Prop :=
  ∀ k entry, entries.get? k = some entry → entry.agent.id = k

/-- Each agent is kept under its id. -/
def Keyed (agents : JsMap String (ReplicaAgent Usage Rest Project)) : Prop :=
  ∀ k a, agents.get? k = some a → a.agent.id = k

theorem accept_id {current : Option (Agent Usage Rest)} {incoming : Agent Usage Rest}
    (h : ∀ c, current = some c → c.id = incoming.id) :
    (acceptAgentDirectoryUpdate current incoming).id = incoming.id := by
  cases current with
  | none => rfl
  | some c =>
    have hc := h c rfl
    unfold acceptAgentDirectoryUpdate
    cases acceptance (some c) incoming <;> first | rfl | exact hc

theorem acceptReplica_id {current : Option (ReplicaAgent Usage Rest Project)}
    {incoming : ReplicaAgent Usage Rest Project}
    (h : ∀ c, current = some c → c.agent.id = incoming.agent.id) :
    (acceptReplica current incoming).agent.id = incoming.agent.id := by
  cases current with
  | none => rfl
  | some c =>
    have hc := h c rfl
    unfold acceptReplica
    cases acceptance ((some c).map ReplicaAgent.agent) incoming.agent <;> first | rfl | exact hc

theorem keyed_reconcile : EntriesKeyed (reconcileAgentDirectory placements snapshot deltas) := by
  have hstep : ∀ (entries : JsMap String (FetchAgentsEntry Usage Rest Project))
      (delta : AgentDirectoryDelta Usage Rest Project), EntriesKeyed entries →
      EntriesKeyed (reconcileDelta placements entries delta) := by
    intro entries delta hentries k entry h
    cases delta with
    | upsert agent project version =>
      unfold reconcileDelta at h
      rw [get?_set] at h
      split at h
      · rename_i hk
        obtain rfl := Option.some.inj h
        rw [hk]
        refine accept_id fun c hc => ?_
        obtain ⟨previous, hprevious, rfl⟩ := Option.map_eq_some_iff.mp hc
        exact hentries agent.id previous hprevious
      · exact hentries k entry h
    | remove removed version =>
      unfold reconcileDelta at h
      obtain ⟨-, h⟩ := get?_delete_eq_some.mp h
      exact hentries k entry h
  have hfirst : EntriesKeyed
      (.ofList (snapshot.map fun entry => (entry.agent.id, entry)) :
        JsMap String (FetchAgentsEntry Usage Rest Project)) := by
    intro k entry h
    obtain ⟨listed, -, heq⟩ := mem_map.mp (mem_of_get?_ofList h)
    obtain ⟨rfl, rfl⟩ := Prod.mk.inj heq
    rfl
  unfold reconcileAgentDirectory
  generalize ofList (snapshot.map fun entry => (entry.agent.id, entry)) = entries at hfirst
  induction deltas generalizing entries with
  | nil => exact hfirst
  | cons delta deltas ih => exact ih _ (hstep entries delta hfirst)

omit [DecidableEq Usage] in
theorem keyed_fetchedAgents (entries : List (FetchAgentsEntry Usage Rest Project)) :
    Keyed (fetchedAgents entries) := by
  intro k a h
  obtain ⟨entry, -, heq⟩ := mem_map.mp (mem_of_get?_ofList h)
  obtain ⟨rfl, rfl⟩ := Prod.mk.inj heq
  rfl

theorem keyed_applyDelta {store : AgentStore Usage Rest Project} (h : Keyed store.agents)
    (delta : AgentDirectoryDelta Usage Rest Project) :
    Keyed (store.applyDelta placements delta).agents := by
  intro k a ha
  cases delta with
  | upsert agent project version =>
    unfold applyDelta upsertAgent at ha
    rw [get?_set] at ha
    split at ha
    · rename_i hk
      obtain rfl := Option.some.inj ha
      rw [hk]
      exact acceptReplica_id fun c hc => h agent.id c hc
    · exact h k a ha
  | remove removed version =>
    unfold applyDelta removeAgent at ha
    obtain ⟨-, ha⟩ := get?_delete_eq_some.mp ha
    exact h k a ha

/-! ## 7. Which agents a snapshot leaves -/

omit [DecidableEq Usage] in
theorem lists_values {entries : JsMap String (FetchAgentsEntry Usage Rest Project)}
    (h : EntriesKeyed entries) (agentId : String) :
    lists entries.values agentId = entries.has agentId := by
  unfold lists
  rw [Bool.eq_iff_iff, any_eq_true, has_iff]
  constructor
  · rintro ⟨entry, hentry, hid⟩
    obtain ⟨k, hk⟩ := mem_values_iff.mp hentry
    obtain rfl : k = agentId := (h k entry hk).symm.trans (of_decide_eq_true hid)
    exact ⟨entry, hk⟩
  · rintro ⟨entry, hentry⟩
    exact ⟨entry, mem_values_iff.mpr ⟨agentId, hentry⟩,
      decide_eq_true (h agentId entry hentry)⟩

/-- **After a snapshot and the updates on top of it, the agents are those of the snapshot, each
    update counted.** -/
theorem has_commitSnapshot (entries : List (FetchAgentsEntry Usage Rest Project))
    (deltas : List (AgentDirectoryDelta Usage Rest Project)) (agentId : String) :
    (store.commitSnapshot placements entries deltas).agents.has agentId =
      presentAfter deltas agentId (lists entries agentId) := by
  rw [← has_reconcile placements, ← lists_values (keyed_reconcile placements entries deltas)]
  show (fetchedAgents _).has agentId = _
  rw [fetchedAgents, has_ofList, any_map]
  rfl

omit [DecidableEq Usage] in
theorem presentAfter_removals (removals : List String) (agentId : String) (before : Bool) :
    presentAfter (removals.map fun id =>
      (.remove id none : AgentDirectoryDelta Usage Rest Project)) agentId before =
      (before && !removals.contains agentId) := by
  induction removals generalizing before with
  | nil => simp [presentAfter, lastUpdate]
  | cons id removals ih =>
    rw [map_cons, presentAfter_cons, ih, contains_cons]
    by_cases h : id = agentId
    · simp [AgentDirectoryDelta.target, AgentDirectoryDelta.isUpsert, h]
    · have hne : (agentId == id) = false := by simpa using Ne.symm h
      simp [AgentDirectoryDelta.target, h, hne]

/-- An agent that was not there is there after changes where they list it. -/
theorem has_commitChanges {store : AgentStore Usage Rest Project} (hkeyed : Keyed store.agents)
    (entries : List (FetchAgentsEntry Usage Rest Project)) (removals : List String)
    (deltas : List (AgentDirectoryDelta Usage Rest Project)) {agentId : String}
    (habsent : store.agents.has agentId = false) :
    (store.commitChanges placements entries removals deltas).agents.has agentId =
      presentAfter deltas agentId (lists entries agentId && !removals.contains agentId) := by
  have hmerged : lists (store.mergedEntries entries).values agentId = lists entries agentId := by
    have hentries : EntriesKeyed (store.mergedEntries entries) := by
      intro k entry h
      obtain ⟨listed, -, heq⟩ := mem_map.mp (mem_of_get?_ofList h)
      obtain ⟨rfl, rfl⟩ := Prod.mk.inj heq
      rfl
    have hold : (store.agents.values.filterMap projectAgentDirectoryEntry).any
        (fun entry => decide (entry.agent.id = agentId)) = false := by
      rw [any_eq_false]
      intro entry hentry hid
      obtain ⟨a, ha, hproject⟩ := mem_filterMap.mp hentry
      obtain ⟨k, hk⟩ := mem_values_iff.mp ha
      obtain ⟨project, -, rfl⟩ := Option.map_eq_some_iff.mp hproject
      obtain rfl : k = agentId := (hkeyed k a hk).symm.trans (of_decide_eq_true hid)
      exact absurd (has_iff.mpr ⟨a, hk⟩) (by simp [habsent])
    rw [lists_values hentries, mergedEntries, has_ofList, any_map, any_append]
    show ((store.agents.values.filterMap projectAgentDirectoryEntry).any
      (fun entry => decide (entry.agent.id = agentId)) || lists entries agentId) = _
    rw [hold, Bool.false_or]
  rw [commitChanges, has_commitSnapshot, presentAfter_append, presentAfter_removals, hmerged]

end AgentStore

end Frogg.Ui
