/-
  Subject:   Commits of changed entries, removals and recorded updates to the agents of a host
             (apps/ui/src/runtime/directory-sync/agent-replica.ts and
             apps/ui/src/utils/agent-directory-reconciliation.ts), with every field of an agent and
             the lifecycle versions.

  What else the store keeps of an agent (details, drafts, streams, permissions, last activity) and
  which agents stopped running is left out. A removal stands for the `remove` it is turned into.
-/
import Frogg.Ui.AgentReplica
import Frogg.Ui.AgentSnapshots

namespace Frogg.Ui.Snapshots

open Library List JsMap

variable {Value Project : Type}

/-! ## 1. Entries, updates and the replica -/

structure FetchAgentsEntry (Value Project : Type) where
  agent : AgentSnapshotPayload Value
  project : Project
  deriving DecidableEq

/-- The payload of an `agent_update`. -/
inductive AgentDirectoryDelta (Value Project : Type) where
  | upsert (agent : AgentSnapshotPayload Value) (project : Option Project)
  | remove (agentId : String)
  deriving DecidableEq

/-- The replica, with the agents of its session in the store. -/
structure AgentDirectoryReplica (Value Project : Type) where
  serverId : String
  lifecycleVersions : JsMap String Nat
  members : JsMap String Unit
  pendingCacheReads : JsMap String Unit
  agents : JsMap String (Agent Value Project)
  keyed : ∀ agentId agent, agents.get? agentId = some agent → agent.id = agentId

/-! ## 2. Reconciling -/

section Reconcile

variable [DecidableEq Value] (placementOfUpdate : String → Project)

variable (current : Option (AgentSnapshotPayload Value))

variable (incoming : AgentSnapshotPayload Value)

def acceptance : Acceptance :=
  match current with
  | none => .incoming
  | some c =>
    if notOlder (newDate incoming.updatedAt) (newDate c.updatedAt) then
      if incoming.lastUsage = none ∧ c.lastUsage ≠ none then .incomingWithUsage else .incoming
    else if incoming.lastUsage = none then .current
    else if incoming.lastUsage = c.lastUsage then .current
    else .currentWithUsage

def acceptAgentDirectoryUpdate : AgentSnapshotPayload Value :=
  match current, acceptance current incoming with
  | none, _ => incoming
  | some _, .incoming => incoming
  | some c, .incomingWithUsage => { incoming with lastUsage := c.lastUsage }
  | some c, .current => c
  | some c, .currentWithUsage => { c with lastUsage := incoming.lastUsage }

/-- What an upsert makes of the entry with its id. -/
def acceptedEntry (previousEntry : Option (FetchAgentsEntry Value Project))
    (agent : AgentSnapshotPayload Value) (project : Option Project) :
    FetchAgentsEntry Value Project :=
  let previousProject := previousEntry.map FetchAgentsEntry.project
  let previousAgent := previousEntry.map FetchAgentsEntry.agent
  let acceptedProject :=
    if acceptance previousAgent agent = .incoming then project.or previousProject
    else previousProject
  ⟨acceptAgentDirectoryUpdate previousAgent agent,
    acceptedProject.getD (placementOfUpdate agent.cwd)⟩

def reconcileDelta (entries : JsMap String (FetchAgentsEntry Value Project)) :
    AgentDirectoryDelta Value Project → JsMap String (FetchAgentsEntry Value Project)
  | .remove agentId => entries.delete agentId
  | .upsert agent project =>
    entries.set agent.id
      (acceptedEntry placementOfUpdate (entries.get? agent.id) agent project)

/-- The map of entries that `reconcileAgentDirectory` ends with. -/
def reconcileAgentDirectory (snapshot : List (FetchAgentsEntry Value Project))
    (deltas : List (AgentDirectoryDelta Value Project)) :
    JsMap String (FetchAgentsEntry Value Project) :=
  deltas.foldl (reconcileDelta placementOfUpdate)
    (.ofList (snapshot.map fun entry => (entry.agent.id, entry)))

end Reconcile

/-! ## 3. Committing -/

variable (serverId : String)

/-- An agent of `buildAgentDirectoryState`. -/
def fetchedAgent (entry : FetchAgentsEntry Value Project) : Agent Value Project :=
  { (normalizeAgentSnapshot entry.agent serverId : Agent Value Project) with
    projectPlacement := some entry.project }

section

variable (entries : List (FetchAgentsEntry Value Project))

/-- The agents of `replaceFetchedAgentDirectory`, which keeps the object of an agent that is
    equal. -/
def fetchedAgents : JsMap String (Agent Value Project) :=
  .ofList (entries.map fun entry => (entry.agent.id, fetchedAgent serverId entry))

theorem fetchedAgents_keyed (agentId : String) (agent : Agent Value Project)
    (h : (fetchedAgents serverId entries).get? agentId = some agent) : agent.id = agentId := by
  obtain ⟨entry, -, heq⟩ := mem_map.mp (mem_of_get?_ofList h)
  obtain ⟨rfl, rfl⟩ := Prod.mk.inj heq
  rfl

end

def advance (versions : JsMap String Nat) (agentId : String) : JsMap String Nat :=
  versions.set agentId ((versions.get? agentId).getD 0 + 1)

/-- The outer none is an error, the inner one an agent without a placement. -/
def projectAgentDirectoryEntry (agent : Agent Value Project) :
    Option (Option (FetchAgentsEntry Value Project)) :=
  match agent.projectPlacement with
  | none => some none
  | some project => (projectAgentSnapshot agent).map fun payload => some ⟨payload, project⟩

/-- `removalsAsDeltas` before the deltas, in `commitChanges`. -/
def changesOf (removals : List String) (deltas : List (AgentDirectoryDelta Value Project)) :
    List (AgentDirectoryDelta Value Project) :=
  removals.map .remove ++ deltas

/-- All of an agent but where it is put. -/
def Agent.unplaced (agent : Agent Value Project) : Agent Value Project :=
  { agent with projectPlacement := none }

namespace AgentDirectoryReplica

variable (replica : AgentDirectoryReplica Value Project)

/-- The version of `captureTimeline`. -/
def lifecycleVersion (agentId : String) : Nat :=
  (replica.lifecycleVersions.get? agentId).getD 0

/-- A new replica of a host without a session. -/
def new (serverId : String) : AgentDirectoryReplica Value Project where
  serverId
  lifecycleVersions := .empty
  members := .empty
  pendingCacheReads := .empty
  agents := .empty
  keyed := fun _ _ h => absurd h (Option.some_ne_none _).symm

def captureCache (agentId : String) : AgentDirectoryReplica Value Project :=
  { replica with pendingCacheReads := replica.pendingCacheReads.set agentId () }

/-- Of agents as the cache reads them: each under its id. -/
def commitCached (agents : List (Agent Value Project)) : AgentDirectoryReplica Value Project :=
  { replica with
    members := .ofList (agents.map fun agent => (agent.id, ()))
    agents := .ofList (agents.map fun agent => (agent.id, agent))
    keyed := by
      intro agentId agent h
      obtain ⟨read, -, heq⟩ := mem_map.mp (mem_of_get?_ofList h)
      obtain ⟨rfl, rfl⟩ := Prod.mk.inj heq
      rfl }

variable [DecidableEq Value] (placementOfUpdate : String → Project)

variable (replica : AgentDirectoryReplica Value Project)

variable (entries : List (FetchAgentsEntry Value Project))

def commitSnapshot
    (deltas : List (AgentDirectoryDelta Value Project)) : AgentDirectoryReplica Value Project :=
  let reconciled := (reconcileAgentDirectory placementOfUpdate entries deltas).values
  let nextIds : JsMap String Unit := .ofList (reconciled.map fun entry => (entry.agent.id, ()))
  let unread := replica.pendingCacheReads.keys.filter fun agentId => !nextIds.has agentId
  let left := replica.members.keys.filter fun agentId => !nextIds.has agentId
  let entered := nextIds.keys.filter fun agentId => !replica.members.has agentId
  { serverId := replica.serverId
    lifecycleVersions :=
      entered.foldl advance (left.foldl advance (unread.foldl advance replica.lifecycleVersions))
    members := nextIds
    pendingCacheReads := .empty
    agents := fetchedAgents replica.serverId reconciled
    keyed := fetchedAgents_keyed replica.serverId reconciled }

/-- `merged`, in `commitChanges`; none where an agent cannot be sent. -/
def mergedEntries : Option (JsMap String (FetchAgentsEntry Value Project)) := do
  let projected ← replica.agents.values.mapM fun agent =>
    (projectAgentDirectoryEntry agent).map fun entry => entry.map (agent.id, ·)
  return .ofList (projected.reduceOption ++ entries.map fun entry => (entry.agent.id, entry))

/-- None where an agent cannot be sent. -/
def commitChanges (removals : List String) (deltas : List (AgentDirectoryDelta Value Project)) :
    Option (AgentDirectoryReplica Value Project) := do
  let merged ← replica.mergedEntries entries
  return replica.commitSnapshot placementOfUpdate merged.values (changesOf removals deltas)

end AgentDirectoryReplica

/-! ## 4. One agent among the others -/

section OneAgent

variable [DecidableEq Value] (placementOfUpdate : String → Project)

/-- What an update does to the entry of one agent. -/
def reconcileAt (agentId : String) (entry : Option (FetchAgentsEntry Value Project)) :
    AgentDirectoryDelta Value Project → Option (FetchAgentsEntry Value Project)
  | .remove removed => if removed = agentId then none else entry
  | .upsert agent project =>
    if agent.id = agentId then some (acceptedEntry placementOfUpdate entry agent project)
    else entry

section

variable (entries : JsMap String (FetchAgentsEntry Value Project))

theorem get?_reconcileDelta (delta : AgentDirectoryDelta Value Project) (agentId : String) :
    (reconcileDelta placementOfUpdate entries delta).get? agentId =
      reconcileAt placementOfUpdate agentId (entries.get? agentId) delta := by
  cases delta with
  | remove removed =>
    show (entries.delete removed).get? agentId = if removed = agentId then none else _
    rw [get?_delete]
    exact if_congr eq_comm rfl rfl
  | upsert agent project =>
    show (entries.set agent.id _).get? agentId = if agent.id = agentId then some _ else _
    rw [get?_set]
    by_cases h : agentId = agent.id
    · rw [if_pos h, if_pos h.symm, h]
    · rw [if_neg h, if_neg (Ne.symm h)]

theorem get?_reconcileDeltas (deltas : List (AgentDirectoryDelta Value Project))
    (entries : JsMap String (FetchAgentsEntry Value Project)) (agentId : String) :
    (deltas.foldl (reconcileDelta placementOfUpdate) entries).get? agentId =
      deltas.foldl (reconcileAt placementOfUpdate agentId) (entries.get? agentId) := by
  induction deltas generalizing entries with
  | nil => rfl
  | cons delta deltas ih => rw [foldl_cons, ih, get?_reconcileDelta, foldl_cons]

theorem id_acceptAgentDirectoryUpdate {current : Option (AgentSnapshotPayload Value)}
    {incoming : AgentSnapshotPayload Value} (h : ∀ c, current = some c → c.id = incoming.id) :
    (acceptAgentDirectoryUpdate current incoming).id = incoming.id := by
  unfold acceptAgentDirectoryUpdate
  split
  · rfl
  · rfl
  · rfl
  · exact h _ rfl
  · rename_i c _; exact h c rfl

/-- Each entry is kept under the id of its agent. -/
def EntriesKeyed : Prop :=
  ∀ agentId entry, entries.get? agentId = some entry → entry.agent.id = agentId

end

omit [DecidableEq Value] in
theorem entriesKeyed_ofList {l : List (String × FetchAgentsEntry Value Project)}
    (h : ∀ e ∈ l, e.2.agent.id = e.1) : EntriesKeyed (.ofList l) :=
  fun _ _ hget => h _ (mem_of_get?_ofList hget)

variable {entries : JsMap String (FetchAgentsEntry Value Project)}

omit [DecidableEq Value] in
theorem EntriesKeyed.get?_ofList_values (h : EntriesKeyed entries) {α : Type}
    (f : FetchAgentsEntry Value Project → α) (agentId : String) :
    (JsMap.ofList (entries.values.map fun entry => (entry.agent.id, f entry))).get? agentId =
      (entries.get? agentId).map f :=
  JsMap.get?_ofList_values (fun entry : FetchAgentsEntry Value Project => entry.agent.id) f
    (fun id entry => h id entry) agentId

theorem EntriesKeyed.reconcileDelta (h : EntriesKeyed entries)
    (delta : AgentDirectoryDelta Value Project) :
    EntriesKeyed (reconcileDelta placementOfUpdate entries delta) := by
  intro agentId entry hget
  rw [get?_reconcileDelta] at hget
  cases delta with
  | remove removed =>
    by_cases hid : removed = agentId
    · rw [reconcileAt, if_pos hid] at hget; cases hget
    · rw [reconcileAt, if_neg hid] at hget; exact h agentId entry hget
  | upsert agent project =>
    by_cases hid : agent.id = agentId
    · rw [reconcileAt, if_pos hid] at hget
      obtain rfl := Option.some.inj hget
      refine (id_acceptAgentDirectoryUpdate fun c hc => ?_).trans hid
      obtain ⟨previous, hprevious, rfl⟩ := Option.map_eq_some_iff.mp hc
      exact (h agentId previous hprevious).trans hid.symm
    · rw [reconcileAt, if_neg hid] at hget; exact h agentId entry hget

theorem EntriesKeyed.reconcileDeltas (h : EntriesKeyed entries)
    (deltas : List (AgentDirectoryDelta Value Project)) :
    EntriesKeyed (deltas.foldl (Snapshots.reconcileDelta placementOfUpdate) entries) := by
  induction deltas generalizing entries with
  | nil => exact h
  | cons delta deltas ih => exact ih (h.reconcileDelta placementOfUpdate delta)

/-- Upserted by one of the updates, and removed by none after it. -/
def UpsertedLast (deltas : List (AgentDirectoryDelta Value Project)) (agentId : String) : Prop :=
  ∃ before agent project later, deltas = before ++ .upsert agent project :: later ∧
    agent.id = agentId ∧ .remove agentId ∉ later

omit [DecidableEq Value] in
theorem upsertedLast_cons (delta : AgentDirectoryDelta Value Project)
    (deltas : List (AgentDirectoryDelta Value Project)) (agentId : String) :
    UpsertedLast (delta :: deltas) agentId ↔ UpsertedLast deltas agentId ∨
      (∃ agent project, delta = .upsert agent project ∧ agent.id = agentId) ∧
        .remove agentId ∉ deltas := by
  constructor
  · intro h
    obtain ⟨before, agent, project, later, heq, hid, hlater⟩ := h
    cases before with
    | nil => obtain ⟨rfl, rfl⟩ := List.cons.inj heq; exact .inr ⟨⟨agent, project, rfl, hid⟩, hlater⟩
    | cons first before =>
      obtain ⟨rfl, rfl⟩ := List.cons.inj heq
      exact .inl ⟨before, agent, project, later, rfl, hid, hlater⟩
  · intro h
    rcases h with hlater | ⟨⟨agent, project, rfl, hid⟩, hremove⟩
    · obtain ⟨before, agent, project, later, rfl, hid, hlater⟩ := hlater
      exact ⟨delta :: before, agent, project, later, rfl, hid, hlater⟩
    · exact ⟨[], agent, project, deltas, rfl, hid, hremove⟩

/-- **Which agents there are after updates.** -/
theorem isSome_reconcileAt (deltas : List (AgentDirectoryDelta Value Project)) (agentId : String)
    (entry : Option (FetchAgentsEntry Value Project)) :
    (deltas.foldl (reconcileAt placementOfUpdate agentId) entry).isSome = true ↔
      UpsertedLast deltas agentId ∨ entry.isSome = true ∧ .remove agentId ∉ deltas := by
  induction deltas generalizing entry with
  | nil =>
    have hnone : ¬ UpsertedLast ([] : List (AgentDirectoryDelta Value Project)) agentId := by
      intro h
      obtain ⟨before, agent, project, later, heq, -⟩ := h
      simp at heq
    simp [hnone]
  | cons delta deltas ih =>
    rw [foldl_cons, ih, upsertedLast_cons, mem_cons, not_or]
    cases delta with
    | remove removed =>
      by_cases hid : removed = agentId
      · simp [reconcileAt, hid]
      · simp [reconcileAt, hid, Ne.symm hid]
    | upsert agent project =>
      by_cases hid : agent.id = agentId
      · rw [reconcileAt, if_pos hid]
        constructor
        · intro h; exact .inl (h.imp id fun h => ⟨⟨agent, project, rfl, hid⟩, h.2⟩)
        · intro h
          rcases h with (hlater | hhere) | hbefore
          · exact .inl hlater
          · exact .inr ⟨rfl, hhere.2⟩
          · exact .inr ⟨rfl, hbefore.2.2⟩
      · simp [reconcileAt, hid]

theorem reconcileAt_removals (removals : List String) (agentId : String)
    (entry : Option (FetchAgentsEntry Value Project)) :
    (removals.map AgentDirectoryDelta.remove).foldl (reconcileAt placementOfUpdate agentId) entry =
      if agentId ∈ removals then none else entry := by
  induction removals generalizing entry with
  | nil => rfl
  | cons removed removals ih =>
    rw [map_cons, foldl_cons, ih, reconcileAt]
    by_cases hid : removed = agentId
    · simp [hid]
    · simp [hid, Ne.symm hid]

/-- An agent that no update is about keeps its entry. -/
theorem reconcileAt_of_unmentioned {deltas : List (AgentDirectoryDelta Value Project)}
    {agentId : String} (hupsert : ∀ agent project, .upsert agent project ∈ deltas →
      agent.id ≠ agentId) (hremove : .remove agentId ∉ deltas)
    (entry : Option (FetchAgentsEntry Value Project)) :
    deltas.foldl (reconcileAt placementOfUpdate agentId) entry = entry := by
  induction deltas generalizing entry with
  | nil => rfl
  | cons delta deltas ih =>
    rw [mem_cons, not_or] at hremove
    have hstep : reconcileAt placementOfUpdate agentId entry delta = entry := by
      cases delta with
      | remove removed => exact if_neg fun hid => hremove.1 (by rw [hid])
      | upsert agent project => exact if_neg (hupsert agent project mem_cons_self)
    rw [foldl_cons, hstep]
    exact ih (fun agent project h => hupsert agent project (mem_cons_of_mem _ h)) hremove.2 _

end OneAgent

/-! ## 5. The newest of what came in -/

section Newest

variable [DecidableEq Value] (placementOfUpdate : String → Project)

/-- The snapshots of an agent that one of its entries was made of. -/
def candidatesAt (agentId : String) (candidates : List (AgentSnapshotPayload Value)) :
    AgentDirectoryDelta Value Project → List (AgentSnapshotPayload Value)
  | .remove removed => if removed = agentId then [] else candidates
  | .upsert agent _ => if agent.id = agentId then candidates ++ [agent] else candidates

/-- One of the candidates that none is newer than, but for the usage. -/
def NewestOf (candidates : List (AgentSnapshotPayload Value))
    (accepted : AgentSnapshotPayload Value) : Prop :=
  ∃ newest ∈ candidates, accepted = { newest with lastUsage := accepted.lastUsage } ∧
    ∀ candidate ∈ candidates,
      notOlder (newDate newest.updatedAt) (newDate candidate.updatedAt) = true

variable {a : Option Int}

omit [DecidableEq Value] in
theorem notOlder_trans {b c : Option Int} (hab : notOlder a b = true) (hbc : notOlder b c = true) :
    notOlder a c = true := by
  cases a <;> cases b <;> cases c <;> simp [notOlder] at *
  omega

omit [DecidableEq Value] in
theorem notOlder_self (h : a ≠ none) : notOlder a a = true := by
  obtain ⟨ms, rfl⟩ := Option.ne_none_iff_exists'.mp h
  exact decide_eq_true (Int.le_refl ms)

omit [DecidableEq Value] in
theorem notOlder_of_not {b : Option Int} (ha : a ≠ none) (hb : b ≠ none) (h : notOlder a b ≠ true) :
    notOlder b a = true := by
  obtain ⟨x, rfl⟩ := Option.ne_none_iff_exists'.mp ha
  obtain ⟨y, rfl⟩ := Option.ne_none_iff_exists'.mp hb
  simp [notOlder] at *
  omega

variable {candidates : List (AgentSnapshotPayload Value)}

/-- Where the times parse, an accepted update leaves the newest of what there was. -/
theorem NewestOf.accept {current incoming : AgentSnapshotPayload Value}
    (h : NewestOf candidates current)
    (hdates : ∀ candidate ∈ candidates, newDate candidate.updatedAt ≠ none)
    (hincoming : newDate incoming.updatedAt ≠ none) :
    NewestOf (candidates ++ [incoming]) (acceptAgentDirectoryUpdate (some current) incoming) := by
  obtain ⟨newest, hmem, hcurrent, hnewest⟩ := h
  have hdate : current.updatedAt = newest.updatedAt := by rw [hcurrent]
  have hforward : notOlder (newDate incoming.updatedAt) (newDate current.updatedAt) = true →
      ∀ candidate ∈ candidates ++ [incoming],
        notOlder (newDate incoming.updatedAt) (newDate candidate.updatedAt) = true := by
    intro hlater candidate hcandidate
    rcases mem_append.mp hcandidate with hold | hnew
    · exact notOlder_trans (hdate ▸ hlater) (hnewest candidate hold)
    · obtain rfl := mem_singleton.mp hnew; exact notOlder_self hincoming
  have hback : notOlder (newDate incoming.updatedAt) (newDate current.updatedAt) ≠ true →
      ∀ candidate ∈ candidates ++ [incoming],
        notOlder (newDate newest.updatedAt) (newDate candidate.updatedAt) = true := by
    intro hearlier candidate hcandidate
    rcases mem_append.mp hcandidate with hold | hnew
    · exact hnewest candidate hold
    · obtain rfl := mem_singleton.mp hnew
      exact hdate ▸ notOlder_of_not hincoming (hdate ▸ hdates newest hmem) hearlier
  unfold acceptAgentDirectoryUpdate acceptance
  dsimp only
  by_cases hlater : notOlder (newDate incoming.updatedAt) (newDate current.updatedAt) = true
  · rw [if_pos hlater]
    refine ⟨incoming, mem_append_right _ (mem_singleton_self _), ?_, hforward hlater⟩
    by_cases husage : incoming.lastUsage = none ∧ current.lastUsage ≠ none
    · rw [if_pos husage]
    · rw [if_neg husage]
  · rw [if_neg hlater]
    refine ⟨newest, mem_append_left _ hmem, ?_, hback hlater⟩
    by_cases hnone : incoming.lastUsage = none
    · rw [if_pos hnone]; exact hcurrent
    · rw [if_neg hnone]
      by_cases hsame : incoming.lastUsage = current.lastUsage
      · rw [if_pos hsame]; exact hcurrent
      · rw [if_neg hsame, hcurrent]

section

variable (candidates : List (AgentSnapshotPayload Value))

/-- One snapshot after the other is offered. -/
def acceptAll : Option (AgentSnapshotPayload Value) :=
  candidates.foldl (fun current incoming => some (acceptAgentDirectoryUpdate current incoming)) none

theorem acceptAll_concat (incoming : AgentSnapshotPayload Value) :
    acceptAll (candidates ++ [incoming]) =
      some (acceptAgentDirectoryUpdate (acceptAll candidates) incoming) := by
  unfold acceptAll
  rw [foldl_append]
  rfl

end

/-- **Of snapshots with times that parse the newest is accepted.** -/
theorem newestOf_acceptAll {accepted : AgentSnapshotPayload Value}
    (h : acceptAll candidates = some accepted)
    (hdates : ∀ candidate ∈ candidates, newDate candidate.updatedAt ≠ none) :
    NewestOf candidates accepted := by
  induction candidates using reverseRecOn generalizing accepted with
  | nil => cases h
  | append_singleton candidates incoming ih =>
    rw [acceptAll_concat] at h
    obtain rfl := Option.some.inj h
    have hbefore : ∀ candidate ∈ candidates, newDate candidate.updatedAt ≠ none :=
      fun candidate hcandidate => hdates candidate (mem_append_left _ hcandidate)
    have hincoming : newDate incoming.updatedAt ≠ none :=
      hdates incoming (mem_append_right _ (mem_singleton_self _))
    cases hcurrent : acceptAll candidates with
    | some current => exact (ih hcurrent hbefore).accept hbefore hincoming
    | none =>
      have hempty : candidates = [] := by
        induction candidates using reverseRecOn with
        | nil => rfl
        | append_singleton candidates last _ => rw [acceptAll_concat] at hcurrent; cases hcurrent
      rw [hempty]
      refine ⟨incoming, mem_singleton_self _, rfl, fun candidate hcandidate => ?_⟩
      obtain rfl := mem_singleton.mp hcandidate
      exact notOlder_self hincoming

/-- An entry holds what is accepted of its candidates. -/
theorem agent_reconcileAts {entry : Option (FetchAgentsEntry Value Project)}
    (h : entry.map FetchAgentsEntry.agent = acceptAll candidates) (agentId : String)
    (deltas : List (AgentDirectoryDelta Value Project)) :
    (deltas.foldl (reconcileAt placementOfUpdate agentId) entry).map FetchAgentsEntry.agent =
      acceptAll (deltas.foldl (candidatesAt agentId) candidates) := by
  induction deltas generalizing candidates entry with
  | nil => exact h
  | cons delta deltas ih =>
    refine ih ?_
    cases delta with
    | remove removed =>
      unfold candidatesAt reconcileAt
      dsimp only
      by_cases hid : removed = agentId
      · rw [if_pos hid, if_pos hid]; rfl
      · rw [if_neg hid, if_neg hid]; exact h
    | upsert agent project =>
      unfold candidatesAt reconcileAt
      dsimp only
      by_cases hid : agent.id = agentId
      · rw [if_pos hid, if_pos hid, acceptAll_concat, ← h]; rfl
      · rw [if_neg hid, if_neg hid]; exact h

end Newest

/-! ## 6. The versions -/

theorem get?_advanced (agentIds : List String) (versions : JsMap String Nat) (agentId : String) :
    ((agentIds.foldl advance versions).get? agentId).getD 0 =
      (versions.get? agentId).getD 0 + agentIds.count agentId := by
  induction agentIds generalizing versions with
  | nil => rfl
  | cons first agentIds ih =>
    rw [foldl_cons, ih, count_cons, advance, get?_set]
    by_cases h : agentId = first
    · simp only [h, if_pos, Option.getD_some, beq_self_eq_true]; omega
    · simp [h, Ne.symm h]

/-- Of the ids of a set those that another set lacks. -/
theorem count_lacking (ids others : JsMap String Unit) (agentId : String) :
    (ids.keys.filter fun id => !others.has id).count agentId =
      if ids.has agentId = true ∧ others.has agentId = false then 1 else 0 := by
  have hnodup : (ids.keys.filter fun id => !others.has id).Nodup := ids.nodup.filter _
  rw [hnodup.count]
  refine if_congr ?_ rfl rfl
  rw [mem_filter, mem_keys_iff, ← has_iff, Bool.not_eq_true']

theorem id_projectAgentDirectoryEntry {agent : Agent Value Project}
    {entry : FetchAgentsEntry Value Project}
    (h : (projectAgentDirectoryEntry agent).join = some entry) : entry.agent.id = agent.id := by
  unfold projectAgentDirectoryEntry at h
  cases hplacement : agent.projectPlacement with
  | none => simp [hplacement] at h
  | some project =>
    rw [hplacement] at h
    cases hpayload : projectAgentSnapshot agent with
    | none => simp [hpayload] at h
    | some payload =>
      rw [hpayload] at h
      obtain rfl := Option.some.inj h
      exact id_projectAgentSnapshot hpayload

namespace AgentDirectoryReplica

variable [DecidableEq Value] (placementOfUpdate : String → Project)

section

variable (replica : AgentDirectoryReplica Value Project)

variable (entries : List (FetchAgentsEntry Value Project))

/-- **How the version of an agent goes on.** -/
theorem lifecycleVersion_commitSnapshot
    (deltas : List (AgentDirectoryDelta Value Project)) (agentId : String) :
    (replica.commitSnapshot placementOfUpdate entries deltas).lifecycleVersion agentId =
      replica.lifecycleVersion agentId +
        (if replica.pendingCacheReads.has agentId = true ∧
          (replica.commitSnapshot placementOfUpdate entries deltas).members.has agentId = false
          then 1 else 0) +
        (if replica.members.has agentId = true ∧
          (replica.commitSnapshot placementOfUpdate entries deltas).members.has agentId = false
          then 1 else 0) +
        (if (replica.commitSnapshot placementOfUpdate entries deltas).members.has agentId = true ∧
          replica.members.has agentId = false then 1 else 0) := by
  rw [← count_lacking, ← count_lacking, ← count_lacking]
  show ((foldl advance (foldl advance (foldl advance _ _) _) _).get? _).getD 0 = _
  rw [get?_advanced, get?_advanced, get?_advanced]
  rfl

/-! ## 7. Commits -/

variable (agentId : String)

/-- The last of the entries that are of the agent. -/
def listedEntry : Option (FetchAgentsEntry Value Project) :=
  entries.reverse.find? fun entry => entry.agent.id = agentId

/-- The entry that an agent of the store is sent as. -/
def storedEntry : Option (FetchAgentsEntry Value Project) :=
  (replica.agents.get? agentId).bind fun agent => (projectAgentDirectoryEntry agent).join

/-- The entry that the updates of a commit find. -/
def entryBefore : Option (FetchAgentsEntry Value Project) :=
  (listedEntry entries agentId).or (replica.storedEntry agentId)

end

omit [DecidableEq Value] in
theorem get?_ofList_entries (entries : List (FetchAgentsEntry Value Project)) (agentId : String) :
    (ofList (entries.map fun entry => (entry.agent.id, entry))).get? agentId =
      listedEntry entries agentId := by
  rw [get?_ofList, ← map_reverse, find?_map, Option.map_map]
  exact Option.map_id'

section

variable (replica : AgentDirectoryReplica Value Project)

/-- The agents and the members of a commit are those of the reconciled entries. -/
theorem get?_commitSnapshot
    {merged : JsMap String (FetchAgentsEntry Value Project)} (hkeyed : EntriesKeyed merged)
    (deltas : List (AgentDirectoryDelta Value Project)) (agentId : String) :
    (replica.commitSnapshot placementOfUpdate merged.values deltas).agents.get? agentId =
        (deltas.foldl (reconcileAt placementOfUpdate agentId) (merged.get? agentId)).map
          (fetchedAgent replica.serverId) ∧
      (replica.commitSnapshot placementOfUpdate merged.values deltas).members.has agentId =
        (deltas.foldl (reconcileAt placementOfUpdate agentId) (merged.get? agentId)).isSome := by
  have hbase : ∀ id, (ofList (merged.values.map fun entry =>
      (entry.agent.id, entry))).get? id = merged.get? id := by
    intro id
    rw [hkeyed.get?_ofList_values fun entry => entry]
    exact Option.map_id'
  have hentries : EntriesKeyed (reconcileAgentDirectory placementOfUpdate merged.values deltas) := by
    refine EntriesKeyed.reconcileDeltas placementOfUpdate (fun id entry h => ?_) deltas
    rw [hbase] at h
    exact hkeyed id entry h
  have hget : (reconcileAgentDirectory placementOfUpdate merged.values deltas).get? agentId =
      deltas.foldl (reconcileAt placementOfUpdate agentId) (merged.get? agentId) := by
    unfold reconcileAgentDirectory
    rw [get?_reconcileDeltas, hbase]
  constructor
  · show (ofList _).get? agentId = _
    rw [hentries.get?_ofList_values (fetchedAgent replica.serverId), hget]
  · show (ofList _).has agentId = _
    unfold has
    rw [hentries.get?_ofList_values fun _ => (), hget, Option.isSome_map]

/-- Every agent with a placement can be sent. -/
def Sendable : Prop :=
  ∀ agentId agent, replica.agents.get? agentId = some agent → agent.projectPlacement ≠ none →
    HasValidDates agent

end

theorem mapM_eq_some_map {α β : Type} {f : α → Option β} {g : α → β} {l : List α}
    (h : ∀ a ∈ l, f a = some (g a)) : l.mapM f = some (l.map g) := by
  induction l with
  | nil => rfl
  | cons a l ih => rw [mapM_cons, h a mem_cons_self, ih fun b hb => h b (mem_cons_of_mem _ hb)]; rfl

variable {replica : AgentDirectoryReplica Value Project}

omit [DecidableEq Value] in
theorem mergedEntries_of_sendable (h : replica.Sendable)
    (entries : List (FetchAgentsEntry Value Project)) :
    ∃ merged, replica.mergedEntries entries = some merged ∧ EntriesKeyed merged ∧
      ∀ agentId, merged.get? agentId = replica.entryBefore entries agentId := by
  let entryOf (agent : Agent Value Project) := (projectAgentDirectoryEntry agent).join
  have hprojected : replica.agents.values.mapM (fun agent =>
      (projectAgentDirectoryEntry agent).map fun entry => entry.map (agent.id, ·)) =
        some (replica.agents.values.map fun agent => (entryOf agent).map (agent.id, ·)) := by
    refine mapM_eq_some_map fun agent hagent => ?_
    obtain ⟨agentId, hget⟩ := mem_values_iff.mp hagent
    cases hplacement : agent.projectPlacement with
    | none => simp [entryOf, projectAgentDirectoryEntry, hplacement]
    | some project =>
      obtain ⟨payload, hpayload⟩ := projectAgentSnapshot_of_valid
        (h agentId agent hget (by simp [hplacement]))
      simp [entryOf, projectAgentDirectoryEntry, hplacement, hpayload]
  have hstored : (replica.agents.values.map fun agent =>
      (entryOf agent).map (agent.id, ·)).reduceOption =
        replica.agents.values.filterMap fun agent => (entryOf agent).map (agent.id, ·) := by
    unfold reduceOption
    rw [filterMap_map]
    rfl
  refine ⟨.ofList (replica.agents.values.filterMap (fun agent =>
    (entryOf agent).map (agent.id, ·)) ++ entries.map fun entry => (entry.agent.id, entry)),
    ?_, ?_, fun agentId => ?_⟩
  · unfold mergedEntries; rw [hprojected, ← hstored]; rfl
  · refine entriesKeyed_ofList fun e he => ?_
    rcases mem_append.mp he with hstoredEntry | hentry
    · obtain ⟨agent, -, he⟩ := mem_filterMap.mp hstoredEntry
      obtain ⟨entry, hentry, rfl⟩ := Option.map_eq_some_iff.mp he
      exact id_projectAgentDirectoryEntry hentry
    · obtain ⟨entry, -, rfl⟩ := mem_map.mp hentry; rfl
  · rw [get?_ofList_append, get?_ofList_entries,
      get?_ofList_filterMap_values _ entryOf replica.keyed]
    rfl

/-- An agent that one of the arguments of `commitChanges` is about. -/
def Mentioned (entries : List (FetchAgentsEntry Value Project)) (removals : List String)
    (deltas : List (AgentDirectoryDelta Value Project)) (agentId : String) : Prop :=
  (∃ entry ∈ entries, entry.agent.id = agentId) ∨ agentId ∈ removals ∨ .remove agentId ∈ deltas ∨
    ∃ agent project, .upsert agent project ∈ deltas ∧ agent.id = agentId

/-- What is offered for an agent since its last removal: its listed entry, or else what is stored,
    and its upserts. -/
def candidates (replica : AgentDirectoryReplica Value Project)
    (entries : List (FetchAgentsEntry Value Project)) (removals : List String)
    (deltas : List (AgentDirectoryDelta Value Project)) (agentId : String) :
    List (AgentSnapshotPayload Value) :=
  (changesOf removals deltas).foldl (candidatesAt agentId)
    ((replica.entryBefore entries agentId).map FetchAgentsEntry.agent).toList

omit [DecidableEq Value] in
theorem storedEntry_of_placed (h : replica.Sendable) {agentId : String}
    {agent : Agent Value Project} (hagent : replica.agents.get? agentId = some agent)
    {project : Project} (hplacement : agent.projectPlacement = some project) :
    ∃ payload, projectAgentSnapshot agent = some payload ∧
      replica.storedEntry agentId = some ⟨payload, project⟩ := by
  obtain ⟨payload, hpayload⟩ := projectAgentSnapshot_of_valid
    (h agentId agent hagent (by simp [hplacement]))
  simp [storedEntry, hagent, projectAgentDirectoryEntry, hplacement, hpayload]

omit [DecidableEq Value] in
theorem isSome_listedEntry (entries : List (FetchAgentsEntry Value Project)) (agentId : String) :
    (listedEntry entries agentId).isSome = true ↔ ∃ entry ∈ entries, entry.agent.id = agentId := by
  unfold listedEntry
  simp

omit [DecidableEq Value] in
/-- Which agents the updates of a commit find. -/
theorem isSome_entryBefore (h : replica.Sendable) (entries : List (FetchAgentsEntry Value Project))
    (agentId : String) : (replica.entryBefore entries agentId).isSome = true ↔
      (∃ agent, replica.agents.get? agentId = some agent ∧ agent.projectPlacement ≠ none) ∨
        ∃ entry ∈ entries, entry.agent.id = agentId := by
  unfold entryBefore
  rw [Option.isSome_or, Bool.or_eq_true, isSome_listedEntry, or_comm]
  refine or_congr_left ⟨fun hstored => ?_, fun hplaced => ?_⟩
  · obtain ⟨entry, hentry⟩ := Option.isSome_iff_exists.mp hstored
    obtain ⟨agent, hagent, hjoin⟩ := Option.bind_eq_some_iff.mp hentry
    refine ⟨agent, hagent, fun hnone => ?_⟩
    simp [projectAgentDirectoryEntry, hnone] at hjoin
  · obtain ⟨agent, hagent, hne⟩ := hplaced
    obtain ⟨project, hplacement⟩ := Option.ne_none_iff_exists'.mp hne
    obtain ⟨payload, -, hstored⟩ := storedEntry_of_placed h hagent hplacement
    rw [hstored]
    rfl

/-- What a commit of changes makes of each agent. -/
theorem get?_commitChanges (h : replica.Sendable) (entries : List (FetchAgentsEntry Value Project))
    (removals : List String) (deltas : List (AgentDirectoryDelta Value Project)) :
    ∃ after, replica.commitChanges placementOfUpdate entries removals deltas = some after ∧
      (∀ agentId, after.agents.get? agentId =
        ((changesOf removals deltas).foldl (reconcileAt placementOfUpdate agentId)
          (replica.entryBefore entries agentId)).map (fetchedAgent replica.serverId)) ∧
      ∀ agentId, ∃ n, after.lifecycleVersion agentId = replica.lifecycleVersion agentId + n ∧
        (0 < n ↔ replica.members.has agentId ≠ after.agents.has agentId ∨
          replica.pendingCacheReads.has agentId = true ∧ after.agents.has agentId = false) := by
  obtain ⟨merged, hmerged, hkeyed, hbefore⟩ := mergedEntries_of_sendable h entries
  refine ⟨replica.commitSnapshot placementOfUpdate merged.values (changesOf removals deltas),
    ?_, fun agentId => ?_, fun agentId => ?_⟩
  · unfold commitChanges; rw [hmerged]; rfl
  · rw [(get?_commitSnapshot placementOfUpdate replica hkeyed _ agentId).1, hbefore]
  · obtain ⟨hagents, hmembers⟩ := get?_commitSnapshot placementOfUpdate replica hkeyed
      (changesOf removals deltas) agentId
    have hhas : (replica.commitSnapshot placementOfUpdate merged.values
        (changesOf removals deltas)).agents.has agentId = (replica.commitSnapshot placementOfUpdate
          merged.values (changesOf removals deltas)).members.has agentId := by
      rw [hmembers]
      unfold has
      rw [hagents, Option.isSome_map]
    rw [hhas, lifecycleVersion_commitSnapshot, Nat.add_assoc, Nat.add_assoc]
    cases replica.pendingCacheReads.has agentId <;> cases replica.members.has agentId <;>
      cases (replica.commitSnapshot placementOfUpdate merged.values
        (changesOf removals deltas)).members.has agentId <;> simp

/-- **What a commit of changes leaves**: the agents that were there with a placement, were listed
    or upserted, and not removed since; each one that nothing mentions as it was, each other one as
    the newest that came in; and other versions where an agent came or went, and where a cached
    one is awaited that is not there. -/
theorem commitChanges_leaves (replica : AgentDirectoryReplica Value Project)
    (hsendable : replica.Sendable) (entries : List (FetchAgentsEntry Value Project))
    (removals : List String) (deltas : List (AgentDirectoryDelta Value Project)) :
    ∃ after, replica.commitChanges placementOfUpdate entries removals deltas = some after ∧
      (∀ agentId, after.agents.has agentId = true ↔ UpsertedLast deltas agentId ∨
        ((∃ agent, replica.agents.get? agentId = some agent ∧ agent.projectPlacement ≠ none) ∨
          ∃ entry ∈ entries, entry.agent.id = agentId) ∧
            agentId ∉ removals ∧ .remove agentId ∉ deltas) ∧
      (∀ agentId agent, replica.agents.get? agentId = some agent →
        agent.projectPlacement ≠ none → FromSnapshot replica.serverId agent →
          ¬ Mentioned entries removals deltas agentId → after.agents.get? agentId = some agent) ∧
      (∀ agentId, (after.agents.get? agentId).map Agent.unplaced =
        (acceptAll (replica.candidates entries removals deltas agentId)).map fun accepted =>
          normalizeAgentSnapshot accepted replica.serverId) ∧
      (∀ agentId accepted, acceptAll (replica.candidates entries removals deltas agentId) =
          some accepted →
        (∀ candidate ∈ replica.candidates entries removals deltas agentId,
          newDate candidate.updatedAt ≠ none) →
        NewestOf (replica.candidates entries removals deltas agentId) accepted) ∧
      ∀ agentId, ∃ n, after.lifecycleVersion agentId = replica.lifecycleVersion agentId + n ∧
        (0 < n ↔ replica.members.has agentId ≠ after.agents.has agentId ∨
          replica.pendingCacheReads.has agentId = true ∧ after.agents.has agentId = false) := by
  obtain ⟨after, hcommit, hget, hversions⟩ :=
    get?_commitChanges placementOfUpdate hsendable entries removals deltas
  refine ⟨after, hcommit, fun agentId => ?_, fun agentId agent hagent hplaced hsnapshot hnot => ?_,
    fun agentId => ?_, fun agentId accepted haccepted hdates => ?_, hversions⟩
  · unfold has
    rw [hget, Option.isSome_map, changesOf, foldl_append, reconcileAt_removals,
      isSome_reconcileAt]
    by_cases hremoved : agentId ∈ removals
    · simp [hremoved]
    · rw [if_neg hremoved, isSome_entryBefore hsendable]; simp [hremoved]
  · obtain ⟨project, hplacement⟩ := Option.ne_none_iff_exists'.mp hplaced
    obtain ⟨payload, hpayload, hstored⟩ := storedEntry_of_placed hsendable hagent hplacement
    obtain ⟨payload', hpayload', hback⟩ := normalize_project hsnapshot
    obtain rfl := Option.mem_unique hpayload hpayload'
    unfold Mentioned at hnot
    rw [not_or, not_or, not_or] at hnot
    obtain ⟨hlisted, hremoval, hremove, hupsert⟩ := hnot
    have hlistedEntry : listedEntry entries agentId = none := by
      rw [← Option.not_isSome_iff_eq_none, isSome_listedEntry]
      exact hlisted
    have hbefore : replica.entryBefore entries agentId = some ⟨payload, project⟩ := by
      unfold entryBefore
      rw [hlistedEntry, hstored, Option.none_or]
    rw [hget, changesOf, foldl_append, reconcileAt_removals, if_neg hremoval, hbefore,
      reconcileAt_of_unmentioned placementOfUpdate (fun agent project hmem heq =>
        hupsert ⟨agent, project, hmem, heq⟩) hremove]
    rw [hplacement] at hback
    exact congrArg some hback
  · rw [hget, Option.map_map]
    have hbase : (replica.entryBefore entries agentId).map FetchAgentsEntry.agent =
        acceptAll ((replica.entryBefore entries agentId).map FetchAgentsEntry.agent).toList := by
      cases replica.entryBefore entries agentId <;> rfl
    unfold candidates
    rw [← agent_reconcileAts placementOfUpdate hbase, Option.map_map]
    rfl
  · exact newestOf_acceptAll haccepted hdates

/-- An agent that a host with old data sends. -/
def exampleAgent (id lastError : String) (updatedAt : WireTime) (placement : Option String) :
    Agent Unit String :=
  { (normalizeAgentSnapshot
      { id, provider := "claude", cwd := "/repo", workspaceId := none, model := none
        features := none, thinkingOptionId := none, providerAccountId := none
        createdAt := .text (some 0), updatedAt, lastUserMessageAt := none, status := .idle
        activeTurn := none, capabilities := (), currentModeId := none, availableModes := []
        pendingPermissions := [], persistence := none, runtimeInfo := none, lastUsage := none
        lastUsageAt := none, lastError := some lastError, title := none, labels := .empty
        requiresAttention := none, attentionReason := none, attentionTimestamp := none
        autoResume := none, archivedAt := none } "host" : Agent Unit String) with
    projectPlacement := placement }

/-- An agent without a placement is gone and the version of one that was never there is another;
    an empty error is forgotten, and a time that does not parse stops the commit. -/
theorem commitChanges_does_not_leave :
    ((((new "host").commitCached [exampleAgent "a1" "failed" (.text (some 0)) none,
        exampleAgent "a2" "" (.text (some 0)) (some "repo")]).captureCache "a3").commitChanges
          id [] [] []).map (fun after => (after.agents.has "a1", after.lifecycleVersion "a3",
            (after.agents.get? "a2").map Agent.lastError)) =
        some (false, 1, some (some none)) ∧
      (exampleAgent "a2" "" (.text (some 0)) (some "repo")).lastError = some (some "") ∧
      (((new "host").commitCached
        [exampleAgent "a1" "failed" (.text none) (some "repo")]).commitChanges id [] [] []).isNone =
          true := by
  decide

theorem exampleAgent_fromSnapshot (id : String) (placement : Option String) :
    FromSnapshot "host" (exampleAgent id "failed" (.text (some 0)) placement) where
  snapshot := ⟨_, rfl⟩
  dates := by
    constructor <;> simp [exampleAgent, normalizeAgentSnapshot, normalizeActiveTurn, newDate]
  workspaceId := by simp [exampleAgent, normalizeAgentSnapshot]
  lastError := by simp [exampleAgent, normalizeAgentSnapshot]

theorem commitChanges_leaves_placed :
    ∃ after, ((new "host").commitCached
        [exampleAgent "a1" "failed" (.text (some 0)) (some "repo")]).commitChanges id [] ["a2"] [] =
          some after ∧
      after.agents.get? "a1" = some (exampleAgent "a1" "failed" (.text (some 0)) (some "repo")) := by
  have hone : ∀ agentId agent, ((new "host").commitCached
      [exampleAgent "a1" "failed" (.text (some 0)) (some "repo")]).agents.get? agentId =
        some agent → agent = exampleAgent "a1" "failed" (.text (some 0)) (some "repo") := by
    intro agentId agent h
    obtain ⟨read, hread, heq⟩ := mem_map.mp (mem_of_get?_ofList h)
    obtain rfl := mem_singleton.mp hread
    exact (Prod.mk.inj heq).2.symm
  obtain ⟨after, hcommit, -, hunmentioned, -⟩ := commitChanges_leaves id
    ((new "host").commitCached [exampleAgent "a1" "failed" (.text (some 0)) (some "repo")])
    (fun agentId agent h _ => hone agentId agent h ▸ (exampleAgent_fromSnapshot _ _).dates) []
    ["a2"] []
  refine ⟨after, hcommit, hunmentioned "a1" _ (by decide) (by decide)
    (exampleAgent_fromSnapshot _ _) (fun h => ?_)⟩
  rcases h with hlisted | hremoved | hremove | hupsert
  · simp at hlisted
  · simp at hremoved
  · simp at hremove
  · simp at hupsert

end AgentDirectoryReplica

end Frogg.Ui.Snapshots
