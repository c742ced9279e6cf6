/-
  Subject:   The agent subscription of a client
             (session/agent-updates/agent-updates-service.ts).

  A subscription is an object: a call takes the one that is current when it starts and goes on with
  it after its `await`s. Calls are numbered in the order in which the changes were issued. Of the
  payloads what the service does not read is `Rest`; the fingerprint of a directory entry, provider
  visibility and `Date.parse` are parameters.
-/
import Frogg.Library.JsString
import Frogg.Server.DirectorySync

namespace Frogg.Server

open Library Function

/-! ## 1. Payloads and filters -/

inductive AgentLifecycleStatus where
  | initializing | idle | running | error | closed
  deriving DecidableEq, Repr

/-- `thinkingOptionId` is `none` where the key is not in the object. -/
structure AgentRuntimeInfo where
  thinkingOptionId : Option (Option String)
  deriving DecidableEq, Repr

structure AgentSnapshotPayload (Rest : Type) where
  id : String
  provider : String
  workspaceId : Option String
  status : AgentLifecycleStatus
  labels : List (String × String)
  title : Option String
  archivedAt : Option String
  updatedAt : String
  requiresAttention : Option Bool
  thinkingOptionId : Option String
  effectiveThinkingOptionId : Option String
  runtimeInfo : Option AgentRuntimeInfo
  rest : Rest
  deriving DecidableEq

structure ProjectPlacementPayload (Rest : Type) where
  projectKey : String
  rest : Rest
  deriving DecidableEq

/-- `thinkingOptionId` is `none` where it is undefined, `some none` where it is null. -/
structure AgentUpdatesFilter where
  labels : Option (List (String × String)) := none
  includeArchived : Option Bool := none
  thinkingOptionId : Option (Option String) := none
  statuses : Option (List AgentLifecycleStatus) := none
  requiresAttention : Option Bool := none
  projectKeys : Option (List String) := none
  deriving DecidableEq, Repr

def normalizeThinkingOptionId (value : Option String) : Option String :=
  (value.map jsTrim).filter fun normalized => normalized.length > 0

def resolveEffectiveThinkingOptionId (runtimeInfo : Option AgentRuntimeInfo)
    (configuredThinkingOptionId : Option String) : Option String :=
  match runtimeInfo.bind AgentRuntimeInfo.thinkingOptionId with
  | some thinkingOptionId => normalizeThinkingOptionId thinkingOptionId
  | none => normalizeThinkingOptionId configuredThinkingOptionId

section Payloads

variable {Rest : Type}

section

variable (agent : AgentSnapshotPayload Rest)

def agentThinkingOptionMatchesFilter (filter : AgentUpdatesFilter) : Bool :=
  match filter.thinkingOptionId with
  | none => true
  | some expected =>
    agent.effectiveThinkingOptionId.or
      (resolveEffectiveThinkingOptionId agent.runtimeInfo agent.thinkingOptionId) =
    resolveEffectiveThinkingOptionId none expected

variable (project : ProjectPlacementPayload Rest)

def matchesAgentStructuralFilter (filter : AgentUpdatesFilter) : Bool :=
  let statuses := filter.statuses.getD []
  let projectKeys := (filter.projectKeys.getD []).filter fun item => (jsTrim item).length > 0
  (statuses.isEmpty || statuses.contains agent.status) &&
    filter.requiresAttention.all (agent.requiresAttention.getD false = ·) &&
      (projectKeys.isEmpty || projectKeys.contains project.projectKey)

def matchesAgentUpdatesFilter (filter : Option AgentUpdatesFilter) : Bool :=
  ((filter.bind AgentUpdatesFilter.labels).getD []).all (fun (key, value) =>
    agent.labels.lookup key = some value) &&
  ((filter.bind AgentUpdatesFilter.includeArchived).getD false ||
    !agent.archivedAt.any (· ≠ "")) &&
  filter.all (agentThinkingOptionMatchesFilter agent) &&
  filter.all (matchesAgentStructuralFilter agent project)

end

structure AgentDirectoryEntry (Rest : Type) where
  agent : AgentSnapshotPayload Rest
  project : ProjectPlacementPayload Rest

/-- The payload of an `agent_update`, but for its version. -/
inductive AgentUpdatePayload (Rest : Type) where
  | upsert (agent : AgentSnapshotPayload Rest) (project : ProjectPlacementPayload Rest)
  | remove (agentId : String)
  deriving DecidableEq

def agentUpdateTargetId : AgentUpdatePayload Rest → String
  | .upsert agent _ => agent.id
  | .remove agentId => agentId

/-- `payload.workspaceId`, where it is not empty. -/
def AgentSnapshotPayload.placedIn (payload : AgentSnapshotPayload Rest) : Option String :=
  payload.workspaceId.filter (· ≠ "")

end Payloads

/-! ## 2. Subscriptions -/

/-- An update as it is handed on. The number of its change and whether the directory had its
    version before (`repeated`) are not part of the message. -/
structure Delivery (Rest : Type) where
  payload : AgentUpdatePayload Rest
  version : Option (String × Nat)
  change : Nat
  repeated : Bool
  deriving DecidableEq

def Delivery.target {Rest : Type} (d : Delivery Rest) : String := agentUpdateTargetId d.payload

structure AgentUpdatesSubscriptionState (Rest : Type) where
  subscriptionId : String
  syncEnabled : Bool
  filter : Option AgentUpdatesFilter
  isBootstrapping : Bool
  pendingUpdatesByAgentId : JsMap String (Delivery Rest)

/-- A message of the client; `current` is the subscription at that moment, `direct` tells it from
    one of the buffer. -/
structure Emission (Rest : Type) where
  delivery : Delivery Rest
  subscription : Nat
  current : Option Nat
  direct : Bool
  deriving DecidableEq

structure AgentUpdatesDeps where
  isProviderVisibleToClient : String → Bool
  dateParse : String → Option Int

/-- What the subscription is told by; `left` are the changes that were not handed on because the
    provider is not visible or the snapshot is newer. -/
structure AgentSubscriptions (Rest : Type) where
  subscription : Option Nat
  objects : Nat → AgentUpdatesSubscriptionState Rest
  nextObject : Nat
  directory : DirectorySyncService Unit Unit (AgentDirectoryEntry Rest)
  emitted : List (Emission Rest)
  left : List (Nat × String × Nat)

namespace AgentSubscriptions

variable {Rest : Type} (deps : AgentUpdatesDeps) (s : AgentSubscriptions Rest)

variable (subscriptionId : String)

def beginSubscription (filter : Option AgentUpdatesFilter)
    (syncEnabled : Bool) : AgentSubscriptions Rest :=
  { s with
    subscription := some s.nextObject
    objects := update s.objects s.nextObject
      ⟨subscriptionId, syncEnabled, filter, true, .empty⟩
    nextObject := s.nextObject + 1 }

def clearSubscription : AgentSubscriptions Rest :=
  if s.subscription.any fun o => (s.objects o).subscriptionId = subscriptionId then
    { s with subscription := none }
  else s

def dispose : AgentSubscriptions Rest := { s with subscription := none }

variable (snapshotUpdatedAtByAgentId : String → Option Int)

/-- A buffered upsert that the snapshot is newer than. -/
def isStale (delivery : Delivery Rest) : Bool :=
  match delivery.payload with
  | .remove _ => false
  | .upsert agent _ =>
    match snapshotUpdatedAtByAgentId agent.id, deps.dateParse agent.updatedAt with
    | some snapshotUpdatedAt, some updateUpdatedAt => updateUpdatedAt < snapshotUpdatedAt
    | _, _ => false

/-- `flushBootstrapped` of the current subscription. -/
def flush (o : Nat) (snapshotUpdatedAtByAgentId : String → Option Int) : AgentSubscriptions Rest :=
  let pending := (s.objects o).pendingUpdatesByAgentId.values
  let stale := pending.filter (isStale deps snapshotUpdatedAtByAgentId)
  { s with
    objects := update s.objects o
      { s.objects o with isBootstrapping := false, pendingUpdatesByAgentId := .empty }
    emitted := s.emitted ++
      (pending.filter fun delivery => !isStale deps snapshotUpdatedAtByAgentId delivery).map
        fun delivery => ⟨delivery, o, s.subscription, false⟩
    left := s.left ++
      stale.map fun delivery => (o, delivery.target, delivery.change) }

def flushBootstrapped : AgentSubscriptions Rest :=
  match s.subscription with
  | none => s
  | some o =>
    if (s.objects o).subscriptionId = subscriptionId && (s.objects o).isBootstrapping then
      s.flush deps o snapshotUpdatedAtByAgentId
    else s

def isHidden : AgentUpdatePayload Rest → Bool
  | .upsert agent _ => !deps.isProviderVisibleToClient agent.provider
  | .remove _ => false

def bufferOrEmit (sub : Nat) (delivery : Delivery Rest) : AgentSubscriptions Rest :=
  if isHidden deps delivery.payload then
    { s with left := s.left ++ [(sub, delivery.target, delivery.change)] }
  else if (s.objects sub).isBootstrapping then
    { s with
      objects := update s.objects sub
        { s.objects sub with
          pendingUpdatesByAgentId :=
            (s.objects sub).pendingUpdatesByAgentId.set delivery.target delivery } }
  else { s with emitted := s.emitted ++ [⟨delivery, sub, s.subscription, true⟩] }

/-- `bufferOrEmit(sub, sequence(sub, payload, …))` for a change. -/
def hand (change sub : Nat) (payload : AgentUpdatePayload Rest)
    (entry : Option (AgentDirectoryEntry Rest)) : AgentSubscriptions Rest :=
  let agentId := agentUpdateTargetId payload
  let (directory, version) :=
    s.directory.sequenceAgentUpdate entry agentId (s.objects sub).syncEnabled
  let repeated := s.directory.agents.sequenceFor agentId = directory.agents.sequenceFor agentId
  { s with directory }.bufferOrEmit deps sub ⟨payload, version, change, repeated⟩

/-- An agent as it is now, for a subscription. -/
def handAgent (change sub : Nat) (payload : AgentSnapshotPayload Rest)
    (project : Option (ProjectPlacementPayload Rest)) : AgentSubscriptions Rest :=
  match project with
  | none => s.hand deps change sub (.remove payload.id) none
  | some project =>
    if matchesAgentUpdatesFilter payload project (s.objects sub).filter then
      s.hand deps change sub (.upsert payload project) (some ⟨payload, project⟩)
    else s.hand deps change sub (.remove payload.id) (some ⟨payload, project⟩)

end AgentSubscriptions

/-! ## 3. Calls -/

/-- How a change ended: its update was handed to a subscription, there was none when it started, or
    a lookup failed. -/
inductive UpdateOutcome where
  | told (sub : Nat)
  | unsubscribed
  | failed
  deriving DecidableEq

/-- The `await` a call stands at; `live` tells a forwarded agent from a stored record. -/
inductive UpdatePhase (Rest : Type) where
  | queuedLive (payload : AgentSnapshotPayload Rest)
  | queuedRemoval
  | enriching (sub : Option Nat) (payload : AgentSnapshotPayload Rest)
  | placing (sub : Nat) (payload : AgentSnapshotPayload Rest) (live : Bool)
  | announcing (outcome : UpdateOutcome)
  | closed (outcome : UpdateOutcome)

structure UpdateCall (Rest : Type) where
  agentId : String
  phase : UpdatePhase Rest

structure AgentUpdatesService (Rest : Type) where
  subscriptions : AgentSubscriptions Rest
  /-- `liveAgentUpdateTails`, with those that still wait. -/
  liveAgentUpdates : String → List Nat
  calls : Nat → Option (UpdateCall Rest)
  nextCall : Nat

namespace AgentUpdatesService

variable {Rest : Type} (deps : AgentUpdatesDeps) (s : AgentUpdatesService Rest)

def initial (directory : DirectorySyncService Unit Unit (AgentDirectoryEntry Rest)) :
    AgentUpdatesService Rest where
  subscriptions :=
    { subscription := none
      objects _ := ⟨"", false, none, false, .empty⟩
      nextObject := 0
      directory
      emitted := []
      left := [] }
  liveAgentUpdates _ := []
  calls _ := none
  nextCall := 0

def setSubscriptions (subscriptions : AgentSubscriptions Rest) : AgentUpdatesService Rest :=
  { s with subscriptions }

def setPhase (c : Nat) (agentId : String) (phase : UpdatePhase Rest) : AgentUpdatesService Rest :=
  { s with calls := update s.calls c (some ⟨agentId, phase⟩) }

/-- `enqueueAgentUpdate` -/
def enqueue (agentId : String) (phase : UpdatePhase Rest) : AgentUpdatesService Rest :=
  { s with
    liveAgentUpdates := update s.liveAgentUpdates agentId
      (s.liveAgentUpdates agentId ++ [s.nextCall])
    calls := update s.calls s.nextCall (some ⟨agentId, phase⟩)
    nextCall := s.nextCall + 1 }

/-- A queued update is settled. -/
def settle (c : Nat) (agentId : String) (outcome : UpdateOutcome) : AgentUpdatesService Rest :=
  { s with
    liveAgentUpdates := update s.liveAgentUpdates agentId
      (s.liveAgentUpdates agentId).tail }.setPhase c agentId (.closed outcome)

def handAgent (c sub : Nat) (payload : AgentSnapshotPayload Rest)
    (project : Option (ProjectPlacementPayload Rest)) : AgentUpdatesService Rest :=
  s.setSubscriptions (s.subscriptions.handAgent deps c sub payload project)

/-- `emitStoredRecord`, up to its `await`. -/
def emitStoredRecord (payload : AgentSnapshotPayload Rest) : AgentUpdatesService Rest :=
  let c := s.nextCall
  let s := { s with nextCall := c + 1 }
  match s.subscriptions.subscription, payload.placedIn with
  | none, _ => s.setPhase c payload.id (.closed .unsubscribed)
  | some sub, some _ => s.setPhase c payload.id (.placing sub payload false)
  | some sub, none =>
    (s.handAgent deps c sub payload none).setPhase c payload.id (.closed (.told sub))

variable (c : Nat) (agentId : String)

/-- The removal of an agent, once it is its turn. -/
def runRemoval : AgentUpdatesService Rest :=
  match s.subscriptions.subscription with
  | none => s.settle c agentId .unsubscribed
  | some sub =>
    (s.setSubscriptions (s.subscriptions.hand deps c sub (.remove agentId) none)).settle c
      agentId (.told sub)

/-- `emitLiveAgentUpdate` with the enriched payload. -/
def enriched (sub : Option Nat) (payload : AgentSnapshotPayload Rest) : AgentUpdatesService Rest :=
  match sub, payload.placedIn with
  | none, none => s.settle c agentId .unsubscribed
  | none, some _ => s.setPhase c agentId (.announcing .unsubscribed)
  | some sub, some _ => s.setPhase c agentId (.placing sub payload true)
  | some sub, none => (s.handAgent deps c sub payload none).settle c agentId (.told sub)

/-- The placement was looked up. A forwarded agent goes on to its workspace. -/
def placed (sub : Nat) (payload : AgentSnapshotPayload Rest)
    (live : Bool) (project : Option (ProjectPlacementPayload Rest)) : AgentUpdatesService Rest :=
  (s.handAgent deps c sub payload project).setPhase c agentId
    (if live then .announcing (.told sub) else .closed (.told sub))

/-- A lookup failed: a forwarded agent logs it, a stored record throws. -/
def lookupFailed (live : Bool) : AgentUpdatesService Rest :=
  if live then s.settle c agentId .failed else s.setPhase c agentId (.closed .failed)

end AgentUpdatesService

/-! ## 4. Steps -/

inductive UpdateEvent (Rest : Type) where
  | begun (subscriptionId : String) (filter : Option AgentUpdatesFilter) (syncEnabled : Bool)
  | flushed (subscriptionId : String) (snapshotUpdatedAtByAgentId : String → Option Int)
  | cleared (subscriptionId : String)
  | disposed
  | forwarded (payload : AgentSnapshotPayload Rest)
  | removed (agentId : String)
  | stored (payload : AgentSnapshotPayload Rest)
  | turn (c : Nat)
  | enriched (c : Nat) (title archivedAt : Option String)
  | enrichFailed (c : Nat)
  | placed (c : Nat) (project : Option (ProjectPlacementPayload Rest))
  | placeFailed (c : Nat)
  | announced (c : Nat)
  | sequenced (entry : Option (AgentDirectoryEntry Rest)) (agentId : String)
  | synchronized (snapshot : List (AgentDirectoryEntry Rest))

section Steps

variable {Rest : Type} (deps : AgentUpdatesDeps)

/-- The last two are of other sessions, and of the snapshot that a subscription starts with: the
    directory is the daemon's. -/
inductive UpdateStep (s : AgentUpdatesService Rest) :
    UpdateEvent Rest → AgentUpdatesService Rest → Prop where
  | begun (subscriptionId filter syncEnabled) :
      UpdateStep s (.begun subscriptionId filter syncEnabled)
        (s.setSubscriptions
          (s.subscriptions.beginSubscription subscriptionId filter syncEnabled))
  | flushed (subscriptionId snapshot) :
      UpdateStep s (.flushed subscriptionId snapshot)
        (s.setSubscriptions (s.subscriptions.flushBootstrapped deps subscriptionId snapshot))
  | cleared (subscriptionId) :
      UpdateStep s (.cleared subscriptionId)
        (s.setSubscriptions (s.subscriptions.clearSubscription subscriptionId))
  | disposed : UpdateStep s .disposed (s.setSubscriptions s.subscriptions.dispose)
  | forwarded (payload) :
      UpdateStep s (.forwarded payload) (s.enqueue payload.id (.queuedLive payload))
  | removed (agentId) : UpdateStep s (.removed agentId) (s.enqueue agentId .queuedRemoval)
  | stored (payload) : UpdateStep s (.stored payload) (s.emitStoredRecord deps payload)
  | turnLive (c : Nat) (agentId payload) (hcall : s.calls c = some ⟨agentId, .queuedLive payload⟩)
      (hturn : (s.liveAgentUpdates agentId).head? = some c) :
      UpdateStep s (.turn c)
        (s.setPhase c agentId (.enriching s.subscriptions.subscription payload))
  | turnRemoval (c : Nat) (agentId) (hcall : s.calls c = some ⟨agentId, .queuedRemoval⟩)
      (hturn : (s.liveAgentUpdates agentId).head? = some c) :
      UpdateStep s (.turn c) (s.runRemoval deps c agentId)
  | enriched (c : Nat) (agentId sub payload title archivedAt)
      (hcall : s.calls c = some ⟨agentId, .enriching sub payload⟩) :
      UpdateStep s (.enriched c title archivedAt)
        (s.enriched deps c agentId sub { payload with title, archivedAt })
  | enrichFailed (c : Nat) (agentId sub payload)
      (hcall : s.calls c = some ⟨agentId, .enriching sub payload⟩) :
      UpdateStep s (.enrichFailed c) (s.lookupFailed c agentId true)
  | placed (c : Nat) (agentId sub payload live project)
      (hcall : s.calls c = some ⟨agentId, .placing sub payload live⟩) :
      UpdateStep s (.placed c project) (s.placed deps c agentId sub payload live project)
  | placeFailed (c : Nat) (agentId sub payload live)
      (hcall : s.calls c = some ⟨agentId, .placing sub payload live⟩) :
      UpdateStep s (.placeFailed c) (s.lookupFailed c agentId live)
  | announced (c : Nat) (agentId outcome)
      (hcall : s.calls c = some ⟨agentId, .announcing outcome⟩) :
      UpdateStep s (.announced c) (s.settle c agentId outcome)
  | sequenced (entry agentId) :
      UpdateStep s (.sequenced entry agentId)
        (s.setSubscriptions { s.subscriptions with
          directory := (s.subscriptions.directory.sequenceAgentUpdate entry agentId true).1 })
  | synchronized (snapshot) :
      UpdateStep s (.synchronized snapshot)
        (s.setSubscriptions { s.subscriptions with
          directory := { s.subscriptions.directory with
            agents := s.subscriptions.directory.agents.replaceAll snapshot } })

end Steps

end Frogg.Server
