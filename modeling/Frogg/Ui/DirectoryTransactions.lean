/-
  Subject:   Refreshes of a host's agents and the updates that arrive during them
             (apps/ui/src/runtime/directory-sync/transaction.ts, index.ts).

  What runs between two awaits is one step. A transaction is an object; its number stands for its
  identity. Steps emit what they do to the store.
-/
import Frogg.Ui.AgentReplica
import Mathlib.Logic.Function.Basic

namespace Frogg.Ui

open Library

/-! ## 1. Transactions -/

structure DirectorySourceToken where
  clientGeneration : Nat
  connectionEpoch : Nat
  deriving DecidableEq

structure DirectoryTransaction (Snapshot Delta : Type) where
  number : Nat
  source : DirectorySourceToken
  snapshot : Snapshot
  deltas : List Delta

structure DirectoryTransactionOwner (Snapshot Delta : Type) where
  current : Option (DirectoryTransaction Snapshot Delta)
  nextNumber : Nat

namespace DirectoryTransactionOwner

variable {Snapshot Delta : Type}

def initial : DirectoryTransactionOwner Snapshot Delta := ⟨none, 0⟩

variable (owner : DirectoryTransactionOwner Snapshot Delta)

/-- The updates recorded and not applied yet. -/
def pending : List Delta :=
  (owner.current.map DirectoryTransaction.deltas).getD []

variable (source : DirectorySourceToken)

/-- `begin` -/
def beginTransaction (snapshot : Snapshot) : DirectoryTransactionOwner Snapshot Delta where
  current := some
    { number := owner.nextNumber
      source := source
      snapshot := snapshot
      deltas := match owner.current with
        | none => []
        | some transaction => if transaction.source = source then transaction.deltas else [] }
  nextNumber := owner.nextNumber + 1

/-- `record`; none where it returns false. -/
def record (delta : Delta) : Option (DirectoryTransactionOwner Snapshot Delta) :=
  match owner.current with
  | none => none
  | some transaction =>
    if transaction.source = source then
      some { owner with
        current := some { transaction with deltas := transaction.deltas ++ [delta] } }
    else none

variable (number : Nat)

def isCurrent : Bool :=
  (owner.current.map DirectoryTransaction.number) = some number

/-- `complete`: none is `stale`. -/
def complete : Option (Snapshot × List Delta) × DirectoryTransactionOwner Snapshot Delta :=
  match owner.current with
  | none => (none, owner)
  | some transaction =>
    if transaction.number = number then
      (some (transaction.snapshot, transaction.deltas), { owner with current := none })
    else (none, owner)

/-- `fail`; a stale transaction has no updates to give back. -/
def fail : List Delta × DirectoryTransactionOwner Snapshot Delta :=
  ((owner.complete number).1.map Prod.snd |>.getD [], (owner.complete number).2)

def abort : List Delta × DirectoryTransactionOwner Snapshot Delta :=
  (owner.pending, { owner with current := none })

/-- `transaction.snapshot` written to, by the holder of the current transaction. -/
def modifySnapshot (f : Snapshot → Snapshot) : DirectoryTransactionOwner Snapshot Delta :=
  { owner with
    current := owner.current.map fun transaction =>
      { transaction with snapshot := f transaction.snapshot } }

end DirectoryTransactionOwner

/-! ## 2. State -/

structure DirectoryCursor where
  generation : String
  afterSeq : Nat
  deriving DecidableEq

inductive SyncMode where
  | snapshot | changes
  deriving DecidableEq

/-- `AgentSnapshot` -/
structure AgentSnapshot (Usage Rest Project : Type) where
  entries : List (FetchAgentsEntry Usage Rest Project)
  subscriptionId : Option String
  legacy : Bool
  syncMode : Option SyncMode
  syncCursor : Option DirectoryCursor
  syncRemovals : List String

/-- A page of `fetchAgents`, or the whole directory of a legacy daemon. -/
structure AgentPage (Usage Rest Project : Type) where
  entries : List (FetchAgentsEntry Usage Rest Project)
  subscriptionId : Option String
  sync : Option (SyncMode × List String × DirectoryCursor)
  legacy : Bool

structure DirectoryConnection where
  client : Option Nat
  online : Bool
  source : DirectorySourceToken
  deriving DecidableEq

/-- Where a call of `refreshAgentsInternal` waits. -/
inductive RefreshStage where
  | loadingCache
  | fetching (transaction : Nat) (client : Option Nat) (source : DirectorySourceToken)

/-- `loadCachedDirectory`: what it noted before the read. -/
inductive CacheLoad where
  | notStarted
  | reading (revision : Nat) (pristine : Bool)
  | done

/-- `CachedDirectory`, its agents and their cursor. A row of another agent's id is not read. -/
structure CachedAgents (Usage Rest Project : Type) where
  agents : JsMap String (ReplicaAgent Usage Rest Project)
  cursor : Option DirectoryCursor
  keyed : AgentStore.Keyed agents

structure DirectoryState (Usage Rest Project : Type) where
  agentTransactions : DirectoryTransactionOwner (AgentSnapshot Usage Rest Project)
    (AgentDirectoryDelta Usage Rest Project)
  connection : DirectoryConnection
  subscribed : Bool
  refreshes : Nat → Option RefreshStage
  cacheLoad : CacheLoad
  cacheAccepted : Bool
  revision : Nat
  cursor : Option DirectoryCursor
  store : AgentStore Usage Rest Project

/-- What a step does to the agents of the store. -/
inductive StoreEffect (Usage Rest Project : Type) where
  | applyDelta (delta : AgentDirectoryDelta Usage Rest Project)
  | commitSnapshot (snapshot : AgentSnapshot Usage Rest Project)
      (deltas : List (AgentDirectoryDelta Usage Rest Project))
  | commitCached (cached : CachedAgents Usage Rest Project)
  | remove (agentId : String)
  | archive (agentId : String) (archivedAt : Int)

/-- What happens to a client. `sameSession` says that the session of the store is that of the
    connection; for a cache read, also that its maps are the objects seen before the read. -/
inductive DirectoryEvent (Usage Rest Project : Type) where
  | connectionChanged (connection : DirectoryConnection)
  | loadCachedDirectory
  | refreshAgents (refresh : Nat) (loadDirectoryCache : Bool)
  | cacheRead (cached : CachedAgents Usage Rest Project) (sameSession : Bool)
  | resume (refresh : Nat)
  | page (refresh : Nat) (page : AgentPage Usage Rest Project)
  | complete (refresh : Nat) (sameSession : Bool)
  | fail (refresh : Nat)
  | agentUpdate (delta : AgentDirectoryDelta Usage Rest Project)
  | agentDeleted (agentId : String)
  | agentArchived (agentId : String) (archivedAt : Int)

variable {Usage Rest Project : Type}

/-! ## 3. Effects -/

/-- The updates of a legacy daemon live in the workspace of their directory. -/
def legacyDelta : AgentDirectoryDelta Usage Rest Project → AgentDirectoryDelta Usage Rest Project
  | .upsert agent project version =>
    .upsert { agent with workspaceId := some agent.cwd } project version
  | .remove agentId version => .remove agentId version

section Effects

variable [DecidableEq Usage] (placements : Placements Project)

def StoreEffect.run (store : AgentStore Usage Rest Project) :
    StoreEffect Usage Rest Project → AgentStore Usage Rest Project
  | .applyDelta delta => store.applyDelta placements delta
  | .commitSnapshot snapshot deltas =>
    let deltas := if snapshot.legacy then deltas.map legacyDelta else deltas
    if snapshot.syncMode = some .changes then
      store.commitChanges placements snapshot.entries snapshot.syncRemovals deltas
    else store.commitSnapshot placements snapshot.entries deltas
  | .commitCached cached => { store with agents := cached.agents }
  | .remove agentId => store.removeAgent agentId
  | .archive agentId archivedAt => store.archiveAgent agentId archivedAt

end Effects

/-- The updates that an effect applies. -/
def StoreEffect.updates :
    StoreEffect Usage Rest Project → List (AgentDirectoryDelta Usage Rest Project)
  | .applyDelta delta => [delta]
  | .commitSnapshot _ deltas => deltas
  | _ => []

/-! ## 4. Steps -/

namespace DirectoryState

def initial (stored : Bool) : DirectoryState Usage Rest Project where
  agentTransactions := .initial
  connection := ⟨none, false, ⟨0, 0⟩⟩
  subscribed := false
  refreshes := fun _ => none
  cacheLoad := if stored then .notStarted else .done
  cacheAccepted := false
  revision := 0
  cursor := none
  store := .empty

variable (s : DirectoryState Usage Rest Project)

/-- `getOnlineConnection() !== null` -/
def isOnline : Bool :=
  s.connection.client.isSome && s.connection.online

/-- `isCurrent(client, source)` -/
def isCurrent (client : Option Nat) (source : DirectorySourceToken) : Bool :=
  s.connection.client = client && s.connection.online && s.connection.source = source

/-- `changed || wentOffline` -/
def switches (connection : DirectoryConnection) : Bool :=
  s.connection.client ≠ connection.client || s.connection.source ≠ connection.source ||
    (s.connection.online && !connection.online)

/-- A handler of the current connection's client runs. -/
def hears : Bool := s.subscribed && s.isOnline

def emptySnapshot : AgentSnapshot Usage Rest Project := ⟨[], none, false, none, none, []⟩

variable (previous : Option DirectoryCursor)

/-- `writeCursor("agents", cursor)` -/
def writeCursor (cursor : DirectoryCursor) : Option DirectoryCursor :=
  match previous with
  | some p =>
    if p.generation = cursor.generation ∧ p.afterSeq ≥ cursor.afterSeq then some p
    else some cursor
  | none => some cursor

/-- `noteLiveCursor("agents", payload)`; an empty generation counts as none. -/
def noteLiveCursor (delta : AgentDirectoryDelta Usage Rest Project) : Option DirectoryCursor :=
  match delta.version with
  | none => previous
  | some (generation, seq) =>
    if generation = "" then previous else writeCursor previous ⟨generation, seq⟩

/-- `persistAgentCursors` -/
def persistAgentCursors (snapshot : AgentSnapshot Usage Rest Project)
    (deltas : List (AgentDirectoryDelta Usage Rest Project)) : Option DirectoryCursor :=
  let written := match snapshot.syncCursor with
    | none => previous
    | some cursor => writeCursor previous cursor
  deltas.foldl noteLiveCursor written

/-- `agentTransactions.begin`, for the connection. -/
def beginRefresh : DirectoryState Usage Rest Project :=
  { s with
    agentTransactions := s.agentTransactions.beginTransaction s.connection.source emptySnapshot }

def setStage (refresh : Nat) (stage : Option RefreshStage) : DirectoryState Usage Rest Project :=
  { s with refreshes := Function.update s.refreshes refresh stage }

/-- What `refreshAgentsInternal` does after the cache load. -/
def fetchFrom (refresh : Nat) : DirectoryState Usage Rest Project :=
  if s.isOnline then
    s.beginRefresh.setStage refresh
      (some (.fetching s.agentTransactions.nextNumber s.connection.client s.connection.source))
  else s.setStage refresh none

/-- `loadCachedDirectory`, to the read. -/
def startCacheLoad : DirectoryState Usage Rest Project :=
  match s.cacheLoad with
  | .notStarted => { s with cacheLoad := .reading s.revision (s.store.agents.size = 0) }
  | _ => s

/-- `refreshAgentsInternal`, to its first await. -/
def startRefresh (refresh : Nat) (loadDirectoryCache : Bool) : DirectoryState Usage Rest Project :=
  match s.refreshes refresh with
  | some _ => s
  | none =>
    if loadDirectoryCache then
      -- `primeAgentTransactionForCacheLoad`
      (if s.isOnline then s.beginRefresh else s).startCacheLoad.setStage refresh
        (some .loadingCache)
    else s.fetchFrom refresh

/-- What was read from the cache is taken: nothing has happened since before the read. -/
def takesCache (sameSession : Bool) : Bool :=
  match s.cacheLoad with
  | .reading revision pristine =>
    !(s.cacheAccepted || !pristine || s.revision ≠ revision || !sameSession)
  | _ => false

section Steps

variable [DecidableEq Usage] (placements : Placements Project)

variable (s : DirectoryState Usage Rest Project)

/-- A step that does something to the store. -/
def emit (effects : List (StoreEffect Usage Rest Project)) :
    DirectoryState Usage Rest Project × List (StoreEffect Usage Rest Project) :=
  ({ s with store := effects.foldl (StoreEffect.run placements) s.store }, effects)

/-- The `catch` of `refreshAgentsInternal`. -/
def failRefresh (refresh transaction : Nat) :
    DirectoryState Usage Rest Project × List (StoreEffect Usage Rest Project) :=
  let failed := s.agentTransactions.fail transaction
  ({ s with agentTransactions := failed.2 }.setStage refresh none).emit placements
    (failed.1.map .applyDelta)

/-- `recordAgentSync` and the pushes of a page. -/
def addPage (page : AgentPage Usage Rest Project) (snapshot : AgentSnapshot Usage Rest Project) :
    AgentSnapshot Usage Rest Project :=
  { entries := snapshot.entries ++ page.entries
    subscriptionId := snapshot.subscriptionId.or page.subscriptionId
    legacy := snapshot.legacy || page.legacy
    syncMode := (page.sync.map fun sync => sync.1).or snapshot.syncMode
    syncCursor := (page.sync.map fun sync => sync.2.2).or snapshot.syncCursor
    syncRemovals := snapshot.syncRemovals ++ (page.sync.map fun sync => sync.2.1).getD [] }

/-- A page arrives, or `DirectoryRefreshSupersededError` is thrown. -/
def receivePage (refresh : Nat)
    (page : AgentPage Usage Rest Project) (transaction : Nat) (client : Option Nat)
    (source : DirectorySourceToken) :
    DirectoryState Usage Rest Project × List (StoreEffect Usage Rest Project) :=
  if s.agentTransactions.isCurrent transaction && s.isCurrent client source then
    ({ s with agentTransactions := s.agentTransactions.modifySnapshot (addPage page) }, [])
  else s.failRefresh placements refresh transaction

/-- After the last page. -/
def completeRefresh (refresh : Nat) (sameSession : Bool)
    (transaction : Nat) (client : Option Nat) (source : DirectorySourceToken) :
    DirectoryState Usage Rest Project × List (StoreEffect Usage Rest Project) :=
  if s.isCurrent client source && sameSession then
    match s.agentTransactions.complete transaction with
    | (none, _) => s.failRefresh placements refresh transaction
    | (some (snapshot, deltas), owner) =>
      ({ s with
          agentTransactions := owner
          revision := s.revision + 1
          cursor := persistAgentCursors s.cursor snapshot deltas }.setStage refresh none).emit
        placements [.commitSnapshot snapshot deltas]
  else s.failRefresh placements refresh transaction

/-- `connectionChanged` -/
def changeConnection (connection : DirectoryConnection) :
    DirectoryState Usage Rest Project × List (StoreEffect Usage Rest Project) :=
  if s.switches connection then
    let aborted := s.agentTransactions.abort
    { s with
      agentTransactions := aborted.2
      connection := connection
      subscribed := connection.client.isSome && connection.online }.emit placements
      (aborted.1.map .applyDelta)
  else ({ s with connection := connection }, [])

/-- The rest of `loadCachedDirectory`, after the read. -/
def acceptCache (cached : CachedAgents Usage Rest Project) (sameSession : Bool) :
    DirectoryState Usage Rest Project × List (StoreEffect Usage Rest Project) :=
  match s.cacheLoad with
  | .reading _ _ =>
    if s.takesCache sameSession then
      { s with cacheLoad := .done, cacheAccepted := true, cursor := cached.cursor }.emit
        placements [.commitCached cached]
    else ({ s with cacheLoad := .done }, [])
  | _ => (s, [])

/-- The handler of `agent_update`. -/
def updateAgent (delta : AgentDirectoryDelta Usage Rest Project) :
    DirectoryState Usage Rest Project × List (StoreEffect Usage Rest Project) :=
  let s := { s with revision := s.revision + 1 }
  match s.agentTransactions.record s.connection.source delta with
  | some owner => ({ s with agentTransactions := owner }, [])
  | none => { s with cursor := noteLiveCursor s.cursor delta }.emit placements [.applyDelta delta]

def step : DirectoryEvent Usage Rest Project →
      DirectoryState Usage Rest Project × List (StoreEffect Usage Rest Project)
  | .connectionChanged connection => s.changeConnection placements connection
  | .loadCachedDirectory => (s.startCacheLoad, [])
  | .refreshAgents refresh loadDirectoryCache =>
    (s.startRefresh refresh loadDirectoryCache, [])
  | .cacheRead cached sameSession => s.acceptCache placements cached sameSession
  | .resume refresh =>
    match s.refreshes refresh, s.cacheLoad with
    | some .loadingCache, .done => (s.fetchFrom refresh, [])
    | _, _ => (s, [])
  | .page refresh page =>
    match s.refreshes refresh with
    | some (.fetching transaction client source) =>
      s.receivePage placements refresh page transaction client source
    | _ => (s, [])
  | .complete refresh sameSession =>
    match s.refreshes refresh with
    | some (.fetching transaction client source) =>
      s.completeRefresh placements refresh sameSession transaction client source
    | _ => (s, [])
  | .fail refresh =>
    match s.refreshes refresh with
    | some (.fetching transaction _ _) => s.failRefresh placements refresh transaction
    | _ => (s, [])
  | .agentUpdate delta => if s.hears then s.updateAgent placements delta else (s, [])
  | .agentDeleted agentId =>
    if s.hears then
      { s with revision := s.revision + 1 }.emit placements [.remove agentId]
    else (s, [])
  | .agentArchived agentId archivedAt =>
    if s.hears then
      { s with revision := s.revision + 1 }.emit placements [.archive agentId archivedAt]
    else (s, [])

end Steps

end DirectoryState

end Frogg.Ui
