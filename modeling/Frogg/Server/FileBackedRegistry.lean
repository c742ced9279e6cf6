/-
  Subject:   The registries of projects and workspaces (server/workspace-registry.ts): the file, the
             cache, the queue of mutations and the allocation of projects by root.

  A call stands at the `await` it waits on (`CallPhase`); what runs between two of them is one step
  (`RegistryStep`). A write is atomic (server/atomic-file.ts): where it fails the file is as before.
  `mapsEqual` compares the objects of the records, and each mutation puts a freshly parsed one: a
  mutation that puts or deletes has changed the records. `node:path`, `Date.parse` and
  `localeCompare` are parameters.
-/
import Frogg.Library.TurnQueue
import Frogg.Server.WorkspaceLabels

namespace Frogg.Server

open Library

/-! ## 1. Records -/

/-- What a registry knows of its records. `Input` is what `getOrCreateActiveByRoot` is given. -/
structure RecordKind (TRecord Input : Type) where
  getId : TRecord → String
  archivedAt : TRecord → Option String
  archived : TRecord → String → TRecord
  atRoot : Input → TRecord → Bool
  sameRoot : TRecord → TRecord → Bool
  precedes : TRecord → TRecord → Bool
  isCurrent : Input → TRecord → Bool
  refreshed : Input → TRecord → TRecord
  created : Input → String → TRecord
  listenerErrorsPass : Bool
  sameRoot_comm : ∀ p q, sameRoot p q = sameRoot q p
  sameRoot_created : ∀ input id q, sameRoot (created input id) q = atRoot input q
  sameRoot_refreshed : ∀ input p q, sameRoot (refreshed input p) q = sameRoot p q
  archivedAt_refreshed : ∀ input p, archivedAt (refreshed input p) = archivedAt p
  getId_refreshed : ∀ input p, getId (refreshed input p) = getId p
  getId_created : ∀ input id, getId (created input id) = id

variable (env : ProjectEnvironment) (left right : String)

/-- `FileBackedWorkspaceRegistry`: nothing is allocated, and an error of a listener is logged. -/
def workspaceRecords (Rest : Type) : RecordKind (PersistedWorkspaceRecord Rest) Empty where
  getId := PersistedWorkspaceRecord.workspaceId
  archivedAt := PersistedWorkspaceRecord.archivedAt
  archived r timestamp := { r with updatedAt := timestamp, archivedAt := some timestamp }
  atRoot input := input.elim
  sameRoot _ _ := false
  precedes _ _ := true
  isCurrent input := input.elim
  refreshed input := input.elim
  created input := input.elim
  listenerErrorsPass := false
  sameRoot_comm _ _ := rfl
  sameRoot_created input := input.elim
  sameRoot_refreshed input := input.elim
  archivedAt_refreshed input := input.elim
  getId_refreshed input := input.elim
  getId_created input := input.elim

/-! ## 2. Mutations -/

/-- The cache: records by id. -/
abbrev Records (TRecord : Type) := JsMap String TRecord

inductive RegistryMutation (TRecord : Type) where
  | upsert (record : TRecord)
  -- `none` where the updater or the schema throws
  | update (id : String) (updater : TRecord → Option TRecord)
  | archiveIfPresent (id archivedAt : String)
  | archiveIfActive (id archivedAt : String)
  | removeIfPresent (id : String)

/-- What an updater did to the staged records. -/
inductive Staging (TRecord : Type) where
  | thrown
  | kept
  | put (id : String) (record : TRecord)
  | deleted (id : String)

section Kind

variable {TRecord Input : Type} (K : RecordKind TRecord Input)

/-- `!record.archivedAt` -/
def RecordKind.isActive (record : TRecord) : Bool := !(K.archivedAt record).any (· ≠ "")

def RegistryMutation.updater (records : Records TRecord) : RegistryMutation TRecord → Staging TRecord
  | .upsert record => .put (K.getId record) record
  | .update id updater =>
    match records.get? id with
    | none => .kept
    | some existing =>
      match updater existing with
      | none => .thrown
      | some next => .put id next
  | .archiveIfPresent id archivedAt =>
    match records.get? id with
    | none => .kept
    | some existing => .put id (K.archived existing archivedAt)
  | .archiveIfActive id archivedAt =>
    match (records.get? id).filter K.isActive with
    | none => .kept
    | some existing => .put id (K.archived existing archivedAt)
  | .removeIfPresent id => if records.has id then .deleted id else .kept

/-- The staged records where the updater changed them. -/
def Staging.records? (records : Records TRecord) : Staging TRecord → Option (Records TRecord)
  | .put id record => some (records.set id record)
  | .deleted id => some (records.delete id)
  | .thrown | .kept => none

/-- The project that `getOrCreateActiveByRoot` finds. -/
def RecordKind.oldestActive (input : Input) (records : Records TRecord) : Option TRecord :=
  ((records.values.filter fun r => K.isActive r && K.atRoot input r).mergeSort K.precedes).head?

/-- A mutation of the queue: one that was asked for, or the `upsert` of an allocation. -/
inductive RegistryChange (TRecord Input : Type) where
  | requested (mutation : RegistryMutation TRecord)
  | refreshing (input : Input) (active : TRecord)
  | creating (input : Input) (projectId : String)

def RegistryChange.mutation : RegistryChange TRecord Input → RegistryMutation TRecord
  | .requested mutation => mutation
  | .refreshing input active => .upsert (K.refreshed input active)
  | .creating input projectId => .upsert (K.created input projectId)

def RegistryChange.allocates : RegistryChange TRecord Input → Bool
  | .requested _ => false
  | .refreshing .. | .creating .. => true

end Kind

/-! ## 3. The state -/

/-- `unreadable`: a file that cannot be read or parsed. -/
inductive RegistryFile (TRecord : Type) where
  | absent
  | unreadable
  | records (records : List TRecord)

def RegistryFile.isUnreadable {TRecord : Type} : RegistryFile TRecord → Bool
  | .unreadable => true
  | .absent | .records _ => false

/-- What a call does once `load` returns. -/
inductive Reading (TRecord Input : Type) where
  | initialLoad
  | list
  | get (id : String)
  | listing (input : Input)
  | fresh (input : Input) (projectId : String)
  | mutation (change : RegistryChange TRecord Input)

inductive RegistryAnswer (TRecord : Type) where
  | done
  | records (records : List TRecord)
  | record (record : Option TRecord)
  -- the call's mutation was written and published
  | committed (record : Option TRecord)

/-- The `await` a call stands at. -/
inductive CallPhase (TRecord Input : Type) where
  | allocating (input : Input)
  | loading (reading : Reading TRecord Input)
  | readAs (outcome : RegistryFile TRecord) (reading : Reading TRecord Input)
  | ready (reading : Reading TRecord Input)
  | queued (change : RegistryChange TRecord Input)
  | writing (change : RegistryChange TRecord Input) (staged : Records TRecord)
  | wrote (change : RegistryChange TRecord Input) (staged : Records TRecord)
  | publishing (change : RegistryChange TRecord Input) (record : Option TRecord)
  | returned (answer : RegistryAnswer TRecord)
  | failed

inductive RegistryRequest (TRecord Input : Type) where
  | initialLoad
  | list
  | get (id : String)
  | mutate (mutation : RegistryMutation TRecord)
  | getOrCreateActiveByRoot (input : Input)

structure RegistryCall (TRecord Input : Type) where
  request : RegistryRequest TRecord Input
  phase : CallPhase TRecord Input

/-- What a committed mutation means for the records it is applied to. -/
inductive RegistryEffect (TRecord Input : Type) where
  | mutation (mutation : RegistryMutation TRecord)
  | refresh (input : Input) (projectId : String)
  | create (input : Input) (projectId : String)

/-- What happened so far; the program does not keep it. `initial` is what the first load put into
    the cache, a write is the last one from where its promise has resolved. -/
structure RegistryHistory (TRecord Input : Type) where
  initial : Records TRecord
  lastWrite : Option (List TRecord)
  journal : List (Nat × RegistryEffect TRecord Input)
  allocated : List String
  unread : Bool
  overwroteUnread : Bool

structure FileBackedRegistry (TRecord Input : Type) where
  file : RegistryFile TRecord
  loaded : Bool
  cache : Records TRecord
  mutationsBlockedUntilRestart : Bool
  mutationQueue : List Nat
  allocationQueue : List Nat
  calls : Nat → Option (RegistryCall TRecord Input)
  history : RegistryHistory TRecord Input

section Registry

variable {TRecord Input : Type} (K : RecordKind TRecord Input)

def RegistryChange.effect : RegistryChange TRecord Input → RegistryEffect TRecord Input
  | .requested mutation => .mutation mutation
  | .refreshing input active => .refresh input (K.getId active)
  | .creating input projectId => .create input projectId

/-- A refresh is of the active project as it is now, a creation needs an id that is free. -/
def RegistryEffect.replay (records : Records TRecord) :
    RegistryEffect TRecord Input → Option (Records TRecord)
  | .mutation asked => (asked.updater K records).records? records
  | .refresh input projectId =>
    ((records.get? projectId).filter K.isActive).map fun current =>
      records.set projectId (K.refreshed input current)
  | .create input projectId =>
    if records.has projectId then none
    else some (records.set projectId (K.created input projectId))

/-- The records for a file that was read, put over those the cache has. -/
def RecordKind.fill (cache : Records TRecord) : RegistryFile TRecord → Records TRecord
  | .records records => records.foldl (fun cache r => cache.set (K.getId r) r) cache
  | .absent | .unreadable => cache

/-- What a method returns of a mutation: `update` the record it put, the others nothing. -/
def RegistryChange.result (staged : Records TRecord) :
    RegistryChange TRecord Input → Option TRecord
  | .requested (.update id _) => staged.get? id
  | .requested _ => none
  | .refreshing input active => some (K.refreshed input active)
  | .creating input projectId => some (K.created input projectId)

namespace FileBackedRegistry

variable (s : FileBackedRegistry TRecord Input) (c : Nat) (request : RegistryRequest TRecord Input)

def initial (file : RegistryFile TRecord) : FileBackedRegistry TRecord Input where
  file
  loaded := false
  cache := .empty
  mutationsBlockedUntilRestart := false
  mutationQueue := []
  allocationQueue := []
  calls _ := none
  history := ⟨.empty, none, [], [], false, false⟩

def setPhase (phase : CallPhase TRecord Input) : FileBackedRegistry TRecord Input :=
  { s with calls := Function.update s.calls c (some ⟨request, phase⟩) }

/-- `load`, up to its first `await`. -/
def load (reading : Reading TRecord Input) : FileBackedRegistry TRecord Input :=
  if s.loaded then s.setPhase c request (.ready reading)
  else { s with cache := .empty }.setPhase c request (.loading reading)

section

variable (change : RegistryChange TRecord Input)

/-- `mutateCache`, up to its first `await`. -/
def enterMutation : FileBackedRegistry TRecord Input :=
  { s with mutationQueue := s.mutationQueue ++ [c] }.setPhase c request (.queued change)

/-- The `finally` of `mutateCache`. -/
def leaveMutation : FileBackedRegistry TRecord Input :=
  { s with mutationQueue := s.mutationQueue.tail }

/-- The `finally` of `getOrCreateActiveByRoot`, where the call is one. -/
def leaveAllocation (allocates : Bool) : FileBackedRegistry TRecord Input :=
  if allocates then { s with allocationQueue := s.allocationQueue.tail } else s

def start : FileBackedRegistry TRecord Input :=
  match request with
  | .initialLoad => s.load c request .initialLoad
  | .list => s.load c request .list
  | .get id => s.load c request (.get id)
  | .mutate mutation => s.enterMutation c request (.requested mutation)
  | .getOrCreateActiveByRoot input =>
    { s with allocationQueue := s.allocationQueue ++ [c] }.setPhase c request (.allocating input)

/-- `getOrCreateActiveByRoot` with its list; `minted` is what `projectIdFactory` returns next. -/
def allocate (minted : String) (input : Input) : FileBackedRegistry TRecord Input :=
  match K.oldestActive input s.cache with
  | some active =>
    if K.isCurrent input active then
      (s.leaveAllocation true).setPhase c request (.returned (.record (some active)))
    else s.enterMutation c request (.refreshing input active)
  | none => s.load c request (.fresh input minted)

def tryFresh (minted : String) (input : Input) (projectId : String) :
    FileBackedRegistry TRecord Input :=
  if s.cache.has projectId then s.load c request (.fresh input minted)
  else s.enterMutation c request (.creating input projectId)

/-- A mutation ends without having changed anything. -/
def endMutation (phase : CallPhase TRecord Input) : FileBackedRegistry TRecord Input :=
  (s.leaveMutation.leaveAllocation change.allocates).setPhase c request phase

/-- `mutateCache` once the registry is loaded, up to the write. -/
def stage : FileBackedRegistry TRecord Input :=
  if s.mutationsBlockedUntilRestart then s.endMutation c request change .failed
  else
    match (change.mutation K).updater K s.cache with
    | .thrown => s.endMutation c request change .failed
    | .kept => s.endMutation c request change (.returned (.record none))
    | .put id record => s.setPhase c request (.writing change (s.cache.set id record))
    | .deleted id => s.setPhase c request (.writing change (s.cache.delete id))

end

/-- What follows `await this.load()`. -/
def resume (minted : String) : Reading TRecord Input → FileBackedRegistry TRecord Input
  | .initialLoad => s.setPhase c request (.returned .done)
  | .list => s.setPhase c request (.returned (.records s.cache.values))
  | .get id => s.setPhase c request (.returned (.record (s.cache.get? id)))
  | .listing input => s.allocate K c request minted input
  | .fresh input projectId => s.tryFresh c request minted input projectId
  | .mutation change => s.stage K c request change

/-- `load` with the file, or with the error that reading it met. -/
def filled (outcome : RegistryFile TRecord) (reading : Reading TRecord Input) :
    FileBackedRegistry TRecord Input :=
  let cache := K.fill s.cache outcome
  { s with
    cache
    loaded := true
    history := { s.history with
      initial := if s.loaded then s.history.initial else cache
      unread := s.history.unread || outcome.isUnreadable } }.setPhase c request (.ready reading)

variable (change : RegistryChange TRecord Input) (staged : Records TRecord)

/-- The file is replaced. -/
def written : FileBackedRegistry TRecord Input :=
  { s with
    file := .records staged.values
    history := { s.history with
      overwroteUnread := s.history.overwroteUnread || s.history.unread } }.setPhase c request
        (.wrote change staged)

/-- The cache follows, and the next mutation has its turn. -/
def commit : FileBackedRegistry TRecord Input :=
  { s.leaveMutation with
    cache := staged
    history := { s.history with
      lastWrite := some staged.values
      journal := s.history.journal ++ [(c, change.effect K)]
      allocated := match change with
        | .creating _ projectId => s.history.allocated ++ [projectId]
        | .requested _ | .refreshing .. => s.history.allocated } }.setPhase c request
          (.publishing change (change.result K staged))

/-- `notifyMutation` has returned, or thrown. -/
def published (phase : CallPhase TRecord Input) : FileBackedRegistry TRecord Input :=
  (s.leaveAllocation change.allocates).setPhase c request phase

end FileBackedRegistry

/-! ## 4. Steps -/

inductive RegistryEvent (TRecord Input : Type) where
  | started (c : Nat) (request : RegistryRequest TRecord Input)
  | allocationTurn (c : Nat)
  | fileRead (c : Nat) (ok : Bool)
  | filled (c : Nat)
  | resumed (c : Nat) (minted : String)
  | mutationTurn (c : Nat)
  | written (c : Nat)
  | writeFailed (c : Nat)
  | committed (c : Nat)
  | published (c : Nat)
  | listenerThrew (c : Nat)
  | frozen

def RegistryEvent.call : RegistryEvent TRecord Input → Option Nat
  | .started c _ | .allocationTurn c | .fileRead c _ | .filled c | .resumed c _ | .mutationTurn c
  | .written c | .writeFailed c | .committed c | .published c | .listenerThrew c => some c
  | .frozen => none

inductive RegistryStep (s : FileBackedRegistry TRecord Input) :
    RegistryEvent TRecord Input → FileBackedRegistry TRecord Input → Prop where
  | started (c : Nat) (request) (hnew : s.calls c = none) :
      RegistryStep s (.started c request) (s.start c request)
  | allocationTurn (c : Nat) (request input) (hturn : s.allocationQueue.head? = some c)
      (hcall : s.calls c = some ⟨request, .allocating input⟩) :
      RegistryStep s (.allocationTurn c) (s.load c request (.listing input))
  | fileRead (c : Nat) (ok : Bool) (request reading)
      (hcall : s.calls c = some ⟨request, .loading reading⟩) :
      RegistryStep s (.fileRead c ok)
        (s.setPhase c request (.readAs (if ok then s.file else .unreadable) reading))
  | filled (c : Nat) (request outcome reading)
      (hcall : s.calls c = some ⟨request, .readAs outcome reading⟩) :
      RegistryStep s (.filled c) (s.filled K c request outcome reading)
  | resumed (c : Nat) (minted : String) (request reading)
      (hcall : s.calls c = some ⟨request, .ready reading⟩) :
      RegistryStep s (.resumed c minted) (s.resume K c request minted reading)
  | mutationTurn (c : Nat) (request change) (hturn : s.mutationQueue.head? = some c)
      (hcall : s.calls c = some ⟨request, .queued change⟩) :
      RegistryStep s (.mutationTurn c) (s.load c request (.mutation change))
  | written (c : Nat) (request change staged)
      (hcall : s.calls c = some ⟨request, .writing change staged⟩) :
      RegistryStep s (.written c) (s.written c request change staged)
  | writeFailed (c : Nat) (request change staged)
      (hcall : s.calls c = some ⟨request, .writing change staged⟩) :
      RegistryStep s (.writeFailed c) (s.endMutation c request change .failed)
  | committed (c : Nat) (request change staged)
      (hcall : s.calls c = some ⟨request, .wrote change staged⟩) :
      RegistryStep s (.committed c) (s.commit K c request change staged)
  | published (c : Nat) (request change record)
      (hcall : s.calls c = some ⟨request, .publishing change record⟩) :
      RegistryStep s (.published c) (s.published c request change (.returned (.committed record)))
  -- the registry of workspaces catches what its listeners throw
  | listenerThrew (c : Nat) (request change record) (hpass : K.listenerErrorsPass = true)
      (hcall : s.calls c = some ⟨request, .publishing change record⟩) :
      RegistryStep s (.listenerThrew c) (s.published c request change .failed)
  | frozen : RegistryStep s .frozen { s with mutationsBlockedUntilRestart := true }

end Registry

end Frogg.Server
