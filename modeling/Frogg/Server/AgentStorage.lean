/-
  Subject:   The daemon's store of agent records (server/agent/agent-storage.ts;
             toStoredAgentRecord of agent-projections.ts).

  What runs between two awaits is one step. Every operation waits for the load first, so the store
  starts loaded. `pendingWrites` holds the last promise of a chain of mutations for each agent; the
  chain stands here as the list of those not settled yet, the running one first. The columns of a
  record that the store only carries along are of type `Rest`.
-/
import Mathlib.Logic.Function.Basic

namespace Frogg.Server

open Function

/-! ## 1. Records -/

/-- A property that may be absent or null. -/
inductive Field (α : Type) where
  | absent
  | null
  | value (a : α)
  deriving DecidableEq, Repr

/-- `field ?? null` -/
def Field.orNull {α : Type} : Field α → Field α
  | .value a => .value a
  | _ => .null

structure DaemonAgentOwner where
  daemonId : String
  executionId : String
  deriving DecidableEq, Repr

def daemonExecutionKey (owner : DaemonAgentOwner) : String :=
  owner.daemonId ++ "\x00" ++ owner.executionId

structure InterruptedTurn where
  at_ : String
  reason : String
  deriving DecidableEq, Repr

structure StoredAgentRecord (Rest : Type) where
  id : String
  cwd : String
  createdAt : String
  title : Field String
  internal : Option Bool
  archivedAt : Field String
  interruptedTurn : Field InterruptedTurn
  owner : Option DaemonAgentOwner
  rest : Rest
  deriving DecidableEq, Repr

/-- What a snapshot reads of a live agent, as it is when the mutation runs. -/
structure ManagedAgentSnapshot (Rest : Type) where
  id : String
  cwd : String
  createdAt : String
  internal : Option Bool
  owner : Option DaemonAgentOwner
  rest : Rest

/-- The options of `applySnapshot`; `none` where the caller has no such property. -/
structure SnapshotOptions where
  title : Option (Field String)
  internal : Option (Option Bool)
  deriving DecidableEq, Repr

section

variable {Rest : Type}

def StoredAgentRecord.withTitle (record : StoredAgentRecord Rest) (title : String) :
    StoredAgentRecord Rest :=
  { record with title := .value title }

/-- The key under which a record is found by its daemon execution. -/
def StoredAgentRecord.executionKey (record : StoredAgentRecord Rest) : Option String :=
  record.owner.map daemonExecutionKey

variable (agent : ManagedAgentSnapshot Rest)

def toStoredAgentRecord (title : Field String)
    (createdAt : Option String) (internal : Option Bool) : StoredAgentRecord Rest where
  id := agent.id
  cwd := agent.cwd
  createdAt := createdAt.getD agent.createdAt
  title := title.orNull
  internal
  archivedAt := .absent
  interruptedTurn := .absent
  owner := agent.owner
  rest := agent.rest

/-- The record a snapshot makes; an archived record stays archived. -/
def snapshotRecord (options : SnapshotOptions)
    (existing : Option (StoredAgentRecord Rest)) : StoredAgentRecord Rest :=
  let existingTitle := (existing.map StoredAgentRecord.title).getD .absent
  let record := toStoredAgentRecord agent ((options.title.getD existingTitle).orNull)
    (existing.map StoredAgentRecord.createdAt)
    (options.internal.getD (agent.internal.or (existing.bind StoredAgentRecord.internal)))
  match existing.map StoredAgentRecord.archivedAt with
  | none | some .absent => record
  | some archivedAt => { record with archivedAt }

end

/-! ## 2. State -/

/-- What a mutation does when its turn comes. `setTitle` holds the record it has read and how often
    that had changed then. -/
inductive Mutation (Rest : Type) where
  | upsert (record : StoredAgentRecord Rest)
  | applySnapshot (options : SnapshotOptions)
  | markInterruptedTurn (turn : InterruptedTurn)
  | clearInterruptedTurn
  | setTitle (read : StoredAgentRecord Rest) (version : Nat) (title : String)

/-- Where a mutation stands: before its turn, in `writeJsonFileAtomic`, in the `unlink` of the file
    at the previous path, or settled. -/
inductive MutationPhase (Rest : Type) where
  | waiting
  | writing (existing : Option (StoredAgentRecord Rest)) (record : StoredAgentRecord Rest)
      (previousPath : Option String)
  | unlinking (existing : Option (StoredAgentRecord Rest)) (record : StoredAgentRecord Rest)
      (previousPath : String)
  | resolved
  | rejected

structure PendingMutation (Rest : Type) where
  number : Nat
  mutation : Mutation Rest
  phase : MutationPhase Rest

/-- A `setTitle` before its own mutation is queued: it waits for the pending write, or has read the
    record. -/
inductive SetTitleStage (Rest : Type) where
  | waiting (pending : Option Nat)
  | read (record : StoredAgentRecord Rest) (version : Nat)

structure SetTitleCall (Rest : Type) where
  agentId : String
  title : String
  stage : SetTitleStage Rest

inductive RemoveStage where
  | waiting (pending : Option Nat)
  | unlinking
  deriving DecidableEq, Repr

structure RemoveCall where
  agentId : String
  stage : RemoveStage
  deriving DecidableEq, Repr

/-- `versions` is not in the source: it counts the changes of each agent's record. -/
structure AgentStorage (Rest : Type) where
  cache : String → Option (StoredAgentRecord Rest)
  pathById : String → Option String
  pathsById : String → List String
  pendingWrites : String → List (PendingMutation Rest)
  deleting : String → Bool
  daemonAgentIdsByExecution : String → Option String
  daemonExecutionKeysByAgentId : String → Option String
  setTitles : List (SetTitleCall Rest)
  removes : List RemoveCall
  nextNumber : Nat
  versions : String → Nat

namespace AgentStorage

variable {Rest : Type}

/-! ## 3. Indexes -/

section

variable (s : AgentStorage Rest)

def removeOwnerIndex (agentId : String) : AgentStorage Rest :=
  match s.daemonExecutionKeysByAgentId agentId with
  | none => s
  | some key =>
    { s with
      daemonAgentIdsByExecution :=
        if s.daemonAgentIdsByExecution key = some agentId then
          update s.daemonAgentIdsByExecution key none
        else s.daemonAgentIdsByExecution
      daemonExecutionKeysByAgentId :=
        update s.daemonExecutionKeysByAgentId agentId none }

variable (record : StoredAgentRecord Rest)

def indexOwner : AgentStorage Rest :=
  let s := s.removeOwnerIndex record.id
  match record.executionKey with
  | none => s
  | some key =>
    let keys :=
      match s.daemonAgentIdsByExecution key with
      | some previousAgentId =>
        if previousAgentId ≠ "" ∧ previousAgentId ≠ record.id then
          update s.daemonExecutionKeysByAgentId previousAgentId none
        else s.daemonExecutionKeysByAgentId
      | none => s.daemonExecutionKeysByAgentId
    { s with
      daemonAgentIdsByExecution :=
        update s.daemonAgentIdsByExecution key (some record.id)
      daemonExecutionKeysByAgentId := update keys record.id (some key) }

variable (agentId filePath : String)

def addIndexedPath : AgentStorage Rest :=
  { s with
    pathsById := update s.pathsById agentId
      (if filePath ∈ s.pathsById agentId then s.pathsById agentId
        else s.pathsById agentId ++ [filePath]) }

def removeIndexedPath : AgentStorage Rest :=
  { s with
    pathsById := update s.pathsById agentId
      ((s.pathsById agentId).filter (· ≠ filePath)) }

/-- `cache.set`, `indexOwner` and `pathById.set` of a record that stands in its file. -/
def commitRecord (filePath : String) : AgentStorage Rest :=
  let s := ({ s with
    cache := update s.cache record.id (some record) } : AgentStorage Rest).indexOwner record
  { s with
    pathById := update s.pathById record.id (some filePath)
    versions := update s.versions record.id (s.versions record.id + 1) }

def emptyStorage : AgentStorage Rest where
  cache := fun _ => none
  pathById := fun _ => none
  pathsById := fun _ => []
  pendingWrites := fun _ => []
  deleting := fun _ => false
  daemonAgentIdsByExecution := fun _ => none
  daemonExecutionKeysByAgentId := fun _ => none
  setTitles := []
  removes := []
  nextNumber := 0
  versions := fun _ => 0

/-- One record of `scanDisk`; that the path is listed first makes no difference. -/
def loadRecord (file : String × StoredAgentRecord Rest) : AgentStorage Rest :=
  (s.addIndexedPath file.2.id file.1).commitRecord file.2 file.1

end

section

variable (s : AgentStorage Rest) (agentId filePath : String) (record : StoredAgentRecord Rest)

/-- What the owner index does not touch. -/
structure SameButOwners (s s' : AgentStorage Rest) : Prop where
  cache : s'.cache = s.cache
  pathById : s'.pathById = s.pathById
  pathsById : s'.pathsById = s.pathsById
  pendingWrites : s'.pendingWrites = s.pendingWrites
  deleting : s'.deleting = s.deleting
  setTitles : s'.setTitles = s.setTitles
  removes : s'.removes = s.removes
  versions : s'.versions = s.versions

theorem removeOwnerIndex_same : SameButOwners s (s.removeOwnerIndex agentId) := by
  unfold removeOwnerIndex
  split <;> exact ⟨rfl, rfl, rfl, rfl, rfl, rfl, rfl, rfl⟩

theorem indexOwner_same : SameButOwners s (s.indexOwner record) := by
  obtain ⟨hc, hp, hps, hpw, hd, ht, hr, hv⟩ := removeOwnerIndex_same s record.id
  unfold indexOwner
  split
  · exact ⟨hc, hp, hps, hpw, hd, ht, hr, hv⟩
  · exact ⟨hc, hp, hps, hpw, hd, ht, hr, hv⟩

@[simp] theorem commitRecord_cache : (s.commitRecord record filePath).cache =
    update s.cache record.id (some record) :=
  (indexOwner_same _ record).cache

@[simp] theorem commitRecord_pathById : (s.commitRecord record filePath).pathById =
    update s.pathById record.id (some filePath) := by
  unfold commitRecord
  dsimp only
  rw [(indexOwner_same _ record).pathById]

@[simp] theorem commitRecord_pathsById :
    (s.commitRecord record filePath).pathsById = s.pathsById :=
  (indexOwner_same _ record).pathsById

end

/-! ## 4. The chain of an agent -/

section

variable (s : AgentStorage Rest) (agentId : String)

def lastPending : Option Nat :=
  (s.pendingWrites agentId).getLast?.map PendingMutation.number

def isPending (number : Nat) : Bool :=
  (s.pendingWrites agentId).any fun pending => pending.number = number

/-- `await` on a pending write goes on. -/
def settled : Option Nat → Bool
  | none => true
  | some number => !s.isPending agentId number

variable (mutation : Mutation Rest)

def queueRecordMutation : AgentStorage Rest :=
  { s with
    pendingWrites := update s.pendingWrites agentId
      (s.pendingWrites agentId ++ [⟨s.nextNumber, mutation, .waiting⟩])
    nextNumber := s.nextNumber + 1 }

/-- `mutate(existing)`; `none` where it throws. -/
def mutate (existing : Option (StoredAgentRecord Rest))
    (agent : ManagedAgentSnapshot Rest) : Option (StoredAgentRecord Rest) :=
  match mutation with
  | .upsert record => some record
  | .applySnapshot options => some (snapshotRecord agent options existing)
  | .markInterruptedTurn turn => existing.map ({ · with interruptedTurn := .value turn })
  | .clearInterruptedTurn => existing.map ({ · with interruptedTurn := .null })
  | .setTitle read _ title => some (read.withTitle title)

variable (head : PendingMutation Rest) (behind : List (PendingMutation Rest))

def setPhase (phase : MutationPhase Rest) : AgentStorage Rest :=
  { s with
    pendingWrites := update s.pendingWrites agentId ({ head with phase } :: behind) }

/-- The turn of the first mutation of a chain. -/
def start (agent : ManagedAgentSnapshot Rest) : AgentStorage Rest :=
  if s.deleting agentId then s.setPhase agentId head behind .resolved
  else
    let existing := s.cache agentId
    match mutate head.mutation existing agent with
    | none => s.setPhase agentId head behind .rejected
    | some record =>
      s.setPhase agentId head behind (.writing existing record (s.pathById record.id))

end

section

-- `path.join(baseDir, projectDirNameFromCwd(cwd), id + ".json")`
variable (buildRecordPath : StoredAgentRecord Rest → String)

/-- `previousPath && previousPath !== nextPath` -/
def previousFile (previousPath : Option String) (nextPath : String) : Option String :=
  previousPath.filter fun previous => previous ≠ "" && previous ≠ nextPath

variable (s : AgentStorage Rest)

/-- `writeJsonFileAtomic` has succeeded: the record is committed unless the file at the previous
    path must go first. -/
def writeSucceeded (agentId : String) (head : PendingMutation Rest)
    (behind : List (PendingMutation Rest)) (existing : Option (StoredAgentRecord Rest))
    (record : StoredAgentRecord Rest) (previousPath : Option String) : AgentStorage Rest :=
  let nextPath := buildRecordPath record
  let s := s.addIndexedPath record.id nextPath
  match previousFile previousPath nextPath with
  | some previous => s.setPhase agentId head behind (.unlinking existing record previous)
  | none => (s.commitRecord record nextPath).setPhase agentId head behind .resolved

/-- The `unlink` of the previous file is over, whether it failed or not. -/
def previousUnlinked (agentId : String) (head : PendingMutation Rest)
    (behind : List (PendingMutation Rest)) (record : StoredAgentRecord Rest)
    (previousPath : String) : AgentStorage Rest :=
  ((s.removeIndexedPath record.id previousPath).commitRecord record
    (buildRecordPath record)).setPhase agentId head behind .resolved

end

/-- A rejected promise rejects the one chained to it. -/
def rejectNext : List (PendingMutation Rest) → List (PendingMutation Rest)
  | [] => []
  | next :: behind => { next with phase := .rejected } :: behind

variable (s : AgentStorage Rest) (agentId : String)

/-- The first promise of a chain settles: the next one goes on, or rejects with it, and so does a
    `remove` that waits for it. -/
def settle (number : Nat)
    (behind : List (PendingMutation Rest)) (rejected : Bool) : AgentStorage Rest :=
  { s with
    pendingWrites := update s.pendingWrites agentId
      (if rejected then rejectNext behind else behind)
    removes := if rejected then
        s.removes.filter fun call => call ≠ ⟨agentId, .waiting (some number)⟩
      else s.removes }

/-! ## 5. Calls -/

/-- `if (!existing?.interruptedTurn) return` -/
def clearInterruptedTurn (s : AgentStorage Rest) (agentId : String) : AgentStorage Rest :=
  match (s.cache agentId).map StoredAgentRecord.interruptedTurn with
  | some (.value _) => s.queueRecordMutation agentId .clearInterruptedTurn
  | _ => s

def setTitle (agentId title : String) : AgentStorage Rest :=
  { s with setTitles := s.setTitles ++ [⟨agentId, title, .waiting (s.lastPending agentId)⟩] }

variable (place : Nat)

/-- `get` in `setTitle`; without a record it throws. -/
def titleRead (call : SetTitleCall Rest) : AgentStorage Rest :=
  match s.cache call.agentId with
  | none => { s with setTitles := s.setTitles.eraseIdx place }
  | some record =>
    { s with
      setTitles := s.setTitles.set place
        { call with stage := .read record (s.versions call.agentId) } }

/-- `upsert({ ...record, title })` -/
def titleQueued (record : StoredAgentRecord Rest)
    (version : Nat) (title : String) : AgentStorage Rest :=
  ({ s with setTitles := s.setTitles.eraseIdx place } : AgentStorage Rest).queueRecordMutation
    record.id (.setTitle record version title)

def beginDelete : AgentStorage Rest :=
  { s with deleting := update s.deleting agentId true }

/-- `remove`, up to its wait for the pending write. -/
def remove : AgentStorage Rest :=
  { s.beginDelete agentId with
    removes := s.removes ++ [⟨agentId, .waiting (s.lastPending agentId)⟩] }

/-- The unlinks of `remove` are over. -/
def removed (agentId : String) : AgentStorage Rest :=
  let s := ({ s with
    removes := s.removes.eraseIdx place
    cache := update s.cache agentId none } : AgentStorage Rest).removeOwnerIndex agentId
  { s with
    pathById := update s.pathById agentId none
    pathsById := update s.pathsById agentId []
    versions := update s.versions agentId (s.versions agentId + 1) }

end AgentStorage

end Frogg.Server
