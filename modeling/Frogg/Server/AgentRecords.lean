/-
  Subject:   What the store keeps of each agent's record over all orders of its mutations.

  A run keeps, next to the store, the record last written for each agent, what each committed
  mutation was given and made, the mutations that failed with what waited behind them, and what the
  failure of another mutation took down.
-/
import Frogg.Library.Transition
import Frogg.Server.AgentStorage

namespace Frogg.Server

open Library List Option Function AgentStorage

/-! ## 1. Runs -/

/-- A call of the store's owner, or the end of an await. `start` gives the live agent as it is when
    the turn of a snapshot comes. -/
inductive StorageEvent (Rest : Type) where
  | upsert (record : StoredAgentRecord Rest)
  | applySnapshot (agentId : String) (options : SnapshotOptions)
  | markInterruptedTurn (agentId : String) (turn : InterruptedTurn)
  | clearInterruptedTurn (agentId : String)
  | setTitle (agentId title : String)
  | titleRead (place : Nat)
  | titleQueued (place : Nat)
  | beginDelete (agentId : String)
  | remove (agentId : String)
  | removePaths (place : Nat)
  | removed (place : Nat)
  | start (agentId : String) (agent : ManagedAgentSnapshot Rest)
  | writeSucceeded (agentId : String)
  | writeFailed (agentId : String)
  | previousUnlinked (agentId : String)
  | settle (agentId : String)

/-- A record committed: what the mutation was given, what had been written last, how often the
    agent's record had changed, and what was written. -/
structure Commit (Rest : Type) where
  mutation : Mutation Rest
  existing : Option (StoredAgentRecord Rest)
  current : Option (StoredAgentRecord Rest)
  version : Nat
  record : StoredAgentRecord Rest

/-- A mutation settled as rejected, with the mutations chained behind it and the `remove` calls that
    waited for it. -/
structure Failure where
  agentId : String
  behind : Nat
  removes : Nat
  deriving DecidableEq, Repr

structure StorageRun (Rest : Type) where
  storage : AgentStorage Rest
  written : String → Option (StoredAgentRecord Rest)
  writtenPath : String → Option String
  lastOwner : String → Option String
  removedIds : String → Bool
  commits : List (Commit Rest)
  failures : List Failure
  lateWrites : List String
  unrun : List (Mutation Rest)
  failedRemoves : List String

namespace StorageRun

variable {Rest : Type}

section

variable (r : StorageRun Rest)

def withStorage (storage : AgentStorage Rest) : StorageRun Rest :=
  { r with storage }

/-- A file write has succeeded. -/
def fileWritten (agentId : String) : StorageRun Rest :=
  { r with lateWrites := if r.removedIds agentId then r.lateWrites ++ [agentId] else r.lateWrites }

/-- A record has been written and its previous file is gone. -/
def recordWritten (record : StoredAgentRecord Rest) (filePath : String) : StorageRun Rest :=
  { r with
    written := update r.written record.id (some record)
    writtenPath := update r.writtenPath record.id (some filePath)
    lastOwner := match record.executionKey with
      | some key => update r.lastOwner key (some record.id)
      | none => r.lastOwner }

def committed (mutation : Mutation Rest)
    (existing : Option (StoredAgentRecord Rest)) (record : StoredAgentRecord Rest)
    (filePath : String) : StorageRun Rest :=
  { r.recordWritten record filePath with
    commits := r.commits ++
      [⟨mutation, existing, r.written record.id, r.storage.versions record.id, record⟩] }

end

def loadRecord (r : StorageRun Rest) (file : String × StoredAgentRecord Rest) : StorageRun Rest :=
  (r.recordWritten file.2 file.1).withStorage (r.storage.loadRecord file)

def empty : StorageRun Rest :=
  ⟨emptyStorage, fun _ => none, fun _ => none, fun _ => none, fun _ => false, [], [],
    [], [], []⟩

/-- The store after `load`. -/
def load (files : List (String × StoredAgentRecord Rest)) : StorageRun Rest :=
  files.foldl loadRecord empty

section

variable (buildRecordPath : StoredAgentRecord Rest → String)

/-- The first mutation of a chain goes on. -/
def stepHead (r : StorageRun Rest) (agentId : String) (head : PendingMutation Rest)
    (behind : List (PendingMutation Rest)) : StorageEvent Rest → Option (StorageRun Rest)
  | .start _ agent =>
    match head.phase with
    | .waiting =>
      if agent.id = agentId then
        some (r.withStorage (r.storage.start agentId head behind agent))
      else none
    | _ => none
  | .writeSucceeded _ =>
    match head.phase with
    | .writing existing record previousPath =>
      let r := r.fileWritten record.id
      let storage := r.storage.writeSucceeded buildRecordPath agentId head behind existing record
        previousPath
      match previousFile previousPath (buildRecordPath record) with
      | some _ => some (r.withStorage storage)
      | none =>
        some ((r.committed head.mutation existing record (buildRecordPath record)).withStorage
          storage)
    | _ => none
  | .writeFailed _ =>
    match head.phase with
    | .writing _ _ _ => some (r.withStorage (r.storage.setPhase agentId head behind .rejected))
    | _ => none
  | .previousUnlinked _ =>
    match head.phase with
    | .unlinking existing record previousPath =>
      some ((r.committed head.mutation existing record (buildRecordPath record)).withStorage
        (r.storage.previousUnlinked buildRecordPath agentId head behind record previousPath))
    | _ => none
  | .settle _ =>
    match head.phase with
    | .resolved => some (r.withStorage (r.storage.settle agentId head.number behind false))
    | .rejected =>
      let waiting := r.storage.removes.filter
        fun call => call = ⟨agentId, .waiting (some head.number)⟩
      some { r with
        storage := r.storage.settle agentId head.number behind true
        failures := r.failures ++ [⟨agentId, behind.length, waiting.length⟩]
        unrun := r.unrun ++ behind.head?.toList.map PendingMutation.mutation
        failedRemoves := r.failedRemoves ++ waiting.map RemoveCall.agentId }
    | _ => none
  | _ => none

/-- One event; `none` where nothing waits for it. -/
def next (r : StorageRun Rest) (event : StorageEvent Rest) : Option (StorageRun Rest) :=
  match event with
  | .upsert record => some (r.withStorage (r.storage.queueRecordMutation record.id (.upsert record)))
  | .applySnapshot agentId options =>
    some (r.withStorage (r.storage.queueRecordMutation agentId (.applySnapshot options)))
  | .markInterruptedTurn agentId turn =>
    some (r.withStorage (r.storage.queueRecordMutation agentId (.markInterruptedTurn turn)))
  | .clearInterruptedTurn agentId => some (r.withStorage (r.storage.clearInterruptedTurn agentId))
  | .setTitle agentId title => some (r.withStorage (r.storage.setTitle agentId title))
  | .titleRead place =>
    match r.storage.setTitles[place]? with
    | some call =>
      match call.stage with
      | .waiting pending =>
        if r.storage.settled call.agentId pending then
          some (r.withStorage (r.storage.titleRead place call))
        else none
      | .read _ _ => none
    | none => none
  | .titleQueued place =>
    match r.storage.setTitles[place]? with
    | some call =>
      match call.stage with
      | .read record version =>
        some (r.withStorage (r.storage.titleQueued place record version call.title))
      | .waiting _ => none
    | none => none
  | .beginDelete agentId => some (r.withStorage (r.storage.beginDelete agentId))
  | .remove agentId => some (r.withStorage (r.storage.remove agentId))
  | .removePaths place =>
    match r.storage.removes[place]? with
    | some call =>
      match call.stage with
      | .waiting pending =>
        if r.storage.settled call.agentId pending then
          some (r.withStorage { r.storage with
            removes := r.storage.removes.set place { call with stage := .unlinking } })
        else none
      | .unlinking => none
    | none => none
  | .removed place =>
    match r.storage.removes[place]? with
    | some call =>
      match call.stage with
      | .unlinking => some { r with
          storage := r.storage.removed place call.agentId
          written := update r.written call.agentId none
          writtenPath := update r.writtenPath call.agentId none
          removedIds := update r.removedIds call.agentId true }
      | .waiting _ => none
    | none => none
  | .start agentId _ | .writeSucceeded agentId | .writeFailed agentId | .previousUnlinked agentId
  | .settle agentId =>
    match r.storage.pendingWrites agentId with
    | head :: behind => r.stepHead buildRecordPath agentId head behind event
    | [] => none

/-- All runs from a loaded store. -/
def system : TransitionSystem (StorageRun Rest) where
  init r := ∃ files, r = load files
  step r r' := ∃ event, r.next buildRecordPath event = some r'

end

end StorageRun

/-! ## 2. What is kept -/

section

variable {Rest : Type}

/-- Cache, path index and owner index describe the record last written for each agent. -/
structure IndexesDescribe (r : StorageRun Rest) : Prop where
  cache : r.storage.cache = r.written
  path : r.storage.pathById = r.writtenPath
  listed : ∀ a p, r.storage.pathById a = some p → p ∈ r.storage.pathsById a
  owner : ∀ key, r.storage.daemonAgentIdsByExecution key =
    (r.lastOwner key).filter fun a => (r.written a).bind StoredAgentRecord.executionKey = some key

/-- A mutation committed is the one asked for, on the record last written. -/
structure CommitKept (c : Commit Rest) : Prop where
  onLast : c.existing = c.current
  made : ∃ agent, mutate c.mutation c.existing agent = some c.record
  archived : ∀ options, c.mutation = .applySnapshot options → ∀ before, c.current = some before →
    before.archivedAt ≠ .absent → c.record.archivedAt = before.archivedAt
  title : ∀ read version title, c.mutation = .setTitle read version title →
    ∃ before, c.current = some before ∧ c.record = before.withTitle title

/-- Nothing was chained behind a mutation that failed and no `remove` waited for it, and an agent's
    record did not change between the read of a `setTitle` and its write. -/
structure WellTimed (r : StorageRun Rest) : Prop where
  failures : ∀ f ∈ r.failures, f.behind = 0 ∧ f.removes = 0
  titles : ∀ c ∈ r.commits, ∀ read version title, c.mutation = .setTitle read version title →
    version = c.version

end

/-! ## 3. Indexes -/

section

variable {Rest : Type}

/-- The indexes describe the records, an indexed execution knows its agent, and records stand under
    their own id. -/
structure IndexesOk (r : StorageRun Rest) : Prop where
  describe : IndexesDescribe r
  keys : ∀ key a, r.storage.daemonAgentIdsByExecution key = some a →
    r.storage.daemonExecutionKeysByAgentId a = some key
  ids : ∀ a record, r.storage.cache a = some record → record.id = a

/-- After an agent has left the owner index, no execution leads to it; the others stay. -/
theorem removeOwnerIndex_owners {s : AgentStorage Rest} (agentId : String)
    (hkeys : ∀ key a, s.daemonAgentIdsByExecution key = some a →
      s.daemonExecutionKeysByAgentId a = some key) (key : String) :
    (s.removeOwnerIndex agentId).daemonAgentIdsByExecution key =
        (s.daemonAgentIdsByExecution key).filter (· ≠ agentId) ∧
      ∀ a, a ≠ agentId → (s.removeOwnerIndex agentId).daemonExecutionKeysByAgentId a =
        s.daemonExecutionKeysByAgentId a := by
  unfold removeOwnerIndex
  cases hown : s.daemonExecutionKeysByAgentId agentId with
  | none =>
    refine ⟨?_, fun _ _ => rfl⟩
    cases hid : s.daemonAgentIdsByExecution key with
    | none => rfl
    | some a =>
      have hne : a ≠ agentId := by rintro rfl; rw [hkeys key a hid] at hown; cases hown
      simp [filter_some, hne]
  | some own =>
    dsimp only
    refine ⟨?_, fun a ha => update_of_ne ha _ _⟩
    by_cases hkey : key = own
    · subst hkey
      cases hid : s.daemonAgentIdsByExecution key with
      | none => simp [hid]
      | some a =>
        by_cases ha : a = agentId
        · simp [filter_some, ha]
        · simp [hid, filter_some, ha]
    · have hother : (s.daemonAgentIdsByExecution key).filter (· ≠ agentId) =
          s.daemonAgentIdsByExecution key := by
        cases hid : s.daemonAgentIdsByExecution key with
        | none => rfl
        | some a =>
          have hne : a ≠ agentId := by
            rintro rfl
            rw [hkeys key a hid] at hown
            exact hkey (some.inj hown)
          simp [filter_some, hne]
      rw [hother]
      split
      · exact update_of_ne hkey _ _
      · rfl

variable {a : String}

/-- The owner of an execution, once the record of one agent has another execution or none. -/
theorem filter_owner_update {written : String → Option (StoredAgentRecord Rest)}
    {agentId key : String} {new : Option (StoredAgentRecord Rest)}
    (hnew : new.bind StoredAgentRecord.executionKey ≠ some key) (owner : Option String) :
    (owner.filter fun a => (written a).bind StoredAgentRecord.executionKey = some key).filter
        (· ≠ agentId) =
      owner.filter fun a =>
        (update written agentId new a).bind StoredAgentRecord.executionKey = some key := by
  cases owner with
  | none => rfl
  | some b =>
    by_cases hb : b = agentId
    · subst hb; simp [filter_some, hnew]
    · simp only [filter_some, update_of_ne hb]
      split
      · simp [filter_some, hb]
      · rfl

theorem filter_ne_eq_some {o : Option String} {b : String} :
    o.filter (· ≠ b) = some a ↔ o = some a ∧ a ≠ b := by
  simp

section

variable {s : AgentStorage Rest} (record : StoredAgentRecord Rest)

section

variable (hkeys : ∀ key a, s.daemonAgentIdsByExecution key = some a → s.daemonExecutionKeysByAgentId a = some key)
include hkeys

/-- An indexed record is found by its execution; the agent leaves every other execution. -/
theorem indexOwner_ids (key : String) : (s.indexOwner record).daemonAgentIdsByExecution key =
      if record.executionKey = some key then some record.id
      else (s.daemonAgentIdsByExecution key).filter (· ≠ record.id) := by
  have hremoved := (removeOwnerIndex_owners record.id hkeys key).1
  unfold indexOwner
  cases hexecution : record.executionKey with
  | none => exact hremoved
  | some own =>
    dsimp only
    by_cases hkey : key = own
    · subst hkey; rw [update_self, if_pos rfl]
    · rw [update_of_ne hkey, if_neg fun h => hkey (some.inj h).symm]; exact hremoved

theorem indexOwner_keys (key a : String)
    (h : (s.indexOwner record).daemonAgentIdsByExecution key = some a) :
    (s.indexOwner record).daemonExecutionKeysByAgentId a = some key := by
  rw [indexOwner_ids record hkeys] at h
  unfold indexOwner
  by_cases hown : record.executionKey = some key
  · rw [if_pos hown] at h
    obtain rfl := some.inj h
    rw [hown]
    exact update_self _ _ _
  · rw [if_neg hown] at h
    obtain ⟨hid, hne⟩ := filter_ne_eq_some.mp h
    have hstays : (s.removeOwnerIndex record.id).daemonExecutionKeysByAgentId a = some key :=
      ((removeOwnerIndex_owners record.id hkeys key).2 a hne).trans (hkeys key a hid)
    cases hexecution : record.executionKey with
    | none => exact hstays
    | some own =>
      dsimp only
      rw [update_of_ne hne]
      cases hprevious : (s.removeOwnerIndex record.id).daemonAgentIdsByExecution own with
      | none => exact hstays
      | some previous =>
        dsimp only
        split
        · -- the agent that loses the execution is another one: this one has another execution
          have hother : a ≠ previous := by
            rintro rfl
            rw [(removeOwnerIndex_owners record.id hkeys own).1] at hprevious
            have := hkeys own a (filter_ne_eq_some.mp hprevious).1
            rw [hkeys key a hid] at this
            rw [hexecution, some.inj this] at hown
            exact hown rfl
          rw [update_of_ne hother]
          exact hstays
        · exact hstays

end

theorem commitRecord_ids
    (filePath : String) (hkeys : ∀ key a, s.daemonAgentIdsByExecution key = some a →
      s.daemonExecutionKeysByAgentId a = some key) (key : String) :
    (s.commitRecord record filePath).daemonAgentIdsByExecution key =
      if record.executionKey = some key then some record.id
      else (s.daemonAgentIdsByExecution key).filter (· ≠ record.id) :=
  @indexOwner_ids Rest { s with cache := update s.cache record.id (some record) } record
    hkeys key

end

/-- The store with the paths listed for one agent replaced. -/
def listing (s : AgentStorage Rest) (agentId : String) (paths : List String) : AgentStorage Rest :=
  { s with pathsById := update s.pathsById agentId paths }

variable {r : StorageRun Rest}

/-- Committing a record whose file is listed keeps the indexes true to the records. -/
theorem IndexesOk.commit (h : IndexesOk r) (record : StoredAgentRecord Rest) (filePath : String)
    {paths : List String} (hlisted : filePath ∈ paths) :
    IndexesOk ((r.recordWritten record filePath).withStorage
      ((listing r.storage record.id paths).commitRecord record filePath)) := by
  obtain ⟨⟨hcache, hpath, hpaths, howner⟩, hkeys, hids⟩ := h
  refine ⟨⟨?_, ?_, fun a p hp => ?_, fun key => ?_⟩, fun key a hid => ?_, fun a record' hc => ?_⟩
  · show ((listing r.storage record.id paths).commitRecord record filePath).cache = _
    rw [commitRecord_cache]
    show update r.storage.cache record.id (some record) = _
    rw [hcache]
    rfl
  · show ((listing r.storage record.id paths).commitRecord record filePath).pathById = _
    rw [commitRecord_pathById]
    show update r.storage.pathById record.id (some filePath) = _
    rw [hpath]
    rfl
  · show p ∈ ((listing r.storage record.id paths).commitRecord record filePath).pathsById a
    have hp : ((listing r.storage record.id paths).commitRecord record filePath).pathById a = some p := hp
    rw [commitRecord_pathById] at hp
    rw [commitRecord_pathsById]
    show p ∈ update r.storage.pathsById record.id paths a
    by_cases ha : a = record.id
    · subst ha
      rw [update_self] at hp ⊢
      obtain rfl := some.inj hp
      exact hlisted
    · rw [update_of_ne ha] at hp ⊢; exact hpaths a p hp
  · show ((listing r.storage record.id paths).commitRecord record filePath).daemonAgentIdsByExecution key =
      ((match record.executionKey with
      | some own => update r.lastOwner own (some record.id)
      | none => r.lastOwner) key).filter fun a =>
        (update r.written record.id (some record) a).bind
          StoredAgentRecord.executionKey = some key
    rw [@commitRecord_ids Rest (listing r.storage record.id paths) record filePath hkeys]
    by_cases hown : record.executionKey = some key
    · rw [if_pos hown, hown]
      dsimp only
      rw [update_self, filter_some, update_self]
      simp [hown]
    · have hlast : (match record.executionKey with
          | some own => update r.lastOwner own (some record.id)
          | none => r.lastOwner) key = r.lastOwner key := by
        cases hexecution : record.executionKey with
        | none => rfl
        | some own =>
          refine update_of_ne ?_ _ _
          rintro rfl
          exact hown hexecution
      rw [if_neg hown, hlast]
      show Option.filter _ (r.storage.daemonAgentIdsByExecution key) = _
      rw [howner key]
      exact @filter_owner_update _ _ record.id key (some record) hown _
  · exact @indexOwner_keys Rest
      { listing r.storage record.id paths with
        cache := update r.storage.cache record.id (some record) } record hkeys key a hid
  · have hc : ((listing r.storage record.id paths).commitRecord record filePath).cache a = some record' := hc
    rw [commitRecord_cache] at hc
    by_cases ha : a = record.id
    · subst ha
      rw [update_self] at hc
      obtain rfl := some.inj hc
      rfl
    · rw [update_of_ne ha] at hc; exact hids a record' hc

/-- Records, paths in use and owners stay; more paths may be listed. -/
theorem IndexesOk.of_same {r' : StorageRun Rest} (h : IndexesOk r)
    (hcache : r'.storage.cache = r.storage.cache) (hpath : r'.storage.pathById = r.storage.pathById)
    (hpaths : ∀ a p, r.storage.pathById a = some p → p ∈ r.storage.pathsById a →
      p ∈ r'.storage.pathsById a)
    (hids : r'.storage.daemonAgentIdsByExecution = r.storage.daemonAgentIdsByExecution)
    (hkeys : r'.storage.daemonExecutionKeysByAgentId = r.storage.daemonExecutionKeysByAgentId)
    (hwritten : r'.written = r.written) (hwrittenPath : r'.writtenPath = r.writtenPath)
    (hlast : r'.lastOwner = r.lastOwner) : IndexesOk r' := by
  refine ⟨⟨?_, ?_, fun a p hp => ?_, fun key => ?_⟩, fun key a hid => ?_, fun a record hc => ?_⟩
  · rw [hcache, hwritten, h.describe.cache]
  · rw [hpath, hwrittenPath, h.describe.path]
  · rw [hpath] at hp; exact hpaths a p hp (h.describe.listed a p hp)
  · rw [hids, hwritten, hlast, h.describe.owner]
  · rw [hids] at hid; rw [hkeys]; exact h.keys key a hid
  · rw [hcache] at hc; exact h.ids a record hc

/-- A removed agent leaves every index. -/
theorem IndexesOk.removed (h : IndexesOk r) (place : Nat) (agentId : String)
    (removedIds : String → Bool) : IndexesOk { r with
      storage := r.storage.removed place agentId
      written := update r.written agentId none
      writtenPath := update r.writtenPath agentId none
      removedIds } := by
  have hsame := removeOwnerIndex_same ({ r.storage with
    removes := r.storage.removes.eraseIdx place
    cache := update r.storage.cache agentId none } : AgentStorage Rest) agentId
  have howners := @removeOwnerIndex_owners Rest ({ r.storage with
    removes := r.storage.removes.eraseIdx place
    cache := update r.storage.cache agentId none }) agentId h.keys
  refine ⟨⟨?_, ?_, fun a p hp => ?_, fun key => ?_⟩, fun key a hid => ?_, fun a record hc => ?_⟩
  · refine hsame.cache.trans ?_
    rw [h.describe.cache]
  · show update (removeOwnerIndex _ _).pathById agentId none = _
    rw [hsame.pathById, h.describe.path]
  · have hp : update (removeOwnerIndex _ _).pathById agentId none a = some p := hp
    show p ∈ update (removeOwnerIndex _ _).pathsById agentId [] a
    rw [hsame.pathById] at hp
    rw [hsame.pathsById]
    by_cases ha : a = agentId
    · subst ha; rw [update_self] at hp; cases hp
    · rw [update_of_ne ha] at hp ⊢; exact h.describe.listed a p hp
  · refine (howners key).1.trans ?_
    rw [h.describe.owner key]
    exact @filter_owner_update _ _ agentId key none (by simp) _
  · have hid : (removeOwnerIndex _ agentId).daemonAgentIdsByExecution key = some a := hid
    rw [(howners key).1] at hid
    obtain ⟨hid, hne⟩ := filter_ne_eq_some.mp hid
    exact ((howners key).2 a hne).trans (h.keys key a hid)
  · have hc : (removeOwnerIndex _ agentId).cache a = some record := hc
    rw [hsame.cache] at hc
    by_cases ha : a = agentId
    · subst ha
      dsimp only at hc
      rw [update_self] at hc
      cases hc
    · dsimp only at hc; rw [update_of_ne ha] at hc; exact h.ids a record hc

theorem mem_indexed (filePath : String) (paths : List String) :
    filePath ∈ if filePath ∈ paths then paths else paths ++ [filePath] := by
  split
  · assumption
  · simp

section

variable (s : AgentStorage Rest)

theorem mem_addIndexedPath (agentId filePath : String) {p : String}
    (hp : p ∈ s.pathsById a) : p ∈ (s.addIndexedPath agentId filePath).pathsById a := by
  unfold addIndexedPath
  dsimp only
  by_cases ha : a = agentId
  · subst ha
    rw [update_self]
    split
    · exact hp
    · exact mem_append_left _ hp
  · rwa [update_of_ne ha]

theorem IndexesOk.addIndexedPath (h : IndexesOk r) (agentId filePath : String) :
    IndexesOk (r.withStorage (r.storage.addIndexedPath agentId filePath)) :=
  h.of_same rfl rfl (fun _ _ _ hp => mem_addIndexedPath _ _ _ hp) rfl rfl rfl rfl rfl

/-- One record of the load. -/
theorem IndexesOk.loadRecord (h : IndexesOk r) (file : String × StoredAgentRecord Rest) :
    IndexesOk (r.loadRecord file) :=
  h.commit file.2 file.1 (mem_indexed file.1 _)

/-- Neither a file write nor an unlink of the agent is under way. -/
def NotRunning (agentId : String) : Prop :=
  ∀ pending ∈ s.pendingWrites agentId,
    pending.phase = .waiting ∨ pending.phase = .resolved ∨ pending.phase = .rejected

/-- The record that a `setTitle` has read is the agent's, and the one held while the version is the
    same. -/
structure ReadOk (s : AgentStorage Rest) (agentId : String) (read : StoredAgentRecord Rest)
    (version : Nat) : Prop where
  id : read.id = agentId
  old : version ≤ s.versions agentId
  same : version = s.versions agentId → s.cache agentId = some read

def MutationOk (agentId : String) : Mutation Rest → Prop
  | .upsert record => record.id = agentId
  | .setTitle read version _ => ReadOk s agentId read version
  | _ => True

end

/-- The record on its way is what the mutation makes of the record held. -/
structure MakingOk (s : AgentStorage Rest) (agentId : String) (mutation : Mutation Rest)
    (existing : Option (StoredAgentRecord Rest)) (record : StoredAgentRecord Rest) : Prop where
  held : existing = s.cache agentId
  id : record.id = agentId
  made : ∃ agent, mutate mutation existing agent = some record

section

variable (buildRecordPath : StoredAgentRecord Rest → String)

def HeadOk (r : StorageRun Rest) (agentId : String) (head : PendingMutation Rest) : Prop :=
  match head.phase with
  | .writing existing record _ =>
    r.removedIds agentId = false ∧ MakingOk r.storage agentId head.mutation existing record
  | .unlinking existing record previousPath =>
    r.removedIds agentId = false ∧ MakingOk r.storage agentId head.mutation existing record ∧
      buildRecordPath record ∈ r.storage.pathsById agentId ∧
      previousPath ≠ buildRecordPath record
  | _ => True

def RemoveOk (s : AgentStorage Rest) (call : RemoveCall) : Prop :=
  s.deleting call.agentId = true ∧
    match call.stage with
    | .waiting (some number) =>
      s.isPending call.agentId number = true ∨ NotRunning s call.agentId
    | _ => NotRunning s call.agentId

structure ChainsOk (r : StorageRun Rest) : Prop where
  behind : ∀ a head behind, r.storage.pendingWrites a = head :: behind →
    ∀ pending ∈ behind, pending.phase = .waiting
  head : ∀ a head behind, r.storage.pendingWrites a = head :: behind → HeadOk buildRecordPath r a head
  mutations : ∀ a, ∀ pending ∈ r.storage.pendingWrites a, MutationOk r.storage a pending.mutation
  titles : ∀ call ∈ r.storage.setTitles, ∀ read version, call.stage = .read read version →
    ReadOk r.storage call.agentId read version
  removes : ∀ call ∈ r.storage.removes, RemoveOk r.storage call
  removed : ∀ a, r.removedIds a = true → r.storage.deleting a = true ∧ NotRunning r.storage a

end

/-- The agent's record is the same, or its version is newer. -/
def RecordKept (s s' : AgentStorage Rest) (a : String) : Prop :=
  s'.cache a = s.cache a ∧ s'.versions a = s.versions a ∨ s.versions a < s'.versions a

variable {s s' : AgentStorage Rest}

theorem ReadOk.kept {read : StoredAgentRecord Rest} {version : Nat} (h : ReadOk s a read version)
    (hkept : RecordKept s s' a) : ReadOk s' a read version := by
  obtain ⟨hid, hold, hsame⟩ := h
  rcases hkept with ⟨hcache, hversion⟩ | hnewer
  · exact ⟨hid, by rwa [hversion], by rwa [hcache, hversion]⟩
  · exact ⟨hid, by omega, fun h => by omega⟩

theorem MutationOk.kept {mutation : Mutation Rest} (h : MutationOk s a mutation)
    (hkept : RecordKept s s' a) : MutationOk s' a mutation := by
  cases mutation with
  | upsert record => exact h
  | setTitle read version title => exact ReadOk.kept h hkept
  | applySnapshot options => trivial
  | markInterruptedTurn turn => trivial
  | clearInterruptedTurn => trivial

variable {call : RemoveCall}

/-- A `remove` of the agent stands as well after a change of its chain. -/
theorem RemoveOk.kept (h : RemoveOk s call)
    (hdeleting : s.deleting call.agentId = true → s'.deleting call.agentId = true)
    (hnot : NotRunning s call.agentId → NotRunning s' call.agentId)
    (hpending : ∀ number, call.stage = .waiting (some number) →
      s.isPending call.agentId number = true →
      s'.isPending call.agentId number = true ∨ NotRunning s' call.agentId) : RemoveOk s' call := by
  obtain ⟨hdel, hstage⟩ := h
  refine ⟨hdeleting hdel, ?_⟩
  split at hstage
  · rename_i number hwaiting
    rcases hstage with hthere | hrunning
    · exact hpending number hwaiting hthere
    · exact .inr (hnot hrunning)
  · exact hnot hstage

/-- Nothing changes for the other agents. -/
structure Elsewhere (r r' : StorageRun Rest) (a : String) : Prop where
  chain : ∀ b, b ≠ a → r'.storage.pendingWrites b = r.storage.pendingWrites b
  cache : ∀ b, b ≠ a → r'.storage.cache b = r.storage.cache b
  versions : ∀ b, b ≠ a → r'.storage.versions b = r.storage.versions b
  paths : ∀ b, b ≠ a → r'.storage.pathsById b = r.storage.pathsById b
  deleting : ∀ b, b ≠ a → r'.storage.deleting b = r.storage.deleting b
  removedIds : ∀ b, b ≠ a → r'.removedIds b = r.removedIds b

section

variable {buildRecordPath : StoredAgentRecord Rest → String} {r r' : StorageRun Rest} {a : String}

theorem HeadOk.of_same {head : PendingMutation Rest} (h : HeadOk buildRecordPath r a head)
    (hcache : r'.storage.cache a = r.storage.cache a)
    (hpaths : r'.storage.pathsById a = r.storage.pathsById a)
    (hremoved : r'.removedIds a = r.removedIds a) : HeadOk buildRecordPath r' a head := by
  have hmaking {existing : Option (StoredAgentRecord Rest)} {record : StoredAgentRecord Rest}
      (hm : MakingOk r.storage a head.mutation existing record) :
      MakingOk r'.storage a head.mutation existing record :=
    ⟨hm.held.trans hcache.symm, hm.id, hm.made⟩
  unfold HeadOk at h ⊢
  split
  · rename_i hphase; rw [hphase] at h; exact ⟨hremoved.trans h.1, hmaking h.2⟩
  · rename_i hphase
    rw [hphase] at h
    obtain ⟨hnot, hm, hpath, hne⟩ := h
    exact ⟨hremoved.trans hnot, hmaking hm, hpaths ▸ hpath, hne⟩
  · trivial

theorem Elsewhere.notRunning (h : Elsewhere r r' a) {b : String} (hb : b ≠ a)
    (hnot : NotRunning r.storage b) : NotRunning r'.storage b := by
  unfold NotRunning
  rwa [h.chain b hb]

/-- **A step that concerns one agent**: what holds of that agent's chain after it, and the rest. -/
theorem ChainsOk.at (h : ChainsOk buildRecordPath r) (helse : Elsewhere r r' a)
    (hrecord : RecordKept r.storage r'.storage a)
    (hchain : ∀ head behind, r'.storage.pendingWrites a = head :: behind →
      (∀ pending ∈ behind, pending.phase = .waiting) ∧ HeadOk buildRecordPath r' a head)
    (hmutations : ∀ pending ∈ r'.storage.pendingWrites a, MutationOk r'.storage a pending.mutation)
    (htitles : ∀ call ∈ r'.storage.setTitles, call ∈ r.storage.setTitles ∨
      ∀ read version, call.stage = .read read version →
        ReadOk r'.storage call.agentId read version)
    (hremoves : ∀ call ∈ r'.storage.removes, call.agentId ≠ a ∧ call ∈ r.storage.removes ∨
      RemoveOk r'.storage call)
    (hremoved : r'.removedIds a = true → r'.storage.deleting a = true ∧ NotRunning r'.storage a) :
    ChainsOk buildRecordPath r' := by
  have hkept (b : String) : RecordKept r.storage r'.storage b := by
    by_cases hb : b = a
    · exact hb ▸ hrecord
    · exact .inl ⟨helse.cache b hb, helse.versions b hb⟩
  refine ⟨fun b head behind hb => ?_, fun b head behind hb => ?_, fun b pending hp => ?_,
    fun call hcall read version hstage => ?_, fun call hcall => ?_, fun b hb => ?_⟩
  · by_cases hba : b = a
    · subst hba; exact (hchain head behind hb).1
    · exact h.behind b head behind (helse.chain b hba ▸ hb)
  · by_cases hba : b = a
    · subst hba; exact (hchain head behind hb).2
    · exact (h.head b head behind (helse.chain b hba ▸ hb)).of_same (helse.cache b hba)
        (helse.paths b hba) (helse.removedIds b hba)
  · by_cases hba : b = a
    · subst hba; exact hmutations pending hp
    · rw [helse.chain b hba] at hp; exact (h.mutations b pending hp).kept (hkept b)
  · rcases htitles call hcall with hbefore | hthis
    · exact (h.titles call hbefore read version hstage).kept (hkept _)
    · exact hthis read version hstage
  · rcases hremoves call hcall with ⟨hne, hbefore⟩ | hthis
    · refine (h.removes call hbefore).kept (fun hdel => (helse.deleting _ hne).trans hdel)
        (helse.notRunning hne) fun number _ hthere => .inl ?_
      unfold isPending at hthere ⊢
      rwa [helse.chain _ hne]
    · exact hthis
  · by_cases hba : b = a
    · subst hba; exact hremoved hb
    · rw [helse.removedIds b hba] at hb
      obtain ⟨hdel, hnot⟩ := h.removed b hb
      exact ⟨(helse.deleting b hba).trans hdel, helse.notRunning hba hnot⟩

end

section

variable {buildRecordPath : StoredAgentRecord Rest → String} {r : StorageRun Rest}

/-- Only the chain of one agent and the calls under way change. -/
theorem elsewhere_chain (a : String) (chain : List (PendingMutation Rest))
    (setTitles : List (SetTitleCall Rest)) (removes : List RemoveCall) (nextNumber : Nat) :
    Elsewhere r (r.withStorage { r.storage with
      pendingWrites := update r.storage.pendingWrites a chain
      setTitles
      removes
      nextNumber }) a :=
  ⟨fun _ hb => update_of_ne hb _ _, fun _ _ => rfl, fun _ _ => rfl, fun _ _ => rfl,
    fun _ _ => rfl, fun _ _ => rfl⟩

variable {mutation : Mutation Rest}

section

variable (h : ChainsOk buildRecordPath r)
include h

/-- A mutation queued at the end of its agent's chain. -/
theorem ChainsOk.queue (hm : MutationOk r.storage a mutation) :
    ChainsOk buildRecordPath (r.withStorage (r.storage.queueRecordMutation a mutation)) := by
  have hself : (r.storage.queueRecordMutation a mutation).pendingWrites a =
      r.storage.pendingWrites a ++ [⟨r.storage.nextNumber, mutation, .waiting⟩] :=
    update_self _ _ _
  have hnot (hrunning : NotRunning r.storage a) :
      NotRunning (r.storage.queueRecordMutation a mutation) a := by
    intro pending hp
    rw [hself] at hp
    rcases mem_append.mp hp with hp | hp
    · exact hrunning pending hp
    · obtain rfl := mem_singleton.mp hp; exact .inl rfl
  refine h.at (a := a) (elsewhere_chain a _ _ _ _) (.inl ⟨rfl, rfl⟩) (fun head behind hchain => ?_)
    (fun pending hp => ?_) (fun call hcall => .inl hcall) (fun call hcall => ?_) fun hremoved => ?_
  · replace hchain := hself.symm.trans hchain
    cases hbefore : r.storage.pendingWrites a with
    | nil =>
      rw [hbefore] at hchain
      obtain ⟨rfl, rfl⟩ := cons.inj hchain
      exact ⟨fun pending hp => absurd hp not_mem_nil, trivial⟩
    | cons first rest =>
      rw [hbefore] at hchain
      obtain ⟨rfl, rfl⟩ := cons.inj hchain
      refine ⟨fun pending hp => ?_, (h.head a first rest hbefore).of_same rfl rfl rfl⟩
      rcases mem_append.mp hp with hp | hp
      · exact h.behind a first rest hbefore pending hp
      · obtain rfl := mem_singleton.mp hp; rfl
  · have hp : pending ∈ (r.storage.queueRecordMutation a mutation).pendingWrites a := hp
    rw [hself] at hp
    rcases mem_append.mp hp with hp | hp
    · exact (h.mutations a pending hp).kept (.inl ⟨rfl, rfl⟩)
    · obtain rfl := mem_singleton.mp hp; exact hm.kept (.inl ⟨rfl, rfl⟩)
  · by_cases hcalled : call.agentId = a
    · refine .inr ((h.removes call hcall).kept id (hcalled ▸ hnot) fun number _ hthere => .inl ?_)
      unfold isPending at hthere ⊢
      rw [hcalled] at hthere ⊢
      show any ((r.storage.queueRecordMutation a mutation).pendingWrites a) _ = true
      rw [hself, any_append, hthere]
      rfl
    · exact .inl ⟨hcalled, hcall⟩
  · obtain ⟨hdel, hrunning⟩ := h.removed a hremoved; exact ⟨hdel, hnot hrunning⟩

/-- Calls under way change, and agents may begin to be deleted; chains stay. -/
theorem ChainsOk.calls {setTitles : List (SetTitleCall Rest)}
    {removes : List RemoveCall} {deleting : String → Bool}
    (hdeleting : ∀ a, r.storage.deleting a = true → deleting a = true)
    (htitles : ∀ call ∈ setTitles, call ∈ r.storage.setTitles ∨
      ∀ read version, call.stage = .read read version → ReadOk r.storage call.agentId read version)
    (hremoves : ∀ call ∈ removes, call ∈ r.storage.removes ∨
      RemoveOk { r.storage with setTitles, removes, deleting } call) :
    ChainsOk buildRecordPath (r.withStorage { r.storage with setTitles, removes, deleting }) := by
  have hread {a : String} {read : StoredAgentRecord Rest} {version : Nat}
      (hok : ReadOk r.storage a read version) :
      ReadOk { r.storage with setTitles, removes, deleting } a read version := ⟨hok.1, hok.2, hok.3⟩
  refine ⟨h.behind, fun a head behind hchain => ?_, fun a pending hp => ?_,
    fun call hcall read version hstage => ?_, fun call hcall => ?_, fun a ha => ?_⟩
  · exact (h.head a head behind hchain).of_same rfl rfl rfl
  · exact (h.mutations a pending hp).kept (.inl ⟨rfl, rfl⟩)
  · rcases htitles call hcall with hbefore | hthis
    · exact hread (h.titles call hbefore read version hstage)
    · exact hread (hthis read version hstage)
  · rcases hremoves call hcall with hbefore | hthis
    · exact (h.removes call hbefore).kept (hdeleting _) id fun _ _ hthere => .inl hthere
    · exact hthis
  · exact ⟨hdeleting a (h.removed a ha).1, (h.removed a ha).2⟩

/-- The first mutation of a chain changes its phase. -/
theorem ChainsOk.setPhase {r' : StorageRun Rest} {a : String}
    {head : PendingMutation Rest} {behind : List (PendingMutation Rest)}
    (hchain : r.storage.pendingWrites a = head :: behind) {phase : MutationPhase Rest}
    (hchain' : r'.storage.pendingWrites a = { head with phase } :: behind)
    (helse : Elsewhere r r' a) (hrecord : RecordKept r.storage r'.storage a)
    (hhead : HeadOk buildRecordPath r' a { head with phase })
    (hdeleting : r'.storage.deleting a = r.storage.deleting a)
    (htitles : r'.storage.setTitles = r.storage.setTitles)
    (hremoves : r'.storage.removes = r.storage.removes) (hremovedIds : r'.removedIds = r.removedIds)
    (hrun : r.storage.deleting a = true → NotRunning r.storage a →
      phase = .waiting ∨ phase = .resolved ∨ phase = .rejected) : ChainsOk buildRecordPath r' := by
  have hnot (hdel : r.storage.deleting a = true) (hrunning : NotRunning r.storage a) :
      NotRunning r'.storage a := by
    intro pending hp
    rw [hchain'] at hp
    rcases mem_cons.mp hp with rfl | hp
    · exact hrun hdel hrunning
    · exact hrunning pending (hchain ▸ mem_cons_of_mem _ hp)
  refine h.at helse hrecord (fun first rest hfirst => ?_) (fun pending hp => ?_)
    (fun call hcall => .inl (htitles ▸ hcall)) (fun call hcall => ?_) fun hremoved => ?_
  · obtain ⟨rfl, rfl⟩ := cons.inj (hchain'.symm.trans hfirst)
    exact ⟨h.behind a head behind hchain, hhead⟩
  · rw [hchain'] at hp
    rcases mem_cons.mp hp with rfl | hp
    · exact (h.mutations a head (hchain ▸ mem_cons_self)).kept hrecord
    · exact (h.mutations a pending (hchain ▸ mem_cons_of_mem _ hp)).kept hrecord
  · rw [hremoves] at hcall
    by_cases hcalled : call.agentId = a
    · have hcallOk := h.removes call hcall
      subst hcalled
      refine .inr (hcallOk.kept (hdeleting.trans ·) (hnot hcallOk.1) fun number _ hthere => .inl ?_)
      unfold isPending at hthere ⊢
      rw [hchain] at hthere
      rw [hchain']
      exact hthere
    · exact .inl ⟨hcalled, hcall⟩
  · rw [hremovedIds] at hremoved
    obtain ⟨hdel, hrunning⟩ := h.removed a hremoved
    exact ⟨hdeleting.trans hdel, hnot hdel hrunning⟩

end

/-! ## 5. The first mutation of a chain -/

variable {record : StoredAgentRecord Rest}

/-- Everything that holds of every run, and of well-timed ones. -/
structure StorageInvariant (buildRecordPath : StoredAgentRecord Rest → String)
    (r : StorageRun Rest) : Prop where
  indexes : IndexesOk r
  chains : ChainsOk buildRecordPath r
  late : r.lateWrites = []
  kept : WellTimed r → (∀ c ∈ r.commits, CommitKept c) ∧ r.unrun = [] ∧ r.failedRemoves = []

variable {a : String} {head : PendingMutation Rest} {behind : List (PendingMutation Rest)}

theorem elsewhere_setPhase (storage : AgentStorage Rest) (phase : MutationPhase Rest)
    (h : storage = r.storage.setPhase a head behind phase) :
    Elsewhere r (r.withStorage storage) a := by
  subst h
  exact ⟨fun _ hb => update_of_ne hb _ _, fun _ _ => rfl, fun _ _ => rfl, fun _ _ => rfl,
    fun _ _ => rfl, fun _ _ => rfl⟩

/-- A phase of the first mutation that leaves the records alone. -/
theorem StorageInvariant.setPhase (h : StorageInvariant buildRecordPath r)
    (hchain : r.storage.pendingWrites a = head :: behind) (phase : MutationPhase Rest)
    (hhead : HeadOk buildRecordPath r a { head with phase })
    (hrun : r.storage.deleting a = true → NotRunning r.storage a →
      phase = .waiting ∨ phase = .resolved ∨ phase = .rejected) :
    StorageInvariant buildRecordPath
      (r.withStorage (r.storage.setPhase a head behind phase)) where
  indexes := h.indexes.of_same rfl rfl (fun _ _ _ hp => hp) rfl rfl rfl rfl rfl
  chains := h.chains.setPhase hchain (update_self _ _ _) (elsewhere_setPhase _ phase rfl)
    (.inl ⟨rfl, rfl⟩) (hhead.of_same rfl rfl rfl) rfl rfl rfl rfl hrun
  late := h.late
  kept ht := h.kept ⟨ht.failures, ht.titles⟩

variable {existing : Option (StoredAgentRecord Rest)}

section

variable (h : StorageInvariant buildRecordPath r)
  (hchain : r.storage.pendingWrites a = head :: behind)
  (hm : MakingOk r.storage a head.mutation existing record)
include h hchain hm

end

theorem StorageInvariant.addIndexedPath (h : StorageInvariant buildRecordPath r)
    (agentId filePath : String) : StorageInvariant buildRecordPath
      (r.withStorage (r.storage.addIndexedPath agentId filePath)) := by
  refine ⟨h.indexes.addIndexedPath agentId filePath, ?_, h.late,
    fun ht => h.kept ⟨ht.failures, ht.titles⟩⟩
  refine ⟨h.chains.behind, fun a head behind hchain => ?_, fun a pending hp => ?_,
    fun call hcall read version hstage => ?_, fun call hcall => ?_, h.chains.removed⟩
  · have hhead := h.chains.head a head behind hchain
    unfold HeadOk at hhead ⊢
    split
    · rename_i hphase; rw [hphase] at hhead; exact ⟨hhead.1, hhead.2.1, hhead.2.2, hhead.2.3⟩
    · rename_i hphase
      rw [hphase] at hhead
      exact ⟨hhead.1, ⟨hhead.2.1.1, hhead.2.1.2, hhead.2.1.3⟩,
        mem_addIndexedPath _ _ _ hhead.2.2.1, hhead.2.2.2⟩
    · trivial
  · exact (h.chains.mutations a pending hp).kept (.inl ⟨rfl, rfl⟩)
  · exact (h.chains.titles call hcall read version hstage).kept (.inl ⟨rfl, rfl⟩)
  · exact (h.chains.removes call hcall).kept id id fun _ _ hthere => .inl hthere

variable {r' : StorageRun Rest}

section

variable (h : StorageInvariant buildRecordPath r)
  (hchain : r.storage.pendingWrites a = head :: behind)
include h hchain

end

section

variable (h : ChainsOk buildRecordPath r) (hchain : r.storage.pendingWrites a = head :: behind)
  (rejected : Bool)
include h hchain rejected

end

section

variable (h : StorageInvariant buildRecordPath r)
  (hchain : r.storage.pendingWrites a = head :: behind)
include h hchain

end

/-! ## 6. Calls -/

section

variable (h : StorageInvariant buildRecordPath r)
include h

theorem StorageInvariant.queue (hm : MutationOk r.storage a mutation) :
    StorageInvariant buildRecordPath
      (r.withStorage (r.storage.queueRecordMutation a mutation)) :=
  ⟨h.indexes.of_same rfl rfl (fun _ _ _ hp => hp) rfl rfl rfl rfl rfl, h.chains.queue hm, h.late,
    fun ht => h.kept ⟨ht.failures, ht.titles⟩⟩

theorem StorageInvariant.calls {setTitles : List (SetTitleCall Rest)} {removes : List RemoveCall}
    {deleting : String → Bool} (hdeleting : ∀ a, r.storage.deleting a = true → deleting a = true)
    (htitles : ∀ call ∈ setTitles, call ∈ r.storage.setTitles ∨
      ∀ read version, call.stage = .read read version → ReadOk r.storage call.agentId read version)
    (hremoves : ∀ call ∈ removes, call ∈ r.storage.removes ∨
      RemoveOk { r.storage with setTitles, removes, deleting } call) :
    StorageInvariant buildRecordPath
      (r.withStorage { r.storage with setTitles, removes, deleting }) :=
  ⟨h.indexes.of_same rfl rfl (fun _ _ _ hp => hp) rfl rfl rfl rfl rfl,
    h.chains.calls hdeleting htitles hremoves, h.late, fun ht => h.kept ⟨ht.failures, ht.titles⟩⟩

end

variable {place : Nat}

section

variable (h : StorageInvariant buildRecordPath r)
include h

end

/-! ## 7. All runs -/

end

/-- The events of a run, one after the other. -/
def StorageRun.follow (buildRecordPath : StoredAgentRecord Rest → String) (r : StorageRun Rest) :
    List (StorageEvent Rest) → Option (StorageRun Rest)
  | [] => some r
  | event :: events =>
    (r.next buildRecordPath event).bind fun r => r.follow buildRecordPath events

theorem StorageRun.follow_reachable {buildRecordPath : StoredAgentRecord Rest → String}
    {r' : StorageRun Rest} {events : List (StorageEvent Rest)}
    (hr : (StorageRun.system buildRecordPath).Reachable r)
    (h : r.follow buildRecordPath events = some r') :
    (StorageRun.system buildRecordPath).Reachable r' := by
  induction events generalizing r with
  | nil => obtain rfl := some.inj h; exact hr
  | cons event events ih =>
    obtain ⟨t, ht, hrest⟩ := bind_eq_some_iff.mp h
    exact ih (hr.step ⟨event, ht⟩) hrest

end

end Frogg.Server
