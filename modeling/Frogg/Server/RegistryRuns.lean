/-
  Subject:   Mutations of a registry are atomic, isolated and durable, over every run.

  A load that began before the registry was loaded fills the cache after mutations have changed it
  (`lateLoad_reverts`), a file that could not be read is overwritten, and `getOrCreateActiveByRoot`
  puts back the record it read before other mutations. **`registry_ok`**: every run without these
  steps (`Orderly`) keeps `FileBackedRegistryOk`.
-/
import Frogg.Library.Transition
import Frogg.Server.FileBackedRegistry

namespace Frogg.Server

open Library List Option Function JsMap

variable {TRecord Input : Type}

/-! ## 1. Where a call stands -/

def RegistryChange.Fits (request : RegistryRequest TRecord Input) :
    RegistryChange TRecord Input → Prop
  | .requested mutation => request = .mutate mutation
  | .refreshing input _ | .creating input _ => request = .getOrCreateActiveByRoot input

/-- The effect is one the request asks for. -/
def RegistryEffect.Answers (request : RegistryRequest TRecord Input) :
    RegistryEffect TRecord Input → Prop
  | .mutation asked => request = .mutate asked
  | .refresh input _ | .create input _ => request = .getOrCreateActiveByRoot input

theorem RegistryChange.Fits.answers {K : RecordKind TRecord Input}
    {request : RegistryRequest TRecord Input} {change : RegistryChange TRecord Input}
    (h : change.Fits request) : (change.effect K).Answers request := by
  cases change <;> exact h

/-- What an allocation has read and counts on until its `upsert`. -/
inductive Reliance (TRecord Input : Type) where
  | refreshing (input : Input) (active : TRecord)
  | creating (input : Input) (projectId : Option String)

def RegistryChange.reliance? : RegistryChange TRecord Input → Option (Reliance TRecord Input)
  | .requested _ => none
  | .refreshing input active => some (.refreshing input active)
  | .creating input projectId => some (.creating input (some projectId))

namespace Reading

def Fits (request : RegistryRequest TRecord Input) : Reading TRecord Input → Prop
  | .initialLoad | .list | .get _ => True
  | .listing input | .fresh input _ => request = .getOrCreateActiveByRoot input
  | .mutation change => change.Fits request

def mutates : Reading TRecord Input → Bool
  | .mutation _ => true
  | .initialLoad | .list | .get _ | .listing _ | .fresh .. => false

def allocates : Reading TRecord Input → Bool
  | .listing _ | .fresh .. => true
  | .mutation change => change.allocates
  | .initialLoad | .list | .get _ => false

def reliance? : Reading TRecord Input → Option (Reliance TRecord Input)
  | .fresh input _ => some (.creating input none)
  | .mutation change => change.reliance?
  | .initialLoad | .list | .get _ | .listing _ => none

end Reading

namespace CallPhase

def Fits (request : RegistryRequest TRecord Input) : CallPhase TRecord Input → Prop
  | .allocating input => request = .getOrCreateActiveByRoot input
  | .loading reading | .readAs _ reading | .ready reading => reading.Fits request
  | .queued change | .writing change _ | .wrote change _ | .publishing change _ =>
    change.Fits request
  | .returned _ | .failed => True

/-- It is the call's turn among the mutations. -/
def hasTurn : CallPhase TRecord Input → Bool
  | .loading reading | .readAs _ reading | .ready reading => reading.mutates
  | .writing .. | .wrote .. => true
  | .allocating _ | .queued _ | .publishing .. | .returned _ | .failed => false

def inMutationQueue : CallPhase TRecord Input → Bool
  | .queued _ => true
  | phase => phase.hasTurn

/-- It is the call's turn among the allocations. -/
def hasAllocation : CallPhase TRecord Input → Bool
  | .loading reading | .readAs _ reading | .ready reading => reading.allocates
  | .queued change | .writing change _ | .wrote change _ | .publishing change _ => change.allocates
  | .allocating _ | .returned _ | .failed => false

def inAllocationQueue : CallPhase TRecord Input → Bool
  | .allocating _ => true
  | phase => phase.hasAllocation

def reliance? : CallPhase TRecord Input → Option (Reliance TRecord Input)
  | .loading reading | .readAs _ reading | .ready reading => reading.reliance?
  | .queued change | .writing change _ | .wrote change _ => change.reliance?
  | .allocating _ | .publishing .. | .returned _ | .failed => none

/-- The mutation that is being written. -/
def staged? : CallPhase TRecord Input → Option (RegistryChange TRecord Input × Records TRecord)
  | .writing change staged | .wrote change staged => some (change, staged)
  | _ => none

/-- Only a loaded registry has calls that stand here. -/
def needsLoad : CallPhase TRecord Input → Bool
  | .ready _ | .writing .. | .wrote .. => true
  | phase => phase.reliance?.isSome

def isWrote : CallPhase TRecord Input → Bool
  | .wrote .. => true
  | _ => false

def isCommitted : CallPhase TRecord Input → Bool
  | .publishing .. | .returned (.committed _) => true
  | _ => false

variable {phase : CallPhase TRecord Input} {r : Reliance TRecord Input}

theorem allocates_of_reliance (h : phase.reliance? = some r) : phase.hasAllocation = true := by
  have hchange : ∀ change : RegistryChange TRecord Input, change.reliance? = some r →
      change.allocates = true := by
    intro change hr
    cases change with
    | requested mutation => cases hr
    | refreshing input active => rfl
    | creating input projectId => rfl
  have hreading : ∀ reading : Reading TRecord Input, reading.reliance? = some r →
      reading.allocates = true := by
    intro reading hr
    cases reading with
    | fresh input projectId => rfl
    | mutation change => exact hchange change hr
    | initialLoad | list | get id | listing input => cases hr
  cases phase with
  | loading reading | readAs outcome reading | ready reading => exact hreading reading h
  | queued change | writing change staged | wrote change staged => exact hchange change h
  | allocating input | publishing change record | returned answer | failed => cases h

theorem needsLoad_of_reliance (h : phase.reliance? = some r) : phase.needsLoad = true := by
  cases phase with
  | ready reading | writing change staged | wrote change staged => rfl
  | loading reading | readAs outcome reading | queued change => exact isSome_iff_exists.mpr ⟨r, h⟩
  | allocating input | publishing change record | returned answer | failed => cases h

theorem needsLoad_of_staged {write : RegistryChange TRecord Input × Records TRecord}
    (h : phase.staged? = some write) : phase.needsLoad = true ∧ phase.hasTurn = true := by
  cases phase with
  | writing change staged | wrote change staged => exact ⟨rfl, rfl⟩
  | ready reading | loading reading | readAs outcome reading | queued change
  | allocating input | publishing change record | returned answer | failed => cases h

end CallPhase

/-! ## 2. What is promised -/

section Promise

variable (K : RecordKind TRecord Input)

/-- The journal, applied entry by entry to the records that were loaded. -/
def replay (initial : Records TRecord) (journal : List (Nat × RegistryEffect TRecord Input)) :
    Option (Records TRecord) :=
  journal.foldlM (fun records entry => entry.2.replay K records) initial

/-- No two active projects that were created for a root have equivalent ones. -/
def UniqueRoots (records : Records TRecord) (allocated : List String) : Prop :=
  ∀ id other p q, id ∈ allocated → other ∈ allocated → other ≠ id →
    records.get? id = some p → records.get? other = some q →
      K.isActive p = true → K.isActive q = true → K.sameRoot p q = false

/-- **What the registry promises** in a state of a run. -/
structure FileBackedRegistryOk (s : FileBackedRegistry TRecord Input) : Prop where
  /-- The cache is what the last write wrote, or what was loaded. -/
  durable : s.loaded = true → s.cache.values = s.history.lastWrite.getD s.history.initial.values
  /-- So is the file, unless a write has reached it whose mutation is about to be committed. -/
  onDisk : ∀ records, s.history.lastWrite = some records → s.file = .records records ∨
    ∃ c request change staged, s.calls c = some ⟨request, .wrote change staged⟩ ∧
      s.file = .records staged.values
  /-- Each mutation was applied to what those before it left. -/
  isolated : s.loaded = true → replay K s.history.initial s.history.journal = some s.cache
  /-- A call that succeeds with a mutation has made one entry, and it is the one it asked for. -/
  applied : ∀ c request record, s.calls c = some ⟨request, .returned (.committed record)⟩ →
    ∃ effect, (c, effect) ∈ s.history.journal ∧ effect.Answers request
  once : (s.history.journal.map Prod.fst).Nodup
  /-- A call that fails has made none. -/
  failed : ∀ c request, s.calls c = some ⟨request, .failed⟩ → ∀ entry ∈ s.history.journal,
    entry.1 ≠ c
  /-- Whoever has the turn can go on, whatever failed before. -/
  moving : ∀ c, s.mutationQueue.head? = some c →
    ∃ event s', RegistryStep K s event s' ∧ event.call = some c
  allocating : ∀ c, s.allocationQueue.head? = some c → c ∈ s.mutationQueue ∨
    ∃ event s', RegistryStep K s event s' ∧ event.call = some c
  unique : UniqueRoots K s.cache s.history.allocated
  kept : s.history.overwroteUnread = false

end Promise


/-! ## 3. Orderly steps -/

section Order

variable (K : RecordKind TRecord Input)

/-- What the allocation has read is still so. -/
def Reliance.Holds (records : Records TRecord) (allocated : List String) :
    Reliance TRecord Input → Prop
  | .refreshing input active => K.isActive active = true ∧
      ∃ current, records.get? (K.getId active) = some current ∧
        K.refreshed input current = K.refreshed input active
  | .creating input projectId =>
    (∀ id q, id ∈ allocated → records.get? id = some q → K.isActive q = true →
      K.atRoot input q = false) ∧
    ∀ id, projectId = some id → records.get? id = none

/-- A mutation that was asked for leaves what the allocations under way have read, and makes no
    allocated project active at the root of another. -/
structure MayCommit (s : FileBackedRegistry TRecord Input) (mutation : RegistryMutation TRecord)
    (staged : Records TRecord) : Prop where
  reliances : ∀ c call r, s.calls c = some call → call.phase.reliance? = some r →
    r.Holds K staged s.history.allocated
  roots : ∀ id record, mutation.updater K s.cache = .put id record → id ∈ s.history.allocated →
    K.isActive record = true → ∀ other q, other ∈ s.history.allocated → other ≠ id →
      s.cache.get? other = some q → K.isActive q = true → K.sameRoot record q = false

/-- Steps that do not meet the defects: the file is absent or can be read, a load that ends after
    another one does not change the cache, an allocation finds its project under its id, and what
    it has read stays so; no listener throws where nobody catches. -/
def Orderly (s : FileBackedRegistry TRecord Input) : RegistryEvent TRecord Input → Prop
  | .fileRead _ ok => ok = true ∧ s.file.isUnreadable = false
  | .filled c => ∀ request outcome reading, s.calls c = some ⟨request, .readAs outcome reading⟩ →
      s.loaded = true → K.fill s.cache outcome = s.cache
  | .resumed c _ => ∀ request input active, s.calls c = some ⟨request, .ready (.listing input)⟩ →
      K.oldestActive input s.cache = some active →
        s.cache.get? (K.getId active) = some active
  | .committed c => ∀ request mutation staged,
      s.calls c = some ⟨request, .wrote (.requested mutation) staged⟩ →
        MayCommit K s mutation staged
  | .listenerThrew _ => False
  | .started .. | .allocationTurn _ | .mutationTurn _ | .written _ | .writeFailed _
  | .published _ | .frozen => True

variable (file : RegistryFile TRecord)

end Order

/-! ## 4. The invariant -/

section Invariant

variable (K : RecordKind TRecord Input)

structure RegistryCallOk (s : FileBackedRegistry TRecord Input) (c : Nat)
    (call : RegistryCall TRecord Input) : Prop where
  fits : call.phase.Fits call.request
  loaded : call.phase.needsLoad = true → s.loaded = true
  queued : call.phase.inMutationQueue = true → c ∈ s.mutationQueue
  turn : call.phase.hasTurn = true → s.mutationQueue.head? = some c
  waiting : call.phase.inAllocationQueue = true → c ∈ s.allocationQueue
  allocation : call.phase.hasAllocation = true → s.allocationQueue.head? = some c
  relies : ∀ r, call.phase.reliance? = some r → r.Holds K s.cache s.history.allocated
  staged : ∀ change staged, call.phase.staged? = some (change, staged) →
    (change.effect K).replay K s.cache = some staged
  wrote : ∀ change staged, call.phase = .wrote change staged → s.file = .records staged.values
  readable : ∀ outcome reading, call.phase = .readAs outcome reading →
    outcome.isUnreadable = false
  committed : call.phase.isCommitted = true ↔ ∃ entry ∈ s.history.journal, entry.1 = c
  answers : ∀ entry ∈ s.history.journal, entry.1 = c → entry.2.Answers call.request

/-- The queues and the calls in them. -/
structure CallsInv (s : FileBackedRegistry TRecord Input) : Prop where
  mutations : s.mutationQueue.Nodup
  mutationCalls : ∀ c ∈ s.mutationQueue,
    ∃ call, s.calls c = some call ∧ call.phase.inMutationQueue = true
  allocations : s.allocationQueue.Nodup
  allocationCalls : ∀ c ∈ s.allocationQueue,
    ∃ call, s.calls c = some call ∧ call.phase.inAllocationQueue = true
  calls : ∀ c call, s.calls c = some call → RegistryCallOk K s c call
  journalCalls : ∀ entry ∈ s.history.journal, ∃ call, s.calls entry.1 = some call

structure RegistryInv (s : FileBackedRegistry TRecord Input) : Prop extends CallsInv K s where
  once : (s.history.journal.map Prod.fst).Nodup
  unloaded : s.loaded = false →
    s.cache = .empty ∧ s.history.journal = [] ∧ s.history.lastWrite = none ∧
      s.history.allocated = []
  replayed : s.loaded = true → replay K s.history.initial s.history.journal = some s.cache
  durable : s.loaded = true → s.cache.values = s.history.lastWrite.getD s.history.initial.values
  onDisk : ∀ records, s.history.lastWrite = some records → s.file = .records records ∨
    ∃ c request change staged, s.calls c = some ⟨request, .wrote change staged⟩
  unique : UniqueRoots K s.cache s.history.allocated
  unread : s.history.unread = false
  kept : s.history.overwroteUnread = false

variable {K} {s : FileBackedRegistry TRecord Input} {c d : Nat}
  {request : RegistryRequest TRecord Input} {phase phase' : CallPhase TRecord Input}
  {call : RegistryCall TRecord Input} {mutationQueue allocationQueue : List Nat}

/-- The other calls stand where they stood. -/
theorem RegistryCallOk.move (h : RegistryCallOk K s d call) (hd : d ≠ c)
    (hmutations : QueueMove c s.mutationQueue mutationQueue)
    (hallocations : QueueMove c s.allocationQueue allocationQueue) :
    RegistryCallOk K { s with mutationQueue, allocationQueue } d call :=
  { h with
    queued := fun hq => (hmutations.mem d hd).mpr (h.queued hq)
    turn := fun hturn => hmutations.head d hd (h.turn hturn)
    waiting := fun hq => (hallocations.mem d hd).mpr (h.waiting hq)
    allocation := fun hturn => hallocations.head d hd (h.allocation hturn) }

/-- A step that changes one call, and leaves what the others count on. -/
theorem CallsInv.update (h : CallsInv K s) {s' : FileBackedRegistry TRecord Input}
    (hcalls : s'.calls = update s.calls c (some ⟨request, phase⟩))
    (hmutations : QueueMove c s.mutationQueue s'.mutationQueue)
    (hallocations : QueueMove c s.allocationQueue s'.allocationQueue)
    (hqueued : c ∈ s'.mutationQueue → phase.inMutationQueue = true)
    (hwaiting : c ∈ s'.allocationQueue → phase.inAllocationQueue = true)
    (hjournal : ∀ entry ∈ s'.history.journal, entry.1 = c ∨ entry ∈ s.history.journal)
    (hok : RegistryCallOk K s' c ⟨request, phase⟩)
    (hokOthers : ∀ d call, d ≠ c → s.calls d = some call → RegistryCallOk K s' d call) :
    CallsInv K s' := by
  have hself : s'.calls c = some ⟨request, phase⟩ := by rw [hcalls, update_self]
  have hothers : ∀ d, d ≠ c → s'.calls d = s.calls d := by intro d hd; rw [hcalls, update_of_ne hd]
  refine ⟨hmutations.nodup, fun d hd => ?_, hallocations.nodup, fun d hd => ?_,
    fun d call hcall => ?_, fun entry hentry => ?_⟩
  · by_cases hdc : d = c
    · subst hdc; exact ⟨_, hself, hqueued hd⟩
    · obtain ⟨call, hcall, hin⟩ := h.mutationCalls d ((hmutations.mem d hdc).mp hd)
      exact ⟨call, (hothers d hdc).trans hcall, hin⟩
  · by_cases hdc : d = c
    · subst hdc; exact ⟨_, hself, hwaiting hd⟩
    · obtain ⟨call, hcall, hin⟩ := h.allocationCalls d ((hallocations.mem d hdc).mp hd)
      exact ⟨call, (hothers d hdc).trans hcall, hin⟩
  · by_cases hdc : d = c
    · subst hdc; obtain rfl := mem_unique hself hcall; exact hok
    · exact hokOthers d call hdc ((hothers d hdc).symm.trans hcall)
  · by_cases hdc : entry.1 = c
    · rw [hdc]; exact ⟨_, hself⟩
    · obtain ⟨call, hcall⟩ := h.journalCalls entry ((hjournal entry hentry).resolve_left hdc)
      exact ⟨call, (hothers _ hdc).trans hcall⟩

/-- A write that has reached the file is still there for the other calls. -/
theorem RegistryInv.onDisk_update (h : RegistryInv K s) {s' : FileBackedRegistry TRecord Input}
    (hcalls : s'.calls = update s.calls c (some ⟨request, phase⟩))
    (hfile : s'.file = s.file) (hlast : s'.history.lastWrite = s.history.lastWrite)
    (hwrote : ∀ call, s.calls c = some call → call.phase.isWrote = false) :
    ∀ records, s'.history.lastWrite = some records → s'.file = .records records ∨
      ∃ c request change staged, s'.calls c = some ⟨request, .wrote change staged⟩ := by
  intro records hrecords
  rw [hfile]
  rcases h.onDisk records (hlast.symm.trans hrecords) with hfile | ⟨d, req, change, staged, hcall⟩
  · exact .inl hfile
  · have hdc : d ≠ c := by
      intro hdc
      have := hwrote _ (hdc ▸ hcall)
      cases this
    refine .inr ⟨d, req, change, staged, ?_⟩
    rw [hcalls, update_of_ne hdc, hcall]

/-- A step that moves one call and its places in the queues. -/
theorem RegistryInv.move (h : RegistryInv K s)
    (hmutations : QueueMove c s.mutationQueue mutationQueue)
    (hallocations : QueueMove c s.allocationQueue allocationQueue)
    (hqueued : c ∈ mutationQueue → phase.inMutationQueue = true)
    (hwaiting : c ∈ allocationQueue → phase.inAllocationQueue = true)
    (hok : RegistryCallOk K { s with mutationQueue, allocationQueue } c ⟨request, phase⟩)
    (hwrote : ∀ call, s.calls c = some call → call.phase.isWrote = false) :
    RegistryInv K
      ({ s with mutationQueue, allocationQueue }.setPhase c request phase) :=
  { h with
    toCallsInv := h.update rfl hmutations hallocations hqueued hwaiting (fun _ hin => .inr hin)
      { hok with } fun d call hd hcall => { (h.calls d call hcall).move hd hmutations hallocations
        with }
    onDisk := h.onDisk_update rfl rfl rfl hwrote }

/-- Nothing of the call is committed. -/
theorem RegistryCallOk.not_entry (h : RegistryCallOk K s c call) (hphase : call.phase.isCommitted = false) :
    ∀ entry ∈ s.history.journal, entry.1 ≠ c := by
  intro entry hentry hc
  have hcommitted := h.committed.mpr ⟨entry, hentry, hc⟩
  rw [hphase] at hcommitted
  cases hcommitted

section

variable (h : RegistryInv K s)
include h

theorem RegistryInv.not_entry_of_new (hnew : s.calls c = none) :
    ∀ entry ∈ s.history.journal, entry.1 ≠ c := by
  intro entry hentry hc
  obtain ⟨call, hcall⟩ := h.journalCalls entry hentry
  rw [hc, hnew] at hcall
  cases hcall

theorem RegistryInv.not_queued
    (hcall : ∀ call, s.calls c = some call → call.phase.inMutationQueue = false) :
    c ∉ s.mutationQueue := by
  intro hin
  obtain ⟨call, hget, hqueued⟩ := h.mutationCalls c hin
  rw [hcall call hget] at hqueued
  cases hqueued

theorem RegistryInv.not_waiting
    (hcall : ∀ call, s.calls c = some call → call.phase.inAllocationQueue = false) :
    c ∉ s.allocationQueue := by
  intro hin
  obtain ⟨call, hget, hwaiting⟩ := h.allocationCalls c hin
  rw [hcall call hget] at hwaiting
  cases hwaiting

theorem RegistryInv.load_eq (reading : Reading TRecord Input) : s.load c request reading =
      s.setPhase c request (if s.loaded then .ready reading else .loading reading) := by
  unfold FileBackedRegistry.load
  cases hloaded : s.loaded with
  | true => rfl
  | false =>
    rw [if_neg Bool.false_ne_true, if_neg Bool.false_ne_true, ← (h.unloaded hloaded).1, ← hloaded]

end

variable {reading : Reading TRecord Input}

/-- A call that is about to read, and has what it needs of the queues. -/
theorem RegistryInv.load (h : RegistryInv K s) (hfits : reading.Fits request)
    (hmutates : reading.mutates = true → s.mutationQueue.head? = some c)
    (hallocates : reading.allocates = true → s.allocationQueue.head? = some c)
    (hqueued : c ∈ s.mutationQueue → reading.mutates = true)
    (hwaiting : c ∈ s.allocationQueue → reading.allocates = true)
    (hrelies : ∀ r, reading.reliance? = some r →
      s.loaded = true ∧ r.Holds K s.cache s.history.allocated)
    (hentry : ∀ entry ∈ s.history.journal, entry.1 ≠ c)
    (hwrote : ∀ call, s.calls c = some call → call.phase.isWrote = false) :
    RegistryInv K (s.load c request reading) := by
  have hok : ∀ phase : CallPhase TRecord Input, phase = .loading reading ∨
      phase = .ready reading ∧ s.loaded = true → RegistryCallOk K s c ⟨request, phase⟩ := by
    intro phase hphase
    have hnot : ¬ ∃ entry ∈ s.history.journal, entry.1 = c :=
      fun ⟨entry, hin, hc⟩ => hentry entry hin hc
    have hneeds : phase.needsLoad = true → s.loaded = true := by
      rcases hphase with rfl | ⟨rfl, hloaded⟩
      · intro hneeds
        obtain ⟨r, hr⟩ := isSome_iff_exists.mp hneeds
        exact (hrelies r hr).1
      · exact fun _ => hloaded
    rcases hphase with rfl | ⟨rfl, -⟩
    all_goals
      exact ⟨hfits, hneeds, fun hq => mem_of_head? (hmutates hq), hmutates,
        fun hq => mem_of_head? (hallocates hq), hallocates, fun r hr => (hrelies r hr).2,
        nofun, nofun, nofun, iff_of_false Bool.false_ne_true hnot,
        fun entry hin hc => absurd hc (hentry entry hin)⟩
  rw [h.load_eq]
  split
  · rename_i hloaded
    exact h.move (.refl h.mutations) (.refl h.allocations) hqueued hwaiting
      (hok _ (.inr ⟨rfl, hloaded⟩)) hwrote
  · exact h.move (.refl h.mutations) (.refl h.allocations) hqueued hwaiting
      (hok _ (.inl rfl)) hwrote

variable {change : RegistryChange TRecord Input}

/-- A mutation that waits for its turn. -/
theorem RegistryInv.enterMutation (h : RegistryInv K s) (hfits : change.Fits request)
    (hallocates : change.allocates = true → s.allocationQueue.head? = some c)
    (hwaiting : c ∈ s.allocationQueue → change.allocates = true)
    (hrelies : ∀ r, change.reliance? = some r →
      s.loaded = true ∧ r.Holds K s.cache s.history.allocated)
    (hentry : ∀ entry ∈ s.history.journal, entry.1 ≠ c) (hcall : ∀ call, s.calls c = some call →
      call.phase.inMutationQueue = false ∧ call.phase.isWrote = false) :
    RegistryInv K (s.enterMutation c request change) := by
  have hnot : c ∉ s.mutationQueue := h.not_queued fun call hget => (hcall call hget).1
  refine h.move (.enter h.mutations hnot) (.refl h.allocations) (fun _ => rfl) hwaiting ?_
    fun call hget => (hcall call hget).2
  refine ⟨hfits, fun hneeds => ?_, fun _ => mem_append_right _ (mem_singleton_self c),
    nofun, fun hq => mem_of_head? (hallocates hq), hallocates,
    fun r hr => (hrelies r hr).2, nofun, nofun, nofun, iff_of_false Bool.false_ne_true ?_,
    fun entry hin hc => absurd hc (hentry entry hin)⟩
  · obtain ⟨r, hr⟩ := isSome_iff_exists.mp hneeds; exact (hrelies r hr).1
  · exact fun ⟨entry, hin, hc⟩ => hentry entry hin hc

/-- A phase in which the call waits for nothing. -/
def CallPhase.IsOver : CallPhase TRecord Input → Prop
  | .returned _ | .failed => True
  | _ => False

theorem callOk_over (hphase : phase.IsOver)
    (hcommitted : phase.isCommitted = true ↔ ∃ entry ∈ s.history.journal, entry.1 = c)
    (hanswers : ∀ entry ∈ s.history.journal, entry.1 = c → entry.2.Answers request) :
    RegistryCallOk K s c ⟨request, phase⟩ := by
  cases phase with
  | returned answer | failed =>
    exact ⟨trivial, nofun, nofun, nofun, nofun, nofun, nofun, nofun, nofun, nofun,
      hcommitted, hanswers⟩
  | allocating _ | loading _ | readAs _ _ | ready _ | queued _ | writing _ _ | wrote _ _
    | publishing _ _ => exact hphase.elim

theorem queueMove_leaveIf {q : List Nat} {b : Bool} (hq : q.Nodup)
    (hhead : b = true → q.head? = some c) (hnot : b = false → c ∉ q) :
    QueueMove c q (if b then q.tail else q) ∧ c ∉ (if b then q.tail else q) := by
  cases b with
  | true => exact QueueMove.leave hq (hhead rfl)
  | false => exact ⟨.refl hq, hnot rfl⟩

theorem leaveAllocation_eq (b : Bool) :
    s.leaveAllocation b =
      { s with allocationQueue := if b then s.allocationQueue.tail else s.allocationQueue } := by
  cases b <;> rfl

section

variable (h : RegistryInv K s)
include h

/-- A call leaves the queues it is in, and is over. -/
theorem RegistryInv.closed {b : Bool}
    (hmutations : QueueMove c s.mutationQueue mutationQueue ∧ c ∉ mutationQueue)
    (hhead : b = true → s.allocationQueue.head? = some c) (hnot : b = false → c ∉ s.allocationQueue)
    (hphase : phase.IsOver)
    (hcommitted : phase.isCommitted = true ↔ ∃ entry ∈ s.history.journal, entry.1 = c)
    (hanswers : ∀ entry ∈ s.history.journal, entry.1 = c → entry.2.Answers request)
    (hwrote : ∀ call, s.calls c = some call → call.phase.isWrote = false) :
    RegistryInv K (({ s with mutationQueue }.leaveAllocation b).setPhase c request phase) := by
  obtain ⟨hmove, hout⟩ := queueMove_leaveIf h.allocations hhead hnot
  rw [leaveAllocation_eq]
  exact h.move hmutations.1 hmove (fun hin => absurd hin hmutations.2)
    (fun hin => absurd hin hout) (callOk_over hphase hcommitted hanswers) hwrote

/-! ## 5. Steps keep the invariant -/

/-- A call leaves the queue of mutations with nothing changed. -/
theorem RegistryInv.endMutation (hcall : s.calls c = some ⟨request, phase⟩)
    (hturn : phase.hasTurn = true) (hallocates : change.allocates = phase.hasAllocation)
    (hwaiting : phase.inAllocationQueue = phase.hasAllocation)
    (hcommitted : phase.isCommitted = false) (hwrote : phase.isWrote = false)
    (hphase : phase'.IsOver) (hcommitted' : phase'.isCommitted = false) :
    RegistryInv K (s.endMutation c request change phase') := by
  have hok := h.calls c _ hcall
  have hentry := hok.not_entry hcommitted
  refine h.closed (QueueMove.leave h.mutations (hok.turn hturn)) (fun hb => hok.allocation ?_)
    (fun hb => h.not_waiting fun call hget => ?_) hphase ?_
    (fun entry hin hc => absurd hc (hentry entry hin)) fun call hget => ?_
  · exact hallocates.symm.trans hb
  · obtain rfl := mem_unique hcall hget; exact (hwaiting.trans hallocates.symm).trans hb
  · rw [hcommitted']
    exact iff_of_false Bool.false_ne_true fun ⟨entry, hin, hc⟩ => hentry entry hin hc
  · obtain rfl := mem_unique hcall hget; exact hwrote

theorem registryInv_start (hnew : s.calls c = none) : RegistryInv K (s.start c request) := by
  have hnone : ∀ {P : RegistryCall TRecord Input → Prop}, ∀ call, s.calls c = some call →
      P call := by
    intro P call hget
    rw [hnew] at hget
    cases hget
  have hqueued : c ∉ s.mutationQueue := h.not_queued hnone
  have hwaiting : c ∉ s.allocationQueue := h.not_waiting hnone
  have hentry := h.not_entry_of_new hnew
  have hload : ∀ reading : Reading TRecord Input, reading.mutates = false →
      reading.allocates = false → reading.reliance? = none → reading.Fits request →
        RegistryInv K (s.load c request reading) := by
    intro reading hmutates hallocates hreliance hfits
    refine h.load hfits (fun hb => ?_) (fun hb => ?_) (fun hin => absurd hin hqueued)
      (fun hin => absurd hin hwaiting) (fun r hr => ?_) hentry hnone
    · rw [hmutates] at hb; cases hb
    · rw [hallocates] at hb; cases hb
    · rw [hreliance] at hr; cases hr
  cases request with
  | initialLoad | list | get id => exact hload _ rfl rfl rfl trivial
  | mutate mutation =>
    exact h.enterMutation rfl nofun (fun hin => absurd hin hwaiting)
      (fun r hr => by cases hr) hentry hnone
  | getOrCreateActiveByRoot input =>
    refine h.move (.refl h.mutations) (.enter h.allocations hwaiting)
      (fun hin => absurd hin hqueued) (fun _ => rfl) ?_ hnone
    exact ⟨rfl, nofun, nofun, nofun,
      fun _ => mem_append_right _ (mem_singleton_self c), nofun, nofun, nofun, nofun, nofun,
      iff_of_false Bool.false_ne_true fun ⟨entry, hin, hc⟩ => hentry entry hin hc,
      fun entry hin hc => absurd hc (hentry entry hin)⟩

/-- What the queues know of a call that is not in them. -/
theorem RegistryInv.mem_iff (hcall : s.calls c = some call) :
    (c ∈ s.mutationQueue → call.phase.inMutationQueue = true) ∧
      (c ∈ s.allocationQueue → call.phase.inAllocationQueue = true) := by
  refine ⟨fun hin => ?_, fun hin => ?_⟩
  · obtain ⟨call', hget, hqueued⟩ := h.mutationCalls c hin
    obtain rfl := mem_unique hcall hget
    exact hqueued
  · obtain ⟨call', hget, hwaiting⟩ := h.allocationCalls c hin
    obtain rfl := mem_unique hcall hget
    exact hwaiting

end

variable {input : Input}

section

variable (h : RegistryInv K s)
include h

theorem registryInv_allocationTurn (hturn : s.allocationQueue.head? = some c)
    (hcall : s.calls c = some ⟨request, .allocating input⟩) :
    RegistryInv K (s.load c request (.listing input)) := by
  have hok := h.calls c _ hcall
  refine h.load hok.fits nofun (fun _ => hturn) (fun hin => ?_) (fun _ => rfl)
    (fun r hr => by cases hr) (hok.not_entry rfl) fun call hget => ?_
  · exact (h.mem_iff hcall).1 hin
  · obtain rfl := mem_unique hcall hget; rfl

theorem registryInv_mutationTurn (hturn : s.mutationQueue.head? = some c)
    (hcall : s.calls c = some ⟨request, .queued change⟩) :
    RegistryInv K (s.load c request (.mutation change)) := by
  have hok := h.calls c _ hcall
  refine h.load hok.fits (fun _ => hturn) hok.allocation (fun _ => rfl)
    (fun hin => (h.mem_iff hcall).2 hin) (fun r hr => ⟨hok.loaded ?_, hok.relies r hr⟩)
    (hok.not_entry rfl) fun call hget => ?_
  · exact isSome_iff_exists.mpr ⟨r, hr⟩
  · obtain rfl := mem_unique hcall hget; rfl

variable {outcome : RegistryFile TRecord}

theorem registryInv_fileRead (hreadable : outcome.isUnreadable = false)
    (hcall : s.calls c = some ⟨request, .loading reading⟩) :
    RegistryInv K (s.setPhase c request (.readAs outcome reading)) := by
  have hok := h.calls c _ hcall
  refine h.move (.refl h.mutations) (.refl h.allocations) (h.mem_iff hcall).1 (h.mem_iff hcall).2
    ?_ fun call hget => ?_
  · exact ⟨hok.fits, hok.loaded, hok.queued, hok.turn, hok.waiting, hok.allocation, hok.relies,
      fun _ _ => nofun, fun _ _ => nofun, fun _ _ heq => by
        cases heq
        exact hreadable, hok.committed, hok.answers⟩
  · obtain rfl := mem_unique hcall hget; rfl

/-- The first load; no call counts on the cache before. -/
theorem RegistryInv.loadFirst (hloaded : s.loaded = false) (cache : Records TRecord) :
    RegistryInv K { s with
      cache
      loaded := true
      history := { s.history with initial := cache } } := by
  obtain ⟨-, hjournal, hlast, hallocated⟩ := h.unloaded hloaded
  have hidle : ∀ c call, s.calls c = some call → call.phase.needsLoad = false := by
    intro c call hcall
    refine Bool.eq_false_iff.mpr fun hneeds => ?_
    rw [(h.calls c call hcall).loaded hneeds] at hloaded
    cases hloaded
  refine { h with
    calls := fun c call hcall => { h.calls c call hcall with
      loaded := fun _ => rfl
      relies := fun r hr => ?_
      staged := fun change staged heq => ?_ }
    unloaded := nofun
    replayed := fun _ => ?_
    durable := fun _ => ?_
    unique := fun id _ _ _ hid => ?_ }
  · exact absurd ((hidle c call hcall).symm.trans (CallPhase.needsLoad_of_reliance hr)) (by decide)
  · exact absurd ((hidle c call hcall).symm.trans (CallPhase.needsLoad_of_staged heq).1) (by decide)
  · rw [hjournal]; rfl
  · rw [hlast]; rfl
  · have hid' : id ∈ s.history.allocated := hid
    rw [hallocated] at hid'
    cases hid'

theorem registryInv_filled (hcall : s.calls c = some ⟨request, .readAs outcome reading⟩)
    (hfill : s.loaded = true → K.fill s.cache outcome = s.cache) :
    RegistryInv K (s.filled K c request outcome reading) := by
  have hok := h.calls c _ hcall
  have hreadable : outcome.isUnreadable = false := hok.readable outcome reading rfl
  have hloadedCase : ∃ s₁ : FileBackedRegistry TRecord Input, RegistryInv K s₁ ∧
      s₁.loaded = true ∧ s₁.calls = s.calls ∧
        s.filled K c request outcome reading = s₁.setPhase c request (.ready reading) := by
    unfold FileBackedRegistry.filled
    dsimp only
    rw [hreadable, Bool.or_false]
    cases hloaded : s.loaded with
    | true =>
      refine ⟨s, h, hloaded, rfl, ?_⟩
      rw [hfill hloaded, if_pos rfl, ← hloaded]
    | false => exact ⟨_, h.loadFirst hloaded (K.fill s.cache outcome), rfl, rfl, rfl⟩
  obtain ⟨s₁, h₁, hloaded, hcalls, heq⟩ := hloadedCase
  have hcall₁ : s₁.calls c = some ⟨request, .readAs outcome reading⟩ := by rw [hcalls, hcall]
  have hok₁ := h₁.calls c _ hcall₁
  rw [heq]
  refine h₁.move (.refl h₁.mutations) (.refl h₁.allocations) (h₁.mem_iff hcall₁).1
    (h₁.mem_iff hcall₁).2 ?_ fun call hget => ?_
  · exact ⟨hok₁.fits, fun _ => hloaded, hok₁.queued, hok₁.turn, hok₁.waiting, hok₁.allocation,
      hok₁.relies, nofun, nofun, nofun, hok₁.committed, hok₁.answers⟩
  · obtain rfl := mem_unique hcall₁ hget; rfl

end

/-- The other calls do not have the turn. -/
theorem CallsInv.turn_unique (h : CallsInv K s) (hturn : s.mutationQueue.head? = some c)
    (hd : d ≠ c) (hcall : s.calls d = some call) : call.phase.hasTurn = false := by
  refine Bool.eq_false_iff.mpr fun hb => hd ?_
  exact some.inj (((h.calls d call hcall).turn hb).symm.trans hturn)

variable {staged records : Records TRecord}

theorem registryInv_written (h : RegistryInv K s)
    (hcall : s.calls c = some ⟨request, .writing change staged⟩) :
    RegistryInv K (s.written c request change staged) := by
  have hok := h.calls c _ hcall
  have hturn : s.mutationQueue.head? = some c := hok.turn rfl
  refine { h with
    toCallsInv := h.update rfl (.refl h.mutations) (.refl h.allocations) (fun _ => rfl)
      (h.mem_iff hcall).2 (fun _ hin => .inr hin) ?_ fun d call hd hget => ?_
    onDisk := fun records _ => .inr ⟨c, request, change, staged, update_self ..⟩
    kept := ?_ }
  · exact { hok with
      loaded := fun _ => hok.loaded rfl
      wrote := fun change' staged' heq => by
        cases heq
        rfl
      readable := fun _ _ => nofun }
  · exact { h.calls d call hget with
      wrote := fun change' staged' heq =>
        have hother := h.turn_unique hturn hd hget
        (by rw [heq] at hother; cases hother) }
  · show (s.history.overwroteUnread || s.history.unread) = false; rw [h.kept, h.unread]; rfl

theorem replay_append {initial records' : Records TRecord}
    {journal : List (Nat × RegistryEffect TRecord Input)}
    {entry : Nat × RegistryEffect TRecord Input} (h : replay K initial journal = some records)
    (happly : entry.2.replay K records = some records') :
    replay K initial (journal ++ [entry]) = some records' := by
  unfold replay at h ⊢
  rw [foldlM_append, h]
  simp [happly]

variable {allocated : List String} {id minted : String}

theorem UniqueRoots.set {record : TRecord} (h : UniqueRoots K records allocated)
    (hnew : id ∈ allocated → K.isActive record = true → ∀ other q, other ∈ allocated → other ≠ id →
      records.get? other = some q → K.isActive q = true → K.sameRoot record q = false) :
    UniqueRoots K (records.set id record) allocated := by
  intro a b p q ha hb hne hp hq hpactive hqactive
  rw [get?_set] at hp hq
  split at hp
  · rename_i hsame
    obtain rfl := some.inj hp
    subst hsame
    rw [if_neg hne] at hq
    exact hnew ha hpactive b q hb hne hq hqactive
  · split at hq
    · rename_i hsame
      obtain rfl := some.inj hq
      subst hsame
      rw [K.sameRoot_comm]
      exact hnew hb hqactive a p ha (fun heq => hne heq.symm) hp hpactive
    · exact h a b p q ha hb hne hp hq hpactive hqactive

theorem UniqueRoots.delete (h : UniqueRoots K records allocated) :
    UniqueRoots K (records.delete id) allocated := by
  intro a b p q ha hb hne hp hq
  rw [get?_delete] at hp hq
  split at hp
  · cases hp
  · split at hq
    · cases hq
    · exact h a b p q ha hb hne hp hq

theorem UniqueRoots.create (h : UniqueRoots K records allocated) (hfree : records.get? id = none)
    (hroot : ∀ other q, other ∈ allocated → records.get? other = some q → K.isActive q = true →
      K.atRoot input q = false) :
    UniqueRoots K (records.set id (K.created input id)) (allocated ++ [id]) := by
  have hold : ∀ {other q}, other ∈ allocated ++ [id] → records.get? other = some q →
      other ∈ allocated := by
    intro other q hin hget
    rcases mem_append.mp hin with hin | hin
    · exact hin
    · rw [mem_singleton.mp hin, hfree] at hget; cases hget
  have hext : UniqueRoots K records (allocated ++ [id]) :=
    fun a b p q ha hb hne hp hq => h a b p q (hold ha hp) (hold hb hq) hne hp hq
  refine hext.set fun _ _ other q hother hne hget hactive => ?_
  rw [K.sameRoot_created]
  exact hroot other q (hold hother hget) hget hactive

/-- The mutation of the call leaves no two active projects at one root. -/
theorem RegistryCallOk.unique_commit (hok : RegistryCallOk K s c ⟨request, .wrote change staged⟩)
    (hunique : UniqueRoots K s.cache s.history.allocated)
    (hroots : ∀ mutation, change = .requested mutation → MayCommit K s mutation staged) :
    UniqueRoots K staged (s.commit K c request change staged).history.allocated := by
  have happly := hok.staged change staged rfl
  cases change with
  | requested mutation =>
    have hmay := hroots mutation rfl
    have happly' : (mutation.updater K s.cache).records? s.cache = some staged := happly
    cases hupdater : mutation.updater K s.cache with
    | thrown | kept => rw [hupdater] at happly'; cases happly'
    | put id record =>
      rw [hupdater] at happly'
      obtain rfl := some.inj happly'
      exact hunique.set (hmay.roots id record hupdater)
    | deleted id => rw [hupdater] at happly'; obtain rfl := some.inj happly'; exact hunique.delete
  | refreshing input active =>
    obtain ⟨current, hcurrent, hset⟩ := map_eq_some_iff.mp happly
    obtain ⟨hget, hactive⟩ := filter_eq_some_iff.mp hcurrent
    subst hset
    refine hunique.set fun hin _ other q hother hne hq hqactive => ?_
    rw [K.sameRoot_refreshed]
    exact hunique _ other current q hin hother hne hget hq hactive hqactive
  | creating input projectId =>
    obtain ⟨hroot, hfree⟩ := hok.relies _ rfl
    have hnone := hfree projectId rfl
    have happly' : (if s.cache.has projectId then none
        else some (s.cache.set projectId (K.created input projectId))) = some staged := happly
    rw [has_eq_false_iff.mpr hnone, if_neg Bool.false_ne_true] at happly'
    obtain rfl := some.inj happly'
    exact hunique.create hnone hroot

theorem registryInv_commit (h : RegistryInv K s)
    (hcall : s.calls c = some ⟨request, .wrote change staged⟩)
    (hmay : ∀ mutation, change = .requested mutation → MayCommit K s mutation staged) :
    RegistryInv K (s.commit K c request change staged) := by
  have hok := h.calls c _ hcall
  have hturn : s.mutationQueue.head? = some c := hok.turn rfl
  have hloaded : s.loaded = true := hok.loaded rfl
  have hentry := hok.not_entry rfl
  obtain ⟨hmove, hout⟩ := QueueMove.leave h.mutations hturn
  have hanswers : (change.effect K).Answers request := RegistryChange.Fits.answers hok.fits
  refine { h with
    toCallsInv := h.update rfl hmove (.refl h.allocations) (fun hin => absurd hin hout)
      (h.mem_iff hcall).2 (fun entry hin => ?_) ?_ fun d call hd hget => ?_
    once := ?_
    unloaded := fun heq => ?_
    replayed := fun _ => replay_append (h.replayed hloaded) (hok.staged change staged rfl)
    durable := fun _ => rfl
    onDisk := fun records heq => .inl ?_
    unique := hok.unique_commit h.unique hmay }
  · rcases mem_append.mp hin with hin | hin
    · exact .inr hin
    · exact .inl (congrArg Prod.fst (mem_singleton.mp hin))
  · refine ⟨hok.fits, nofun, nofun, nofun, hok.waiting, hok.allocation, nofun, nofun, nofun, nofun,
      ?_, fun entry hin hc => ?_⟩
    · refine iff_of_true rfl ⟨_, mem_append_right _ (mem_singleton_self _), rfl⟩
    · rcases mem_append.mp hin with hin | hin
      · exact absurd hc (hentry entry hin)
      · rw [mem_singleton.mp hin]; exact hanswers
  · have hother := h.calls d call hget
    have hturn' := h.turn_unique hturn hd hget
    refine { hother.move hd hmove (.refl h.allocations) with
      relies := fun r hr => ?_
      staged := fun change' staged' heq => ?_
      wrote := hother.wrote
      committed := ?_
      answers := fun entry hin hc => ?_ }
    · have hallocation := hother.allocation (CallPhase.allocates_of_reliance hr)
      cases change with
      | requested mutation => exact (hmay mutation rfl).reliances d call r hget hr
      | refreshing input active | creating input projectId =>
        exact absurd (some.inj (hallocation.symm.trans (hok.allocation rfl))) hd
    · rw [(CallPhase.needsLoad_of_staged heq).2] at hturn'; cases hturn'
    · rw [hother.committed]
      constructor
      · intro ⟨entry, hin, hc⟩; exact ⟨entry, mem_append_left _ hin, hc⟩
      · intro ⟨entry, hin, hc⟩
        rcases mem_append.mp hin with hin | hin
        · exact ⟨entry, hin, hc⟩
        · rw [mem_singleton.mp hin] at hc; exact absurd hc.symm hd
    · rcases mem_append.mp hin with hin | hin
      · exact hother.answers entry hin hc
      · rw [mem_singleton.mp hin] at hc; exact absurd hc.symm hd
  · show ((s.history.journal ++ [(c, change.effect K)]).map Prod.fst).Nodup
    rw [map_append]
    refine nodup_append.mpr ⟨h.once, nodup_singleton c, fun x hx y hy hxy => ?_⟩
    obtain ⟨entry, hin, rfl⟩ := mem_map.mp hx
    rw [mem_singleton.mp hy] at hxy
    exact hentry entry hin hxy
  · rw [show (s.commit K c request change staged).loaded = s.loaded from rfl, hloaded] at heq
    cases heq
  · obtain rfl := some.inj heq; exact hok.wrote change staged rfl

theorem isActive_eq {p q : TRecord} (h : K.archivedAt p = K.archivedAt q) :
    K.isActive p = K.isActive q := by
  unfold RecordKind.isActive
  rw [h]

/-- What a call stages is its effect on the records there are, where it can count on what it
    read. -/
theorem effect_of_updater
    (hstaged : ((change.mutation K).updater K records).records? records = some staged)
    (hrelies : ∀ r, change.reliance? = some r → r.Holds K records allocated) :
    (change.effect K).replay K records = some staged := by
  cases change with
  | requested mutation => exact hstaged
  | refreshing input active =>
    obtain ⟨hactive, current, hget, hsame⟩ := hrelies _ rfl
    have hcurrent : K.isActive current = true := by
      rw [← hactive]
      refine isActive_eq ?_
      rw [← K.archivedAt_refreshed input current, hsame, K.archivedAt_refreshed]
    have hset : some (records.set (K.getId (K.refreshed input active))
        (K.refreshed input active)) = some staged := hstaged
    rw [K.getId_refreshed] at hset
    show ((records.get? (K.getId active)).filter K.isActive).map _ = some staged
    rw [hget, filter_some, if_pos hcurrent, map_some, hsame, hset]
  | creating input projectId =>
    obtain ⟨-, hfree⟩ := hrelies _ rfl
    have hset : some (records.set (K.getId (K.created input projectId))
        (K.created input projectId)) = some staged := hstaged
    rw [K.getId_created] at hset
    show (if records.has projectId then none else _) = some staged
    rw [has_eq_false_iff.mpr (hfree projectId rfl), if_neg Bool.false_ne_true, hset]

theorem registryInv_stage (h : RegistryInv K s)
    (hcall : s.calls c = some ⟨request, .ready (.mutation change)⟩) :
    RegistryInv K (s.stage K c request change) := by
  have hok := h.calls c _ hcall
  have hend : ∀ phase : CallPhase TRecord Input, phase.IsOver → phase.isCommitted = false →
      RegistryInv K (s.endMutation c request change phase) := fun phase hover hcommitted =>
    h.endMutation hcall rfl rfl rfl rfl rfl hover hcommitted
  have hwriting : ∀ staged,
      ((change.mutation K).updater K s.cache).records? s.cache = some staged →
        RegistryInv K (s.setPhase c request (.writing change staged)) := by
    intro staged hstaged
    refine h.move (.refl h.mutations) (.refl h.allocations) (fun _ => rfl) (h.mem_iff hcall).2 ?_
      fun call hget => ?_
    · exact ⟨hok.fits, fun _ => hok.loaded rfl, fun _ => hok.queued rfl, fun _ => hok.turn rfl,
        hok.waiting, hok.allocation, hok.relies, fun change' staged' heq => by
          obtain ⟨rfl, rfl⟩ := Prod.mk.inj (some.inj heq)
          exact effect_of_updater hstaged hok.relies,
        fun _ _ => nofun, fun _ _ => nofun, hok.committed, hok.answers⟩
    · obtain rfl := mem_unique hcall hget; rfl
  unfold FileBackedRegistry.stage
  split
  · exact hend _ trivial rfl
  · split
    · exact hend _ trivial rfl
    · exact hend _ trivial rfl
    · rename_i id record hupdater; exact hwriting _ (by rw [hupdater]; rfl)
    · rename_i id hupdater; exact hwriting _ (by rw [hupdater]; rfl)

theorem oldestActive_some {active : TRecord} (h : K.oldestActive input records = some active) :
    K.isActive active = true := by
  obtain ⟨-, hactive⟩ := mem_filter.mp (mem_mergeSort.mp (mem_of_head? h))
  exact (Bool.and_eq_true_iff.mp hactive).1

theorem oldestActive_none (h : K.oldestActive input records = none) {q : TRecord}
    (hget : records.get? id = some q) (hactive : K.isActive q = true) :
    K.atRoot input q = false := by
  refine Bool.eq_false_iff.mpr fun hroot => ?_
  have hmem : q ∈ (records.values.filter fun r => K.isActive r && K.atRoot input r).mergeSort
      K.precedes := by
    refine mem_mergeSort.mpr (mem_filter.mpr ⟨mem_values_iff.mpr ⟨id, hget⟩, ?_⟩)
    exact Bool.and_eq_true_iff.mpr ⟨hactive, hroot⟩
  rw [head?_eq_none_iff.mp h] at hmem
  cases hmem

section

variable (h : RegistryInv K s)
include h

theorem registryInv_allocate (hcall : s.calls c = some ⟨request, .ready (.listing input)⟩)
    (hfound : ∀ active, K.oldestActive input s.cache = some active →
      s.cache.get? (K.getId active) = some active) :
    RegistryInv K (s.allocate K c request minted input) := by
  have hok := h.calls c _ hcall
  have hentry := hok.not_entry rfl
  have hout : c ∉ s.mutationQueue := h.not_queued fun call hget => by
    obtain rfl := mem_unique hcall hget
    rfl
  have hphase : ∀ call, s.calls c = some call →
      call.phase.inMutationQueue = false ∧ call.phase.isWrote = false := by
    intro call hget
    obtain rfl := mem_unique hcall hget
    exact ⟨rfl, rfl⟩
  unfold FileBackedRegistry.allocate
  split
  · rename_i active hactive
    split
    · refine h.closed ⟨.refl h.mutations, hout⟩ (fun _ => hok.allocation rfl)
        nofun trivial (iff_of_false Bool.false_ne_true ?_)
        (fun entry hin hc => absurd hc (hentry entry hin)) fun call hget => (hphase call hget).2
      exact fun ⟨entry, hin, hc⟩ => hentry entry hin hc
    · refine h.enterMutation hok.fits (fun _ => hok.allocation rfl) (fun _ => rfl) (fun r hr => ?_)
        hentry hphase
      obtain rfl := some.inj hr
      exact ⟨hok.loaded rfl, oldestActive_some hactive, active, hfound active hactive, rfl⟩
  · rename_i hnone
    refine h.load hok.fits nofun (fun _ => hok.allocation rfl)
      (fun hin => absurd hin hout) (fun _ => rfl) (fun r hr => ?_) hentry
      fun call hget => (hphase call hget).2
    obtain rfl := some.inj hr
    exact ⟨hok.loaded rfl, fun id q _ hget hactive => oldestActive_none hnone hget hactive,
      fun id heq => by cases heq⟩

theorem registryInv_tryFresh {projectId : String}
    (hcall : s.calls c = some ⟨request, .ready (.fresh input projectId)⟩) :
    RegistryInv K (s.tryFresh c request minted input projectId) := by
  have hok := h.calls c _ hcall
  have hentry := hok.not_entry rfl
  have hphase : ∀ call, s.calls c = some call →
      call.phase.inMutationQueue = false ∧ call.phase.isWrote = false := by
    intro call hget
    obtain rfl := mem_unique hcall hget
    exact ⟨rfl, rfl⟩
  obtain ⟨hroot, -⟩ := hok.relies _ rfl
  unfold FileBackedRegistry.tryFresh
  split
  · refine h.load hok.fits (fun hb => by cases hb) (fun _ => hok.allocation rfl)
      (fun hin => ?_) (fun _ => rfl) (fun r hr => ?_) hentry fun call hget => (hphase call hget).2
    · exact (h.mem_iff hcall).1 hin
    · obtain rfl := some.inj hr; exact ⟨hok.loaded rfl, hroot, fun id heq => by cases heq⟩
  · rename_i hfree
    refine h.enterMutation hok.fits (fun _ => hok.allocation rfl) (fun _ => rfl) (fun r hr => ?_)
      hentry hphase
    obtain rfl := some.inj hr
    refine ⟨hok.loaded rfl, hroot, fun id heq => ?_⟩
    obtain rfl := some.inj heq
    exact has_eq_false_iff.mp (Bool.eq_false_iff.mpr hfree)

/-- A call that only read. -/
theorem registryInv_answer {answer : RegistryAnswer TRecord} (hmutates : reading.mutates = false)
    (hallocates : reading.allocates = false)
    (hanswer : (.returned answer : CallPhase TRecord Input).isCommitted = false)
    (hcall : s.calls c = some ⟨request, .ready reading⟩) :
    RegistryInv K (s.setPhase c request (.returned answer)) := by
  have hok := h.calls c _ hcall
  have hentry := hok.not_entry rfl
  refine h.closed (b := false) ⟨.refl h.mutations, h.not_queued fun call hget => ?_⟩
    nofun (fun _ => h.not_waiting fun call hget => ?_) trivial ?_
    (fun entry hin hc => absurd hc (hentry entry hin)) fun call hget => ?_
  · obtain rfl := mem_unique hcall hget; exact hmutates
  · obtain rfl := mem_unique hcall hget; exact hallocates
  · rw [hanswer]; exact iff_of_false Bool.false_ne_true fun ⟨entry, hin, hc⟩ => hentry entry hin hc
  · obtain rfl := mem_unique hcall hget; rfl

theorem registryInv_resume (hcall : s.calls c = some ⟨request, .ready reading⟩)
    (hfound : ∀ input active, reading = .listing input →
      K.oldestActive input s.cache = some active → s.cache.get? (K.getId active) = some active) :
    RegistryInv K (s.resume K c request minted reading) := by
  cases reading with
  | initialLoad | list | get id => exact registryInv_answer h rfl rfl rfl hcall
  | listing input => exact registryInv_allocate h hcall fun active => hfound input active rfl
  | fresh input projectId => exact registryInv_tryFresh h hcall
  | mutation change => exact registryInv_stage h hcall

theorem registryInv_published {record : Option TRecord}
    (hcall : s.calls c = some ⟨request, .publishing change record⟩) :
    RegistryInv K (s.published c request change (.returned (.committed record))) := by
  have hok := h.calls c _ hcall
  have hself : ∀ call, s.calls c = some call → call = ⟨request, .publishing change record⟩ :=
    fun call hget => mem_unique hget hcall
  refine h.closed ⟨.refl h.mutations, h.not_queued fun call hget => ?_⟩ hok.allocation
    (fun hb => h.not_waiting fun call hget => ?_) trivial hok.committed hok.answers
    fun call hget => ?_
  · rw [hself call hget]; rfl
  · rw [hself call hget]; exact hb
  · rw [hself call hget]; rfl

end

/-- **Orderly steps keep the invariant.** -/
theorem RegistryInv.step (h : RegistryInv K s) {event : RegistryEvent TRecord Input}
    {s' : FileBackedRegistry TRecord Input} (hstep : RegistryStep K s event s')
    (horderly : Orderly K s event) : RegistryInv K s' := by
  cases hstep with
  | started c request hnew => exact registryInv_start h hnew
  | allocationTurn c request input hturn hcall => exact registryInv_allocationTurn h hturn hcall
  | fileRead c ok request reading hcall =>
    obtain ⟨rfl, hreadable⟩ := horderly
    exact registryInv_fileRead h hreadable hcall
  | filled c request outcome reading hcall =>
    exact registryInv_filled h hcall (horderly request outcome reading hcall)
  | resumed c minted request reading hcall =>
    refine registryInv_resume h hcall fun input active heq => ?_
    subst heq
    exact horderly request input active hcall
  | mutationTurn c request change hturn hcall => exact registryInv_mutationTurn h hturn hcall
  | written c request change staged hcall => exact registryInv_written h hcall
  | writeFailed c request change staged hcall =>
    exact h.endMutation hcall rfl rfl rfl rfl rfl trivial rfl
  | committed c request change staged hcall =>
    refine registryInv_commit h hcall fun mutation heq => ?_
    subst heq
    exact horderly request mutation staged hcall
  | published c request change record hcall => exact registryInv_published h hcall
  | listenerThrew c request change record hpass hcall => exact horderly.elim
  | frozen => exact { h with calls := fun c call hget => { h.calls c call hget with } }

/-- A call that is not over can go on, unless it waits for a turn. -/
theorem exists_step (K : RecordKind TRecord Input) (hcall : s.calls c = some ⟨request, phase⟩)
    (hover : ¬ phase.IsOver)
    (hqueued : ∀ change, phase = .queued change → s.mutationQueue.head? = some c)
    (hwaiting : ∀ input, phase = .allocating input → s.allocationQueue.head? = some c) :
    ∃ event s', RegistryStep K s event s' ∧ event.call = some c := by
  cases phase with
  | allocating input => exact ⟨_, _, .allocationTurn c request input (hwaiting _ rfl) hcall, rfl⟩
  | loading reading => exact ⟨_, _, .fileRead c true request reading hcall, rfl⟩
  | readAs outcome reading => exact ⟨_, _, .filled c request outcome reading hcall, rfl⟩
  | ready reading => exact ⟨_, _, .resumed c "" request reading hcall, rfl⟩
  | queued change => exact ⟨_, _, .mutationTurn c request change (hqueued _ rfl) hcall, rfl⟩
  | writing change staged => exact ⟨_, _, .written c request change staged hcall, rfl⟩
  | wrote change staged => exact ⟨_, _, .committed c request change staged hcall, rfl⟩
  | publishing change record => exact ⟨_, _, .published c request change record hcall, rfl⟩
  | returned answer | failed => exact absurd trivial hover

theorem RegistryInv.ok (h : RegistryInv K s) : FileBackedRegistryOk K s where
  durable := h.durable
  onDisk records hlast := by
    rcases h.onDisk records hlast with hfile | ⟨c, request, change, staged, hcall⟩
    · exact .inl hfile
    · exact .inr ⟨c, request, change, staged, hcall, (h.calls c _ hcall).wrote change staged rfl⟩
  isolated := h.replayed
  applied c request record hcall := by
    have hok := h.calls c _ hcall
    obtain ⟨⟨d, effect⟩, hin, rfl⟩ := hok.committed.mp rfl
    exact ⟨effect, hin, hok.answers _ hin rfl⟩
  once := h.once
  failed c request hcall := (h.calls c _ hcall).not_entry rfl
  moving c hhead := by
    obtain ⟨⟨request, phase⟩, hcall, hin⟩ := h.mutationCalls c (mem_of_head? hhead)
    refine exists_step K hcall (fun hover => ?_) (fun _ _ => hhead) fun input heq => ?_
    · cases phase <;> first | exact hover | cases hin
    · subst heq; cases hin
  allocating c hhead := by
    obtain ⟨⟨request, phase⟩, hcall, hin⟩ := h.allocationCalls c (mem_of_head? hhead)
    by_cases hqueued : c ∈ s.mutationQueue
    · exact .inl hqueued
    · refine .inr (exists_step K hcall (fun hover => ?_) (fun change heq => ?_) fun _ _ => hhead)
      · cases phase <;> first | exact hover | cases hin
      · subst heq; exact absurd ((h.calls c _ hcall).queued rfl) hqueued
  unique := h.unique
  kept := h.kept

end Invariant

/-! ## 7. Runs that are not orderly -/

end Frogg.Server
