/-
  Subject:   Which directories a session watches for git changes, for which workspaces, and what it
             announces of their branches (workspace-git-observer-service.ts).

  A git service hands out one listener a registration and may refuse to; the log is what the
  service read of branches and what it announced to its `onBranchChanged`. `Coherent`: one listener
  for each directory that an observed workspace lies in, and for no other; syncs, also those whose
  registration throws, and removals keep it.
-/
import Frogg.Library.JsMap
import Frogg.Library.JsonText
import Frogg.Library.PosixPath
import Mathlib.Data.List.Chain

namespace Frogg.Server.GitObserver

open Library List Option JsMap

/-! ## 1. The service -/

inductive WorkspaceKind where
  | directory | localCheckout | checkout | worktree
  deriving DecidableEq

/-- What the observer reads of a workspace's descriptor. -/
structure WorkspaceDescriptorPayload where
  id : String
  workspaceDirectory : String
  workspaceKind : WorkspaceKind
  name : String
  diffStat : Option (Int × Int)
  /-- `gitRuntime?.currentBranch`: not known, no branch, or a branch -/
  currentBranch : Option (Option String)
  deriving DecidableEq

structure WorkspaceGitWatchState where
  cwd : String
  latestDescriptorStateKey : Option String
  lastBranchName : Option String
  deriving DecidableEq

/-- What happened to a workspace: a new state, a branch that was read, a call of
    `onBranchChanged`. -/
inductive Event where
  | observed (workspaceId : String)
  | seen (workspaceId : String) (branch : Option String)
  | announced (workspaceId : String) (oldBranch newBranch : Option String)
  deriving DecidableEq

/-- The maps of the service, the listeners at the git service, numbered as they were registered, and
    the log. -/
structure World where
  watchTargets : JsMap String (List String)
  workspaceStates : JsMap String WorkspaceGitWatchState
  subscriptions : JsMap String Nat
  listeners : List (String × Nat)
  registrations : Nat
  log : List Event

def World.start : World := ⟨.empty, .empty, .empty, [], 0, []⟩

section Service

variable (resolve : String → String)

def descriptorStateKey (workspace : Option WorkspaceDescriptorPayload) : String :=
  match workspace with
  | none => "__removed__"
  | some workspace =>
    String.ofList <| Json.stringify <| .array
      [.string workspace.name,
        match workspace.diffStat with
        | none => .null
        | some (additions, deletions) =>
          .array [.number (Json.integerText additions), .number (Json.integerText deletions)]]

variable (w : World) (workspaceId : String)

def rememberDescriptorState (workspace : Option WorkspaceDescriptorPayload) : World :=
  match w.workspaceStates.get? workspaceId with
  | none => w
  | some state =>
    { w with
      workspaceStates := w.workspaceStates.set workspaceId
        { state with
          latestDescriptorStateKey := some (descriptorStateKey workspace)
          lastBranchName := (workspace.bind (·.currentBranch)).getD state.lastBranchName } }

def removeForCwd (cwd : String) : World :=
  let normalizedCwd := resolve cwd
  let workspaceIds := (w.watchTargets.get? normalizedCwd).getD []
  { w with
    workspaceStates := workspaceIds.foldl (fun states id => states.delete id) w.workspaceStates
    watchTargets := w.watchTargets.delete normalizedCwd
    subscriptions := w.subscriptions.delete normalizedCwd
    listeners := match w.subscriptions.get? normalizedCwd with
      | none => w.listeners
      | some handle => w.listeners.filter (· ≠ (normalizedCwd, handle)) }

def removeForWorkspaceId : World :=
  match w.workspaceStates.get? workspaceId with
  | none => w
  | some state =>
    let w := { w with workspaceStates := w.workspaceStates.delete workspaceId }
    match w.watchTargets.get? state.cwd with
    | none => w
    | some workspaceIds =>
      let left := workspaceIds.filter (· ≠ workspaceId)
      let w := { w with watchTargets := w.watchTargets.set state.cwd left }
      if left = [] then removeForCwd resolve w state.cwd else w

/-- One workspace's turn in `handleBranchSnapshot`. -/
def readBranch (branchName : Option String) (w : World) (workspaceId : String) : World :=
  match w.workspaceStates.get? workspaceId with
  | none => w
  | some state =>
    let w := { w with log := w.log ++ [.seen workspaceId branchName] }
    if branchName = state.lastBranchName then w
    else
      { w with
        workspaceStates :=
          w.workspaceStates.set workspaceId { state with lastBranchName := branchName }
        log := w.log ++ [.announced workspaceId state.lastBranchName branchName] }

def handleBranchSnapshot (cwd : String) (branchName : Option String) : World :=
  match w.watchTargets.get? (resolve cwd) with
  | none => w
  | some workspaceIds => workspaceIds.foldl (readBranch branchName) w

section

variable (cwd workspaceId : String)

/-- The target and the state of a workspace, as new where it has none. -/
def track : World :=
  let workspaceIds := (w.watchTargets.get? cwd).getD []
  let w := { w with
    watchTargets := w.watchTargets.set cwd
      (if workspaceId ∈ workspaceIds then workspaceIds else workspaceIds ++ [workspaceId]) }
  if (w.workspaceStates.get? workspaceId).isSome then w
  else
    { w with
      workspaceStates := w.workspaceStates.set workspaceId ⟨cwd, none, none⟩
      log := w.log ++ [.observed workspaceId] }

/-- A workspace that moved is gone from where it was. -/
def leave : World :=
  if (w.workspaceStates.get? workspaceId).any (·.cwd ≠ cwd) then
    removeForWorkspaceId resolve w workspaceId
  else w

/-- The part of `syncObserver` for a workspace with git. The second value says that the
    registration, which `registers` lets succeed, threw. -/
def watch (registers : Bool) : World × Bool :=
  let w := track w cwd workspaceId
  if (w.subscriptions.get? cwd).isSome then (w, false)
  else if registers then
    ({ w with
       subscriptions := w.subscriptions.set cwd w.registrations
       listeners := w.listeners ++ [(cwd, w.registrations)]
       registrations := w.registrations + 1 }, false)
  else (removeForWorkspaceId resolve w workspaceId, true)

end

def syncObserver (cwd : String) (isGit : Bool) (workspaceId : String)
    (registers : Bool) : World × Bool :=
  let normalizedCwd := resolve cwd
  let w := leave resolve w normalizedCwd workspaceId
  if isGit = false then (removeForWorkspaceId resolve w workspaceId, false)
  else watch resolve w normalizedCwd workspaceId registers

/-- A branch of the descriptor that is read for an observed workspace. -/
def readDescriptor (workspace : Option WorkspaceDescriptorPayload) : World :=
  match w.workspaceStates.get? workspaceId, workspace.bind (·.currentBranch) with
  | some _, some branch => { w with log := w.log ++ [.seen workspaceId branch] }
  | _, _ => w

/-- One turn of the loop of `syncObservers`. -/
def syncOne (workspace : WorkspaceDescriptorPayload) (registers : Bool) : World × Bool :=
  let (w, threw) := syncObserver resolve w workspace.workspaceDirectory
    (workspace.workspaceKind ≠ .directory) workspace.id registers
  if threw then (w, true)
  else
    (rememberDescriptorState (readDescriptor w workspace.id (some workspace)) workspace.id
      (some workspace), false)

/-- A registration that throws ends the loop. -/
def syncObservers (w : World) : List (WorkspaceDescriptorPayload × Bool) → World
  | [] => w
  | (workspace, registers) :: rest =>
    let (w, threw) := syncOne resolve w workspace registers
    if threw then w else syncObservers w rest

/-- The branch is announced before it is recorded. -/
def recordDescriptorState (nextWorkspace : Option WorkspaceDescriptorPayload) : World :=
  let w := readDescriptor w workspaceId nextWorkspace
  let w :=
    match w.workspaceStates.get? workspaceId, nextWorkspace.bind (·.currentBranch) with
    | some state, some newBranchName =>
      if newBranchName ≠ state.lastBranchName then
        { w with log := w.log ++ [.announced workspaceId state.lastBranchName newBranchName] }
      else w
    | _, _ => w
  rememberDescriptorState w workspaceId nextWorkspace

def shouldSkipUpdate (workspace : Option WorkspaceDescriptorPayload) : Bool × World :=
  match w.workspaceStates.get? workspaceId with
  | none => (false, w)
  | some state =>
    let nextStateKey := descriptorStateKey workspace
    if state.latestDescriptorStateKey = some nextStateKey then (true, w)
    else
      (false, { w with
        workspaceStates := w.workspaceStates.set workspaceId
          { state with latestDescriptorStateKey := some nextStateKey } })

def dispose : World :=
  { w with
    listeners := w.listeners.filter fun l => w.subscriptions.get? l.1 ≠ some l.2
    subscriptions := .empty
    watchTargets := .empty
    workspaceStates := .empty }

end Service

/-! ## 2. Coherence -/

/-- Each workspace is in the target of its own directory and in no other. -/
structure Tracked (resolve : String → String) (w : World) : Prop where
  member : ∀ id cwd, (∃ ids, w.watchTargets.get? cwd = some ids ∧ id ∈ ids) ↔
    ∃ state, w.workspaceStates.get? id = some state ∧ state.cwd = cwd
  nonempty : ∀ cwd ids, w.watchTargets.get? cwd = some ids → ids ≠ []
  nodup : ∀ cwd ids, w.watchTargets.get? cwd = some ids → ids.Nodup
  resolved : ∀ id state, w.workspaceStates.get? id = some state → resolve state.cwd = state.cwd

/-- A directory is subscribed to where it has a target. -/
def SubscribedAt (w : World) (cwd : String) : Prop :=
  (w.subscriptions.get? cwd).isSome = (w.watchTargets.get? cwd).isSome

/-- The listeners at the git service are those that are subscribed. -/
def ListeningAt (w : World) (cwd : String) : Prop :=
  w.listeners.filter (·.1 = cwd) =
    ((w.subscriptions.get? cwd).map fun handle => (cwd, handle)).toList

structure Coherent (resolve : String → String) (w : World) : Prop where
  tracked : Tracked resolve w
  subscribed : ∀ cwd, SubscribedAt w cwd
  listening : ∀ cwd, ListeningAt w cwd

theorem coherent_start (resolve : String → String) : Coherent resolve .start where
  tracked := {
    member := fun id cwd => by
      simp [World.start]
    nonempty := fun cwd ids h => by cases h
    nodup := fun cwd ids h => by cases h
    resolved := fun id state h => by cases h }
  subscribed := fun _ => rfl
  listening := fun _ => rfl

section Removal

variable {resolve : String → String} {w : World} {id cwd : String}

/-- What is left of a target without one of its workspaces. -/
theorem removeForWorkspaceId_eq (h : Tracked resolve w) {state : WorkspaceGitWatchState}
    (hstate : w.workspaceStates.get? id = some state) :
    ∃ ids, w.watchTargets.get? state.cwd = some ids ∧ id ∈ ids ∧
      removeForWorkspaceId resolve w id =
        if ids.filter (· ≠ id) = [] then
          { w with
            workspaceStates := w.workspaceStates.delete id
            watchTargets := (w.watchTargets.set state.cwd []).delete state.cwd
            subscriptions := w.subscriptions.delete state.cwd
            listeners := match w.subscriptions.get? state.cwd with
              | none => w.listeners
              | some handle => w.listeners.filter (· ≠ (state.cwd, handle)) }
        else
          { w with
            workspaceStates := w.workspaceStates.delete id
            watchTargets := w.watchTargets.set state.cwd (ids.filter (· ≠ id)) } := by
  obtain ⟨ids, htarget, hmem⟩ := (h.member id state.cwd).mpr ⟨state, hstate, rfl⟩
  refine ⟨ids, htarget, hmem, ?_⟩
  unfold removeForWorkspaceId
  simp only [hstate, htarget]
  split
  · rename_i hleft
    unfold removeForCwd
    simp only [h.resolved id state hstate, hleft, get?_set_self, getD_some, foldl_nil]
  · rfl

theorem removeForWorkspaceId_unknown (hstate : w.workspaceStates.get? id = none) :
    removeForWorkspaceId resolve w id = w := by
  unfold removeForWorkspaceId
  rw [hstate]

/-- A removal takes its workspace's state and no other. -/
theorem get?_removeForWorkspaceId (h : Tracked resolve w) (other : String) :
    (removeForWorkspaceId resolve w id).workspaceStates.get? other =
      if other = id then none else w.workspaceStates.get? other := by
  cases hstate : w.workspaceStates.get? id with
  | none =>
    rw [removeForWorkspaceId_unknown hstate]
    split
    · rename_i heq; rw [heq, hstate]
    · rfl
  | some state =>
    obtain ⟨ids, -, -, heq⟩ := removeForWorkspaceId_eq h hstate
    rw [heq]
    split <;> exact get?_delete

theorem log_removeForWorkspaceId (h : Tracked resolve w) :
    (removeForWorkspaceId resolve w id).log = w.log := by
  cases hstate : w.workspaceStates.get? id with
  | none => rw [removeForWorkspaceId_unknown hstate]
  | some state =>
    obtain ⟨ids, -, -, heq⟩ := removeForWorkspaceId_eq h hstate
    rw [heq]
    split <;> rfl

theorem Tracked.remove (h : Tracked resolve w) (id : String) :
    Tracked resolve (removeForWorkspaceId resolve w id) := by
  cases hstate : w.workspaceStates.get? id with
  | none => rwa [removeForWorkspaceId_unknown hstate]
  | some state =>
    have hget := @get?_removeForWorkspaceId resolve w id h
    obtain ⟨ids, htarget, hmem, heq⟩ := removeForWorkspaceId_eq h hstate
    -- the target of the directory is gone with its last workspace, the others are as they were
    have htargets : ∀ cwd, (removeForWorkspaceId resolve w id).watchTargets.get? cwd =
        if cwd = state.cwd then
          if ids.filter (· ≠ id) = [] then none else some (ids.filter (· ≠ id))
        else w.watchTargets.get? cwd := by
      intro cwd
      rw [heq]
      split
      · rw [get?_delete, get?_set]
        split <;> rfl
      · exact get?_set
    refine ⟨fun other cwd => ?_, fun cwd found hfound => ?_, fun cwd found hfound => ?_,
      fun other found hfound => ?_⟩
    · rw [htargets, hget]
      by_cases hcwd : cwd = state.cwd
      · obtain rfl := hcwd
        rw [if_pos rfl]
        by_cases hother : other = id
        · obtain rfl := hother
          rw [if_pos rfl]
          constructor
          · rintro ⟨found, hfound, hin⟩
            split at hfound
            · cases hfound
            · obtain rfl := some.inj hfound
              exact absurd rfl (of_decide_eq_true (mem_filter.mp hin).2)
          · rintro ⟨found, hfound, -⟩; cases hfound
        · rw [if_neg hother, ← h.member]
          constructor
          · rintro ⟨found, hfound, hin⟩
            split at hfound
            · cases hfound
            · obtain rfl := some.inj hfound; exact ⟨ids, htarget, (mem_filter.mp hin).1⟩
          · rintro ⟨found, hfound, hin⟩
            rw [htarget] at hfound
            obtain rfl := some.inj hfound
            have hleft : other ∈ ids.filter (· ≠ id) := mem_filter.mpr ⟨hin, decide_eq_true hother⟩
            exact ⟨ids.filter (· ≠ id), if_neg (ne_nil_of_mem hleft), hleft⟩
      · rw [if_neg hcwd]
        by_cases hother : other = id
        · obtain rfl := hother
          rw [if_pos rfl, h.member]
          constructor
          · rintro ⟨found, hfound, rfl⟩
            rw [hstate] at hfound
            exact absurd (congrArg _ (some.inj hfound)).symm hcwd
          · rintro ⟨found, hfound, -⟩; cases hfound
        · rw [if_neg hother]; exact h.member other cwd
    · rw [htargets] at hfound
      split at hfound
      · split at hfound
        · cases hfound
        · obtain rfl := some.inj hfound; assumption
      · exact h.nonempty cwd found hfound
    · rw [htargets] at hfound
      split at hfound
      · split at hfound
        · cases hfound
        · obtain rfl := some.inj hfound; exact (h.nodup state.cwd ids htarget).filter _
      · exact h.nodup cwd found hfound
    · rw [hget] at hfound
      split at hfound
      · cases hfound
      · exact h.resolved other found hfound

theorem filter_listeners_of_ne {listeners : List (String × Nat)} {other : String} {handle : Nat}
    (h : cwd ≠ other) :
    (listeners.filter (· ≠ (other, handle))).filter (·.1 = cwd) =
      listeners.filter (·.1 = cwd) := by
  rw [List.filter_filter]
  refine filter_congr fun l _ => ?_
  by_cases hl : l.1 = cwd
  · have hne : l ≠ (other, handle) := fun heq => h (hl.symm.trans (congrArg Prod.fst heq))
    simp [hl, hne]
  · simp [hl]

/-- A removal unsubscribes from a directory exactly where it takes the target. -/
theorem subscribedAt_remove (h : Tracked resolve w) (hsub : SubscribedAt w cwd) :
    SubscribedAt (removeForWorkspaceId resolve w id) cwd := by
  cases hstate : w.workspaceStates.get? id with
  | none => rwa [removeForWorkspaceId_unknown hstate]
  | some state =>
    obtain ⟨ids, htarget, -, heq⟩ := removeForWorkspaceId_eq h hstate
    unfold SubscribedAt at hsub ⊢
    rw [heq]
    split
    · rw [get?_delete, get?_delete, get?_set]
      split
      · rfl
      · exact hsub
    · rw [get?_set]
      split
      · rename_i hcwd; rw [hsub, hcwd, htarget]; rfl
      · exact hsub

theorem listeningAt_remove (h : Tracked resolve w) (hlisten : ∀ cwd, ListeningAt w cwd) :
    ListeningAt (removeForWorkspaceId resolve w id) cwd := by
  cases hstate : w.workspaceStates.get? id with
  | none => rw [removeForWorkspaceId_unknown hstate]; exact hlisten cwd
  | some state =>
    obtain ⟨ids, -, -, heq⟩ := removeForWorkspaceId_eq h hstate
    rw [heq]
    split
    · unfold ListeningAt
      rw [get?_delete]
      by_cases hcwd : cwd = state.cwd
      · obtain rfl := hcwd
        rw [if_pos rfl]
        have hlisten := hlisten state.cwd
        unfold ListeningAt at hlisten
        cases hsub : w.subscriptions.get? state.cwd with
        | none => rw [hsub] at hlisten; exact hlisten
        | some handle => rw [hsub] at hlisten; rw [filter_comm, hlisten]; simp
      · rw [if_neg hcwd]
        have hlisten := hlisten cwd
        cases w.subscriptions.get? state.cwd with
        | none => exact hlisten
        | some handle => rw [filter_listeners_of_ne hcwd]; exact hlisten
    · exact hlisten cwd

theorem Coherent.remove (h : Coherent resolve w) (id : String) :
    Coherent resolve (removeForWorkspaceId resolve w id) where
  tracked := h.tracked.remove id
  subscribed := fun cwd => subscribedAt_remove h.tracked (h.subscribed cwd)
  listening := fun _ => listeningAt_remove h.tracked h.listening

end Removal

section Sync

variable {resolve : String → String} {w : World} {id cwd : String}

theorem get?_track_targets (other : String) :
    (track w cwd id).watchTargets.get? other =
      if other = cwd then
        some (if id ∈ (w.watchTargets.get? cwd).getD [] then (w.watchTargets.get? cwd).getD []
          else (w.watchTargets.get? cwd).getD [] ++ [id])
      else w.watchTargets.get? other := by
  unfold track
  dsimp only
  split <;> exact get?_set

theorem get?_track_states (other : String) :
    (track w cwd id).workspaceStates.get? other =
      if other = id then some ((w.workspaceStates.get? id).getD ⟨cwd, none, none⟩)
      else w.workspaceStates.get? other := by
  unfold track
  dsimp only
  cases hstate : w.workspaceStates.get? id with
  | some state =>
    rw [isSome_some, if_pos rfl]
    by_cases hother : other = id
    · rw [if_pos hother, hother]; exact hstate
    · rw [if_neg hother]
  | none => exact get?_set

theorem Tracked.track (h : Tracked resolve w) (hcwd : resolve cwd = cwd)
    (hstate : ∀ state, w.workspaceStates.get? id = some state → state.cwd = cwd) :
    Tracked resolve (track w cwd id) := by
  have hplace : ((w.workspaceStates.get? id).getD ⟨cwd, none, none⟩).cwd = cwd := by
    cases hget : w.workspaceStates.get? id with
    | none => rfl
    | some state => exact hstate state hget
  have hmem : ∀ other, other ∈ (if id ∈ (w.watchTargets.get? cwd).getD [] then
      (w.watchTargets.get? cwd).getD [] else (w.watchTargets.get? cwd).getD [] ++ [id]) ↔
      other = id ∨ ∃ ids, w.watchTargets.get? cwd = some ids ∧ other ∈ ids := by
    intro other
    cases htarget : w.watchTargets.get? cwd with
    | none => simp
    | some ids =>
      split
      · rename_i hin
        constructor
        · exact fun hother => .inr ⟨ids, rfl, hother⟩
        · rintro (rfl | ⟨found, hfound, hother⟩)
          · exact hin
          · cases hfound; exact hother
      · rw [mem_append, mem_singleton]
        constructor
        · exact fun hother => hother.symm.imp_right fun hother => ⟨ids, rfl, hother⟩
        · rintro (rfl | ⟨found, hfound, hother⟩)
          · exact .inr rfl
          · cases hfound; exact .inl hother
  refine ⟨fun other place => ?_, fun place found hfound => ?_, fun place found hfound => ?_,
    fun other found hfound => ?_⟩
  · rw [get?_track_targets, get?_track_states]
    by_cases hplaces : place = cwd
    · obtain rfl := hplaces
      rw [if_pos rfl]
      by_cases hother : other = id
      · obtain rfl := hother
        rw [if_pos rfl]
        exact ⟨fun _ => ⟨_, rfl, hplace⟩, fun _ => ⟨_, rfl, (hmem _).mpr (.inl rfl)⟩⟩
      · rw [if_neg hother, ← h.member]
        constructor
        · rintro ⟨found, hfound, hin⟩
          obtain rfl := some.inj hfound
          exact ((hmem other).mp hin).resolve_left hother
        · exact fun hin => ⟨_, rfl, (hmem other).mpr (.inr hin)⟩
    · rw [if_neg hplaces]
      by_cases hother : other = id
      · obtain rfl := hother
        rw [if_pos rfl, h.member]
        constructor
        · rintro ⟨found, hfound, rfl⟩; exact absurd (hstate found hfound) hplaces
        · rintro ⟨found, hfound, rfl⟩; obtain rfl := some.inj hfound; exact absurd hplace hplaces
      · rw [if_neg hother]; exact h.member other place
  · rw [get?_track_targets] at hfound
    split at hfound
    · obtain rfl := some.inj hfound; exact ne_nil_of_mem ((hmem id).mpr (.inl rfl))
    · exact h.nonempty place found hfound
  · rw [get?_track_targets] at hfound
    split at hfound
    · obtain rfl := some.inj hfound
      have hold : ((w.watchTargets.get? cwd).getD []).Nodup := by
        cases htarget : w.watchTargets.get? cwd with
        | none => exact nodup_nil
        | some ids => exact h.nodup cwd ids htarget
      split
      · exact hold
      · rename_i hnot
        refine nodup_append.mpr ⟨hold, nodup_singleton id, fun a ha b hb hab => ?_⟩
        obtain rfl := mem_singleton.mp hb
        exact hnot (hab ▸ ha)
    · exact h.nodup place found hfound
  · rw [get?_track_states] at hfound
    split at hfound
    · obtain rfl := some.inj hfound; rw [hplace]; exact hcwd
    · exact h.resolved other found hfound

theorem Coherent.leave (h : Coherent resolve w) :
    Coherent resolve (leave resolve w cwd id) ∧
      ∀ state, (leave resolve w cwd id).workspaceStates.get? id = some state → state.cwd = cwd := by
  unfold GitObserver.leave
  split
  · refine ⟨h.remove id, fun state hstate => ?_⟩
    rw [get?_removeForWorkspaceId h.tracked, if_pos rfl] at hstate
    cases hstate
  · rename_i hstays
    refine ⟨h, fun state hstate => ?_⟩
    rw [hstate] at hstays
    exact Classical.byContradiction fun hne => hstays (decide_eq_true hne)

theorem track_subscriptions : (track w cwd id).subscriptions = w.subscriptions := by
  unfold track
  dsimp only
  split <;> rfl

theorem track_listeners : (track w cwd id).listeners = w.listeners := by
  unfold track
  dsimp only
  split <;> rfl

/-- Nothing was subscribed to, so the target holds the new workspace alone. -/
theorem track_alone (h : Coherent resolve w) (hnone : w.subscriptions.get? cwd = none) :
    (track w cwd id).watchTargets.get? cwd = some [id] := by
  have hempty : w.watchTargets.get? cwd = none := by
    have hsub := h.subscribed cwd
    unfold SubscribedAt at hsub
    rw [hnone] at hsub
    cases htarget : w.watchTargets.get? cwd with
    | none => rfl
    | some ids => rw [htarget] at hsub; cases hsub
  rw [get?_track_targets, if_pos rfl, hempty]
  rfl

theorem Coherent.watch (h : Coherent resolve w) (hcwd : resolve cwd = cwd)
    (hplace : ∀ state, w.workspaceStates.get? id = some state → state.cwd = cwd)
    (registers : Bool) : Coherent resolve (watch resolve w cwd id registers).1 := by
  have htracked := h.tracked.track hcwd hplace
  have hother : ∀ place, place ≠ cwd → SubscribedAt (track w cwd id) place := by
    intro place hne
    unfold SubscribedAt
    rw [track_subscriptions, get?_track_targets, if_neg hne]
    exact h.subscribed place
  have hlistening : ∀ place, ListeningAt (track w cwd id) place := by
    intro place
    unfold ListeningAt
    rw [track_subscriptions, track_listeners]
    exact h.listening place
  unfold GitObserver.watch
  dsimp only
  cases hsub : w.subscriptions.get? cwd with
  | some handle =>
    rw [track_subscriptions, hsub, isSome_some, if_pos rfl]
    refine ⟨htracked, fun place => ?_, hlistening⟩
    by_cases hne : place = cwd
    · unfold SubscribedAt; rw [hne, get?_track_targets, if_pos rfl, track_subscriptions, hsub]; rfl
    · exact hother place hne
  | none =>
    rw [track_subscriptions, hsub, isSome_none, if_neg Bool.false_ne_true]
    cases registers with
    | true =>
      rw [if_pos rfl]
      refine ⟨{ htracked with },
        fun place => ?_, fun place => ?_⟩
      · by_cases hne : place = cwd
        · unfold SubscribedAt; rw [hne, get?_set_self, track_alone h hsub]; rfl
        · have hkept := hother place hne
          unfold SubscribedAt at hkept ⊢
          rw [track_subscriptions] at hkept
          rw [get?_set, if_neg hne]
          exact hkept
      · have hlist := hlistening place
        unfold ListeningAt at hlist ⊢
        rw [track_subscriptions] at hlist
        rw [get?_set, filter_append, hlist]
        by_cases hne : place = cwd
        · rw [if_pos hne, hne, hsub]; simp
        · rw [if_neg hne]
          have hout : [(cwd, (track w cwd id).registrations)].filter (·.1 = place) = [] := by
            simp [Ne.symm hne]
          rw [hout, append_nil]
    | false =>
      rw [if_neg Bool.false_ne_true]
      refine ⟨htracked.remove id, fun place => ?_, fun place =>
        listeningAt_remove htracked hlistening⟩
      by_cases hne : place = cwd
      · have hstate := @get?_track_states w id cwd id
        rw [if_pos rfl] at hstate
        have hhere : ((w.workspaceStates.get? id).getD ⟨cwd, none, none⟩).cwd = cwd := by
          cases hget : w.workspaceStates.get? id with
          | none => rfl
          | some state => exact hplace state hget
        obtain ⟨ids, htarget, -, heq⟩ := removeForWorkspaceId_eq htracked hstate
        rw [hhere, track_alone h hsub] at htarget
        obtain rfl := some.inj htarget
        have hgone : [id].filter (· ≠ id) = [] := by simp
        unfold SubscribedAt
        rw [heq, if_pos hgone, hhere, hne]
        rw [get?_delete_self, get?_delete_self]
        rfl
      · exact subscribedAt_remove htracked (hother place hne)

/-- **A sync keeps the books**, also where its registration throws. -/
theorem Coherent.syncObserver (h : Coherent resolve w)
    (hresolve : ∀ path, resolve (resolve path) = resolve path) (isGit registers : Bool) :
    Coherent resolve (syncObserver resolve w cwd isGit id registers).1 := by
  obtain ⟨hleave, hplace⟩ := @Coherent.leave resolve w id (resolve cwd) h
  unfold GitObserver.syncObserver
  split
  · exact hleave.remove id
  · exact hleave.watch (hresolve cwd) hplace registers

end Sync

end Frogg.Server.GitObserver
