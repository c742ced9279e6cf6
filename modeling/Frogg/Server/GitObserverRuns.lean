/-
  Subject:   Runs of the git observer: syncs that complete after any delay, removals, snapshots and
             descriptors in any order.

  * `Coherent` holds in every run (`System.coherent_run`);
  * **`System.told_run`**: the announced changes of a workspace are a chain that includes every
    change read, and no late sync brings a removed workspace back, in every run whose steps meet
    `System.Meets`: a sync announces nothing, so it must not record another branch than the one
    that was read or announced last, and must not complete for a workspace removed since.
-/
import Frogg.Server.GitObserver

namespace Frogg.Server.GitObserver

open Library List Option JsMap

/-! ## 1. What was read and what was announced -/

/-- The branch read last since the workspace was observed, and the changes read in all. -/
structure Sight where
  last : Option (Option String)
  changes : List (Option String × Option String)
  deriving DecidableEq

def Sight.after (id : String) (s : Sight) : Event → Sight
  | .observed other => if other = id then { s with last := none } else s
  | .seen other branch =>
    if other = id then
      ⟨some branch, s.changes ++ (s.last.toList.filter (· ≠ branch)).map fun old => (old, branch)⟩
    else s
  | .announced _ _ _ => s

def sightOf (id : String) (log : List Event) : Sight := log.foldl (Sight.after id) ⟨none, []⟩

def announcedOf (id : String) (log : List Event) : List (Option String × Option String) :=
  log.filterMap fun
    | .announced other oldBranch newBranch =>
      if other = id then some (oldBranch, newBranch) else none
    | _ => none

def Event.workspaceId : Event → String
  | .observed id => id
  | .seen id _ => id
  | .announced id _ _ => id

/-- The announced changes of a workspace are a chain, they include every change that was read, and
    what is recorded is what was read and announced last. -/
structure Told (w : World) (id : String) : Prop where
  current : ∀ state, w.workspaceStates.get? id = some state →
    state.lastBranchName = (sightOf id w.log).last.getD none
  newest : ∀ state, w.workspaceStates.get? id = some state →
    ∀ change, (announcedOf id w.log).getLast? = some change → change.2 = state.lastBranchName
  chain : (announcedOf id w.log).IsChain fun earlier later => earlier.2 = later.1
  included : (sightOf id w.log).changes.Sublist (announcedOf id w.log)

section Log

variable {id : String} {log events : List Event}

theorem sightOf_append : sightOf id (log ++ events) = events.foldl (Sight.after id) (sightOf id log) :=
  foldl_append

theorem announcedOf_append :
    announcedOf id (log ++ events) = announcedOf id log ++ announcedOf id events :=
  filterMap_append

theorem sightOf_others (h : ∀ e ∈ events, e.workspaceId ≠ id) :
    sightOf id (log ++ events) = sightOf id log := by
  rw [sightOf_append]
  induction events with
  | nil => rfl
  | cons e events ih =>
    have hfirst : Sight.after id (sightOf id log) e = sightOf id log := by
      have hne := h e mem_cons_self
      cases e with
      | observed other => exact if_neg hne
      | seen other branch => exact if_neg hne
      | announced other oldBranch newBranch => rfl
    rw [foldl_cons, hfirst]
    exact ih fun found hfound => h found (mem_cons_of_mem e hfound)

theorem announcedOf_others (h : ∀ e ∈ events, e.workspaceId ≠ id) :
    announcedOf id (log ++ events) = announcedOf id log := by
  have hnone : announcedOf id events = [] := by
    refine filterMap_eq_nil_iff.mpr fun e he => ?_
    have hne := h e he
    cases e with
    | observed other => rfl
    | seen other branch => rfl
    | announced other oldBranch newBranch => exact if_neg hne
  rw [announcedOf_append, hnone, append_nil]

end Log

variable {state : WorkspaceGitWatchState} {workspace : WorkspaceDescriptorPayload}
  {registers : Bool}

section Told

variable {w w' : World} {id : String}

theorem told_start (id : String) : Told .start id where
  current := fun state h => by cases h
  newest := fun state h => by cases h
  chain := isChain_nil
  included := List.Sublist.refl _

/-- Events of other workspaces tell nothing of one, and its state may go. -/
theorem Told.frame (h : Told w id) {events : List Event} (hlog : w'.log = w.log ++ events)
    (hevents : ∀ e ∈ events, e.workspaceId ≠ id)
    (hstate : ∀ state, w'.workspaceStates.get? id = some state →
      ∃ before, w.workspaceStates.get? id = some before ∧
        before.lastBranchName = state.lastBranchName) : Told w' id := by
  have hsight : sightOf id w'.log = sightOf id w.log := by rw [hlog, sightOf_others hevents]
  have hannounced : announcedOf id w'.log = announcedOf id w.log := by
    rw [hlog, announcedOf_others hevents]
  refine ⟨fun state hget => ?_, fun state hget change hchange => ?_, ?_, ?_⟩
  · obtain ⟨before, hbefore, hsame⟩ := hstate state hget
    rw [hsight, ← hsame]
    exact h.current before hbefore
  · obtain ⟨before, hbefore, hsame⟩ := hstate state hget
    rw [hannounced] at hchange
    rw [← hsame]
    exact h.newest before hbefore change hchange
  · rw [hannounced]; exact h.chain
  · rw [hsight, hannounced]; exact h.included

section

variable (h : Told w id) (hstate : w.workspaceStates.get? id = some state) {branch : Option String}
include h hstate

/-- The same branch again changes nothing. -/
theorem Told.seen_again (hlog : w'.log = w.log ++ [.seen id branch])
    (hsame : branch = state.lastBranchName)
    (hstate' : ∀ later, w'.workspaceStates.get? id = some later → later.lastBranchName = branch) :
    Told w' id := by
  have hannounced : announcedOf id w'.log = announcedOf id w.log := by
    rw [hlog, announcedOf_append]
    exact append_nil _
  have hsight : sightOf id w'.log = Sight.after id (sightOf id w.log) (.seen id branch) := by
    rw [hlog, sightOf_append]
    rfl
  have hnone : ((sightOf id w.log).last.toList.filter (· ≠ branch)) = [] := by
    have hcurrent := h.current state hstate
    rw [← hsame] at hcurrent
    cases hlast : (sightOf id w.log).last with
    | none => rfl
    | some last => rw [hlast, getD_some] at hcurrent; simp [hcurrent]
  refine ⟨fun later hget => ?_, fun later hget change hchange => ?_, ?_, ?_⟩
  · rw [hsight, hstate' later hget]; simp [Sight.after]
  · rw [hannounced] at hchange
    rw [hstate' later hget, hsame]
    exact h.newest state hstate change hchange
  · rw [hannounced]; exact h.chain
  · rw [hsight, hannounced]; simp only [Sight.after, hnone, map_nil, append_nil]; exact h.included

/-- A change that is read and announced. -/
theorem Told.seen_change
    (hlog : w'.log = w.log ++ [.seen id branch, .announced id state.lastBranchName branch])
    (hstate' : ∀ later, w'.workspaceStates.get? id = some later → later.lastBranchName = branch) :
    Told w' id := by
  have hannounced : announcedOf id w'.log =
      announcedOf id w.log ++ [(state.lastBranchName, branch)] := by
    rw [hlog, announcedOf_append]
    simp [announcedOf]
  have hsight : sightOf id w'.log = Sight.after id (sightOf id w.log) (.seen id branch) := by
    rw [hlog, sightOf_append]
    rfl
  refine ⟨fun later hget => ?_, fun later hget change hchange => ?_, ?_, ?_⟩
  · rw [hsight, hstate' later hget]; simp [Sight.after]
  · rw [hannounced, getLast?_concat] at hchange; rw [hstate' later hget, ← some.inj hchange]
  · rw [hannounced, isChain_append]
    refine ⟨h.chain, isChain_singleton _, fun earlier hearlier later hlater => ?_⟩
    obtain rfl : (state.lastBranchName, branch) = later := by simpa using hlater
    exact h.newest state hstate earlier hearlier
  · rw [hsight, hannounced]
    simp only [Sight.after]
    refine List.Sublist.append h.included ?_
    have hcurrent := h.current state hstate
    cases hlast : (sightOf id w.log).last with
    | none => exact nil_sublist _
    | some last =>
      rw [hlast, getD_some] at hcurrent
      rw [hcurrent]
      by_cases heq : last = branch
      · simp [heq]
      · simp [heq]

end

end Told

/-! ## 2. The operations -/

section Operations

variable {resolve : String → String} {w w' : World} {id : String}

/-- The books say where each workspace is, not what is recorded for it. -/
theorem Coherent.of_states (h : Coherent resolve w) (htargets : w'.watchTargets = w.watchTargets)
    (hsubscriptions : w'.subscriptions = w.subscriptions) (hlisteners : w'.listeners = w.listeners)
    (hplaces : ∀ id, (w'.workspaceStates.get? id).map (·.cwd) =
      (w.workspaceStates.get? id).map (·.cwd)) : Coherent resolve w' := by
  have hplace : ∀ id cwd, (∃ state, w'.workspaceStates.get? id = some state ∧ state.cwd = cwd) ↔
      ∃ state, w.workspaceStates.get? id = some state ∧ state.cwd = cwd := by
    intro id cwd
    rw [← map_eq_some_iff, ← map_eq_some_iff, hplaces id]
  refine ⟨⟨fun id cwd => ?_, ?_, ?_, fun id state hstate => ?_⟩, fun cwd => ?_, fun cwd => ?_⟩
  · rw [htargets, hplace]; exact h.tracked.member id cwd
  · rw [htargets]; exact h.tracked.nonempty
  · rw [htargets]; exact h.tracked.nodup
  · obtain ⟨before, hbefore, hcwd⟩ := (hplace id state.cwd).mp ⟨state, hstate, rfl⟩
    rw [← hcwd]
    exact h.tracked.resolved id before hbefore
  · unfold SubscribedAt; rw [htargets, hsubscriptions]; exact h.subscribed cwd
  · unfold ListeningAt; rw [hsubscriptions, hlisteners]; exact h.listening cwd

/-- A state that is set where it was keeps its place. -/
theorem places_set {states : JsMap String WorkspaceGitWatchState} {new : WorkspaceGitWatchState}
    (hstate : states.get? id = some state) (hcwd : new.cwd = state.cwd) (other : String) :
    ((states.set id new).get? other).map (·.cwd) = (states.get? other).map (·.cwd) := by
  rw [get?_set]
  split
  · rename_i heq; rw [heq, hstate, map_some, map_some, hcwd]
  · rfl

theorem Coherent.readBranch (h : Coherent resolve w) (branch : Option String) (id : String) :
    Coherent resolve (readBranch branch w id) := by
  unfold GitObserver.readBranch
  cases hstate : w.workspaceStates.get? id with
  | none => exact h
  | some state =>
    dsimp only
    split
    · exact h.of_states rfl rfl rfl fun _ => rfl
    · exact h.of_states rfl rfl rfl (places_set hstate rfl)

theorem Told.readBranch (h : ∀ id, Told w id) (branch : Option String) (workspaceId id : String) :
    Told (readBranch branch w workspaceId) id := by
  unfold GitObserver.readBranch
  cases hstate : w.workspaceStates.get? workspaceId with
  | none => exact h id
  | some state =>
    dsimp only
    by_cases hid : id = workspaceId
    · obtain rfl := hid
      split
      · rename_i hsame
        refine (h id).seen_again hstate rfl hsame fun later hlater => ?_
        rw [hstate] at hlater
        obtain rfl := some.inj hlater
        exact hsame.symm
      · refine (h id).seen_change hstate (by rw [append_assoc]; rfl) fun later hlater => ?_
        rw [get?_set_self] at hlater
        rw [← some.inj hlater]
    · have hother : ∀ e ∈ [Event.seen workspaceId branch], e.workspaceId ≠ id := by
        intro e he
        obtain rfl := mem_singleton.mp he
        exact Ne.symm hid
      split
      · exact (h id).frame rfl hother fun later hlater => ⟨later, hlater, rfl⟩
      · refine @Told.frame w _ id (h id) [.seen workspaceId branch,
          .announced workspaceId state.lastBranchName branch]
          (by rw [append_assoc]; rfl) (fun e he => ?_) fun later hlater => ?_
        · rcases mem_cons.mp he with rfl | he
          · exact Ne.symm hid
          · obtain rfl := mem_singleton.mp he; exact Ne.symm hid
        · rw [get?_set_of_ne hid] at hlater; exact ⟨later, hlater, rfl⟩

theorem Coherent.handleBranchSnapshot (h : Coherent resolve w) (cwd : String)
    (branch : Option String) : Coherent resolve (handleBranchSnapshot resolve w cwd branch) := by
  unfold GitObserver.handleBranchSnapshot
  cases w.watchTargets.get? (resolve cwd) with
  | none => exact h
  | some ids =>
    induction ids generalizing w with
    | nil => exact h
    | cons id ids ih => exact ih (h.readBranch branch id)

theorem Told.handleBranchSnapshot (h : ∀ id, Told w id) (cwd : String) (branch : Option String)
    (id : String) : Told (handleBranchSnapshot resolve w cwd branch) id := by
  unfold GitObserver.handleBranchSnapshot
  cases w.watchTargets.get? (resolve cwd) with
  | none => exact h id
  | some ids =>
    induction ids generalizing w with
    | nil => exact h id
    | cons found ids ih => exact ih (Told.readBranch h branch found)

theorem Coherent.rememberDescriptorState (h : Coherent resolve w) (id : String)
    (workspace : Option WorkspaceDescriptorPayload) :
    Coherent resolve (rememberDescriptorState w id workspace) := by
  unfold GitObserver.rememberDescriptorState
  cases hstate : w.workspaceStates.get? id with
  | none => exact h
  | some state => exact h.of_states rfl rfl rfl (places_set hstate rfl)

theorem Coherent.log (h : Coherent resolve w) (log : List Event) :
    Coherent resolve { w with log } :=
  h.of_states rfl rfl rfl fun _ => rfl

theorem Coherent.readDescriptor (h : Coherent resolve w) (id : String)
    (workspace : Option WorkspaceDescriptorPayload) :
    Coherent resolve (readDescriptor w id workspace) := by
  unfold GitObserver.readDescriptor
  split
  · exact h.log _
  · exact h

/-- Remembering a descriptor without a branch, or with the one that is recorded. -/
theorem rememberDescriptorState_get? (id other : String)
    (workspace : Option WorkspaceDescriptorPayload) :
    (rememberDescriptorState w id workspace).workspaceStates.get? other =
      if other = id then
        (w.workspaceStates.get? id).map fun state =>
          { state with
            latestDescriptorStateKey := some (descriptorStateKey workspace)
            lastBranchName := (workspace.bind (·.currentBranch)).getD state.lastBranchName }
      else w.workspaceStates.get? other := by
  unfold rememberDescriptorState
  cases hstate : w.workspaceStates.get? id with
  | none =>
    by_cases hother : other = id
    · rw [if_pos hother, hother]; exact hstate
    · rw [if_neg hother]
  | some state => exact get?_set

theorem log_rememberDescriptorState (id : String) (workspace : Option WorkspaceDescriptorPayload) :
    (rememberDescriptorState w id workspace).log = w.log := by
  unfold rememberDescriptorState
  split <;> rfl

theorem Coherent.recordDescriptorState (h : Coherent resolve w) (workspaceId : String)
    (workspace : Option WorkspaceDescriptorPayload) :
    Coherent resolve (recordDescriptorState w workspaceId workspace) := by
  have hread := h.readDescriptor workspaceId workspace
  unfold GitObserver.recordDescriptorState
  refine Coherent.rememberDescriptorState ?_ workspaceId workspace
  split
  · split
    · exact hread.log _
    · exact hread
  · exact hread

theorem Told.recordDescriptorState (h : ∀ id, Told w id) (workspaceId : String)
    (workspace : Option WorkspaceDescriptorPayload) (id : String) :
    Told (recordDescriptorState w workspaceId workspace) id := by
  unfold GitObserver.recordDescriptorState
  cases hstate : w.workspaceStates.get? workspaceId with
  | none =>
    have hread : readDescriptor w workspaceId workspace = w := by unfold readDescriptor; rw [hstate]
    rw [hread]
    simp only [hstate]
    unfold rememberDescriptorState
    rw [hstate]
    exact h id
  | some state =>
    cases hbranch : workspace.bind (·.currentBranch) with
    | none =>
      have hread : readDescriptor w workspaceId workspace = w := by
        unfold readDescriptor
        rw [hstate, hbranch]
      rw [hread]
      simp only [hstate]
      refine @Told.frame w _ id (h id) [] ?_ (fun e he => absurd he not_mem_nil) ?_
      · rw [log_rememberDescriptorState, append_nil]
      · intro later hlater
        rw [rememberDescriptorState_get?, hbranch] at hlater
        split at hlater
        · rename_i heq
          obtain ⟨before, hbefore, rfl⟩ := map_eq_some_iff.mp hlater
          exact ⟨before, heq ▸ hbefore, rfl⟩
        · exact ⟨later, hlater, rfl⟩
    | some branch =>
      have hread : readDescriptor w workspaceId workspace =
          { w with log := w.log ++ [.seen workspaceId branch] } := by
        unfold readDescriptor
        rw [hstate, hbranch]
      rw [hread]
      simp only [hstate]
      -- what is announced and what is remembered share the states
      generalize hread' : (if branch ≠ state.lastBranchName then _ else _ : World) = read
      have hstates : read.workspaceStates = w.workspaceStates := by
        rw [← hread']
        split <;> rfl
      by_cases hid : id = workspaceId
      · obtain rfl := hid
        have hlater : ∀ later,
            (rememberDescriptorState read id workspace).workspaceStates.get? id = some later →
            later.lastBranchName = branch := by
          intro later hlater
          rw [rememberDescriptorState_get?, if_pos rfl, hstates, hstate, hbranch] at hlater
          rw [← some.inj hlater]
          rfl
        by_cases hsame : branch = state.lastBranchName
        · refine (h id).seen_again hstate ?_ hsame hlater
          rw [log_rememberDescriptorState, ← hread', if_neg (not_not_intro hsame)]
        · refine (h id).seen_change hstate ?_ hlater
          rw [log_rememberDescriptorState, ← hread', if_pos hsame, append_assoc]
          rfl
      · refine @Told.frame w _ id (h id) (if branch ≠ state.lastBranchName then
          [.seen workspaceId branch, .announced workspaceId state.lastBranchName branch]
          else [.seen workspaceId branch]) ?_ (fun e he => ?_) fun later hlater => ?_
        · rw [log_rememberDescriptorState, ← hread']
          split
          · rw [append_assoc]; rfl
          · rfl
        · have hevent : e.workspaceId = workspaceId := by
            split at he
            · rcases mem_cons.mp he with rfl | he
              · rfl
              · obtain rfl := mem_singleton.mp he; rfl
            · obtain rfl := mem_singleton.mp he; rfl
          rw [hevent]
          exact Ne.symm hid
        · rw [rememberDescriptorState_get?, if_neg hid, hstates] at hlater
          exact ⟨later, hlater, rfl⟩

end Operations

section Sync

variable {resolve : String → String} {w : World} {id cwd : String}

/-- The state of a workspace that stays in its directory. -/
def kept (resolve : String → String) (w : World) (cwd id : String) :
    Option WorkspaceGitWatchState :=
  (w.workspaceStates.get? id).filter fun state => state.cwd = resolve cwd

theorem leave_shape (h : Coherent resolve w) :
    (∀ other, (leave resolve w (resolve cwd) id).workspaceStates.get? other =
      if other = id then kept resolve w cwd id else w.workspaceStates.get? other) ∧
    (leave resolve w (resolve cwd) id).log = w.log ∧
    (leave resolve w (resolve cwd) id).subscriptions.get? (resolve cwd) =
      w.subscriptions.get? (resolve cwd) := by
  unfold leave kept
  cases hstate : w.workspaceStates.get? id with
  | none =>
    refine ⟨fun other => ?_, rfl, rfl⟩
    show w.workspaceStates.get? other = _
    by_cases hother : other = id
    · rw [if_pos hother, hother, hstate]; rfl
    · rw [if_neg hother]
  | some state =>
    by_cases hcwd : state.cwd = resolve cwd
    · have hstays : ¬(some state).any (fun state => decide (state.cwd ≠ resolve cwd)) = true := by
        simp [hcwd]
      rw [if_neg hstays]
      refine ⟨fun other => ?_, rfl, rfl⟩
      by_cases hother : other = id
      · rw [if_pos hother, hother, hstate, filter_some, if_pos (decide_eq_true hcwd)]
      · rw [if_neg hother]
    · have hmoves : (some state).any (fun state => decide (state.cwd ≠ resolve cwd)) = true := by
        simp [hcwd]
      rw [if_pos hmoves]
      refine ⟨fun other => ?_, log_removeForWorkspaceId h.tracked, ?_⟩
      · rw [get?_removeForWorkspaceId h.tracked]
        split
        · rw [filter_some, if_neg (mt of_decide_eq_true hcwd)]
        · rfl
      · obtain ⟨ids, -, -, heq⟩ := removeForWorkspaceId_eq h.tracked hstate
        rw [heq]
        split
        · exact get?_delete_of_ne (Ne.symm hcwd)
        · rfl

theorem track_log : (track w cwd id).log =
    w.log ++ (if (w.workspaceStates.get? id).isSome then [] else [.observed id]) := by
  unfold track
  dsimp only
  split
  · exact (append_nil _).symm
  · rfl

/-- What a sync does to the states and the log: with git and a subscription the workspace is
    observed, and it is not otherwise. -/
theorem syncObserver_shape (h : Coherent resolve w)
    (hresolve : ∀ path, resolve (resolve path) = resolve path) (isGit registers : Bool) :
    (∀ other, other ≠ id →
      (syncObserver resolve w cwd isGit id registers).1.workspaceStates.get? other =
        w.workspaceStates.get? other) ∧
    if (isGit && ((w.subscriptions.get? (resolve cwd)).isSome || registers)) = true then
      (syncObserver resolve w cwd isGit id registers).2 = false ∧
      (syncObserver resolve w cwd isGit id registers).1.workspaceStates.get? id =
        some ((kept resolve w cwd id).getD ⟨resolve cwd, none, none⟩) ∧
      (syncObserver resolve w cwd isGit id registers).1.log =
        w.log ++ (if (kept resolve w cwd id).isSome then [] else [.observed id])
    else
      (syncObserver resolve w cwd isGit id registers).1.workspaceStates.get? id = none ∧
      ∃ events, (syncObserver resolve w cwd isGit id registers).1.log = w.log ++ events ∧
        ∀ e ∈ events, e = .observed id := by
  obtain ⟨hstates, hlog, hsubscribed⟩ := @leave_shape resolve w id cwd h
  obtain ⟨hcoherent, hplace⟩ := @Coherent.leave resolve w id (resolve cwd) h
  have hkept := hstates id
  rw [if_pos rfl] at hkept
  have hothers : ∀ other, other ≠ id → (leave resolve w (resolve cwd) id).workspaceStates.get? other
      = w.workspaceStates.get? other := fun other hother => by rw [hstates, if_neg hother]
  unfold syncObserver
  dsimp only
  generalize leave resolve w (resolve cwd) id = m at hcoherent hplace hkept hothers hlog hsubscribed
  cases isGit with
  | false =>
    rw [if_pos rfl, Bool.false_and, if_neg Bool.false_ne_true]
    refine ⟨fun other hother => ?_, ?_, [], ?_, fun e he => absurd he not_mem_nil⟩
    · rw [get?_removeForWorkspaceId hcoherent.tracked, if_neg hother, hothers other hother]
    · rw [get?_removeForWorkspaceId hcoherent.tracked, if_pos rfl]
    · rw [log_removeForWorkspaceId hcoherent.tracked, hlog, append_nil]
  | true =>
    rw [if_neg Bool.false_ne_true.symm, Bool.true_and]
    have htracked := hcoherent.tracked.track (hresolve cwd) hplace
    unfold watch
    dsimp only
    rw [track_subscriptions, hsubscribed]
    have htrackLog := @track_log m id (resolve cwd)
    rw [hlog, hkept] at htrackLog
    have htrackState := @get?_track_states m id (resolve cwd)
    by_cases hsome : (w.subscriptions.get? (resolve cwd)).isSome = true
    · rw [if_pos hsome, hsome, Bool.true_or, if_pos rfl]
      refine ⟨fun other hother => ?_, rfl, ?_, htrackLog⟩
      · rw [htrackState, if_neg hother, hothers other hother]
      · rw [htrackState, if_pos rfl, hkept]
    · rw [if_neg hsome, Bool.eq_false_iff.mpr hsome, Bool.false_or]
      cases registers with
      | true =>
        refine ⟨fun other hother => ?_, rfl, ?_, htrackLog⟩
        · show (track m (resolve cwd) id).workspaceStates.get? other = _
          rw [htrackState, if_neg hother, hothers other hother]
        · show (track m (resolve cwd) id).workspaceStates.get? id = _
          rw [htrackState, if_pos rfl, hkept]
      | false =>
        rw [if_neg Bool.false_ne_true, if_neg Bool.false_ne_true]
        refine ⟨fun other hother => ?_, ?_,
          if (kept resolve w cwd id).isSome then [] else [.observed id], ?_, fun e he => ?_⟩
        · rw [get?_removeForWorkspaceId htracked, if_neg hother, htrackState, if_neg hother,
            hothers other hother]
        · rw [get?_removeForWorkspaceId htracked, if_pos rfl]
        · rw [log_removeForWorkspaceId htracked]; exact htrackLog
        · split at he
          · exact absurd he not_mem_nil
          · exact mem_singleton.mp he

section

variable (resolve : String → String) (w : World) (workspace : WorkspaceDescriptorPayload)

/-- A sync of it leaves the workspace observed: with git, in a directory that is subscribed to or
    can be. -/
def observes (registers : Bool) : Bool :=
  workspace.workspaceKind ≠ .directory &&
    ((w.subscriptions.get? (resolve workspace.workspaceDirectory)).isSome || registers)

/-- What a sync records of the branch: what the descriptor knows, or else what is recorded of a
    workspace that stays. -/
def synced : Option String :=
  workspace.currentBranch.getD
    (((kept resolve w workspace.workspaceDirectory workspace.id).map (·.lastBranchName)).getD none)

/-- **A sync that records no other branch** than the one that was read last of a workspace that
    stays, and than the one that was announced last. -/
def Keeps (registers : Bool) : Prop :=
  observes resolve w workspace registers = true →
    ((kept resolve w workspace.workspaceDirectory workspace.id).isSome = true →
      ∀ last, (sightOf workspace.id w.log).last = some last →
        last = synced resolve w workspace) ∧
    ∀ change, (announcedOf workspace.id w.log).getLast? = some change →
      change.2 = synced resolve w workspace

end

theorem Coherent.syncOne (h : Coherent resolve w)
    (hresolve : ∀ path, resolve (resolve path) = resolve path)
    (workspace : WorkspaceDescriptorPayload) (registers : Bool) :
    Coherent resolve (syncOne resolve w workspace registers).1 := by
  have hsync := @Coherent.syncObserver resolve w workspace.id workspace.workspaceDirectory h hresolve
    (workspace.workspaceKind ≠ .directory) registers
  unfold GitObserver.syncOne
  dsimp only
  split
  · exact hsync
  · exact (hsync.readDescriptor workspace.id _).rememberDescriptorState workspace.id _

theorem readDescriptor_states (workspaceId : String)
    (workspace : Option WorkspaceDescriptorPayload) :
    (readDescriptor w workspaceId workspace).workspaceStates = w.workspaceStates := by
  unfold readDescriptor
  split <;> rfl

/-- Where a sync leaves a workspace that it does not observe, nothing is read. -/
theorem syncOne_unobserved (hnone : (syncObserver resolve w workspace.workspaceDirectory
      (workspace.workspaceKind ≠ .directory) workspace.id registers).1.workspaceStates.get?
        workspace.id = none) :
    (syncOne resolve w workspace registers).1 =
      (syncObserver resolve w workspace.workspaceDirectory
        (workspace.workspaceKind ≠ .directory) workspace.id registers).1 := by
  unfold syncOne
  dsimp only
  split
  · rfl
  · unfold readDescriptor rememberDescriptorState; simp only [hnone]

/-- A state of one workspace is nobody else's. -/
theorem syncOne_others (h : Coherent resolve w)
    (hresolve : ∀ path, resolve (resolve path) = resolve path)
    (workspace : WorkspaceDescriptorPayload) (registers : Bool) :
    (∀ other, other ≠ workspace.id →
      (syncOne resolve w workspace registers).1.workspaceStates.get? other =
        w.workspaceStates.get? other) ∧
    ∃ events, (syncOne resolve w workspace registers).1.log = w.log ++ events ∧
      ∀ e ∈ events, e.workspaceId = workspace.id := by
  obtain ⟨hothers, hshape⟩ := @syncObserver_shape resolve w workspace.id
    workspace.workspaceDirectory h hresolve (workspace.workspaceKind ≠ .directory) registers
  have hevents : ∃ events, (syncObserver resolve w workspace.workspaceDirectory
      (workspace.workspaceKind ≠ .directory) workspace.id registers).1.log = w.log ++ events ∧
      ∀ e ∈ events, e.workspaceId = workspace.id := by
    split at hshape
    · refine ⟨_, hshape.2.2, fun e he => ?_⟩
      split at he
      · exact absurd he not_mem_nil
      · obtain rfl := mem_singleton.mp he; rfl
    · obtain ⟨-, events, hlog, hall⟩ := hshape
      refine ⟨events, hlog, fun e he => ?_⟩
      rw [hall e he]
      rfl
  unfold syncOne
  dsimp only
  split
  · exact ⟨hothers, hevents⟩
  · refine ⟨fun other hother => ?_, ?_⟩
    · rw [rememberDescriptorState_get?, if_neg hother, readDescriptor_states]
      exact hothers other hother
    · obtain ⟨events, hlog, hall⟩ := hevents
      rw [log_rememberDescriptorState]
      unfold readDescriptor
      split
      · rename_i branch _ _
        refine ⟨events ++ [.seen workspace.id branch], ?_, fun e he => ?_⟩
        · rw [hlog, append_assoc]
        · rcases mem_append.mp he with he | he
          · exact hall e he
          · obtain rfl := mem_singleton.mp he; rfl
      · exact ⟨events, hlog, hall⟩

/-- Nothing announced and no change read: what is recorded settles it. -/
theorem Told.settle {w' : World} (h : Told w id)
    (hannounced : announcedOf id w'.log = announcedOf id w.log)
    (hchanges : (sightOf id w'.log).changes = (sightOf id w.log).changes)
    (hcurrent : ∀ state, w'.workspaceStates.get? id = some state →
      state.lastBranchName = (sightOf id w'.log).last.getD none)
    (hnewest : ∀ state, w'.workspaceStates.get? id = some state →
      ∀ change, (announcedOf id w.log).getLast? = some change →
        change.2 = state.lastBranchName) : Told w' id where
  current := hcurrent
  newest := fun state hstate change hchange => by
    rw [hannounced] at hchange
    exact hnewest state hstate change hchange
  chain := by rw [hannounced]; exact h.chain
  included := by rw [hannounced, hchanges]; exact h.included

/-- The events of a sync: a workspace that comes anew, then the branch of its descriptor. -/
theorem syncEvents (id : String) (stays : Bool) (branch : Option (Option String)) :
    announcedOf id ((if stays then [] else [.observed id]) ++
      (branch.map fun branch => Event.seen id branch).toList) = [] ∧
    ∀ sight : Sight, (∀ read, branch = some read → stays = true →
        ∀ last, sight.last = some last → last = read) →
      (((if stays then [] else [Event.observed id]) ++
        (branch.map fun branch => Event.seen id branch).toList).foldl (Sight.after id) sight).changes =
          sight.changes ∧
      (((if stays then [] else [Event.observed id]) ++
        (branch.map fun branch => Event.seen id branch).toList).foldl (Sight.after id)
          sight).last.getD none =
        branch.getD (if stays then sight.last.getD none else none) := by
  constructor
  · cases stays <;> cases branch <;> rfl
  · cases stays with
    | false => cases branch <;> simp [Sight.after]
    | true =>
      cases branch with
      | none => simp
      | some branch => simp [Sight.after]

theorem observedEvents {events : List Event} (h : ∀ e ∈ events, e = .observed id) :
    announcedOf id events = [] ∧
      ∀ sight : Sight, (events.foldl (Sight.after id) sight).changes = sight.changes := by
  constructor
  · refine filterMap_eq_nil_iff.mpr fun e he => ?_
    rw [h e he]
  · induction events with
    | nil => exact fun _ => rfl
    | cons e events ih =>
      intro sight
      obtain rfl := h e mem_cons_self
      rw [foldl_cons, ih fun found hfound => h found (mem_cons_of_mem _ hfound), Sight.after,
        if_pos rfl]

theorem Told.syncOne_self (hcoherent : Coherent resolve w)
    (hresolve : ∀ path, resolve (resolve path) = resolve path) (h : Told w workspace.id)
    (hkeeps : Keeps resolve w workspace registers) :
    Told (syncOne resolve w workspace registers).1 workspace.id := by
  obtain ⟨-, hshape⟩ := @syncObserver_shape resolve w workspace.id
    workspace.workspaceDirectory hcoherent hresolve (workspace.workspaceKind ≠ .directory) registers
  by_cases hobserves : observes resolve w workspace registers = true
  · obtain ⟨hread, hannounced⟩ := hkeeps hobserves
    unfold observes at hobserves
    rw [if_pos hobserves] at hshape
    obtain ⟨hthrew, hstate, hlog⟩ := hshape
    unfold GitObserver.syncOne
    dsimp only
    rw [hthrew, if_neg Bool.false_ne_true]
    generalize (syncObserver resolve w workspace.workspaceDirectory _ workspace.id registers).1 = m
      at hstate hlog
    have hfinal : ∀ later, (rememberDescriptorState (readDescriptor m workspace.id (some workspace))
        workspace.id (some workspace)).workspaceStates.get? workspace.id = some later →
        later.lastBranchName = synced resolve w workspace := by
      intro later hlater
      rw [rememberDescriptorState_get?, if_pos rfl, readDescriptor_states, hstate] at hlater
      rw [← some.inj hlater]
      show workspace.currentBranch.getD _ = workspace.currentBranch.getD _
      cases kept resolve w workspace.workspaceDirectory workspace.id <;> rfl
    have hlogs : (rememberDescriptorState (readDescriptor m workspace.id (some workspace))
        workspace.id (some workspace)).log = w.log ++
          ((if (kept resolve w workspace.workspaceDirectory workspace.id).isSome then []
            else [.observed workspace.id]) ++
          (workspace.currentBranch.map fun branch => Event.seen workspace.id branch).toList) := by
      rw [log_rememberDescriptorState, ← append_assoc, ← hlog]
      unfold readDescriptor
      rw [hstate, bind_some]
      cases workspace.currentBranch with
      | none => exact (append_nil _).symm
      | some branch => rfl
    obtain ⟨hquiet, hsight⟩ := syncEvents workspace.id
      (kept resolve w workspace.workspaceDirectory workspace.id).isSome workspace.currentBranch
    have hlast : ((sightOf workspace.id w.log).last.getD none) =
        ((kept resolve w workspace.workspaceDirectory workspace.id).map (·.lastBranchName)).getD none ∨
        kept resolve w workspace.workspaceDirectory workspace.id = none := by
      cases hkept : kept resolve w workspace.workspaceDirectory workspace.id with
      | none => exact .inr rfl
      | some state => exact .inl (h.current state (filter_eq_some_iff.mp hkept).1).symm
    obtain ⟨hchanges, hcurrent⟩ := hsight (sightOf workspace.id w.log) fun branch hbranch hstays last
      hsome => by
        have := hread hstays last hsome
        rw [this]
        unfold synced
        rw [hbranch]
        rfl
    refine h.settle ?_ ?_ (fun state hfinalState => ?_) fun state hfinalState change hchange => ?_
    · rw [hlogs, announcedOf_append, hquiet, append_nil]
    · rw [hlogs, sightOf_append, hchanges]
    · rw [hlogs, sightOf_append, hcurrent, hfinal state hfinalState]
      unfold synced
      cases workspace.currentBranch with
      | some branch => rfl
      | none =>
        show _ = if _ then _ else _
        rcases hlast with hlast | hnone
        · split
          · rw [hlast]; rfl
          · rename_i hfresh; rw [not_isSome_iff_eq_none.mp hfresh]; rfl
        · rw [hnone]; rfl
    · rw [hfinal state hfinalState]; exact hannounced change hchange
  · unfold observes at hobserves
    rw [if_neg hobserves] at hshape
    obtain ⟨hnone, events, hlog, hevents⟩ := hshape
    rw [syncOne_unobserved hnone]
    have hquiet := observedEvents hevents
    refine h.settle ?_ ?_ (fun state hstate => ?_) fun state hstate => ?_
    · rw [hlog, announcedOf_append, hquiet.1, append_nil]
    · rw [hlog, sightOf_append, hquiet.2]
    · rw [hnone] at hstate; cases hstate
    · rw [hnone] at hstate; cases hstate

end Sync

/-! ## 3. Runs -/

/-- A call of `syncObserverForWorkspace` whose workspace is being described; `removed` says that
    `removeForWorkspaceId` was called for it since. -/
structure Pending where
  workspaceId : String
  removed : Bool
  deriving DecidableEq

/-- The service, the syncs under way, and the workspaces that such a sync observed again after they
    had been removed. -/
structure System where
  world : World
  pending : List Pending
  revived : List String

def System.start : System := ⟨.start, [], []⟩

inductive Step where
  | syncObservers (workspaces : List (WorkspaceDescriptorPayload × Bool))
  | syncIssued (workspaceId : String)
  | syncDescribed (index : Nat) (workspace : WorkspaceDescriptorPayload) (registers : Bool)
  | syncFailed (index : Nat)
  | removeForWorkspaceId (workspaceId : String)
  | branchSnapshot (cwd : String) (branchName : Option String)
  | recordDescriptorState (workspaceId : String) (workspace : Option WorkspaceDescriptorPayload)
  | shouldSkipUpdate (workspaceId : String) (workspace : Option WorkspaceDescriptorPayload)
  | dispose

section Runs

variable (resolve : String → String)

/-- The descriptor is of the workspace that the sync was issued for. -/
def System.step (s : System) : Step → System
  | .syncObservers workspaces => { s with world := syncObservers resolve s.world workspaces }
  | .syncIssued workspaceId => { s with pending := s.pending ++ [⟨workspaceId, false⟩] }
  | .syncDescribed index workspace registers =>
    match s.pending[index]? with
    | none => s
    | some sync =>
      let world := syncObservers resolve s.world
        [({ workspace with id := sync.workspaceId }, registers)]
      { world
        pending := s.pending.eraseIdx index
        revived :=
          if sync.removed ∧ s.world.workspaceStates.get? sync.workspaceId = none ∧
              (world.workspaceStates.get? sync.workspaceId).isSome then
            s.revived ++ [sync.workspaceId]
          else s.revived }
  | .syncFailed index => { s with pending := s.pending.eraseIdx index }
  | .removeForWorkspaceId workspaceId =>
    { s with
      world := removeForWorkspaceId resolve s.world workspaceId
      pending := s.pending.map fun sync =>
        if sync.workspaceId = workspaceId then { sync with removed := true } else sync }
  | .branchSnapshot cwd branchName =>
    { s with world := handleBranchSnapshot resolve s.world cwd branchName }
  | .recordDescriptorState workspaceId workspace =>
    { s with world := recordDescriptorState s.world workspaceId workspace }
  | .shouldSkipUpdate workspaceId workspace =>
    { s with world := (shouldSkipUpdate s.world workspaceId workspace).2 }
  | .dispose => { s with world := dispose s.world }

def System.run (s : System) (steps : List Step) : System := steps.foldl (System.step resolve) s

def KeepsAll (w : World) : List (WorkspaceDescriptorPayload × Bool) → Prop
  | [] => True
  | (workspace, registers) :: rest =>
    Keeps resolve w workspace registers ∧
      ((syncOne resolve w workspace registers).2 = false →
        KeepsAll (syncOne resolve w workspace registers).1 rest)

/-- **The steps on which the chain rests**: no sync records another branch unannounced, and none
    observes a workspace that was removed since it was issued. -/
def System.Meets (s : System) : Step → Prop
  | .syncObservers workspaces => KeepsAll resolve s.world workspaces
  | .syncDescribed index workspace registers =>
    ∀ sync, s.pending[index]? = some sync →
      Keeps resolve s.world { workspace with id := sync.workspaceId } registers ∧
        (sync.removed = true → s.world.workspaceStates.get? sync.workspaceId = none →
          observes resolve s.world { workspace with id := sync.workspaceId } registers = false)
  | _ => True

def System.MeetsAll (s : System) : List Step → Prop
  | [] => True
  | step :: rest => s.Meets resolve step ∧ (s.step resolve step).MeetsAll rest

end Runs

section RunLemmas

variable {resolve : String → String} {s : System} {w : World}

theorem Coherent.syncObservers (h : Coherent resolve w)
    (hresolve : ∀ path, resolve (resolve path) = resolve path)
    (workspaces : List (WorkspaceDescriptorPayload × Bool)) :
    Coherent resolve (syncObservers resolve w workspaces) := by
  induction workspaces generalizing w with
  | nil => exact h
  | cons entry rest ih =>
    obtain ⟨workspace, registers⟩ := entry
    have hone := h.syncOne hresolve workspace registers
    unfold GitObserver.syncObservers
    dsimp only
    split
    · exact hone
    · exact ih hone

section

variable (hcoherent : Coherent resolve w) (hresolve : ∀ path, resolve (resolve path) = resolve path)
  (h : ∀ id, Told w id)
include hcoherent hresolve h

theorem Told.syncOne (hkeeps : Keeps resolve w workspace registers) (id : String) :
    Told (syncOne resolve w workspace registers).1 id := by
  by_cases hid : id = workspace.id
  · rw [hid]; exact Told.syncOne_self hcoherent hresolve (h workspace.id) hkeeps
  · obtain ⟨hothers, events, hlog, hevents⟩ := syncOne_others hcoherent hresolve workspace registers
    refine (h id).frame hlog (fun e he => ?_) fun state hstate => ?_
    · rw [hevents e he]; exact Ne.symm hid
    · rw [hothers id hid] at hstate; exact ⟨state, hstate, rfl⟩

theorem Told.syncObservers {workspaces : List (WorkspaceDescriptorPayload × Bool)}
    (hkeeps : KeepsAll resolve w workspaces) (id : String) :
    Told (syncObservers resolve w workspaces) id := by
  induction workspaces generalizing w with
  | nil => exact h id
  | cons entry rest ih =>
    obtain ⟨workspace, registers⟩ := entry
    obtain ⟨hfirst, hrest⟩ := hkeeps
    have hone := Told.syncOne hcoherent hresolve h hfirst
    unfold GitObserver.syncObservers
    dsimp only
    split
    · exact hone id
    · rename_i hthrew
      exact ih (hcoherent.syncOne hresolve workspace registers) hone
        (hrest (Bool.eq_false_iff.mpr hthrew))

end

theorem Coherent.dispose (h : Coherent resolve w) : Coherent resolve (dispose w) where
  tracked := {
    member := fun id cwd => by simp [GitObserver.dispose]
    nonempty := fun cwd ids h => by cases h
    nodup := fun cwd ids h => by cases h
    resolved := fun id state h => by cases h }
  subscribed := fun _ => rfl
  listening := fun cwd => by
    have hlisten := h.listening cwd
    unfold ListeningAt at hlisten ⊢
    unfold GitObserver.dispose
    rw [filter_comm, hlisten]
    cases hsub : w.subscriptions.get? cwd with
    | none => rfl
    | some handle => simp [hsub]

/-- Only the recorded key may change. -/
theorem shouldSkipUpdate_shape (h : Coherent resolve w) (workspaceId : String)
    (workspace : Option WorkspaceDescriptorPayload) :
    Coherent resolve (shouldSkipUpdate w workspaceId workspace).2 ∧
      (shouldSkipUpdate w workspaceId workspace).2.log = w.log ∧
      ∀ id state, (shouldSkipUpdate w workspaceId workspace).2.workspaceStates.get? id = some state →
        ∃ before, w.workspaceStates.get? id = some before ∧
          before.lastBranchName = state.lastBranchName := by
  unfold shouldSkipUpdate
  cases hstate : w.workspaceStates.get? workspaceId with
  | none => exact ⟨h, rfl, fun id state hget => ⟨state, hget, rfl⟩⟩
  | some state =>
    dsimp only
    split
    · exact ⟨h, rfl, fun id state hget => ⟨state, hget, rfl⟩⟩
    · refine ⟨h.of_states rfl rfl rfl (places_set hstate rfl), rfl, fun id later hget => ?_⟩
      rw [get?_set] at hget
      split at hget
      · rename_i heq; rw [← some.inj hget]; exact ⟨state, heq ▸ hstate, rfl⟩
      · exact ⟨later, hget, rfl⟩

section

variable (hresolve : ∀ path, resolve (resolve path) = resolve path)
include hresolve

theorem System.coherent_step
    (h : Coherent resolve s.world) (step : Step) : Coherent resolve (s.step resolve step).world := by
  cases step with
  | syncObservers workspaces => exact h.syncObservers hresolve workspaces
  | syncIssued workspaceId => exact h
  | syncDescribed index workspace registers =>
    unfold System.step
    dsimp only
    split
    · exact h
    · exact h.syncObservers hresolve _
  | syncFailed index => exact h
  | removeForWorkspaceId workspaceId => exact h.remove workspaceId
  | branchSnapshot cwd branchName => exact h.handleBranchSnapshot cwd branchName
  | recordDescriptorState workspaceId workspace => exact h.recordDescriptorState workspaceId workspace
  | shouldSkipUpdate workspaceId workspace => exact (shouldSkipUpdate_shape h _ _).1
  | dispose => exact h.dispose

/-- **The books are in order in every run.** -/
theorem System.coherent_run (h : Coherent resolve s.world) (steps : List Step) :
    Coherent resolve (s.run resolve steps).world := by
  induction steps generalizing s with
  | nil => exact h
  | cons step rest ih => exact ih (System.coherent_step hresolve h step)

end

/-- A sync that does not observe its workspace leaves it as it was not. -/
theorem syncObservers_unobserved (h : Coherent resolve w)
    (hresolve : ∀ path, resolve (resolve path) = resolve path)
    (hobserves : observes resolve w workspace registers = false) :
    (syncObservers resolve w [(workspace, registers)]).workspaceStates.get? workspace.id = none := by
  obtain ⟨-, hshape⟩ := @syncObserver_shape resolve w workspace.id
    workspace.workspaceDirectory h hresolve (workspace.workspaceKind ≠ .directory) registers
  unfold observes at hobserves
  rw [if_neg (Bool.eq_false_iff.mp hobserves)] at hshape
  have hone := syncOne_unobserved hshape.1
  have hall : syncObservers resolve w [(workspace, registers)] =
      (syncOne resolve w workspace registers).1 := by
    unfold syncObservers syncObservers
    dsimp only
    split <;> rfl
  rw [hall, hone]
  exact hshape.1

section

variable (hresolve : ∀ path, resolve (resolve path) = resolve path)
  (hcoherent : Coherent resolve s.world) (htold : ∀ id, Told s.world id) (hnone : s.revived = [])
include hresolve hcoherent htold hnone

theorem System.told_step {step : Step} (hmeets : s.Meets resolve step) :
    (∀ id, Told (s.step resolve step).world id) ∧ (s.step resolve step).revived = [] := by
  have hquiet : ∀ {w : World}, w.log = s.world.log →
      (∀ id state, w.workspaceStates.get? id = some state →
        ∃ before, s.world.workspaceStates.get? id = some before ∧
          before.lastBranchName = state.lastBranchName) → ∀ id, Told w id := by
    intro w hlog hstates id
    exact @Told.frame s.world w id (htold id) [] (by rw [hlog, append_nil])
      (fun e he => absurd he not_mem_nil) (hstates id)
  cases step with
  | syncObservers workspaces => exact ⟨Told.syncObservers hcoherent hresolve htold hmeets, hnone⟩
  | syncIssued workspaceId => exact ⟨htold, hnone⟩
  | syncDescribed index workspace registers =>
    unfold System.step
    dsimp only
    cases hpending : s.pending[index]? with
    | none => exact ⟨htold, hnone⟩
    | some sync =>
      obtain ⟨hkeeps, hremoved⟩ := hmeets sync hpending
      refine ⟨Told.syncObservers hcoherent hresolve htold ⟨hkeeps, fun _ => trivial⟩, ?_⟩
      dsimp only
      rw [if_neg, hnone]
      rintro ⟨hwas, habsent, hobserved⟩
      have hunobserved := syncObservers_unobserved hcoherent hresolve (hremoved hwas habsent)
      rw [hunobserved] at hobserved
      cases hobserved
  | syncFailed index => exact ⟨htold, hnone⟩
  | removeForWorkspaceId workspaceId =>
    refine ⟨hquiet (log_removeForWorkspaceId hcoherent.tracked) fun id state hstate => ?_, hnone⟩
    have hstate : (removeForWorkspaceId resolve s.world workspaceId).workspaceStates.get? id =
      some state := hstate
    rw [get?_removeForWorkspaceId hcoherent.tracked] at hstate
    split at hstate
    · cases hstate
    · exact ⟨state, hstate, rfl⟩
  | branchSnapshot cwd branchName => exact ⟨Told.handleBranchSnapshot htold cwd branchName, hnone⟩
  | recordDescriptorState workspaceId workspace =>
    exact ⟨Told.recordDescriptorState htold workspaceId workspace, hnone⟩
  | shouldSkipUpdate workspaceId workspace =>
    obtain ⟨-, hlog, hstates⟩ := shouldSkipUpdate_shape hcoherent workspaceId workspace
    exact ⟨hquiet hlog hstates, hnone⟩
  | dispose => exact ⟨hquiet rfl (fun id state hstate => by cases hstate), hnone⟩

theorem System.told_of_meets {steps : List Step} (hmeets : s.MeetsAll resolve steps) :
    (∀ id, Told (s.run resolve steps).world id) ∧ (s.run resolve steps).revived = [] := by
  induction steps generalizing s with
  | nil => exact ⟨htold, hnone⟩
  | cons step rest ih =>
    obtain ⟨hfirst, hrest⟩ := hmeets
    obtain ⟨htold', hnone'⟩ := System.told_step hresolve hcoherent htold hnone hfirst
    exact ih (System.coherent_step hresolve hcoherent step) htold' hnone' hrest

end

end RunLemmas

/-! ### What the steps read -/

section Reads

variable {resolve : String → String} {w : World}

def seenIn (log : List Event) : List (String × Option String) :=
  log.filterMap fun
    | .seen id branch => some (id, branch)
    | _ => none

theorem seenIn_append (log log' : List Event) : seenIn (log ++ log') = seenIn log ++ seenIn log' :=
  filterMap_append

theorem seen_readBranch {id : String} (branch : Option String)
    (hstate : (w.workspaceStates.get? id).isSome = true) :
    seenIn (readBranch branch w id).log = seenIn w.log ++ [(id, branch)] ∧
      ∀ other, ((readBranch branch w id).workspaceStates.get? other).isSome =
        (w.workspaceStates.get? other).isSome := by
  obtain ⟨state, hstate⟩ := isSome_iff_exists.mp hstate
  unfold readBranch
  rw [hstate]
  dsimp only
  split
  · exact ⟨seenIn_append _ _, fun _ => rfl⟩
  · refine ⟨?_, fun other => ?_⟩
    · rw [seenIn_append, seenIn_append]; exact append_nil _
    · rw [get?_set]
      split
      · rename_i heq; rw [heq, hstate]; rfl
      · rfl

/-- A snapshot reads its branch for each observed workspace of the directory. -/
theorem seen_handleBranchSnapshot (h : Tracked resolve w) (cwd : String) (branch : Option String) :
    seenIn (handleBranchSnapshot resolve w cwd branch).log =
      seenIn w.log ++ ((w.watchTargets.get? (resolve cwd)).getD []).map (·, branch) := by
  unfold handleBranchSnapshot
  cases hids : w.watchTargets.get? (resolve cwd) with
  | none => exact (append_nil _).symm
  | some ids =>
    dsimp only
    have hobserved : ∀ id ∈ ids, (w.workspaceStates.get? id).isSome = true := fun id hid => by
      obtain ⟨state, hstate, -⟩ := (h.member id _).mp ⟨ids, hids, hid⟩
      rw [hstate]
      rfl
    clear h hids
    rw [getD_some]
    induction ids generalizing w with
    | nil => exact (append_nil _).symm
    | cons id ids ih =>
      obtain ⟨hlog, hstates⟩ := seen_readBranch branch (hobserved id mem_cons_self)
      rw [foldl_cons, ih fun other hother => (hstates other).trans
        (hobserved other (mem_cons_of_mem id hother)), hlog, append_assoc]
      rfl

variable (workspaceId : String) (workspace : Option WorkspaceDescriptorPayload)

theorem seen_readDescriptor : seenIn (readDescriptor w workspaceId workspace).log = seenIn w.log ++
      if (w.workspaceStates.get? workspaceId).isSome = true then
        ((workspace.bind (·.currentBranch)).map (workspaceId, ·)).toList
      else [] := by
  unfold readDescriptor
  cases w.workspaceStates.get? workspaceId with
  | none => exact (append_nil _).symm
  | some state =>
    cases workspace.bind (·.currentBranch) with
    | none => exact (append_nil _).symm
    | some branch => exact seenIn_append _ _

/-- A descriptor that is recorded is read for an observed workspace. -/
theorem seen_recordDescriptorState : seenIn (recordDescriptorState w workspaceId workspace).log =
      seenIn (readDescriptor w workspaceId workspace).log := by
  unfold recordDescriptorState
  rw [log_rememberDescriptorState]
  split
  · split
    · exact (seenIn_append _ _).trans (append_nil _)
    · rfl
  · rfl

/-- And so is that of a sync that leaves its workspace observed. -/
theorem seen_syncOne (h : Coherent resolve w) (hresolve : ∀ path, resolve (resolve path) = resolve path)
    (workspace : WorkspaceDescriptorPayload) (registers : Bool) :
    seenIn (syncOne resolve w workspace registers).1.log = seenIn w.log ++
      if observes resolve w workspace registers = true then
        (workspace.currentBranch.map (workspace.id, ·)).toList
      else [] := by
  obtain ⟨-, hshape⟩ := @syncObserver_shape resolve w workspace.id workspace.workspaceDirectory h
    hresolve (workspace.workspaceKind ≠ .directory) registers
  unfold observes
  split at hshape
  · rename_i hobserves
    obtain ⟨hthrew, hstate, hlog⟩ := hshape
    rw [if_pos hobserves]
    unfold syncOne
    dsimp only
    rw [hthrew, if_neg Bool.false_ne_true, log_rememberDescriptorState, seen_readDescriptor, hstate,
      hlog, seenIn_append]
    split <;> exact congrArg (· ++ _) (append_nil _)
  · rename_i hobserves
    obtain ⟨hnone, events, hlog, hall⟩ := hshape
    rw [if_neg hobserves, syncOne_unobserved hnone, hlog, seenIn_append]
    congr 1
    exact filterMap_eq_nil_iff.mpr fun e he => by rw [hall e he]

end Reads

/-- **Git observation is coherent, and branch changes are announced as a chain**, in every run of
    steps that meet the condition: a directory has one listener exactly if an observed workspace
    lies in it, a workspace is in the target of its own directory alone, no late sync brings a
    removed workspace back, and the announced changes are a chain that includes every change read. -/
theorem System.told_run (workingDirectory : String) (steps : List Step)
    (hmeets : System.start.MeetsAll (resolvePath workingDirectory) steps) :
    (∀ cwd, ((System.start.run (resolvePath workingDirectory) steps).world.listeners.filter
        (·.1 = cwd)).length ≤ 1 ∧
      (((System.start.run (resolvePath workingDirectory) steps).world.listeners.filter
          (·.1 = cwd)).length = 1 ↔
        ∃ id state, (System.start.run (resolvePath workingDirectory)
          steps).world.workspaceStates.get? id = some state ∧ state.cwd = cwd)) ∧
    (∀ id cwd, (∃ ids, (System.start.run (resolvePath workingDirectory)
        steps).world.watchTargets.get? cwd = some ids ∧ id ∈ ids) ↔
      ∃ state, (System.start.run (resolvePath workingDirectory) steps).world.workspaceStates.get? id =
        some state ∧ state.cwd = cwd) ∧
    (System.start.run (resolvePath workingDirectory) steps).revived = [] ∧
    ∀ id, (announcedOf id (System.start.run (resolvePath workingDirectory) steps).world.log).IsChain
        (fun earlier later => earlier.2 = later.1) ∧
      (sightOf id (System.start.run (resolvePath workingDirectory) steps).world.log).changes.Sublist
        (announcedOf id (System.start.run (resolvePath workingDirectory) steps).world.log) := by
  have hresolve := resolvePath_resolvePath workingDirectory
  have hcoherent := @System.coherent_run (resolvePath workingDirectory) .start hresolve
    (coherent_start _) steps
  obtain ⟨htold, hrevived⟩ := System.told_of_meets hresolve (coherent_start _) told_start rfl hmeets
  generalize System.start.run (resolvePath workingDirectory) steps = s at *
  refine ⟨fun cwd => ?_, hcoherent.tracked.member, hrevived, fun id =>
    ⟨(htold id).chain, (htold id).included⟩⟩
  have hlisten := hcoherent.listening cwd
  have hsub := hcoherent.subscribed cwd
  unfold SubscribedAt at hsub
  rw [hlisten]
  cases htarget : s.world.watchTargets.get? cwd with
  | none =>
    rw [htarget] at hsub
    have hnosub : s.world.subscriptions.get? cwd = none := by
      cases hget : s.world.subscriptions.get? cwd with
      | none => rfl
      | some handle => rw [hget] at hsub; cases hsub
    rw [hnosub]
    refine ⟨Nat.zero_le _, fun hone => absurd hone Nat.zero_ne_one, ?_⟩
    rintro ⟨id, state, hstate, hcwd⟩
    obtain ⟨ids, hids, -⟩ := (hcoherent.tracked.member id cwd).mpr ⟨state, hstate, hcwd⟩
    rw [htarget] at hids
    cases hids
  | some ids =>
    rw [htarget] at hsub
    obtain ⟨handle, hhandle⟩ := isSome_iff_exists.mp hsub
    rw [hhandle]
    refine ⟨Nat.le_refl _, fun _ => ?_, fun _ => rfl⟩
    obtain ⟨id, hid⟩ := exists_mem_of_ne_nil ids (hcoherent.tracked.nonempty cwd ids htarget)
    obtain ⟨state, hstate, hcwd⟩ := (hcoherent.tracked.member id cwd).mp ⟨ids, htarget, hid⟩
    exact ⟨id, state, hstate, hcwd⟩

/-- A sync is under way while another observes its workspace and a snapshot is read; one that was
    issued before a removal finds the workspace gone and does not bring it back. -/
def lateSyncs : List Step :=
  [.syncIssued "w", .syncObservers [(⟨"w", "repo", .worktree, "Repo", none, some (some "main")⟩, true)],
    .branchSnapshot "/home/repo" (some "feature"),
    .syncDescribed 0 ⟨"w", "repo", .worktree, "Repo", none, some (some "feature")⟩ true,
    .branchSnapshot "/home/repo" (some "fix"), .syncIssued "w", .removeForWorkspaceId "w",
    .syncDescribed 0 ⟨"w", "repo", .directory, "Repo", none, none⟩ true]

theorem System.told_run_twice :
    announcedOf "w" (System.start.run (resolvePath "/home") lateSyncs).world.log =
      [(some "main", some "feature"), (some "feature", some "fix")] ∧
    (announcedOf "w" (System.start.run (resolvePath "/home") lateSyncs).world.log).IsChain
      (fun earlier later => earlier.2 = later.1) := by
  refine ⟨by decide, ((System.told_run "/home" lateSyncs ?_).2.2.2 "w").1⟩
  refine ⟨trivial, ⟨fun _ => ⟨fun hstays => ?_, fun change hchange => ?_⟩, fun _ => trivial⟩, trivial,
    fun sync hsync => ?_, trivial, trivial, trivial, fun sync hsync => ?_, trivial⟩
  · cases hstays
  · cases hchange
  · obtain rfl := some.inj hsync
    refine ⟨fun _ => ⟨fun _ last hlast => ?_, fun change hchange => ?_⟩, nofun⟩
    · have hseen : (sightOf "w" (System.start.run (resolvePath "/home")
          (lateSyncs.take 3)).world.log).last = some (some "feature") := by decide
      rw [← some.inj (hseen.symm.trans hlast)]
      rfl
    · have hannounced : (announcedOf "w" (System.start.run (resolvePath "/home")
          (lateSyncs.take 3)).world.log).getLast? = some (some "main", some "feature") := by
        decide
      rw [← some.inj (hannounced.symm.trans hchange)]
      rfl
  · obtain rfl := some.inj hsync; exact ⟨nofun, fun _ _ => rfl⟩

/-- A sync of an observed workspace takes its new branch in silence, so the change is not announced
    and the next one does not begin where the last one ended; and a sync that was under way while
    its workspace was removed observes it again. -/
theorem System.sync_in_silence :
    announcedOf "w" (System.start.run (resolvePath "/home")
      [.syncObservers [(⟨"w", "repo", .worktree, "Repo", none, some (some "main")⟩, true)],
        .branchSnapshot "/home/repo" (some "feature"),
        .syncObservers [(⟨"w", "repo", .worktree, "Repo", none, some (some "dev")⟩, true)],
        .branchSnapshot "/home/repo" (some "fix")]).world.log =
      [(some "main", some "feature"), (some "dev", some "fix")] ∧
    (some "feature", some "dev") ∈ (sightOf "w" (System.start.run (resolvePath "/home")
      [.syncObservers [(⟨"w", "repo", .worktree, "Repo", none, some (some "main")⟩, true)],
        .branchSnapshot "/home/repo" (some "feature"),
        .syncObservers [(⟨"w", "repo", .worktree, "Repo", none, some (some "dev")⟩, true)]]).world.log
      ).changes ∧
    (System.start.run (resolvePath "/home")
      [.syncObservers [(⟨"w", "repo", .worktree, "Repo", none, none⟩, true)], .syncIssued "w",
        .removeForWorkspaceId "w",
        .syncDescribed 0 ⟨"w", "repo", .worktree, "Repo", none, none⟩ true]).revived = ["w"] := by
  decide

end Frogg.Server.GitObserver
