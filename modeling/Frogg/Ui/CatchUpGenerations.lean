/-
  Subject:   Which request marks an agent's catch-up complete.

  A run keeps, next to the state, which requests marked their agent complete, which requests were
  overtaken by a disconnect, a hide or a gap recovery, and what each request that fell back to the
  latest tail found when the tail came.
-/
import Frogg.Library.Transition
import Frogg.Ui.ViewedTimelineSync

namespace Frogg.Ui

open Library List Option Function SyncState

/-! ## 1. Events -/

/-- What happens to the synchronizer: a call of its owner, or the end of an await. Awaits are told
    apart by their place. -/
inductive SyncEvent where
  | replaceVisibleAgentIds (sourceId : String) (agentIds : List String)
  | setActive (active : Bool)
  | setConnected (connected : Bool)
  | setDeliveryMode (mode : TimelineDeliveryMode)
  | recoverGap (agentId : String) (cursor : TimelineSyncCursor)
  | retryVisibleAgentTimeline (agentId : String)
  | dispose
  | pageFetched (place : Nat) (page : TimelinePageResult)
  | latestTailFetched (place : Nat)
  | fetchFailed (place : Nat) (error : String)
  | cacheLoaded (place : Nat)
  | subscribed
  | subscriptionFailed (error : String)
  | finishReconciling
  | timer (place : Nat)

namespace SyncState

variable (s : SyncState)

/-- A request at its await. -/
def fetchAt (place : Nat) (stage : FetchStage) : Option Fetch :=
  (s.fetches[place]?).filter fun fetch => fetch.stage = stage

def withoutFetch (place : Nat) : SyncState :=
  { s with fetches := s.fetches.eraseIdx place }

/-- One event; `none` where nothing waits for it. -/
def perform (readCursor : String → Option TimelineSyncCursor) (s : SyncState) :
    SyncEvent → Option SyncState
  | .replaceVisibleAgentIds sourceId agentIds =>
    some (s.replaceVisibleAgentIds readCursor sourceId agentIds)
  | .setActive active => some (s.setActive readCursor active)
  | .setConnected connected => some (s.setConnected readCursor connected)
  | .setDeliveryMode mode => some (s.setDeliveryMode readCursor mode)
  | .recoverGap agentId cursor => some (s.recoverGap readCursor agentId cursor)
  | .retryVisibleAgentTimeline agentId => some (s.retryVisibleAgentTimeline readCursor agentId)
  | .dispose => some s.dispose
  | .pageFetched place page =>
    (s.fetchAt place .page).map fun fetch => (s.withoutFetch place).pageFetched readCursor fetch page
  | .latestTailFetched place =>
    (s.fetchAt place .latestTail).map (s.withoutFetch place).latestTailFetched
  | .fetchFailed place error =>
    (s.fetches[place]?).map fun fetch => (s.withoutFetch place).fetchFailed fetch error
  | .cacheLoaded place =>
    (s.loads[place]?).map fun agentId =>
      ({ s with loads := s.loads.eraseIdx place } : SyncState).cacheLoaded readCursor agentId
  | .subscribed =>
    match s.reconciling with
    | .subscribing generation requested => some (s.subscribed readCursor generation requested)
    | _ => none
  | .subscriptionFailed error =>
    match s.reconciling with
    | .subscribing generation requested => some (s.subscriptionFailed generation requested error)
    | _ => none
  | .finishReconciling =>
    match s.reconciling with
    | .finishing => some s.finishReconciling
    | _ => none
  | .timer place =>
    (s.timers[place]?).map fun timer =>
      ({ s with timers := s.timers.eraseIdx place } : SyncState).runTask readCursor timer.task

/-- The request that marks its agent complete. -/
def completedBy : SyncEvent → Option Fetch
  | .pageFetched place page =>
    (s.fetchAt place .page).filter fun fetch =>
      s.ownsCatchUp fetch.agentId fetch.generation && !page.hasNewer
  | .latestTailFetched place => s.fetchAt place .latestTail
  | _ => none

/-- The request whose latest tail comes. -/
def overflowedBy : SyncEvent → Option Fetch
  | .latestTailFetched place => s.fetchAt place .latestTail
  | _ => none

end SyncState

/-- A request that marked its agent complete: the latest generation issued for the agent then, and
    whether a disconnect, a hide or a gap recovery had overtaken it. -/
structure Completion where
  agentId : String
  generation : Nat
  latest : Nat
  overtaken : Bool
  deriving DecidableEq, Repr

/-- A latest tail that came for a request, and the generation of the agent's entry then. -/
structure Overflow where
  agentId : String
  generation : Nat
  current : Option Nat
  deriving DecidableEq, Repr

structure SyncRun where
  sync : SyncState
  completions : List Completion
  overflows : List Overflow
  overtaken : List (String × Nat)

/-- Requests under way that an event overtakes: all of them by a disconnect, those of an agent by
    hiding it or by a gap recovery that issues a request of its own. -/
def overtakenBy (before after : SyncState) (event : SyncEvent) : List (String × Nat) :=
  (before.fetches.filter fun fetch => decide (fetch ∈ after.fetches) &&
    ((before.isDesired fetch.agentId && !after.isDesired fetch.agentId) ||
      match event with
      | .setConnected connected => before.connected && !connected
      | .recoverGap agentId _ => fetch.agentId = agentId &&
          decide (after.catchUpGenerations agentId ≠ before.catchUpGenerations agentId)
      | _ => false)).map fun fetch => (fetch.agentId, fetch.generation)

def SyncRun.next (readCursor : String → Option TimelineSyncCursor) (r : SyncRun)
    (event : SyncEvent) : Option SyncRun :=
  (r.sync.perform readCursor event).map fun after =>
    { sync := after
      completions := r.completions ++ (r.sync.completedBy event).toList.map fun fetch =>
        ⟨fetch.agentId, fetch.generation, r.sync.catchUpGenerations fetch.agentId,
          decide ((fetch.agentId, fetch.generation) ∈ r.overtaken)⟩
      overflows := r.overflows ++ (r.sync.overflowedBy event).toList.map fun fetch =>
        ⟨fetch.agentId, fetch.generation,
          (r.sync.catchUps fetch.agentId).map CatchUpState.generation⟩
      overtaken := r.overtaken ++ overtakenBy r.sync after event }

/-- All runs from a fresh synchronizer, whatever the cursors answer. -/
def syncSystem : TransitionSystem SyncRun where
  init r := ∃ mode, r = ⟨createViewedTimelineSync mode, [], [], []⟩
  step r r' := ∃ readCursor event, r.next readCursor event = some r'

/-! ## 2. The invariant of the catch-ups -/

/-- An entry has the latest generation and is of a desired agent; a request under way has the latest
    generation only while the agent has an entry. -/
structure CatchUpsOk (s : SyncState) : Prop where
  latest : ∀ a e, s.catchUps a = some e → e.generation = s.catchUpGenerations a
  desired : ∀ a e, s.catchUps a = some e → a ∈ s.desired
  issued : ∀ f ∈ s.fetches, f.generation ≤ s.catchUpGenerations f.agentId
  owned : ∀ f ∈ s.fetches, f.generation = s.catchUpGenerations f.agentId →
    (s.catchUps f.agentId).isSome = true

/-- What a part of a step does to the catch-ups: it keeps their invariant, generations grow, and
    nothing is marked complete. -/
structure Sound (s s' : SyncState) : Prop where
  ok : CatchUpsOk s → CatchUpsOk s'
  grows : ∀ a, s.catchUpGenerations a ≤ s'.catchUpGenerations a
  completes : ∀ a e, s'.catchUps a = some e → e.status = .complete → s.catchUps a = some e

namespace Sound

variable {s s' s'' : SyncState}

theorem refl (s : SyncState) : Sound s s := ⟨id, fun _ => Nat.le_refl _, fun _ _ h _ => h⟩

theorem trans (h : Sound s s') (h' : Sound s' s'') : Sound s s'' where
  ok := h'.ok ∘ h.ok
  grows a := (h.grows a).trans (h'.grows a)
  completes a e he hc := h.completes a e (h'.completes a e he hc) hc

theorem foldl {α : Type} {f : SyncState → α → SyncState} (h : ∀ s x, Sound s (f s x))
    (xs : List α) (s : SyncState) : Sound s (xs.foldl f s) := by
  induction xs generalizing s with
  | nil => exact refl s
  | cons x xs ih => exact (h s x).trans (ih _)

/-- Entries, generations and requests stay, and the desired agents keep those with an entry. -/
theorem of_desired (hc : s'.catchUps = s.catchUps)
    (hg : s'.catchUpGenerations = s.catchUpGenerations) (hf : ∀ f ∈ s'.fetches, f ∈ s.fetches)
    (hd : CatchUpsOk s → ∀ a e, s.catchUps a = some e → a ∈ s'.desired) : Sound s s' where
  ok h := by
    refine ⟨?_, ?_, ?_, ?_⟩
    · rw [hc, hg]; exact h.latest
    · rw [hc]; exact hd h
    · rw [hg]; exact fun f hmem => h.issued f (hf f hmem)
    · rw [hc, hg]; exact fun f hmem => h.owned f (hf f hmem)
  grows a := by rw [hg]
  completes a e he _ := by rwa [hc] at he

end Sound

/-- What does not touch the catch-ups. -/
structure SameCatchUps (s s' : SyncState) : Prop where
  catchUps : s'.catchUps = s.catchUps
  generations : s'.catchUpGenerations = s.catchUpGenerations
  desired : s'.desired = s.desired
  fetches : s'.fetches = s.fetches

namespace SameCatchUps

variable {s s' s'' : SyncState}

theorem refl (s : SyncState) : SameCatchUps s s := ⟨rfl, rfl, rfl, rfl⟩

theorem trans (h : SameCatchUps s s') (h' : SameCatchUps s' s'') : SameCatchUps s s'' :=
  ⟨h'.catchUps.trans h.catchUps, h'.generations.trans h.generations, h'.desired.trans h.desired,
    h'.fetches.trans h.fetches⟩

theorem foldl {α : Type} {f : SyncState → α → SyncState} (h : ∀ s x, SameCatchUps s (f s x))
    (xs : List α) (s : SyncState) : SameCatchUps s (xs.foldl f s) := by
  induction xs generalizing s with
  | nil => exact refl s
  | cons x xs ih => exact (h s x).trans (ih _)

theorem sound (h : SameCatchUps s s') : Sound s s' :=
  .of_desired h.catchUps h.generations (by rw [h.fetches]; exact fun _ hf => hf)
    (by rw [h.desired]; exact fun hok => hok.desired)

end SameCatchUps

/-! ## 3. The parts of a step -/

variable {agentId : String} {generation place : Nat} {current : CatchUpState}

section

variable (s : SyncState)

theorem cancelTimer_same (timer : Option Nat) : SameCatchUps s (s.cancelTimer timer) := by
  cases timer <;> exact ⟨rfl, rfl, rfl, rfl⟩

theorem clearMembershipRetry_same : SameCatchUps s s.clearMembershipRetry :=
  (cancelTimer_same s _).trans ⟨rfl, rfl, rfl, rfl⟩

section

variable (agentId : String)

theorem ready_same : SameCatchUps s (s.setVisibilityCatchUpReady agentId) :=
  ⟨rfl, rfl, rfl, rfl⟩

theorem error_same (agentIds : List String) (message : String) :
    SameCatchUps s (s.setVisibilityCatchUpError agentIds message) :=
  ⟨rfl, rfl, rfl, rfl⟩

theorem pending_same : SameCatchUps s (s.setVisibilityCatchUpPending agentId) :=
  ⟨rfl, rfl, rfl, rfl⟩

theorem ensureCacheLoaded_same : SameCatchUps s (s.ensureCacheLoaded agentId) := by
  unfold ensureCacheLoaded
  split <;> exact ⟨rfl, rfl, rfl, rfl⟩

theorem park_same (request : ForwardFetchPlan) : SameCatchUps s (s.park agentId request) :=
  ⟨rfl, rfl, rfl, rfl⟩

theorem reconcileLatestMembership_same : SameCatchUps s s.reconcileLatestMembership := by
  unfold reconcileLatestMembership
  split
  · exact ⟨rfl, rfl, rfl, rfl⟩
  · split <;> exact ⟨rfl, rfl, rfl, rfl⟩

theorem reconcileMembership_same : SameCatchUps s s.reconcileMembership := by
  unfold reconcileMembership
  split
  · exact ⟨rfl, rfl, rfl, rfl⟩
  · split
    · exact .refl s
    · exact reconcileLatestMembership_same s

theorem cancelCatchUp_catchUps :
    (s.cancelCatchUp agentId).catchUps = update s.catchUps agentId none ∧
      (s.cancelCatchUp agentId).catchUpGenerations =
        update s.catchUpGenerations agentId (s.catchUpGenerations agentId + 1) ∧
      (s.cancelCatchUp agentId).desired = s.desired ∧
      (s.cancelCatchUp agentId).fetches = s.fetches := by
  obtain ⟨hc, hg, hd, hf⟩ :=
    cancelTimer_same s ((s.catchUps agentId).bind CatchUpState.cancelRetry)
  unfold cancelCatchUp
  dsimp only
  rw [hc, hg]
  exact ⟨rfl, rfl, hd, hf⟩

/-- A cancelled agent has no entry, and requests under way lose the latest generation. -/
theorem cancelCatchUp_sound : Sound s (s.cancelCatchUp agentId) := by
  obtain ⟨hc, hg, hd, hf⟩ := cancelCatchUp_catchUps s agentId
  refine ⟨fun h => ⟨?_, ?_, ?_, ?_⟩, ?_, ?_⟩
  · intro a e he
    rw [hc] at he
    rw [hg]
    by_cases ha : a = agentId
    · subst ha; rw [update_self] at he; cases he
    · rw [update_of_ne ha] at he ⊢; exact h.latest a e he
  · intro a e he
    rw [hc] at he
    rw [hd]
    by_cases ha : a = agentId
    · subst ha; rw [update_self] at he; cases he
    · rw [update_of_ne ha] at he; exact h.desired a e he
  · intro f hmem
    rw [hf] at hmem
    have hissued := h.issued f hmem
    rw [hg]
    by_cases ha : f.agentId = agentId
    · rw [ha, update_self, ← ha]; omega
    · rw [update_of_ne ha]; exact hissued
  · intro f hmem hlatest
    rw [hf] at hmem
    rw [hg] at hlatest
    rw [hc]
    by_cases ha : f.agentId = agentId
    · have hissued := h.issued f hmem
      rw [ha, update_self, ← ha] at hlatest
      omega
    · rw [update_of_ne ha] at hlatest ⊢; exact h.owned f hmem hlatest
  · intro a
    rw [hg]
    by_cases ha : a = agentId
    · subst ha; rw [update_self]; omega
    · rw [update_of_ne ha]
  · intro a e he _
    rw [hc] at he
    by_cases ha : a = agentId
    · subst ha; rw [update_self] at he; cases he
    · rwa [update_of_ne ha] at he

end

theorem owns_entry (h : s.ownsCatchUp agentId generation = true) :
    ∃ e, s.catchUps agentId = some e ∧ e.generation = generation := by
  unfold ownsCatchUp at h
  rw [Bool.and_eq_true] at h
  simpa [Option.any_eq_true] using h.2

/-- A request that is issued has a generation that was given out, and owns the entry if it is the
    latest one. -/
theorem addFetch_sound (fetch : Fetch)
    (hissued : CatchUpsOk s → fetch.generation ≤ s.catchUpGenerations fetch.agentId)
    (howned : fetch.generation = s.catchUpGenerations fetch.agentId →
      (s.catchUps fetch.agentId).isSome = true) :
    Sound s { s with fetches := s.fetches ++ [fetch] } := by
  refine ⟨fun h => ⟨h.latest, h.desired, ?_, ?_⟩, fun _ => Nat.le_refl _, fun _ _ he _ => he⟩
  · intro f hmem
    rcases mem_append.mp hmem with hmem | hmem
    · exact h.issued f hmem
    · obtain rfl := mem_singleton.mp hmem; exact hissued h
  · intro f hmem hlatest
    rcases mem_append.mp hmem with hmem | hmem
    · exact h.owned f hmem hlatest
    · obtain rfl := mem_singleton.mp hmem; exact howned hlatest

/-- A request starts under way only where it owns the entry. -/
theorem fetchUntilCurrent_sound (agentId : String) (generation : Nat) (request : ForwardFetchPlan)
    (fallback : Bool) : Sound s (s.fetchUntilCurrent agentId generation request fallback) := by
  unfold fetchUntilCurrent
  split
  · exact .refl s
  · rename_i howns
    obtain ⟨e, he, hgen⟩ := owns_entry s (by simpa using howns)
    refine addFetch_sound s _ (fun h => ?_) fun _ => ?_
    · rw [← h.latest agentId e he, hgen]
    · rw [he]; rfl

/-- A new entry takes the next generation. -/
theorem newEntry_sound (hdesired : agentId ∈ s.desired) (entry : CatchUpState)
    (hgen : entry.generation = s.catchUpGenerations agentId + 1)
    (hstatus : entry.status ≠ .complete) (pending : String → Option ForwardFetchPlan) :
    Sound s { s with
      catchUpGenerations := update s.catchUpGenerations agentId entry.generation
      catchUps := update s.catchUps agentId (some entry)
      pendingCatchUps := pending } := by
  refine ⟨fun h => ⟨?_, ?_, ?_, ?_⟩, ?_, ?_⟩
  · intro a e he
    dsimp only at he ⊢
    by_cases ha : a = agentId
    · subst ha
      rw [update_self] at he ⊢
      cases he
      rfl
    · rw [update_of_ne ha] at he ⊢; exact h.latest a e he
  · intro a e he
    dsimp only at he ⊢
    by_cases ha : a = agentId
    · exact ha ▸ hdesired
    · rw [update_of_ne ha] at he; exact h.desired a e he
  · intro f hmem
    have hissued := h.issued f hmem
    dsimp only
    by_cases ha : f.agentId = agentId
    · rw [ha] at hissued; rw [ha, update_self]; omega
    · rw [update_of_ne ha]; exact hissued
  · intro f hmem hlatest
    dsimp only at hlatest ⊢
    by_cases ha : f.agentId = agentId
    · rw [ha, update_self]; rfl
    · rw [update_of_ne ha] at hlatest ⊢; exact h.owned f hmem hlatest
  · intro a
    dsimp only
    by_cases ha : a = agentId
    · subst ha; rw [update_self]; omega
    · rw [update_of_ne ha]
  · intro a e he hcomplete
    dsimp only at he
    by_cases ha : a = agentId
    · subst ha
      rw [update_self] at he
      cases he
      exact absurd hcomplete hstatus
    · rwa [update_of_ne ha] at he

variable (readCursor : String → Option TimelineSyncCursor)

theorem startCatchUp_sound (agentId : String) (request : Option ForwardFetchPlan)
    (supersede : Bool) : Sound s (s.startCatchUp readCursor agentId request supersede) := by
  have hparked : Sound s ((request.map (s.park agentId)).getD s) := by
    cases request with
    | none => exact .refl s
    | some request => exact (park_same s agentId request).sound
  unfold startCatchUp
  dsimp only
  split
  · exact hparked
  · rename_i hmay
    split
    · exact hparked.trans (ensureCacheLoaded_same _ agentId).sound
    · split
      · exact (park_same s agentId _).sound
      · exact .refl s
      · generalize htimer : (s.catchUps agentId).bind CatchUpState.cancelRetry = timer
        have hd := (cancelTimer_same s timer).desired
        have hdesired : agentId ∈ (s.cancelTimer timer).desired := by
          rw [hd]
          simp only [isDesired, Bool.or_eq_true, not_or, Bool.not_eq_true',
            Bool.not_eq_false, decide_eq_true_eq] at hmay
          exact hmay.1.2
        exact ((cancelTimer_same s timer).sound.trans
          (newEntry_sound (s.cancelTimer timer) hdesired _ rfl (by simp) _)).trans
            (fetchUntilCurrent_sound _ agentId _ _ _)

theorem startAcknowledgedCatchUps_sound : Sound s (s.startAcknowledgedCatchUps readCursor) :=
  Sound.foldl (fun s agentId => startCatchUp_sound s readCursor agentId _ _) _ s

/-- An entry changes its status and keeps its generation. -/
theorem sameGeneration_ok {entry : CatchUpState} (hcurrent : s.catchUps agentId = some current)
    (hgen : entry.generation = current.generation) (h : CatchUpsOk s) :
    CatchUpsOk { s with catchUps := update s.catchUps agentId (some entry) } := by
  refine ⟨?_, ?_, h.issued, ?_⟩
  · intro a e he
    dsimp only at he ⊢
    by_cases ha : a = agentId
    · subst ha
      rw [update_self] at he
      cases he
      rw [hgen, h.latest a current hcurrent]
    · rw [update_of_ne ha] at he; exact h.latest a e he
  · intro a e he
    dsimp only at he ⊢
    by_cases ha : a = agentId
    · exact ha ▸ h.desired agentId current hcurrent
    · rw [update_of_ne ha] at he; exact h.desired a e he
  · intro f hmem hlatest
    dsimp only
    by_cases ha : f.agentId = agentId
    · rw [ha, update_self]; rfl
    · rw [update_of_ne ha]; exact h.owned f hmem hlatest

theorem fetchFailed_sound (fetch : Fetch) (error : String) :
    Sound s (s.fetchFailed fetch error) := by
  unfold fetchFailed
  cases hcurrent : s.catchUps fetch.agentId with
  | none => exact .refl s
  | some current =>
    dsimp only
    split
    · exact .refl s
    · rename_i hgen
      refine Sound.trans ?_ (error_same _ _ _).sound
      refine ⟨fun h => ?_, fun _ => Nat.le_refl _, fun a e he hcomplete => ?_⟩
      · have hsame : SameCatchUps s (s.schedule (.catchUp fetch.agentId fetch.generation)
          (getNextRetryDelayMs current.retryDelayMs)).2 := ⟨rfl, rfl, rfl, rfl⟩
        exact sameGeneration_ok _ hcurrent (by simpa using (Decidable.not_not.mp hgen).symm)
          (hsame.sound.ok h)
      · dsimp only at he
        by_cases ha : a = fetch.agentId
        · subst ha
          rw [update_self] at he
          cases he
          cases hcomplete
        · rwa [update_of_ne ha] at he

theorem cacheLoaded_sound (agentId : String) : Sound s (s.cacheLoaded readCursor agentId) := by
  refine Sound.trans (SameCatchUps.sound ?_) (startCatchUp_sound _ readCursor agentId _ _)
  exact ⟨rfl, rfl, rfl, rfl⟩

/-- Cancelled agents have no entry; the others keep theirs. -/
theorem foldl_cancel {f : SyncState → String → SyncState}
    (hf : ∀ s a, SameCatchUps (s.cancelCatchUp a) (f s a)) (agentIds : List String)
    (s : SyncState) :
    Sound s (agentIds.foldl f s) ∧ (agentIds.foldl f s).desired = s.desired ∧
      ∀ a e, (agentIds.foldl f s).catchUps a = some e → a ∉ agentIds ∧ s.catchUps a = some e := by
  induction agentIds generalizing s with
  | nil => exact ⟨.refl s, rfl, fun a e he => ⟨not_mem_nil, he⟩⟩
  | cons agentId agentIds ih =>
    obtain ⟨hsound, hdesired, hentries⟩ := ih (f s agentId)
    obtain ⟨hc, -, hd, -⟩ := cancelCatchUp_catchUps s agentId
    have hsame := hf s agentId
    refine ⟨((cancelCatchUp_sound s agentId).trans hsame.sound).trans hsound,
      hdesired.trans (hsame.desired.trans hd), fun a e he => ?_⟩
    obtain ⟨hnot, hentry⟩ := hentries a e he
    rw [hsame.catchUps, hc] at hentry
    by_cases ha : a = agentId
    · subst ha; rw [update_self] at hentry; cases hentry
    · rw [update_of_ne ha] at hentry; exact ⟨by simp [ha, hnot], hentry⟩

/-! ## 4. Membership -/

theorem subscribed_sound (generation : Nat) (requested : List String) :
    Sound s (s.subscribed readCursor generation requested) := by
  have hclear := clearMembershipRetry_same s
  unfold subscribed
  dsimp only
  split
  · refine (hclear.trans ?_).sound
    exact ⟨rfl, rfl, rfl, rfl⟩
  · split
    · refine ((hclear.trans ?_).trans (reconcileLatestMembership_same _)).sound
      exact ⟨rfl, rfl, rfl, rfl⟩
    · split
      · refine ((hclear.trans ?_).sound.trans (startAcknowledgedCatchUps_sound _ readCursor)).trans
          (reconcileLatestMembership_same _).sound
        exact ⟨rfl, rfl, rfl, rfl⟩
      · refine @Sound.trans _ (startAcknowledgedCatchUps readCursor _) _
          ((hclear.trans ?_).sound.trans (startAcknowledgedCatchUps_sound _ readCursor))
          (SameCatchUps.sound ⟨rfl, rfl, rfl, rfl⟩)
        exact ⟨rfl, rfl, rfl, rfl⟩

theorem subscriptionFailed_sound (generation : Nat) (requested : List String) (error : String) :
    Sound s (s.subscriptionFailed generation requested error) := by
  refine SameCatchUps.sound ?_
  refine SameCatchUps.trans ?_ (SameCatchUps.trans (cancelTimer_same _ _) ⟨rfl, rfl, rfl, rfl⟩)
  exact ⟨rfl, rfl, rfl, rfl⟩

theorem finishReconciling_sound : Sound s s.finishReconciling := by
  unfold finishReconciling
  dsimp only
  split
  · refine (SameCatchUps.trans ?_ (reconcileMembership_same _)).sound
    exact ⟨rfl, rfl, rfl, rfl⟩
  · split
    · refine (SameCatchUps.trans ?_ (reconcileMembership_same _)).sound
      exact ⟨rfl, rfl, rfl, rfl⟩
    · exact SameCatchUps.sound ⟨rfl, rfl, rfl, rfl⟩

theorem commitDesiredMembership_sound (nextDesired : List String) (reset : Bool) :
    Sound s (s.commitDesiredMembership readCursor nextDesired reset) := by
  unfold commitDesiredMembership
  dsimp only
  generalize hreset : (if reset then nextDesired.foldl setVisibilityCatchUpPending s else s) = s₁
  have h₁ : SameCatchUps s s₁ := by
    rw [← hreset]
    split
    · exact SameCatchUps.foldl (fun s a => pending_same s a) _ s
    · exact .refl s
  refine h₁.sound.trans ?_
  split
  · exact .refl s₁
  · generalize hcancel : (s₁.desired.filter (· ∉ nextDesired)).foldl
      (fun s agentId => (s.cancelCatchUp agentId).setVisibilityCatchUpReady agentId) s₁ = s₂
    obtain ⟨h₂, hdesired, hentries⟩ := hcancel ▸ foldl_cancel
      (f := fun s agentId => (s.cancelCatchUp agentId).setVisibilityCatchUpReady agentId)
      (fun s a => ready_same _ a) (s₁.desired.filter (· ∉ nextDesired)) s₁
    generalize hload : (nextDesired.filter (· ∉ s₂.desired)).foldl
      (fun s agentId => (s.setVisibilityCatchUpPending agentId).ensureCacheLoaded agentId) s₂ = s₃
    have h₃ : SameCatchUps s₂ s₃ := by
      rw [← hload]
      exact SameCatchUps.foldl
        (fun s a => (pending_same s a).trans (ensureCacheLoaded_same _ a)) _ s₂
    have hclear := clearMembershipRetry_same s₃
    have h₄ : Sound s₃ { s₃.clearMembershipRetry with
        desired := nextDesired
        membershipGeneration := s₃.membershipGeneration + 1 } := by
      refine .of_desired hclear.catchUps hclear.generations
        (fun f hf => hclear.fetches ▸ hf) fun hok a e he => ?_
      rw [h₃.catchUps] at he
      have hbefore := hok.desired a e (h₃.catchUps ▸ he)
      rw [h₃.desired, hdesired] at hbefore
      by_contra hnot
      exact (hentries a e he).1 (mem_filter.mpr ⟨hbefore, by simpa using hnot⟩)
    refine (h₂.trans h₃.sound).trans (h₄.trans ?_)
    split
    · split
      · refine Sound.trans (SameCatchUps.sound ?_) (startAcknowledgedCatchUps_sound _ readCursor)
        exact ⟨rfl, rfl, rfl, rfl⟩
      · exact SameCatchUps.sound ⟨rfl, rfl, rfl, rfl⟩
    · exact (reconcileMembership_same _).sound

theorem publishVisibleMembership_sound : Sound s (s.publishVisibleMembership readCursor) := by
  unfold publishVisibleMembership
  split
  · refine Sound.trans (SameCatchUps.sound ?_) (commitDesiredMembership_sound _ readCursor _ _)
    exact ⟨rfl, rfl, rfl, rfl⟩
  · split
    · exact .refl s
    · refine Sound.trans (SameCatchUps.sound ?_) (commitDesiredMembership_sound _ readCursor _ _)
      exact ⟨rfl, rfl, rfl, rfl⟩

/-! ## 5. Calls of the owner -/

theorem replaceVisibleAgentIds_sound (sourceId : String) (agentIds : List String) :
    Sound s (s.replaceVisibleAgentIds readCursor sourceId agentIds) := by
  refine Sound.trans (SameCatchUps.sound ?_) (publishVisibleMembership_sound _ readCursor)
  exact ⟨rfl, rfl, rfl, rfl⟩

theorem setActive_sound (active : Bool) : Sound s (s.setActive readCursor active) := by
  unfold setActive
  split
  · exact .refl s
  · refine Sound.trans (SameCatchUps.sound ?_) (publishVisibleMembership_sound _ readCursor)
    exact ⟨rfl, rfl, rfl, rfl⟩

/-- Cancelling all desired agents leaves no entry. -/
theorem cancelDesiredCatchUps_sound (t : SyncState) :
    Sound t t.cancelDesiredCatchUps ∧
      (CatchUpsOk t → ∀ a, t.cancelDesiredCatchUps.catchUps a = none) := by
  unfold cancelDesiredCatchUps
  obtain ⟨hsound, -, hentries⟩ := foldl_cancel (fun s a => .refl (s.cancelCatchUp a)) t.desired t
  refine ⟨hsound, fun hok a => ?_⟩
  cases he : (t.desired.foldl cancelCatchUp t).catchUps a with
  | none => rfl
  | some e => obtain ⟨hnot, hbefore⟩ := hentries a e he; exact absurd (hok.desired a e hbefore) hnot

/-- A disconnect leaves no entry. -/
theorem disconnect_sound : Sound s (s.disconnect readCursor) ∧
    (CatchUpsOk s → ∀ a, (s.disconnect readCursor).catchUps a = none) := by
  unfold disconnect
  dsimp only
  generalize hcommit : commitDesiredMembership readCursor _ _ true = t
  have ht : Sound s t := by
    rw [← hcommit]
    refine Sound.trans (SameCatchUps.sound ?_) (commitDesiredMembership_sound _ readCursor _ _)
    exact ⟨rfl, rfl, rfl, rfl⟩
  generalize hreset : ({ t.clearMembershipRetry with
    membershipRetryDelayMs := none
    acknowledged := []
    membershipGeneration := t.membershipGeneration + 1 } : SyncState) = u
  have hu : SameCatchUps t u := by
    rw [← hreset]
    refine (clearMembershipRetry_same t).trans ?_
    exact ⟨rfl, rfl, rfl, rfl⟩
  obtain ⟨hsound, hnone⟩ := cancelDesiredCatchUps_sound u
  exact ⟨(ht.trans hu.sound).trans hsound, fun hok => hnone (hu.sound.ok (ht.ok hok))⟩

theorem connect_sound : Sound s (s.connect readCursor) := by
  unfold connect
  dsimp only
  split
  · refine Sound.trans (SameCatchUps.sound ?_) (startAcknowledgedCatchUps_sound _ readCursor)
    exact ⟨rfl, rfl, rfl, rfl⟩
  · refine (SameCatchUps.trans ?_ (reconcileMembership_same _)).sound
    exact ⟨rfl, rfl, rfl, rfl⟩

theorem setConnected_sound (connected : Bool) : Sound s (s.setConnected readCursor connected) := by
  unfold setConnected
  split
  · exact .refl s
  · split
    · exact connect_sound s readCursor
    · exact (disconnect_sound s readCursor).1

theorem setDeliveryMode_sound (mode : TimelineDeliveryMode) :
    Sound s (s.setDeliveryMode readCursor mode) := by
  unfold setDeliveryMode
  split
  · exact .refl s
  · dsimp only
    generalize ht : ({ s.clearMembershipRetry with
      deliveryMode := mode
      membershipRetryDelayMs := none
      membershipNeedsRetry := false
      membershipGeneration := s.membershipGeneration + 1 } : SyncState) = t
    have hclear : SameCatchUps s t := by
      rw [← ht]
      refine (clearMembershipRetry_same s).trans ?_
      exact ⟨rfl, rfl, rfl, rfl⟩
    obtain ⟨hsound, hnone⟩ := cancelDesiredCatchUps_sound t
    have hcancelled : Sound s t.cancelDesiredCatchUps :=
      hclear.sound.trans hsound
    -- no agent has an entry, so any set of desired agents keeps those with one
    have hswitch (u : SyncState)
        (hc : u.catchUps = t.cancelDesiredCatchUps.catchUps)
        (hg : u.catchUpGenerations =
          t.cancelDesiredCatchUps.catchUpGenerations)
        (hf : u.fetches = t.cancelDesiredCatchUps.fetches) : Sound s u := by
      refine ⟨fun hok => ?_, ?_, ?_⟩
      · have hcok := hcancelled.ok hok
        refine ⟨by rw [hc, hg]; exact hcok.latest, fun a e he => ?_, ?_, ?_⟩
        · rw [hc, hnone (hclear.sound.ok hok) a] at he; cases he
        · rw [hf, hg]; exact hcok.issued
        · rw [hf, hg, hc]; exact hcok.owned
      · rw [hg]; exact hcancelled.grows
      · rw [hc]; exact hcancelled.completes
    split
    · refine (hswitch _ ?_ ?_ ?_).trans (reconcileMembership_same _).sound
      all_goals rfl
    · split
      · refine (hswitch _ ?_ ?_ ?_).trans (startAcknowledgedCatchUps_sound _ readCursor)
        all_goals rfl
      · exact hswitch _ rfl rfl rfl

theorem recoverGap_sound (agentId : String) (cursor : TimelineSyncCursor) :
    Sound s (s.recoverGap readCursor agentId cursor) := by
  unfold recoverGap
  split
  · exact .refl s
  · exact startCatchUp_sound s readCursor agentId _ _

theorem retryVisibleAgentTimeline_sound (agentId : String) :
    Sound s (s.retryVisibleAgentTimeline readCursor agentId) := by
  unfold retryVisibleAgentTimeline
  split
  · exact .refl s
  · dsimp only
    split
    · refine Sound.trans (SameCatchUps.sound (SameCatchUps.trans ?_ (cancelTimer_same _ _)))
        (startCatchUp_sound _ readCursor agentId _ _)
      exact ⟨rfl, rfl, rfl, rfl⟩
    · split
      · exact .refl s
      · have hclear : SameCatchUps s ({ s with
            manualRetries := update s.manualRetries agentId true } :
              SyncState).clearMembershipRetry := by
          refine SameCatchUps.trans ?_ (clearMembershipRetry_same _)
          exact ⟨rfl, rfl, rfl, rfl⟩
        refine ((hclear.trans ?_).trans (reconcileMembership_same _)).sound
        exact ⟨rfl, rfl, rfl, rfl⟩

theorem dispose_sound : Sound s s.dispose := by
  unfold dispose
  generalize ht : ({ s.clearMembershipRetry with
    disposed := true
    membershipNeedsRetry := false
    membershipRetryDelayMs := none
    sources := []
    membershipGeneration := s.membershipGeneration + 1 } : SyncState) = t
  have hclear : SameCatchUps s t := by
    rw [← ht]
    refine (clearMembershipRetry_same s).trans ?_
    exact ⟨rfl, rfl, rfl, rfl⟩
  obtain ⟨hsound, hnone⟩ := cancelDesiredCatchUps_sound t
  have hcancelled := hclear.sound.trans hsound
  refine ⟨fun hok => ?_, hcancelled.grows, hcancelled.completes⟩
  have hcok := hcancelled.ok hok
  refine ⟨hcok.latest, fun a e he => ?_, hcok.issued, hcok.owned⟩
  rw [show _ = _ from hnone (hclear.sound.ok hok) a] at he
  cases he

theorem runTask_sound (task : TimerTask) : Sound s (s.runTask readCursor task) := by
  cases task with
  | catchUp agentId generation =>
    unfold runTask
    dsimp only
    split
    · exact .refl s
    · split
      · exact .refl s
      · exact startCatchUp_sound s readCursor agentId none false
  | membership generation requested =>
    unfold runTask
    dsimp only
    split
    · exact SameCatchUps.sound ⟨rfl, rfl, rfl, rfl⟩
    · refine (SameCatchUps.trans ?_ (reconcileMembership_same _)).sound
      exact ⟨rfl, rfl, rfl, rfl⟩

end

/-! ## 6. One event -/

section

variable (s : SyncState)

theorem withoutFetch_sound (place : Nat) : Sound s (s.withoutFetch place) :=
  .of_desired rfl rfl (fun _ hf => mem_of_mem_eraseIdx hf) fun h => h.desired

theorem fetchAt_mem {stage : FetchStage} {fetch : Fetch} (h : s.fetchAt place stage = some fetch) :
    fetch ∈ s.fetches := by
  obtain ⟨hget, -⟩ := filter_eq_some_iff.mp h
  exact mem_of_getElem? hget

/-- Only the entry of the agent is marked. -/
theorem markComplete_catchUps {a : String} {e : CatchUpState}
    (he : (s.markComplete agentId generation).catchUps a = some e) :
    s.catchUps a = some e ∨ a = agentId ∧ e.generation = generation := by
  unfold markComplete at he
  dsimp only at he
  by_cases ha : a = agentId
  · subst ha
    rw [update_self] at he
    cases he
    exact .inr ⟨rfl, rfl⟩
  · rw [update_of_ne ha] at he; exact .inl he

/-- Marking the entry of a generation keeps the invariant. -/
theorem markComplete_ok (hcurrent : s.catchUps agentId = some current)
    (hgen : current.generation = generation) (h : CatchUpsOk s) :
    CatchUpsOk (s.markComplete agentId generation) :=
  sameGeneration_ok s hcurrent hgen.symm h

end

/-- What one event does: entries marked complete are those of the request that `completedBy`
    names. -/
structure StepOk (s s' : SyncState) (completed : Option Fetch) : Prop where
  ok : CatchUpsOk s'
  grows : ∀ a, s.catchUpGenerations a ≤ s'.catchUpGenerations a
  completes : ∀ a e, s'.catchUps a = some e → e.status = .complete →
    s.catchUps a = some e ∨ ∃ f, completed = some f ∧ f.agentId = a ∧ f.generation = e.generation

variable {s : SyncState}

theorem Sound.stepOk {s' : SyncState} (h : Sound s s') (hok : CatchUpsOk s)
    (completed : Option Fetch) : StepOk s s' completed :=
  ⟨h.ok hok, h.grows, fun a e he hc => .inl (h.completes a e he hc)⟩

section

variable (readCursor : String → Option TimelineSyncCursor) {fetch : Fetch}

section

variable (hok : CatchUpsOk s)
include hok

/-- A request that marks its agent complete, whatever is sound after that. -/
theorem completes_stepOk {t s' : SyncState} (ht : Sound s t)
    (hcurrent : t.catchUps fetch.agentId = some current)
    (hgen : current.generation = fetch.generation)
    (h : Sound (t.markComplete fetch.agentId fetch.generation) s') : StepOk s s' (some fetch) := by
  refine ⟨h.ok (markComplete_ok t hcurrent hgen (ht.ok hok)), fun a => (ht.grows a).trans (h.grows a),
    fun a e he hc => ?_⟩
  rcases markComplete_catchUps t (h.completes a e he hc) with hbefore | ⟨rfl, hgen⟩
  · exact .inl (ht.completes a e hbefore hc)
  · exact .inr ⟨fetch, rfl, rfl, hgen.symm⟩

theorem pageFetched_stepOk (hfetch : s.fetchAt place .page = some fetch)
    (page : TimelinePageResult) :
    StepOk s ((s.withoutFetch place).pageFetched readCursor fetch page)
      (s.completedBy (.pageFetched place page)) := by
  have hwithout := withoutFetch_sound s place
  generalize hcompleted : s.completedBy (.pageFetched place page) = completed
  unfold pageFetched
  split
  · exact hwithout.stepOk hok _
  · rename_i howns
    have howns : (s.withoutFetch place).ownsCatchUp fetch.agentId fetch.generation = true := by
      simpa using howns
    obtain ⟨current, hcurrent, hgen⟩ := owns_entry _ howns
    split
    · split
      · refine (hwithout.trans (addFetch_sound _ _ ?_ ?_)).stepOk hok _
        · exact fun _ => hok.issued fetch (fetchAt_mem s hfetch)
        · exact hok.owned fetch (fetchAt_mem s hfetch)
      · exact (hwithout.trans (fetchUntilCurrent_sound _ _ _ _ _)).stepOk hok _
    · exact (hwithout.trans (fetchFailed_sound _ _ _)).stepOk hok _
    · rename_i _ hnewer
      have hthis : completed = some fetch := by
        rw [← hcompleted]
        have hnow : s.ownsCatchUp fetch.agentId fetch.generation = true := howns
        exact filter_eq_some_iff.mpr ⟨hfetch, by simp [hnow, hnewer]⟩
      rw [hthis]
      refine completes_stepOk hok hwithout hcurrent hgen ?_
      dsimp only
      split
      · exact startCatchUp_sound _ readCursor _ _ _
      · exact (ready_same _ _).sound

theorem latestTailFetched_stepOk (hfetch : s.fetchAt place .latestTail = some fetch)
    (hcurrent : (s.catchUps fetch.agentId).map CatchUpState.generation = some fetch.generation) :
    StepOk s ((s.withoutFetch place).latestTailFetched fetch)
      (s.completedBy (.latestTailFetched place)) := by
  obtain ⟨current, hcurrent, hgen⟩ := map_eq_some_iff.mp hcurrent
  have hthis : s.completedBy (.latestTailFetched place) = some fetch := hfetch
  rw [hthis]
  exact completes_stepOk hok (withoutFetch_sound s place) hcurrent hgen (ready_same _ _).sound

/-- An event keeps the invariant of the catch-ups, unless it is a latest tail for a request whose
    entry is gone or newer. -/
theorem perform_stepOk {s' : SyncState} {event : SyncEvent}
    (h : s.perform readCursor event = some s') (hcurrent : ∀ f, s.overflowedBy event = some f →
      (s.catchUps f.agentId).map CatchUpState.generation = some f.generation) :
    StepOk s s' (s.completedBy event) := by
  cases event with
  | replaceVisibleAgentIds sourceId agentIds =>
    obtain rfl := some.inj h
    exact (replaceVisibleAgentIds_sound s readCursor _ _).stepOk hok _
  | setActive active =>
    obtain rfl := some.inj h
    exact (setActive_sound s readCursor _).stepOk hok _
  | setConnected connected =>
    obtain rfl := some.inj h
    exact (setConnected_sound s readCursor _).stepOk hok _
  | setDeliveryMode mode =>
    obtain rfl := some.inj h
    exact (setDeliveryMode_sound s readCursor _).stepOk hok _
  | recoverGap agentId cursor =>
    obtain rfl := some.inj h
    exact (recoverGap_sound s readCursor _ _).stepOk hok _
  | retryVisibleAgentTimeline agentId =>
    obtain rfl := some.inj h
    exact (retryVisibleAgentTimeline_sound s readCursor _).stepOk hok _
  | dispose => obtain rfl := some.inj h; exact (dispose_sound s).stepOk hok _
  | pageFetched place page =>
    obtain ⟨fetch, hfetch, rfl⟩ := map_eq_some_iff.mp h
    exact pageFetched_stepOk readCursor hok hfetch page
  | latestTailFetched place =>
    obtain ⟨fetch, hfetch, rfl⟩ := map_eq_some_iff.mp h
    exact latestTailFetched_stepOk hok hfetch (hcurrent fetch hfetch)
  | fetchFailed place error =>
    obtain ⟨fetch, -, rfl⟩ := map_eq_some_iff.mp h
    exact ((withoutFetch_sound s place).trans (fetchFailed_sound _ _ _)).stepOk hok _
  | cacheLoaded place =>
    obtain ⟨agentId, -, rfl⟩ := map_eq_some_iff.mp h
    refine (Sound.trans (SameCatchUps.sound ?_) (cacheLoaded_sound _ readCursor _)).stepOk hok _
    exact ⟨rfl, rfl, rfl, rfl⟩
  | subscribed =>
    unfold perform at h
    dsimp only at h
    split at h
    · obtain rfl := some.inj h; exact (subscribed_sound s readCursor _ _).stepOk hok _
    · cases h
  | subscriptionFailed error =>
    unfold perform at h
    dsimp only at h
    split at h
    · obtain rfl := some.inj h; exact (subscriptionFailed_sound s _ _ _).stepOk hok _
    · cases h
  | finishReconciling =>
    unfold perform at h
    dsimp only at h
    split at h
    · obtain rfl := some.inj h; exact (finishReconciling_sound s).stepOk hok _
    · cases h
  | timer place =>
    obtain ⟨timer, -, rfl⟩ := map_eq_some_iff.mp h
    refine (Sound.trans (SameCatchUps.sound ?_) (runTask_sound _ readCursor _)).stepOk hok _
    exact ⟨rfl, rfl, rfl, rfl⟩

end

end

/-! ## 7. Runs -/

/-- The requests that mark an agent complete are those of the latest generation. -/
structure LatestOwns (r : SyncRun) : Prop where
  entries : ∀ a e, r.sync.catchUps a = some e → e.generation = r.sync.catchUpGenerations a
  marked : ∀ a e, r.sync.catchUps a = some e → e.status = .complete →
    ∃ c ∈ r.completions, c.agentId = a ∧ c.generation = e.generation
  completed : ∀ c ∈ r.completions, c.generation = c.latest
  notOvertaken : ∀ c ∈ r.completions, c.overtaken = false

/-- A latest tail came while the agent's entry was still that of its request. -/
def Overflow.Current (o : Overflow) : Prop := o.current = some o.generation

structure RunOk (r : SyncRun) : Prop where
  catchUps : CatchUpsOk r.sync
  latest : LatestOwns r
  overtaken : ∀ p ∈ r.overtaken, p.2 < r.sync.catchUpGenerations p.1

/-- Either every latest tail has come in time and all is well, or one came late and marked its
    agent complete with an old generation. -/
def RunInvariant (r : SyncRun) : Prop :=
  (∀ o ∈ r.overflows, o.Current) ∧ RunOk r ∨
    (∃ o ∈ r.overflows, ¬ o.Current) ∧ ∃ c ∈ r.completions, c.generation ≠ c.latest

variable {event : SyncEvent}

/-- What an event overtakes has lost the latest generation. -/
theorem overtakenBy_lt {readCursor : String → Option TimelineSyncCursor} {s' : SyncState}
    (hok : CatchUpsOk s) (h : s.perform readCursor event = some s') (hok' : CatchUpsOk s')
    (hgrows : ∀ a, s.catchUpGenerations a ≤ s'.catchUpGenerations a) {p : String × Nat}
    (hp : p ∈ overtakenBy s s' event) : p.2 < s'.catchUpGenerations p.1 := by
  obtain ⟨fetch, hfetch, rfl⟩ := mem_map.mp hp
  obtain ⟨hbefore, hreason⟩ := mem_filter.mp hfetch
  obtain ⟨hafter, hreason⟩ := Bool.and_eq_true_iff.mp hreason
  have hissued := hok'.issued fetch (of_decide_eq_true hafter)
  -- a request without an entry is not the latest
  have hnone (hnone : s'.catchUps fetch.agentId = none) :
      fetch.generation < s'.catchUpGenerations fetch.agentId := by
    refine lt_of_le_of_ne hissued fun hlatest => ?_
    have hentry := hok'.owned fetch (of_decide_eq_true hafter) hlatest
    rw [hnone] at hentry
    cases hentry
  show fetch.generation < s'.catchUpGenerations fetch.agentId
  rcases Bool.or_eq_true_iff.mp hreason with hhidden | hover
  · refine hnone (eq_none_iff_forall_ne_some.mpr fun e he => ?_)
    simp [isDesired, hok'.desired _ e he] at hhidden
  · split at hover
    · rename_i connected _
      obtain ⟨hconnected, hdown⟩ := Bool.and_eq_true_iff.mp hover
      obtain rfl := some.inj h
      refine hnone ?_
      have hdown : connected = false := by simpa using hdown
      subst hdown
      unfold setConnected
      rw [if_neg (by rw [hconnected]; exact Bool.noConfusion), if_neg Bool.false_ne_true]
      exact (disconnect_sound s readCursor).2 hok _
    · rename_i agentId _ _
      obtain ⟨hagent, hnew⟩ := Bool.and_eq_true_iff.mp hover
      have hagent : fetch.agentId = agentId := of_decide_eq_true hagent
      have hold := hok.issued fetch hbefore
      have hgrown := hgrows agentId
      have hne : s'.catchUpGenerations agentId ≠ s.catchUpGenerations agentId :=
        of_decide_eq_true hnew
      rw [hagent] at hold ⊢
      omega
    · cases hover

/-- The request that marks its agent complete has the latest generation, where latest tails come in
    time. -/
theorem completedBy_latest (hok : CatchUpsOk s) (hcurrent : ∀ f, s.overflowedBy event = some f →
      (s.catchUps f.agentId).map CatchUpState.generation = some f.generation) {fetch : Fetch}
    (hfetch : s.completedBy event = some fetch) :
    fetch.generation = s.catchUpGenerations fetch.agentId := by
  have hentry : (s.catchUps fetch.agentId).map CatchUpState.generation = some fetch.generation := by
    unfold completedBy at hfetch
    split at hfetch
    · obtain ⟨-, howns⟩ := filter_eq_some_iff.mp hfetch
      obtain ⟨howns, -⟩ := Bool.and_eq_true_iff.mp howns
      obtain ⟨e, he, hgen⟩ := owns_entry s howns
      rw [he, ← hgen]
      rfl
    · exact hcurrent fetch hfetch
    · cases hfetch
  obtain ⟨e, he, hgen⟩ := map_eq_some_iff.mp hentry
  rw [← hgen, hok.latest _ e he]

/-- A latest tail that comes late is of an old generation. -/
theorem overflowedBy_old (hok : CatchUpsOk s) {fetch : Fetch}
    (hfetch : s.overflowedBy event = some fetch)
    (hlate : (s.catchUps fetch.agentId).map CatchUpState.generation ≠ some fetch.generation) :
    s.completedBy event = some fetch ∧
      fetch.generation ≠ s.catchUpGenerations fetch.agentId := by
  unfold overflowedBy at hfetch
  split at hfetch
  · refine ⟨hfetch, fun hlatest => hlate ?_⟩
    have hmem := fetchAt_mem s hfetch
    obtain ⟨e, he⟩ := isSome_iff_exists.mp (hok.owned fetch hmem hlatest)
    rw [he, hlatest, ← hok.latest _ e he]
    rfl
  · cases hfetch

variable {r : SyncRun}

theorem syncSystem_step {r' : SyncRun} (hinv : RunInvariant r) (h : syncSystem.step r r') :
    RunInvariant r' := by
  obtain ⟨readCursor, event, hnext⟩ := h
  obtain ⟨s', hperform, rfl⟩ := map_eq_some_iff.mp hnext
  rcases hinv with ⟨hcurrent, hrun⟩ | ⟨⟨o, ho, hlate⟩, c, hc, hold⟩
  · by_cases hnow : ∀ f, r.sync.overflowedBy event = some f →
        (r.sync.catchUps f.agentId).map CatchUpState.generation = some f.generation
    · have hstep := perform_stepOk readCursor hrun.catchUps hperform hnow
      refine .inl ⟨fun o ho => ?_, hstep.ok, ⟨hstep.ok.latest, fun a e he hcomplete => ?_, ?_, ?_⟩,
        fun p hp => ?_⟩
      · rcases mem_append.mp ho with ho | ho
        · exact hcurrent o ho
        · obtain ⟨f, hf, rfl⟩ := mem_map.mp ho; exact hnow f (mem_toList.mp hf)
      · rcases hstep.completes a e he hcomplete with hbefore | ⟨f, hf, rfl, hgen⟩
        · obtain ⟨c, hc, hthis⟩ := hrun.latest.marked a e hbefore hcomplete
          exact ⟨c, mem_append_left _ hc, hthis⟩
        · exact ⟨_, mem_append_right _ (mem_map_of_mem (mem_toList.mpr hf)), rfl, hgen⟩
      · intro c hc
        rcases mem_append.mp hc with hc | hc
        · exact hrun.latest.completed c hc
        · obtain ⟨f, hf, rfl⟩ := mem_map.mp hc
          exact completedBy_latest hrun.catchUps hnow (mem_toList.mp hf)
      · intro c hc
        rcases mem_append.mp hc with hc | hc
        · exact hrun.latest.notOvertaken c hc
        · obtain ⟨f, hf, rfl⟩ := mem_map.mp hc
          have hlatest := completedBy_latest hrun.catchUps hnow (mem_toList.mp hf)
          refine decide_eq_false fun hover => ?_
          have hlt := hrun.overtaken _ hover
          dsimp only at hlt
          omega
      · rcases mem_append.mp hp with hp | hp
        · exact lt_of_lt_of_le (hrun.overtaken p hp) (hstep.grows p.1)
        · exact overtakenBy_lt hrun.catchUps hperform hstep.ok hstep.grows hp
    · obtain ⟨f, hf⟩ := not_forall.mp hnow
      obtain ⟨hf, hlate⟩ := Classical.not_imp.mp hf
      obtain ⟨hcompleted, hold⟩ := overflowedBy_old hrun.catchUps hf hlate
      refine .inr ⟨⟨_, mem_append_right _ (mem_map_of_mem (mem_toList.mpr hf)),
        hlate⟩, _, mem_append_right _ (mem_map_of_mem (mem_toList.mpr hcompleted)),
        hold⟩
  · exact .inr ⟨⟨o, mem_append_left _ ho, hlate⟩, c, mem_append_left _ hc, hold⟩

theorem syncSystem_init (h : syncSystem.init r) : RunInvariant r := by
  obtain ⟨mode, rfl⟩ := h
  refine .inl ⟨?_, ⟨?_, ?_, ?_, ?_⟩, ⟨?_, ?_, ?_, ?_⟩, ?_⟩
  all_goals simp [createViewedTimelineSync]

/-- **Which requests mark an agent complete.** In every run, the requests of the latest generation
    and no others, if and only if no request waits for the latest tail while its agent's entry goes
    away or becomes a newer one. -/
theorem catchUp_owned_by_latest {r : SyncRun} (h : syncSystem.Reachable r) :
    LatestOwns r ↔ ∀ o ∈ r.overflows, o.Current := by
  have hinv := h.invariant (fun _ => syncSystem_init) (fun _ _ => syncSystem_step)
  rcases hinv with ⟨hcurrent, hrun⟩ | ⟨⟨o, ho, hlate⟩, c, hc, hold⟩
  · exact ⟨fun _ => hcurrent, fun _ => hrun.latest⟩
  · exact ⟨fun howns => absurd (howns.completed c hc) hold,
      fun hcurrent => absurd (hcurrent o ho) hlate⟩

/-! ## 8. Two runs -/

/-- The events of a run, one after the other. -/
def SyncRun.follow (readCursor : String → Option TimelineSyncCursor) (r : SyncRun) :
    List SyncEvent → Option SyncRun
  | [] => some r
  | event :: events => (r.next readCursor event).bind fun r => r.follow readCursor events

theorem SyncRun.follow_reachable {readCursor : String → Option TimelineSyncCursor} {r' : SyncRun}
    {events : List SyncEvent} (hr : syncSystem.Reachable r)
    (h : r.follow readCursor events = some r') : syncSystem.Reachable r' := by
  induction events generalizing r with
  | nil => obtain rfl := some.inj h; exact hr
  | cons event events ih =>
    obtain ⟨t, ht, hrest⟩ := bind_eq_some_iff.mp h
    exact ih (hr.step ⟨readCursor, event, ht⟩) hrest

def freshRun : SyncRun := ⟨createViewedTimelineSync .legacy, [], [], []⟩

theorem freshRun_reachable : syncSystem.Reachable freshRun := .of_init ⟨.legacy, rfl⟩

def heldCursor (_ : String) : Option TimelineSyncCursor := some ⟨"e", 5⟩

/-- A shown agent whose first page has more behind it waits for the latest tail. -/
def overflowing : List SyncEvent :=
  [.replaceVisibleAgentIds "workspace" ["agent"], .cacheLoaded 0, .setConnected true,
    .pageFetched 0 ⟨true, some ⟨"e", 45⟩⟩]

theorem catchUp_owned_by_latest_tail :
    ∃ r, freshRun.follow heldCursor (overflowing ++ [.latestTailFetched 0]) = some r ∧
      r.overflows = [⟨"agent", 1, some 1⟩] ∧ LatestOwns r := by
  obtain ⟨r, hr⟩ : ∃ r, freshRun.follow heldCursor (overflowing ++ [.latestTailFetched 0]) =
    some r := isSome_iff_exists.mp (by decide)
  have hoverflows : r.overflows = [⟨"agent", 1, some 1⟩] := by
    have h : (freshRun.follow heldCursor (overflowing ++ [.latestTailFetched 0])).map
      SyncRun.overflows = some [⟨"agent", 1, some 1⟩] := by decide
    rw [hr] at h
    exact some.inj h
  refine ⟨r, hr, hoverflows,
    (catchUp_owned_by_latest (SyncRun.follow_reachable freshRun_reachable hr)).mpr ?_⟩
  rw [hoverflows]
  intro o ho
  obtain rfl := mem_singleton.mp ho
  rfl

/-- The latest tail comes after a disconnect and marks the agent complete: its entry has the first
    generation, and the latest is the second. -/
theorem stale_tail_completes :
    ∃ r, freshRun.follow heldCursor (overflowing ++ [.setConnected false, .latestTailFetched 0]) =
        some r ∧ syncSystem.Reachable r ∧
      r.sync.catchUps "agent" = some ⟨1, .complete, none, none, none⟩ ∧
      r.sync.catchUpGenerations "agent" = 2 ∧ r.completions = [⟨"agent", 1, 2, true⟩] ∧
      ¬ LatestOwns r := by
  obtain ⟨r, hr⟩ : ∃ r, freshRun.follow heldCursor
    (overflowing ++ [.setConnected false, .latestTailFetched 0]) = some r :=
      isSome_iff_exists.mp (by decide)
  have h : (freshRun.follow heldCursor
      (overflowing ++ [.setConnected false, .latestTailFetched 0])).map
        (fun r => (r.sync.catchUps "agent", r.sync.catchUpGenerations "agent", r.completions)) =
      some (some ⟨1, .complete, none, none, none⟩, 2, [⟨"agent", 1, 2, true⟩]) := by decide
  rw [hr] at h
  obtain ⟨hentry, hlatest, hcompletions⟩ :
      r.sync.catchUps "agent" = some ⟨1, .complete, none, none, none⟩ ∧
        r.sync.catchUpGenerations "agent" = 2 ∧ r.completions = [⟨"agent", 1, 2, true⟩] := by
    simpa only [map_some, some.injEq, Prod.mk.injEq] using h
  refine ⟨r, hr, SyncRun.follow_reachable freshRun_reachable hr, hentry, hlatest, hcompletions,
    fun howns => ?_⟩
  have hgen := howns.entries "agent" _ hentry
  rw [hlatest] at hgen
  cases hgen

end Frogg.Ui
