/-
  Subject:   The client's catch-up of the timelines it shows
             (apps/ui/src/timeline/viewed-timeline-sync.ts, timeline-sync-plan.ts).

  What runs between two awaits is one step. A request that waits for `fetchPage` or
  `fetchLatestTail`, a cache load that waits for `prepare`, the reconciliation that waits for
  `setSubscription` and the scheduled retries are part of the state; each goes on in a step of its
  own, in any order. Listeners and reports are left out: they change nothing here.
-/
import Frogg.Library.JsString
import Mathlib.Data.List.Sort
import Mathlib.Logic.Function.Basic

namespace Frogg.Ui

open Library Function

/-! ## 1. Plans -/

structure TimelineSyncCursor where
  epoch : String
  seq : Int
  deriving DecidableEq, Repr

def TIMELINE_FETCH_PAGE_SIZE : Nat := 40

/-- A plan for the projected timeline. -/
inductive ForwardFetchPlan where
  | tail (limit : Nat)
  | after (cursor : TimelineSyncCursor) (limit : Nat)
  deriving DecidableEq, Repr

def planTimelineCatchUpAfter (cursor : TimelineSyncCursor) : ForwardFetchPlan :=
  .after cursor TIMELINE_FETCH_PAGE_SIZE

def planTimelineTailFetch : ForwardFetchPlan := .tail TIMELINE_FETCH_PAGE_SIZE

/-- The cursor given is the end of the range held. -/
def planTimelineResumeFetch : Option TimelineSyncCursor → ForwardFetchPlan
  | some range => planTimelineCatchUpAfter range
  | none => planTimelineTailFetch

def ForwardFetchPlan.isTail : ForwardFetchPlan → Bool
  | .tail _ => true
  | .after _ _ => false

structure TimelinePageResult where
  hasNewer : Bool
  endCursor : Option TimelineSyncCursor

/-! ## 2. State -/

inductive TimelineDeliveryMode where
  | legacy | selective
  deriving DecidableEq, Repr

inductive CatchUpStatus where
  | running | complete | error
  deriving DecidableEq, Repr

/-- `cancelRetry` is the timer it cancels. -/
structure CatchUpState where
  generation : Nat
  status : CatchUpStatus
  request : Option ForwardFetchPlan
  cancelRetry : Option Nat
  retryDelayMs : Option Nat
  deriving DecidableEq, Repr

/-- What a request of a catch-up waits for. -/
inductive FetchStage where
  | page
  | latestTail
  deriving DecidableEq, Repr

/-- A call of `fetchUntilCurrent` at an await. -/
structure Fetch where
  agentId : String
  generation : Nat
  request : ForwardFetchPlan
  fallbackToLatestTailOnOverflow : Bool
  stage : FetchStage
  deriving DecidableEq, Repr

/-- Where `reconcileMembership` stands: not running, waiting for the subscription of `requested`, or
    about to run its `finally`. -/
inductive Reconciling where
  | idle
  | subscribing (generation : Nat) (requested : List String)
  | finishing
  deriving DecidableEq, Repr

inductive TimerTask where
  | catchUp (agentId : String) (generation : Nat)
  | membership (generation : Nat) (requested : List String)
  deriving DecidableEq, Repr

structure Timer where
  id : Nat
  task : TimerTask
  delayMs : Nat
  deriving DecidableEq, Repr

structure SyncState where
  sources : List (String × List String)
  catchUps : String → Option CatchUpState
  catchUpGenerations : String → Nat
  pendingCatchUps : String → Option ForwardFetchPlan
  visibilityCatchUpPending : String → Bool
  visibilityCatchUpErrors : String → Option String
  manualRetries : String → Bool
  loadedCache : String → Bool
  cacheLoads : String → Bool
  active : Bool
  connected : Bool
  deliveryMode : TimelineDeliveryMode
  disposed : Bool
  desired : List String
  acknowledged : List String
  membershipGeneration : Nat
  reconciling : Reconciling
  reconcileRequested : Bool
  membershipNeedsRetry : Bool
  membershipRetryDelayMs : Option Nat
  cancelMembershipRetry : Option Nat
  recentlyViewedAgentIds : List String
  /-- Awaits under way. -/
  fetches : List Fetch
  loads : List String
  timers : List Timer
  nextTimerId : Nat

/-- `createViewedTimelineSync(ports)` -/
def createViewedTimelineSync (initialDeliveryMode : TimelineDeliveryMode) : SyncState where
  sources := []
  catchUps := fun _ => none
  catchUpGenerations := fun _ => 0
  pendingCatchUps := fun _ => none
  visibilityCatchUpPending := fun _ => false
  visibilityCatchUpErrors := fun _ => none
  manualRetries := fun _ => false
  loadedCache := fun _ => false
  cacheLoads := fun _ => false
  active := true
  connected := false
  deliveryMode := initialDeliveryMode
  disposed := false
  desired := []
  acknowledged := []
  membershipGeneration := 0
  reconciling := .idle
  reconcileRequested := false
  membershipNeedsRetry := false
  membershipRetryDelayMs := none
  cancelMembershipRetry := none
  recentlyViewedAgentIds := []
  fetches := []
  loads := []
  timers := []
  nextTimerId := 0

/-! ## 3. Decisions -/

def RETRY_DELAY_MS : Nat := 1000
def MAX_RETRY_DELAY_MS : Nat := 30000
def VIEWED_TIMELINE_HOT_AGENT_LIMIT : Nat := 5

def getNextRetryDelayMs : Option Nat → Nat
  | none => RETRY_DELAY_MS
  | some previousDelayMs => min (previousDelayMs * 2) MAX_RETRY_DELAY_MS

def isSameCatchUpRequest : Option ForwardFetchPlan → Option ForwardFetchPlan → Bool
  | some (.tail _), some (.tail _) => true
  | some (.after left _), some (.after right _) => left = right
  | _, _ => false

inductive CatchUpDecision where
  | keep | keepAndPark | replace
  deriving DecidableEq, Repr

def decideCatchUp (current : Option CatchUpState) (request : ForwardFetchPlan) (supersede : Bool) :
    CatchUpDecision :=
  match current with
  | none => .replace
  | some current =>
    if supersede then
      if current.status = .running ∧ isSameCatchUpRequest current.request (some request) then .keep
      else if current.status = .running ∧ current.request.any ForwardFetchPlan.isTail then
        .keepAndPark
      else .replace
    else if current.status = .running ∨ current.status = .complete then .keep
    else .replace

def normalizeAgentIds (agentIds : List String) : List String :=
  (agentIds.eraseDups.filter (· ≠ "")).insertionSort fun a b => jsLe a b = true

namespace SyncState

section

variable (s : SyncState)

def visibleAgentIds : List String :=
  normalizeAgentIds (s.sources.flatMap Prod.snd)

/-- `active ? visibleAgentIds() : []` -/
def activeVisibleAgentIds : List String := if s.active then s.visibleAgentIds else []

/-- The agents to follow, and the state that remembers which were viewed last. -/
def selectHotAgentIds (visible : List String) : List String × SyncState :=
  let recent := visible ++ s.recentlyViewedAgentIds.filter (· ∉ visible)
  let hiddenBudget := VIEWED_TIMELINE_HOT_AGENT_LIMIT - visible.length
  let desiredAgentIds :=
    normalizeAgentIds (visible ++ (recent.filter (· ∉ visible)).take hiddenBudget)
  (desiredAgentIds, { s with recentlyViewedAgentIds := recent.filter (· ∈ desiredAgentIds) })

variable (agentId : String)

def isAcknowledged : Bool := agentId ∈ s.acknowledged

def isDesired : Bool := agentId ∈ s.desired

def ownsCatchUp (generation : Nat) : Bool :=
  !s.disposed && s.connected && s.isDesired agentId && s.isAcknowledged agentId &&
    (s.catchUps agentId).any fun current => current.generation = generation

def setVisibilityCatchUpReady : SyncState :=
  { s with
    visibilityCatchUpPending := update s.visibilityCatchUpPending agentId false
    visibilityCatchUpErrors := update s.visibilityCatchUpErrors agentId none
    manualRetries := update s.manualRetries agentId false }

def setVisibilityCatchUpError (agentIds : List String) (message : String) : SyncState :=
  { s with
    visibilityCatchUpPending := fun a => if a ∈ agentIds then false else s.visibilityCatchUpPending a
    visibilityCatchUpErrors := fun a =>
      if a ∈ agentIds then some message else s.visibilityCatchUpErrors a
    manualRetries := fun a => if a ∈ agentIds then false else s.manualRetries a }

/-- The agent waits for its catch-up again. -/
def setVisibilityCatchUpPending : SyncState :=
  { s with
    visibilityCatchUpPending := update s.visibilityCatchUpPending agentId true
    visibilityCatchUpErrors := update s.visibilityCatchUpErrors agentId none
    manualRetries := update s.manualRetries agentId false }

/-! ## 4. Timers -/

/-- `ports.schedule(task, delayMs)`: the timer's id, which cancels it. -/
def schedule (task : TimerTask) (delayMs : Nat) : Nat × SyncState :=
  (s.nextTimerId,
    { s with
      timers := s.timers ++ [⟨s.nextTimerId, task, delayMs⟩]
      nextTimerId := s.nextTimerId + 1 })

/-- `cancel?.()` -/
def cancelTimer : Option Nat → SyncState
  | none => s
  | some id => { s with timers := s.timers.filter fun timer => timer.id ≠ id }

def clearMembershipRetry : SyncState :=
  { s.cancelTimer s.cancelMembershipRetry with cancelMembershipRetry := none }

/-! ## 5. Catch-ups -/

def cancelCatchUp : SyncState :=
  let s := s.cancelTimer ((s.catchUps agentId).bind CatchUpState.cancelRetry)
  { s with
    catchUpGenerations :=
      update s.catchUpGenerations agentId (s.catchUpGenerations agentId + 1)
    catchUps := update s.catchUps agentId none
    pendingCatchUps := update s.pendingCatchUps agentId none }

/-- `for (const agentId of desired) cancelCatchUp(agentId)` -/
def cancelDesiredCatchUps : SyncState := s.desired.foldl cancelCatchUp s

/-- `fetchUntilCurrent`, up to its first await. -/
def fetchUntilCurrent (generation : Nat)
    (request : ForwardFetchPlan) (fallbackToLatestTailOnOverflow : Bool) : SyncState :=
  if !s.ownsCatchUp agentId generation then s
  else
    { s with
      fetches := s.fetches ++ [⟨agentId, generation, request, fallbackToLatestTailOnOverflow, .page⟩] }

def ensureCacheLoaded : SyncState :=
  if s.loadedCache agentId || s.cacheLoads agentId then s
  else
    { s with
      cacheLoads := update s.cacheLoads agentId true
      loads := s.loads ++ [agentId] }

def park (request : ForwardFetchPlan) : SyncState :=
  { s with pendingCatchUps := update s.pendingCatchUps agentId (some request) }

end

section

-- `ports.readCursor`, as it answers during the step
variable (readCursor : String → Option TimelineSyncCursor) (s : SyncState)

def startCatchUp (agentId : String) (request : Option ForwardFetchPlan)
    (supersede : Bool) : SyncState :=
  let parked := (request.map (s.park agentId)).getD s
  if !s.connected || !s.isDesired agentId || !s.isAcknowledged agentId then parked
  else if !s.loadedCache agentId then parked.ensureCacheLoaded agentId
  else
    let nextRequest := request.getD (planTimelineResumeFetch (readCursor agentId))
    let current := s.catchUps agentId
    match decideCatchUp current nextRequest supersede with
    | .keepAndPark => s.park agentId nextRequest
    | .keep => s
    | .replace =>
      let s := s.cancelTimer (current.bind CatchUpState.cancelRetry)
      let generation := s.catchUpGenerations agentId + 1
      let retryDelayMs :=
        if supersede then none
        else (current.filter fun c => c.status = .error).bind CatchUpState.retryDelayMs
      let entry : CatchUpState := ⟨generation, .running, some nextRequest, none, retryDelayMs⟩
      let s := { s with
        catchUpGenerations := update s.catchUpGenerations agentId generation
        catchUps := update s.catchUps agentId (some entry)
        pendingCatchUps := update s.pendingCatchUps agentId none }
      s.fetchUntilCurrent agentId generation nextRequest (request.isNone && !nextRequest.isTail)

def startAcknowledgedCatchUps : SyncState :=
  s.acknowledged.foldl
    (fun s agentId => s.startCatchUp readCursor agentId (s.pendingCatchUps agentId)
      (s.pendingCatchUps agentId).isSome) s

def markComplete (agentId : String) (generation : Nat) : SyncState :=
  { s with catchUps :=
      update s.catchUps agentId (some ⟨generation, .complete, none, none, none⟩) }

variable (fetch : Fetch)

/-- The `catch` of `fetchUntilCurrent`. -/
def fetchFailed (error : String) : SyncState :=
  match s.catchUps fetch.agentId with
  | none => s
  | some current =>
    if current.generation ≠ fetch.generation then s
    else
      let nextRetryDelayMs := getNextRetryDelayMs current.retryDelayMs
      let (cancelRetry, s) :=
        s.schedule (.catchUp fetch.agentId fetch.generation) nextRetryDelayMs
      let entry : CatchUpState :=
        ⟨fetch.generation, .error, some fetch.request, some cancelRetry, some nextRetryDelayMs⟩
      let s := { s with catchUps := update s.catchUps fetch.agentId (some entry) }
      s.setVisibilityCatchUpError [fetch.agentId] error

/-- `fetchPage` has answered. -/
def pageFetched (page : TimelinePageResult) : SyncState :=
  if !s.ownsCatchUp fetch.agentId fetch.generation then s
  else
    match page.hasNewer, page.endCursor with
    | true, some endCursor =>
      if fetch.fallbackToLatestTailOnOverflow then
        { s with fetches := s.fetches ++ [{ fetch with stage := .latestTail }] }
      else
        s.fetchUntilCurrent fetch.agentId fetch.generation (planTimelineCatchUpAfter endCursor)
          false
    | true, none =>
      s.fetchFailed fetch ("Timeline page for " ++ fetch.agentId ++
        " hasNewer without an end cursor")
    | false, _ =>
      let s := s.markComplete fetch.agentId fetch.generation
      match s.pendingCatchUps fetch.agentId with
      | some pendingCatchUp =>
        s.startCatchUp readCursor fetch.agentId (some pendingCatchUp) true
      | none => s.setVisibilityCatchUpReady fetch.agentId

/-- `fetchLatestTail` has answered; nothing is checked again. -/
def latestTailFetched : SyncState :=
  (s.markComplete fetch.agentId fetch.generation).setVisibilityCatchUpReady fetch.agentId

/-- `prepare` is done, whether it failed or not. -/
def cacheLoaded (agentId : String) : SyncState :=
  let s := { s with
    cacheLoads := update s.cacheLoads agentId false
    loadedCache := update s.loadedCache agentId true }
  s.startCatchUp readCursor agentId (s.pendingCatchUps agentId) (s.pendingCatchUps agentId).isSome

/-! ## 6. Membership -/

/-- `reconcileLatestMembership`, up to its await. -/
def reconcileLatestMembership : SyncState :=
  if s.disposed || !s.connected || s.deliveryMode ≠ .selective then
    { s with reconciling := .finishing }
  else if !s.membershipNeedsRetry && s.desired = s.acknowledged then
    { s with reconciling := .finishing }
  else
    { s with
      membershipNeedsRetry := false
      reconciling := .subscribing s.membershipGeneration s.desired }

def reconcileMembership : SyncState :=
  if s.reconciling ≠ .idle then { s with reconcileRequested := true }
  else if s.disposed || !s.connected then s
  else s.reconcileLatestMembership

/-- `setSubscription` has been acknowledged. -/
def subscribed (generation : Nat) (requested : List String) : SyncState :=
  let s := { s.clearMembershipRetry with membershipRetryDelayMs := none }
  if s.disposed || !s.connected || s.deliveryMode ≠ .selective then
    { s with reconciling := .finishing }
  else
    let s := { s with acknowledged := requested }
    if generation ≠ s.membershipGeneration then s.reconcileLatestMembership
    else
      let s := s.startAcknowledgedCatchUps readCursor
      if s.desired ≠ s.acknowledged then s.reconcileLatestMembership
      else { s with reconciling := .finishing }

def subscriptionFailed (generation : Nat) (requested : List String) (error : String) : SyncState :=
  let s := ({ s with membershipNeedsRetry := true } : SyncState).setVisibilityCatchUpError requested
    error
  let s := s.cancelTimer s.cancelMembershipRetry
  let nextRetryDelayMs := getNextRetryDelayMs s.membershipRetryDelayMs
  let (cancel, s) := s.schedule (.membership generation requested) nextRetryDelayMs
  { s with
    cancelMembershipRetry := some cancel
    membershipRetryDelayMs := some nextRetryDelayMs
    reconciling := .finishing }

/-- The `finally` of `reconcileMembership`. -/
def finishReconciling : SyncState :=
  let s := { s with reconciling := .idle }
  let may := !s.disposed && s.connected && decide (s.deliveryMode = .selective)
  if s.reconcileRequested && may then
    ({ s with reconcileRequested := false } : SyncState).reconcileMembership
  else if may && !s.membershipNeedsRetry && decide (s.desired ≠ s.acknowledged) then
    s.reconcileMembership
  else s

def commitDesiredMembership (nextDesired : List String) (resetCatchUpStatus : Bool) : SyncState :=
  let s := if resetCatchUpStatus then nextDesired.foldl setVisibilityCatchUpPending s else s
  if nextDesired = s.desired then s
  else
    let s := (s.desired.filter (· ∉ nextDesired)).foldl
      (fun s agentId => (s.cancelCatchUp agentId).setVisibilityCatchUpReady agentId) s
    let s := (nextDesired.filter (· ∉ s.desired)).foldl
      (fun s agentId => (s.setVisibilityCatchUpPending agentId).ensureCacheLoaded agentId) s
    let s : SyncState := { s.clearMembershipRetry with
      desired := nextDesired
      membershipGeneration := s.membershipGeneration + 1 }
    if s.deliveryMode = .legacy then
      let s : SyncState := { s with acknowledged := if s.connected then s.desired else [] }
      if s.connected then s.startAcknowledgedCatchUps readCursor else s
    else s.reconcileMembership

def publishVisibleMembership : SyncState :=
  if !s.connected || s.deliveryMode ≠ .selective then
    let activeVisible := s.activeVisibleAgentIds
    let s := { s with recentlyViewedAgentIds := activeVisible }
    s.commitDesiredMembership readCursor activeVisible false
  else if !s.active then s
  else
    let (hot, s) := s.selectHotAgentIds s.visibleAgentIds
    s.commitDesiredMembership readCursor hot false

/-! ## 7. What the owner calls -/

def replaceVisibleAgentIds (sourceId : String) (agentIds : List String) : SyncState :=
  let normalized := normalizeAgentIds agentIds
  let others := s.sources.filter fun source => source.1 ≠ sourceId
  let s := { s with
    sources := if normalized = [] then others else others ++ [(sourceId, normalized)] }
  s.publishVisibleMembership readCursor

def setActive (nextActive : Bool) : SyncState :=
  if s.active = nextActive then s
  else ({ s with active := nextActive } : SyncState).publishVisibleMembership readCursor

/-- `setConnected(false)` where it changes something. -/
def disconnect : SyncState :=
  let s := { s with connected := false }
  let visible := s.activeVisibleAgentIds
  let s := { s with recentlyViewedAgentIds := visible }
  let s := s.commitDesiredMembership readCursor visible true
  let s : SyncState := { s.clearMembershipRetry with
    membershipRetryDelayMs := none
    acknowledged := []
    membershipGeneration := s.membershipGeneration + 1 }
  s.cancelDesiredCatchUps

/-- `setConnected(true)` where it changes something. -/
def connect : SyncState :=
  let s := { s with
    connected := true
    membershipGeneration := s.membershipGeneration + 1 }
  if s.deliveryMode = .legacy then
    ({ s with acknowledged := s.desired } : SyncState).startAcknowledgedCatchUps readCursor
  else s.reconcileMembership

def setConnected (nextConnected : Bool) : SyncState :=
  if s.connected = nextConnected then s
  else if nextConnected then s.connect readCursor
  else s.disconnect readCursor

def setDeliveryMode (nextMode : TimelineDeliveryMode) : SyncState :=
  if s.deliveryMode = nextMode then s
  else
    let s : SyncState := { s.clearMembershipRetry with
      deliveryMode := nextMode
      membershipRetryDelayMs := none
      membershipNeedsRetry := false
      membershipGeneration := s.membershipGeneration + 1 }
    let s := s.cancelDesiredCatchUps
    let visible := s.activeVisibleAgentIds
    let s : SyncState := { s with
      recentlyViewedAgentIds := visible
      desired := visible
      visibilityCatchUpPending := fun a => a ∈ visible
      visibilityCatchUpErrors := fun _ => none
      manualRetries := fun _ => false
      acknowledged := if nextMode = TimelineDeliveryMode.legacy ∧ s.connected then visible else [] }
    if nextMode = TimelineDeliveryMode.selective ∧ s.connected then s.reconcileMembership
    else if s.connected then s.startAcknowledgedCatchUps readCursor
    else s

/-- `recoverGap(agentId, cursor)`, with the cursor's `endSeq` as its seq. -/
def recoverGap (agentId : String) (cursor : TimelineSyncCursor) : SyncState :=
  if !s.isDesired agentId then s
  else s.startCatchUp readCursor agentId (some (planTimelineCatchUpAfter cursor)) true

def retryVisibleAgentTimeline (agentId : String) : SyncState :=
  if !s.isDesired agentId || s.manualRetries agentId then s
  else
    let catchUp := (s.catchUps agentId).filter fun c => c.status = .error
    let membershipRetryable :=
      decide (s.deliveryMode = .selective) && s.membershipNeedsRetry && s.connected
    let retried := { s with manualRetries := update s.manualRetries agentId true }
    match catchUp with
    | some catchUp =>
      (retried.cancelTimer catchUp.cancelRetry).startCatchUp readCursor agentId catchUp.request true
    | none =>
      if !membershipRetryable then s
      else
        ({ retried.clearMembershipRetry with
          membershipRetryDelayMs := none
          membershipNeedsRetry := false } : SyncState).reconcileMembership

def dispose : SyncState :=
  let s : SyncState := { s.clearMembershipRetry with
    disposed := true
    membershipNeedsRetry := false
    membershipRetryDelayMs := none
    sources := []
    membershipGeneration := s.membershipGeneration + 1 }
  { s.cancelDesiredCatchUps with
    desired := []
    acknowledged := []
    recentlyViewedAgentIds := []
    loadedCache := fun _ => false
    cacheLoads := fun _ => false
    visibilityCatchUpPending := fun _ => false
    visibilityCatchUpErrors := fun _ => none
    manualRetries := fun _ => false }

/-- A timer's task. -/
def runTask : TimerTask → SyncState
  | .catchUp agentId generation =>
    match s.catchUps agentId with
    | none => s
    | some current =>
      if current.generation ≠ generation ∨ current.status ≠ .error then s
      else s.startCatchUp readCursor agentId none false
  | .membership generation requested =>
    let s := { s with cancelMembershipRetry := none }
    if s.disposed || !s.connected || s.membershipGeneration ≠ generation ||
        s.desired ≠ requested then s
    else s.reconcileMembership

end

end SyncState

end Frogg.Ui
