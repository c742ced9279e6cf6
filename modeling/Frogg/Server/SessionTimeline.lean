/-
  Subject:   Answering a timeline request (server/session.ts, lines 6990-7258).

  A projected page is built from the store's limited fetch where that can be trusted
  (`shouldUseFullTimelineForProjectedPage` answers false) and otherwise from the whole timeline,
  whose projection is kept in a cache keyed on the timeline's extent.

  The agent's own payload (`agent`) is not part of the timeline and is left out. Loading the agent
  either yields its timeline or throws; the thrown message is the `Except` error.
-/
import Frogg.Server.ProjectionLocality
import Frogg.Server.TimelinePage
import Frogg.Server.TimelineStore

namespace Frogg.Server

open Library Protocol Option

/-! ## 1. The choice of rows -/

def shouldUseFullTimelineForProjectedPage (timeline : AgentTimelineFetchResult)
    (pageLimit : Nat) : Bool :=
  if timeline.rows = [] then false
  else if timeline.rows.any (·.item.isToolCall) then true
  else if timeline.hasOlder && timeline.rows.head?.any (·.isChunk) then true
  else if timeline.hasNewer && timeline.rows.getLast?.any (·.isChunk) then true
  else if !timeline.hasNewer || pageLimit = 0 then false
  else decide ((projectTimelineRows timeline.rows .projected).length < pageLimit)

/-! ## 2. The cache of full projections -/

/-- `${epoch}:${nextSeq}:${minSeq}:${rows.length}`. The last three parts hold no colon, so the
    string determines all four. -/
structure FullTimelineKey where
  epoch : String
  nextSeq : Int
  minSeq : Int
  rowCount : Nat
  deriving DecidableEq

structure FullTimelineProjection where
  key : FullTimelineKey
  timeline : AgentTimelineFetchResult
  entries : List TimelineProjectionEntry

/-- One agent's entry of `fullTimelineProjectionCache`. -/
abbrev FullTimelineProjectionCache := Option FullTimelineProjection

def AgentTimelineFetchResult.key (timeline : AgentTimelineFetchResult) : FullTimelineKey :=
  ⟨timeline.epoch, timeline.window.nextSeq, timeline.window.minSeq, timeline.rows.length⟩

section

variable (state : AgentTimelineState)

/-- `fetchTimeline(agentId, { direction: "tail", limit: 0 })` -/
def AgentTimelineState.fetchFull : AgentTimelineFetchResult :=
  state.fetch { direction := some .tail, limit := some 0 }

variable (cache : FullTimelineProjectionCache)

/-- The snapshot to project from, and the cache afterwards. -/
def getFullTimelineForProjection : FullTimelineProjection × FullTimelineProjectionCache :=
  let timeline := state.fetchFull
  match cache.filter (fun cached => cached.key = timeline.key) with
  | some cached => (cached, cache)
  | none =>
    let fresh : FullTimelineProjection :=
      ⟨timeline.key, timeline, projectTimelineRows timeline.rows .projected⟩
    (fresh, some fresh)

/-! ## 3. The page -/

structure AgentTimelineProjectionSelection where
  timeline : AgentTimelineFetchResult
  entries : List TimelineProjectionEntry
  startSeq : Option Int
  endSeq : Option Int
  hasOlder : Bool
  hasNewer : Bool

def selectCanonicalTimelineProjection (timeline : AgentTimelineFetchResult) :
    AgentTimelineProjectionSelection :=
  let entries := projectTimelineRows timeline.rows .canonical
  { timeline
    entries
    startSeq := entries.head?.map (·.seqStart)
    endSeq := entries.getLast?.map (·.seqEnd)
    hasOlder := timeline.hasOlder
    hasNewer := timeline.hasNewer }

def AgentTimelineFetchDirection.toLimit : AgentTimelineFetchDirection → TimelineLimitDirection
  | .tail => .tail
  | .before => .before
  | .after => .after

structure SelectTimelineInput where
  controlTimeline : AgentTimelineFetchResult
  direction : AgentTimelineFetchDirection
  cursor : Option AgentTimelineCursor := none
  pageLimit : Nat
  fullTimeline : Option AgentTimelineFetchResult := none

variable (input : SelectTimelineInput)

/-- The page input over `timeline`, with the projection the caller already has. -/
def SelectTimelineInput.page (timeline : AgentTimelineFetchResult)
    (projectedEntries : Option (List TimelineProjectionEntry)) : ProjectedTimelinePageInput where
  rows := timeline.rows
  bounds := some ⟨timeline.window.minSeq, timeline.window.maxSeq⟩
  direction := if input.controlTimeline.reset then .tail else input.direction.toLimit
  cursorSeq := input.cursor.map (·.seq)
  limit := some input.pageLimit
  projectedEntries := projectedEntries

def selectProjectedTimelineProjection :
    AgentTimelineProjectionSelection × FullTimelineProjectionCache :=
  let needsFullTimeline :=
    shouldUseFullTimelineForProjectedPage input.controlTimeline input.pageLimit
  let snapshot := getFullTimelineForProjection state cache
  let chosen : AgentTimelineFetchResult × Option (List TimelineProjectionEntry) ×
      FullTimelineProjectionCache :=
    if needsFullTimeline then
      match input.fullTimeline with
      | some fullTimeline => (fullTimeline, none, cache)
      | none => (snapshot.1.timeline, some snapshot.1.entries, snapshot.2)
    else (input.controlTimeline, none, cache)
  let selectedTimeline := chosen.1
  let page := selectProjectedTimelinePage (input.page selectedTimeline chosen.2.1)
  ({ timeline := selectedTimeline
     entries := page.entries
     startSeq := page.startSeq
     endSeq := page.endSeq
     hasOlder := page.hasOlder ||
       page.startSeq.any fun seq => decide (selectedTimeline.window.minSeq < seq)
     hasNewer := page.hasNewer },
   chosen.2.2)

def selectTimelineProjection (projection : TimelineProjectionMode) (input : SelectTimelineInput) :
    AgentTimelineProjectionSelection × FullTimelineProjectionCache :=
  match projection with
  | .canonical => (selectCanonicalTimelineProjection input.controlTimeline, cache)
  | .projected => selectProjectedTimelineProjection state cache input

end

/-! ## 4. The request -/

structure FetchAgentTimelineRequest where
  agentId : String
  requestId : String
  direction : Option AgentTimelineFetchDirection := none
  projection : Option TimelineProjectionMode := none
  cursor : Option AgentTimelineCursor := none
  limit : Option Nat := none
  mergeWindow : Option Bool := none

structure TimelineResponseEntry where
  provider : String
  item : AgentTimelineItem
  timestamp : String
  seqStart : Int
  seqEnd : Int
  sourceSeqRanges : List TimelineSeqRange
  turnId : Option String
  collapsed : List TimelineProjectionKind

structure FetchAgentTimelineResponse where
  requestId : String
  agentId : String
  direction : AgentTimelineFetchDirection
  projection : TimelineProjectionMode
  epoch : String
  reset : Bool
  staleCursor : Bool
  gap : Bool
  window : AgentTimelineWindow
  startCursor : Option AgentTimelineCursor
  endCursor : Option AgentTimelineCursor
  hasOlder : Bool
  hasNewer : Bool
  mergeWindow : Bool
  entries : List TimelineResponseEntry
  error : Option String

/-- What a session knows of the agent's provider and of the client. -/
structure SessionContext where
  provider : String
  supportsReasoningMergeEnum : Bool

/-- A client that does not know `reasoning_merge` is not told of it. -/
def TimelineProjectionEntry.toPayload (e : TimelineProjectionEntry) (context : SessionContext) :
    TimelineResponseEntry where
  provider := context.provider
  item := e.item
  timestamp := e.timestamp
  seqStart := e.seqStart
  seqEnd := e.seqEnd
  sourceSeqRanges := e.sourceSeqRanges
  turnId := e.turnId
  collapsed :=
    if context.supportsReasoningMergeEnum then e.collapsed
    else e.collapsed.filter (· != .reasoningMerge)

namespace FetchAgentTimelineRequest

variable (msg : FetchAgentTimelineRequest)

def resolvedDirection : AgentTimelineFetchDirection :=
  msg.direction.getD (if msg.cursor.isSome then .after else .tail)

def pageLimit : Nat :=
  msg.limit.getD (if msg.resolvedDirection = .after then 0 else 200)

def fetchOptions : AgentTimelineFetchOptions where
  direction := some msg.resolvedDirection
  cursor := msg.cursor
  limit := some msg.pageLimit

end FetchAgentTimelineRequest

def handleFetchAgentTimelineRequest (context : SessionContext)
    (loaded : Except String AgentTimelineState) (cache : FullTimelineProjectionCache)
    (msg : FetchAgentTimelineRequest) :
    FetchAgentTimelineResponse × FullTimelineProjectionCache :=
  let direction := msg.resolvedDirection
  let projection := msg.projection.getD .projected
  match loaded with
  | .ok state =>
    let fetchedControlTimeline := state.fetch msg.fetchOptions
    let selected := selectTimelineProjection state cache projection
      { controlTimeline := fetchedControlTimeline, direction, cursor := msg.cursor
        pageLimit := msg.pageLimit }
    let selectedTimeline := selected.1
    ({ requestId := msg.requestId
       agentId := msg.agentId
       direction
       projection
       epoch := selectedTimeline.timeline.epoch
       reset := fetchedControlTimeline.reset
       staleCursor := fetchedControlTimeline.staleCursor
       gap := fetchedControlTimeline.gap
       window := selectedTimeline.timeline.window
       startCursor := selectedTimeline.startSeq.map fun seq => ⟨selectedTimeline.timeline.epoch, seq⟩
       endCursor := selectedTimeline.endSeq.map fun seq => ⟨selectedTimeline.timeline.epoch, seq⟩
       hasOlder := selectedTimeline.hasOlder
       hasNewer := selectedTimeline.hasNewer
       mergeWindow := msg.mergeWindow = some true
       entries := selectedTimeline.entries.map (·.toPayload context)
       error := none },
     selected.2)
  | .error message =>
    ({ requestId := msg.requestId
       agentId := msg.agentId
       direction
       projection
       epoch := ""
       reset := false
       staleCursor := false
       gap := false
       window := ⟨0, 0, 0⟩
       startCursor := none
       endCursor := none
       hasOlder := false
       hasNewer := false
       mergeWindow := msg.mergeWindow = some true
       entries := []
       error := some message },
     cache)

/-! ## 5. The full timeline -/

@[simp] theorem fetchFull_rows (state : AgentTimelineState) : state.fetchFull.rows = state.rows := by
  unfold AgentTimelineState.fetchFull AgentTimelineState.fetch
  by_cases hnil : state.rows = []
  · simp [AgentTimelineState.isStale, hnil, fetchEmpty]
  · simp [AgentTimelineState.isStale, hnil, fetchTail, takeLast, AgentTimelineFetchOptions.rowLimit]

/-- A cached projection that its key finds is the one of the timeline as it is. -/
structure CacheOk (state : AgentTimelineState) (cache : FullTimelineProjectionCache) : Prop where
  earlier : ∀ cached ∈ cache, cached.key.nextSeq ≤ state.nextSeq
  current : ∀ cached ∈ cache, cached.key = state.fetchFull.key →
    cached.timeline = state.fetchFull ∧
      cached.entries = projectTimelineRows state.rows .projected

theorem CacheOk.empty (state : AgentTimelineState) : CacheOk state none :=
  ⟨fun _ h => (not_mem_none _ h).elim, fun _ h => (not_mem_none _ h).elim⟩

variable {cache : FullTimelineProjectionCache} {state : AgentTimelineState}

/-- An append invalidates whatever is cached: the key counts the rows ever given a number. -/
theorem CacheOk.append (h : CacheOk state cache) (item : AgentTimelineItem)
    (options : AppendOptions) : CacheOk (state.append item options) cache := by
  have hnext : (state.append item options).nextSeq = state.nextSeq + 1 := rfl
  constructor
  · intro cached hc
    have hle := h.earlier cached hc
    omega
  · intro cached hc hkey
    have hle := h.earlier cached hc
    have heq : cached.key.nextSeq = (state.append item options).nextSeq := by
      rw [hkey]
      simp [AgentTimelineFetchResult.key, AgentTimelineState.fetchFull, AgentTimelineState.window]
    omega

/-- **With a sound cache the snapshot is current**, and the cache stays sound. -/
theorem getFullTimeline_spec (h : CacheOk state cache) :
    (getFullTimelineForProjection state cache).1.timeline = state.fetchFull ∧
      (getFullTimelineForProjection state cache).1.entries =
        projectTimelineRows state.rows .projected ∧
      CacheOk state (getFullTimelineForProjection state cache).2 := by
  unfold getFullTimelineForProjection
  dsimp only
  cases hc : cache.filter (fun cached => cached.key = state.fetchFull.key) with
  | some cached =>
    obtain ⟨hmem, hkey⟩ := filter_eq_some_iff.mp hc
    obtain ⟨htimeline, hentries⟩ := h.current cached hmem (by simpa using hkey)
    exact ⟨htimeline, hentries, h⟩
  | none =>
    refine ⟨rfl, by simp, ⟨?_, ?_⟩⟩
    · intro cached hcached
      obtain rfl := mem_some_iff.mp hcached
      simp [AgentTimelineFetchResult.key, AgentTimelineState.fetchFull, AgentTimelineState.window]
    · intro cached hcached _; obtain rfl := mem_some_iff.mp hcached; exact ⟨rfl, by simp⟩

/-! ## 6. What a projected page is built from -/

/-- The two sources of a projected page: the limited fetch, where that is trusted, or the whole
    timeline with its projection. -/
theorem selectProjected_cases (h : CacheOk state cache) (input : SelectTimelineInput)
    (hfull : input.fullTimeline = none) :
    CacheOk state (selectProjectedTimelineProjection state cache input).2 ∧
    ∃ timeline projectedEntries,
      (selectProjectedTimelineProjection state cache input).1 =
        (let page := selectProjectedTimelinePage (input.page timeline projectedEntries)
         { timeline, entries := page.entries, startSeq := page.startSeq, endSeq := page.endSeq
           hasOlder := page.hasOlder ||
             page.startSeq.any fun seq => decide (timeline.window.minSeq < seq)
           hasNewer := page.hasNewer }) ∧
      ((shouldUseFullTimelineForProjectedPage input.controlTimeline input.pageLimit = false ∧
          timeline = input.controlTimeline ∧ projectedEntries = none) ∨
        (timeline = state.fetchFull ∧
          projectedEntries = some (projectTimelineRows state.rows .projected))) := by
  obtain ⟨htimeline, hentries, hcache⟩ := getFullTimeline_spec h
  unfold selectProjectedTimelineProjection
  cases hneeds : shouldUseFullTimelineForProjectedPage input.controlTimeline input.pageLimit with
  | false => exact ⟨h, input.controlTimeline, none, rfl, .inl ⟨rfl, rfl, rfl⟩⟩
  | true => rw [hfull]; exact ⟨hcache, _, _, rfl, .inr ⟨htimeline, congrArg some hentries⟩⟩

end Frogg.Server
