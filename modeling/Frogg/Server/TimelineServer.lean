/-
  Subject:   One agent's timeline as a session serves it.

  The store's state and the session's cached projection, with what both keep true: the rows ascend,
  all below the next number, and a cached projection that its key finds is current. Appending a row
  and answering a request both lead to such a state again.
-/
import Frogg.Server.WindowAgreement
import Mathlib.Data.List.Chain

namespace Frogg.Server

open Protocol

/-! ## 1. The state -/

structure TimelineServer where
  state : AgentTimelineState
  cache : FullTimelineProjectionCache
  ascending : RowsAscending state.rows
  below : ∀ row ∈ state.rows, row.seq < state.nextSeq
  cacheOk : CacheOk state cache

/-- Rows numbered without a gap. -/
def RowsConsecutive (rows : List AgentTimelineRow) : Prop :=
  rows.IsChain fun a b => b.seq = a.seq + 1

namespace TimelineServer

def rows (server : TimelineServer) : List AgentTimelineRow := server.state.rows

/-- A new agent: no rows, and the first one to come gets number one. -/
def initialized (epoch : String) : TimelineServer where
  state := ⟨epoch, [], 1⟩
  cache := none
  ascending := List.Pairwise.nil
  below := fun _ h => absurd h List.not_mem_nil
  cacheOk := CacheOk.empty _

def append (server : TimelineServer) (item : AgentTimelineItem) (options : AppendOptions) :
    TimelineServer where
  state := server.state.append item options
  cache := server.cache
  ascending := RowsAscending.concat.mpr ⟨server.ascending, server.below⟩
  below := by
    intro row hrow
    show row.seq < server.state.nextSeq + 1
    rcases List.mem_append.mp hrow with hrow | hrow
    · have hlt := server.below row hrow
      omega
    · obtain rfl := List.mem_singleton.mp hrow
      show server.state.nextSeq < server.state.nextSeq + 1
      omega
  cacheOk := server.cacheOk.append item options

variable (server : TimelineServer) (context : SessionContext) (msg : FetchAgentTimelineRequest)

/-- The cache after a request. -/
theorem request_cacheOk : CacheOk server.state
      (handleFetchAgentTimelineRequest context (.ok server.state) server.cache msg).2 := by
  unfold handleFetchAgentTimelineRequest selectTimelineProjection
  cases msg.projection.getD .projected with
  | canonical => exact server.cacheOk
  | projected => exact (selectProjected_cases server.cacheOk _ rfl).1

def request : FetchAgentTimelineResponse × TimelineServer :=
  ((handleFetchAgentTimelineRequest context (.ok server.state) server.cache msg).1,
   { server with
     cache := (handleFetchAgentTimelineRequest context (.ok server.state) server.cache msg).2
     cacheOk := server.request_cacheOk context msg })

end TimelineServer

/-! ## 2. A projected response -/

/-- A response tells of a page over `timeline`. -/
structure RespondsWith (response : FetchAgentTimelineResponse) (context : SessionContext)
    (timeline : AgentTimelineFetchResult) (page : ProjectedTimelinePageSelection) : Prop where
  epoch : response.epoch = timeline.epoch
  startCursor : response.startCursor = page.startSeq.map fun seq => ⟨timeline.epoch, seq⟩
  endCursor : response.endCursor = page.endSeq.map fun seq => ⟨timeline.epoch, seq⟩
  hasOlder : response.hasOlder = (page.hasOlder ||
    page.startSeq.any fun seq => decide (timeline.window.minSeq < seq))
  hasNewer : response.hasNewer = page.hasNewer
  entries : response.entries = page.entries.map (·.toPayload context)

variable (server : TimelineServer)

/-- The input of a page over `timeline` for `msg`. -/
def pageInput (msg : FetchAgentTimelineRequest) (timeline : AgentTimelineFetchResult)
    (projectedEntries : Option (List TimelineProjectionEntry)) : ProjectedTimelinePageInput :=
  SelectTimelineInput.page
    { controlTimeline := server.state.fetch msg.fetchOptions
      direction := msg.resolvedDirection
      cursor := msg.cursor
      pageLimit := msg.pageLimit } timeline projectedEntries

/-- **What a projected response is**: a page over the limited fetch, where that is trusted, or a
    page over all rows with their projection. -/
theorem request_projected (context : SessionContext)
    (msg : FetchAgentTimelineRequest) (hproj : msg.projection.getD .projected = .projected) :
    (shouldUseFullTimelineForProjectedPage (server.state.fetch msg.fetchOptions)
        msg.pageLimit = false ∧
      RespondsWith (server.request context msg).1 context (server.state.fetch msg.fetchOptions)
        (selectProjectedTimelinePage
          (pageInput server msg (server.state.fetch msg.fetchOptions) none))) ∨
    RespondsWith (server.request context msg).1 context server.state.fetchFull
      (selectProjectedTimelinePage (pageInput server msg server.state.fetchFull
        (some (projectTimelineRows server.rows .projected)))) := by
  obtain ⟨_, timeline, projectedEntries, hsel, hcase⟩ := selectProjected_cases server.cacheOk
    { controlTimeline := server.state.fetch msg.fetchOptions
      direction := msg.resolvedDirection
      cursor := msg.cursor
      pageLimit := msg.pageLimit } rfl
  have hresponse : RespondsWith (server.request context msg).1 context timeline
      (selectProjectedTimelinePage (pageInput server msg timeline projectedEntries)) := by
    unfold TimelineServer.request handleFetchAgentTimelineRequest selectTimelineProjection
    dsimp only
    rw [hproj]
    rw [hsel]
    exact ⟨rfl, rfl, rfl, rfl, rfl, rfl⟩
  rcases hcase with ⟨hlimited, rfl, rfl⟩ | ⟨rfl, rfl⟩
  · exact .inl ⟨hlimited, hresponse⟩
  · exact .inr hresponse

end Frogg.Server
