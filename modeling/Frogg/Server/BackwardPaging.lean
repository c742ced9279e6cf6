/-
  Subject:   Paging backwards through a timeline that grows.

  * `tail_response`: the tail page is the projected entries from some start on;
  * `before_response`: a page before a start is the entries from an earlier start up to it;
  * `PagingSystem`: a reader's requests with any appends between them;
  * `paging_invariant`: the pages so far tile the starts from the oldest cursor to the tail's end.
-/
import Frogg.Library.Transition
import Frogg.Server.TailWindow

namespace Frogg.Server

open Library Protocol List Option

/-! ## 1. The two requests -/

def tailRequest (agentId requestId : String) (limit : Nat) : FetchAgentTimelineRequest where
  agentId := agentId
  requestId := requestId
  direction := some .tail
  projection := some .projected
  limit := some limit

def beforeRequest (agentId requestId : String) (limit : Nat) (cursor : AgentTimelineCursor) :
    FetchAgentTimelineRequest where
  agentId := agentId
  requestId := requestId
  direction := some .before
  projection := some .projected
  cursor := some cursor
  limit := some limit

/-- A page whose entries are those projected entries that start in a range, from `start` on. -/
structure BackwardResponse (response : FetchAgentTimelineResponse) (server : TimelineServer)
    (context : SessionContext) (start : Int) (below : Int → Bool) : Prop where
  start_mem : start ∈ starts server.rows
  startCursor : response.startCursor = some ⟨server.state.epoch, start⟩
  entries : response.entries =
    ((projectTimelineRows server.rows .projected).filter
      fun e => decide (start ≤ e.seqStart) && below e.seqStart).map (·.toPayload context)
  hasOlder : response.hasOlder = true ↔ server.state.minSeq < start

section

variable {server : TimelineServer}

theorem start_row {start : Int} (h : start ∈ starts server.rows) :
    ∃ row ∈ server.rows, row.seq = start :=
  mem_map.mp ((starts_sublist server.ascending).subset h)

end

/-! ## 2. The rows a page is built from -/

/-- Rows of a timeline whose projection is one piece of the whole projection. -/
structure PageSource (server : TimelineServer) (timeline : AgentTimelineFetchResult)
    (before after : List AgentTimelineRow) : Prop where
  rows : server.rows = before ++ timeline.rows ++ after
  nonempty : timeline.rows ≠ []
  window : timeline.window = server.state.window
  epoch : timeline.epoch = server.state.epoch
  projection : ∃ left right,
    projectTimelineRows server.rows .projected =
      left ++ projectTimelineRows timeline.rows .projected ++ right ∧
    (∀ e ∈ left, ∃ row ∈ before, row.seq = e.seqStart) ∧
    (∀ e ∈ right, ∃ row ∈ after, row.seq = e.seqStart)

section

variable {server : TimelineServer} {timeline : AgentTimelineFetchResult}
  {before after : List AgentTimelineRow}

theorem PageSource.ascending (h : PageSource server timeline before after) :
    RowsAscending timeline.rows := by
  have hasc : RowsAscending server.rows := server.ascending
  rw [h.rows] at hasc
  exact hasc.sublist ((sublist_append_right _ _).trans (sublist_append_left _ _))

/-- The entries from one of the piece's starts on, where no row after the piece counts. -/
theorem PageSource.filter (h : PageSource server timeline before after) {start : Int}
    (hstart : start ∈ starts timeline.rows) (below : Int → Bool)
    (hbelow : ∀ row ∈ after, below row.seq = false) :
    start ∈ starts server.rows ∧
    (projectTimelineRows server.rows .projected).filter
        (fun e => decide (start ≤ e.seqStart) && below e.seqStart) =
      (projectTimelineRows timeline.rows .projected).filter
        (fun e => decide (start ≤ e.seqStart) && below e.seqStart) := by
  have hasc : RowsAscending server.rows := server.ascending
  rw [h.rows] at hasc
  obtain ⟨row, hrow, hseq⟩ := mem_map.mp ((starts_sublist h.ascending).subset hstart)
  obtain ⟨left, right, hall, hleft, hright⟩ := h.projection
  have hl : left.filter (fun e => decide (start ≤ e.seqStart) && below e.seqStart) = [] := by
    refine filter_eq_nil_iff.mpr fun e he => ?_
    obtain ⟨r, hr, hrs⟩ := hleft e he
    have hlt := (pairwise_append.mp (pairwise_append.mp hasc).1).2.2 r hr row hrow
    have hno : ¬start ≤ e.seqStart := by omega
    simp [hno]
  have hr : right.filter (fun e => decide (start ≤ e.seqStart) && below e.seqStart) = [] := by
    refine filter_eq_nil_iff.mpr fun e he => ?_
    obtain ⟨r, hr, hrs⟩ := hright e he
    have hno := hbelow r hr
    rw [hrs] at hno
    simp [hno]
  constructor
  · unfold starts
    rw [hall, map_append, map_append]
    exact mem_append_left _ (mem_append_right _ hstart)
  · rw [hall, filter_append, filter_append, hl, hr, nil_append, append_nil]

end

/-- **A projected response is a page over such rows**: the limited fetch, or all of them. -/
theorem request_source (server : TimelineServer) (context : SessionContext)
    {msg : FetchAgentTimelineRequest} (hproj : msg.projection.getD .projected = .projected)
    (hne : server.rows ≠ []) {before after : List AgentTimelineRow}
    (hw : FetchWindow server.state (server.state.fetch msg.fetchOptions) before after)
    (hcontrol : (server.state.fetch msg.fetchOptions).rows ≠ []) :
    ∃ timeline projectedEntries b a, PageSource server timeline b a ∧
      (a = after ∨ a = []) ∧ (server.state.fetch msg.fetchOptions).rows ⊆ timeline.rows ∧
      (∀ entries ∈ projectedEntries, entries = projectTimelineRows timeline.rows .projected) ∧
      RespondsWith (server.request context msg).1 context timeline
        (selectProjectedTimelinePage (pageInput server msg timeline projectedEntries)) := by
  rcases request_projected server context msg hproj with ⟨hlimited, hr⟩ | hr
  · exact ⟨_, none, before, after,
      ⟨hw.rows, hcontrol, fetch_window_eq _ _, fetch_epoch _ _,
        trusted_window hw (trustedFetch_of_not_full hlimited hcontrol) hcontrol⟩,
      .inl rfl, List.Subset.refl _, fun _ h => (not_mem_none _ h).elim, hr⟩
  · refine ⟨server.state.fetchFull, _, [], [],
      ⟨?_, ?_, fetch_window_eq _ _, fetch_epoch _ _, [], [], ?_, ?_, ?_⟩, .inr rfl, ?_, ?_,
      hr⟩
    · simp [TimelineServer.rows]
    · rw [fetchFull_rows]; exact hne
    · simp [TimelineServer.rows]
    · exact fun e he => absurd he not_mem_nil
    · exact fun e he => absurd he not_mem_nil
    · rw [fetchFull_rows, hw.rows]
      exact fun row hrow => mem_append_left _ (mem_append_right _ hrow)
    · intro entries h; rw [fetchFull_rows]; exact (mem_some_iff.mp h).symm

/-! ## 3. The tail page -/

/-- The page a tail request answers over some rows. -/
theorem tail_page (input : ProjectedTimelinePageInput) {bounds : TimelineBounds}
    (hasc : RowsAscending input.rows) {last : AgentTimelineRow} (hlast : last ∈ input.rows)
    (hmax : ∀ row ∈ input.rows, row.seq ≤ last.seq) (hdir : input.direction = .tail)
    (hbounds : input.bounds = some bounds) (hproj : ∀ entries ∈ input.projectedEntries,
      entries = projectTimelineRows input.rows .projected) :
    ∃ start, start ∈ starts input.rows ∧
      (selectProjectedTimelinePage input).startSeq = some start ∧
      (selectProjectedTimelinePage input).endSeq = some last.seq ∧
      (selectProjectedTimelinePage input).entries =
        (projectTimelineRows input.rows .projected).filter (fun e => decide (start ≤ e.seqStart)) ∧
      ((selectProjectedTimelinePage input).hasOlder = true → bounds.minSeq < start) := by
  have hall := getD_eq_of_forall hproj
  obtain ⟨start, hs⟩ := selectTail_spec hasc hlast hmax input.entryLimit
  refine ⟨start, hs.start_mem, ?_⟩
  unfold selectProjectedTimelinePage
  rw [hall, hbounds, hdir, some_or]
  dsimp only
  rw [if_neg (project_ne_nil hasc (ne_nil_of_mem hlast))]
  refine ⟨hs.minSeq, hs.maxSeq, hs.entries, ?_⟩
  rw [hs.minSeq]
  simp

variable {response : FetchAgentTimelineResponse} {context : SessionContext} {start : Int}

theorem hasOlder_iff {timeline : AgentTimelineFetchResult} {page : ProjectedTimelinePageSelection}
    (hr : RespondsWith response context timeline page) (hstart : page.startSeq = some start)
    (holder : page.hasOlder = true → timeline.window.minSeq < start) :
    response.hasOlder = true ↔ timeline.window.minSeq < start := by
  rw [hr.hasOlder, hstart, any_some, Bool.or_eq_true, decide_eq_true_eq]
  exact ⟨fun h => h.elim holder id, .inr⟩

/-- The limited fetch of a tail request ends with the last row. -/
theorem fetch_tail_control {state : AgentTimelineState} (hasc : RowsAscending state.rows)
    (hne : state.rows ≠ []) (limit : Nat) :
    ∃ before, FetchWindow state (state.fetch ⟨some .tail, none, some limit⟩) before [] ∧
      (state.fetch ⟨some .tail, none, some limit⟩).rows ≠ [] := by
  have hfetch : state.fetch ⟨some .tail, none, some limit⟩ = fetchTail state .tail limit := by
    simp [AgentTimelineState.fetch, AgentTimelineState.isStale, hne,
      AgentTimelineFetchOptions.rowLimit]
  rw [hfetch]
  obtain ⟨before, hw⟩ := fetchTail_window hasc .tail limit
  exact ⟨before, hw, fun hnil => hne (takeLast_eq_nil.mp hnil)⟩

section

variable (server : TimelineServer) (context : SessionContext) (agentId requestId : String)

/-- **The tail page** holds every entry from some start on and ends at the last row. -/
theorem tail_response (hne : server.rows ≠ []) (limit : Nat) :
    ∃ start, BackwardResponse (server.request context (tailRequest agentId requestId limit)).1
        server context start (fun _ => true) ∧
      (server.request context (tailRequest agentId requestId limit)).1.endCursor =
        some ⟨server.state.epoch, server.state.maxSeq⟩ := by
  obtain ⟨before, hw, hcontrol⟩ := fetch_tail_control server.ascending hne limit
  obtain ⟨timeline, projectedEntries, b, a, hsrc, ha, _, hproj, hr⟩ :=
    @request_source server context (tailRequest agentId requestId limit) rfl hne _ _ hw hcontrol
  obtain rfl : a = [] := ha.elim id id
  -- the last row of all is the last of the source
  obtain hnil | ⟨init, last, hlast⟩ := eq_nil_or_concat timeline.rows
  · exact absurd hnil hsrc.nonempty
  rw [concat_eq_append] at hlast
  have hmem : last ∈ timeline.rows := by rw [hlast]; simp
  have hrows : server.state.rows = b ++ (init ++ [last]) := by
    rw [← hlast, ← append_nil (b ++ timeline.rows)]
    exact hsrc.rows
  have hlastSeq : last.seq = server.state.maxSeq := by simp [AgentTimelineState.maxSeq, hrows]
  have hmax : ∀ row ∈ timeline.rows, row.seq ≤ last.seq := by
    intro row hrow
    rw [hlastSeq]
    refine seq_le_maxSeq server.ascending ?_
    rw [hrows, ← hlast]
    exact mem_append_right _ hrow
  have hdir : (pageInput server (tailRequest agentId requestId limit) timeline
      projectedEntries).direction = .tail := ite_self _
  obtain ⟨start, hstart, hs, hend, hentries, holder⟩ := tail_page
    (pageInput server (tailRequest agentId requestId limit) timeline projectedEntries)
    hsrc.ascending hmem hmax hdir rfl hproj
  obtain ⟨hmemStart, hfilter⟩ := hsrc.filter hstart (fun _ => true)
    (fun _ h => absurd h not_mem_nil)
  refine ⟨start, ⟨hmemStart, ?_, ?_, ?_⟩, ?_⟩
  · rw [hr.startCursor, hs, hsrc.epoch]; rfl
  · rw [hr.entries, hentries, hfilter]; simp [pageInput, SelectTimelineInput.page]
  · rw [hasOlder_iff hr hs holder, hsrc.window]; rfl
  · rw [hr.endCursor, hend, hsrc.epoch, ← hlastSeq]; rfl

end

/-! ## 4. A page before a cursor -/

/-- The page a request before `cursorSeq` answers over some rows. -/
theorem before_page (input : ProjectedTimelinePageInput) {bounds : TimelineBounds} {cursorSeq : Int}
    (hasc : RowsAscending input.rows) (hdir : input.direction = .before)
    (hbounds : input.bounds = some bounds) (hcursor : input.cursorSeq = some cursorSeq)
    (hproj : ∀ entries ∈ input.projectedEntries,
      entries = projectTimelineRows input.rows .projected)
    (hmin : bounds.minSeq < cursorSeq) (hmax : cursorSeq ≤ bounds.maxSeq)
    (hle : ∀ row ∈ input.rows, bounds.minSeq ≤ row.seq)
    (hrow : ∃ start ∈ starts input.rows, start < cursorSeq) :
    ∃ start, start ∈ starts input.rows ∧ start < cursorSeq ∧
      (selectProjectedTimelinePage input).startSeq = some start ∧
      (selectProjectedTimelinePage input).entries =
        (projectTimelineRows input.rows .projected).filter
          (fun e => decide (start ≤ e.seqStart) && decide (e.seqStart < cursorSeq)) ∧
      ((selectProjectedTimelinePage input).hasOlder = true → bounds.minSeq < start) := by
  have hall := getD_eq_of_forall hproj
  obtain ⟨s, hs, hlt⟩ := hrow
  obtain ⟨e, he, hes⟩ := List.mem_map.mp hs
  have hend : min bounds.maxSeq (cursorSeq - 1) = cursorSeq - 1 := by omega
  have hfilter : (projectTimelineRows input.rows .projected).filter
      (fun entry => decide (entry.seqStart ≤ cursorSeq - 1)) =
      (projectTimelineRows input.rows .projected).filter
        (fun entry => decide (entry.seqStart < cursorSeq)) := by
    refine filter_congr fun entry _ => ?_
    rw [decide_eq_decide]
    omega
  have hkeys : KeyAscending TimelineProjectionEntry.seqStart
      ((projectTimelineRows input.rows .projected).filter
        (fun entry => decide (entry.seqStart < cursorSeq))) :=
    (project_keyAscending hasc).sublist filter_sublist
  have hne : (projectTimelineRows input.rows .projected).filter
      (fun entry => decide (entry.seqStart < cursorSeq)) ≠ [] := by
    refine ne_nil_of_mem (mem_filter.mpr ⟨he, ?_⟩)
    simp only [decide_eq_true_eq]
    omega
  obtain ⟨first, hfirst, hhead, htake⟩ := takeLast_eq_filter hkeys input.entryLimit hne
  obtain ⟨hfirstAll, hfirstLt⟩ := mem_filter.mp hfirst
  simp only [decide_eq_true_eq] at hfirstLt
  refine ⟨first.seqStart, List.mem_map_of_mem hfirstAll, hfirstLt, ?_⟩
  unfold selectProjectedTimelinePage
  rw [hall, hbounds, hdir, hcursor, some_or]
  dsimp only
  rw [if_neg (ne_nil_of_mem he), getD_some, hend, if_neg (by omega)]
  unfold selectProjectedEntriesBefore
  dsimp only
  rw [hfilter]
  refine ⟨by rw [hhead]; rfl, by rw [htake, List.filter_filter], fun holder => ?_⟩
  -- an eligible entry that is not selected starts below the first selected one
  by_contra hnot
  have hsame : takeLast input.entryLimit ((projectTimelineRows input.rows .projected).filter
      (fun entry => decide (entry.seqStart < cursorSeq))) =
      (projectTimelineRows input.rows .projected).filter
        (fun entry => decide (entry.seqStart < cursorSeq)) := by
    rw [htake]
    refine filter_eq_self.mpr fun entry hentry => ?_
    obtain ⟨row, hrow, hseq⟩ := List.mem_map.mp ((starts_sublist hasc).subset
      (List.mem_map_of_mem (mem_of_mem_filter hentry)))
    have hge := hle row hrow
    simp only [decide_eq_true_eq]
    omega
  rw [hsame] at holder
  simp at holder

/-- The limited fetch before a row: what follows it starts at that row. -/
theorem fetch_before_control {state : AgentTimelineState} (hasc : RowsAscending state.rows)
    {cursorSeq : Int} (hrow : ∃ row ∈ state.rows, row.seq = cursorSeq)
    (hmin : state.minSeq < cursorSeq) (limit : Nat) :
    ∃ before after,
      FetchWindow state (state.fetch
        ⟨some .before, some ⟨state.epoch, cursorSeq⟩, some limit⟩) before after ∧
      (state.fetch ⟨some .before, some ⟨state.epoch, cursorSeq⟩, some limit⟩).rows ≠ [] ∧
      (state.fetch ⟨some .before, some ⟨state.epoch, cursorSeq⟩, some limit⟩).reset = false ∧
      (∀ row ∈ after, cursorSeq ≤ row.seq) ∧
      ∀ row ∈ (state.fetch ⟨some .before, some ⟨state.epoch, cursorSeq⟩, some limit⟩).rows,
        row.seq < cursorSeq := by
  obtain ⟨row, hmem, hseq⟩ := hrow
  have hne : state.rows ≠ [] := ne_nil_of_mem hmem
  have hfetch : state.fetch ⟨some .before, some ⟨state.epoch, cursorSeq⟩, some limit⟩ =
      fetchBefore state .before limit (some ⟨state.epoch, cursorSeq⟩) := by
    simp [AgentTimelineState.fetch, AgentTimelineState.isStale, hne,
      AgentTimelineFetchOptions.rowLimit]
  rw [hfetch]
  unfold fetchBefore
  simp only [map_some, getD_some]
  cases hidx : state.rows.findIdx? (fun row => decide (cursorSeq ≤ row.seq)) with
  | none =>
    have hall := findIdx?_eq_none_iff.mp hidx row hmem
    simp only [decide_eq_false_iff_not] at hall
    omega
  | some stop =>
    obtain ⟨hbefore, x, rest, hdrop, hx⟩ := findIdx?_split hidx
    have hx : cursorSeq ≤ x.seq := of_decide_eq_true hx
    have hlt : ∀ r ∈ state.rows.take stop, r.seq < cursorSeq := by
      intro r hr
      have h := hbefore r hr
      simp only [decide_eq_false_iff_not] at h
      omega
    have hsplit : state.rows = state.rows.take stop ++ x :: rest := by
      rw [← hdrop, take_append_drop]
    have hafter : ∀ r ∈ state.rows.drop stop, cursorSeq ≤ r.seq := by
      intro r hr
      rw [hdrop] at hr
      rcases mem_cons.mp hr with rfl | hr
      · exact hx
      · rw [hsplit] at hasc
        have h := rel_of_pairwise_cons (pairwise_append.mp hasc).2.1 hr
        omega
    have htake : state.rows.take stop ≠ [] := by
      obtain ⟨first, hfirst, hfirstSeq⟩ := exists_first_row hne
      rw [hsplit] at hfirst
      rcases mem_append.mp hfirst with h | h
      · exact ne_nil_of_mem h
      · have hge := hafter first (hdrop ▸ h)
        omega
    obtain ⟨before, hlast⟩ := takeLast_split limit (state.rows.take stop)
    have hrows : state.rows =
        before ++ takeLast limit (state.rows.take stop) ++ state.rows.drop stop := by
      rw [← hlast, take_append_drop]
    exact ⟨before, state.rows.drop stop,
      ⟨hrows, startsAfter_of_before hasc hrows, fun _ _ => rfl⟩,
      fun h => htake (takeLast_eq_nil.mp h), trivial, hafter,
      fun r hr => hlt r (takeLast_subset _ _ hr)⟩

section

variable (server : TimelineServer) (context : SessionContext) (agentId requestId : String)

/-- **A page before a start** holds every entry from an earlier start up to it. -/
theorem before_response {cursorSeq : Int} (hcursor : cursorSeq ∈ starts server.rows)
    (hmin : server.state.minSeq < cursorSeq) (limit : Nat) :
    ∃ start, start < cursorSeq ∧
      BackwardResponse (server.request context
          (beforeRequest agentId requestId limit ⟨server.state.epoch, cursorSeq⟩)).1
        server context start (fun seq => decide (seq < cursorSeq)) := by
  have hrow := start_row hcursor
  have hne : server.rows ≠ [] := by obtain ⟨row, hmem, _⟩ := hrow; exact ne_nil_of_mem hmem
  have hmax : cursorSeq ≤ server.state.maxSeq := by
    obtain ⟨row, hmem, hseq⟩ := hrow
    exact hseq ▸ seq_le_maxSeq server.ascending hmem
  obtain ⟨before, after, hw, hcontrol, hreset, hafter, hbelow⟩ :=
    fetch_before_control server.ascending hrow hmin limit
  obtain ⟨timeline, projectedEntries, b, a, hsrc, ha, hsub, hproj, hr⟩ :=
    @request_source server context
      (beforeRequest agentId requestId limit ⟨server.state.epoch, cursorSeq⟩) rfl hne _ _ hw hcontrol
  have ha' : ∀ row ∈ a, decide (row.seq < cursorSeq) = false := by
    rcases ha with rfl | rfl
    · intro row hrow
      have h := hafter row hrow
      simp only [decide_eq_false_iff_not]
      omega
    · exact fun _ h => absurd h not_mem_nil
  have hwindow : ∀ row ∈ timeline.rows, server.state.minSeq ≤ row.seq := by
    intro row hrow
    refine minSeq_le_seq server.ascending ?_
    show row ∈ server.rows
    rw [hsrc.rows]
    exact mem_append_left _ (mem_append_right _ hrow)
  have hearlier : ∃ start ∈ starts timeline.rows, start < cursorSeq := by
    obtain ⟨row, hrow⟩ := exists_mem_of_ne_nil _ hcontrol
    obtain ⟨e, he, hsource⟩ := exists_source hsrc.ascending (hsub hrow)
    have hle := (projectTimelineRows_ok hsrc.ascending he).seqStart_le hsource
    have hlt := hbelow row hrow
    exact ⟨e.seqStart, mem_map_of_mem he, by omega⟩
  have hdir : (pageInput server
      (beforeRequest agentId requestId limit ⟨server.state.epoch, cursorSeq⟩) timeline
      projectedEntries).direction = .before := by
    refine if_neg (Bool.eq_false_iff.mp ?_)
    exact hreset
  have hbounds : timeline.window.minSeq = server.state.minSeq ∧
      timeline.window.maxSeq = server.state.maxSeq := by
    rw [hsrc.window]
    exact ⟨rfl, rfl⟩
  obtain ⟨start, hstart, hlt, hs, hentries, holder⟩ := before_page
    (pageInput server (beforeRequest agentId requestId limit ⟨server.state.epoch, cursorSeq⟩)
      timeline projectedEntries) hsrc.ascending hdir rfl rfl hproj
    (by rw [hbounds.1]; exact hmin) (by rw [hbounds.2]; exact hmax)
    (by rw [hbounds.1]; exact hwindow) hearlier
  obtain ⟨hmemStart, hfilter⟩ :=
    hsrc.filter hstart (fun seq => decide (seq < cursorSeq)) ha'
  refine ⟨start, hlt, ⟨hmemStart, ?_, ?_, ?_⟩⟩
  · rw [hr.startCursor, hs, hsrc.epoch]; rfl
  · rw [hr.entries, hentries, hfilter]; rfl
  · rw [hasOlder_iff hr hs holder, hbounds.1]

end

/-! ## 5. A reader of a growing timeline -/

/-- A page with the rows it was answered from. -/
structure TimelinePageRecord where
  rows : List AgentTimelineRow
  response : FetchAgentTimelineResponse

/-- The timeline and the pages received so far, the newest request's first. -/
structure PagingState where
  server : TimelineServer
  pages : List TimelinePageRecord

namespace PagingState

variable (s : PagingState)

def receive (context : SessionContext) (msg : FetchAgentTimelineRequest) : PagingState :=
  ⟨(s.server.request context msg).2,
    ⟨s.server.rows, (s.server.request context msg).1⟩ :: s.pages⟩

/-- The entries received, in the order they are displayed. -/
def collected : List TimelineResponseEntry :=
  s.pages.flatMap (·.response.entries)

/-- Where the first page, the tail, ends. -/
def tailEnd : Option Int :=
  (s.pages.getLast?.bind (·.response.endCursor)).map (·.seq)

/-- The last row there was when the first page was answered. -/
def lastAtTail : Option Int :=
  (s.pages.getLast?.bind (·.rows.getLast?)).map (·.seq)

/-- The starts of the timeline as it is now that lie at or below the tail's end. -/
def startsToTail : List Int :=
  (starts s.server.rows).filter fun start => s.tailEnd.any fun stop => decide (start ≤ stop)

end PagingState

/-- What can happen: a row is appended, someone else asks the same session, or the reader asks for
    the tail first and then before the start of its last page, as long as older entries exist. -/
inductive PagingStep (context : SessionContext) (agentId : String) :
    PagingState → PagingState → Prop
  | append (s : PagingState) (item : AgentTimelineItem) (options : AppendOptions) :
      PagingStep context agentId s { s with server := s.server.append item options }
  | other (s : PagingState) (msg : FetchAgentTimelineRequest) :
      PagingStep context agentId s { s with server := (s.server.request context msg).2 }
  | tail (s : PagingState) (requestId : String) (limit : Nat) (hfirst : s.pages = []) :
      PagingStep context agentId s (s.receive context (tailRequest agentId requestId limit))
  | before (s : PagingState) (newest : TimelinePageRecord) (rest : List TimelinePageRecord)
      (cursor : AgentTimelineCursor) (requestId : String) (limit : Nat)
      (hpages : s.pages = newest :: rest) (holder : newest.response.hasOlder = true)
      (hcursor : newest.response.startCursor = some cursor) :
      PagingStep context agentId s (s.receive context (beforeRequest agentId requestId limit cursor))

def PagingSystem (context : SessionContext) (agentId : String) : TransitionSystem PagingState where
  init s := s.pages = []
  step := PagingStep context agentId

variable {server : TimelineServer}

/-- The tail of an empty timeline. -/
theorem empty_tail_response (hnil : server.rows = []) (context : SessionContext)
    (agentId requestId : String) (limit : Nat) :
    (server.request context (tailRequest agentId requestId limit)).1.startCursor = none ∧
    (server.request context (tailRequest agentId requestId limit)).1.endCursor = none ∧
    (server.request context (tailRequest agentId requestId limit)).1.hasOlder = false ∧
    (server.request context (tailRequest agentId requestId limit)).1.entries = [] := by
  have hrows : server.state.rows = [] := hnil
  have hpage : ∀ timeline projectedEntries, timeline.rows = [] →
      (∀ entries ∈ projectedEntries, entries = []) →
      selectProjectedTimelinePage (pageInput server (tailRequest agentId requestId limit) timeline
        projectedEntries) = ⟨[], none, none, false, false⟩ := by
    intro timeline projectedEntries ht hp
    have hdir : (pageInput server (tailRequest agentId requestId limit) timeline
        projectedEntries).direction = .tail := ite_self _
    have hall : (pageInput server (tailRequest agentId requestId limit) timeline
        projectedEntries).projectedEntries.getD (projectTimelineRows timeline.rows .projected) =
          [] := by
      cases projectedEntries with
      | none => rw [ht]; rfl
      | some entries => exact hp entries rfl
    unfold selectProjectedTimelinePage
    rw [hdir, show (pageInput server (tailRequest agentId requestId limit) timeline
      projectedEntries).rows = timeline.rows from rfl, hall]
    rfl
  have hcontrol : (server.state.fetch (tailRequest agentId requestId limit).fetchOptions).rows =
      [] := by
    obtain ⟨before, after, hw⟩ :=
      fetch_window server.ascending (tailRequest agentId requestId limit).fetchOptions
    have h := hw.rows
    rw [hrows] at h
    exact (append_eq_nil_iff.mp (append_eq_nil_iff.mp h.symm).1).2
  rcases request_projected server context (tailRequest agentId requestId limit) rfl with
    ⟨_, hr⟩ | hr
  · have h := hpage _ none hcontrol (fun _ h => (not_mem_none _ h).elim)
    rw [h] at hr
    exact ⟨hr.startCursor, hr.endCursor, hr.hasOlder, hr.entries⟩
  · have h := hpage server.state.fetchFull (some (projectTimelineRows server.rows .projected))
      (by rw [fetchFull_rows]; exact hrows) (by rw [hnil]; simp [projectTimelineRows,
        makeCanonicalEntries, collapseByIdentity, mergeAssistantChunks, mergeReasoningChunks])
    rw [h] at hr
    exact ⟨hr.startCursor, hr.endCursor, hr.hasOlder, hr.entries⟩

/-! ## 6. The invariant -/

/-- The pages tile the starts from `cursor` to `stop`. -/
structure Tiled (s : PagingState) (newest : TimelinePageRecord) (cursor stop : Int) : Prop where
  cursor_mem : cursor ∈ starts s.server.rows
  cursor_le : cursor ≤ stop
  startCursor : newest.response.startCursor = some ⟨s.server.state.epoch, cursor⟩
  tailEnd : s.tailEnd = some stop
  stop_lt : stop < s.server.state.nextSeq
  collected : s.collected.map (·.seqStart) =
    (starts s.server.rows).filter fun start => decide (cursor ≤ start ∧ start ≤ stop)
  hasOlder : newest.response.hasOlder = true ↔ s.server.state.minSeq < cursor
  pages : s.pages.length ≤ s.collected.length

/-- The tail was asked for before there was a row. -/
structure EmptyTail (s : PagingState) (newest : TimelinePageRecord) : Prop where
  pages : s.pages = [newest]
  startCursor : newest.response.startCursor = none
  endCursor : newest.response.endCursor = none
  hasOlder : newest.response.hasOlder = false
  entries : newest.response.entries = []

structure PagingInv (context : SessionContext) (s : PagingState) : Prop where
  entries : ∀ page ∈ s.pages, ∀ e ∈ page.response.entries,
    ∃ entry ∈ projectTimelineRows page.rows .projected, e = entry.toPayload context
  tiled : ∀ newest ∈ s.pages.head?, EmptyTail s newest ∨ ∃ cursor stop, Tiled s newest cursor stop
  tail : s.tailEnd = s.lastAtTail

variable {s : PagingState}

/-- A row more changes nothing at or below the tail's end. -/
theorem Tiled.append {newest : TimelinePageRecord} {cursor stop : Int}
    (h : Tiled s newest cursor stop) (item : AgentTimelineItem) (options : AppendOptions) :
    Tiled { s with server := s.server.append item options } newest cursor stop := by
  obtain ⟨row, hrow⟩ : ∃ row : AgentTimelineRow, row.seq = s.server.state.nextSeq ∧
      (s.server.append item options).rows = s.server.rows ++ [row] := ⟨_, rfl, rfl⟩
  have hmin : (s.server.append item options).state.minSeq = s.server.state.minSeq := by
    obtain ⟨first, hfirst, _⟩ := start_row h.cursor_mem
    obtain ⟨f, rest, hrows⟩ := exists_cons_of_ne_nil (ne_nil_of_mem hfirst)
    have h1 : s.server.state.rows = f :: rest := hrows
    have h2 : (s.server.append item options).state.rows = f :: (rest ++ [row]) := by
      have h := hrow.2
      rw [hrows] at h
      exact h
    simp [AgentTimelineState.minSeq, h1, h2]
  have hlt := h.stop_lt
  have hstarts := starts_append s.server.rows row
  rw [← hrow.2] at hstarts
  refine ⟨?_, h.cursor_le, h.startCursor, h.tailEnd, ?_, ?_, ?_, h.pages⟩
  · rcases hstarts with heq | heq
    · rw [heq]; exact h.cursor_mem
    · rw [heq]; exact mem_append_left _ h.cursor_mem
  · show stop < s.server.state.nextSeq + 1; omega
  · show s.collected.map (·.seqStart) = _
    rw [h.collected]
    rcases hstarts with heq | heq
    · rw [heq]
    · have hno : ¬(cursor ≤ row.seq ∧ row.seq ≤ stop) := by omega
      rw [heq, filter_append, filter_cons_of_neg (by simpa using hno), filter_nil, append_nil]
  · rw [hmin]; exact h.hasOlder

variable {below : Int → Bool}

section

variable (h : BackwardResponse response server context start below)
include h

/-- The starts of the entries of a page. -/
theorem BackwardResponse.starts_eq :
    response.entries.map (·.seqStart) =
      (starts server.rows).filter (fun x => decide (start ≤ x) && below x) := by
  rw [h.entries, List.map_map]
  unfold starts
  rw [List.filter_map]
  rfl

theorem BackwardResponse.entries_ne_nil (hb : below start = true) :
    0 < response.entries.length := by
  have hmem : start ∈ response.entries.map (·.seqStart) := by
    rw [h.starts_eq, mem_filter]
    exact ⟨h.start_mem, by simp [hb]⟩
  have hpos := length_pos_of_mem hmem
  rwa [length_map] at hpos

theorem BackwardResponse.mem :
    ∀ e ∈ response.entries,
      ∃ entry ∈ projectTimelineRows server.rows .projected, e = entry.toPayload context := by
  intro e he
  rw [h.entries] at he
  obtain ⟨entry, hentry, rfl⟩ := mem_map.mp he
  exact ⟨entry, mem_of_mem_filter hentry, rfl⟩

end

theorem starts_keyAscending (server : TimelineServer) :
    KeyAscending id (starts server.rows) := starts_pairwise server.ascending

/-- The first page tiles the starts from its own to its end. -/
theorem tiled_tail (context : SessionContext) (agentId requestId : String) (limit : Nat)
    (hfirst : s.pages = []) (hne : s.server.rows ≠ []) :
    (∀ e ∈ (s.server.request context (tailRequest agentId requestId limit)).1.entries,
      ∃ entry ∈ projectTimelineRows s.server.rows .projected, e = entry.toPayload context) ∧
    ∃ cursor stop, Tiled (s.receive context (tailRequest agentId requestId limit))
      ⟨s.server.rows, (s.server.request context (tailRequest agentId requestId limit)).1⟩
      cursor stop := by
  obtain ⟨start, hr, hend⟩ := tail_response s.server context agentId requestId hne limit
  refine ⟨hr.mem, start, s.server.state.maxSeq, hr.start_mem, ?_, hr.startCursor, ?_, ?_, ?_,
    hr.hasOlder, ?_⟩
  · obtain ⟨row, hrow, hseq⟩ := start_row hr.start_mem
    exact hseq ▸ seq_le_maxSeq s.server.ascending hrow
  · simp [PagingState.tailEnd, PagingState.receive, hfirst, hend]
  · obtain ⟨row, hrow, hseq⟩ := exists_last_row hne
    have hlt := s.server.below row hrow
    show s.server.state.maxSeq < s.server.state.nextSeq
    omega
  · simp only [PagingState.collected, PagingState.receive, hfirst, flatMap_cons,
      flatMap_nil, append_nil]
    rw [hr.starts_eq]
    refine filter_congr fun x hx => ?_
    obtain ⟨row, hrow, hseq⟩ := start_row hx
    have hle := seq_le_maxSeq s.server.ascending hrow
    simp only [Bool.and_true, decide_eq_decide]
    omega
  · have hpos := hr.entries_ne_nil rfl
    simp only [PagingState.collected, PagingState.receive, hfirst, flatMap_cons,
      flatMap_nil, append_nil, length_cons, length_nil]
    omega

/-- A further page extends the tiling to its own start. -/
theorem tiled_before {newest : TimelinePageRecord} {rest : List TimelinePageRecord}
    {cursor stop : Int} (h : Tiled s newest cursor stop) (hpages : s.pages = newest :: rest)
    (holder : newest.response.hasOlder = true) (context : SessionContext)
    (agentId requestId : String) (limit : Nat) : (∀ e ∈ (s.server.request context
        (beforeRequest agentId requestId limit ⟨s.server.state.epoch, cursor⟩)).1.entries,
      ∃ entry ∈ projectTimelineRows s.server.rows .projected, e = entry.toPayload context) ∧
    ∃ start, Tiled
      (s.receive context (beforeRequest agentId requestId limit ⟨s.server.state.epoch, cursor⟩))
      ⟨s.server.rows, (s.server.request context
        (beforeRequest agentId requestId limit ⟨s.server.state.epoch, cursor⟩)).1⟩
      start stop := by
  obtain ⟨start, hlt, hr⟩ := before_response s.server context agentId requestId h.cursor_mem
    (h.hasOlder.mp holder) limit
  have hle := h.cursor_le
  refine ⟨hr.mem, start, hr.start_mem, by omega, hr.startCursor, ?_, h.stop_lt, ?_, hr.hasOlder, ?_⟩
  · have ht := h.tailEnd
    unfold PagingState.tailEnd at ht ⊢
    simp only [PagingState.receive]
    rw [hpages] at ht ⊢
    exact ht
  · have hadjoin := filter_adjoin (starts_keyAscending s.server) (Int.le_of_lt hlt) hle
    show (flatMap _ (_ :: s.pages)).map _ = _
    rw [flatMap_cons, map_append]
    have hold : (s.pages.flatMap (·.response.entries)).map (·.seqStart) = _ := h.collected
    have hserver : (s.receive context
        (beforeRequest agentId requestId limit ⟨s.server.state.epoch, cursor⟩)).server.rows =
          s.server.rows := rfl
    rw [hold, hr.starts_eq, hserver]
    simpa using hadjoin
  · have hpos := hr.entries_ne_nil (decide_eq_true hlt)
    have hlen := h.pages
    simp only [PagingState.collected, PagingState.receive, flatMap_cons, length_append,
      length_cons] at hlen ⊢
    omega

/-- The tail ends at the last row there is. -/
theorem tail_lastAtTail (context : SessionContext) (agentId requestId : String) (limit : Nat)
    (hfirst : s.pages = []) :
    (s.receive context (tailRequest agentId requestId limit)).tailEnd =
      (s.receive context (tailRequest agentId requestId limit)).lastAtTail := by
  unfold PagingState.tailEnd PagingState.lastAtTail PagingState.receive
  rw [hfirst, getLast?_singleton, bind_some, bind_some]
  by_cases hnil : s.server.rows = []
  · rw [(empty_tail_response hnil context agentId requestId limit).2.1, hnil]; rfl
  · obtain ⟨start, -, hend⟩ := tail_response s.server context agentId requestId hnil limit
    have hlast := getLast?_eq_some_getLast hnil
    have hmax : s.server.state.maxSeq = (s.server.rows.getLast hnil).seq := by
      unfold AgentTimelineState.maxSeq
      rw [show s.server.state.rows.getLast? = _ from hlast]
      rfl
    rw [hend, hlast, hmax]
    rfl

theorem paging_step {agentId : String} {s' : PagingState} (h : PagingInv context s)
    (hs : PagingStep context agentId s s') : PagingInv context s' := by
  cases hs with
  | append item options =>
    refine ⟨h.entries, fun newest hn => ?_, h.tail⟩
    rcases h.tiled newest hn with he | ⟨cursor, stop, ht⟩
    · exact .inl ⟨he.pages, he.startCursor, he.endCursor, he.hasOlder, he.entries⟩
    · exact .inr ⟨cursor, stop, ht.append item options⟩
  | other msg =>
    refine ⟨h.entries, fun newest hn => ?_, h.tail⟩
    rcases h.tiled newest hn with he | ⟨cursor, stop, ht⟩
    · exact .inl ⟨he.pages, he.startCursor, he.endCursor, he.hasOlder, he.entries⟩
    · exact .inr ⟨cursor, stop, ht.cursor_mem, ht.cursor_le, ht.startCursor, ht.tailEnd,
        ht.stop_lt, ht.collected, ht.hasOlder, ht.pages⟩
  | tail requestId limit hfirst =>
    by_cases hnil : s.server.rows = []
    · obtain ⟨h1, h2, h3, h4⟩ := empty_tail_response hnil context agentId requestId limit
      refine ⟨?_, ?_, tail_lastAtTail context agentId requestId limit hfirst⟩
      · intro page hpage
        simp only [PagingState.receive, hfirst, mem_singleton] at hpage
        rw [hpage, h4]
        exact fun e he => absurd he not_mem_nil
      · intro newest hn
        obtain rfl := mem_some_iff.mp hn
        exact .inl ⟨by simp [PagingState.receive, hfirst], h1, h2, h3, h4⟩
    · obtain ⟨hmem, htiled⟩ := tiled_tail context agentId requestId limit hfirst hnil
      refine ⟨?_, ?_, tail_lastAtTail context agentId requestId limit hfirst⟩
      · intro page hpage
        simp only [PagingState.receive, hfirst, mem_singleton] at hpage
        rw [hpage]
        exact hmem
      · intro newest hn; obtain rfl := mem_some_iff.mp hn; exact .inr htiled
  | before newest rest cursor requestId limit hpages holder hcursor =>
    rcases h.tiled newest (by rw [hpages]; rfl) with he | ⟨c, stop, ht⟩
    · rw [he.startCursor] at hcursor; cases hcursor
    · rw [ht.startCursor] at hcursor
      obtain rfl := some.inj hcursor
      obtain ⟨hmem, start, htiled⟩ :=
        tiled_before ht hpages holder context agentId requestId limit
      refine ⟨?_, ?_, ?_⟩
      · intro page hpage
        rcases mem_cons.mp hpage with rfl | hpage
        · exact hmem
        · exact h.entries page hpage
      · intro n hn; obtain rfl := mem_some_iff.mp hn; exact .inr ⟨start, stop, htiled⟩
      · have htail := h.tail
        unfold PagingState.tailEnd PagingState.lastAtTail at htail ⊢
        rw [hpages] at htail
        unfold PagingState.receive
        rw [hpages, getLast?_cons_cons]
        exact htail

theorem paging_invariant {agentId : String} (h : (PagingSystem context agentId).Reachable s) :
    PagingInv context s := by
  refine h.invariant (fun s hinit => ?_)
    (fun s s' (hinv : PagingInv context s) (hs : PagingStep context agentId s s') =>
      paging_step hinv hs)
  have hpages : s.pages = [] := hinit
  refine ⟨fun page hpage => ?_, fun newest hn => ?_, ?_⟩
  · rw [hpages] at hpage; exact absurd hpage not_mem_nil
  · rw [hpages] at hn; exact (not_mem_none _ hn).elim
  · rw [PagingState.tailEnd, PagingState.lastAtTail, hpages]; rfl

/-! ## 7. Completeness -/

/-- What a reader can rely on after any run. -/
structure PagingComplete (context : SessionContext) (s : PagingState) : Prop where
  /-- The tail ends at the last row that there was when it was answered. -/
  tail : s.tailEnd = s.lastAtTail
  /-- Every entry received was projected when its page was answered. -/
  projected : ∀ page ∈ s.pages, ∀ e ∈ page.response.entries,
    ∃ entry ∈ projectTimelineRows page.rows .projected, e = entry.toPayload context
  /-- No entry is received twice. -/
  once : (s.collected.map (·.seqStart)).Nodup
  /-- Where the last page tells of nothing older, every entry up to the tail's end is received. -/
  complete : ∀ newest ∈ s.pages.head?, newest.response.hasOlder = false →
    s.collected.map (·.seqStart) = s.startsToTail
  /-- And then nothing starts before it. -/
  notEarly : ∀ newest ∈ s.pages.head?, newest.response.hasOlder = false →
    ∀ cursor ∈ newest.response.startCursor, ∀ start ∈ starts s.server.rows, cursor.seq ≤ start
  /-- Where it tells of something older, it has a start to go on from. -/
  continues : ∀ newest ∈ s.pages.head?, newest.response.hasOlder = true →
    newest.response.startCursor.isSome
  /-- There are never more pages than entries up to the tail's end, the empty tail aside. -/
  finite : s.pages.length ≤ s.startsToTail.length + 1

/-- **Backward paging is complete and free of duplicates under concurrent appends.** -/
theorem backward_paging_complete (context : SessionContext) (agentId : String) {s : PagingState}
    (h : (PagingSystem context agentId).Reachable s) : PagingComplete context s := by
  have hinv := paging_invariant h
  have hsorted : ∀ stop cursor, ((starts s.server.rows).filter
      fun start => decide (cursor ≤ start ∧ start ≤ stop)).Nodup := fun _ _ =>
    ((starts_pairwise s.server.ascending).imp fun hab => Int.ne_of_lt hab).filter _
  cases hp : s.pages with
  | nil =>
    have hcollected : s.collected = [] := by simp [PagingState.collected, hp]
    refine ⟨hinv.tail, hinv.entries, by simp [hcollected], ?_, ?_, ?_, by simp [hp]⟩
    all_goals
      intro newest hn
      rw [hp] at hn
      exact (not_mem_none _ hn).elim
  | cons newest rest =>
    have hhead : s.pages.head? = some newest := by rw [hp]; rfl
    rcases hinv.tiled newest hhead with he | ⟨cursor, stop, ht⟩
    · have hcollected : s.collected = [] := by simp [PagingState.collected, he.pages, he.entries]
      have hstarts : s.startsToTail = [] := by
        simp [PagingState.startsToTail, PagingState.tailEnd, he.pages, he.endCursor]
      refine ⟨hinv.tail, hinv.entries, by simp [hcollected], fun _ _ _ => by simp [hcollected, hstarts],
        fun n hn _ c hc => ?_, fun n hn hold => ?_, by simp [he.pages]⟩
      · obtain rfl := mem_some_iff.mp (hhead ▸ hn)
        rw [he.startCursor] at hc
        exact (not_mem_none _ hc).elim
      · obtain rfl := mem_some_iff.mp (hhead ▸ hn); rw [he.hasOlder] at hold; cases hold
    · have hdone : newest.response.hasOlder = false →
          ∀ start ∈ starts s.server.rows, cursor ≤ start := by
        intro hold start hstart
        have hnot : ¬s.server.state.minSeq < cursor := fun hlt => by
          rw [ht.hasOlder.mpr hlt] at hold
          cases hold
        obtain ⟨row, hrow, hseq⟩ := start_row hstart
        have hge := minSeq_le_seq s.server.ascending hrow
        omega
      have hto : s.startsToTail = (starts s.server.rows).filter fun x => decide (x ≤ stop) := by
        simp [PagingState.startsToTail, ht.tailEnd]
      refine ⟨hinv.tail, hinv.entries, ht.collected ▸ hsorted stop cursor, fun n hn hold => ?_,
        fun n hn hold c hc => ?_, fun n hn hold => ?_, ?_⟩
      · obtain rfl := mem_some_iff.mp (hhead ▸ hn)
        rw [ht.collected, hto]
        refine filter_congr fun x hx => ?_
        have hle := hdone hold x hx
        rw [decide_eq_decide]
        omega
      · obtain rfl := mem_some_iff.mp (hhead ▸ hn)
        rw [ht.startCursor] at hc
        obtain rfl := mem_some_iff.mp hc
        exact hdone hold
      · obtain rfl := mem_some_iff.mp (hhead ▸ hn); rw [ht.startCursor]; rfl
      · have hlen := ht.pages
        have hsub : (s.collected.map (·.seqStart)).Sublist s.startsToTail := by
          rw [ht.collected, hto]
          refine monotone_filter_right _ fun x hx => ?_
          simp only [decide_eq_true_eq] at hx ⊢
          exact hx.2
        have hle := hsub.length_le
        rw [length_map] at hle
        omega

/-- Two prompts, a tail of one entry and the page before it, with an answer appended between. -/
def twoPrompts : PagingState :=
  ⟨((TimelineServer.initialized "e").append (.userMessage "one" none none) ⟨"t1", none, none⟩).append
    (.userMessage "two" none none) ⟨"t2", none, none⟩, []⟩

theorem backward_paging_two_prompts :
    PagingComplete ⟨"codex", true⟩
      (({ twoPrompts.receive ⟨"codex", true⟩ (tailRequest "a" "r1" 1) with
          server := (twoPrompts.receive ⟨"codex", true⟩ (tailRequest "a" "r1" 1)).server.append
            (.assistantMessage "answer" none) ⟨"t3", none, none⟩ } : PagingState).receive
        ⟨"codex", true⟩ (beforeRequest "a" "r2" 1 ⟨"e", 2⟩)) := by
  refine backward_paging_complete ⟨"codex", true⟩ "a" ?_
  have h0 : (PagingSystem ⟨"codex", true⟩ "a").Reachable twoPrompts := .of_init rfl
  have h1 := h0.step (PagingStep.tail twoPrompts "r1" 1 rfl)
  have h2 := h1.step (PagingStep.append _ (.assistantMessage "answer" none) ⟨"t3", none, none⟩)
  exact h2.step (PagingStep.before _ _ [] ⟨"e", 2⟩ "r2" 1 rfl (by decide) (by decide))

end Frogg.Server
