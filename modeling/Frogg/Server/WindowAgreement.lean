/-
  Subject:   The limited fetch projects like the whole timeline.

  Where `shouldUseFullTimelineForProjectedPage` answers false, the fetched rows hold no tool call
  and no text chunk stands at an edge with rows beyond it (`windowCut_of_trusted`); such a window
  is projected on its own, in one piece of the whole projection (`trusted_window`).
-/
import Frogg.Server.SessionTimeline

namespace Frogg.Server

/-! ## 1. What a trusted fetch is -/

/-- What `shouldUseFullTimelineForProjectedPage` has checked where it answers false. -/
structure TrustedFetch (timeline : AgentTimelineFetchResult) (pageLimit : Nat) : Prop where
  noToolCall : NoToolCall timeline.rows
  first : timeline.hasOlder = true → ∀ row ∈ timeline.rows.head?, row.isChunk = false
  last : timeline.hasNewer = true → ∀ row ∈ timeline.rows.getLast?, row.isChunk = false
  enough : timeline.hasNewer = true → 0 < pageLimit →
    pageLimit ≤ (projectTimelineRows timeline.rows .projected).length

theorem trustedFetch_of_not_full {timeline : AgentTimelineFetchResult} {pageLimit : Nat}
    (h : shouldUseFullTimelineForProjectedPage timeline pageLimit = false)
    (hne : timeline.rows ≠ []) : TrustedFetch timeline pageLimit := by
  unfold shouldUseFullTimelineForProjectedPage at h
  rw [if_neg hne] at h
  by_cases htool : timeline.rows.any (·.item.isToolCall)
  · rw [if_pos htool] at h; cases h
  rw [if_neg htool] at h
  by_cases holder : timeline.hasOlder && timeline.rows.head?.any (·.isChunk)
  · rw [if_pos holder] at h; cases h
  rw [if_neg holder] at h
  by_cases hnewer : timeline.hasNewer && timeline.rows.getLast?.any (·.isChunk)
  · rw [if_pos hnewer] at h; cases h
  rw [if_neg hnewer] at h
  refine ⟨?_, ?_, ?_, ?_⟩
  · intro row hrow
    have hany : ∀ r ∈ timeline.rows, r.item.isToolCall = false := by simpa using htool
    exact hany row hrow
  · intro ho row hrow; rw [ho, Bool.true_and, Option.mem_def.mp hrow] at holder; simpa using holder
  · intro hn row hrow; rw [hn, Bool.true_and, Option.mem_def.mp hrow] at hnewer; simpa using hnewer
  · intro hn hpos
    have hzero : ¬pageLimit = 0 := by omega
    rw [hn] at h
    simpa [hzero] using h

section

variable {state : AgentTimelineState} {timeline : AgentTimelineFetchResult} {pageLimit : Nat}
  {before after : List AgentTimelineRow}

section

variable (hw : FetchWindow state timeline before after) (ht : TrustedFetch timeline pageLimit)
  (hne : timeline.rows ≠ [])
include hw ht hne

theorem windowCut_of_trusted :
    WindowCut before timeline.rows after where
  noToolCall := ht.noToolCall
  first hb := ht.first (hw.older hne hb)
  last ha := ht.last (hw.newer hne ha)

/-- **The projection of a trusted fetch is a piece of the whole projection.** -/
theorem trusted_window :
    ∃ left right,
      projectTimelineRows state.rows .projected =
        left ++ projectTimelineRows timeline.rows .projected ++ right ∧
      (∀ e ∈ left, ∃ row ∈ before, row.seq = e.seqStart) ∧
      (∀ e ∈ right, ∃ row ∈ after, row.seq = e.seqStart) := by
  rw [hw.rows]
  exact projectTimelineRows_window (windowCut_of_trusted hw ht hne) hne

end

end

/-! ## 2. The limited page -/

/-- **The windowed fast path agrees with the full projection.** For every timeline, direction,
    cursor and limit for which the limited fetch is trusted, each entry of the page built from it
    is an entry of the projection of all rows. -/
theorem limited_page_entries_mem_full_projection (state : AgentTimelineState)
    (hrows : RowsAscending state.rows) (direction : AgentTimelineFetchDirection)
    (cursor : Option AgentTimelineCursor) (pageLimit : Nat)
    (hlimited : shouldUseFullTimelineForProjectedPage
      (state.fetch ⟨some direction, cursor, some pageLimit⟩) pageLimit = false) :
    ∀ entry ∈ (selectProjectedTimelinePage
        ((SelectTimelineInput.page
          { controlTimeline := state.fetch ⟨some direction, cursor, some pageLimit⟩
            direction, cursor, pageLimit })
          (state.fetch ⟨some direction, cursor, some pageLimit⟩) none)).entries,
      entry ∈ projectTimelineRows state.rows .projected := by
  intro entry hentry
  obtain ⟨before, after, hw⟩ := fetch_window hrows ⟨some direction, cursor, some pageLimit⟩
  generalize state.fetch ⟨some direction, cursor, some pageLimit⟩ = timeline at hlimited hentry hw
  have hmem : entry ∈ projectTimelineRows timeline.rows .projected :=
    selectProjectedTimelinePage_subset (fun _ h => (Option.not_mem_none _ h).elim) hentry
  have hne : timeline.rows ≠ [] := by
    intro hnil
    rw [hnil] at hmem
    exact absurd hmem List.not_mem_nil
  obtain ⟨left, right, hall, _, _⟩ :=
    trusted_window hw (trustedFetch_of_not_full hlimited hne) hne
  rw [hall]
  exact List.mem_append_left _ (List.mem_append_right _ hmem)

/-- Two prompts, an answer and a prompt, asked for the last three before a fifth row. -/
def promptsAndAnswer : AgentTimelineState where
  epoch := "e"
  rows :=
    [⟨1, "t1", .userMessage "one" none none, none, none⟩,
      ⟨2, "t2", .userMessage "two" none none, none, none⟩,
      ⟨3, "t3", .assistantMessage "answer" none, none, none⟩,
      ⟨4, "t4", .userMessage "three" none none, none, none⟩,
      ⟨5, "t5", .assistantMessage "more" none, none, none⟩]
  nextSeq := 6

theorem limited_page_prompts_and_answer :
    shouldUseFullTimelineForProjectedPage
      (promptsAndAnswer.fetch ⟨some .before, some ⟨"e", 5⟩, some (3 : Nat)⟩) 3 = false ∧
    ∀ entry ∈ (selectProjectedTimelinePage
        ((SelectTimelineInput.page
          { controlTimeline := promptsAndAnswer.fetch ⟨some .before, some ⟨"e", 5⟩, some (3 : Nat)⟩
            direction := .before, cursor := some ⟨"e", 5⟩, pageLimit := 3 })
          (promptsAndAnswer.fetch ⟨some .before, some ⟨"e", 5⟩, some (3 : Nat)⟩) none)).entries,
      entry ∈ projectTimelineRows promptsAndAnswer.rows .projected :=
  ⟨by decide, limited_page_entries_mem_full_projection promptsAndAnswer
    (by simp [RowsAscending, promptsAndAnswer]) .before (some ⟨"e", 5⟩) 3 (by decide)⟩

end Frogg.Server
