/-
  Subject:   What a row more, or a row less, does to the projection.

  * `starts_append`: a row more adds its own number to the `seqStart`s, or none; it moves no entry;
  * `projectTimelineRows_window`: a window of rows without tool calls, whose first and last row are
    no text chunks where rows lie beyond them, is projected on its own.
-/
import Frogg.Server.ProjectionSources

namespace Frogg.Server

open Library Protocol List

/-! ## 1. Entries that no chunk pass touches -/

theorem joinAssistant_inert {e : TimelineProjectionEntry} (h : e.item.isAssistantMessage = false) :
    Inert joinAssistant e := by
  constructor
  · intro a
    unfold joinAssistant
    split
    · rename_i _ _ _ _ _ he; rw [he] at h; cases h
    · rfl
  · intro b
    unfold joinAssistant
    split
    · rename_i _ _ _ _ he _; rw [he] at h; cases h
    · rfl

theorem joinReasoning_inert {e : TimelineProjectionEntry} (h : e.item.isReasoning = false) :
    Inert joinReasoning e := by
  constructor
  · intro a
    unfold joinReasoning
    split
    · rename_i _ _ _ he; rw [he] at h; cases h
    · rfl
  · intro b
    unfold joinReasoning
    split
    · rename_i _ _ he _; rw [he] at h; cases h
    · rfl

/-- Neither a text of the assistant nor a reasoning. -/
def AgentTimelineRow.isChunk (row : AgentTimelineRow) : Bool :=
  row.item.isAssistantMessage || row.item.isReasoning

/-! ## 2. A row more -/

/-- Two entries that start at the same row. -/
def SameStart (a b : TimelineProjectionEntry) : Prop := a.seqStart = b.seqStart

variable {xs ys : List TimelineProjectionEntry}

private theorem map_seqStart_of_forall₂ (h : List.Forall₂ SameStart xs ys) :
    xs.map (·.seqStart) = ys.map (·.seqStart) := by
  induction h with
  | nil => rfl
  | cons hab _ ih => rw [map_cons, map_cons, hab, ih]

variable {a b : TimelineProjectionEntry}

section

variable {R : TimelineProjectionEntry → TimelineProjectionEntry → Prop} (hrefl : ∀ a, R a a)
include hrefl

private theorem forall₂_set {i : Nat} (hi : xs[i]? = some a) (hab : R a b) :
    List.Forall₂ R xs (xs.set i b) := by
  induction xs generalizing i with
  | nil => simp at hi
  | cons x xs ih =>
    cases i with
    | zero =>
      obtain rfl : x = a := by simpa using hi
      exact .cons hab (forall₂_same.mpr fun y _ => hrefl y)
    | succ i => exact .cons (hrefl x) (ih (by simpa using hi))

private theorem forall₂_concat (init : List TimelineProjectionEntry) {z w : TimelineProjectionEntry}
    (hzw : R z w) : List.Forall₂ R (init ++ [z]) (init ++ [w]) := by
  induction init with
  | nil => exact .cons hzw .nil
  | cons x xs ih => exact .cons (hrefl x) ih

end

/-- A tool update that is merged into its call. -/
def Stretched (a b : TimelineProjectionEntry) : Prop :=
  a = b ∨ (SameStart a b ∧ a.item.isToolCall ∧ b.item.isToolCall)

/-- Two entries that the reasoning pass leaves alone, or the same entry. -/
def AlikeForReasoning (a b : TimelineProjectionEntry) : Prop :=
  a = b ∨ (SameStart a b ∧ Inert joinReasoning a ∧ Inert joinReasoning b)

private theorem toolCall_not_chunk {item : AgentTimelineItem} (h : item.isToolCall) :
    item.isAssistantMessage = false ∧ item.isReasoning = false := by
  cases item <;> simp_all [AgentTimelineItem.isToolCall, AgentTimelineItem.isAssistantMessage,
    AgentTimelineItem.isReasoning]

private theorem stretched_assistant (h : Stretched a b) :
    a = b ∨ ((SameStart a b ∧ a.item.isToolCall ∧ b.item.isToolCall) ∧
      Inert joinAssistant a ∧ Inert joinAssistant b) := by
  rcases h with rfl | ⟨hs, ha, hb⟩
  · exact .inl rfl
  · exact .inr ⟨⟨hs, ha, hb⟩, joinAssistant_inert (toolCall_not_chunk ha).1,
      joinAssistant_inert (toolCall_not_chunk hb).1⟩

theorem forall₂_assistant (h : List.Forall₂ Stretched xs ys) :
    List.Forall₂ AlikeForReasoning (mergeAssistantChunks xs) (mergeAssistantChunks ys) := by
  have h1 := mergeAdjacent_forall₂ joinsAlike_inert (h.imp fun _ _ => stretched_assistant)
  refine h1.imp fun a b hab => ?_
  rcases hab with rfl | ⟨⟨hs, ha, hb⟩, _, _⟩
  · exact .inl rfl
  · exact .inr ⟨hs, joinReasoning_inert (toolCall_not_chunk ha).2,
      joinReasoning_inert (toolCall_not_chunk hb).2⟩

theorem starts_reasoning (h : List.Forall₂ AlikeForReasoning xs ys) :
    (mergeReasoningChunks xs).map (·.seqStart) = (mergeReasoningChunks ys).map (·.seqStart) := by
  have h1 := mergeAdjacent_forall₂ joinsAlike_inert h
  refine map_seqStart_of_forall₂ (h1.imp fun a b hab => ?_)
  rcases hab with rfl | ⟨hs, _, _⟩
  · exact rfl
  · exact hs

private theorem starts_concat (output : List TimelineProjectionEntry)
    (entry : TimelineProjectionEntry) :
    (mergeReasoningChunks (output ++ [entry])).map (·.seqStart) =
        (mergeReasoningChunks output).map (·.seqStart) ∨
      (mergeReasoningChunks (output ++ [entry])).map (·.seqStart) =
        (mergeReasoningChunks output).map (·.seqStart) ++ [entry.seqStart] := by
  unfold mergeReasoningChunks
  rcases @mergeAdjacent_concat _ joinReasoning output entry with hr | ⟨init, z, w, hz, hj, hw⟩
  · right
    rw [hr, map_append]
    rfl
  · obtain ⟨_, _, _, _, _, _, rfl⟩ := joinReasoning_some hj; rw [hw, hz]; simp [mergeChunk]

/-- **A row more adds its own number to the starts, or none.** -/
theorem starts_append (rows : List AgentTimelineRow) (row : AgentTimelineRow) :
    starts (rows ++ [row]) = starts rows ∨ starts (rows ++ [row]) = starts rows ++ [row.seq] := by
  have hstarts : ∀ rows, starts rows =
      (mergeReasoningChunks (mergeAssistantChunks (collapseRows rows).output)).map (·.seqStart) :=
    fun _ => rfl
  rw [hstarts, hstarts, collapseRows_concat]
  rcases collapseStep_output (collapseRows rows) row.toEntry with hout | ⟨i, existing, merged,
    hi, hm, hout⟩
  · rw [hout]
    rcases @mergeAdjacent_concat _ joinAssistant (collapseRows rows).output row.toEntry with
      ha | ⟨init, z, w, hz, hj, hw⟩
    · have hconcat := starts_concat (mergeAssistantChunks (collapseRows rows).output) row.toEntry
      unfold mergeAssistantChunks at hconcat ⊢
      rw [ha]
      exact hconcat
    · -- the row is one more chunk of the last assistant text
      left
      obtain ⟨_, _, _, _, hzi, _, _, _, _, hwm⟩ := joinAssistant_some hj
      have hzw : AlikeForReasoning z w := .inr ⟨by rw [hwm]; rfl,
        joinReasoning_inert (by rw [hzi]; rfl), joinReasoning_inert (by rw [hwm]; rfl)⟩
      have hlist := forall₂_concat (fun a => .inl rfl) init hzw
      rw [← hw, ← hz] at hlist
      exact (starts_reasoning hlist).symm
  · left
    rw [hout]
    obtain ⟨⟨call, incoming, hcall, _, hmerged⟩, _, _, _, hstart, _, _⟩ :=
      mergeIdentityEntries_some hm
    have hsm : Stretched existing merged :=
      .inr ⟨hstart.symm, by rw [hcall]; rfl, by rw [hmerged]; rfl⟩
    have hlist := forall₂_set (fun a => .inl rfl) hi hsm
    exact (starts_reasoning (forall₂_assistant hlist)).symm

/-! ## 3. A window of rows -/

/-- Rows none of which is a tool call. -/
def NoToolCall (rows : List AgentTimelineRow) : Prop :=
  ∀ row ∈ rows, row.item.isToolCall = false

theorem collapseStep_noToolCall (s : CollapseState) {row : AgentTimelineRow}
    (h : row.item.isToolCall = false) :
    collapseStep s row.toEntry = { s with output := s.output ++ [row.toEntry] } := by
  unfold collapseStep
  rw [toEntry_item, timelineItemIdentity_eq_none.mpr h]

variable {window : List AgentTimelineRow}

theorem collapseRows_noToolCall (h : NoToolCall window) (before : List AgentTimelineRow) :
    (collapseRows (before ++ window)).output =
      (collapseRows before).output ++ makeCanonicalEntries window := by
  induction window using reverseRecOn with
  | nil => simp [makeCanonicalEntries]
  | append_singleton window row ih =>
    have hrow : row.item.isToolCall = false := h row (by simp)
    have hwindow : NoToolCall window := fun r hr => h r (by simp [hr])
    rw [← append_assoc, collapseRows_concat, collapseStep_noToolCall _ hrow]
    simp [ih hwindow, makeCanonicalEntries]

/-- The collapsing loop's output around a window: what stands before it, the window's own rows and
    what stands after it. -/
structure CollapsedAround (before window after : List AgentTimelineRow)
    (left right : List TimelineProjectionEntry) : Prop where
  output : (collapseRows (before ++ window ++ after)).output =
    left ++ makeCanonicalEntries window ++ right
  left_nil : before = [] → left = []
  right_nil : after = [] → right = []
  left_starts : ∀ e ∈ left, ∃ row ∈ before, row.seq = e.seqStart
  right_starts : ∀ e ∈ right, ∃ row ∈ after, row.seq = e.seqStart

variable {l : List TimelineProjectionEntry}

private theorem starts_set {i : Nat} (hi : l[i]? = some a)
    (hab : b.seqStart = a.seqStart) {P : Int → Prop} (hP : ∀ e ∈ l, P e.seqStart) :
    ∀ e ∈ l.set i b, P e.seqStart := by
  intro e he
  rcases mem_or_eq_of_mem_set he with he | rfl
  · exact hP e he
  · exact hab ▸ hP a (mem_of_getElem? hi)

private theorem output_starts (rows : List AgentTimelineRow) :
    ∀ e ∈ (collapseRows rows).output, ∃ row ∈ rows, row.seq = e.seqStart := by
  induction rows using reverseRecOn with
  | nil => simp [collapseRows, makeCanonicalEntries]
  | append_singleton rows row ih =>
    have ih' : ∀ e ∈ (collapseRows rows).output, ∃ r ∈ rows ++ [row], r.seq = e.seqStart := by
      intro e he
      obtain ⟨r, hr, hrs⟩ := ih e he
      exact ⟨r, by simp [hr], hrs⟩
    rw [collapseRows_concat]
    rcases collapseStep_output (collapseRows rows) row.toEntry with hout | ⟨i, existing, merged,
      hi, hm, hout⟩
    · intro e he
      rw [hout] at he
      rcases mem_append.mp he with he | he
      · exact ih' e he
      · obtain rfl := mem_singleton.mp he; exact ⟨row, by simp, rfl⟩
    · obtain ⟨_, _, _, _, hstart, _, _⟩ := mergeIdentityEntries_some hm
      rw [hout]
      exact starts_set (P := fun s => ∃ r ∈ rows ++ [row], r.seq = s) hi hstart ih'

/-- **A tool update after a window is merged before it or after it**, never into it. -/
theorem exists_collapsedAround (h : NoToolCall window) (before after : List AgentTimelineRow) :
    ∃ left right, CollapsedAround before window after left right := by
  induction after using reverseRecOn with
  | nil =>
    refine ⟨(collapseRows before).output, [], ?_, ?_, fun _ => rfl, output_starts before, by simp⟩
    · simpa using collapseRows_noToolCall h before
    · rintro rfl; rfl
  | append_singleton after row ih =>
    obtain ⟨left, right, hc⟩ := ih
    have hright : ∀ e ∈ right, ∃ r ∈ after ++ [row], r.seq = e.seqStart := by
      intro e he
      obtain ⟨r, hr, hrs⟩ := hc.right_starts e he
      exact ⟨r, by simp [hr], hrs⟩
    have hrows : collapseRows (before ++ window ++ (after ++ [row])) =
        collapseStep (collapseRows (before ++ window ++ after)) row.toEntry := by
      rw [← append_assoc, collapseRows_concat]
    rcases collapseStep_output (collapseRows (before ++ window ++ after)) row.toEntry with
      hout | ⟨i, existing, merged, hi, hm, hout⟩
    · refine ⟨left, right ++ [row.toEntry], ?_, hc.left_nil, by simp, hc.left_starts, ?_⟩
      · rw [hrows, hout, hc.output, append_assoc]
      · intro e he
        rcases mem_append.mp he with he | he
        · exact hright e he
        · obtain rfl := mem_singleton.mp he; exact ⟨row, by simp, rfl⟩
    · obtain ⟨⟨call, _, hcall, _, _⟩, _, _, _, hstart, _, _⟩ := mergeIdentityEntries_some hm
      rw [hc.output, append_assoc] at hi
      have hout : (collapseRows (before ++ window ++ (after ++ [row]))).output =
          (left ++ (makeCanonicalEntries window ++ right)).set i merged := by
        rw [hrows, hout, hc.output, append_assoc]
      by_cases hleft : i < left.length
      · rw [getElem?_append_left hleft] at hi
        refine ⟨left.set i merged, right, ?_, fun hb => ?_, by simp, ?_, hright⟩
        · rw [hout, set_append_left _ _ hleft, append_assoc]
        · rw [hc.left_nil hb] at hleft; exact absurd hleft (Nat.not_lt_zero _)
        · exact starts_set (P := fun s => ∃ r ∈ before, r.seq = s) hi hstart hc.left_starts
      · rw [getElem?_append_right (Nat.le_of_not_lt hleft)] at hi
        by_cases hwindow : i - left.length < (makeCanonicalEntries window).length
        · -- the window holds no tool call to merge into
          rw [getElem?_append_left hwindow] at hi
          obtain ⟨r, hr, rfl⟩ := mem_map.mp (mem_of_getElem? hi)
          have hno := h r hr
          rw [toEntry_item] at hcall
          rw [hcall] at hno
          cases hno
        · rw [getElem?_append_right (Nat.le_of_not_lt hwindow)] at hi
          refine ⟨left, right.set (i - left.length - (makeCanonicalEntries window).length) merged,
            ?_, hc.left_nil, by simp, hc.left_starts, ?_⟩
          · rw [hout, set_append_right _ _ (Nat.le_of_not_lt hleft),
              set_append_right _ _ (Nat.le_of_not_lt hwindow), append_assoc]
          · exact starts_set (P := fun s => ∃ r ∈ after ++ [row], r.seq = s) hi hstart hright

/-- Where rows lie before a window, its first row is no chunk; where rows lie after it, its last. -/
structure WindowCut (before window after : List AgentTimelineRow) : Prop where
  noToolCall : NoToolCall window
  first : before ≠ [] → ∀ row ∈ window.head?, row.isChunk = false
  last : after ≠ [] → ∀ row ∈ window.getLast?, row.isChunk = false

/-- The assistant pass, then the reasoning pass. -/
private def chunkPasses (entries : List TimelineProjectionEntry) : List TimelineProjectionEntry :=
  mergeReasoningChunks (mergeAssistantChunks entries)

private theorem chunkPasses_starts {P : Int → Prop}
    (h : ∀ e ∈ l, P e.seqStart) : ∀ e ∈ chunkPasses l, P e.seqStart := by
  have ha : ∀ e ∈ mergeAssistantChunks l, P e.seqStart := by
    refine mergeAdjacent_forall (fun a b c hp _ hj => ?_) h
    obtain ⟨_, _, _, _, _, _, _, _, _, rfl⟩ := joinAssistant_some hj
    exact hp
  refine mergeAdjacent_forall (fun a b c hp _ hj => ?_) ha
  obtain ⟨_, _, _, _, _, _, rfl⟩ := joinReasoning_some hj
  exact hp

private theorem chunk_split {row : AgentTimelineRow} (h : row.isChunk = false) :
    Inert joinAssistant row.toEntry ∧ Inert joinReasoning row.toEntry := by
  have hsplit : row.item.isAssistantMessage = false ∧ row.item.isReasoning = false := by
    simpa [AgentTimelineRow.isChunk] using h
  exact ⟨joinAssistant_inert hsplit.1, joinReasoning_inert hsplit.2⟩

/-- Both passes stop at a row that is no chunk. -/
private theorem chunkPasses_window {left right : List TimelineProjectionEntry}
    (hl : left = [] ∨ ∃ row rows, window = row :: rows ∧ row.isChunk = false)
    (hr : right = [] ∨ ∃ rows row, window = rows ++ [row] ∧ row.isChunk = false) :
    chunkPasses (left ++ makeCanonicalEntries window ++ right) =
      chunkPasses left ++ chunkPasses (makeCanonicalEntries window) ++ chunkPasses right := by
  have hcons : ∀ row rows, makeCanonicalEntries (row :: rows) =
      row.toEntry :: makeCanonicalEntries rows := fun _ _ => rfl
  have hconcat : ∀ rows row, makeCanonicalEntries (rows ++ [row]) =
      makeCanonicalEntries rows ++ [row.toEntry] := fun rows row => by
    simp [makeCanonicalEntries]
  have h1 : mergeAssistantChunks (left ++ makeCanonicalEntries window ++ right) =
      mergeAssistantChunks left ++ mergeAssistantChunks (makeCanonicalEntries window) ++
        mergeAssistantChunks right := by
    refine mergeAdjacent_window ?_ ?_
    · rcases hl with rfl | ⟨row, rows, rfl, hrow⟩
      · exact .inl rfl
      · exact .inr ⟨_, _, hcons row rows, (chunk_split hrow).1⟩
    · rcases hr with rfl | ⟨rows, row, rfl, hrow⟩
      · exact .inl rfl
      · exact .inr ⟨_, _, hconcat rows row, (chunk_split hrow).1⟩
  unfold chunkPasses
  rw [h1]
  refine mergeAdjacent_window ?_ ?_
  · rcases hl with rfl | ⟨row, rows, rfl, hrow⟩
    · exact .inl rfl
    · exact .inr ⟨_, _, mergeAdjacent_cons_inert (chunk_split hrow).1 _, (chunk_split hrow).2⟩
  · rcases hr with rfl | ⟨rows, row, rfl, hrow⟩
    · exact .inl rfl
    · rw [hconcat]
      exact .inr ⟨_, _, mergeAdjacent_concat_inert (chunk_split hrow).1 _, (chunk_split hrow).2⟩

/-- **A cut window is projected on its own**: its entries stand in the projection of all rows, in
    one piece, between entries that start before it and entries that start after it. -/
theorem projectTimelineRows_window {before after : List AgentTimelineRow}
    (h : WindowCut before window after) (hne : window ≠ []) : ∃ left right,
      projectTimelineRows (before ++ window ++ after) .projected =
        left ++ projectTimelineRows window .projected ++ right ∧
      (∀ e ∈ left, ∃ row ∈ before, row.seq = e.seqStart) ∧
      (∀ e ∈ right, ∃ row ∈ after, row.seq = e.seqStart) := by
  obtain ⟨left, right, hc⟩ := exists_collapsedAround h.noToolCall before after
  have hwindow : projectTimelineRows window .projected =
      chunkPasses (makeCanonicalEntries window) :=
    congrArg chunkPasses (collapseRows_noToolCall h.noToolCall [])
  have hall : projectTimelineRows (before ++ window ++ after) .projected =
      chunkPasses (left ++ makeCanonicalEntries window ++ right) :=
    congrArg chunkPasses hc.output
  have hl : left = [] ∨ ∃ row rows, window = row :: rows ∧ row.isChunk = false := by
    by_cases hb : before = []
    · exact .inl (hc.left_nil hb)
    · obtain ⟨row, rows, rfl⟩ := exists_cons_of_ne_nil hne
      exact .inr ⟨row, rows, rfl, h.first hb row (by simp)⟩
  have hr : right = [] ∨ ∃ rows row, window = rows ++ [row] ∧ row.isChunk = false := by
    by_cases ha : after = []
    · exact .inl (hc.right_nil ha)
    · obtain rfl | ⟨rows, row, rfl⟩ := eq_nil_or_concat window
      · exact absurd rfl hne
      · exact .inr ⟨rows, row, by simp, h.last ha row (by simp)⟩
  refine ⟨chunkPasses left, chunkPasses right, ?_, ?_, ?_⟩
  · rw [hall, hwindow, chunkPasses_window hl hr]
  · exact chunkPasses_starts (P := fun s => ∃ row ∈ before, row.seq = s) hc.left_starts
  · exact chunkPasses_starts (P := fun s => ∃ row ∈ after, row.seq = s) hc.right_starts

end Frogg.Server
