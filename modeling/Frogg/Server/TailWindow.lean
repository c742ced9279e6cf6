/-
  Subject:   The tail page is a suffix of the projection.

  Tool updates stretch an entry's `seqEnd` over later rows, so the page at the end is widened until
  no entry outside it overlaps its range of rows.

  * `expandWindow_closed`: every round but the last adds an entry, so the rounds suffice to close;
  * `selectTail_spec`: the closed window is the entries that start at or above some entry's start,
    and it ends at the last row.
-/
import Frogg.Library.SortedFilter
import Frogg.Server.TimelineServer

namespace Frogg.Server

open Library List

/-! ## 1. Bounds -/

/-- The smallest `seqStart` and the largest `seqEnd`, each that of some entry. -/
structure BoundsOf (entries : List TimelineProjectionEntry) (b : TimelineBounds) : Prop where
  lower : ∀ e ∈ entries, b.minSeq ≤ e.seqStart
  upper : ∀ e ∈ entries, e.seqEnd ≤ b.maxSeq
  attained : ∃ e ∈ entries, e.seqStart = b.minSeq
  reached : ∃ e ∈ entries, e.seqEnd = b.maxSeq

private def widen (b : TimelineBounds) (entry : TimelineProjectionEntry) : TimelineBounds :=
  ⟨min b.minSeq entry.seqStart, max b.maxSeq entry.seqEnd⟩

private theorem boundsOf_concat {entries : List TimelineProjectionEntry} {b : TimelineBounds}
    (h : BoundsOf entries b) (entry : TimelineProjectionEntry) :
    BoundsOf (entries ++ [entry]) (widen b entry) where
  lower e he := by
    show min b.minSeq entry.seqStart ≤ e.seqStart
    rcases mem_append.mp he with he | he
    · have := h.lower e he
      omega
    · obtain rfl := mem_singleton.mp he; omega
  upper e he := by
    show e.seqEnd ≤ max b.maxSeq entry.seqEnd
    rcases mem_append.mp he with he | he
    · have := h.upper e he
      omega
    · obtain rfl := mem_singleton.mp he; omega
  attained := by
    by_cases hle : b.minSeq ≤ entry.seqStart
    · obtain ⟨e, he, heq⟩ := h.attained
      exact ⟨e, mem_append_left _ he, by simp only [widen]; omega⟩
    · exact ⟨entry, by simp, by simp only [widen]; omega⟩
  reached := by
    by_cases hle : entry.seqEnd ≤ b.maxSeq
    · obtain ⟨e, he, heq⟩ := h.reached; exact ⟨e, mem_append_left _ he, by simp only [widen]; omega⟩
    · exact ⟨entry, by simp, by simp only [widen]; omega⟩

theorem computeWindowBounds_spec {entries : List TimelineProjectionEntry} (hne : entries ≠ []) :
    ∃ b, computeWindowBounds entries = some b ∧ BoundsOf entries b := by
  obtain ⟨e, es, rfl⟩ := exists_cons_of_ne_nil hne
  refine ⟨es.foldl widen ⟨e.seqStart, e.seqEnd⟩, rfl, ?_⟩
  induction es using reverseRecOn with
  | nil =>
    exact ⟨fun x hx => by rw [mem_singleton.mp hx]; exact Int.le_refl _,
      fun x hx => by rw [mem_singleton.mp hx]; exact Int.le_refl _,
      ⟨e, by simp, rfl⟩, ⟨e, by simp, rfl⟩⟩
  | append_singleton es entry ih =>
    have h := boundsOf_concat (ih (cons_ne_nil _ _)) entry
    rw [foldl_append]
    exact h

/-! ## 2. The expanding loop -/

/-- A selection that is all the entries overlapping its own bounds. -/
structure ClosedWindow (projectedAll expanded : List TimelineProjectionEntry)
    (b : TimelineBounds) : Prop where
  closed : expanded = projectedAll.filter (overlapsBounds (some b))
  bounds : BoundsOf expanded b

/-- Every entry of a selection overlaps the selection's bounds. -/
theorem sublist_overlapping {projectedAll expanded : List TimelineProjectionEntry}
    {b : TimelineBounds} (hsub : expanded.Sublist projectedAll)
    (hok : ∀ e ∈ projectedAll, e.seqStart ≤ e.seqEnd) (hb : BoundsOf expanded b) :
    expanded.Sublist (projectedAll.filter (overlapsBounds (some b))) := by
  have hself : expanded.filter (overlapsBounds (some b)) = expanded := by
    refine filter_eq_self.mpr fun e he => ?_
    have h1 := hb.lower e he
    have h2 := hb.upper e he
    have h3 := hok e (hsub.subset he)
    simp only [overlapsBounds, Option.any_some, decide_eq_true_eq]
    omega
  have hfilter := hsub.filter (overlapsBounds (some b))
  rw [hself] at hfilter
  exact hfilter

/-- **The loop closes.** A round that does not stop adds an entry, so there are never more rounds
    than entries. -/
theorem expandWindow_closed {projectedAll : List TimelineProjectionEntry}
    (hok : ∀ e ∈ projectedAll, e.seqStart ≤ e.seqEnd) (iterations : Nat)
    {expanded : List TimelineProjectionEntry} (hsub : expanded.Sublist projectedAll)
    (hne : expanded ≠ []) (hfuel : projectedAll.length < expanded.length + iterations) :
    ∃ b, (expandWindow projectedAll iterations expanded (computeWindowBounds expanded)).2 = some b ∧
      ClosedWindow projectedAll
        (expandWindow projectedAll iterations expanded (computeWindowBounds expanded)).1 b ∧
      expanded ⊆ (expandWindow projectedAll iterations expanded (computeWindowBounds expanded)).1 := by
  induction iterations generalizing expanded with
  | zero =>
    have hle := hsub.length_le
    omega
  | succ iterations ih =>
    obtain ⟨b, hb, hbounds⟩ := computeWindowBounds_spec hne
    have hgrow := sublist_overlapping hsub hok hbounds
    have hle := hgrow.length_le
    unfold expandWindow
    rw [hb]
    by_cases hlen : (projectedAll.filter (overlapsBounds (some b))).length = expanded.length
    · -- nothing is added: the bounds are the same as well
      have heq : expanded = projectedAll.filter (overlapsBounds (some b)) :=
        hgrow.eq_of_length hlen.symm
      have hstop : (projectedAll.filter (overlapsBounds (some b))).length = expanded.length ∧
          computeWindowBounds (projectedAll.filter (overlapsBounds (some b))) = some b :=
        ⟨hlen, by rw [← heq, hb]⟩
      rw [if_pos hstop]
      exact ⟨b, rfl, ⟨rfl, heq ▸ hbounds⟩, hgrow.subset⟩
    · rw [if_neg (fun h => hlen h.1)]
      have hne' : projectedAll.filter (overlapsBounds (some b)) ≠ [] := by
        intro hnil
        rw [hnil] at hgrow
        exact hne (sublist_nil.mp hgrow)
      obtain ⟨b', hb', hclosed, hsubset⟩ := ih filter_sublist hne' (by omega)
      exact ⟨b', hb', hclosed, List.Subset.trans hgrow.subset hsubset⟩

/-! ## 3. The tail of a projection -/

variable {rows : List AgentTimelineRow}

theorem project_keyAscending (hasc : RowsAscending rows) :
    KeyAscending TimelineProjectionEntry.seqStart (projectTimelineRows rows .projected) :=
  pairwise_map.mp (starts_pairwise hasc)

theorem project_ne_nil (hasc : RowsAscending rows) (hne : rows ≠ []) :
    projectTimelineRows rows .projected ≠ [] := by
  obtain ⟨row, rest, rfl⟩ := exists_cons_of_ne_nil hne
  obtain ⟨e, he, _⟩ := exists_source hasc mem_cons_self
  exact ne_nil_of_mem he

/-- Where a selection of the tail starts and what it holds. -/
structure TailSelection (rows : List AgentTimelineRow) (selected : ProjectedWindowSelection)
    (start lastSeq : Int) : Prop where
  start_mem : start ∈ starts rows
  minSeq : selected.minSeq = some start
  maxSeq : selected.maxSeq = some lastSeq
  entries : selected.projectedEntries =
    (projectTimelineRows rows .projected).filter fun e => decide (start ≤ e.seqStart)

/-- **The tail is a suffix of the projection, up to the last row.** Closed under overlap it holds
    the last entry, hence all that reach into it, hence all that start no earlier. -/
theorem selectTail_spec (hasc : RowsAscending rows) {last : AgentTimelineRow} (hlast : last ∈ rows)
    (hmax : ∀ row ∈ rows, row.seq ≤ last.seq) (limit : Nat) :
    ∃ start, TailSelection rows (selectTimelineWindowByProjectedLimit rows .tail limit) start
      last.seq := by
  have hP : projectTimelineRows rows .projected ≠ [] := project_ne_nil hasc (ne_nil_of_mem hlast)
  have hkeys := project_keyAscending hasc
  have hok := fun e he => @projectTimelineRows_ok rows hasc e he
  have hsource : ∀ e ∈ projectTimelineRows rows .projected, e.seqEnd ≤ last.seq := by
    intro e he
    obtain ⟨row, hrow, hseq⟩ := source_row hasc he (hok e he).seqEnd_mem
    exact hseq ▸ hmax row hrow
  unfold selectTimelineWindowByProjectedLimit
  have htail : ¬TimelineLimitDirection.tail = .after := by decide
  rw [if_neg hP, if_neg htail]
  have hsel : takeLast limit (projectTimelineRows rows .projected) ≠ [] :=
    fun h => hP (takeLast_eq_nil.mp h)
  rw [if_neg hsel]
  obtain ⟨front, hsplit⟩ := takeLast_split limit (projectTimelineRows rows .projected)
  have hsub : (takeLast limit (projectTimelineRows rows .projected)).Sublist
      (projectTimelineRows rows .projected) := by
    conv_rhs => rw [hsplit]
    exact sublist_append_right _ _
  obtain ⟨b, hb, hclosed, hsubset⟩ := expandWindow_closed
    (fun e he => (hok e he).seqStart_le_seqEnd)
    ((projectTimelineRows rows .projected).length + 1) hsub hsel (by omega)
  generalize expandWindow (projectTimelineRows rows .projected)
    ((projectTimelineRows rows .projected).length + 1)
    (takeLast limit (projectTimelineRows rows .projected))
    (computeWindowBounds (takeLast limit (projectTimelineRows rows .projected))) = result
    at hb hclosed hsubset ⊢
  -- the last entry in display order is in the window, so every entry starts below its end
  have hstarts : ∀ e ∈ projectTimelineRows rows .projected, e.seqStart ≤ b.maxSeq := by
    obtain hnil | ⟨init, final, hfinal⟩ :=
      eq_nil_or_concat (takeLast limit (projectTimelineRows rows .projected))
    · exact absurd hnil hsel
    have hfmem : final ∈ takeLast limit (projectTimelineRows rows .projected) := by
      rw [hfinal]
      simp
    have hfend := hclosed.bounds.upper final (hsubset hfmem)
    have hfok := (hok final (hsub.subset hfmem)).seqStart_le_seqEnd
    intro e he
    have hle : e.seqStart ≤ final.seqStart := by
      rw [hsplit, hfinal, concat_eq_append, ← append_assoc] at he hkeys
      rcases mem_append.mp he with he | he
      · exact Int.le_of_lt ((pairwise_append.mp hkeys).2.2 e he final (by simp))
      · rw [mem_singleton.mp he]
    omega
  have hmem : ∀ e ∈ projectTimelineRows rows .projected,
      e ∈ result.1 ↔ b.minSeq ≤ e.seqEnd := by
    intro e he
    rw [hclosed.closed, mem_filter]
    simp only [overlapsBounds, Option.any_some, decide_eq_true_eq]
    have h := hstarts e he
    exact ⟨fun h => h.2.2, fun h' => ⟨he, h, h'⟩⟩
  have hresult : ∀ e ∈ result.1, e ∈ projectTimelineRows rows .projected := by
    intro e he
    rw [hclosed.closed] at he
    exact mem_of_mem_filter he
  have hbmax : b.maxSeq = last.seq := by
    obtain ⟨e, he, hend⟩ := hclosed.bounds.reached
    obtain ⟨f, hf, hfs⟩ := exists_source hasc hlast
    have h1 := hsource e (hresult e he)
    have h2 := (hok f hf).le_seqEnd hfs
    obtain ⟨a, ha, hstart⟩ := hclosed.bounds.attained
    have h5 := (hok a (hresult a ha)).seqStart_le_seqEnd
    have h6 := hsource a (hresult a ha)
    have h7 := hclosed.bounds.upper f ((hmem f hf).mpr (by omega))
    omega
  obtain ⟨a, ha, hstart⟩ := hclosed.bounds.attained
  refine ⟨b.minSeq, ⟨?_, ?_, ?_, ?_⟩⟩
  · exact hstart ▸ mem_map_of_mem (hresult a ha)
  · simp [hb]
  · simp [hb, hbmax]
  · have hfilter : result.1 = (projectTimelineRows rows .projected).filter
        (overlapsBounds (some b)) := hclosed.closed
    show result.1 = _
    rw [hfilter]
    refine filter_congr fun e he => ?_
    have hiff := hmem e he
    have hle := (hok e he).seqStart_le_seqEnd
    have h := hstarts e he
    simp only [overlapsBounds, Option.any_some, decide_eq_decide]
    constructor
    · intro h'; exact hclosed.bounds.lower e (hiff.mpr h'.2)
    · intro h'; exact ⟨h, by omega⟩

end Frogg.Server
