/-
  Subject:   Selecting a page of projected entries (server/agent/timeline-projection.ts,
             lines 296-594).

  `Infinity` and `-Infinity` as the bounds of no entries are `none`.
-/
import Frogg.Library.Limit
import Frogg.Server.TimelineProjection
import Mathlib.Data.List.Sort

namespace Frogg.Server

open Library List

inductive TimelineLimitDirection where
  | tail | before | after
  deriving DecidableEq, Repr

/-! ## 1. The window at the end -/

structure TimelineBounds where
  minSeq : Int
  maxSeq : Int
  deriving DecidableEq, Repr

structure ProjectedWindowSelection where
  projectedEntries : List TimelineProjectionEntry
  selectedRows : List AgentTimelineRow
  minSeq : Option Int
  maxSeq : Option Int

def computeWindowBounds : List TimelineProjectionEntry → Option TimelineBounds
  | [] => none
  | e :: es => some (es.foldl
      (fun b entry => ⟨min b.minSeq entry.seqStart, max b.maxSeq entry.seqEnd⟩)
      ⟨e.seqStart, e.seqEnd⟩)

/-- `entry.seqStart <= maxSeq && entry.seqEnd >= minSeq` -/
def overlapsBounds (bounds : Option TimelineBounds) (entry : TimelineProjectionEntry) : Bool :=
  bounds.any fun b => decide (entry.seqStart ≤ b.maxSeq ∧ b.minSeq ≤ entry.seqEnd)

/-- The expanding loop, with the iterations it has left. -/
def expandWindow (projectedAll : List TimelineProjectionEntry) :
    Nat → List TimelineProjectionEntry → Option TimelineBounds →
      List TimelineProjectionEntry × Option TimelineBounds
  | 0, expandedEntries, bounds => (expandedEntries, bounds)
  | iterations + 1, expandedEntries, bounds =>
    let overlapping := projectedAll.filter (overlapsBounds bounds)
    let nextBounds := computeWindowBounds overlapping
    if overlapping.length = expandedEntries.length ∧ nextBounds = bounds then
      (overlapping, bounds)
    else expandWindow projectedAll iterations overlapping nextBounds

def selectTimelineWindowByProjectedLimit (rows : List AgentTimelineRow)
    (direction : TimelineLimitDirection) (limit : Nat) : ProjectedWindowSelection :=
  let projectedAll := projectTimelineRows rows .projected
  if projectedAll = [] then ⟨[], [], none, none⟩
  else
    let projectedEntries :=
      if direction = .after then takeFirst limit projectedAll else takeLast limit projectedAll
    if projectedEntries = [] then ⟨[], [], none, none⟩
    else
      let expanded := expandWindow projectedAll (projectedAll.length + 1) projectedEntries
        (computeWindowBounds projectedEntries)
      { projectedEntries := expanded.1
        selectedRows := rows.filter fun row =>
          expanded.2.any fun b => decide (b.minSeq ≤ row.seq ∧ row.seq ≤ b.maxSeq)
        minSeq := expanded.2.map (·.minSeq)
        maxSeq := expanded.2.map (·.maxSeq) }

/-! ## 2. Entries after a cursor -/

def getTimelineBounds (rows : List AgentTimelineRow) : Option TimelineBounds :=
  match rows.head?, rows.getLast? with
  | some first, some last => some ⟨first.seq, last.seq⟩
  | _, _ => none

def firstSourceSeqInRange (entry : TimelineProjectionEntry) (startSeq endSeq : Int) : Option Int :=
  entry.sourceSeqRanges.findSome? fun range =>
    let firstSeq := max range.startSeq startSeq
    if firstSeq ≤ min range.endSeq endSeq then some firstSeq else none

structure ProjectedEntryCandidate where
  entry : TimelineProjectionEntry
  index : Nat
  firstSourceSeq : Int

namespace ProjectedEntryCandidate

/-- `left.firstSourceSeq - right.firstSourceSeq || left.index - right.index` -/
def rankLe (left right : ProjectedEntryCandidate) : Prop :=
  left.firstSourceSeq < right.firstSourceSeq ∨
    (left.firstSourceSeq = right.firstSourceSeq ∧ left.index ≤ right.index)

instance : DecidableRel rankLe := fun left right => by unfold rankLe; infer_instance

def indexLe (left right : ProjectedEntryCandidate) : Prop := left.index ≤ right.index

instance : DecidableRel indexLe := fun left right => by unfold indexLe; infer_instance

end ProjectedEntryCandidate

/-- `left.startSeq - right.startSeq || left.endSeq - right.endSeq` -/
def rangeLe (left right : TimelineSeqRange) : Prop :=
  left.startSeq < right.startSeq ∨
    (left.startSeq = right.startSeq ∧ left.endSeq ≤ right.endSeq)

instance : DecidableRel rangeLe := fun left right => by unfold rangeLe; infer_instance

/-- The walk of rows against sorted ranges: how far the rows are covered without a gap. `ranges`
    are those from `rangeIndex` on. -/
def walkCovered (startSeq maxSeq : Int) :
    List AgentTimelineRow → Int → List TimelineSeqRange → Int
  | [], endSeq, _ => endSeq
  | row :: rows, endSeq, ranges =>
    if row.seq < startSeq then walkCovered startSeq maxSeq rows endSeq ranges
    else if maxSeq < row.seq ∨ row.seq ≠ endSeq + 1 then endSeq
    else
      match ranges.dropWhile (fun range => decide (range.endSeq < row.seq)) with
      | [] => endSeq
      | range :: rest =>
        if row.seq < range.startSeq ∨ range.endSeq < row.seq then endSeq
        else walkCovered startSeq maxSeq rows row.seq (range :: rest)

structure SelectedAfter where
  entries : List TimelineProjectionEntry
  endSeq : Option Int

/-- The candidates: every entry with a source in range, with its place and its first source. -/
def eligibleAfter (entries : List TimelineProjectionEntry) (startSeq maxSeq : Int) :
    List ProjectedEntryCandidate :=
  entries.zipIdx.filterMap fun p =>
    (firstSourceSeqInRange p.1 startSeq maxSeq).map fun first => ⟨p.1, p.2, first⟩

def selectProjectedEntriesAfter (entries : List TimelineProjectionEntry)
    (rows : List AgentTimelineRow) (startSeq maxSeq : Int) (limit : Nat) : SelectedAfter :=
  let eligible := (eligibleAfter entries startSeq maxSeq).insertionSort
    ProjectedEntryCandidate.rankLe
  let selected := takeFirst limit eligible
  let selectedEntries := (selected.insertionSort ProjectedEntryCandidate.indexLe).map (·.entry)
  if selectedEntries = [] then ⟨[], none⟩
  else
    let selectedRanges := (selectedEntries.flatMap (·.sourceSeqRanges)).insertionSort rangeLe
    let endSeq := walkCovered startSeq maxSeq rows (startSeq - 1) selectedRanges
    ⟨selectedEntries, if startSeq ≤ endSeq then some endSeq else none⟩

/-! ## 3. Entries before a cursor -/

structure SelectedBefore where
  entries : List TimelineProjectionEntry
  startSeq : Option Int
  hasOlder : Bool

def selectProjectedEntriesBefore (entries : List TimelineProjectionEntry) (endSeq : Int)
    (limit : Nat) : SelectedBefore :=
  let eligible := entries.filter fun entry => decide (entry.seqStart ≤ endSeq)
  let selected := takeLast limit eligible
  { entries := selected
    startSeq := selected.head?.map (·.seqStart)
    hasOlder := decide (selected.length < eligible.length) }

/-! ## 4. A page -/

structure ProjectedTimelinePageSelection where
  entries : List TimelineProjectionEntry
  startSeq : Option Int
  endSeq : Option Int
  hasOlder : Bool
  hasNewer : Bool

structure ProjectedTimelinePageInput where
  rows : List AgentTimelineRow
  bounds : Option TimelineBounds := none
  direction : TimelineLimitDirection
  cursorSeq : Option Int := none
  limit : Option Int := none
  projectedEntries : Option (List TimelineProjectionEntry) := none

variable (input : ProjectedTimelinePageInput)

/-- An absent limit reads as zero: every entry. -/
def ProjectedTimelinePageInput.entryLimit : Nat :=
  match input.limit with
  | none => 0
  | some requested => (max 0 requested).toNat

def selectProjectedTimelinePage : ProjectedTimelinePageSelection :=
  let limit := input.entryLimit
  let projectedAll := input.projectedEntries.getD (projectTimelineRows input.rows .projected)
  match input.bounds.or (getTimelineBounds input.rows) with
  | none => ⟨[], none, none, false, false⟩
  | some bounds =>
    if projectedAll = [] then
      match input.direction with
      | .after =>
        let cursorSeq := input.cursorSeq.getD (bounds.minSeq - 1)
        ⟨[], none, none, decide (bounds.minSeq ≤ cursorSeq), decide (cursorSeq < bounds.maxSeq)⟩
      | .before =>
        let cursorSeq := input.cursorSeq.getD (bounds.maxSeq + 1)
        ⟨[], none, none, decide (bounds.minSeq < cursorSeq), decide (cursorSeq ≤ bounds.maxSeq)⟩
      | .tail => ⟨[], none, none, false, false⟩
    else
      match input.direction with
      | .tail =>
        let selected := selectTimelineWindowByProjectedLimit input.rows .tail limit
        { entries := selected.projectedEntries
          startSeq := selected.minSeq
          endSeq := selected.maxSeq
          hasOlder := selected.minSeq.any fun seq => decide (bounds.minSeq < seq)
          hasNewer := false }
      | .after =>
        let cursorSeq := input.cursorSeq.getD (bounds.minSeq - 1)
        let startSeq := max bounds.minSeq (cursorSeq + 1)
        let selected :=
          selectProjectedEntriesAfter projectedAll input.rows startSeq bounds.maxSeq limit
        { entries := selected.entries
          startSeq := selected.endSeq.map fun _ => startSeq
          endSeq := selected.endSeq
          hasOlder := decide (bounds.minSeq < startSeq)
          hasNewer := selected.endSeq.any fun seq => decide (seq < bounds.maxSeq) }
      | .before =>
        let cursorSeq := input.cursorSeq.getD (bounds.maxSeq + 1)
        let endSeq := min bounds.maxSeq (cursorSeq - 1)
        if endSeq < bounds.minSeq then
          ⟨[], none, none, false, decide (endSeq < bounds.maxSeq)⟩
        else
          let selected := selectProjectedEntriesBefore projectedAll endSeq limit
          { entries := selected.entries
            startSeq := selected.startSeq
            endSeq := some endSeq
            hasOlder := selected.hasOlder
            hasNewer := decide (endSeq < bounds.maxSeq) }

/-! ## 5. A page shows entries of the projection -/

theorem expandWindow_subset {projectedAll : List TimelineProjectionEntry} (iterations : Nat)
    {expanded : List TimelineProjectionEntry} {bounds : Option TimelineBounds}
    (h : expanded ⊆ projectedAll) :
    (expandWindow projectedAll iterations expanded bounds).1 ⊆ projectedAll := by
  induction iterations generalizing expanded bounds with
  | zero => exact h
  | succ iterations ih =>
    have hfilter : projectedAll.filter (overlapsBounds bounds) ⊆ projectedAll :=
      filter_subset_self _
    unfold expandWindow
    dsimp only
    split
    · exact hfilter
    · exact ih hfilter

theorem selectTimelineWindow_subset (rows : List AgentTimelineRow)
    (direction : TimelineLimitDirection) (limit : Nat) :
    (selectTimelineWindowByProjectedLimit rows direction limit).projectedEntries ⊆
      projectTimelineRows rows .projected := by
  unfold selectTimelineWindowByProjectedLimit
  by_cases hnil : projectTimelineRows rows .projected = []
  · rw [if_pos hnil]; exact nil_subset _
  rw [if_neg hnil]
  by_cases hsel : (if direction = .after then takeFirst limit (projectTimelineRows rows .projected)
      else takeLast limit (projectTimelineRows rows .projected)) = []
  · rw [if_pos hsel]; exact nil_subset _
  · rw [if_neg hsel]
    refine expandWindow_subset _ ?_
    split
    · exact takeFirst_subset _ _
    · exact takeLast_subset _ _

theorem eligibleAfter_entry {entries : List TimelineProjectionEntry} {startSeq maxSeq : Int}
    {c : ProjectedEntryCandidate} (hc : c ∈ eligibleAfter entries startSeq maxSeq) :
    c.entry ∈ entries ∧ firstSourceSeqInRange c.entry startSeq maxSeq = some c.firstSourceSeq := by
  obtain ⟨p, hp, hpc⟩ := mem_filterMap.mp hc
  obtain ⟨first, hfirst, rfl⟩ := Option.map_eq_some_iff.mp hpc
  exact ⟨(mem_zipIdx' hp).2 ▸ getElem_mem _, hfirst⟩

theorem selectAfter_subset (entries : List TimelineProjectionEntry)
    (rows : List AgentTimelineRow) (startSeq maxSeq : Int) (limit : Nat) :
    (selectProjectedEntriesAfter entries rows startSeq maxSeq limit).entries ⊆ entries := by
  unfold selectProjectedEntriesAfter
  dsimp only
  split
  · exact nil_subset _
  · intro e he
    obtain ⟨c, hc, rfl⟩ := mem_map.mp he
    rw [mem_insertionSort] at hc
    have hmem : c ∈ eligibleAfter entries startSeq maxSeq :=
      (mem_insertionSort _).mp (takeFirst_subset _ _ hc)
    exact (eligibleAfter_entry hmem).1

theorem selectBefore_subset (entries : List TimelineProjectionEntry) (endSeq : Int)
    (limit : Nat) : (selectProjectedEntriesBefore entries endSeq limit).entries ⊆ entries :=
  List.Subset.trans (takeLast_subset _ _) (filter_subset_self _)

theorem getD_eq_of_forall {α : Type} {o : Option α} {a : α} (h : ∀ x ∈ o, x = a) :
    o.getD a = a := by
  cases o with
  | none => rfl
  | some x => exact h x rfl

/-- **A page shows entries of the projection of its rows**, in whatever direction. -/
theorem selectProjectedTimelinePage_subset {input : ProjectedTimelinePageInput}
    (hproj : ∀ entries ∈ input.projectedEntries,
      entries = projectTimelineRows input.rows .projected) :
    (selectProjectedTimelinePage input).entries ⊆ projectTimelineRows input.rows .projected := by
  have hall := getD_eq_of_forall hproj
  unfold selectProjectedTimelinePage
  dsimp only
  rw [hall]
  split
  · exact nil_subset _
  · split
    · split <;> exact nil_subset _
    · split
      · exact selectTimelineWindow_subset _ _ _
      · exact selectAfter_subset _ _ _ _ _
      · split
        · exact nil_subset _
        · exact selectBefore_subset _ _ _

end Frogg.Server
