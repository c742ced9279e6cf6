/-
  Subject:   Catching up from a cursor.

  * `walkCovered_spec`, `walkCovered_progress`: the walk advances over covered rows only, and past
    the first missing row;
  * `after_page_advances`: a page ends past the cursor and covers all it has passed;
  * `catchUp`: asking from the end of one page for the next terminates with every later row covered.
-/
import Frogg.Server.TimelineServer
import Mathlib.Data.List.TakeWhile

namespace Frogg.Server

open Library Protocol List Option

/-! ## 1. The candidates -/

/-- Some range holds `seq`. -/
def Covers (ranges : List TimelineSeqRange) (seq : Int) : Prop :=
  ∃ range ∈ ranges, range.startSeq ≤ seq ∧ seq ≤ range.endSeq

variable {startSeq maxSeq : Int} {entry : TimelineProjectionEntry}

theorem firstSourceSeq_some {first : Int}
    (h : firstSourceSeqInRange entry startSeq maxSeq = some first) :
    startSeq ≤ first ∧ Covers entry.sourceSeqRanges first := by
  obtain ⟨range, hr, hfirst⟩ := exists_of_findSome?_eq_some h
  dsimp only at hfirst
  split at hfirst
  · obtain rfl := some.inj hfirst; exact ⟨by omega, range, hr, by omega, by omega⟩
  · cases hfirst

/-- **An entry that covers the first missing row** has it as its first source in range: the ranges
    before the one that holds it end too early to count. -/
theorem firstSourceSeq_start (hasc : Ascending entry.sourceSeqRanges)
    (hcov : Covers entry.sourceSeqRanges startSeq) (hle : startSeq ≤ maxSeq) :
    firstSourceSeqInRange entry startSeq maxSeq = some startSeq := by
  obtain ⟨range, hr, h1, h2⟩ := hcov
  obtain ⟨pre, post, hsplit⟩ := append_of_mem hr
  have hpre : ∀ r ∈ pre, r.endSeq < startSeq := by
    intro r hrp
    have hpw := hasc.2
    rw [hsplit] at hpw
    have hlt := (pairwise_append.mp hpw).2.2 r hrp range (by simp)
    omega
  unfold firstSourceSeqInRange
  rw [hsplit, findSome?_append]
  have hnone : pre.findSome? (fun range =>
      let firstSeq := max range.startSeq startSeq
      if firstSeq ≤ min range.endSeq maxSeq then some firstSeq else none) = none := by
    refine findSome?_eq_none_iff.mpr fun r hrp => if_neg ?_
    have hlt := hpre r hrp
    omega
  have hmax : max range.startSeq startSeq = startSeq := by omega
  have hmin : startSeq ≤ min range.endSeq maxSeq := by omega
  rw [hnone, none_or, findSome?_cons]
  simp only [hmax, if_pos hmin]

section

open ProjectedEntryCandidate

instance : Std.Total rankLe := ⟨fun a b => by unfold rankLe; omega⟩

instance : IsTrans ProjectedEntryCandidate rankLe := ⟨fun a b c => by unfold rankLe; omega⟩

instance : Std.Total rangeLe := ⟨fun a b => by unfold rangeLe; omega⟩

instance : IsTrans TimelineSeqRange rangeLe := ⟨fun a b c => by unfold rangeLe; omega⟩

variable {entries : List TimelineProjectionEntry} {startSeq maxSeq : Int}

theorem mem_eligibleAfter (he : entry ∈ entries) {first : Int}
    (hfirst : firstSourceSeqInRange entry startSeq maxSeq = some first) :
    ∃ c ∈ eligibleAfter entries startSeq maxSeq, c.firstSourceSeq = first := by
  obtain ⟨i, hi, rfl⟩ := getElem_of_mem he
  refine ⟨⟨entries[i], i, first⟩, mem_filterMap.mpr ⟨(entries[i], i), ?_, ?_⟩, rfl⟩
  · exact mem_zipIdx_iff_getElem?.mpr (getElem?_eq_getElem hi)
  · simp [hfirst]

/-- **The first of the ranked candidates covers the first missing row**, and no limit drops it. -/
theorem exists_ranked_first (he : entry ∈ entries) (hasc : Ascending entry.sourceSeqRanges)
    (hcov : Covers entry.sourceSeqRanges startSeq) (hle : startSeq ≤ maxSeq) (limit : Nat) :
    ∃ c ∈ takeFirst limit ((eligibleAfter entries startSeq maxSeq).insertionSort rankLe),
      Covers c.entry.sourceSeqRanges startSeq := by
  obtain ⟨c, hc, hfirst⟩ := mem_eligibleAfter he (firstSourceSeq_start hasc hcov hle)
  have hsorted := pairwise_insertionSort rankLe (eligibleAfter entries startSeq maxSeq)
  have hmem := (mem_insertionSort rankLe).mpr hc
  cases hs : (eligibleAfter entries startSeq maxSeq).insertionSort rankLe with
  | nil => rw [hs] at hmem; exact absurd hmem not_mem_nil
  | cons d ds =>
    rw [hs] at hmem hsorted
    have hd : d ∈ eligibleAfter entries startSeq maxSeq :=
      (mem_insertionSort rankLe).mp (hs ▸ mem_cons_self)
    obtain ⟨hge, hdcov⟩ := firstSourceSeq_some (eligibleAfter_entry hd).2
    have hdfirst : d.firstSourceSeq = startSeq := by
      rcases mem_cons.mp hmem with rfl | hmem
      · exact hfirst
      · have hrank := rel_of_pairwise_cons hsorted hmem
        unfold rankLe at hrank
        omega
    refine ⟨d, ?_, hdfirst ▸ hdcov⟩
    unfold takeFirst
    split
    · exact mem_cons_self
    · rename_i hlimit; obtain ⟨n, rfl⟩ := Nat.exists_eq_succ_of_ne_zero hlimit; exact mem_cons_self

end

/-! ## 2. The walk -/

/-- **The walk advances over covered numbers only**, and never past `maxSeq`. -/
theorem walkCovered_spec (startSeq maxSeq : Int) (rows : List AgentTimelineRow) (endSeq : Int)
    (ranges : List TimelineSeqRange) :
    endSeq ≤ walkCovered startSeq maxSeq rows endSeq ranges ∧
    (walkCovered startSeq maxSeq rows endSeq ranges = endSeq ∨
      walkCovered startSeq maxSeq rows endSeq ranges ≤ maxSeq) ∧
    ∀ seq, endSeq < seq → seq ≤ walkCovered startSeq maxSeq rows endSeq ranges →
      Covers ranges seq := by
  have hstop : endSeq ≤ endSeq ∧ (endSeq = endSeq ∨ endSeq ≤ maxSeq) ∧
      ∀ seq, endSeq < seq → seq ≤ endSeq → Covers ranges seq :=
    ⟨Int.le_refl _, .inl rfl, fun seq h1 h2 => absurd h1 (by omega)⟩
  induction rows generalizing endSeq ranges with
  | nil => exact hstop
  | cons row rows ih =>
    unfold walkCovered
    split
    · exact ih endSeq ranges hstop
    · split
      · exact hstop
      · have hsub : ranges.dropWhile (fun range => decide (range.endSeq < row.seq)) ⊆ ranges :=
          (dropWhile_suffix _).subset
        split
        · exact hstop
        · rename_i range rest hdrop
          split
          · exact hstop
          · obtain ⟨h1, h2, h3⟩ := ih row.seq (range :: rest)
              ⟨Int.le_refl _, .inl rfl, fun seq h1 h2 => absurd h1 (by omega)⟩
            refine ⟨by omega, .inr (by omega), fun seq hlt hle => ?_⟩
            by_cases hrow : seq = row.seq
            · refine ⟨range, hsub (hdrop ▸ mem_cons_self), ?_, ?_⟩
              · omega
              · omega
            · obtain ⟨r, hr, hcov⟩ := h3 seq (by omega) hle; exact ⟨r, hsub (hdrop ▸ hr), hcov⟩

variable {rows : List AgentTimelineRow}

/-- **The walk passes the first missing row** where some range holds it: in the order of the ranges
    none of those that end before it is in the way, and the first that does not starts no later. -/
theorem walkCovered_progress {ranges : List TimelineSeqRange}
    (hasc : RowsAscending rows) (hrow : ∃ row ∈ rows, row.seq = startSeq) (hle : startSeq ≤ maxSeq)
    (hsorted : ranges.Pairwise rangeLe) (hcov : Covers ranges startSeq) :
    startSeq ≤ walkCovered startSeq maxSeq rows (startSeq - 1) ranges := by
  induction rows with
  | nil => obtain ⟨row, hmem, _⟩ := hrow; exact absurd hmem not_mem_nil
  | cons row rows ih =>
    have hcons := pairwise_cons.mp hasc
    obtain ⟨first, hmem, hfirst⟩ := hrow
    unfold walkCovered
    by_cases hskip : row.seq < startSeq
    · rw [if_pos hskip]
      refine ih hcons.2 ?_
      rcases mem_cons.mp hmem with rfl | hmem
      · omega
      · exact ⟨first, hmem, hfirst⟩
    · have hseq : row.seq = startSeq := by
        rcases mem_cons.mp hmem with rfl | hmem
        · exact hfirst
        · have hlt := hcons.1 first hmem
          omega
      obtain ⟨range, hr, h1, h2⟩ := hcov
      have hkept : range ∈ ranges.dropWhile (fun range => decide (range.endSeq < row.seq)) := by
        rw [← takeWhile_append_dropWhile (p := fun range : TimelineSeqRange =>
          decide (range.endSeq < row.seq)) (l := ranges)] at hr
        rcases mem_append.mp hr with htake | hdrop
        · have hlt := mem_takeWhile_imp htake
          have hlt : range.endSeq < row.seq := of_decide_eq_true hlt
          omega
        · exact hdrop
      cases hd : ranges.dropWhile (fun range => decide (range.endSeq < row.seq)) with
      | nil => rw [hd] at hkept; exact absurd hkept not_mem_nil
      | cons head rest =>
        have hhead : ¬head.endSeq < row.seq := by
          have h := head_dropWhile_not (fun range : TimelineSeqRange =>
            decide (range.endSeq < row.seq)) (by rw [hd]; exact cons_ne_nil _ _)
          simpa [hd] using h
        have hstart : head.startSeq ≤ range.startSeq := by
          rw [hd] at hkept
          have hpw : (head :: rest).Pairwise rangeLe := hd ▸ hsorted.sublist (dropWhile_sublist _)
          rcases mem_cons.mp hkept with rfl | hkept
          · exact Int.le_refl _
          · have hrank := rel_of_pairwise_cons hpw hkept
            unfold rangeLe at hrank
            omega
        dsimp only
        have hge := (walkCovered_spec startSeq maxSeq rows row.seq (head :: rest)).1
        omega

/-! ## 3. A page after a cursor -/

/-- A page ends at `endSeq`, past `cursorSeq`, and covers everything between. -/
structure AfterPage (entries : List TimelineProjectionEntry) (endSeq? : Option Int)
    (hasNewer : Bool) (cursorSeq maxSeq endSeq : Int) : Prop where
  ends : endSeq? = some endSeq
  advances : cursorSeq < endSeq
  bounded : endSeq ≤ maxSeq
  covers : ∀ seq, cursorSeq < seq → seq ≤ endSeq →
    ∃ entry ∈ entries, Covers entry.sourceSeqRanges seq
  newer : hasNewer = true ↔ endSeq < maxSeq

theorem selectAfter_spec (hasc : RowsAscending rows)
    (hrow : ∃ row ∈ rows, row.seq = startSeq) (hle : startSeq ≤ maxSeq) (limit : Nat) :
    ∃ endSeq, (selectProjectedEntriesAfter (projectTimelineRows rows .projected) rows startSeq
        maxSeq limit).endSeq = some endSeq ∧ startSeq ≤ endSeq ∧ endSeq ≤ maxSeq ∧
      ∀ seq, startSeq ≤ seq → seq ≤ endSeq →
        ∃ entry ∈ (selectProjectedEntriesAfter (projectTimelineRows rows .projected) rows startSeq
          maxSeq limit).entries, Covers entry.sourceSeqRanges seq := by
  obtain ⟨row, hmem, hseq⟩ := hrow
  obtain ⟨entry, he, hsource⟩ := exists_source hasc hmem
  have hok := projectTimelineRows_ok hasc he
  have hcov : Covers entry.sourceSeqRanges startSeq := hseq ▸ mem_sourceSeqs.mp hsource
  obtain ⟨c, hc, hccov⟩ := exists_ranked_first he hok.ascending hcov hle limit
  unfold selectProjectedEntriesAfter
  dsimp only
  generalize hsel : takeFirst limit ((eligibleAfter (projectTimelineRows rows .projected) startSeq
    maxSeq).insertionSort ProjectedEntryCandidate.rankLe) = selected at hc ⊢
  have hcmem : c.entry ∈
      (selected.insertionSort ProjectedEntryCandidate.indexLe).map (·.entry) :=
    mem_map_of_mem ((mem_insertionSort _).mpr hc)
  rw [if_neg (ne_nil_of_mem hcmem)]
  generalize (selected.insertionSort ProjectedEntryCandidate.indexLe).map (·.entry) =
    selectedEntries at hcmem
  generalize hr : (selectedEntries.flatMap (·.sourceSeqRanges)).insertionSort rangeLe = ranges
  have hranges : ∀ seq, Covers ranges seq →
      ∃ entry ∈ selectedEntries, Covers entry.sourceSeqRanges seq := by
    rintro seq ⟨range, hrange, hin⟩
    rw [← hr, mem_insertionSort] at hrange
    obtain ⟨e, hes, hrange⟩ := mem_flatMap.mp hrange
    exact ⟨e, hes, range, hrange, hin⟩
  have hfirst : Covers ranges startSeq := by
    obtain ⟨range, hrange, hin⟩ := hccov
    refine ⟨range, ?_, hin⟩
    rw [← hr, mem_insertionSort]
    exact mem_flatMap.mpr ⟨c.entry, hcmem, hrange⟩
  have hprogress := walkCovered_progress hasc ⟨row, hmem, hseq⟩ hle
    (hr ▸ pairwise_insertionSort rangeLe _) hfirst
  obtain ⟨_, hbound, hwalk⟩ := walkCovered_spec startSeq maxSeq rows (startSeq - 1) ranges
  refine ⟨walkCovered startSeq maxSeq rows (startSeq - 1) ranges, if_pos hprogress, hprogress,
    by omega, fun seq h1 h2 => hranges seq (hwalk seq (by omega) h2)⟩

/-- The page of a direction `after`, over rows that hold the first missing one. -/
theorem selectPage_after {input : ProjectedTimelinePageInput} {bounds : TimelineBounds}
    {cursorSeq : Int} (hasc : RowsAscending input.rows) (hdir : input.direction = .after)
    (hbounds : input.bounds = some bounds) (hcursor : input.cursorSeq = some cursorSeq)
    (hproj : ∀ entries ∈ input.projectedEntries,
      entries = projectTimelineRows input.rows .projected)
    (hmin : bounds.minSeq - 1 ≤ cursorSeq) (hmax : cursorSeq < bounds.maxSeq)
    (hrow : ∃ row ∈ input.rows, row.seq = cursorSeq + 1) :
    ∃ endSeq, AfterPage (selectProjectedTimelinePage input).entries
      (selectProjectedTimelinePage input).endSeq (selectProjectedTimelinePage input).hasNewer
      cursorSeq bounds.maxSeq endSeq := by
  have hall := getD_eq_of_forall hproj
  have hne : projectTimelineRows input.rows .projected ≠ [] := by
    obtain ⟨row, hmem, _⟩ := hrow
    obtain ⟨entry, he, _⟩ := exists_source hasc hmem
    exact ne_nil_of_mem he
  have hstart : max bounds.minSeq (cursorSeq + 1) = cursorSeq + 1 := by omega
  unfold selectProjectedTimelinePage
  rw [hall, hbounds, hdir, hcursor, some_or]
  dsimp only
  rw [if_neg hne, getD_some, hstart]
  obtain ⟨endSeq, hend, h1, h2, hcov⟩ :=
    selectAfter_spec hasc hrow hmax input.entryLimit
  refine ⟨endSeq, hend, by omega, h2, fun seq hlt hle => hcov seq (by omega) hle, ?_⟩
  simp [hend]

/-! ## 4. The limited fetch after a cursor -/

section

variable {state : AgentTimelineState} (hchain : RowsConsecutive state.rows) {cursorSeq : Int}
  (hmin : state.minSeq - 1 ≤ cursorSeq) (hnew : ∃ row ∈ state.rows, cursorSeq < row.seq)
include hchain hmin hnew

/-- In rows without a gap the first one past the cursor is the next one. -/
theorem findIdx?_after :
    ∃ i row rest, state.rows.findIdx? (fun row => decide (cursorSeq < row.seq)) = some i ∧
      state.rows.drop i = row :: rest ∧ row.seq = cursorSeq + 1 := by
  cases hidx : state.rows.findIdx? (fun row => decide (cursorSeq < row.seq)) with
  | none =>
    obtain ⟨row, hrow, hlt⟩ := hnew
    have hall := findIdx?_eq_none_iff.mp hidx row hrow
    simp only [decide_eq_false_iff_not] at hall
    exact absurd hlt hall
  | some i =>
    obtain ⟨hbefore, row, rest, hdrop, hrow⟩ := findIdx?_split hidx
    refine ⟨i, row, rest, rfl, hdrop, ?_⟩
    have hgt : cursorSeq < row.seq := of_decide_eq_true hrow
    have hsplit : state.rows = state.rows.take i ++ row :: rest := by rw [← hdrop, take_append_drop]
    obtain hnil | ⟨pre, prev, hpre⟩ := eq_nil_or_concat (state.rows.take i)
    · have hfirst : state.minSeq = row.seq := by
        rw [hnil, nil_append] at hsplit
        simp [AgentTimelineState.minSeq, hsplit]
      omega
    · have hprev := hbefore prev (by rw [hpre]; simp)
      have hnext : row.seq = prev.seq + 1 := by
        rw [hsplit, hpre] at hchain
        exact (isChain_append.mp hchain).2.2 prev (by simp) row (by simp)
      simp only [decide_eq_false_iff_not] at hprev
      omega

theorem fetch_after_control (limit : Nat) :
    (state.fetch ⟨some .after, some ⟨state.epoch, cursorSeq⟩, some limit⟩).reset = false ∧
      ∃ row ∈ (state.fetch ⟨some .after, some ⟨state.epoch, cursorSeq⟩, some limit⟩).rows,
        row.seq = cursorSeq + 1 := by
  obtain ⟨i, row, rest, hidx, hdrop, hrow⟩ := findIdx?_after hchain hmin hnew
  have hne : state.rows ≠ [] := by intro hnil; rw [hnil] at hdrop; simp at hdrop
  have hgap : ¬cursorSeq < state.minSeq - 1 := by omega
  have hfetch : state.fetch ⟨some .after, some ⟨state.epoch, cursorSeq⟩, some limit⟩ =
      fetchAfter state .after limit (some ⟨state.epoch, cursorSeq⟩) := by
    simp [AgentTimelineState.fetch, AgentTimelineState.isStale, AgentTimelineState.hasGap, hne,
      hgap, AgentTimelineFetchOptions.rowLimit]
  rw [hfetch]
  unfold fetchAfter
  simp only [map_some, getD_some, hidx, hdrop]
  refine ⟨trivial, row, ?_, hrow⟩
  unfold takeFirst
  split
  · exact mem_cons_self
  · rename_i hlimit; obtain ⟨n, rfl⟩ := Nat.exists_eq_succ_of_ne_zero hlimit; exact mem_cons_self

end

/-! ## 5. Responses, and catching up -/

/-- A response ends at `endSeq`, past `cursorSeq`, and covers everything between. -/
structure AfterResponse (response : FetchAgentTimelineResponse) (state : AgentTimelineState)
    (cursorSeq endSeq : Int) : Prop where
  ends : response.endCursor = some ⟨state.epoch, endSeq⟩
  advances : cursorSeq < endSeq
  bounded : endSeq ≤ state.maxSeq
  covers : ∀ seq, cursorSeq < seq → seq ≤ endSeq →
    ∃ entry ∈ response.entries, Covers entry.sourceSeqRanges seq
  newer : response.hasNewer = true ↔ endSeq < state.maxSeq

/-- The projected request for what follows a cursor. -/
def afterRequest (agentId requestId : String) (limit : Nat) (cursor : AgentTimelineCursor) :
    FetchAgentTimelineRequest where
  agentId := agentId
  requestId := requestId
  direction := some .after
  projection := some .projected
  cursor := some cursor
  limit := some limit

theorem afterResponse_of_page {response : FetchAgentTimelineResponse} {context : SessionContext}
    {timeline : AgentTimelineFetchResult} {page : ProjectedTimelinePageSelection}
    {state : AgentTimelineState} {cursorSeq endSeq : Int}
    (hr : RespondsWith response context timeline page) (hepoch : timeline.epoch = state.epoch)
    (hp : AfterPage page.entries page.endSeq page.hasNewer cursorSeq state.maxSeq endSeq) :
    AfterResponse response state cursorSeq endSeq where
  ends := by rw [hr.endCursor, hp.ends, hepoch]; rfl
  advances := hp.advances
  bounded := hp.bounded
  covers seq h1 h2 := by
    obtain ⟨entry, he, hcov⟩ := hp.covers seq h1 h2
    exact ⟨entry.toPayload context, hr.entries ▸ mem_map_of_mem he, hcov⟩
  newer := by rw [hr.hasNewer]; exact hp.newer

section

variable (server : TimelineServer) (context : SessionContext) (agentId requestId : String)
  (limit : Nat)

/-- **One page of catching up** ends past its cursor and covers all it has passed. -/
theorem after_page_advances (hchain : RowsConsecutive server.rows) {cursorSeq : Int}
    (hmin : server.state.minSeq - 1 ≤ cursorSeq) (hnew : ∃ row ∈ server.rows, cursorSeq < row.seq) :
    ∃ endSeq, AfterResponse (server.request context
        (afterRequest agentId requestId limit ⟨server.state.epoch, cursorSeq⟩)).1
      server.state cursorSeq endSeq := by
  have hmax : cursorSeq < server.state.maxSeq := by
    obtain ⟨row, hrow, hlt⟩ := hnew
    have hle := seq_le_maxSeq server.ascending hrow
    omega
  obtain ⟨hreset, hrow⟩ := fetch_after_control hchain hmin hnew limit
  have hdir : ∀ timeline projectedEntries, (pageInput server
      (afterRequest agentId requestId limit ⟨server.state.epoch, cursorSeq⟩) timeline
      projectedEntries).direction = .after := by
    intro timeline projectedEntries
    refine if_neg (Bool.eq_false_iff.mp ?_)
    exact hreset
  rcases request_projected server context
    (afterRequest agentId requestId limit ⟨server.state.epoch, cursorSeq⟩) rfl with
    ⟨_, hr⟩ | hr
  · have hasc : RowsAscending (server.state.fetch
        ⟨some .after, some ⟨server.state.epoch, cursorSeq⟩, some limit⟩).rows := by
      obtain ⟨before, after, hw⟩ := fetch_window server.ascending
        ⟨some .after, some ⟨server.state.epoch, cursorSeq⟩, some limit⟩
      have h := server.ascending
      rw [hw.rows] at h
      exact h.sublist ((sublist_append_right _ _).trans (sublist_append_left _ _))
    obtain ⟨endSeq, hp⟩ := selectPage_after hasc (hdir _ none) rfl rfl
      (fun _ h => (not_mem_none _ h).elim) (by rw [fetch_window_eq]; exact hmin)
      (by rw [fetch_window_eq]; exact hmax) hrow
    rw [fetch_window_eq] at hp
    exact ⟨endSeq, afterResponse_of_page hr (fetch_epoch _ _) hp⟩
  · have hwindow : server.state.fetchFull.window = server.state.window := fetch_window_eq _ _
    have hnext : ∃ row ∈ server.state.fetchFull.rows, row.seq = cursorSeq + 1 := by
      obtain ⟨before, after, hw⟩ := fetch_window server.ascending
        ⟨some .after, some ⟨server.state.epoch, cursorSeq⟩, some limit⟩
      obtain ⟨row, hmem, hseq⟩ := hrow
      refine ⟨row, ?_, hseq⟩
      rw [fetchFull_rows, hw.rows]
      exact mem_append_left _ (mem_append_right _ hmem)
    have hasc : RowsAscending server.state.fetchFull.rows := by
      rw [fetchFull_rows]
      exact server.ascending
    have hproj : ∀ entries ∈ some (projectTimelineRows server.rows .projected),
        entries = projectTimelineRows server.state.fetchFull.rows .projected := by
      intro entries h
      rw [fetchFull_rows]
      exact (mem_some_iff.mp h).symm
    obtain ⟨endSeq, hp⟩ := selectPage_after hasc (hdir _ _) rfl rfl hproj
      (by rw [hwindow]; exact hmin) (by rw [hwindow]; exact hmax) hnext
    rw [hwindow] at hp
    exact ⟨endSeq, afterResponse_of_page hr (fetch_epoch _ _) hp⟩

/-- Asking for the next page from the end of each, while it tells of newer rows; `none` where the
    requests do not suffice or a page has no end to go on from. -/
def catchUp : Nat → TimelineServer → AgentTimelineCursor → Option (List FetchAgentTimelineResponse)
  | 0, _, _ => none
  | requests + 1, server, cursor =>
    let answer := server.request context (afterRequest agentId requestId limit cursor)
    if answer.1.hasNewer then
      match answer.1.endCursor with
      | none => none
      | some next => (catchUp requests answer.2 next).map (answer.1 :: ·)
    else some [answer.1]

/-- **Catching up terminates**, after at most as many requests as rows are missing, with every
    later row covered. -/
theorem catchUp_covers (cursorSeq : Int) (hchain : RowsConsecutive server.rows)
    (hmin : server.state.minSeq - 1 ≤ cursorSeq)
    (hnew : ∃ row ∈ server.rows, cursorSeq < row.seq) {requests : Nat}
    (hrequests : (server.state.maxSeq - cursorSeq).toNat ≤ requests) :
    ∃ pages, catchUp context agentId requestId limit requests server
        ⟨server.state.epoch, cursorSeq⟩ = some pages ∧
      ∀ seq, cursorSeq < seq → seq ≤ server.state.maxSeq →
        ∃ page ∈ pages, ∃ entry ∈ page.entries, Covers entry.sourceSeqRanges seq := by
  induction requests generalizing server cursorSeq with
  | zero =>
    obtain ⟨row, hrow, hlt⟩ := hnew
    have hle := seq_le_maxSeq server.ascending hrow
    omega
  | succ requests ih =>
    obtain ⟨endSeq, ha⟩ :=
      after_page_advances server context agentId requestId limit hchain hmin hnew
    unfold catchUp
    generalize hanswer : server.request context
      (afterRequest agentId requestId limit ⟨server.state.epoch, cursorSeq⟩) = answer at ha ⊢
    have hstate : answer.2.state = server.state := by rw [← hanswer]; rfl
    have hadv := ha.advances
    by_cases hmore : endSeq < server.state.maxSeq
    · rw [if_pos (ha.newer.mpr hmore), ha.ends]
      obtain ⟨last, hlast, hlastSeq⟩ : ∃ row ∈ server.rows, row.seq = server.state.maxSeq := by
        obtain ⟨row, hrow, _⟩ := hnew
        exact exists_last_row (ne_nil_of_mem hrow)
      have hrest := ih answer.2 endSeq
      unfold TimelineServer.rows at hrest
      rw [hstate] at hrest
      obtain ⟨pages, hpages, hcov⟩ := hrest hchain (by omega) ⟨last, hlast, by omega⟩ (by omega)
      refine ⟨answer.1 :: pages, by simp [hpages], fun seq h1 h2 => ?_⟩
      by_cases hpage : seq ≤ endSeq
      · obtain ⟨entry, he, hentry⟩ := ha.covers seq h1 hpage
        exact ⟨answer.1, mem_cons_self, entry, he, hentry⟩
      · obtain ⟨page, hp, hentry⟩ := hcov seq (by omega) h2
        exact ⟨page, mem_cons_of_mem _ hp, hentry⟩
    · have hdone : ¬answer.1.hasNewer = true := fun h => hmore (ha.newer.mp h)
      rw [if_neg hdone]
      refine ⟨[answer.1], rfl, fun seq h1 h2 => ?_⟩
      obtain ⟨entry, he, hentry⟩ := ha.covers seq h1 (by omega)
      exact ⟨answer.1, mem_singleton_self _, entry, he, hentry⟩

end

/-! ## 6. Progress and completeness -/

/-- **Forward catch-up makes progress and loses nothing.** Where rows newer than the cursor exist,
    the page ends past the cursor, covers every row up to its end and tells of newer rows exactly
    where there are some; asking on from the end terminates with every later row covered. -/
theorem forward_catch_up_complete (server : TimelineServer)
    (hchain : RowsConsecutive server.rows) (context : SessionContext)
    (agentId requestId : String) (limit : Nat) (cursorSeq : Int)
    (hmin : server.state.minSeq - 1 ≤ cursorSeq) (hnew : ∃ row ∈ server.rows, cursorSeq < row.seq) :
    (∃ endSeq, AfterResponse (server.request context
        (afterRequest agentId requestId limit ⟨server.state.epoch, cursorSeq⟩)).1
      server.state cursorSeq endSeq) ∧
    ∃ pages, catchUp context agentId requestId limit
        (server.state.maxSeq - cursorSeq).toNat server ⟨server.state.epoch, cursorSeq⟩ =
          some pages ∧
      ∀ row ∈ server.rows, cursorSeq < row.seq →
        ∃ page ∈ pages, ∃ entry ∈ page.entries, Covers entry.sourceSeqRanges row.seq := by
  refine ⟨after_page_advances server context agentId requestId limit hchain hmin hnew, ?_⟩
  obtain ⟨pages, hpages, hcov⟩ := catchUp_covers server context agentId requestId limit cursorSeq
    hchain hmin hnew (Nat.le_refl _)
  exact ⟨pages, hpages, fun row hrow hlt =>
    hcov row.seq hlt (seq_le_maxSeq server.ascending hrow)⟩

/-- A prompt, a tool call that runs and completes, and an answer. -/
def promptAndTool : TimelineServer :=
  let running : ToolCallTimelineItem :=
    ⟨"c", "shell", .running, some .null, .unknown .null .null, none, fun _ => rfl⟩
  let completed : ToolCallTimelineItem :=
    ⟨"c", "shell", .completed, some .null, .known .shell [], none, fun _ => rfl⟩
  ((((TimelineServer.initialized "e").append (.userMessage "go" none none) ⟨"t1", none, none⟩).append
    (.toolCall running) ⟨"t2", none, none⟩).append (.assistantMessage "so" none)
      ⟨"t3", none, none⟩).append (.toolCall completed) ⟨"t4", none, none⟩

theorem forward_catch_up_prompt_and_tool :
    (∃ endSeq, AfterResponse (promptAndTool.request ⟨"codex", true⟩
        (afterRequest "a" "r" 1 ⟨"e", 1⟩)).1 promptAndTool.state 1 endSeq) ∧
    ∃ pages, catchUp ⟨"codex", true⟩ "a" "r" 1 3 promptAndTool ⟨"e", 1⟩ = some pages ∧
      ∀ row ∈ promptAndTool.rows, 1 < row.seq →
        ∃ page ∈ pages, ∃ entry ∈ page.entries, Covers entry.sourceSeqRanges row.seq := by
  have hchain : RowsConsecutive promptAndTool.rows := by
    simp [RowsConsecutive, promptAndTool, TimelineServer.rows, TimelineServer.append,
      AgentTimelineState.append, TimelineServer.initialized]
  have hnew : ∃ row ∈ promptAndTool.rows, 1 < row.seq := by
    obtain ⟨row, hrow, hseq⟩ :=
      @exists_last_row promptAndTool.state (cons_ne_nil _ _)
    exact ⟨row, hrow, by rw [hseq]; decide⟩
  exact forward_catch_up_complete promptAndTool hchain ⟨"codex", true⟩ "a" "r" 1 1
    (by decide) hnew

end Frogg.Server
