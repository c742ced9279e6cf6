/-
  Subject:   The projection partitions its rows.

  * `mergeSeqRanges_sources`: merging later ranges into earlier ones appends their numbers;
  * `EntryOk`: an entry's source ranges ascend, from `seqStart` to `seqEnd`;
  * `projectTimelineRows_sources`: the source numbers of all entries are those of the rows, each
    once;
  * `starts_sublist`: entries stand in the order of their `seqStart`, each a row's `seq`.
-/
import Frogg.Server.TimelineProjection
import Mathlib.Data.List.Perm.Basic
import Mathlib.Data.List.Perm.Subperm
import Mathlib.Data.List.Range

namespace Frogg.Server

open Library Protocol List

/-! ## 1. Ascending ranges -/

/-- The source numbers of a list of ranges, in order. -/
def sourceSeqs (ranges : List TimelineSeqRange) : List Int :=
  ranges.flatMap TimelineSeqRange.seqs

@[simp] theorem sourceSeqs_nil : sourceSeqs [] = [] := rfl

variable {seq : Int}

@[simp] theorem mem_seqs {range : TimelineSeqRange} :
    seq ∈ range.seqs ↔ range.startSeq ≤ seq ∧ seq ≤ range.endSeq := by
  simp only [TimelineSeqRange.seqs, mem_map, mem_range]
  constructor
  · omega
  · rintro ⟨h1, h2⟩; exact ⟨(seq - range.startSeq).toNat, by omega, by omega⟩

@[simp] theorem seqs_single (seq : Int) : TimelineSeqRange.seqs ⟨seq, seq⟩ = [seq] := by
  have h : (seq + 1 - seq).toNat = 1 := by omega
  simp only [TimelineSeqRange.seqs, h]
  simp

theorem seqs_extend {start stop : Int} (h : start ≤ stop + 1) :
    TimelineSeqRange.seqs ⟨start, stop + 1⟩ = TimelineSeqRange.seqs ⟨start, stop⟩ ++ [stop + 1] := by
  have h1 : (stop + 1 + 1 - start).toNat = (stop + 1 - start).toNat + 1 := by omega
  simp only [TimelineSeqRange.seqs, h1, range_succ, map_append, map_cons, map_nil]
  congr 2
  omega

variable {ranges : List TimelineSeqRange}

theorem mem_sourceSeqs :
    seq ∈ sourceSeqs ranges ↔ ∃ range ∈ ranges, range.startSeq ≤ seq ∧ seq ≤ range.endSeq := by
  simp [sourceSeqs, mem_flatMap]

/-- Ranges that are not empty, each before the next. -/
def Ascending (ranges : List TimelineSeqRange) : Prop :=
  (∀ range ∈ ranges, range.startSeq ≤ range.endSeq) ∧
    ranges.Pairwise fun a b => a.endSeq < b.startSeq

theorem ascending_single (seq : Int) : Ascending [⟨seq, seq⟩] := by
  simp [Ascending]

theorem Ascending.pairwise (h : Ascending ranges) : (sourceSeqs ranges).Pairwise (· < ·) := by
  unfold sourceSeqs
  rw [pairwise_flatMap]
  refine ⟨fun range _ => ?_, h.2.imp fun hab x hx y hy => ?_⟩
  · unfold TimelineSeqRange.seqs
    rw [pairwise_map]
    refine pairwise_lt_range.imp fun hk => ?_
    omega
  · rw [mem_seqs] at hx hy; omega

/-- One number above all the ranges extends the last of them, or opens a new one. -/
theorem appendSeqToRanges_ascending (h : Ascending ranges) (hseq : ∀ x ∈ sourceSeqs ranges, x < seq) :
    Ascending (appendSeqToRanges ranges seq) ∧
      sourceSeqs (appendSeqToRanges ranges seq) = sourceSeqs ranges ++ [seq] := by
  rcases eq_nil_or_concat ranges with rfl | ⟨init, last, rfl⟩
  · exact ⟨ascending_single seq, by simp [appendSeqToRanges, sourceSeqs]⟩
  · rw [concat_eq_append] at h hseq ⊢
    have hlast : last.startSeq ≤ last.endSeq := h.1 last (by simp)
    have hlt : last.endSeq < seq :=
      hseq _ (mem_sourceSeqs.mpr ⟨last, by simp, hlast, Int.le_refl _⟩)
    have hpw := pairwise_append.mp h.2
    simp only [appendSeqToRanges, getLast?_append, getLast?_singleton, Option.some_or,
      dropLast_append_cons, dropLast_singleton, append_nil]
    split
    · -- the number right after the last range
      have heq : seq = last.endSeq + 1 := by omega
      have hmax : max last.endSeq seq = last.endSeq + 1 := by omega
      rw [hmax]
      refine ⟨⟨fun range hr => ?_, ?_⟩, ?_⟩
      · rcases mem_append.mp hr with hr | hr
        · exact h.1 range (by simp [hr])
        · obtain rfl := mem_singleton.mp hr; show last.startSeq ≤ last.endSeq + 1; omega
      · refine pairwise_append.mpr ⟨hpw.1, pairwise_singleton _ _, fun a ha b hb => ?_⟩
        obtain rfl := mem_singleton.mp hb
        exact hpw.2.2 a ha last (by simp)
      · have hext := @seqs_extend last.startSeq last.endSeq (by omega)
        simp only [sourceSeqs, flatMap_append, flatMap_cons, flatMap_nil,
          append_nil, hext, append_assoc, heq]
    · refine ⟨⟨fun range hr => ?_, ?_⟩, by simp [sourceSeqs]⟩
      · rcases mem_append.mp hr with hr | hr
        · exact h.1 range hr
        · obtain rfl := mem_singleton.mp hr; exact Int.le_refl _
      · refine pairwise_append.mpr ⟨h.2, pairwise_singleton _ _, fun a ha b hb => ?_⟩
        obtain rfl := mem_singleton.mp hb
        exact hseq _ (mem_sourceSeqs.mpr ⟨a, ha, h.1 a ha, Int.le_refl _⟩)

theorem foldl_appendSeqToRanges {seqs : List Int} (h : Ascending ranges)
    (hs : (sourceSeqs ranges ++ seqs).Pairwise (· < ·)) :
    Ascending (seqs.foldl appendSeqToRanges ranges) ∧
      sourceSeqs (seqs.foldl appendSeqToRanges ranges) = sourceSeqs ranges ++ seqs := by
  induction seqs generalizing ranges with
  | nil => exact ⟨h, by simp⟩
  | cons seq seqs ih =>
    have hseq : ∀ x ∈ sourceSeqs ranges, x < seq := fun x hx =>
      (pairwise_append.mp hs).2.2 x hx seq (by simp)
    obtain ⟨h1, h2⟩ := appendSeqToRanges_ascending h hseq
    have h3 := ih h1 (by rw [h2, append_assoc]; exact hs)
    rw [h2, append_assoc] at h3
    exact h3

/-- **Merging later ranges into earlier ones appends their numbers.** -/
theorem mergeSeqRanges_sources {existing incoming : List TimelineSeqRange}
    (h : Ascending existing) (h' : Ascending incoming)
    (hlt : ∀ x ∈ sourceSeqs existing, ∀ y ∈ sourceSeqs incoming, x < y) :
    Ascending (mergeSeqRanges existing incoming) ∧
      sourceSeqs (mergeSeqRanges existing incoming) =
        sourceSeqs existing ++ sourceSeqs incoming := by
  have heq : mergeSeqRanges existing incoming =
      (sourceSeqs incoming).foldl appendSeqToRanges existing := by
    rw [mergeSeqRanges, sourceSeqs, foldl_flatMap]
  rw [heq]
  exact foldl_appendSeqToRanges h (pairwise_append.mpr ⟨h.pairwise, h'.pairwise, hlt⟩)

/-! ## 2. Entries -/

namespace TimelineProjectionEntry

/-- The source numbers of an entry. -/
def sources (e : TimelineProjectionEntry) : List Int := sourceSeqs e.sourceSeqRanges

end TimelineProjectionEntry

/-- The source ranges of an entry ascend, from its `seqStart` to its `seqEnd`. -/
structure EntryOk (e : TimelineProjectionEntry) : Prop where
  ascending : Ascending e.sourceSeqRanges
  first : e.sources.head? = some e.seqStart
  last : e.sources.getLast? = some e.seqEnd

namespace EntryOk

variable {e : TimelineProjectionEntry}

theorem pairwise (h : EntryOk e) : e.sources.Pairwise (· < ·) := h.ascending.pairwise

section

variable (h : EntryOk e)
include h

theorem seqEnd_mem : e.seqEnd ∈ e.sources := mem_of_getLast? h.last

theorem seqStart_le {x : Int} (hx : x ∈ e.sources) : e.seqStart ≤ x := by
  have hfirst := h.first
  have hpw := h.pairwise
  cases hs : e.sources with
  | nil => rw [hs] at hx; exact absurd hx not_mem_nil
  | cons y ys =>
    rw [hs] at hx hfirst hpw
    obtain rfl : y = e.seqStart := by simpa using hfirst
    rcases mem_cons.mp hx with rfl | hx
    · exact Int.le_refl _
    · exact Int.le_of_lt (rel_of_pairwise_cons hpw hx)

theorem le_seqEnd {x : Int} (hx : x ∈ e.sources) : x ≤ e.seqEnd := by
  have hlast := h.last
  have hpw := h.pairwise
  rcases eq_nil_or_concat e.sources with hs | ⟨init, y, hs⟩
  · rw [hs] at hx; exact absurd hx not_mem_nil
  · rw [hs, concat_eq_append] at hx hlast hpw
    obtain rfl : y = e.seqEnd := by simpa using hlast
    rcases mem_append.mp hx with hx | hx
    · exact Int.le_of_lt ((pairwise_append.mp hpw).2.2 x hx _ (by simp))
    · obtain rfl := mem_singleton.mp hx; exact Int.le_refl _

theorem seqStart_le_seqEnd : e.seqStart ≤ e.seqEnd := h.seqStart_le h.seqEnd_mem

/-- **Merging a later entry into an earlier one.** Whatever the item, the merged entry starts where
    the earlier one starts, ends where the later one ends and has the sources of both. -/
theorem merge {e' m : TimelineProjectionEntry} (h' : EntryOk e')
    (hlt : e.seqEnd < e'.seqStart) (hstart : m.seqStart = e.seqStart) (hend : m.seqEnd = e'.seqEnd)
    (hranges : m.sourceSeqRanges = mergeSeqRanges e.sourceSeqRanges e'.sourceSeqRanges) :
    EntryOk m ∧ m.sources = e.sources ++ e'.sources := by
  have hxy : ∀ x ∈ e.sources, ∀ y ∈ e'.sources, x < y := fun x hx y hy =>
    Int.lt_of_le_of_lt (h.le_seqEnd hx) (Int.lt_of_lt_of_le hlt (h'.seqStart_le hy))
  obtain ⟨hasc, hsrc⟩ := mergeSeqRanges_sources h.ascending h'.ascending hxy
  have hm : m.sources = e.sources ++ e'.sources := by
    rw [TimelineProjectionEntry.sources, hranges, hsrc]
    rfl
  refine ⟨⟨hranges ▸ hasc, ?_, ?_⟩, hm⟩
  · rw [hm, hstart, head?_append, h.first]; rfl
  · rw [hm, hend, getLast?_append, h'.last]; rfl

end

end EntryOk

variable (row : AgentTimelineRow)

theorem toEntry_ok : EntryOk row.toEntry where
  ascending := ascending_single row.seq
  first := by simp [TimelineProjectionEntry.sources, sourceSeqs, AgentTimelineRow.toEntry]
  last := by simp [TimelineProjectionEntry.sources, sourceSeqs, AgentTimelineRow.toEntry]

@[simp] theorem toEntry_sources : row.toEntry.sources = [row.seq] := by
  simp [TimelineProjectionEntry.sources, sourceSeqs, AgentTimelineRow.toEntry]

@[simp] theorem toEntry_seqStart : row.toEntry.seqStart = row.seq := rfl

@[simp] theorem toEntry_seqEnd : row.toEntry.seqEnd = row.seq := rfl

@[simp] theorem toEntry_item : row.toEntry.item = row.item := rfl

/-! ## 3. Inversion of the merges -/

variable {entry merged previous a b : TimelineProjectionEntry}

theorem mergeIdentityEntries_some {existing : TimelineProjectionEntry}
    (h : mergeIdentityEntries existing entry = some merged) :
    (∃ call incoming, existing.item = .toolCall call ∧ entry.item = .toolCall incoming ∧
      merged.item = .toolCall (mergeToolCallItems call incoming)) ∧
    existing.turnId = entry.turnId ∧ merged.turnId = existing.turnId ∧
    merged.timestamp = entry.timestamp ∧
    merged.seqStart = existing.seqStart ∧ merged.seqEnd = max existing.seqEnd entry.seqEnd ∧
    merged.sourceSeqRanges = mergeSeqRanges existing.sourceSeqRanges entry.sourceSeqRanges := by
  unfold mergeIdentityEntries at h
  split at h
  · rename_i incoming call hentry hexisting
    split at h
    · cases h
    · rename_i hturn
      cases h
      exact ⟨⟨call, incoming, hexisting, hentry, rfl⟩, by simpa using hturn, rfl, rfl, rfl, rfl, rfl⟩
  · cases h

theorem joinReasoning_some (h : joinReasoning previous entry = some merged) :
    ∃ previousText entryText, previous.item = .reasoning previousText ∧
      entry.item = .reasoning entryText ∧ previous.seqEnd + 1 = entry.seqStart ∧
      previous.turnId = entry.turnId ∧
      merged = mergeChunk previous entry (.reasoning (previousText ++ entryText)) .reasoningMerge := by
  unfold joinReasoning at h
  split at h
  · rename_i previousText entryText hprevious hentry
    split at h
    · rename_i hadj
      cases h
      exact ⟨previousText, entryText, hprevious, hentry, hadj.1, hadj.2, rfl⟩
    · cases h
  · cases h

theorem joinAssistant_some (h : joinAssistant previous entry = some merged) :
    ∃ previousText previousId entryText entryId,
      previous.item = .assistantMessage previousText previousId ∧
      entry.item = .assistantMessage entryText entryId ∧
      previous.seqEnd + 1 = entry.seqStart ∧ previous.turnId = entry.turnId ∧
      (entryId = none ∨ previousId = entryId) ∧
      merged = mergeChunk previous entry
        (.assistantMessage (previousText ++ entryText) (truthy previousId)) .assistantMerge := by
  unfold joinAssistant at h
  split at h
  · rename_i previousText previousId entryText entryId hprevious hentry
    split at h
    · rename_i hadj
      split at h
      · cases h
      · rename_i hid
        cases h
        refine ⟨previousText, previousId, entryText, entryId, hprevious, hentry, hadj.1, hadj.2,
          ?_, rfl⟩
        by_cases hnone : entryId = none
        · exact .inl hnone
        · exact .inr (Classical.byContradiction fun hne => hid ⟨hnone, hne⟩)
    · cases h
  · cases h

/-- What both chunk merges do to the numbers of an entry. -/
theorem mergeChunk_ok (h : EntryOk previous) (h' : EntryOk entry)
    (hadj : previous.seqEnd + 1 = entry.seqStart) (item : AgentTimelineItem)
    (kind : TimelineProjectionKind) : EntryOk (mergeChunk previous entry item kind) ∧
      (mergeChunk previous entry item kind).sources = previous.sources ++ entry.sources :=
  h.merge h' (by omega) rfl rfl rfl

/-! ## 4. The collapsing loop -/

/-- **One step of the collapsing loop** appends the entry, or merges it into an earlier one. -/
theorem collapseStep_output (s : CollapseState) (entry : TimelineProjectionEntry) :
    (collapseStep s entry).output = s.output ++ [entry] ∨
    ∃ (i : Nat) (existing merged : TimelineProjectionEntry), s.output[i]? = some existing ∧
      mergeIdentityEntries existing entry = some merged ∧
      (collapseStep s entry).output = s.output.set i merged := by
  unfold collapseStep
  split
  · exact .inl rfl
  · split
    · exact .inl rfl
    · rename_i i _
      split
      · exact .inl rfl
      · rename_i merged hm
        obtain ⟨existing, he, hm⟩ := Option.bind_eq_some_iff.mp hm
        exact .inr ⟨i, existing, merged, he, hm, rfl⟩

section

variable (rows : List AgentTimelineRow)

/-- The loop's state after a list of rows. -/
def collapseRows : CollapseState :=
  (makeCanonicalEntries rows).foldl collapseStep ⟨[], []⟩

theorem collapseRows_concat (row : AgentTimelineRow) :
    collapseRows (rows ++ [row]) = collapseStep (collapseRows rows) row.toEntry := by
  simp [collapseRows, makeCanonicalEntries, foldl_append]

/-- Rows in the order of their `seq`. -/
def RowsAscending : Prop :=
  rows.Pairwise fun a b => a.seq < b.seq

end

variable {rows : List AgentTimelineRow}

theorem RowsAscending.map_seq (h : RowsAscending rows) :
    (rows.map (·.seq)).Pairwise (· < ·) := pairwise_map.mpr h

theorem RowsAscending.concat {row : AgentTimelineRow} :
    RowsAscending (rows ++ [row]) ↔ RowsAscending rows ∧ ∀ r ∈ rows, r.seq < row.seq := by
  simp [RowsAscending, pairwise_append]

/-- What the collapsing loop keeps true of its output. -/
structure CollapseOk (rows : List AgentTimelineRow) (output : List TimelineProjectionEntry) :
    Prop where
  entries : ∀ e ∈ output, EntryOk e
  sources : (output.flatMap (·.sources)).Perm (rows.map (·.seq))
  starts : (output.map (·.seqStart)).Sublist (rows.map (·.seq))

private theorem flatMap_set_perm {f : TimelineProjectionEntry → List Int}
    {l : List TimelineProjectionEntry} {i : Nat} {extra : List Int} (hi : l[i]? = some a)
    (hf : f b = f a ++ extra) : ((l.set i b).flatMap f).Perm (l.flatMap f ++ extra) := by
  induction l generalizing i with
  | nil => simp at hi
  | cons x xs ih =>
    cases i with
    | zero =>
      obtain rfl : x = a := by simpa using hi
      simp only [set_cons_zero, flatMap_cons, hf, append_assoc]
      exact (perm_append_comm).append_left _
    | succ i =>
      simp only [set_cons_succ, flatMap_cons, append_assoc]
      exact (ih (by simpa using hi)).append_left _

theorem set_of_getElem? {α : Type*} {l : List α} {i : Nat} {a : α} (h : l[i]? = some a) :
    l.set i a = l := by
  obtain ⟨hlt, rfl⟩ := List.getElem?_eq_some_iff.mp h
  exact set_getElem_self hlt

theorem collapseRows_ok (h : RowsAscending rows) : CollapseOk rows (collapseRows rows).output := by
  induction rows using reverseRecOn with
  | nil => exact ⟨by simp [collapseRows, makeCanonicalEntries], .refl _, .refl _⟩
  | append_singleton rows row ih =>
    obtain ⟨h, hlt⟩ := RowsAscending.concat.mp h
    have ih := ih h
    rw [collapseRows_concat]
    rcases collapseStep_output (collapseRows rows) row.toEntry with hout | ⟨i, existing, merged,
      hi, hm, hout⟩
    · rw [hout]
      refine ⟨fun e he => ?_, ?_, ?_⟩
      · rcases mem_append.mp he with he | he
        · exact ih.entries e he
        · obtain rfl := mem_singleton.mp he; exact toEntry_ok row
      · simpa using ih.sources.append_right [row.seq]
      · simpa using ih.starts.append (List.Sublist.refl [row.seq])
    · have hmem : existing ∈ (collapseRows rows).output := mem_of_getElem? hi
      have hok := ih.entries existing hmem
      -- the sources of every entry so far are seqs of earlier rows
      have hend : existing.seqEnd < row.seq := by
        have h1 : existing.seqEnd ∈ rows.map (·.seq) :=
          ih.sources.subset (mem_flatMap.mpr ⟨existing, hmem, hok.seqEnd_mem⟩)
        obtain ⟨r, hr, hrs⟩ := mem_map.mp h1
        exact hrs ▸ hlt r hr
      obtain ⟨_, _, _, _, hstart, hmax, hranges⟩ := mergeIdentityEntries_some hm
      obtain ⟨hmok, hms⟩ := hok.merge (toEntry_ok row) hend hstart
        (by rw [hmax]; simp only [toEntry_seqEnd]; omega) hranges
      rw [hout]
      refine ⟨fun e he => ?_, ?_, ?_⟩
      · rcases mem_or_eq_of_mem_set he with he | rfl
        · exact ih.entries e he
        · exact hmok
      · refine (flatMap_set_perm hi (by rw [hms, toEntry_sources])).trans ?_
        simpa using ih.sources.append_right [row.seq]
      · have hset : ((collapseRows rows).output.set i merged).map (·.seqStart) =
            (collapseRows rows).output.map (·.seqStart) := by
          rw [map_set, hstart]
          exact set_of_getElem? (by simp [hi])
        rw [hset]
        simpa using ih.starts.trans (sublist_append_left _ _)

/-! ## 5. The whole projection -/

variable {c : TimelineProjectionEntry}

theorem joinAssistant_ok (ha : EntryOk a) (hb : EntryOk b)
    (h : joinAssistant a b = some c) : EntryOk c ∧ c.sources = a.sources ++ b.sources := by
  obtain ⟨_, _, _, _, _, _, hadj, _, _, rfl⟩ := joinAssistant_some h
  exact mergeChunk_ok ha hb hadj _ _

theorem joinReasoning_ok (ha : EntryOk a) (hb : EntryOk b)
    (h : joinReasoning a b = some c) : EntryOk c ∧ c.sources = a.sources ++ b.sources := by
  obtain ⟨_, _, _, _, hadj, _, rfl⟩ := joinReasoning_some h
  exact mergeChunk_ok ha hb hadj _ _

/-- What the projection of ascending rows is. -/
theorem projectTimelineRows_collapseOk (h : RowsAscending rows) :
    CollapseOk rows (projectTimelineRows rows .projected) := by
  have hc := collapseRows_ok h
  have hassistant : ∀ e ∈ mergeAssistantChunks (collapseRows rows).output, EntryOk e :=
    mergeAdjacent_forall (fun _ _ _ ha hb hj => (joinAssistant_ok ha hb hj).1) hc.entries
  refine ⟨?_, ?_, ?_⟩
  · exact mergeAdjacent_forall (fun _ _ _ ha hb hj => (joinReasoning_ok ha hb hj).1) hassistant
  · have h1 : (projectTimelineRows rows .projected).flatMap (·.sources) =
        (mergeAssistantChunks (collapseRows rows).output).flatMap (·.sources) :=
      mergeAdjacent_flatMap _ (fun _ _ _ ha hb hj => joinReasoning_ok ha hb hj) hassistant
    have h2 : (mergeAssistantChunks (collapseRows rows).output).flatMap (·.sources) =
        (collapseRows rows).output.flatMap (·.sources) :=
      mergeAdjacent_flatMap _ (fun _ _ _ ha hb hj => joinAssistant_ok ha hb hj) hc.entries
    rw [h1, h2]
    exact hc.sources
  · have h1 : ((projectTimelineRows rows .projected).map (·.seqStart)).Sublist
        ((mergeAssistantChunks (collapseRows rows).output).map (·.seqStart)) :=
      mergeAdjacent_map_sublist _ (fun _ _ _ hj => by
        obtain ⟨_, _, _, _, _, _, rfl⟩ := joinReasoning_some hj
        rfl) _
    have h2 : ((mergeAssistantChunks (collapseRows rows).output).map (·.seqStart)).Sublist
        ((collapseRows rows).output.map (·.seqStart)) :=
      mergeAdjacent_map_sublist _ (fun _ _ _ hj => by
        obtain ⟨_, _, _, _, _, _, _, _, _, rfl⟩ := joinAssistant_some hj
        rfl) _
    exact (h1.trans h2).trans hc.starts

section

variable {rows : List AgentTimelineRow}

theorem projectTimelineRows_ok (h : RowsAscending rows) {e : TimelineProjectionEntry}
    (he : e ∈ projectTimelineRows rows .projected) : EntryOk e :=
  (projectTimelineRows_collapseOk h).entries e he

/-- **The source numbers of all entries are those of the rows, each once.** -/
theorem projectTimelineRows_sources (h : RowsAscending rows) :
    ((projectTimelineRows rows .projected).flatMap (·.sources)).Perm (rows.map (·.seq)) :=
  (projectTimelineRows_collapseOk h).sources

/-- The `seqStart` of every entry, in display order. -/
def starts (rows : List AgentTimelineRow) : List Int :=
  (projectTimelineRows rows .projected).map (·.seqStart)

section

variable (h : RowsAscending rows)
include h

theorem starts_sublist : (starts rows).Sublist (rows.map (·.seq)) :=
  (projectTimelineRows_collapseOk h).starts

/-- **Entries stand in the order of their `seqStart`.** -/
theorem starts_pairwise : (starts rows).Pairwise (· < ·) :=
  h.map_seq.sublist (starts_sublist h)

/-- Every row is a source of some entry. -/
theorem exists_source {row : AgentTimelineRow} (hrow : row ∈ rows) :
    ∃ e ∈ projectTimelineRows rows .projected, row.seq ∈ e.sources :=
  mem_flatMap.mp ((projectTimelineRows_sources h).symm.subset (mem_map_of_mem hrow))

/-- Every source of an entry is a row. -/
theorem source_row {e : TimelineProjectionEntry}
    (he : e ∈ projectTimelineRows rows .projected) {seq : Int} (hseq : seq ∈ e.sources) :
    ∃ row ∈ rows, row.seq = seq := by
  have hmem := (projectTimelineRows_sources h).subset (mem_flatMap.mpr ⟨e, he, hseq⟩)
  obtain ⟨row, hrow, rfl⟩ := mem_map.mp hmem
  exact ⟨row, hrow, rfl⟩

end

end

end Frogg.Server
