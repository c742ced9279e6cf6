/-
  Subject:   The projection preserves streamed text (server/agent/timeline-projection.ts).

  An entry of assistant or reasoning text is made of a run of rows of its kind and its turn, and its
  text is theirs, in order.

  * `projectTimelineRows_spells`: every projected entry is such;
  * `projectTimelineRows_partitions`: with the partition of the numbers, the whole result.
-/
import Frogg.Server.ProjectionSources
import Mathlib.Data.List.Sort

namespace Frogg.Server

open Library Protocol List

/-! ## 1. Streamed texts -/

inductive StreamedKind where
  | assistant | reasoning
  deriving DecidableEq, Repr

/-- Kind and text of an item that is streamed in chunks. -/
def streamedText : AgentTimelineItem → Option (StreamedKind × String)
  | .assistantMessage text _ => some (.assistant, text)
  | .reasoning text => some (.reasoning, text)
  | _ => none

/-- The rows, one by one, are the sources of the entry: of its kind and its turn, and with its text
    between them. -/
structure SpelledBy (e : TimelineProjectionEntry) (kind : StreamedKind) (text : String)
    (sources : List AgentTimelineRow) : Prop where
  seqs : sources.map (·.seq) = e.sources
  turn : ∀ row ∈ sources, truthy row.turnId = e.turnId
  text : ∃ texts, sources.map (fun row => streamedText row.item) =
    texts.map (fun chunk => some (kind, chunk)) ∧ text = String.join texts

/-- Every text the entry shows is spelled by some of the rows. -/
def Spells (rows : List AgentTimelineRow) (e : TimelineProjectionEntry) : Prop :=
  ∀ kind text, streamedText e.item = some (kind, text) →
    ∃ sources, (∀ row ∈ sources, row ∈ rows) ∧ SpelledBy e kind text sources

variable {rows : List AgentTimelineRow} {a b c : TimelineProjectionEntry}

theorem spells_toEntry {row : AgentTimelineRow} (hrow : row ∈ rows) : Spells rows row.toEntry := by
  intro kind text htext
  refine ⟨[row], by simpa using hrow, by simp, ?_, [text], ?_, ?_⟩
  · intro r hr; obtain rfl := mem_singleton.mp hr; rfl
  · rw [toEntry_item] at htext; simp [htext]
  · simp [String.join]

/-- What both chunk merges do to the texts. -/
theorem Spells.mergeChunk {kind : StreamedKind} {previousText entryText : String}
    {item : AgentTimelineItem} {collapse : TimelineProjectionKind} (ha : EntryOk a) (hb : EntryOk b)
    (hspellsA : Spells rows a) (hspellsB : Spells rows b)
    (hprevious : streamedText a.item = some (kind, previousText))
    (hentry : streamedText b.item = some (kind, entryText))
    (hadj : a.seqEnd + 1 = b.seqStart) (hturn : a.turnId = b.turnId)
    (hitem : streamedText item = some (kind, previousText ++ entryText)) :
    Spells rows (Server.mergeChunk a b item collapse) := by
  intro kind' text htext
  obtain ⟨rfl, rfl⟩ : kind = kind' ∧ previousText ++ entryText = text := by
    have heq := hitem.symm.trans htext
    simpa using heq
  obtain ⟨left, hleft, hspelledA⟩ := hspellsA _ _ hprevious
  obtain ⟨right, hright, hspelledB⟩ := hspellsB _ _ hentry
  obtain ⟨texts, htexts, rfl⟩ := hspelledA.text
  obtain ⟨texts', htexts', rfl⟩ := hspelledB.text
  refine ⟨left ++ right, fun row hrow => ?_, ?_, fun row hrow => ?_, texts ++ texts', ?_, ?_⟩
  · rcases mem_append.mp hrow with hrow | hrow
    · exact hleft row hrow
    · exact hright row hrow
  · rw [map_append, hspelledA.seqs, hspelledB.seqs, (mergeChunk_ok ha hb hadj item collapse).2]
  · rcases mem_append.mp hrow with hrow | hrow
    · exact hspelledA.turn row hrow
    · exact (hspelledB.turn row hrow).trans hturn.symm
  · rw [map_append, map_append, htexts, htexts']
  · rw [String.join_append]

theorem joinReasoning_spells (ha : EntryOk a ∧ Spells rows a) (hb : EntryOk b ∧ Spells rows b)
    (h : joinReasoning a b = some c) : EntryOk c ∧ Spells rows c := by
  refine ⟨(joinReasoning_ok ha.1 hb.1 h).1, ?_⟩
  obtain ⟨previousText, entryText, hprevious, hentry, hadj, hturn, rfl⟩ := joinReasoning_some h
  exact Spells.mergeChunk ha.1 hb.1 ha.2 hb.2 (by rw [hprevious]; rfl) (by rw [hentry]; rfl) hadj
    hturn rfl

theorem joinAssistant_spells (ha : EntryOk a ∧ Spells rows a) (hb : EntryOk b ∧ Spells rows b)
    (h : joinAssistant a b = some c) : EntryOk c ∧ Spells rows c := by
  refine ⟨(joinAssistant_ok ha.1 hb.1 h).1, ?_⟩
  obtain ⟨_, _, _, _, hprevious, hentry, hadj, hturn, _, rfl⟩ := joinAssistant_some h
  exact Spells.mergeChunk ha.1 hb.1 ha.2 hb.2 (by rw [hprevious]; rfl) (by rw [hentry]; rfl) hadj
    hturn rfl

/-! ## 2. The three passes -/

theorem Spells.concat (h : Spells rows a) (row : AgentTimelineRow) : Spells (rows ++ [row]) a := by
  intro kind text htext
  obtain ⟨sources, hsources, hspelled⟩ := h kind text htext
  exact ⟨sources, fun r hr => mem_append_left _ (hsources r hr), hspelled⟩

theorem spells_toolCall {call : ToolCallTimelineItem} (h : a.item = .toolCall call) :
    Spells rows a := by
  intro kind text htext
  rw [h] at htext
  simp [streamedText] at htext

/-- The collapsing loop merges tool calls only. -/
theorem collapseRows_spells (rows : List AgentTimelineRow) :
    ∀ e ∈ (collapseRows rows).output, Spells rows e := by
  induction rows using reverseRecOn with
  | nil => simp [collapseRows, makeCanonicalEntries]
  | append_singleton rows row ih =>
    intro e he
    rw [collapseRows_concat] at he
    rcases collapseStep_output (collapseRows rows) row.toEntry with hout | ⟨i, existing, merged,
      _, hm, hout⟩
    · rw [hout] at he
      rcases mem_append.mp he with he | he
      · exact (ih e he).concat row
      · obtain rfl := mem_singleton.mp he; exact spells_toEntry (by simp)
    · obtain ⟨⟨_, _, _, _, hcall⟩, _⟩ := mergeIdentityEntries_some hm
      rw [hout] at he
      rcases mem_or_eq_of_mem_set he with he | rfl
      · exact (ih e he).concat row
      · exact spells_toolCall hcall

/-- **Every projected entry is spelled by rows.** -/
theorem projectTimelineRows_spells (h : RowsAscending rows) {e : TimelineProjectionEntry}
    (he : e ∈ projectTimelineRows rows .projected) : Spells rows e := by
  have hcollapsed : ∀ e ∈ (collapseRows rows).output, EntryOk e ∧ Spells rows e :=
    fun e he => ⟨(collapseRows_ok h).entries e he, collapseRows_spells rows e he⟩
  have hassistant : ∀ e ∈ mergeAssistantChunks (collapseRows rows).output,
      EntryOk e ∧ Spells rows e :=
    mergeAdjacent_forall (fun _ _ _ ha hb hj => joinAssistant_spells ha hb hj) hcollapsed
  have hreasoning := mergeAdjacent_forall
    (fun _ _ _ ha hb hj => joinReasoning_spells ha hb hj) hassistant
  exact (hreasoning e he).2

/-! ## 3. The rows of an entry -/

/-- The rows whose numbers an entry covers. -/
def sourceRows (rows : List AgentTimelineRow) (e : TimelineProjectionEntry) :
    List AgentTimelineRow :=
  rows.filter fun row => row.seq ∈ e.sources

theorem RowsAscending.seq_inj (h : RowsAscending rows) {r r' : AgentTimelineRow} (hr : r ∈ rows)
    (hr' : r' ∈ rows) (hseq : r.seq = r'.seq) : r = r' := by
  have hnodup : (rows.map (·.seq)).Nodup := h.map_seq.imp fun hlt => Int.ne_of_lt hlt
  exact inj_on_of_nodup_map hnodup hr hr' hseq

/-- Rows in order are known by their numbers. -/
theorem SpelledBy.sources_eq {kind : StreamedKind} {text : String} {sources : List AgentTimelineRow}
    (h : RowsAscending rows) (he : EntryOk a) (hsources : ∀ row ∈ sources, row ∈ rows)
    (hspelled : SpelledBy a kind text sources) : sources = sourceRows rows a := by
  have hascending : sources.Pairwise fun r r' => r.seq < r'.seq := by
    have hmap := he.pairwise
    rw [← hspelled.seqs] at hmap
    exact pairwise_map.mp hmap
  refine hascending.eq_of_mem_iff (List.Pairwise.filter _ h) fun row => ?_
  constructor
  · intro hrow
    have hseq : row.seq ∈ a.sources := hspelled.seqs ▸ mem_map_of_mem hrow
    simpa [sourceRows] using And.intro (hsources row hrow) hseq
  · intro hrow
    obtain ⟨hrow, hseq⟩ : row ∈ rows ∧ row.seq ∈ a.sources := by simpa [sourceRows] using hrow
    rw [← hspelled.seqs] at hseq
    obtain ⟨row', hrow', hsame⟩ := mem_map.mp hseq
    obtain rfl := h.seq_inj (hsources row' hrow') hrow hsame
    exact hrow'

/-- Kind, turn and text of an entry against its source rows. -/
structure TextOf (rows : List AgentTimelineRow) (e : TimelineProjectionEntry) (kind : StreamedKind)
    (text : String) : Prop where
  turn : ∀ row ∈ rows, truthy row.turnId = e.turnId
  text : ∃ texts, rows.map (fun row => streamedText row.item) =
    texts.map (fun chunk => some (kind, chunk)) ∧ text = String.join texts

/-- **The projection partitions the rows and keeps their texts**: entries stand in the order of
    their first numbers, their numbers are those of the rows, each once, and a streamed text is
    that of its source rows in order, all of its kind and its turn. -/
theorem projectTimelineRows_partitions (rows : List AgentTimelineRow) (h : RowsAscending rows) :
    ((projectTimelineRows rows .projected).map (·.seqStart)).Pairwise (· < ·) ∧
      ((projectTimelineRows rows .projected).flatMap fun e => sourceSeqs e.sourceSeqRanges).Perm
        (rows.map (·.seq)) ∧
      ∀ e ∈ projectTimelineRows rows .projected, ∀ kind text,
        streamedText e.item = some (kind, text) → TextOf (sourceRows rows e) e kind text := by
  refine ⟨starts_pairwise h, projectTimelineRows_sources h, fun e he kind text htext => ?_⟩
  obtain ⟨sources, hsources, hspelled⟩ := projectTimelineRows_spells h he kind text htext
  have heq := hspelled.sources_eq h (projectTimelineRows_ok h he) hsources
  subst heq
  exact ⟨hspelled.turn, hspelled.text⟩

/-- Two rows of a reasoning text without a turn. -/
def untitledRows : List AgentTimelineRow :=
  [{ seq := 1, timestamp := "", item := .reasoning "a", turnId := some "" },
    { seq := 2, timestamp := "", item := .reasoning "b" }]

theorem projectTimelineRows_partitions_untitled : RowsAscending untitledRows ∧
    ∀ e ∈ projectTimelineRows untitledRows .projected, ∀ kind text,
      streamedText e.item = some (kind, text) → TextOf (sourceRows untitledRows e) e kind text := by
  have h : RowsAscending untitledRows := by simp [RowsAscending, untitledRows]
  exact ⟨h, (projectTimelineRows_partitions untitledRows h).2.2⟩

/-- An empty `turnId` counts as none, so that rows with different ones are merged. -/
theorem empty_turnId_merged : RowsAscending untitledRows ∧
    ∃ e, projectTimelineRows untitledRows .projected = [e] ∧
      streamedText e.item = some (.reasoning, "ab") ∧
      (sourceRows untitledRows e).map (·.turnId) = [some "", none] :=
  ⟨by simp [RowsAscending, untitledRows], _, rfl, by decide, by decide⟩

end Frogg.Server
