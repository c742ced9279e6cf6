/-
  Subject:   The projection of timeline rows to displayed entries
             (server/agent/timeline-projection.ts, lines 45-293; the row type of
             agent-timeline-store-types.ts).

  Three passes over the canonical entries: tool updates collapse into the first row of their call
  (`collapseByIdentity`), then neighbouring assistant chunks and neighbouring reasoning chunks merge
  (`mergeAdjacent` with the two joins). `seq` numbers are integers: the code subtracts one from the
  smallest of them.
-/
import Frogg.Library.MergeAdjacent
import Frogg.Protocol.TimelineItem

namespace Frogg.Server

open Library Protocol

/-! ## 1. Rows and entries -/

structure AgentTimelineRow where
  seq : Int
  timestamp : String
  item : AgentTimelineItem
  turnId : Option String := none
  providerMessageId : Option String := none

structure TimelineSeqRange where
  startSeq : Int
  endSeq : Int
  deriving DecidableEq, Repr

inductive TimelineProjectionKind where
  | assistantMerge | reasoningMerge | toolLifecycle | identity
  deriving DecidableEq, Repr

structure TimelineProjectionEntry where
  item : AgentTimelineItem
  turnId : Option String
  timestamp : String
  seqStart : Int
  seqEnd : Int
  sourceSeqRanges : List TimelineSeqRange
  collapsed : List TimelineProjectionKind

/-- A string tested for truth: the empty one reads as absent. -/
def truthy : Option String → Option String
  | some "" => none
  | s => s

/-! ## 2. Source ranges -/

def appendSeqToRanges (ranges : List TimelineSeqRange) (seq : Int) : List TimelineSeqRange :=
  match ranges.getLast? with
  | none => [⟨seq, seq⟩]
  | some last =>
    if seq ≤ last.endSeq + 1 then
      ranges.dropLast ++ [{ last with endSeq := max last.endSeq seq }]
    else
      ranges ++ [⟨seq, seq⟩]

/-- The numbers a loop from `startSeq` to `endSeq` visits. -/
def TimelineSeqRange.seqs (range : TimelineSeqRange) : List Int :=
  (List.range (range.endSeq + 1 - range.startSeq).toNat).map fun k : Nat => range.startSeq + k

def mergeSeqRanges (existing incoming : List TimelineSeqRange) : List TimelineSeqRange :=
  incoming.foldl (fun merged range => range.seqs.foldl appendSeqToRanges merged) existing

/-! ## 3. Tool updates -/

def mergeToolCallDetail (existing incoming : ToolCallDetail) : ToolCallDetail :=
  if existing.isUnknown && !incoming.isUnknown then incoming
  else if incoming.isUnknown && !existing.isUnknown then existing
  else incoming

def mergeToolCallMetadata (existing incoming : Option JsonObject) : Option JsonObject :=
  if existing.isSome || incoming.isSome then
    some ((existing.getD []).spread (incoming.getD []))
  else none

def mergeToolCallError (status : ToolCallStatus) (existing incoming : Option Json) : Option Json :=
  match status with
  | .failed => incoming
  | .completed | .canceled => some .null
  | .running => if incoming.isSome then incoming else existing

/-- `{ ...existing, ...incoming }` with the detail, the metadata and the error merged: every other
    property is the incoming one. -/
def mergeToolCallItems (existing incoming : ToolCallTimelineItem) : ToolCallTimelineItem where
  callId := incoming.callId
  name := incoming.name
  status := incoming.status
  error := mergeToolCallError incoming.status existing.error incoming.error
  detail := mergeToolCallDetail existing.detail incoming.detail
  metadata := mergeToolCallMetadata existing.metadata incoming.metadata
  errorNull h := by
    have hnull := incoming.errorNull h
    cases hs : incoming.status with
    | failed => exact absurd hs h
    | running => simp [mergeToolCallError, hnull]
    | completed => rfl
    | canceled => rfl

/-! ## 4. The three passes -/

def AgentTimelineRow.toEntry (row : AgentTimelineRow) : TimelineProjectionEntry where
  item := row.item
  turnId := truthy row.turnId
  timestamp := row.timestamp
  seqStart := row.seq
  seqEnd := row.seq
  sourceSeqRanges := [⟨row.seq, row.seq⟩]
  collapsed := []

def makeCanonicalEntries (rows : List AgentTimelineRow) : List TimelineProjectionEntry :=
  rows.map AgentTimelineRow.toEntry

def mergeIdentityEntries (existing entry : TimelineProjectionEntry) :
    Option TimelineProjectionEntry :=
  match entry.item, existing.item with
  | .toolCall incoming, .toolCall call =>
    if existing.turnId ≠ entry.turnId then none
    else some { existing with
      item := .toolCall (mergeToolCallItems call incoming)
      timestamp := entry.timestamp
      seqEnd := max existing.seqEnd entry.seqEnd
      sourceSeqRanges := mergeSeqRanges existing.sourceSeqRanges entry.sourceSeqRanges
      collapsed :=
        if TimelineProjectionKind.toolLifecycle ∈ existing.collapsed then existing.collapsed
        else existing.collapsed ++ [.toolLifecycle] }
  | _, _ => none

/-- What the collapsing loop carries: the output so far and, for each identity, the index of the
    entry it was last written to (the newest pair is the one a lookup finds). -/
structure CollapseState where
  output : List TimelineProjectionEntry
  indexByIdentity : List (String × Nat)

def CollapseState.push (s : CollapseState) (identity : String)
    (entry : TimelineProjectionEntry) : CollapseState :=
  ⟨s.output ++ [entry], (identity, s.output.length) :: s.indexByIdentity⟩

def collapseStep (s : CollapseState) (entry : TimelineProjectionEntry) : CollapseState :=
  match timelineItemIdentity entry.item with
  | none => { s with output := s.output ++ [entry] }
  | some identity =>
    match s.indexByIdentity.lookup identity with
    | none => s.push identity entry
    | some existingIndex =>
      match s.output[existingIndex]?.bind (mergeIdentityEntries · entry) with
      | none => s.push identity entry
      | some merged => { s with output := s.output.set existingIndex merged }

def collapseByIdentity (entries : List TimelineProjectionEntry) : List TimelineProjectionEntry :=
  (entries.foldl collapseStep ⟨[], []⟩).output

/-- `Array.from(new Set([...previous, ...entry, kind]))` -/
def mergeCollapsed (previous entry : List TimelineProjectionKind) (kind : TimelineProjectionKind) :
    List TimelineProjectionKind :=
  (previous ++ entry ++ [kind]).eraseDups

variable (previous entry : TimelineProjectionEntry)

/-- The part of a chunk merge that both kinds of text share. -/
def mergeChunk (item : AgentTimelineItem)
    (kind : TimelineProjectionKind) : TimelineProjectionEntry :=
  { previous with
    item
    timestamp := entry.timestamp
    seqEnd := entry.seqEnd
    sourceSeqRanges := mergeSeqRanges previous.sourceSeqRanges entry.sourceSeqRanges
    collapsed := mergeCollapsed previous.collapsed entry.collapsed kind }

def joinReasoning : Option TimelineProjectionEntry :=
  match previous.item, entry.item with
  | .reasoning previousText, .reasoning entryText =>
    if previous.seqEnd + 1 = entry.seqStart ∧ previous.turnId = entry.turnId then
      some (mergeChunk previous entry (.reasoning (previousText ++ entryText)) .reasoningMerge)
    else none
  | _, _ => none

def joinAssistant : Option TimelineProjectionEntry :=
  match previous.item, entry.item with
  | .assistantMessage previousText previousId, .assistantMessage entryText entryId =>
    if previous.seqEnd + 1 = entry.seqStart ∧ previous.turnId = entry.turnId then
      if entryId ≠ none ∧ previousId ≠ entryId then none
      else some (mergeChunk previous entry
        (.assistantMessage (previousText ++ entryText) (truthy previousId)) .assistantMerge)
    else none
  | _, _ => none

def mergeReasoningChunks : List TimelineProjectionEntry → List TimelineProjectionEntry :=
  mergeAdjacent joinReasoning

def mergeAssistantChunks : List TimelineProjectionEntry → List TimelineProjectionEntry :=
  mergeAdjacent joinAssistant

inductive TimelineProjectionMode where
  | canonical | projected
  deriving DecidableEq, Repr

def projectTimelineRows (rows : List AgentTimelineRow) (mode : TimelineProjectionMode) :
    List TimelineProjectionEntry :=
  let canonical := makeCanonicalEntries rows
  match mode with
  | .canonical => canonical
  | .projected => mergeReasoningChunks (mergeAssistantChunks (collapseByIdentity canonical))

end Frogg.Server
