/-
  Subject:   The conversation that the client keeps for its next start
             (apps/ui/src/runtime/replica-cache/index.ts), and when it comes back whole.

  A stored row is read by its schema, which drops what it does not list: of a clean cut it lists
  fewer fields than the protocol does. **`claimsWhatItStores_iff`**: a range is kept only for
  items that come back whole exactly where each is one that the row can hold.
-/
import Frogg.Library.Failing
import Frogg.Ui.StreamItem

namespace Frogg.Ui.ReplicaCache

open Library Protocol List

/-! ## 1. Cached timelines -/

/-- A clean cut as the daemon sends it. -/
structure CleanCutMarker where
  summary : String
  previousSessionId : Option String
  previousProvider : Option String
  previousModel : Option String
  provider : Option String
  model : Option String
  summaryModel : Option String
  summaryUsage : Option Json
  previousContextTokens : Option Rat
  reusedSummary : Option Bool
  reason : Option String

inductive ActivityLogType where
  | system | info | success | error
  deriving DecidableEq

/-- Nothing looks into a call of the orchestrator. -/
inductive ToolCallPayload where
  | agent (data : AgentToolCallData)
  | orchestrator (data : Json)

/-- What tells the rows apart, with all their fields. -/
inductive ItemContent where
  | userMessage (clientMessageId messageId : Option String) (text : String)
      (images attachments : Option (List Json))
  | assistantMessage (messageId : Option String) (text : String) (blockGroupId : Option String)
      (blockIndex : Option Nat)
  | thought (text : String) (status : ThoughtStatus)
  | todoList (provider : String) (items : List AgentTaskItem) (activity : TaskActivity)
  | activityLog (activityType : ActivityLogType) (message : String) (metadata : Option JsonObject)
  | compaction (status : CompactionStatus) (trigger : Option CompactionTrigger)
      (preTokens : Option Rat) (cleanCut : Option CleanCutMarker)
  | toolCall (payload : ToolCallPayload)

/-- A row of the conversation; `timestamp` is its time in milliseconds, `none` an invalid date. -/
structure CachedItem where
  id : String
  timelineCursor : Option TimelinePosition
  turnId : Option String
  timestamp : Option Int
  content : ItemContent

structure RetainedRange where
  startSeq : Int
  endSeq : Int
  hasOlder : Option Bool

structure AgentTimelineCursorState where
  epoch : String
  startSeq : Int
  endSeq : Int
  retainedRanges : Option (List RetainedRange)

structure CachedTimeline where
  agentId : String
  items : List CachedItem
  range : Option AgentTimelineCursorState
  hasOlder : Bool

/-- A message that was sent from here and that no canonical row has answered yet. -/
def isUnreconciledLocalUserMessage : CachedItem → Bool
  | { content := .userMessage clientMessageId messageId .., timelineCursor, .. } =>
    clientMessageId.isSome && messageId.isNone && timelineCursor.isNone
  | _ => false

def canonicalItems (timeline : CachedTimeline) : List CachedItem :=
  timeline.items.filter fun item => !isUnreconciledLocalUserMessage item

/-! ## 2. Stored timelines -/

structure StoredToolCall where
  callId : String
  name : String
  status : ToolCallStatus
  error : Option Json
  detail : ToolCallDetail
  metadata : Option JsonObject

inductive StoredContent where
  | userMessage (clientMessageId messageId : Option String) (text : String)
  | assistantMessage (messageId : Option String) (text : String) (blockGroupId : Option String)
      (blockIndex : Option Nat)
  | thought (text : String) (status : ThoughtStatus)
  | todoList (provider : String) (items : List AgentTaskItem) (activity : TaskActivity)
  | activityLog (activityType : ActivityLogType) (message : String)
  | compaction (status : CompactionStatus) (trigger : Option CompactionTrigger)
      (preTokens : Option Rat) (cleanCut : Option CleanCutMarker)
  | toolCall (provider : String) (item : StoredToolCall)

/-- `timestamp` is the time that the ISO text names. -/
structure StoredTimelineItem where
  id : String
  timelineCursor : Option TimelinePosition
  turnId : Option String
  timestamp : Int
  content : StoredContent

structure StoredRange where
  epoch : String
  startSeq : Int
  endSeq : Int

structure StoredTimeline where
  agentId : String
  items : List StoredTimelineItem
  range : Option StoredRange
  hasOlder : Bool

/-! ## 3. Storing -/

def MAX_TIMELINE_ITEMS : Nat := 50

inductive SerializeError where
  /-- `toISOString` of an invalid date: a `RangeError` -/
  | invalidTimeValue

/-- `...(field ? { field } : {})` -/
def whereTruthy (field : Option String) : Option String := field.filter (· ≠ "")

def serializeAgentToolCall (data : AgentToolCallData) : StoredToolCall where
  callId := data.callId
  name := data.name
  status := data.status
  error := match data.status with
    | .running | .completed | .canceled => some .null
    | .failed => data.error
  detail := data.detail
  metadata := data.metadata

/-- The part that tells the rows apart; a call of the orchestrator is not stored. -/
def serializeContent : ItemContent → Option StoredContent
  | .userMessage clientMessageId messageId text _ _ =>
    some (.userMessage (whereTruthy clientMessageId) (whereTruthy messageId) text)
  | .assistantMessage messageId text blockGroupId blockIndex =>
    some (.assistantMessage (whereTruthy messageId) text (whereTruthy blockGroupId) blockIndex)
  | .thought text status => some (.thought text status)
  | .todoList provider items activity => some (.todoList provider items activity)
  | .activityLog activityType message _ => some (.activityLog activityType message)
  | .compaction status trigger preTokens cleanCut =>
    some (.compaction status trigger preTokens cleanCut)
  | .toolCall (.agent data) => some (.toolCall data.provider (serializeAgentToolCall data))
  | .toolCall (.orchestrator _) => none

def serializeTimelineItem (item : CachedItem) : Except SerializeError (Option StoredTimelineItem) :=
  match item.timestamp with
  | none => throw .invalidTimeValue
  | some timestamp => return (serializeContent item.content).map fun content =>
    { id := item.id
      timelineCursor := item.timelineCursor
      turnId := whereTruthy item.turnId
      timestamp
      content }

/-- `.map(serializeTimelineItem).filter((item) => item !== null)` -/
def serializeItems : List CachedItem → Except SerializeError (List StoredTimelineItem)
  | [] => return []
  | item :: items => do
    let stored ← serializeTimelineItem item
    let rest ← serializeItems items
    return stored.toList ++ rest

def isTimelineItemStoredLosslessly (item : CachedItem) : Bool :=
  match item.content with
  | .userMessage _ _ _ images attachments =>
    (images.getD []).length = 0 && (attachments.getD []).length = 0
  | .activityLog _ _ metadata => metadata.isNone
  | .toolCall (.agent _) => true
  | .toolCall (.orchestrator _) => false
  | _ => true

def liesIn (range : AgentTimelineCursorState) (item : CachedItem) : Bool :=
  item.timelineCursor.any fun cursor =>
    cursor.epoch = range.epoch && range.startSeq ≤ cursor.seq && cursor.seq ≤ range.endSeq

def endsAt (range : AgentTimelineCursorState) (item : CachedItem) : Bool :=
  item.timelineCursor.any fun cursor => cursor.seq = range.endSeq

def canPersistCoverage (canonical : List CachedItem) (items : List StoredTimelineItem)
    (range : AgentTimelineCursorState) : Bool :=
  range.retainedRanges.isNone && canonical.length ≤ MAX_TIMELINE_ITEMS &&
    items.length = canonical.length &&
    canonical.all (fun item => isTimelineItemStoredLosslessly item && liesIn range item) &&
    canonical.any (endsAt range)

def serializeTimeline (timeline : CachedTimeline) : Except SerializeError StoredTimeline := do
  let canonical := canonicalItems timeline
  let items ← serializeItems canonical
  let covered := timeline.range.filter (canPersistCoverage canonical items)
  return {
    agentId := timeline.agentId
    items := items.drop (items.length - MAX_TIMELINE_ITEMS)
    range := covered.map fun range => ⟨range.epoch, range.startSeq, range.endSeq⟩
    hasOlder := covered.isSome && timeline.hasOlder }

/-! ## 4. Reading back -/

/-- What `z.iso.datetime()` takes: the year has four digits. -/
def isIsoDateTime (timestamp : Int) : Bool :=
  -62167219200000 ≤ timestamp && timestamp ≤ 253402300799999

/-- `z.object` drops the fields that it does not list. -/
def parseCleanCut (marker : CleanCutMarker) : CleanCutMarker :=
  { marker with
    summaryUsage := none, previousContextTokens := none, reusedSummary := none, reason := none }

/-- Only a failed call has an error, and it has one. -/
def takesError (status : ToolCallStatus) (error : Option Json) : Bool :=
  match status, error with
  | .failed, some .null | .failed, none => false
  | .failed, some _ => true
  | _, some .null => true
  | _, _ => false

def parseContent : StoredContent → Option StoredContent
  | .compaction status trigger preTokens cleanCut =>
    if preTokens.all (0 ≤ ·) then
      some (.compaction status trigger preTokens (cleanCut.map parseCleanCut))
    else none
  | .toolCall provider item =>
    -- what the detail must be it is since it came over the wire
    if takesError item.status item.error then some (.toolCall provider item) else none
  | content => some content

/-- `StoredTimelineItemSchema`, on what has the type of a stored item. -/
def parseItem (item : StoredTimelineItem) : Option StoredTimelineItem :=
  if isIsoDateTime item.timestamp && item.timelineCursor.all (0 ≤ ·.seq) then
    (parseContent item.content).map fun content => { item with content }
  else none

def parseRange : Option StoredRange → Bool
  | none => true
  | some range => 0 ≤ range.startSeq && 0 ≤ range.endSeq

/-- `StoredTimelineSchema` -/
def parseTimeline (stored : StoredTimeline) : Option StoredTimeline :=
  if parseRange stored.range then
    (stored.items.mapM parseItem).map fun items => { stored with items }
  else none

def deserializeContent : StoredContent → ItemContent
  | .userMessage clientMessageId messageId text =>
    .userMessage (whereTruthy clientMessageId) (whereTruthy messageId) text none none
  | .assistantMessage messageId text blockGroupId blockIndex =>
    .assistantMessage (whereTruthy messageId) text (whereTruthy blockGroupId) blockIndex
  | .thought text status => .thought text status
  | .todoList provider items activity => .todoList provider items activity
  | .activityLog activityType message => .activityLog activityType message none
  | .compaction status trigger preTokens cleanCut => .compaction status trigger preTokens cleanCut
  | .toolCall provider item =>
    .toolCall (.agent
      { provider
        callId := item.callId
        name := item.name
        status := item.status
        error := item.error
        detail := item.detail
        metadata := item.metadata })

def deserializeTimelineItem (item : StoredTimelineItem) : CachedItem where
  id := item.id
  timelineCursor := item.timelineCursor
  turnId := whereTruthy item.turnId
  timestamp := some item.timestamp
  content := deserializeContent item.content

def deserializeTimeline (stored : StoredTimeline) : CachedTimeline where
  agentId := stored.agentId
  items := stored.items.map deserializeTimelineItem
  range := stored.range.map fun range => ⟨range.epoch, range.startSeq, range.endSeq, none⟩
  hasOlder := stored.hasOlder

/-- A row that the schema refuses is deleted, and one of another agent is not shown. -/
def readTimeline (agentId : String) (payload : StoredTimeline) : Option CachedTimeline := do
  let stored ← parseTimeline payload
  guard (stored.agentId = agentId)
  return deserializeTimeline stored

/-! ## 5. Items that come back -/

section Items

/-- A field that is stored where it is truthy is lost where it is the empty text. -/
def NotEmpty (field : Option String) : Prop := field ≠ some ""

/-- What the row of an item can hold. -/
def Storable : ItemContent → Prop
  | .userMessage clientMessageId messageId _ images attachments =>
    NotEmpty clientMessageId ∧ NotEmpty messageId ∧ images ≠ some [] ∧ attachments ≠ some []
  | .assistantMessage messageId _ blockGroupId _ => NotEmpty messageId ∧ NotEmpty blockGroupId
  | .compaction _ _ preTokens cleanCut =>
    (∀ n ∈ preTokens, 0 ≤ n) ∧ ∀ marker ∈ cleanCut, marker.summaryUsage = none ∧
      marker.previousContextTokens = none ∧ marker.reusedSummary = none ∧ marker.reason = none
  | .toolCall (.agent data) =>
    (data.status = .failed → data.error ≠ none ∧ data.error ≠ some .null) ∧
      (data.status ≠ .failed → data.error = some .null)
  | _ => True

/-- **An item that comes back as it was**, where its content is one that is stored losslessly. -/
structure ComesBack (item : CachedItem) : Prop where
  cursor : ∀ cursor ∈ item.timelineCursor, 0 ≤ cursor.seq
  turnId : NotEmpty item.turnId
  timestamp : ∀ timestamp ∈ item.timestamp, isIsoDateTime timestamp = true
  content : Storable item.content

variable {field : Option String} {item : CachedItem} {content : ItemContent} {timestamp : Int}

theorem whereTruthy_twice (field : Option String) :
    whereTruthy (whereTruthy field) = field ↔ NotEmpty field := by
  cases field with
  | none => exact iff_of_true rfl nofun
  | some text =>
    unfold whereTruthy NotEmpty
    by_cases hempty : text = ""
    · have hgone : (some text).filter (· ≠ "") = none :=
        Option.filter_some_neg (by simpa using hempty)
      rw [hgone]
      exact iff_of_false nofun fun h => h (congrArg some hempty)
    · have hkept : (some text).filter (· ≠ "") = some text :=
        Option.filter_some_pos (decide_eq_true hempty)
      rw [hkept, hkept]
      exact iff_of_true rfl fun h => hempty (Option.some.inj h)

theorem parseCleanCut_eq (cleanCut : Option CleanCutMarker) :
    cleanCut.map parseCleanCut = cleanCut ↔ ∀ marker ∈ cleanCut, marker.summaryUsage = none ∧
      marker.previousContextTokens = none ∧ marker.reusedSummary = none ∧ marker.reason = none := by
  cases cleanCut with
  | none => exact iff_of_true rfl fun _ => nofun
  | some marker =>
    constructor
    · intro h other hother
      obtain rfl := Option.some.inj hother
      have hsame := Option.some.inj h
      rw [← hsame]
      exact ⟨rfl, rfl, rfl, rfl⟩
    · intro h
      obtain ⟨husage, htokens, hreused, hreason⟩ := h marker rfl
      obtain ⟨⟩ := marker
      subst husage htokens hreused hreason
      rfl

/-- The error of a call is taken and comes back. -/
theorem toolError_eq (data : AgentToolCallData) :
    (takesError data.status (serializeAgentToolCall data).error = true ∧
      (serializeAgentToolCall data).error = data.error) ↔
      (data.status = .failed → data.error ≠ none ∧ data.error ≠ some .null) ∧
        (data.status ≠ .failed → data.error = some .null) := by
  obtain ⟨provider, callId, name, status, error, detail, metadata⟩ := data
  cases status with
  | failed =>
    refine ⟨fun h => ⟨fun _ => ?_, fun hnot => absurd rfl hnot⟩, fun h => ⟨?_, rfl⟩⟩
    · refine ⟨?_, ?_⟩
      all_goals
        rintro rfl
        cases h.1
    · obtain ⟨hnone, hnull⟩ := h.1 rfl
      cases error with
      | none => exact absurd rfl hnone
      | some value =>
        cases value with
        | null => exact absurd rfl hnull
        | bool _ | number _ | string _ | array _ | object _ => rfl
  | running | completed | canceled =>
    refine ⟨fun h => ⟨nofun, fun _ => h.2.symm⟩, fun h => ⟨rfl, ?_⟩⟩
    exact (h.2 nofun).symm

/-- Of what is attached, only an empty list is stored losslessly and lost. -/
theorem attached_eq {attached : Option (List Json)}
    (h : decide ((attached.getD []).length = 0) = true) :
    none = attached ↔ attached ≠ some [] := by
  cases attached with
  | none => exact iff_of_true rfl nofun
  | some values =>
    obtain rfl := length_eq_zero_iff.mp (of_decide_eq_true h)
    exact iff_of_false nofun fun h => h rfl

/-- The content of an item that is stored losslessly comes back exactly where it is storable. -/
theorem content_comesBack (h : isTimelineItemStoredLosslessly item = true) :
    ∃ stored, serializeContent item.content = some stored ∧
      ((parseContent stored).map deserializeContent = some item.content ↔
        Storable item.content) := by
  obtain ⟨id, timelineCursor, turnId, timestamp, content⟩ := item
  cases content with
  | userMessage clientMessageId messageId text images attachments =>
    obtain ⟨himages, hattachments⟩ := Bool.and_eq_true_iff.mp h
    refine ⟨_, rfl, ?_⟩
    show some (ItemContent.userMessage (whereTruthy (whereTruthy clientMessageId))
      (whereTruthy (whereTruthy messageId)) text none none) = some _ ↔ _ ∧ _ ∧ _ ∧ _
    rw [Option.some.injEq, ItemContent.userMessage.injEq, whereTruthy_twice, whereTruthy_twice,
      attached_eq himages, attached_eq hattachments, and_iff_right rfl]
  | assistantMessage messageId text blockGroupId blockIndex =>
    refine ⟨_, rfl, ?_⟩
    show some (ItemContent.assistantMessage (whereTruthy (whereTruthy messageId)) text
      (whereTruthy (whereTruthy blockGroupId)) blockIndex) = some _ ↔ _ ∧ _
    rw [Option.some.injEq, ItemContent.assistantMessage.injEq, whereTruthy_twice,
      whereTruthy_twice, and_iff_right rfl, and_iff_left rfl]
  | thought text status => exact ⟨_, rfl, iff_of_true rfl trivial⟩
  | todoList provider items activity => exact ⟨_, rfl, iff_of_true rfl trivial⟩
  | activityLog activityType message metadata =>
    obtain rfl := Option.isNone_iff_eq_none.mp h
    exact ⟨_, rfl, iff_of_true rfl trivial⟩
  | compaction status trigger preTokens cleanCut =>
    refine ⟨_, rfl, ?_⟩
    show (if preTokens.all (0 ≤ ·) then some (StoredContent.compaction status trigger preTokens
      (cleanCut.map parseCleanCut)) else none).map deserializeContent = some _ ↔ _ ∧ _
    have htokens : preTokens.all (0 ≤ ·) = true ↔ ∀ n ∈ preTokens, 0 ≤ n := by
      rw [Option.all_eq_true]
      exact forall₂_congr fun n _ => decide_eq_true_iff
    rw [← htokens, ← parseCleanCut_eq]
    by_cases hall : preTokens.all (0 ≤ ·) = true
    · rw [if_pos hall, and_iff_right hall]
      show some (ItemContent.compaction status trigger preTokens (cleanCut.map parseCleanCut)) =
        some _ ↔ _
      rw [Option.some.injEq, ItemContent.compaction.injEq, and_iff_right rfl, and_iff_right rfl,
        and_iff_right rfl]
    · rw [if_neg hall]; exact iff_of_false nofun fun h => hall h.1
  | toolCall payload =>
    cases payload with
    | orchestrator data => cases h
    | agent data =>
      refine ⟨_, rfl, ?_⟩
      show (if takesError data.status (serializeAgentToolCall data).error then
        some (StoredContent.toolCall data.provider (serializeAgentToolCall data)) else none).map
          deserializeContent = some _ ↔ _ ∧ _
      rw [← toolError_eq]
      by_cases htakes : takesError data.status (serializeAgentToolCall data).error = true
      · rw [if_pos htakes, and_iff_right htakes]
        show some (ItemContent.toolCall (.agent { data with
          error := (serializeAgentToolCall data).error })) = some _ ↔ _
        rw [Option.some.injEq, ItemContent.toolCall.injEq, ToolCallPayload.agent.injEq]
        exact ⟨fun h => congrArg AgentToolCallData.error h, fun h => by rw [h]⟩
      · rw [if_neg htakes]; exact iff_of_false nofun fun h => htakes h.1

/-- An item at a valid date, stored losslessly, has a row; it comes back from it exactly where the
    row can hold it. -/
theorem item_comesBack (hdate : item.timestamp ≠ none)
    (h : isTimelineItemStoredLosslessly item = true) :
    ∃ stored, serializeTimelineItem item = .ok (some stored) ∧
      ((parseItem stored).map deserializeTimelineItem = some item ↔ ComesBack item) := by
  obtain ⟨content, hcontent, hback⟩ := content_comesBack h
  obtain ⟨id, timelineCursor, turnId, timestamp, c⟩ := item
  obtain ⟨timestamp, rfl⟩ := Option.ne_none_iff_exists'.mp hdate
  refine ⟨⟨id, timelineCursor, whereTruthy turnId, timestamp, content⟩, ?_, ?_⟩
  · unfold serializeTimelineItem; rw [hcontent]; rfl
  · have hcursor : timelineCursor.all (0 ≤ ·.seq) = true ↔
        ∀ cursor ∈ timelineCursor, 0 ≤ cursor.seq := by
      rw [Option.all_eq_true]
      exact forall₂_congr fun cursor _ => decide_eq_true_iff
    unfold parseItem
    by_cases hshape : (isIsoDateTime timestamp && timelineCursor.all (0 ≤ ·.seq)) = true
    · obtain ⟨hiso, hall⟩ := Bool.and_eq_true_iff.mp hshape
      rw [if_pos hshape]
      have hitem : ((parseContent content).map fun content =>
          (⟨id, timelineCursor, whereTruthy turnId, timestamp, content⟩ :
            StoredTimelineItem)).map deserializeTimelineItem =
          some ⟨id, timelineCursor, turnId, some timestamp, c⟩ ↔
          whereTruthy (whereTruthy turnId) = turnId ∧
            (parseContent content).map deserializeContent = some c := by
        cases parseContent content with
        | none => exact iff_of_false nofun fun h => by cases h.2
        | some read =>
          show some (CachedItem.mk id timelineCursor (whereTruthy (whereTruthy turnId))
            (some timestamp) (deserializeContent read)) = some _ ↔ _ ∧ some _ = some _
          rw [Option.some.injEq, Option.some.injEq, CachedItem.mk.injEq, and_iff_right rfl,
            and_iff_right rfl, and_iff_right rfl]
      rw [hitem, whereTruthy_twice, hback]
      refine ⟨fun h => ⟨hcursor.mp hall, h.1, fun other hother => ?_, h.2⟩,
        fun h => ⟨h.turnId, h.content⟩⟩
      obtain rfl := Option.some.inj hother
      exact hiso
    · rw [if_neg hshape]
      refine iff_of_false nofun fun h => hshape ?_
      exact Bool.and_eq_true_iff.mpr ⟨h.timestamp timestamp rfl, hcursor.mpr h.cursor⟩

def readItems (stored : List StoredTimelineItem) : Option (List CachedItem) :=
  (stored.mapM parseItem).map fun items => items.map deserializeTimelineItem

variable {items : List CachedItem}

theorem readItems_cons {stored : StoredTimelineItem} {rest : List StoredTimelineItem}
    : readItems (stored :: rest) = some (item :: items) ↔
      (parseItem stored).map deserializeTimelineItem = some item ∧ readItems rest = some items := by
  unfold readItems
  rw [mapM_cons]
  cases parseItem stored with
  | none => exact iff_of_false nofun fun h => by cases h.1
  | some read =>
    cases rest.mapM parseItem with
    | none => exact iff_of_false nofun fun h => by cases h.2
    | some reads =>
      show some (deserializeTimelineItem read :: reads.map deserializeTimelineItem) = some _ ↔
        some _ = some _ ∧ some _ = some _
      rw [Option.some.injEq, Option.some.injEq, Option.some.injEq, List.cons.injEq]

/-- **Items that are stored losslessly come back, all of them, exactly where each one does.** -/
theorem items_comeBack (hdates : ∀ item ∈ items, item.timestamp ≠ none)
    (h : ∀ item ∈ items, isTimelineItemStoredLosslessly item = true) :
    ∃ stored, serializeItems items = .ok stored ∧ stored.length = items.length ∧
      (readItems stored = some items ↔ ∀ item ∈ items, ComesBack item) := by
  induction items with
  | nil => exact ⟨[], rfl, rfl, iff_of_true rfl (forall_mem_nil _)⟩
  | cons item items ih =>
    obtain ⟨hitem, hitems⟩ := forall_mem_cons.mp h
    obtain ⟨hdate, hdates⟩ := forall_mem_cons.mp hdates
    obtain ⟨stored, hstored, hback⟩ := item_comesBack hdate hitem
    obtain ⟨rest, hrest, hlength, hbacks⟩ := ih hdates hitems
    refine ⟨stored :: rest, ?_, congrArg (· + 1) hlength, ?_⟩
    · unfold serializeItems; rw [hstored, hrest]; rfl
    · rw [readItems_cons, hback, hbacks, forall_mem_cons]

theorem dated_of_serializeItems {stored : List StoredTimelineItem}
    (h : serializeItems items = .ok stored) : ∀ item ∈ items, item.timestamp ≠ none := by
  induction items generalizing stored with
  | nil => exact forall_mem_nil _
  | cons item items ih =>
    obtain ⟨row, hrow, h⟩ := except_bind_ok h
    obtain ⟨rest, hrest, -⟩ := except_bind_ok h
    refine forall_mem_cons.mpr ⟨fun hnone => ?_, ih hrest⟩
    unfold serializeTimelineItem at hrow
    rw [hnone] at hrow
    cases hrow

end Items

/-! ## 6. Timelines that come back -/

section Timelines

variable (timeline : CachedTimeline)

/-- What is asked of a timeline for its range to be kept. -/
structure Covered (range : AgentTimelineCursorState) : Prop where
  ranged : timeline.range = some range
  single : range.retainedRanges = none
  few : (canonicalItems timeline).length ≤ MAX_TIMELINE_ITEMS
  lossless : ∀ item ∈ canonicalItems timeline, isTimelineItemStoredLosslessly item = true
  within : ∀ item ∈ canonicalItems timeline, ∃ cursor, item.timelineCursor = some cursor ∧
    cursor.epoch = range.epoch ∧ range.startSeq ≤ cursor.seq ∧ cursor.seq ≤ range.endSeq
  reachesEnd : ∃ item ∈ canonicalItems timeline, ∃ cursor, item.timelineCursor = some cursor ∧
    cursor.seq = range.endSeq

/-- No item has an invalid date, which cannot be stored. -/
def Dated : Prop := ∀ item ∈ canonicalItems timeline, item.timestamp ≠ none

/-- **A timeline claims no more than it stores**: a range that is kept is that of items which come
    back as they were, all of them in it and one at its end; without a range nothing older is
    promised. -/
def ClaimsWhatItStores : Prop :=
  ∀ stored, serializeTimeline timeline = .ok stored →
    (∀ kept, stored.range = some kept →
      readTimeline timeline.agentId stored = some
        { agentId := timeline.agentId
          items := canonicalItems timeline
          range := some ⟨kept.epoch, kept.startSeq, kept.endSeq, none⟩
          hasOlder := timeline.hasOlder } ∧
      (∀ item ∈ canonicalItems timeline, ∃ cursor, item.timelineCursor = some cursor ∧
        cursor.epoch = kept.epoch ∧ kept.startSeq ≤ cursor.seq ∧ cursor.seq ≤ kept.endSeq) ∧
      ∃ item ∈ canonicalItems timeline, ∃ cursor, item.timelineCursor = some cursor ∧
        cursor.seq = kept.endSeq) ∧
    (stored.range = none → stored.hasOlder = false)

variable {timeline} {range : AgentTimelineCursorState} {item : CachedItem}

theorem liesIn_iff : liesIn range item = true ↔ ∃ cursor, item.timelineCursor = some cursor ∧
    cursor.epoch = range.epoch ∧ range.startSeq ≤ cursor.seq ∧ cursor.seq ≤ range.endSeq := by
  unfold liesIn
  rw [Option.any_eq_true]
  refine exists_congr fun cursor => and_congr_right fun _ => ?_
  rw [Bool.and_eq_true, Bool.and_eq_true, decide_eq_true_iff, decide_eq_true_iff,
    decide_eq_true_iff, and_assoc]

theorem endsAt_iff : endsAt range item = true ↔
    ∃ cursor, item.timelineCursor = some cursor ∧ cursor.seq = range.endSeq := by
  unfold endsAt
  rw [Option.any_eq_true]
  exact exists_congr fun cursor => and_congr_right fun _ => decide_eq_true_iff

/-- The range is kept exactly for a covered timeline, each of whose items has a row. -/
theorem canPersistCoverage_iff {items : List StoredTimelineItem}
    (hrange : timeline.range = some range) :
    canPersistCoverage (canonicalItems timeline) items range = true ↔
      Covered timeline range ∧ items.length = (canonicalItems timeline).length := by
  unfold canPersistCoverage
  rw [Bool.and_eq_true, Bool.and_eq_true, Bool.and_eq_true, Bool.and_eq_true,
    Option.isNone_iff_eq_none, decide_eq_true_iff, decide_eq_true_iff, all_eq_true,
    any_eq_true]
  constructor
  · rintro ⟨⟨⟨⟨hsingle, hfew⟩, hlength⟩, hall⟩, item, hitem, hend⟩
    exact ⟨⟨hrange, hsingle, hfew, fun item hitem => (Bool.and_eq_true_iff.mp (hall item hitem)).1,
      fun item hitem => liesIn_iff.mp (Bool.and_eq_true_iff.mp (hall item hitem)).2,
      item, hitem, endsAt_iff.mp hend⟩, hlength⟩
  · rintro ⟨h, hlength⟩
    obtain ⟨item, hitem, hend⟩ := h.reachesEnd
    exact ⟨⟨⟨⟨h.single, h.few⟩, hlength⟩, fun item hitem =>
      Bool.and_eq_true_iff.mpr ⟨h.lossless item hitem, liesIn_iff.mpr (h.within item hitem)⟩⟩,
      item, hitem, endsAt_iff.mpr hend⟩

/-- What is stored of a covered timeline, and when it is read back whole. -/
theorem Covered.stored (h : Covered timeline range) (hdated : Dated timeline) :
    ∃ items, serializeTimeline timeline = .ok ⟨timeline.agentId, items,
        some ⟨range.epoch, range.startSeq, range.endSeq⟩, timeline.hasOlder⟩ ∧
      (readTimeline timeline.agentId ⟨timeline.agentId, items,
          some ⟨range.epoch, range.startSeq, range.endSeq⟩, timeline.hasOlder⟩ = some
        { agentId := timeline.agentId
          items := canonicalItems timeline
          range := some ⟨range.epoch, range.startSeq, range.endSeq, none⟩
          hasOlder := timeline.hasOlder } ↔
        (0 ≤ range.startSeq ∧ 0 ≤ range.endSeq) ∧
          ∀ item ∈ canonicalItems timeline, ComesBack item) := by
  obtain ⟨items, hitems, hlength, hback⟩ := items_comeBack hdated h.lossless
  refine ⟨items, ?_, ?_⟩
  · have hkept : timeline.range.filter (canPersistCoverage (canonicalItems timeline) items) =
        some range := by
      rw [h.ranged]
      exact Option.filter_some_pos ((canPersistCoverage_iff h.ranged).mpr ⟨h, hlength⟩)
    have hall : items.drop (items.length - MAX_TIMELINE_ITEMS) = items := by
      rw [Nat.sub_eq_zero_of_le (hlength ▸ h.few), drop_zero]
    unfold serializeTimeline
    dsimp only
    rw [hitems]
    show Except.ok (StoredTimeline.mk _ (items.drop _)
      ((timeline.range.filter _).map _) ((timeline.range.filter _).isSome && _)) = _
    rw [hkept, hall]
    rfl
  · rw [← hback]
    unfold readTimeline parseTimeline
    by_cases hrange : parseRange (some ⟨range.epoch, range.startSeq, range.endSeq⟩) = true
    · have hbounds : 0 ≤ range.startSeq ∧ 0 ≤ range.endSeq := by
        obtain ⟨hstart, hend⟩ := Bool.and_eq_true_iff.mp hrange
        exact ⟨of_decide_eq_true hstart, of_decide_eq_true hend⟩
      rw [if_pos hrange, and_iff_right hbounds]
      unfold readItems
      cases items.mapM parseItem with
      | none => exact iff_of_false nofun nofun
      | some reads =>
        show (guard (timeline.agentId = timeline.agentId) >>= fun _ => some (CachedTimeline.mk
          timeline.agentId (reads.map deserializeTimelineItem) (some ⟨_, _, _, none⟩)
            timeline.hasOlder)) = some _ ↔ some _ = some _
        rw [guard, if_pos rfl]
        show some _ = some _ ↔ some _ = some _
        rw [Option.some.injEq, Option.some.injEq, CachedTimeline.mk.injEq, and_iff_right rfl,
          and_iff_left ⟨rfl, rfl⟩]
    · rw [if_neg hrange]
      refine iff_of_false nofun fun hboth => hrange ?_
      exact Bool.and_eq_true_iff.mpr ⟨decide_eq_true hboth.1.1, decide_eq_true hboth.1.2⟩

/-- A range that is kept is that of a covered timeline without an invalid date. -/
theorem covered_of_serializeTimeline {stored : StoredTimeline}
    (h : serializeTimeline timeline = .ok stored) : (∃ range, Covered timeline range ∧
      Dated timeline) ∨ stored.range = none ∧ stored.hasOlder = false := by
  obtain ⟨items, hitems, h⟩ := except_bind_ok h
  obtain rfl := Except.ok.inj h
  cases hcovered : timeline.range.filter (canPersistCoverage (canonicalItems timeline) items) with
  | none => exact .inr ⟨rfl, rfl⟩
  | some range =>
    obtain ⟨hrange, hkept⟩ := Option.filter_eq_some_iff.mp hcovered
    exact .inl ⟨range, ((canPersistCoverage_iff hrange).mp hkept).1, dated_of_serializeItems hitems⟩

/-- **A timeline claims no more than it stores exactly where each item that a kept range is for
    comes back from its row.** -/
theorem claimsWhatItStores_iff (timeline : CachedTimeline) :
    ClaimsWhatItStores timeline ↔ ∀ range, Covered timeline range → Dated timeline →
      (0 ≤ range.startSeq ∧ 0 ≤ range.endSeq) ∧
        ∀ item ∈ canonicalItems timeline, ComesBack item := by
  constructor
  · intro h range hcovered hdated
    obtain ⟨items, hstored, hback⟩ := hcovered.stored hdated
    exact hback.mp ((h _ hstored).1 _ rfl).1
  · intro h stored hstored
    rcases covered_of_serializeTimeline hstored with ⟨range, hcovered, hdated⟩ | ⟨hnone, hless⟩
    · obtain ⟨items, hrow, hback⟩ := hcovered.stored hdated
      obtain rfl := Except.ok.inj (hrow.symm.trans hstored)
      refine ⟨fun kept hkept => ?_, nofun⟩
      obtain rfl := Option.some.inj hkept
      exact ⟨hback.mpr (h range hcovered hdated), hcovered.within, hcovered.reachesEnd⟩
    · refine ⟨fun kept hkept => ?_, fun _ => hless⟩
      rw [hnone] at hkept
      cases hkept

/-- A clean cut of today's daemon, the one item of its timeline. -/
def cleanCutTimeline : CachedTimeline where
  agentId := "agent-1"
  items := [
    { id := "compaction_1"
      timelineCursor := some ⟨"epoch-1", 4⟩
      turnId := none
      timestamp := some 1767225600000
      content := .compaction .completed none none (some
        { summary := "The frog is green."
          previousSessionId := none
          previousProvider := none
          previousModel := none
          provider := none
          model := none
          summaryModel := none
          summaryUsage := none
          previousContextTokens := none
          reusedSummary := none
          reason := some "manual" }) }]
  range := some ⟨"epoch-1", 4, 4, none⟩
  hasOlder := false

/-- The reason of a clean cut is lost, and the range is kept. -/
theorem cleanCut_not_restored : ¬ ClaimsWhatItStores cleanCutTimeline := by
  intro h
  obtain ⟨hread, -⟩ := (h _ rfl).1 _ rfl
  have hitem := (List.cons.inj (CachedTimeline.mk.inj (Option.some.inj hread)).2.1).1
  have hmarker := (ItemContent.compaction.inj (congrArg (·.content) hitem)).2.2.2
  cases congrArg CleanCutMarker.reason (Option.some.inj hmarker)

end Timelines

end Frogg.Ui.ReplicaCache
