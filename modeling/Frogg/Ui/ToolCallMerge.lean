/-
  Subject:   How the client merges the updates of a tool call (apps/ui/src/types/stream.ts,
             lines 992-1182).

  Where all incoming fields are there already the code returns the existing object in place of a
  copy; as values the two are the same (`spread_sameIncomingFields`), so the copy alone is
  modelled. An update that changes nothing at all leaves even the row's timestamp in the code;
  nothing reads that of a tool row.
-/
import Frogg.Ui.StreamItem

namespace Frogg.Ui

open Library Protocol

/-! ## 1. Values -/

/-- `value ?? other` takes the other where this holds. -/
def isNullish : Option Json → Bool
  | none => true
  | some .null => true
  | _ => false

/-- `value ?? other` -/
def orNullish (value other : Option Json) : Option Json := if isNullish value then other else value

def hasNonEmptyObject : Json → Bool
  | .object fields => !fields.isEmpty
  | _ => false

def isNull : Json → Bool
  | .null => true
  | _ => false

def mergeUnknownValue (existing incoming : Json) : Json :=
  if isNull incoming then existing
  else if !hasNonEmptyObject incoming && hasNonEmptyObject existing then existing
  else incoming

/-! ## 2. Merges -/

def mergeToolCallMetadata (existing incoming : Option JsonObject) : Option JsonObject :=
  match existing, incoming with
  | existing, none => existing
  | none, some incoming => some incoming
  | some existing, some incoming => some (existing.spread incoming)

def mergeToolCallDetail : ToolCallDetail → ToolCallDetail → ToolCallDetail
  | .unknown _ _, .known type fields => .known type fields
  | .known type fields, .unknown _ _ => .known type fields
  | .unknown existingInput existingOutput, .unknown input output =>
    .unknown (mergeUnknownValue existingInput input) (mergeUnknownValue existingOutput output)
  | .known existingType existing, .known type incoming =>
    if existingType = type then .known type (existing.spread incoming) else .known type incoming

def mergeAgentToolCallStatus (existing incoming : ToolCallStatus) : ToolCallStatus :=
  if existing = .failed ∨ incoming = .failed then .failed
  else if existing = .canceled then .canceled
  else if incoming = .canceled then (if existing = .completed then .completed else .canceled)
  else if existing = .completed ∨ incoming = .completed then .completed
  else .running

/-- `{ message: "Tool call failed" }` -/
def toolCallFailed : Json := .object [("message", .string "Tool call failed")]

def mergeAgentToolCallError (status : ToolCallStatus) (existing incoming : Option Json) :
    Option Json :=
  if status = .failed then orNullish incoming (orNullish existing (some toolCallFailed))
  else some .null

/-- `payload.data` of the merged row. -/
def mergeAgentToolCallData (existing data : AgentToolCallData) : AgentToolCallData :=
  let mergedStatus := mergeAgentToolCallStatus existing.status data.status
  { data with
    status := mergedStatus
    error := mergeAgentToolCallError mergedStatus existing.error data.error
    detail := mergeToolCallDetail existing.detail data.detail
    metadata := mergeToolCallMetadata existing.metadata data.metadata }

/-- The row of a call that holds `existing`, with an update merged in. -/
def mergeAgentToolCallItem (row : StreamItem) (existing data : AgentToolCallData) (timestamp : Int)
    (timelineCursor : Option TimelinePosition) : StreamItem :=
  { row with
    timelineCursor := timelineCursor.or row.timelineCursor
    timestamp
    content := .toolCall (mergeAgentToolCallData existing data) }

/-- The data `reduceTimelineToolCall` hands on. -/
def agentToolCallData (provider : String) (item : ToolCallTimelineItem) : AgentToolCallData :=
  ⟨provider, item.callId, item.name, item.status, item.error, item.detail, item.metadata⟩

def inputFromUnknownDetail : ToolCallDetail → Json
  | .unknown input _ => input
  | .known _ _ => .null

def agentToolCallId (callId : String) : String := "agent_tool_" ++ callId

/-- The row of a call not shown yet. -/
def agentToolCallItem (data : AgentToolCallData) (timestamp : Int)
    (timelineCursor : Option TimelinePosition) : StreamItem where
  id := agentToolCallId data.callId
  timelineCursor
  turnId := none
  timestamp
  content := .toolCall { data with
    error := if data.status = .failed then data.error else some .null }

def appendAgentToolCall (state : List StreamItem) (data : AgentToolCallData) (timestamp : Int)
    (timelineCursor : Option TimelinePosition) : List StreamItem :=
  match state.findIdx? fun entry => streamTimelineItemIdentity entry = some data.callId with
  | some existingIndex =>
    match state[existingIndex]? with
    | some row =>
      match row.agentToolCall? with
      | some existing =>
        state.set existingIndex
          (mergeAgentToolCallItem row existing data timestamp timelineCursor)
      | none => state
    | none => state
  | none => state ++ [agentToolCallItem data timestamp timelineCursor]

end Frogg.Ui
