/-
  Subject:   The rows the client shows (apps/ui/src/types/stream.ts).

  The properties all rows share stand beside what tells them apart. Images and attachments of a
  user row and the calls of the orchestrator are left out: no event of a timeline makes them.
-/
import Frogg.Protocol.TimelineItem

namespace Frogg.Ui

open Library Protocol

structure TimelinePosition where
  epoch : String
  seq : Int
  deriving DecidableEq, Repr

inductive ThoughtStatus where
  | loading | ready
  deriving DecidableEq, Repr

/-- A tool call as the client holds it. -/
structure AgentToolCallData where
  provider : String
  callId : String
  name : String
  status : ToolCallStatus
  error : Option Json
  detail : ToolCallDetail
  metadata : Option JsonObject
  deriving Repr

inductive TaskActivity where
  | created (count : Nat)
  | added (task : String)
  | started (task : String)
  | completed (task : String)
  deriving DecidableEq, Repr

/-- Place of an assistant block among the blocks of its message. -/
structure AssistantBlock where
  blockGroupId : String
  blockIndex : Nat
  deriving DecidableEq, Repr

inductive StreamContent where
  | userMessage (text : String) (clientMessageId messageId : Option String)
  | assistantMessage (text : String) (messageId : Option String) (block : Option AssistantBlock)
  | thought (text : String) (status : ThoughtStatus)
  | toolCall (data : AgentToolCallData)
  | todoList (provider : String) (items : List AgentTaskItem) (activity : TaskActivity)
  | activityLog (message : String)
  | compaction (marker : CompactionTimelineItem)
  deriving Repr

/-- A row; `timestamp` is its time in milliseconds. -/
structure StreamItem where
  id : String
  timelineCursor : Option TimelinePosition
  turnId : Option String
  timestamp : Int
  content : StreamContent
  deriving Repr

/-- The tool call of a row. -/
def StreamItem.agentToolCall? (item : StreamItem) : Option AgentToolCallData :=
  match item.content with
  | .toolCall data => some data
  | _ => none

/-- `streamTimelineItemIdentity`: only a tool call has an identity across events. -/
def streamTimelineItemIdentity (item : StreamItem) : Option String :=
  item.agentToolCall?.map AgentToolCallData.callId

end Frogg.Ui
