/-
  Subject:   The buffer that joins streamed timeline items before they are recorded
             (server/agent/agent-stream-coalescer.ts).

  This is the buffer of one agent. `onFlush` is what a flush hands out, in order; it does not call
  the coalescer again. An armed timer is `true`; when it fires is up to the runtime.
-/
import Frogg.Protocol.TimelineItem

namespace Frogg.Server

open Protocol

/-- An entry of the buffer; a text entry holds its text in the item. A flush hands out the same. -/
structure PendingAgentStreamEntry where
  item : AgentTimelineItem
  provider : String
  turnId : Option String

structure PendingAgentStreamBuffer where
  entries : List PendingAgentStreamEntry
  timer : Bool
  lastFlushAt : Option Nat

namespace PendingAgentStreamBuffer

def empty : PendingAgentStreamBuffer where
  entries := []
  timer := false
  lastFlushAt := none

end PendingAgentStreamBuffer

/-! ## 1. Kinds of items -/

def isCoalescable : AgentTimelineItem → Bool
  | .assistantMessage _ _ | .reasoning _ | .toolCall _ => true
  | _ => false

/-- A text item without text: it is accepted and forgotten. -/
def isEmptyText : AgentTimelineItem → Bool
  | .assistantMessage text _ | .reasoning text => text = ""
  | _ => false

def isTerminalToolCall : AgentTimelineItem → Bool
  | .toolCall call => call.status ≠ .running
  | _ => false

/-- `previous` with the text of `next` behind its own, where both are of one text stream. -/
def joinText : AgentTimelineItem → AgentTimelineItem → Option AgentTimelineItem
  | .assistantMessage text messageId, .assistantMessage text' messageId' =>
    if messageId = messageId' then some (.assistantMessage (text ++ text') messageId) else none
  | .reasoning text, .reasoning text' => some (.reasoning (text ++ text'))
  | _, _ => none

/-! ## 2. Buffering -/

variable (entries : List PendingAgentStreamEntry)

/-- A tool call takes the place of an earlier one with its `callId`. -/
def appendToBuffer (entry : PendingAgentStreamEntry) : List PendingAgentStreamEntry :=
  match timelineItemIdentity entry.item with
  | none => entries ++ [entry]
  | some callId =>
    if entries.any fun e => timelineItemIdentity e.item = some callId then
      entries.map fun e => if timelineItemIdentity e.item = some callId then entry else e
    else entries ++ [entry]

/-- One entry behind those collapsed so far. -/
def collapseInto (collapsed : List PendingAgentStreamEntry) (entry : PendingAgentStreamEntry) :
    List PendingAgentStreamEntry :=
  match collapsed.getLast? with
  | none => [entry]
  | some previous =>
    match joinText previous.item entry.item with
    | some item =>
      if previous.provider = entry.provider ∧ previous.turnId = entry.turnId then
        collapsed.dropLast ++ [{ previous with item }]
      else collapsed ++ [entry]
    | none => collapsed ++ [entry]

def collapseEntries : List PendingAgentStreamEntry :=
  entries.foldl collapseInto []

namespace PendingAgentStreamBuffer

variable (buffer : PendingAgentStreamBuffer)

/-- What `flushBuffer` leaves, and what it hands to `onFlush`. -/
def flushBuffer (now : Nat) : PendingAgentStreamBuffer × List PendingAgentStreamEntry :=
  if buffer.entries = [] then ({ buffer with timer := false }, [])
  else (⟨[], false, some now⟩, collapseEntries buffer.entries)

/-- `handle` of a coalescable item. -/
def handle (windowMs now : Nat)
    (entry : PendingAgentStreamEntry) : PendingAgentStreamBuffer × List PendingAgentStreamEntry :=
  if isEmptyText entry.item then (buffer, [])
  else
    let buffer := { buffer with entries := appendToBuffer buffer.entries entry }
    if isTerminalToolCall entry.item then buffer.flushBuffer now
    else if buffer.timer then (buffer, [])
    else
      match buffer.lastFlushAt with
      | none => buffer.flushBuffer now
      | some lastFlushAt =>
        -- the leading edge: the first item after an idle window is not kept back
        if lastFlushAt + windowMs ≤ now then buffer.flushBuffer now
        else ({ buffer with timer := true }, [])

end PendingAgentStreamBuffer

end Frogg.Server
