/-
  Subject:   Timeline items as the daemon and the client exchange them
             (packages/protocol/src/agent-types.ts, timeline-identity.ts).

  An absent property is `none`. `Json` is what a property typed `unknown` can hold; a JSON object
  is the list of its own properties in insertion order.
-/
import Frogg.Library.Json

namespace Frogg.Protocol

open Library List Option

/-! ## 1. Values typed `unknown` -/

abbrev JsonObject := List (String × Json)

namespace JsonObject

/-- The value under `key`; `none` reads as `undefined`. -/
def get (o : JsonObject) (key : String) : Option Json := o.lookup key

variable (existing incoming : JsonObject)

/-- `{ ...existing, ...incoming }`: a property of `existing` keeps its place and takes the value
    of `incoming` where that has one; the other properties of `incoming` follow. -/
def spread : JsonObject :=
  existing.map (fun p => (p.1, (incoming.get p.1).getD p.2)) ++
    incoming.filter (fun p => (existing.get p.1).isNone)

/-- Two objects with the same value under every key. -/
def Same (a b : JsonObject) : Prop := ∀ key, a.get key = b.get key

private theorem lookup_map_value (f : String × Json → Json) (o : JsonObject) (key : String) :
    (o.map (fun p => (p.1, f p))).lookup key = (o.find? (fun p => p.1 == key)).map f := by
  induction o with
  | nil => rfl
  | cons p o ih =>
    obtain ⟨k, v⟩ := p
    by_cases h : key = k
    · subst h; simp
    · have h1 : (key == k) = false := by simpa using h
      have h2 : (k == key) = false := by simpa using fun e => h e.symm
      simp only [map_cons, lookup_cons, h1, find?_cons, h2]
      exact ih

private theorem lookup_eq_find (o : JsonObject) (key : String) :
    o.lookup key = (o.find? (fun p => p.1 == key)).map (·.2) := by
  have h := lookup_map_value (·.2) o key
  simpa using h

private theorem find_key {o : JsonObject} {key : String} {p : String × Json}
    (h : o.find? (fun p => p.1 == key) = some p) : p.1 = key := by
  simpa using find?_some h

/-- **A spread holds the incoming value, and the existing one where there is none.** -/
theorem get_spread (key : String) :
    (spread existing incoming).get key = (incoming.get key).or (existing.get key) := by
  unfold spread get
  rw [lookup_append, lookup_map_value, lookup_eq_find incoming, lookup_eq_find existing]
  cases he : existing.find? (fun p => p.1 == key) with
  | some p =>
    have hk : p.1 = key := find_key he
    simp only [map_some, some_or, hk, lookup_eq_find]
    cases incoming.find? (fun p => p.1 == key) <;> rfl
  | none =>
    simp only [map_none, none_or, or_none]
    rw [lookup_eq_find, find?_filter]
    congr 2
    funext p
    by_cases hk : p.1 = key
    · simp [lookup_eq_find, hk, he]
    · have : (p.1 == key) = false := by simpa using hk
      simp [this]

end JsonObject

/-! ## 2. Tool calls -/

inductive ToolCallStatus where
  | running | completed | failed | canceled
  deriving DecidableEq, Repr, Inhabited

/-- The `type` of a detail other than `unknown`. -/
inductive ToolCallDetailType where
  | shell | read | edit | write | search | fetch | worktreeSetup | subAgent | plainText | plan
  deriving DecidableEq, Repr

/-- A tool call's detail. The merges below never look at a property by name except for `type` and
    the two of `unknown`, so the others stand as the object they are. -/
inductive ToolCallDetail where
  | unknown (input output : Json)
  | known (type : ToolCallDetailType) (fields : JsonObject)
  deriving Repr, Inhabited

/-- `detail.type === "unknown"` -/
def ToolCallDetail.isUnknown : ToolCallDetail → Bool
  | .unknown _ _ => true
  | .known _ _ => false

/-- A tool call with the type's promise: only a failed call carries an error. -/
structure ToolCallTimelineItem where
  callId : String
  name : String
  status : ToolCallStatus
  error : Option Json
  detail : ToolCallDetail
  metadata : Option JsonObject
  errorNull : status ≠ .failed → error = some .null
  deriving Repr

/-! ## 3. Timeline items -/

inductive TaskStatus where
  | pending | inProgress | completed
  deriving DecidableEq, Repr

structure AgentTaskItem where
  text : String
  completed : Bool
  id : Option String
  status : Option TaskStatus
  activeForm : Option String
  deriving DecidableEq, Repr

inductive CompactionStatus where
  | loading | completed
  deriving DecidableEq, Repr

inductive CompactionTrigger where
  | auto | manual
  deriving DecidableEq, Repr

structure CompactionTimelineItem where
  status : CompactionStatus
  trigger : Option CompactionTrigger
  preTokens : Option Rat
  cleanCut : Option Json
  deriving Repr

inductive AgentTimelineItem where
  | userMessage (text : String) (messageId clientMessageId : Option String)
  | assistantMessage (text : String) (messageId : Option String)
  | reasoning (text : String)
  | toolCall (call : ToolCallTimelineItem)
  | todo (items : List AgentTaskItem)
  | error (message : String)
  | compaction (marker : CompactionTimelineItem)
  | plugin (data : Json)
  deriving Repr

namespace AgentTimelineItem

def isToolCall : AgentTimelineItem → Bool
  | .toolCall _ => true
  | _ => false

def isAssistantMessage : AgentTimelineItem → Bool
  | .assistantMessage _ _ => true
  | _ => false

def isReasoning : AgentTimelineItem → Bool
  | .reasoning _ => true
  | _ => false

end AgentTimelineItem

/-- timeline-identity.ts: only a tool call has an identity across rows. -/
def timelineItemIdentity : AgentTimelineItem → Option String
  | .toolCall call => some call.callId
  | _ => none

@[simp] theorem timelineItemIdentity_eq_none {item : AgentTimelineItem} :
    timelineItemIdentity item = none ↔ item.isToolCall = false := by
  cases item <;> simp [timelineItemIdentity, AgentTimelineItem.isToolCall]

end Frogg.Protocol
