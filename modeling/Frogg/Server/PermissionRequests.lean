/-
  Subject:   The permission requests of one agent (respondToPermission, refreshSessionState,
             onStreamPermissionRequested, onStreamPermissionResolved and
             resolvePendingPermissionsForAgent of server/agent/agent-manager.ts).

  A call of `respondToPermission` stands in the state with what it waits for; the session may answer
  it any way, and may list any requests as pending. `expected` and `left` are not in the source:
  `expected` holds the requests whose response the session has accepted without having said yet how
  they are resolved, and the log notes where a request leaves the pending ones.
-/
import Frogg.Server.AgentUpdates

namespace Frogg.Server.Permissions

open Library

variable {Request Resolution : Type}

/-! ## 1. The agent and what is dispatched -/

structure ManagedAgent (Request Resolution : Type) where
  lifecycle : AgentLifecycleStatus
  pendingPermissions : JsMap String Request
  bufferedPermissionResolutions : JsMap String Resolution
  inFlightPermissionResponses : List String
  deriving DecidableEq

inductive AgentManagerEvent (Request Resolution : Type) where
  | agentState
  | permissionRequested (requestId : String) (request : Request)
  | permissionResolved (requestId : String) (resolution : Resolution)
  deriving DecidableEq

/-- An event as subscribers get it: the agent is as it is when it is dispatched. -/
structure Dispatch (Request Resolution : Type) where
  event : AgentManagerEvent Request Resolution
  lifecycle : AgentLifecycleStatus
  pendingPermissions : JsMap String Request
  deriving DecidableEq

inductive LogEntry (Request Resolution : Type) where
  | dispatched (dispatch : Dispatch Request Resolution)
  | left (requestId : String)
  deriving DecidableEq

/-- What a call of `respondToPermission` waits for. -/
inductive ResponseStage where
  /-- `session.respondToPermission` -/
  | responding
  /-- `refreshSessionState` -/
  | refreshing
  /-- the rest of `refreshSessionState`, and `persistSnapshot` -/
  | persisting
  deriving DecidableEq

structure Response where
  requestId : String
  stage : ResponseStage
  deriving DecidableEq

structure World (Request Resolution : Type) where
  agent : ManagedAgent Request Resolution
  responses : JsMap Nat Response
  calls : Nat
  expected : List String
  log : List (LogEntry Request Resolution)
  deriving DecidableEq

/-- An agent that is registered has the pending requests of its session. -/
def World.initial (lifecycle : AgentLifecycleStatus) (listed : List (String × Request)) :
    World Request Resolution where
  agent := ⟨lifecycle, .ofList listed, .empty, []⟩
  responses := .empty
  calls := 0
  expected := []
  log := []

/-! ## 2. Steps -/

namespace World

variable (w : World Request Resolution)

def dispatch (event : AgentManagerEvent Request Resolution) : World Request Resolution :=
  { w with
    log := w.log ++ [.dispatched ⟨event, w.agent.lifecycle, w.agent.pendingPermissions⟩] }

def emitState : World Request Resolution := w.dispatch .agentState

/-- `agent.pendingPermissions.delete(requestId)` -/
def leave (requestId : String) : World Request Resolution :=
  if w.agent.pendingPermissions.has requestId then
    { w with
      agent := { w.agent with pendingPermissions := w.agent.pendingPermissions.delete requestId }
      log := w.log ++ [.left requestId] }
  else w

/-- `permission_requested` is handled, and dispatched. -/
def onStreamPermissionRequested (requestId : String)
    (request : Request) : World Request Resolution :=
  ({ w with
    agent := { w.agent with
      pendingPermissions := w.agent.pendingPermissions.set requestId request } }.emitState).dispatch
    (.permissionRequested requestId request)

/-- `permission_resolved` is handled, and dispatched unless a response is in flight. -/
def onStreamPermissionResolved (requestId : String)
    (resolution : Resolution) : World Request Resolution :=
  let w := { w.leave requestId with expected := w.expected.filter (· ≠ requestId) }
  if requestId ∈ w.agent.inFlightPermissionResponses then
    { w with
      agent := { w.agent with
        bufferedPermissionResolutions :=
          w.agent.bufferedPermissionResolutions.set requestId resolution } }
  else w.emitState.dispatch (.permissionResolved requestId resolution)

variable (deny : String → Resolution)

def resolvePendingPermissionsForAgent (w : World Request Resolution)
    (message : String) : World Request Resolution :=
  w.agent.pendingPermissions.keys.foldl
    (fun w requestId => (w.leave requestId).dispatch (.permissionResolved requestId (deny message)))
    w

/-- `respondToPermission` is called. -/
def respondToPermission (requestId : String) : World Request Resolution :=
  { w with
    agent := { w.agent with
      inFlightPermissionResponses := w.agent.inFlightPermissionResponses.insert requestId }
    responses := w.responses.set w.calls ⟨requestId, .responding⟩
    calls := w.calls + 1 }

/-- `finally` -/
def closeResponse (call : Nat) (requestId : String) : World Request Resolution :=
  { w with
    agent := { w.agent with
      inFlightPermissionResponses := w.agent.inFlightPermissionResponses.filter (· ≠ requestId)
      bufferedPermissionResolutions := w.agent.bufferedPermissionResolutions.delete requestId }
    responses := w.responses.delete call }

/-- `session.respondToPermission` is done. -/
def responseAccepted (call : Nat) (requestId : String) : World Request Resolution :=
  { w.leave requestId with
    responses := w.responses.set call ⟨requestId, .refreshing⟩
    expected :=
      if w.agent.pendingPermissions.has requestId then requestId :: w.expected else w.expected }

/-- `refreshSessionState` takes over what the session lists as pending, nothing where
    `getPendingPermissions` throws. -/
def refreshSessionState (listed : List (String × Request)) : World Request Resolution :=
  { w with
    agent := { w.agent with pendingPermissions := .ofList listed }
    log := w.log ++ (w.agent.pendingPermissions.keys.filter
      fun id => !(JsMap.ofList listed).has id).map .left }

/-- The rest of a response: `persistSnapshot` has failed, or the state is emitted and a buffered
    resolution dispatched. -/
def finishResponse (call : Nat) (requestId : String)
    (persisted : Bool) : World Request Resolution :=
  if persisted then
    match w.agent.bufferedPermissionResolutions.get? requestId with
    | some resolution =>
      (w.emitState.dispatch (.permissionResolved requestId resolution)).closeResponse call requestId
    | none => w.emitState.closeResponse call requestId
  else w.closeResponse call requestId

inductive Move (Request Resolution : Type) where
  /-- Events of the session. -/
  | requested (requestId : String) (request : Request)
  | resolved (requestId : String) (resolution : Resolution)
  | responds (requestId : String)
  | accepts (call : Nat)
  | refuses (call : Nat)
  | refreshes (call : Nat) (listed : List (String × Request))
  | finishes (call : Nat) (persisted : Bool)
  /-- `turn_failed`, `turn_canceled` or the end of `cancelAgentRun`, with the message of the denial. -/
  | interrupted (message : String)
  /-- What else the manager does. -/
  | lifecycle (lifecycle : AgentLifecycleStatus)
  | emits

def move (w : World Request Resolution) : Move Request Resolution → World Request Resolution
  | .requested requestId request => w.onStreamPermissionRequested requestId request
  | .resolved requestId resolution => w.onStreamPermissionResolved requestId resolution
  | .responds requestId => w.respondToPermission requestId
  | .accepts call =>
    match w.responses.get? call with
    | some ⟨requestId, .responding⟩ => w.responseAccepted call requestId
    | _ => w
  | .refuses call =>
    match w.responses.get? call with
    | some ⟨requestId, .responding⟩ => w.closeResponse call requestId
    | _ => w
  | .refreshes call listed =>
    match w.responses.get? call with
    | some ⟨requestId, .refreshing⟩ =>
      { w with
        responses := w.responses.set call ⟨requestId, .persisting⟩ }.refreshSessionState listed
    | _ => w
  | .finishes call persisted =>
    match w.responses.get? call with
    | some ⟨requestId, .persisting⟩ => w.finishResponse call requestId persisted
    | _ => w
  | .interrupted message => w.resolvePendingPermissionsForAgent deny message
  | .lifecycle lifecycle => { w with agent := { w.agent with lifecycle } }
  | .emits => w.emitState

end World

end Frogg.Server.Permissions
