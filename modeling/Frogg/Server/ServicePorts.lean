/-
  Subject:   The registry of the ports of a workspace's services
             (server/workspace-service-port-registry.ts).

  A call runs from one answer of `allocatePort` to the next; the answer may be any port, so what is
  asked of `allocatePort` is left out. A refresh keeps the plan object it found, which others may
  change or put away meanwhile: plans are objects with a number. An object a refresh makes for
  itself is nobody else's until the refresh settles, and is numbered then.

  Not in the source: whether a planned port is `explicit`, and whether a call for a workspace was
  `issued` since its last release, which the steps record.
-/
import Frogg.Library.JsMap
import Mathlib.Logic.Function.Basic

namespace Frogg.Server

open Library Function

/-! ## 1. Dynamic ports -/

def toServiceOwner (workspaceId scriptName : String) : String :=
  workspaceId ++ "\x00" ++ scriptName

/-- `dynamicPortOwners` and `dynamicPortsByWorkspace`. -/
structure DynamicPorts where
  owners : JsMap Nat String
  byWorkspace : JsMap String (JsMap String Nat)

namespace DynamicPorts

def empty : DynamicPorts := ⟨.empty, .empty⟩

variable (d : DynamicPorts) (workspaceId scriptName : String)

/-- The port recorded for a service. -/
def recorded : Option Nat :=
  (d.byWorkspace.get? workspaceId).bind (·.get? scriptName)

def reserveDynamicPort (port : Nat) : DynamicPorts where
  owners := d.owners.set port (toServiceOwner workspaceId scriptName)
  byWorkspace :=
    d.byWorkspace.set workspaceId
      (((d.byWorkspace.get? workspaceId).getD .empty).set scriptName port)

def releaseDynamicPort (port : Nat) : DynamicPorts where
  owners :=
    if d.owners.get? port = some (toServiceOwner workspaceId scriptName) then d.owners.delete port
    else d.owners
  byWorkspace :=
    match d.byWorkspace.get? workspaceId with
    | some workspacePorts =>
      if workspacePorts.get? scriptName = some port then
        if (workspacePorts.delete scriptName).size = 0 then d.byWorkspace.delete workspaceId
        else d.byWorkspace.set workspaceId (workspacePorts.delete scriptName)
      else d.byWorkspace
    | none => d.byWorkspace

/-- A refresh gives up the port its service had, unless it has got it again. -/
def giveUp (oldDynamicPort : Option Nat) (port : Nat) : DynamicPorts :=
  match oldDynamicPort with
  | some old => if old ≠ port then d.releaseDynamicPort workspaceId scriptName old else d
  | none => d

/-- All the dynamic ports of a workspace. -/
def releaseWorkspace (workspaceId : String) : DynamicPorts :=
  match d.byWorkspace.get? workspaceId with
  | some dynamicPorts =>
    let released := dynamicPorts.entries.foldl
      (fun d entry => d.releaseDynamicPort workspaceId entry.1 entry.2) d
    { released with byWorkspace := released.byWorkspace.delete workspaceId }
  | none => d

end DynamicPorts

/-! ## 2. Plans -/

structure WorkspaceServicePortDeclaration where
  scriptName : String
  port : Option Nat
  deriving DecidableEq, Repr

structure PlannedPort where
  port : Nat
  explicit : Bool
  deriving DecidableEq, Repr

abbrev PortPlan := JsMap String PlannedPort

def PortPlan.ports (plan : PortPlan) : List Nat := plan.values.map (·.port)

/-- A build that waits for `allocatePort`, and the token its workspace may be released by. -/
structure PendingPlan where
  plan : PortPlan
  explicitPorts : List Nat
  scriptName : String
  rest : List WorkspaceServicePortDeclaration
  attempt : Nat
  isReleased : Bool

/-- A refresh that waits for `allocatePort`. -/
structure PendingRefresh where
  workspaceId : String
  scriptName : String
  plan : Option Nat
  reservedPorts : List Nat
  oldDynamicPort : Option Nat
  attempt : Nat

structure ServicePortRegistry where
  plans : JsMap String Nat
  objects : Nat → PortPlan
  nextObject : Nat
  dynamic : DynamicPorts
  builds : JsMap String PendingPlan
  refreshes : JsMap Nat PendingRefresh
  nextCall : Nat
  issued : String → Bool

/-- How a call ends. -/
inductive PortSettlement where
  | plan (plan : PortPlan)
  | port (port : Nat)
  | failed (message : String)

def maxDynamicPortAllocationAttempts : Nat := 10

def duplicatePort (scriptName : String) (port : Nat) : String :=
  "Service '" ++ scriptName ++ "' has a duplicate port " ++ toString port

/-- The ports the declarations ask for; none may be asked for twice. -/
def explicitPortsOf : List WorkspaceServicePortDeclaration → List Nat → Except String (List Nat)
  | [], ports => .ok ports
  | service :: services, ports =>
    match service.port with
    | none => explicitPortsOf services ports
    | some port =>
      if port ∈ ports then .error (duplicatePort service.scriptName port)
      else explicitPortsOf services (ports ++ [port])

inductive PortAttempt where
  | reserved | again | exhausted
  deriving DecidableEq, Repr

/-- The body of the loop of `resolveServicePort`, once `allocatePort` has answered. -/
def portAttempt (d : DynamicPorts) (reservedPorts : List Nat) (serviceOwner : String)
    (attempt port : Nat) : PortAttempt :=
  if port ∈ reservedPorts ∨ (d.owners.get? port).any (· ≠ serviceOwner) then
    if attempt + 1 < maxDynamicPortAllocationAttempts then .again else .exhausted
  else .reserved

def couldNotAllocate (scriptName : String) : String :=
  "Could not allocate a unique port for service '" ++ scriptName ++ "' after " ++
    toString maxDynamicPortAllocationAttempts ++ " attempts"

def releasedWhileCreated (workspaceId : String) : String :=
  "Workspace service port plan was released while being created for '" ++ workspaceId ++ "'"

/-- The declarations with a port of their own, up to the first without. -/
def planExplicit (plan : PortPlan) :
    List WorkspaceServicePortDeclaration →
      PortPlan × Option (String × List WorkspaceServicePortDeclaration)
  | [] => (plan, none)
  | ⟨scriptName, some port⟩ :: services => planExplicit (plan.set scriptName ⟨port, true⟩) services
  | ⟨scriptName, none⟩ :: services => (plan, some (scriptName, services))

namespace ServicePortRegistry

def initial : ServicePortRegistry where
  plans := .empty
  objects := fun _ => .empty
  nextObject := 0
  dynamic := .empty
  builds := .empty
  refreshes := .empty
  nextCall := 0
  issued := fun _ => false

/-! ## 3. Calls -/

variable (s : ServicePortRegistry) (workspaceId : String)

def releaseWorkspaceServicePortPlan : ServicePortRegistry :=
  { s with
    builds :=
      match s.builds.get? workspaceId with
      | some build => s.builds.set workspaceId { build with isReleased := true }
      | none => s.builds
    plans := s.plans.delete workspaceId
    dynamic := s.dynamic.releaseWorkspace workspaceId }

/-- The end of a build that failed. -/
def failBuild (workspaceId message : String) : ServicePortRegistry × Option PortSettlement :=
  let s := s.releaseWorkspaceServicePortPlan workspaceId
  ({ s with builds := s.builds.delete workspaceId }, some (.failed message))

/-- A plan becomes that of its workspace. -/
def storePlan (plan : PortPlan) : ServicePortRegistry :=
  { s with
    plans := s.plans.set workspaceId s.nextObject
    objects := update s.objects s.nextObject plan
    nextObject := s.nextObject + 1 }

/-- A build goes on with the services left, up to the next probe or to its end. -/
def continueBuild (explicitPorts : List Nat)
    (isReleased : Bool) (plan : PortPlan) (services : List WorkspaceServicePortDeclaration) :
    ServicePortRegistry × Option PortSettlement :=
  match planExplicit plan services with
  | (plan, some (scriptName, rest)) =>
    ({ s with
        builds := s.builds.set workspaceId
          ⟨plan, explicitPorts, scriptName, rest, 0, isReleased⟩ }, none)
  | (plan, none) =>
    if isReleased then
      s.failBuild workspaceId
        (releasedWhileCreated workspaceId)
    else
      let s := s.storePlan workspaceId plan
      ({ s with builds := s.builds.delete workspaceId }, some (.plan plan))

def ensureWorkspaceServicePortPlan (services : List WorkspaceServicePortDeclaration) :
    ServicePortRegistry × Option PortSettlement :=
  match s.plans.get? workspaceId with
  | some object => (s, some (.plan (s.objects object)))
  | none =>
    -- a pending build is waited for
    if s.builds.has workspaceId then (s, none)
    else
      match explicitPortsOf services [] with
      | .error message => s.failBuild workspaceId message
      | .ok explicitPorts => s.continueBuild workspaceId explicitPorts false .empty services

/-- `allocatePort` answers the pending build of a workspace. -/
def buildAnswered (answer : Except String Nat) :
    Option (ServicePortRegistry × Option PortSettlement) :=
  (s.builds.get? workspaceId).map fun build =>
    match answer with
    | .error message => s.failBuild workspaceId message
    | .ok port =>
      match portAttempt s.dynamic (build.explicitPorts ++ PortPlan.ports build.plan)
        (toServiceOwner workspaceId build.scriptName) build.attempt port with
      | .again =>
        ({ s with
            builds :=
              s.builds.set workspaceId { build with attempt := build.attempt + 1 } }, none)
      | .exhausted => s.failBuild workspaceId (couldNotAllocate build.scriptName)
      | .reserved =>
        ({ s with dynamic := s.dynamic.reserveDynamicPort workspaceId build.scriptName port } :
          ServicePortRegistry).continueBuild workspaceId build.explicitPorts build.isReleased
            (build.plan.set build.scriptName ⟨port, false⟩) build.rest

/-- A refreshed port is put into the plan object, and that becomes the workspace's plan. -/
def putPlanned (workspaceId scriptName : String) (plan : Option Nat)
    (planned : PlannedPort) : ServicePortRegistry :=
  match plan with
  | none => s.storePlan workspaceId (JsMap.empty.set scriptName planned)
  | some object =>
    { s with
      plans := s.plans.set workspaceId object
      objects := update s.objects object ((s.objects object).set scriptName planned) }

/-- The end of a refresh that has its port. -/
def settleRefresh (workspaceId scriptName : String)
    (plan oldDynamicPort : Option Nat) (planned : PlannedPort) : ServicePortRegistry :=
  ({ s with dynamic := s.dynamic.giveUp workspaceId scriptName oldDynamicPort planned.port } :
    ServicePortRegistry).putPlanned workspaceId scriptName plan planned

def refreshWorkspaceServicePort
    (service : WorkspaceServicePortDeclaration) : ServicePortRegistry × Option PortSettlement :=
  let object := s.plans.get? workspaceId
  let plan : PortPlan := (object.map s.objects).getD .empty
  let reservedPorts :=
    match plan.get? service.scriptName with
    | some previous => (PortPlan.ports plan).filter (· ≠ previous.port)
    | none => PortPlan.ports plan
  let oldDynamicPort := s.dynamic.recorded workspaceId service.scriptName
  match service.port with
  | some port =>
    if port ∈ reservedPorts then (s, some (.failed (duplicatePort service.scriptName port)))
    else
      (s.settleRefresh workspaceId service.scriptName object oldDynamicPort ⟨port, true⟩,
        some (.port port))
  | none =>
    ({ s with
        refreshes := s.refreshes.set s.nextCall ⟨workspaceId, service.scriptName, object,
          reservedPorts, oldDynamicPort, 0⟩
        nextCall := s.nextCall + 1 }, none)

/-- `allocatePort` answers a refresh. -/
def refreshAnswered (call : Nat) (answer : Except String Nat) :
    Option (ServicePortRegistry × Option PortSettlement) :=
  (s.refreshes.get? call).map fun refresh =>
    let settled := { s with refreshes := s.refreshes.delete call }
    match answer with
    | .error message => (settled, some (.failed message))
    | .ok port =>
      match portAttempt s.dynamic refresh.reservedPorts
        (toServiceOwner refresh.workspaceId refresh.scriptName) refresh.attempt port with
      | .again =>
        ({ s with
            refreshes := s.refreshes.set call { refresh with attempt := refresh.attempt + 1 } },
          none)
      | .exhausted => (settled, some (.failed (couldNotAllocate refresh.scriptName)))
      | .reserved =>
        (({ settled with
            dynamic := s.dynamic.reserveDynamicPort refresh.workspaceId refresh.scriptName
              port } : ServicePortRegistry).settleRefresh refresh.workspaceId
                refresh.scriptName refresh.plan refresh.oldDynamicPort ⟨port, false⟩,
          some (.port port))

/-! ## 4. Steps -/

def record (isIssued : Bool) : ServicePortRegistry :=
  { s with issued := update s.issued workspaceId isIssued }

/-- A build that fails has released its workspace. -/
def recordBuild (answer : ServicePortRegistry × Option PortSettlement) :
    ServicePortRegistry × Option PortSettlement :=
  match answer.2 with
  | some (.failed _) => (answer.1.record workspaceId false, answer.2)
  | some (.plan _) | some (.port _) | none => answer

end ServicePortRegistry

inductive PortEvent where
  | ensure (workspaceId : String) (services : List WorkspaceServicePortDeclaration)
  | refresh (workspaceId : String) (service : WorkspaceServicePortDeclaration)
  | release (workspaceId : String)
  | buildAnswered (workspaceId : String) (answer : Except String Nat)
  | refreshAnswered (call : Nat) (answer : Except String Nat)

/-- The next state and what has settled; `none` where nobody waits for the answer. -/
def ServicePortRegistry.next (s : ServicePortRegistry) (event : PortEvent) :
    Option (ServicePortRegistry × Option PortSettlement) :=
  match event with
  | .ensure workspaceId services =>
    some (recordBuild workspaceId
      ((s.record workspaceId true).ensureWorkspaceServicePortPlan workspaceId services))
  | .refresh workspaceId service =>
    some ((s.record workspaceId true).refreshWorkspaceServicePort workspaceId service)
  | .release workspaceId =>
    some ((s.releaseWorkspaceServicePortPlan workspaceId).record workspaceId false, none)
  | .buildAnswered workspaceId answer =>
    (s.buildAnswered workspaceId answer).map (recordBuild workspaceId)
  | .refreshAnswered call answer => s.refreshAnswered call answer

end Frogg.Server
