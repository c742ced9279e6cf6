/-
  Subject:   The operations on a project's to-dos (protocol/todos/schemas.ts;
             server/project-todos/operations.ts, service.ts, isValidTodoId of store.ts).

  An operation works on an index just read. Where it throws, what it changed so far is not written,
  so a change of an item is a function of the item that may fail. Whether an agent runs is asked
  when the operation runs, and so is the time.
-/
import Frogg.Library.JsString
import Mathlib.Data.List.Lookmap

namespace Frogg.Server

open Library

/-! ## 1. Items -/

inductive ProjectTodoStatus where
  | backlog | ready | claimed | inProgress | review | done | blocked
  deriving DecidableEq, Repr

def ProjectTodoStatus.text : ProjectTodoStatus → String
  | .backlog => "backlog"
  | .ready => "ready"
  | .claimed => "claimed"
  | .inProgress => "in_progress"
  | .review => "review"
  | .done => "done"
  | .blocked => "blocked"

inductive ProjectTodoPriority where
  | low | medium | high | urgent
  deriving DecidableEq, Repr

def projectTodoTitleMax : Nat := 200
def projectTodoDescriptionMax : Nat := 20000
def projectTodoCategoryMax : Nat := 64
def projectTodoNoteMax : Nat := 4000
def projectTodoPlanMax : Nat := 200000

structure ProjectTodoClaim where
  agentId : String
  sessionId : Option String
  workspaceId : Option String
  branch : Option String
  claimedAt : String
  lastHeartbeat : String
  deriving DecidableEq, Repr

structure ProjectTodoClaimView extends ProjectTodoClaim where
  stale : Bool
  deriving DecidableEq, Repr

structure ProjectTodoProgressEntry where
  at_ : String
  agentId : Option String
  note : String
  deriving DecidableEq, Repr

structure ProjectTodoItem where
  id : String
  title : String
  description : String
  category : Option String
  priority : ProjectTodoPriority
  status : ProjectTodoStatus
  allowParallel : Bool
  claims : List ProjectTodoClaim
  progress : List ProjectTodoProgressEntry
  createdAt : String
  updatedAt : String
  planUpdatedAt : Option String
  deriving DecidableEq, Repr

structure ProjectTodoIndex where
  items : List ProjectTodoItem
  deriving DecidableEq, Repr

inductive ProjectTodoErrorCode where
  | projectTodosUnavailable | projectNotFound | todoNotFound | claimConflict | takeoverNotAllowed
  | notClaimed | invalidRequest | todoFailed
  deriving DecidableEq, Repr

structure ProjectTodoError where
  code : ProjectTodoErrorCode
  message : String
  claimants : Option (List ProjectTodoClaimView) := none
  deriving DecidableEq, Repr

def ProjectTodoError.invalidRequest (message : String) : ProjectTodoError :=
  { code := .invalidRequest, message }

structure ProjectTodoClaimant where
  agentId : String
  sessionId : Option String
  workspaceId : Option String
  branch : Option String
  deriving DecidableEq, Repr

/-- A category that is null and one that is not given come to the same here. -/
structure CreateTodoInput where
  title : String
  description : Option String := none
  category : Option String := none
  priority : Option ProjectTodoPriority := none
  status : Option ProjectTodoStatus := none
  allowParallel : Option Bool := none
  deriving DecidableEq, Repr

/-- `some none` is the category null. -/
structure UpdateTodoInput where
  title : Option String := none
  description : Option String := none
  category : Option (Option String) := none
  priority : Option ProjectTodoPriority := none
  allowParallel : Option Bool := none
  deriving DecidableEq, Repr

/-! ## 2. Operations on an item -/

/-- Statuses that only make sense while someone holds a claim. -/
def ProjectTodoStatus.claimBound (status : ProjectTodoStatus) : Bool :=
  status = .claimed || status = .inProgress

def normalizeTitle (title : String) : Except ProjectTodoError String :=
  let trimmed := jsTrim title
  if trimmed = "" then .error (.invalidRequest "title must not be empty")
  else if jsLength trimmed > projectTodoTitleMax then
    .error (.invalidRequest s!"title must be at most {projectTodoTitleMax} characters")
  else .ok trimmed

def normalizeDescription (description : String) : Except ProjectTodoError String :=
  if jsLength description > projectTodoDescriptionMax then
    .error (.invalidRequest s!"description must be at most {projectTodoDescriptionMax} characters")
  else .ok description

def normalizeCategory (category : Option String) : Except ProjectTodoError (Option String) :=
  let trimmed := (category.map jsTrim).getD ""
  if trimmed = "" then .ok none
  else if jsLength trimmed > projectTodoCategoryMax then
    .error (.invalidRequest s!"category must be at most {projectTodoCategoryMax} characters")
  else .ok (some trimmed)

def normalizeNote (note : String) : Except ProjectTodoError String :=
  let trimmed := jsTrim note
  if trimmed = "" then .error (.invalidRequest "note must not be empty")
  else if jsLength trimmed > projectTodoNoteMax then
    .error (.invalidRequest s!"note must be at most {projectTodoNoteMax} characters")
  else .ok trimmed

def toClaimViews (claims : List ProjectTodoClaim) (isAgentRunning : String → Bool) :
    List ProjectTodoClaimView :=
  claims.map fun claim => { toProjectTodoClaim := claim, stale := !isAgentRunning claim.agentId }

def describeClaimants (views : List ProjectTodoClaimView) : String :=
  ", ".intercalate <| views.map fun view =>
    "agent " ++ view.agentId ++
      (match view.workspaceId with
        | some workspaceId => if workspaceId ≠ "" then " in workspace " ++ workspaceId else ""
        | none => "") ++
      if view.stale then " (stale)" else ""

/-- The new item, still without a plan. -/
def createItem (id : String) (input : CreateTodoInput) (now : String) :
    Except ProjectTodoError ProjectTodoItem := do
  let status := input.status.getD .backlog
  if status.claimBound then
    throw (.invalidRequest ("A new to-do cannot start as " ++ status.text))
  return {
    id
    title := ← normalizeTitle input.title
    description := ← normalizeDescription (input.description.getD "")
    category := ← normalizeCategory input.category
    priority := input.priority.getD .medium
    status
    allowParallel := input.allowParallel.getD false
    claims := []
    progress := []
    createdAt := now
    updatedAt := now
    planUpdatedAt := none }

section

variable (item : ProjectTodoItem)

def updateItem (input : UpdateTodoInput) (now : String) :
    Except ProjectTodoError ProjectTodoItem := do
  let title ← input.title.mapM normalizeTitle
  let description ← input.description.mapM normalizeDescription
  let category ← input.category.mapM normalizeCategory
  return { item with
    title := title.getD item.title
    description := description.getD item.description
    category := category.getD item.category
    priority := input.priority.getD item.priority
    allowParallel := input.allowParallel.getD item.allowParallel
    updatedAt := now }

variable (claimant : ProjectTodoClaimant)

/-- A claim of the agent's own is refreshed. -/
def refreshClaim (now : String) (claim : ProjectTodoClaim) : ProjectTodoClaim :=
  { claim with
    sessionId := claimant.sessionId.or claim.sessionId
    workspaceId := claimant.workspaceId.or claim.workspaceId
    branch := claimant.branch.or claim.branch
    lastHeartbeat := now }

/-- The first claim of the agent, changed in place. -/
def updateOwnClaim (claims : List ProjectTodoClaim) (agentId : String)
    (f : ProjectTodoClaim → ProjectTodoClaim) : List ProjectTodoClaim :=
  claims.replaceF fun claim => if claim.agentId = agentId then some (f claim) else none

/-- The item with the claimant's claim put behind those it has. -/
def addClaim (now : String) : ProjectTodoItem :=
  { item with
    claims := item.claims ++
      [⟨claimant.agentId, claimant.sessionId, claimant.workspaceId, claimant.branch, now, now⟩]
    status := if item.status = .backlog ∨ item.status = .ready then .claimed else item.status
    updatedAt := now }

def claimItem (takeover : Bool)
    (isAgentRunning : String → Bool) (now : String) : Except ProjectTodoError ProjectTodoItem :=
  if item.status = .done then .error (.invalidRequest "A done to-do cannot be claimed")
  else if item.claims.any (·.agentId = claimant.agentId) then
    .ok { item with
      claims := updateOwnClaim item.claims claimant.agentId (refreshClaim claimant now)
      updatedAt := now }
  else if item.claims.length > 0 ∧ item.allowParallel = false then
    let views := toClaimViews item.claims isAgentRunning
    if takeover = false then
      .error ⟨.claimConflict, s!"To-do {item.id} is claimed by {describeClaimants views}", views⟩
    else if views.any fun view => !view.stale then
      .error ⟨.takeoverNotAllowed,
        s!"To-do {item.id} is claimed by a running agent; takeover only replaces stale claims",
        views⟩
    else
      let tookOverFrom := item.claims.map (·.agentId)
      .ok (addClaim { item with
        claims := []
        progress := item.progress ++ [⟨now, some claimant.agentId,
          "Took over stale claim from " ++ ", ".intercalate tookOverFrom⟩] } claimant now)
  else .ok (addClaim item claimant now)

/-- `none` where nothing changed. No agent, or an empty one, releases every claim. -/
def releaseItem (agentId : Option String) (now : String) : Option ProjectTodoItem :=
  let claims :=
    match agentId.filter (· ≠ "") with
    | some agentId => item.claims.filter (·.agentId ≠ agentId)
    | none => []
  if claims.length = item.claims.length then none
  else some { item with
    claims
    status := if claims.length = 0 ∧ item.status.claimBound then .ready else item.status
    updatedAt := now }

def setItemStatus (status : ProjectTodoStatus) (now : String) : ProjectTodoItem :=
  { item with
    status
    claims := if status = .done then [] else item.claims
    updatedAt := now }

def appendProgress (note : String) (agentId : Option String)
    (now : String) : Except ProjectTodoError ProjectTodoItem := do
  let note ← normalizeNote note
  let agentId := agentId.filter (· ≠ "")
  return { item with
    progress := item.progress ++ [⟨now, agentId, note⟩]
    claims :=
      match agentId with
      | some agentId =>
        updateOwnClaim item.claims agentId fun claim => { claim with lastHeartbeat := now }
      | none => item.claims
    updatedAt := now }

/-- `writePlan`, where the file is written. -/
def writePlan (plan : String) (now : String) : Except ProjectTodoError ProjectTodoItem :=
  if jsLength plan > projectTodoPlanMax then
    .error (.invalidRequest s!"plan must be at most {projectTodoPlanMax} characters")
  else .ok { item with planUpdatedAt := some now, updatedAt := now }

end

/-! ## 3. Operations of the service -/

/-- `/^[A-Za-z0-9_-]{1,64}$/` -/
def isValidTodoId (id : String) : Bool :=
  id.toList.all (fun c => c.isAlphanum || c = '_' || c = '-') &&
    1 ≤ id.toList.length && id.toList.length ≤ 64

inductive ProjectTodoOperation where
  | create (input : CreateTodoInput) (plan : Option String)
  | update (todoId : String) (input : UpdateTodoInput)
  | updatePlan (todoId : String) (plan : String)
  | setStatus (todoId : String) (status : ProjectTodoStatus) (agentId note : Option String)
  | claim (todoId : String) (claimant : ProjectTodoClaimant) (takeover : Bool)
  | release (todoId : String) (agentId : Option String) (requireClaim : Bool)
  | addProgress (todoId : String) (note : String) (agentId : Option String)
  | delete (todoId : String)
  | releaseAgent (agentId : String)
  deriving DecidableEq, Repr

/-- What an operation asks of its surroundings: which agents run, the time, and the ids that
    `generateId` will return. -/
structure ProjectTodoEnv where
  isAgentRunning : String → Bool
  now : String
  generated : List String

variable (index : ProjectTodoIndex)

/-- The first item with the id, changed in place. -/
def ProjectTodoIndex.modify (id : String)
    (f : ProjectTodoItem → Except ProjectTodoError ProjectTodoItem) :
    Except ProjectTodoError ProjectTodoIndex :=
  match index.items.find? (·.id = id) with
  | none => .error { code := .todoNotFound, message := "To-do not found: " ++ id }
  | some item => do
    let item ← f item
    return ⟨index.items.replaceF fun candidate => if candidate.id = id then some item else none⟩

/-- A new item may come with a plan. -/
def writeFirstPlan (item : ProjectTodoItem) (plan : Option String) (now : String) :
    Except ProjectTodoError ProjectTodoItem :=
  match plan with
  | some plan => if jsLength plan > 0 then writePlan item plan now else .ok item
  | none => .ok item

/-- `none` where every generated id is taken: the loop is still looking for one. -/
def createIn (input : CreateTodoInput) (plan : Option String)
    (env : ProjectTodoEnv) : Except ProjectTodoError (Option ProjectTodoIndex) :=
  match env.generated.find? fun id => !index.items.any (·.id = id) with
  | none => .ok none
  | some id => do
    if !isValidTodoId id then
      throw { code := .todoFailed, message := "Generated invalid id" }
    let item ← createItem id input env.now
    let item ← writeFirstPlan item plan env.now
    return some ⟨index.items ++ [item]⟩

/-- A note that is not blank is recorded. -/
def appendNote (item : ProjectTodoItem) (note agentId : Option String) (now : String) :
    Except ProjectTodoError ProjectTodoItem :=
  match note with
  | some note => if jsTrim note ≠ "" then appendProgress item note agentId now else .ok item
  | none => .ok item

def setStatusOf (item : ProjectTodoItem) (status : ProjectTodoStatus)
    (agentId note : Option String) (now : String) : Except ProjectTodoError ProjectTodoItem := do
  return setItemStatus (← appendNote item note agentId now) status now

/-- `none` where there is nothing to be written. -/
def releaseIn (todoId : String) (agentId : Option String)
    (requireClaim : Bool) (now : String) : Except ProjectTodoError (Option ProjectTodoIndex) :=
  match index.items.find? (·.id = todoId) with
  | none => .error { code := .todoNotFound, message := "To-do not found: " ++ todoId }
  | some item =>
    match releaseItem item agentId now with
    | some released => .ok (some ⟨index.items.replaceF fun candidate =>
      if candidate.id = todoId then some released else none⟩)
    | none =>
      if requireClaim then
        .error { code := .notClaimed, message :=
          "To-do " ++ todoId ++ " is not claimed by " ++ agentId.getD "undefined" }
      else .ok none

/-- An item the archived agent holds a claim on. -/
def releaseArchived (agentId : String) (now : String) (item : ProjectTodoItem) :
    Option ProjectTodoItem :=
  if item.claims.any (·.agentId = agentId) then
    (releaseItem item (some agentId) now).map fun released =>
      { released with
        progress := released.progress ++
          [⟨now, some agentId, "Claim released: agent archived"⟩] }
  else none

def deleteIn (todoId : String) : Option ProjectTodoIndex :=
  let next := index.items.filter (·.id ≠ todoId)
  if next.length = index.items.length then none else some ⟨next⟩

def releaseAgentIn (agentId : String) (now : String) : Option ProjectTodoIndex :=
  if index.items.any fun item => (releaseArchived agentId now item).isSome then
    some ⟨index.items.map fun item => (releaseArchived agentId now item).getD item⟩
  else none

/-- What the operation makes of the index it has read; `none` where it writes nothing. -/
def ProjectTodoOperation.apply (op : ProjectTodoOperation) (env : ProjectTodoEnv)
    (index : ProjectTodoIndex) : Except ProjectTodoError (Option ProjectTodoIndex) :=
  match op with
  | .create input plan => createIn index input plan env
  | .update todoId input => some <$> index.modify todoId fun item => updateItem item input env.now
  | .updatePlan todoId plan => some <$> index.modify todoId fun item => writePlan item plan env.now
  | .setStatus todoId status agentId note =>
    some <$> index.modify todoId fun item => setStatusOf item status agentId note env.now
  | .claim todoId claimant takeover =>
    some <$> index.modify todoId fun item =>
      claimItem item claimant takeover env.isAgentRunning env.now
  | .release todoId agentId requireClaim => releaseIn index todoId agentId requireClaim env.now
  | .addProgress todoId note agentId =>
    some <$> index.modify todoId fun item => appendProgress item note agentId env.now
  | .delete todoId => .ok (deleteIn index todoId)
  | .releaseAgent agentId => .ok (releaseAgentIn index agentId env.now)

end Frogg.Server
