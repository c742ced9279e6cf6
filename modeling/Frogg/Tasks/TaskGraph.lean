/-
  Subject:   Tasks and the relations between them (tasks/types.ts, task-graph.ts, and the reads of
             tasks/task-store.ts).

  `TaskFiles` is the directory of a store: each file holds the task it is named after, and a parent
  that is read is never the empty text. `localeCompare` is a parameter; a priority is an integer.
  The walks of the store are recursive without a bound: they run on fuel here and give none where it
  does not suffice.
-/
import Frogg.Library.JsMap

namespace Frogg.Tasks

open Library

/-! ## 1. Tasks -/

/-- The last one is a text of a file that is no status. -/
inductive TaskStatus where
  | draft | open | inProgress | done | failed
  | unknown (text : String)
  deriving DecidableEq

structure Note where
  timestamp : String
  content : String
  deriving DecidableEq

structure Task where
  id : String
  title : String
  status : TaskStatus
  deps : List String
  parentId : Option String
  body : String
  acceptanceCriteria : List String
  notes : List Note
  created : String
  assignee : Option String
  priority : Option Int
  deriving DecidableEq

/-- The files of a store by name without `.md`, in the order in which `readdir` lists them. -/
structure TaskFiles where
  files : JsMap String Task
  named : ∀ id task, files.get? id = some task → task.id = id
  parents : ∀ id task, files.get? id = some task → task.parentId ≠ some ""

/-- `localeCompare` orders texts, some of them alike. -/
structure LawfulCompare (localeCompare : String → String → Int) : Prop where
  total : ∀ a b, localeCompare a b ≤ 0 ∨ localeCompare b a ≤ 0
  trans : ∀ a b c, localeCompare a b ≤ 0 → localeCompare b c ≤ 0 → localeCompare a c ≤ 0

section Sorting

variable (localeCompare : String → String → Int)

def sortByPriorityThenCreated (a b : Task) : Int :=
  match a.priority, b.priority with
  | some _, none => -1
  | none, some _ => 1
  | some p, some q => if p ≠ q then p - q else localeCompare a.created b.created
  | none, none => localeCompare a.created b.created

/-- `tasks.sort(compare)` -/
def sortBy (compare : Task → Task → Int) (tasks : List Task) : List Task :=
  tasks.mergeSort fun a b => compare a b ≤ 0

end Sorting

/-! ## 2. Reading the store -/

section Dependencies

variable (get : String → Option Task)

/-- The loop over the dependencies in `traverse` of `getDepTree`. -/
def visitDeps (traverse : String → List String × List Task → Option (List String × List Task)) :
    List String → List String × List Task → Option (List String × List Task)
  | [], found => some found
  | depId :: deps, (visited, result) =>
    if depId ∈ visited then visitDeps traverse deps (visited, result)
    else
      match get depId with
      | none => visitDeps traverse deps (visited, result)
      | some dep => do
        let found ← traverse depId (visited, result ++ [dep])
        visitDeps traverse deps found

/-- `traverse`, in `getDepTree`, with what it has visited and found so far. -/
def traverseDeps : Nat → String → List String × List Task → Option (List String × List Task)
  | 0, _, _ => none
  | fuel + 1, taskId, (visited, result) =>
    if taskId ∈ visited then some (visited, result)
    else
      match get taskId with
      | none => some (taskId :: visited, result)
      | some task => visitDeps get (traverseDeps fuel) task.deps (taskId :: visited, result)

/-- `get` is how the store reads a task. -/
def getDepTree (fuel : Nat) (id : String) : Option (Except String (List Task)) :=
  match get id with
  | none => some (.error ("Task not found: " ++ id))
  | some _ => (traverseDeps get fuel id ([], [])).map fun found => .ok found.2

end Dependencies

namespace TaskFiles

variable (localeCompare : String → String → Int) (store : TaskFiles)

def get (id : String) : Option Task := store.files.get? id

def list : List Task :=
  sortBy (fun a b => localeCompare a.created b.created) store.files.values

def getChildren (id : String) : List Task :=
  sortBy (sortByPriorityThenCreated localeCompare)
    ((store.list localeCompare).filter fun t => t.parentId = some id)

/-- `traverse`, in `getDescendants`: the tasks below a parent, each before those below it. -/
def descendants : Nat → String → Option (List Task)
  | 0, _ => none
  | fuel + 1, parentId =>
    (store.getChildren localeCompare parentId).foldlM (fun result child => do
      let below ← descendants fuel child.id
      return result ++ child :: below) []

/-- The chain of parents from an id on, in `getAncestors` and `getAncestorsFrom`. -/
def ancestorsFrom : Nat → Option String → Option (List Task)
  | 0, _ => none
  | _ + 1, none => some []
  | fuel + 1, some currentId =>
    if currentId = "" then some []
    else
      match store.get currentId with
      | none => some []
      | some task => do
        let above ← ancestorsFrom fuel task.parentId
        return task :: above

def getAncestors (fuel : Nat) (id : String) : Option (Except String (List Task)) :=
  match store.get id with
  | none => some (.error ("Task not found: " ++ id))
  | some task => (store.ancestorsFrom fuel task.parentId).map .ok

def getDescendants (fuel : Nat) (id : String) : Option (List Task) :=
  store.descendants localeCompare fuel id

end TaskFiles

/-! ## 3. The graph of a scope -/

structure TaskGraph where
  allTasks : List Task
  candidates : List Task
  taskMap : JsMap String Task
  childrenMap : JsMap String (List Task)
  candidateIds : List String
  doneTaskIds : List String

def buildTaskMap (tasks : List Task) : JsMap String Task :=
  .ofList (tasks.map fun task => (task.id, task))

/-- One turn of the loop in `buildChildrenMap`. -/
def addSibling (childrenMap : JsMap String (List Task)) (task : Task) :
    JsMap String (List Task) :=
  match task.parentId with
  | none => childrenMap
  | some parentId =>
    if parentId = "" then childrenMap
    else childrenMap.set parentId ((childrenMap.get? parentId).getD [] ++ [task])

def buildChildrenMap (tasks : List Task) : JsMap String (List Task) :=
  tasks.foldl addSibling .empty

namespace TaskGraph

variable (graph : TaskGraph)

def areTaskDepsDone (task : Task) (completedTaskIds : List String) : Bool :=
  task.deps.all fun depId => (graph.taskMap.get? depId).isSome && depId ∈ completedTaskIds

def areTaskChildrenDone (taskId : String) (completedTaskIds : List String)
    (inScope : Bool) : Bool :=
  ((graph.childrenMap.get? taskId).getD []).all fun child =>
    (inScope && child.id ∉ graph.candidateIds) || child.id ∈ completedTaskIds

def isTaskExecutableInOrder (taskId : String) (completedTaskIds : List String) : Bool :=
  match graph.taskMap.get? taskId with
  | none => false
  | some task =>
    graph.areTaskDepsDone task completedTaskIds &&
      graph.areTaskChildrenDone task.id completedTaskIds true

def getTasksById (taskIds : List String) : List Task :=
  taskIds.filterMap fun taskId => graph.taskMap.get? taskId

end TaskGraph

/-- The graph that `loadScopedTaskGraph` makes of what it has read. -/
def scopedGraph (allTasks candidates : List Task) : TaskGraph where
  allTasks := allTasks
  candidates := candidates
  taskMap := buildTaskMap allTasks
  childrenMap := buildChildrenMap allTasks
  candidateIds := candidates.map Task.id
  doneTaskIds := (allTasks.filter fun task => task.status = .done).map Task.id

section Loading

variable (localeCompare : String → String → Int) (store : TaskFiles)

def loadScopedCandidates (fuel : Nat) (allTasks : List Task) (scopeId : Option String) :
    Option (List Task) :=
  match scopeId with
  | none => some allTasks
  | some scopeId =>
    if scopeId = "" then some allTasks
    else do
      let descendants ← store.descendants localeCompare fuel scopeId
      match store.get scopeId with
      | some scopeTask => some (scopeTask :: descendants)
      | none => some descendants

def loadScopedTaskGraph (fuel : Nat) (scopeId : Option String) : Option TaskGraph := do
  let allTasks := store.list localeCompare
  let candidates ← loadScopedCandidates localeCompare store fuel allTasks scopeId
  return scopedGraph allTasks candidates

end Loading

end Frogg.Tasks
