/-
  Subject:   Calls of a task store that are under way together (tasks/task-store.ts).

  A call is what it still has to do, one `await` at a time: other calls run in between. A file is
  replaced as a whole (writeFileAtomic), so a read finds one document that was written, and `Files`
  keeps the task each document was written from. Texts that are not alike may name one file.
-/
import Frogg.Library.PosixPath
import Frogg.Library.Transition
import Frogg.Tasks.DocumentHead

namespace Frogg.Tasks

open Library

/-! ## 1. What calls do -/

inductive Program where
  | done (result : Option Task)
  | throw (error : String)
  /-- `await this.get(id)` -/
  | get (id : String) (next : Option Task → Program)
  /-- The loop of `getAncestorsFrom`, with the ancestors that it has found. -/
  | getAncestorsFrom (currentId : Option String) (ancestors : List Task)
      (next : List Task → Program)
  /-- `await this.writeTask(task)` -/
  | write (task : Task) (next : Program)
  /-- `await unlink(this.taskPath(id))` -/
  | unlink (id : String)

namespace Program

/-- `get`, and an error where there is no task. -/
def require (id error : String) (next : Task → Program) : Program :=
  .get id fun
    | none => .throw error
    | some task => next task

def requireTask (id : String) (next : Task → Program) : Program :=
  require id ("Task not found: " ++ id) next

end Program

open Program

/-- `CreateTaskOptions` -/
structure CreateTaskOptions where
  deps : Option (List String)
  parentId : Option String
  status : Option TaskStatus
  body : Option String
  acceptanceCriteria : Option (List String)
  assignee : Option String
  priority : Option Int

/-- `id` is what `generateId` gives, `created` the time. -/
def create (id created title : String) (opts : CreateTaskOptions) : Program :=
  let task : Task :=
    { id := id, title := title, status := opts.status.getD .open, deps := opts.deps.getD [],
      parentId := opts.parentId, body := opts.body.getD "",
      acceptanceCriteria := opts.acceptanceCriteria.getD [], notes := [], created := created,
      assignee := opts.assignee, priority := opts.priority }
  let save := Program.write task (.get task.id .done)
  match opts.parentId with
  | none => save
  | some parentId =>
    if parentId = "" then save
    else require parentId ("Parent task not found: " ++ parentId) fun _ => save

/-- `Partial<Omit<Task, "id" | "created">>` -/
structure TaskChanges where
  title : Option String := none
  status : Option TaskStatus := none
  deps : Option (List String) := none
  parentId : Option (Option String) := none
  body : Option String := none
  acceptanceCriteria : Option (List String) := none
  notes : Option (List Note) := none
  assignee : Option (Option String) := none
  priority : Option (Option Int) := none

/-- `{ ...task, ...changes }` -/
def TaskChanges.apply (changes : TaskChanges) (task : Task) : Task :=
  { id := task.id
    title := changes.title.getD task.title
    status := changes.status.getD task.status
    deps := changes.deps.getD task.deps
    parentId := changes.parentId.getD task.parentId
    body := changes.body.getD task.body
    acceptanceCriteria := changes.acceptanceCriteria.getD task.acceptanceCriteria
    notes := changes.notes.getD task.notes
    created := task.created
    assignee := changes.assignee.getD task.assignee
    priority := changes.priority.getD task.priority }

section

variable (id : String)

def update (changes : TaskChanges) : Program :=
  requireTask id fun task => .write (changes.apply task) (.done (some (changes.apply task)))

def delete : Program := requireTask id fun _ => .unlink id

def addDep (id depId : String) : Program :=
  requireTask id fun task =>
    require depId ("Dependency not found: " ++ depId) fun _ =>
      if depId ∈ task.deps then .done none
      else .write { task with deps := task.deps ++ [depId] } (.done none)

def removeDep (id depId : String) : Program :=
  requireTask id fun task =>
    .write { task with deps := task.deps.filter (· ≠ depId) } (.done none)

def setParent (parentId : Option String) : Program :=
  requireTask id fun _ =>
    match parentId with
    | none => update id { parentId := some none }
    | some parentId =>
      if parentId = "" then update id { parentId := some (some parentId) }
      else
        require parentId ("Parent task not found: " ++ parentId) fun _ =>
          if parentId = id then .throw "Task cannot be its own parent"
          else
            .getAncestorsFrom (some parentId) [] fun ancestors =>
              if ancestors.any (·.id = id) then
                .throw "Cannot set parent: would create circular reference"
              else update id { parentId := some (some parentId) }

/-- `timestamp` is the time. -/
def addNote (timestamp id content : String) : Program :=
  requireTask id fun task =>
    .write { task with notes := task.notes ++ [⟨timestamp, content⟩] } (.done none)

def setStatus (status : TaskStatus) : Program :=
  requireTask id fun _ => update id { status := some status }

def openTask : Program := setStatus id .open

def start : Program :=
  requireTask id fun task =>
    if task.status ≠ .open then
      .throw ("Cannot start task with status: " ++ task.status.text)
    else update id { status := some .inProgress }

def close : Program := setStatus id .done

def fail : Program := setStatus id .failed

end

def addAcceptanceCriteria (id criterion : String) : Program :=
  requireTask id fun task =>
    .write { task with acceptanceCriteria := task.acceptanceCriteria ++ [criterion] } (.done none)

/-- Calls that change tasks, with the id that each is made with; `update` is called without a
    parent. -/
inductive Mutation : String → Program → Prop
  | create (id created title : String) (opts : CreateTaskOptions) :
      IsTaskId id → IsTimestamp created → Mutation id (create id created title opts)
  | update (id : String) (changes : TaskChanges) :
      changes.parentId = none → Mutation id (update id changes)
  | delete (id : String) : Mutation id (delete id)
  | addDep (id depId : String) : Mutation id (addDep id depId)
  | removeDep (id depId : String) : Mutation id (removeDep id depId)
  | setParent (id : String) (parentId : Option String) : Mutation id (setParent id parentId)
  | addNote (timestamp id content : String) : Mutation id (addNote timestamp id content)
  | openTask (id : String) : Mutation id (openTask id)
  | start (id : String) : Mutation id (start id)
  | close (id : String) : Mutation id (close id)
  | fail (id : String) : Mutation id (fail id)
  | addAcceptanceCriteria (id criterion : String) :
      Mutation id (addAcceptanceCriteria id criterion)

/-! ## 2. Files -/

/-- Each file by its path, with the task that it was written from. -/
abbrev Files := JsMap String Task

/-- `join(this.dir, `${id}.md`)`, in an absolute directory. -/
def taskPath (dir id : String) : String := joinPath dir (id ++ ".md")

/-- `readTask`; `now` is the time. -/
def readTask (now dir : String) (files : Files) (id : String) : Except String (Option Task) :=
  match files.get? (taskPath dir id) with
  | none => .ok none
  | some written => (parseTask now (serializeTask written)).map some

example : taskPath "/tasks" "./0000000a" = taskPath "/tasks" "0000000a" := by decide

/-! ## 3. Calls that are under way -/

/-- `given` is the id that the call was made with, `walked` what the loop over the ancestors has
    read since the last write. -/
structure Call where
  program : Program
  given : String
  walked : List (String × Option Task)

/-- What a call does until its next `await`. -/
def Call.advance (now dir : String) (files : Files) (call : Call) : Files × Call :=
  match call.program with
  | .done _ | .throw _ => (files, call)
  | .get id next =>
    match readTask now dir files id with
    | .error error => (files, { call with program := .throw error })
    | .ok found => (files, { call with program := next found })
  | .getAncestorsFrom none ancestors next => (files, { call with program := next ancestors })
  | .getAncestorsFrom (some currentId) ancestors next =>
    if currentId = "" then (files, { call with program := next ancestors })
    else
      match readTask now dir files currentId with
      | .error error => (files, { call with program := .throw error })
      | .ok none => (files, ⟨next ancestors, call.given, call.walked ++ [(currentId, none)]⟩)
      | .ok (some task) =>
        (files, ⟨.getAncestorsFrom task.parentId (ancestors ++ [task]) next, call.given,
          call.walked ++ [(currentId, some task)]⟩)
  | .write task next => (files.set (taskPath dir task.id) task, ⟨next, call.given, []⟩)
  | .unlink id =>
    match files.get? (taskPath dir id) with
    | none => (files, { call with program := .throw "ENOENT" })
    | some _ => (files.delete (taskPath dir id), { call with program := .done none })

structure CallState where
  files : Files
  calls : List Call

/-- A call is made, or a call that is under way goes on. -/
inductive CallMove (dir : String) : CallState → CallState → Prop
  | begins (s : CallState) (id : String) (program : Program) :
      Mutation id program → CallMove dir s { s with calls := s.calls ++ [⟨program, id, []⟩] }
  | advances (s : CallState) (i : Nat) (call : Call) (now : String) :
      s.calls[i]? = some call →
      CallMove dir s
        ⟨(call.advance now dir s.files).1, s.calls.set i (call.advance now dir s.files).2⟩

end Frogg.Tasks
