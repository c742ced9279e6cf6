/-
  Subject:   The hierarchy of a task store stays walkable while calls write only what they have
             checked.

  A call reads the parents above a task file by file, and another one may move a task in between.
  **`hierarchy_walkable`**: as long as no write rests on a parent that has changed or on an id in
  another spelling (`Undisturbed`), following parents never comes back, whatever order the calls go
  on in, and both walks end.
  **`setParent_twice`**: two calls of `setParent` at once make two tasks each other's parents.
-/
import Frogg.Tasks.DependencyTree
import Frogg.Tasks.DocumentRoundTrip
import Frogg.Tasks.TaskCalls
import Frogg.Tasks.TaskTree

namespace Frogg.Tasks

open Library Hierarchy List Option JsMap

/-! ## 1. What is read of files -/

/-- The parent that a task with a plain head is read with. -/
def keptParent (task : Task) : Option String := task.parentId.filter (· ≠ "")

variable {p id now dir : String} {task : Task}

theorem keptParent_eq_some : keptParent task = some p ↔ task.parentId = some p ∧ p ≠ "" := by
  unfold keptParent
  rw [filter_eq_some_iff, decide_eq_true_iff]

/-- A head of single lines, with an id and a parent as the store issues them. -/
structure PlainlyHeaded (task : Task) : Prop where
  lines : OneLineHead task
  id : IsTaskId task.id
  parent : ∀ p, keptParent task = some p → IsTaskId p

/-- The files of a store: each is of the task it is named after. -/
structure Kept (dir : String) (files : Files) : Prop where
  named : ∀ path task, files.get? path = some task → path = taskPath dir task.id
  heads : ∀ path task, files.get? path = some task → PlainlyHeaded task

theorem isSegment_taskId (h : IsTaskId id) : IsSegment (id ++ ".md").toList := by
  rw [String.toList_append]
  refine ⟨by simp, fun hdot => ?_, fun hdots => ?_, fun hslash => ?_⟩
  · simpa [h.1] using congrArg length hdot
  · simpa [h.1] using congrArg length hdots
  · rcases mem_append.mp hslash with hslash | hslash
    · exact absurd (h.2 _ hslash) (by decide)
    · exact absurd hslash (by decide)

/-- Ids as issued name a file each. -/
theorem taskPath_inj {id id' : String} (h : IsTaskId id) (h' : IsTaskId id')
    (hpath : taskPath dir id = taskPath dir id') : id = id' := by
  have hname := joinPath_inj (isSegment_taskId h) (isSegment_taskId h') hpath
  have hlist := congrArg String.toList hname
  rw [String.toList_append, String.toList_append] at hlist
  exact String.toList_inj.mp (append_cancel_right hlist)

/-- What is read of the file that a task was written to. -/
def readBack (now : String) (task : Task) : Task :=
  match parseTask now (serializeTask task) with
  | .ok found => found
  | .error _ => task

theorem parseTask_oneLineHead (h : OneLineHead task) (now : String) :
    parseTask now (serializeTask task) = .ok (readBack now task) ∧
      (readBack now task).id = task.id ∧ (readBack now task).parentId = keptParent task := by
  obtain ⟨hhead, hvalue⟩ := read_oneLineHead h
  have hid := hvalue "id" (by decide)
  have hparent := hvalue "parentId" (by decide)
  rw [(fieldOf_optional task).1] at hparent
  have hkept : orUndefined (task.parentId.getD "").toList = keptParent task := by
    unfold keptParent
    cases task.parentId with
    | none => rfl
    | some p => by_cases hp : p = "" <;> simp [orUndefined, hp, filter_some]
  unfold readBack parseTask
  rw [hhead]
  dsimp only
  rw [hid, hparent, String.ofList_toList, hkept]
  exact ⟨rfl, rfl, rfl⟩

variable {files : Files}

theorem readTask_of_kept (h : Kept dir files) (now id : String) :
    readTask now dir files id = .ok ((files.get? (taskPath dir id)).map (readBack now)) := by
  unfold readTask
  cases hget : files.get? (taskPath dir id) with
  | none => rfl
  | some task => dsimp only; rw [(parseTask_oneLineHead (h.heads _ task hget).lines now).1]; rfl

/-- The task that is read under an id as issued has that id. -/
theorem Kept.id_eq (h : Kept dir files) (hid : IsTaskId id)
    (hget : files.get? (taskPath dir id) = some task) : task.id = id :=
  (taskPath_inj hid (h.heads _ task hget).id (h.named _ task hget)).symm

theorem readBack_spec (h : Kept dir files) {path : String} (hget : files.get? path = some task)
    (now : String) :
    (readBack now task).id = task.id ∧ (readBack now task).parentId = keptParent task :=
  (parseTask_oneLineHead (h.heads path task hget).lines now).2

/-- What is read of each file, under the id of its task. -/
def filesRead (now : String) (files : Files) : JsMap String Task :=
  .ofList (files.values.map fun task => (task.id, readBack now task))

theorem get?_filesRead (h : Kept dir files) : (filesRead now files).get? id = some task ↔
    IsTaskId id ∧ ∃ written, files.get? (taskPath dir id) = some written ∧
      readBack now written = task := by
  have hstored : ∀ task, (filesRead now files).get? id = some task → IsTaskId id ∧
      ∃ written, files.get? (taskPath dir id) = some written ∧ readBack now written = task := by
    intro task hget
    obtain ⟨written, hin, heq⟩ := mem_map.mp (mem_of_get?_ofList hget)
    obtain ⟨rfl, rfl⟩ := Prod.mk.inj heq
    obtain ⟨path, hpath⟩ := mem_values_iff.mp hin
    exact ⟨(h.heads path written hpath).id, written, h.named path written hpath ▸ hpath, rfl⟩
  refine ⟨hstored task, ?_⟩
  rintro ⟨hid, written, hwritten, rfl⟩
  have hhas : (filesRead now files).has id = true := by
    unfold filesRead
    rw [has_ofList]
    refine any_eq_true.mpr ⟨(written.id, readBack now written), mem_map_of_mem ?_, ?_⟩
    · exact mem_values_iff.mpr ⟨_, hwritten⟩
    · exact decide_eq_true (h.id_eq hid hwritten)
  obtain ⟨found, hfound⟩ := has_iff.mp hhas
  obtain ⟨-, written', hwritten', rfl⟩ := hstored found hfound
  rw [hfound, mem_unique hwritten hwritten']

/-- The store that is read of files. -/
def storeOf (now : String) {files : Files} (h : Kept dir files) : TaskFiles where
  files := filesRead now files
  named := by
    intro id task hget
    obtain ⟨hid, written, hwritten, rfl⟩ := (get?_filesRead h).mp hget
    rw [(readBack_spec h hwritten now).1, h.id_eq hid hwritten]
  parents := by
    intro id task hget
    obtain ⟨hid, written, hwritten, rfl⟩ := (get?_filesRead h).mp hget
    rw [(readBack_spec h hwritten now).2]
    exact fun hempty => (keptParent_eq_some.mp hempty).2 rfl

/-- A store is what a directory is read as: every task under its id, which is one as issued, and so
    is its parent. -/
structure ReadAs (now dir : String) (files : Files) (store : TaskFiles) : Prop where
  stored : store.files = filesRead now files
  get : ∀ id, IsTaskId id → readTask now dir files id = .ok (store.get id)
  issued : ∀ id task, store.get id = some task →
    IsTaskId id ∧ ∀ p, task.parentId = some p → IsTaskId p

theorem readAs_storeOf (h : Kept dir files) : ReadAs now dir files (storeOf now h) where
  stored := rfl
  get := fun id hid => by
    rw [readTask_of_kept h]
    refine congrArg Except.ok (ext fun task => ?_)
    unfold TaskFiles.get storeOf
    rw [get?_filesRead h, map_eq_some_iff, and_iff_right hid]
  issued := fun id task hget => by
    obtain ⟨hid, written, hwritten, rfl⟩ := (get?_filesRead h).mp hget
    refine ⟨hid, fun p hp => (h.heads _ written hwritten).parent p ?_⟩
    rw [← (readBack_spec h hwritten now).2, hp]

/-! ## 2. Writes that rest on what is stored -/

/-- The parent that is read of a file, where there is one. -/
def storedParent (now dir : String) (files : Files) (id : String) : Option (Option String) :=
  match readTask now dir files id with
  | .ok found => found.map Task.parentId
  | .error _ => none

/-- A task that is written has a plain head, and its parent is the stored one, or there is none, or
    nothing has used the task's id, or the call was given that id, the task is still stored and
    every parent that `setParent` has walked over is as it was. -/
structure RestsOnStored (now dir : String) (files : Files) (given : String)
    (walked : List (String × Option Task)) (task : Task) : Prop where
  head : PlainlyHeaded task
  parent : storedParent now dir files task.id = some task.parentId ∨
    task.parentId.all (· = "") = true ∨
    (files.get? (taskPath dir task.id) = none ∧ task.parentId ≠ some task.id ∧
      ∀ id, storedParent now dir files id ≠ some (some task.id)) ∨
    (walked ≠ [] ∧ given = task.id ∧ (files.get? (taskPath dir task.id)).isSome = true ∧
      ∀ read ∈ walked, storedParent now dir files read.1 = read.2.map Task.parentId)

/-- A call that goes on, and if it writes, writes on what is stored. -/
inductive Undisturbed (dir : String) : CallState → CallState → Prop
  | begins (s : CallState) (id : String) (program : Program) :
      Mutation id program → Undisturbed dir s { s with calls := s.calls ++ [⟨program, id, []⟩] }
  | advances (s : CallState) (i : Nat) (call : Call) (now : String) :
      s.calls[i]? = some call →
      (∀ task next, call.program = .write task next →
        RestsOnStored now dir s.files call.given call.walked task) →
      Undisturbed dir s
        ⟨(call.advance now dir s.files).1, s.calls.set i (call.advance now dir s.files).2⟩

/-- Where the parent of a task is read of its file. -/
def parentIn (dir : String) (files : Files) (id : String) : Option String :=
  if IsTaskId id then (files.get? (taskPath dir id)).bind keptParent else none

/-- Runs start without calls and with a hierarchy, as that of an empty directory. -/
def callRuns (dir : String) (step : CallState → CallState → Prop) : TransitionSystem CallState where
  init := fun s => s.calls = [] ∧ Kept dir s.files ∧ Acyclic (parentIn dir s.files)
  step := step

/-! ## 3. What calls have walked over -/

/-- What `getAncestorsFrom` reads, and the ancestors it finds. -/
inductive Walk : Option String → List (String × Option Task) → List Task → Prop
  | none : Walk none [] []
  | empty : Walk (some "") [] []
  | missing (id : String) : id ≠ "" → Walk (some id) [(id, .none)] []
  | parent (id : String) (task : Task) (log : List (String × Option Task)) (above : List Task) :
      id ≠ "" → (IsTaskId id → task.id = id) → Walk task.parentId log above →
      Walk (some id) ((id, some task) :: log) (task :: above)

/-- Whatever a call reads, the id it is given is of no task that it has walked over where it writes
    after a walk, and the parent that it writes is where the walk started. -/
def Sound (given : String) : List (String × Option Task) → Program → Prop
  | _, .done _ => True
  | _, .throw _ => True
  | walked, .get _ next => ∀ found : Option Task, Sound given walked (next found)
  | walked, .getAncestorsFrom currentId ancestors next => ∀ log above, Walk currentId log above →
      Sound given (walked ++ log) (next (ancestors ++ above))
  | walked, .write task next =>
    (walked = [] ∨ ∃ above, Walk task.parentId walked above ∧ ∀ a ∈ above, a.id ≠ given) ∧
      Sound given [] next
  | _, .unlink _ => True

variable {walked : List (String × Option Task)} {given : String}

theorem Sound.require {error : String} {next : Task → Program}
    (h : ∀ task, Sound given walked (next task)) :
    Sound given walked (Program.require id error next) := by
  intro found
  cases found with
  | none => trivial
  | some task => exact h task

theorem Sound.update (id : String) (changes : TaskChanges) : Sound given [] (update id changes) :=
  .require fun _ => ⟨.inl rfl, trivial⟩

theorem Sound.write {task : Task} {next : Program} (h : Sound given [] next) :
    Sound given [] (.write task next) := ⟨.inl rfl, h⟩

theorem Sound.setParent (id : String) (parentId : Option String) :
    Sound id [] (setParent id parentId) := by
  refine .require fun _ => ?_
  cases parentId with
  | none => exact .update id _
  | some parentId =>
    dsimp only
    split
    · exact .update id _
    · refine .require fun _ => ?_
      split
      · trivial
      · intro log above hwalk
        dsimp only [nil_append]
        split
        · trivial
        · rename_i hnone
          refine .require fun task => ⟨.inr ⟨above, hwalk, fun a ha heq => hnone ?_⟩, trivial⟩
          exact any_eq_true.mpr ⟨a, ha, decide_eq_true heq⟩

theorem Sound.setStatus (id : String) (status : TaskStatus) :
    Sound given [] (setStatus id status) :=
  .require fun _ => .update id _

theorem Sound.of_mutation {program : Program} (h : Mutation given program) :
    Sound given [] program := by
  cases h with
  | create _ created title opts _ _ =>
    have hsave : ∀ task : Task, Sound given [] (.write task (.get task.id .done)) := fun task =>
      .write fun _ => trivial
    unfold Frogg.Tasks.create
    split
    · exact hsave _
    · split
      · exact hsave _
      · exact .require fun _ => hsave _
  | update _ changes _ => exact .update given changes
  | delete => exact .require fun _ => trivial
  | addDep _ depId =>
    refine .require fun task => .require fun _ => ?_
    split
    · trivial
    · exact .write trivial
  | removeDep _ depId => exact .require fun _ => .write trivial
  | setParent _ parentId => exact .setParent given parentId
  | addNote timestamp _ content => exact .require fun _ => .write trivial
  | openTask => exact .setStatus given _
  | start =>
    refine .require fun task => ?_
    split
    · trivial
    · exact .update given _
  | close => exact .setStatus given _
  | fail => exact .setStatus given _
  | addAcceptanceCriteria _ criterion => exact .require fun _ => .write trivial

/-! ## 4. What a step preserves -/

structure HierarchyInv (dir : String) (s : CallState) : Prop where
  kept : Kept dir s.files
  acyclic : Acyclic (parentIn dir s.files)
  sound : ∀ call ∈ s.calls, Sound call.given call.walked call.program

theorem storedParent_of_kept (h : Kept dir files) (now id : String) :
    storedParent now dir files id = (files.get? (taskPath dir id)).map keptParent := by
  unfold storedParent
  rw [readTask_of_kept h]
  cases hget : files.get? (taskPath dir id) with
  | none => rfl
  | some task => exact congrArg some (readBack_spec h hget now).2

theorem parentIn_eq_some : parentIn dir files id = some p ↔
    IsTaskId id ∧ ∃ task, files.get? (taskPath dir id) = some task ∧ keptParent task = some p := by
  unfold parentIn
  split
  · rw [bind_eq_some_iff, and_iff_right ‹_›]
  · simp [*]

/-- Where every parent is as it was walked over, the stored tasks that are reached were found. -/
theorem found_of_walk (hkept : Kept dir files) {start : Option String} {above : List Task}
    (hwalk : Walk start walked above)
    (hsame : ∀ read ∈ walked, storedParent now dir files read.1 = read.2.map Task.parentId)
    (hstart : start = some p) (hp : IsTaskId p)
    (hreach : Relation.ReflTransGen (Under (parentIn dir files)) p id)
    (hstored : (files.get? (taskPath dir id)).isSome = true) : ∃ a ∈ above, a.id = id := by
  induction hwalk generalizing p with
  | none => cases hstart
  | empty => exact absurd (some.inj hstart).symm hp.ne_empty
  | missing first _ =>
    obtain rfl := some.inj hstart
    have hmissing := hsame _ mem_cons_self
    rw [storedParent_of_kept hkept] at hmissing
    have hnone : files.get? (taskPath dir first) = none := map_eq_none_iff.mp hmissing
    rcases hreach.cases_head with rfl | ⟨q, hq, -⟩
    · rw [hnone] at hstored; cases hstored
    · obtain ⟨-, task, hget, -⟩ := parentIn_eq_some.mp hq; cases hnone.symm.trans hget
  | parent first task log above _ hid _ ih =>
    obtain rfl := some.inj hstart
    rcases hreach.cases_head with rfl | ⟨q, hq, hrest⟩
    · exact ⟨task, mem_cons_self, hid hp⟩
    · obtain ⟨-, written, hget, hparent⟩ := parentIn_eq_some.mp hq
      have hread := hsame _ mem_cons_self
      rw [storedParent_of_kept hkept, hget] at hread
      have hnext : task.parentId = some q := (some.inj hread).symm.trans hparent
      obtain ⟨a, ha, haid⟩ := ih (fun read hread => hsame read (mem_cons_of_mem _ hread)) hnext
        ((hkept.heads _ written hget).parent q hparent) hrest
      exact ⟨a, mem_cons_of_mem task ha, haid⟩

/-- **A write that rests on what is stored makes no task its own ancestor.** -/
theorem acyclic_write (hkept : Kept dir files) (hacyclic : Acyclic (parentIn dir files))
    {next : Program} (hsound : Sound given walked (.write task next))
    (hrests : RestsOnStored now dir files given walked task) :
    Acyclic (parentIn dir (files.set (taskPath dir task.id) task)) := by
  have hself : parentIn dir (files.set (taskPath dir task.id) task) task.id = keptParent task := by
    unfold parentIn
    rw [if_pos hrests.head.id, get?_set_self]
    rfl
  have hothers : ∀ id p, id ≠ task.id →
      parentIn dir (files.set (taskPath dir task.id) task) id = some p →
      parentIn dir files id = some p := by
    intro id p hne h
    obtain ⟨hid, found, hget, hparent⟩ := parentIn_eq_some.mp h
    rw [get?_set_of_ne fun hpath => hne (taskPath_inj hid hrests.head.id hpath)] at hget
    exact parentIn_eq_some.mpr ⟨hid, found, hget, hparent⟩
  cases hparent : keptParent task with
  | none =>
    refine hacyclic.of_fewer fun id p h => hothers id p (fun heq => ?_) h
    rw [heq, hself, hparent] at h
    cases h
  | some p =>
    obtain ⟨htask, hp⟩ := keptParent_eq_some.mp hparent
    rcases hrests.parent with hsame | hroot | ⟨hunused, hne, hnone⟩ |
        ⟨hwalked, hgiven, hstored, hsame⟩
    · refine hacyclic.of_fewer fun id q h => ?_
      by_cases heq : id = task.id
      · rw [heq, hself] at h
        rw [storedParent_of_kept hkept] at hsame
        obtain ⟨written, hget, hwritten⟩ := map_eq_some_iff.mp hsame
        rw [heq]
        refine parentIn_eq_some.mpr ⟨hrests.head.id, written, hget, ?_⟩
        rw [hwritten, htask, ← hparent, h]
      · exact hothers id q heq h
    · rw [htask] at hroot; exact absurd (of_decide_eq_true hroot) hp
    · refine hacyclic.of_moved hothers (hself.trans hparent) fun hreach => ?_
      rcases hreach.cases_tail with heq | ⟨id, -, hid⟩
      · exact hne (htask.trans (congrArg some heq.symm))
      · obtain ⟨-, written, hget, hwritten⟩ := parentIn_eq_some.mp hid
        refine hnone id ?_
        rw [storedParent_of_kept hkept, hget, map_some, hwritten]
    · refine hacyclic.of_moved hothers (hself.trans hparent) fun hreach => ?_
      obtain ⟨above, hwalk, hnone⟩ := hsound.1.resolve_left hwalked
      obtain ⟨a, ha, haid⟩ :=
        found_of_walk hkept hwalk hsame htask (hrests.head.parent p hparent) hreach hstored
      exact hnone a ha (haid.trans hgiven.symm)

theorem kept_empty : Kept dir .empty := ⟨fun _ _ => nofun, fun _ _ => nofun⟩

theorem Kept.set (h : Kept dir files) (hhead : PlainlyHeaded task) :
    Kept dir (files.set (taskPath dir task.id) task) where
  named := by
    intro path found hget
    rw [get?_set] at hget
    split at hget
    · rw [← some.inj hget]; assumption
    · exact h.named path found hget
  heads := by
    intro path found hget
    rw [get?_set] at hget
    split at hget
    · rw [← some.inj hget]; exact hhead
    · exact h.heads path found hget

theorem Kept.delete (h : Kept dir files) (path : String) : Kept dir (files.delete path) where
  named := by
    intro other found hget
    obtain ⟨-, hget⟩ := get?_delete_eq_some.mp hget
    exact h.named other found hget
  heads := by
    intro other found hget
    obtain ⟨-, hget⟩ := get?_delete_eq_some.mp hget
    exact h.heads other found hget

/-- What a call does in one step, on files that are kept. -/
theorem advance_preserves (hkept : Kept dir files) (hacyclic : Acyclic (parentIn dir files))
    {call : Call} (hsound : Sound call.given call.walked call.program)
    (hrests : ∀ task next, call.program = .write task next →
      RestsOnStored now dir files call.given call.walked task) :
    Kept dir (call.advance now dir files).1 ∧ Acyclic (parentIn dir (call.advance now dir files).1) ∧
      Sound (call.advance now dir files).2.given (call.advance now dir files).2.walked
        (call.advance now dir files).2.program := by
  obtain ⟨program, given, walked⟩ := call
  have hread : ∀ id, readTask now dir files id =
      .ok ((files.get? (taskPath dir id)).map (readBack now)) := readTask_of_kept hkept now
  have hid : ∀ id t, (files.get? (taskPath dir id)).map (readBack now) = some t →
      IsTaskId id → t.id = id := by
    intro id t ht hid
    obtain ⟨written, hget, rfl⟩ := map_eq_some_iff.mp ht
    rw [(readBack_spec hkept hget now).1, hkept.id_eq hid hget]
  cases program with
  | done result => exact ⟨hkept, hacyclic, hsound⟩
  | throw error => exact ⟨hkept, hacyclic, hsound⟩
  | get id next =>
    unfold Call.advance
    dsimp only
    rw [hread]
    exact ⟨hkept, hacyclic, hsound _⟩
  | getAncestorsFrom currentId ancestors next =>
    cases currentId with
    | none =>
      have hnext := hsound [] [] .none
      rw [append_nil, append_nil] at hnext
      exact ⟨hkept, hacyclic, hnext⟩
    | some currentId =>
      unfold Call.advance
      dsimp only
      split
      · rename_i hempty
        subst hempty
        have hnext := hsound [] [] .empty
        rw [append_nil, append_nil] at hnext
        exact ⟨hkept, hacyclic, hnext⟩
      · rename_i hne
        rw [hread]
        have htask := hid currentId
        cases hfound : (files.get? (taskPath dir currentId)).map (readBack now) with
        | none =>
          have hnext := hsound _ [] (.missing currentId hne)
          rw [append_nil] at hnext
          exact ⟨hkept, hacyclic, hnext⟩
        | some task =>
          refine ⟨hkept, hacyclic, fun log above hwalk => ?_⟩
          have hnext := hsound _ _ (.parent currentId task log above hne (htask task hfound) hwalk)
          rw [append_assoc, append_assoc]
          exact hnext
  | write task next =>
    have hrests := hrests task next rfl
    exact ⟨hkept.set hrests.head, acyclic_write hkept hacyclic hsound hrests, hsound.2⟩
  | unlink id =>
    unfold Call.advance
    dsimp only
    split
    · exact ⟨hkept, hacyclic, trivial⟩
    · refine ⟨hkept.delete _, hacyclic.of_fewer fun other p h => ?_, trivial⟩
      obtain ⟨hother, task, hget, hparent⟩ := parentIn_eq_some.mp h
      obtain ⟨-, hget⟩ := get?_delete_eq_some.mp hget
      exact parentIn_eq_some.mpr ⟨hother, task, hget, hparent⟩

theorem HierarchyInv.step {s s' : CallState} (h : HierarchyInv dir s)
    (hstep : Undisturbed dir s s') : HierarchyInv dir s' := by
  cases hstep with
  | begins id program hmutation =>
    refine ⟨h.kept, h.acyclic, fun call hcall => ?_⟩
    rcases mem_append.mp hcall with hcall | hcall
    · exact h.sound call hcall
    · rw [mem_singleton.mp hcall]; exact .of_mutation hmutation
  | advances i call now hget hrests =>
    obtain ⟨hkept, hacyclic, hsound⟩ := advance_preserves h.kept h.acyclic
      (h.sound call (mem_of_getElem? hget)) hrests
    refine ⟨hkept, hacyclic, fun other hother => ?_⟩
    rcases mem_or_eq_of_mem_set hother with hother | rfl
    · exact h.sound other hother
    · exact hsound

theorem hierarchyInv_of_run {s : CallState} (h : (callRuns dir (Undisturbed dir)).Reachable s) :
    HierarchyInv dir s :=
  h.invariant (fun _ hinit => ⟨hinit.2.1, hinit.2.2, fun _ hcall =>
    absurd (hinit.1 ▸ hcall) not_mem_nil⟩) fun _ _ hinv hstep => hinv.step hstep

/-! ## 5. Walks -/

section Walks

variable {localeCompare : String → String → Int} {store : TaskFiles}

/-- The ancestors of a task, once each. -/
theorem getAncestors_spec (hacyclic : store.ParentsAcyclic) (hget : store.get id = some task) :
    ∃ turns chain, (∀ fuel, turns ≤ fuel → store.getAncestors fuel id = some (.ok chain)) ∧
      (chain.map Task.id).Nodup ∧
      ∀ t, t ∈ chain ↔ store.get t.id = some t ∧ Below store.parentOf id t.id := by
  have habove : ∀ t : Task, Below store.parentOf id t.id ↔ ∃ p, task.parentId = some p ∧
      Relation.ReflTransGen (Under store.parentOf) p t.id := by
    intro t
    have hparent : ∀ p, Under store.parentOf id p ↔ task.parentId = some p := by
      intro p
      unfold Under
      rw [TaskFiles.parentOf_eq]
      constructor
      · rintro ⟨found, hfound, hp⟩; rwa [mem_unique hget hfound]
      · exact fun hp => ⟨task, hget, hp⟩
    unfold Below
    rw [Relation.TransGen.head'_iff]
    exact exists_congr fun p => and_congr_left fun _ => hparent p
  have hstart : ∀ fuel, store.getAncestors fuel id =
      (store.ancestorsFrom fuel task.parentId).map .ok := by
    intro fuel
    unfold TaskFiles.getAncestors
    rw [hget]
  cases hparent : task.parentId with
  | none =>
    refine ⟨1, [], fun fuel hfuel => ?_, nodup_nil, fun t => ?_⟩
    · obtain ⟨fuel, rfl⟩ : ∃ n, fuel = n + 1 := ⟨fuel - 1, by omega⟩; rw [hstart, hparent]; rfl
    · rw [habove, hparent]; simp
  | some p =>
    have hp : p ≠ "" := by rintro rfl; exact store.parents id task hget hparent
    obtain ⟨turns, chain, hwalk, hall⟩ := TaskFiles.ancestorsFrom_spec hacyclic hp
    refine ⟨turns, chain, fun fuel hfuel => ?_, hall.nodup, fun t => ?_⟩
    · rw [hstart, hparent, hwalk fuel hfuel]; rfl
    · rw [hall.mem, habove, hparent]; simp

/-- Following parents never comes back, and the walks up and down end: they find each task above and
    below an id once. -/
structure Walkable (localeCompare : String → String → Int) (store : TaskFiles) : Prop where
  acyclic : store.ParentsAcyclic
  ancestors : ∀ id task, store.get id = some task →
    ∃ turns chain, (∀ fuel, turns ≤ fuel → store.getAncestors fuel id = some (.ok chain)) ∧
      (chain.map Task.id).Nodup ∧
      ∀ t, t ∈ chain ↔ store.get t.id = some t ∧ Below store.parentOf id t.id
  descendants : ∀ id, ∃ turns below,
    (∀ fuel, turns ≤ fuel → store.getDescendants localeCompare fuel id = some below) ∧
      store.AllBelow id below

theorem parentOf_storeOf (now : String) (h : Kept dir files) :
    (storeOf now h).parentOf = parentIn dir files := by
  refine funext fun id => ext fun p => ?_
  rw [TaskFiles.parentOf_eq, parentIn_eq_some]
  constructor
  · rintro ⟨task, hget, hparent⟩
    obtain ⟨hid, written, hwritten, rfl⟩ := (get?_filesRead h).mp hget
    exact ⟨hid, written, hwritten, (readBack_spec h hwritten now).2.symm.trans hparent⟩
  · rintro ⟨hid, written, hwritten, hparent⟩
    exact ⟨_, (get?_filesRead h).mpr ⟨hid, written, hwritten, rfl⟩,
      (readBack_spec h hwritten now).2.trans hparent⟩

theorem walkable_of_acyclic (hacyclic : store.ParentsAcyclic) : Walkable localeCompare store where
  acyclic := hacyclic
  ancestors := fun _ _ hget => getAncestors_spec hacyclic hget
  descendants := fun id => TaskFiles.descendants_spec hacyclic id

end Walks

/-- What `get` gives where every file can be read. -/
def readNow (now dir : String) (files : Files) (id : String) : Option Task :=
  match readTask now dir files id with
  | .ok found => found
  | .error _ => none

/-- **Runs in which every write rests on what is stored keep the hierarchy walkable; and whatever the
    dependencies are, of ids as issued, the walk over them ends and finds each task that is reached
    once, and never the first.** -/
theorem hierarchy_walkable (localeCompare : String → String → Int) (dir : String) :
    (∀ s, (callRuns dir (Undisturbed dir)).Reachable s → ∀ now,
      ∃ store : TaskFiles, ReadAs now dir s.files store ∧ Walkable localeCompare store) ∧
      ∀ files, Kept dir files → ∀ now, ∃ store : TaskFiles, ReadAs now dir files store ∧
        ((∀ id task, store.get id = some task → ∀ d ∈ task.deps, IsTaskId d) →
          ∀ root, store.get root.id = some root →
            ∃ turns found, (∀ fuel, turns ≤ fuel →
                getDepTree (readNow now dir files) fuel root.id = some (.ok found)) ∧
              (found.map Task.id).Nodup ∧
              ∀ t, t ∈ found ↔ store.get t.id = some t ∧ t.id ≠ root.id ∧
                Relation.TransGen store.Depends root.id t.id) := by
  refine ⟨fun s hrun now => ?_, fun files hkept now => ?_⟩
  · have hinv := hierarchyInv_of_run hrun
    refine ⟨storeOf now hinv.kept, readAs_storeOf hinv.kept, walkable_of_acyclic ?_⟩
    unfold TaskFiles.ParentsAcyclic
    rw [parentOf_storeOf]
    exact hinv.acyclic
  · have hread := @readAs_storeOf now dir files hkept
    refine ⟨storeOf now hkept, hread, fun hdeps root hroot => ?_⟩
    obtain ⟨turns, found, hwalk, hfound⟩ := TaskFiles.getDepTree_spec hroot
    refine ⟨turns, found, fun fuel hfuel => ?_, hfound⟩
    have hsame : ∀ id, IsTaskId id →
        (storeOf now hkept).get id = readNow now dir files id := by
      intro id hid
      unfold readNow
      rw [hread.get id hid]
    rw [← hwalk fuel hfuel]
    exact (TaskFiles.getDepTree_congr hsame (fun id task _ hget => hdeps id task hget) fuel
      (hread.issued root.id root hroot).1).symm

/-! ## 6. Two calls at once -/

/-- A task without a text. -/
def bareTask (id : String) (parentId : Option String) : Task :=
  { id := id, title := "Task", status := .open, deps := [], parentId := parentId, body := "",
    acceptanceCriteria := [], notes := [], created := "2024-01-01T00:00:00.000Z", assignee := none,
    priority := none }

variable {parentId : Option String}

theorem written_bareTask (hid : IsTaskId id) (hparent : ∀ p, parentId = some p → IsTaskId p) :
    Written (bareTask id parentId) where
  id := hid
  status := fun text h => by cases h
  deps := fun d hd => absurd hd not_mem_nil
  parentId := fun p hp => .inr (hparent p hp)
  created := by show IsTimestamp "2024-01-01T00:00:00.000Z"; decide
  notes := fun note hnote => absurd hnote not_mem_nil
  priority := fun p hp => by cases hp

theorem intact_bareTask (hparent : ∀ p, parentId = some p → IsTaskId p) :
    Intact (bareTask id parentId) where
  head := by
    refine ⟨?_, fun hempty => (hparent "" hempty).ne_empty rfl, fun a ha => by cases ha⟩
    show OneLine "Task".toList
    decide
  priority := fun p hp => by cases hp
  body := by
    show ∀ line ∈ "".toList.splitOn '\n', ¬ IsHeading line
    unfold IsHeading
    decide
  criteria := fun c hc => absurd hc not_mem_nil
  criteriaRead := by show criteriaRead (bareTask "" none) = []; decide
  notes := fun note hnote => absurd hnote not_mem_nil
  strayNotes := by show strayNotes (bareTask "" none) = []; decide

theorem plainlyHeaded_bareTask (hid : IsTaskId id) (hparent : ∀ p, parentId = some p → IsTaskId p) :
    PlainlyHeaded (bareTask id parentId) where
  lines := (intact_bareTask hparent).head.oneLineHead (written_bareTask hid hparent)
  id := hid
  parent := fun p hp => hparent p (keptParent_eq_some.mp hp).1

theorem Kept.setBareTask (h : Kept dir files) (hid : IsTaskId id)
    (hparent : ∀ p, parentId = some p → IsTaskId p) :
    Kept dir (files.set (taskPath dir id) (bareTask id parentId)) :=
  @Kept.set dir (bareTask id parentId) files h (plainlyHeaded_bareTask hid hparent)

/-- Steps of one call that write nothing. -/
def Advances (now dir : String) (files : Files) : Call → Call → Prop :=
  Relation.ReflTransGen fun call call' => call.advance now dir files = (files, call')

theorem Advances.run {call call' : Call} (h : Advances now dir files call call')
    {calls : List Call} {i : Nat} (hcall : calls[i]? = some call) :
    Relation.ReflTransGen (CallMove dir) ⟨files, calls⟩ ⟨files, calls.set i call'⟩ := by
  have hi := (List.getElem?_eq_some_iff.mp hcall).1
  induction h with
  | refl => obtain ⟨_, rfl⟩ := List.getElem?_eq_some_iff.mp hcall; rw [set_getElem_self]
  | @tail b c _ hstep ih =>
    have hmove := @CallMove.advances dir ⟨files, calls.set i b⟩ i b now
      (List.getElem?_set_self hi)
    rw [hstep, set_set] at hmove
    exact ih.tail hmove

theorem readTask_bareTask (hget : files.get? (taskPath dir id) = some (bareTask id parentId))
    (hid : IsTaskId id) (hparent : ∀ p, parentId = some p → IsTaskId p) (now : String) :
    readTask now dir files id = .ok (some (bareTask id parentId)) := by
  unfold readTask
  rw [hget]
  dsimp only
  rw [parseTask_of_intact (written_bareTask hid hparent) (intact_bareTask hparent)]
  rfl

section Advances

variable {call : Call}

theorem Advances.require {error : String} {next : Task → Program}
    (hread : readTask now dir files id = .ok (some task))
    (h : Advances now dir files ⟨next task, given, walked⟩ call) :
    Advances now dir files ⟨Program.require id error next, given, walked⟩ call := by
  refine .head ?_ h
  unfold Program.require Call.advance
  dsimp only
  rw [hread]

variable {ancestors : List Task} {next : List Task → Program}

theorem Advances.ancestor (hid : id ≠ "") (hread : readTask now dir files id = .ok (some task))
    (h : Advances now dir files ⟨.getAncestorsFrom task.parentId (ancestors ++ [task]) next, given,
      walked ++ [(id, some task)]⟩ call) :
    Advances now dir files ⟨.getAncestorsFrom (some id) ancestors next, given, walked⟩ call := by
  refine .head ?_ h
  unfold Call.advance
  dsimp only
  rw [if_neg hid, hread]

theorem Advances.top (h : Advances now dir files ⟨next ancestors, given, walked⟩ call) :
    Advances now dir files ⟨.getAncestorsFrom none ancestors next, given, walked⟩ call :=
  .head rfl h

end Advances

/-- A call of `setParent` on two roots, up to its write. -/
theorem setParent_advances (hid : IsTaskId id) (hp : IsTaskId p) (hne : p ≠ id)
    (hget : files.get? (taskPath dir id) = some (bareTask id none))
    (hgetParent : files.get? (taskPath dir p) = some (bareTask p none)) (now : String) :
    Advances now dir files ⟨setParent id (some p), id, []⟩
      ⟨.write (bareTask id (some p)) (.done (some (bareTask id (some p)))), id,
        [(p, some (bareTask p none))]⟩ := by
  have hread := readTask_bareTask hget hid (fun p hp => by cases hp) now
  have hreadParent := readTask_bareTask hgetParent hp (fun p hp => by cases hp) now
  have hempty : p ≠ "" := hp.ne_empty
  have hother : ¬ ([bareTask p none].any (·.id = id)) = true := by simpa [bareTask] using hne
  refine .require hread ?_
  dsimp only
  rw [if_neg hempty]
  refine .require hreadParent ?_
  rw [if_neg hne]
  refine .ancestor hempty hreadParent (.top ?_)
  dsimp only [nil_append]
  rw [if_neg hother]
  exact .require hread .refl

/-- Two tasks that are each other's parents have ancestors without end. -/
theorem ancestorsFrom_of_loop {store : TaskFiles} {a b : String}
    (ha : store.parentOf a = some b) (hb : store.parentOf b = some a) (fuel : Nat) :
    store.ancestorsFrom fuel (some a) = none ∧ store.ancestorsFrom fuel (some b) = none := by
  have hstep : ∀ {x y : String} {fuel : Nat}, store.parentOf x = some y →
      store.ancestorsFrom fuel (some y) = none → y ≠ "" → x ≠ "" →
      store.ancestorsFrom (fuel + 1) (some x) = none := by
    intro x y fuel hx hy _ hne
    obtain ⟨task, hget, hparent⟩ := TaskFiles.parentOf_eq.mp hx
    unfold TaskFiles.ancestorsFrom
    rw [if_neg hne, hget]
    dsimp only
    rw [hparent, hy]
    rfl
  have hne : ∀ {x y : String}, store.parentOf x = some y → y ≠ "" := by
    rintro x y hx rfl
    obtain ⟨task, hget, hparent⟩ := TaskFiles.parentOf_eq.mp hx
    exact store.parents x task hget hparent
  induction fuel with
  | zero => exact ⟨rfl, rfl⟩
  | succ fuel ih => exact ⟨hstep ha ih.2 (hne ha) (hne hb), hstep hb ih.1 (hne hb) (hne ha)⟩

/-- **Two calls of `setParent` at once make two tasks each other's parents, and `getAncestors` never
    ends.** -/
theorem setParent_twice :
    ∃ s, (callRuns "/tasks" (CallMove "/tasks")).Reachable s ∧
      ∃ store : TaskFiles, ReadAs "" "/tasks" s.files store ∧
        ¬ store.ParentsAcyclic ∧ ∀ fuel, store.getAncestors fuel "0000000a" = none := by
  obtain ⟨dir, hdir⟩ : ∃ dir, dir = "/tasks" := ⟨_, rfl⟩
  obtain ⟨a, ha⟩ : ∃ a, a = "0000000a" := ⟨_, rfl⟩
  obtain ⟨b, hb⟩ : ∃ b, b = "0000000b" := ⟨_, rfl⟩
  rw [← ha, ← hdir]
  have haId : IsTaskId a := by rw [ha]; decide
  have hbId : IsTaskId b := by rw [hb]; decide
  have hne : a ≠ b := by rw [ha, hb]; decide
  have hpath : taskPath dir a ≠ taskPath dir b := fun h => hne (taskPath_inj haId hbId h)
  have hnone : ∀ p, (none : Option String) = some p → IsTaskId p := fun p hp => by cases hp
  have hsome : ∀ {id : String}, IsTaskId id → ∀ p, some id = some p → IsTaskId p :=
    fun hid p hp => some.inj hp ▸ hid
  -- the two tasks, without parents
  obtain ⟨files, hfiles⟩ : ∃ files : Files, files = (empty.set (taskPath dir a)
    (bareTask a none)).set (taskPath dir b) (bareTask b none) := ⟨_, rfl⟩
  have hkept : Kept dir files := by
    rw [hfiles]
    exact .setBareTask (.setBareTask kept_empty haId hnone) hbId hnone
  have hgetA : files.get? (taskPath dir a) = some (bareTask a none) := by
    rw [hfiles, get?_set_of_ne hpath, get?_set_self]
  have hgetB : files.get? (taskPath dir b) = some (bareTask b none) := by rw [hfiles, get?_set_self]
  have hroots : Acyclic (parentIn dir files) := by
    refine acyclic_of_rank (fun _ => 0) fun id p hp => ?_
    obtain ⟨-, task, hget, hparent⟩ := parentIn_eq_some.mp hp
    rw [hfiles, get?_set, get?_set] at hget
    split at hget
    · obtain rfl := some.inj hget; cases hparent
    · split at hget
      · obtain rfl := some.inj hget; cases hparent
      · cases hget
  -- both calls have read what they check before either writes
  have hwriteA := setParent_advances haId hbId hne.symm hgetA hgetB ""
  have hwriteB := setParent_advances hbId haId hne hgetB hgetA ""
  have hrun := ((Relation.ReflTransGen.single (CallMove.begins ⟨files, []⟩ a _
    (.setParent a (some b)))).tail (CallMove.begins _ b _ (.setParent b (some a)))).trans
    ((hwriteA.run (i := 0) rfl).trans (hwriteB.run (i := 1) rfl))
  have hdone := (hrun.tail (CallMove.advances _ 0 _ "" rfl)).tail (CallMove.advances _ 1 _ "" rfl)
  refine ⟨_, ⟨⟨files, []⟩, ⟨rfl, hkept, hroots⟩, hdone⟩, ?_⟩
  have hkeptAfter : Kept dir ((files.set (taskPath dir a) (bareTask a (some b))).set
      (taskPath dir b) (bareTask b (some a))) :=
    .setBareTask (.setBareTask hkept haId (hsome hbId)) hbId (hsome haId)
  refine ⟨storeOf "" hkeptAfter, readAs_storeOf hkeptAfter, ?_⟩
  have hparentA : (storeOf "" hkeptAfter).parentOf a = some b := by
    rw [parentOf_storeOf]
    refine parentIn_eq_some.mpr ⟨haId, bareTask a (some b), ?_, keptParent_eq_some.mpr
      ⟨rfl, hbId.ne_empty⟩⟩
    rw [get?_set_of_ne hpath, get?_set_self]
  have hparentB : (storeOf "" hkeptAfter).parentOf b = some a := by
    rw [parentOf_storeOf]
    refine parentIn_eq_some.mpr ⟨hbId, bareTask b (some a), ?_, keptParent_eq_some.mpr
      ⟨rfl, haId.ne_empty⟩⟩
    rw [get?_set_self]
  refine ⟨fun hacyclic => hacyclic a (.tail (.single hparentA) hparentB), fun fuel => ?_⟩
  obtain ⟨task, hget, hparent⟩ := TaskFiles.parentOf_eq.mp hparentA
  unfold TaskFiles.getAncestors
  rw [hget]
  dsimp only
  rw [hparent, (ancestorsFrom_of_loop hparentA hparentB fuel).2]
  rfl

/-- A call of `create` that is alone, after its write. -/
theorem create_walkable : ∃ store : TaskFiles,
    ReadAs "" "/tasks" (empty.set (taskPath "/tasks" "0000000a") (bareTask "0000000a" none))
        store ∧ Walkable (fun _ _ => 0) store := by
  have hid : IsTaskId "0000000a" := by decide
  have hnone : ∀ p, (none : Option String) = some p → IsTaskId p := fun p hp => by cases hp
  generalize "/tasks" = dir
  generalize "0000000a" = id at hid ⊢
  have hwritten := written_bareTask hid hnone
  have hbegins := @Undisturbed.begins dir ⟨.empty, []⟩ _ _ (.create id
    "2024-01-01T00:00:00.000Z" "Task" ⟨none, none, none, none, none, none, none⟩ hid
    hwritten.created)
  have hwrites := @Undisturbed.advances dir ⟨.empty, [] ++
      [⟨.write (bareTask id none) (.get id .done), id, []⟩]⟩ 0 _ "" rfl
    fun task next hwrite => by
      obtain ⟨rfl, -⟩ := Program.write.inj hwrite
      exact ⟨plainlyHeaded_bareTask hid hnone, .inr (.inl rfl)⟩
  have hempty : Acyclic (parentIn dir .empty) :=
    acyclic_of_rank (fun _ => 0) fun id p hp => by
      obtain ⟨-, task, hget, -⟩ := parentIn_eq_some.mp hp
      cases hget
  exact (hierarchy_walkable (fun _ _ => 0) dir).1 _
    ⟨⟨.empty, []⟩, ⟨rfl, kept_empty, hempty⟩, (Relation.ReflTransGen.single hbegins).tail hwrites⟩ ""

end Frogg.Tasks
