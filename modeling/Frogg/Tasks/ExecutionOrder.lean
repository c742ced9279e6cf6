/-
  Subject:   The order in which the tasks of a scope can be done (tasks/execution-order.ts).

  **`computeExecutionOrder_spec`**: where parents never come back to a task, the computation ends.
  Each pending task stands after what it needs and is the first, by priority and age, of those that
  could be done then; and blocked is exactly what no order of doing pending tasks can ever unblock.
-/
import Mathlib.Data.String.Basic
import Frogg.Library.Completion
import Frogg.Tasks.TaskTree

namespace Frogg.Tasks

open Library Completion List TaskFiles JsMap

/-! ## 1. The computation -/

structure ExecutionOrderResult where
  timeline : List Task
  orderMap : JsMap String Nat
  blocked : JsMap String Unit

/-- What the loop has placed and what remains. -/
structure Simulation where
  simDone : List String
  remaining : JsMap String Unit
  timeline : List Task
  orderMap : JsMap String Nat
  orderIdx : Nat

namespace Simulation

def push (s : Simulation) (t : Task) : Simulation :=
  { s with
    timeline := s.timeline ++ [t]
    orderMap := s.orderMap.set t.id s.orderIdx
    orderIdx := s.orderIdx + 1 }

variable (localeCompare : String → String → Int) (graph : TaskGraph)

def readyNow (s : Simulation) : List Task :=
  sortBy (sortByPriorityThenCreated localeCompare)
    ((graph.getTasksById s.remaining.keys).filter fun task =>
      graph.isTaskExecutableInOrder task.id s.simDone)

/-- One turn of the loop with the task it takes. -/
def complete (s : Simulation) (next : Task) : Simulation :=
  { s.push next with
    simDone := s.simDone ++ [next.id]
    remaining := s.remaining.delete next.id }

def run : Nat → Simulation → Option Simulation
  | 0, _ => none
  | turns + 1, s =>
    if s.remaining.size = 0 then some s
    else
      match s.readyNow localeCompare graph with
      | [] => some s
      | next :: _ => run turns (s.complete next)

end Simulation

def isPending (t : Task) : Bool := t.status = .open || t.status = .inProgress

section Computation

variable (localeCompare : String → String → Int)

/-- The done candidates in place, the pending ones remaining. -/
def startSimulation (graph : TaskGraph) : Simulation :=
  let done := sortBy (fun a b => localeCompare a.created b.created)
    (graph.candidates.filter fun t => t.status = .done)
  done.foldl Simulation.push
    ⟨graph.doneTaskIds, .ofList ((graph.candidates.filter isPending).map fun t => (t.id, ())), [],
      .empty, 0⟩

def computeExecutionOrder (store : TaskFiles) (fuel : Nat) (scopeId : Option String) :
    Option ExecutionOrderResult := do
  let graph ← loadScopedTaskGraph localeCompare store fuel scopeId
  let s ← (startSimulation localeCompare graph).run localeCompare graph fuel
  return ⟨s.timeline, s.orderMap, s.remaining⟩

end Computation

/-! ## 2. What an execution order is -/

section Specification

variable (localeCompare : String → String → Int) (store : TaskFiles) (scopeId : Option String)

/-- All tasks, or the task of the scope with all below it. -/
def InScope (id : String) : Prop :=
  ∀ scope, scopeId = some scope → scope ≠ "" → id = scope ∨ Hierarchy.Below store.parentOf id scope

/-- A stored task of the scope. -/
def Candidate (t : Task) : Prop := store.get t.id = some t ∧ InScope store scopeId t.id

def doneIds : Set String := {id | ∃ t, store.get id = some t ∧ t.status = .done}

/-- A pending task is completed when its dependencies and its children in the scope are. -/
def completionRule : Rule String where
  item id := ∃ t, t.id = id ∧ Candidate store scopeId t ∧ isPending t = true
  ready done id := ∃ t, store.get id = some t ∧
    (∀ d ∈ t.deps, (store.get d).isSome = true ∧ d ∈ done) ∧
    ∀ c, Candidate store scopeId c → c.parentId = some id → c.id ∈ done
  mono := by
    rintro done done' id hsub ⟨t, ht, hdeps, hchildren⟩
    exact ⟨t, ht, fun d hd => ⟨(hdeps d hd).1, hsub (hdeps d hd).2⟩,
      fun c hc hparent => hsub (hchildren c hc hparent)⟩

/-- What is done at a place of the timeline. -/
def doneBefore (timeline : List Task) (i : Nat) : Set String :=
  doneIds store ∪ {id | id ∈ (timeline.take i).map Task.id}

structure IsExecutionOrder (result : ExecutionOrderResult) : Prop where
  done : ∀ t, Candidate store scopeId t → t.status = .done → t ∈ result.timeline
  placed : ∀ t, Candidate store scopeId t → isPending t = true →
    (t ∈ result.timeline ∧ result.blocked.has t.id = false) ∨
      (t ∉ result.timeline ∧ result.blocked.has t.id = true)
  timeline : ∀ t ∈ result.timeline,
    Candidate store scopeId t ∧ (t.status = .done ∨ isPending t = true)
  nodup : result.timeline.Nodup
  orderMap : ∀ id i, result.orderMap.get? id = some i ↔
    ∃ t, result.timeline[i]? = some t ∧ t.id = id
  /-- Dependencies and children in the scope come first. -/
  after : ∀ (i : Nat) t, result.timeline[i]? = some t → isPending t = true →
    (∀ d ∈ t.deps, ∃ u, store.get d = some u ∧
      (u.status = .done ∨ u ∈ result.timeline.take i)) ∧
    ∀ c, Candidate store scopeId c → c.parentId = some t.id →
      c.status = .done ∨ c ∈ result.timeline.take i
  /-- No task that could be done at that point goes before it. -/
  minimum : ∀ (i : Nat) t u, result.timeline[i]? = some t → isPending t = true →
    Candidate store scopeId u → isPending u = true → u ∉ result.timeline.take i →
    (completionRule store scopeId).ready (doneBefore store result.timeline i) u.id →
    sortByPriorityThenCreated localeCompare t u ≤ 0
  blocked : ∀ id, result.blocked.has id = true ↔
    (completionRule store scopeId).item id ∧
      ∀ order, Order (completionRule store scopeId) (doneIds store) order →
        ¬ (completionRule store scopeId).ready (doneIds store ∪ {b | b ∈ order}) id

end Specification

variable {localeCompare : String → String → Int} {store : TaskFiles} {scopeId : Option String}

/-! ## 3. The graph that is loaded -/

/-- What the graph of a scope says of the store. -/
structure Loaded (store : TaskFiles) (scopeId : Option String) (graph : TaskGraph) : Prop where
  candidates : ∀ t, t ∈ graph.candidates ↔ Candidate store scopeId t
  nodup : (graph.candidates.map Task.id).Nodup
  taskMap : ∀ id, graph.taskMap.get? id = store.get id
  children : ∀ id c, c ∈ (graph.childrenMap.get? id).getD [] ↔
    store.get c.id = some c ∧ c.parentId = some id
  candidateIds : ∀ id, id ∈ graph.candidateIds ↔ ∃ t, Candidate store scopeId t ∧ t.id = id
  doneTaskIds : ∀ id, id ∈ graph.doneTaskIds ↔ id ∈ doneIds store

theorem get?_buildTaskMap (id : String) :
    (buildTaskMap (store.list localeCompare)).get? id = store.get id := by
  cases hmap : (buildTaskMap (store.list localeCompare)).get? id with
  | some t =>
    obtain ⟨u, hu, heq⟩ := mem_map.mp (mem_of_get?_ofList hmap)
    obtain ⟨rfl, rfl⟩ := Prod.mk.inj heq
    exact (mem_list.mp hu).symm
  | none =>
    cases hget : store.get id with
    | none => rfl
    | some t =>
      obtain rfl := get_id hget
      have hhas : (buildTaskMap (store.list localeCompare)).has t.id = true := by
        unfold buildTaskMap
        rw [has_ofList, any_map, any_eq_true]
        exact ⟨t, mem_list.mpr hget, decide_eq_true rfl⟩
      rw [has_eq_false_iff.mpr hmap] at hhas
      cases hhas

theorem mem_buildChildrenMap {tasks : List Task} (h : ∀ t ∈ tasks, t.parentId ≠ some "")
    (id : String) (c : Task) :
    c ∈ ((buildChildrenMap tasks).get? id).getD [] ↔ c ∈ tasks ∧ c.parentId = some id := by
  have hfold : ∀ (tasks : List Task) (m : JsMap String (List Task)),
      (∀ t ∈ tasks, t.parentId ≠ some "") →
      (c ∈ ((tasks.foldl addSibling m).get? id).getD [] ↔
        c ∈ (m.get? id).getD [] ∨ (c ∈ tasks ∧ c.parentId = some id)) := by
    intro tasks
    induction tasks with
    | nil => simp
    | cons t tasks ih =>
      intro m hne
      rw [foldl_cons, ih _ fun u hu => hne u (mem_cons_of_mem t hu)]
      have ht := hne t mem_cons_self
      unfold addSibling
      cases hparent : t.parentId with
      | none =>
        rw [mem_cons]
        refine or_congr_right (and_congr_left fun hc => ⟨.inr, ?_⟩)
        rintro (rfl | hmem)
        · cases hparent.symm.trans hc
        · exact hmem
      | some p =>
        have hp : p ≠ "" := by rintro rfl; exact ht hparent
        dsimp only
        rw [if_neg hp, get?_set, mem_cons]
        by_cases hid : id = p
        · subst hid
          rw [if_pos rfl, Option.getD_some, mem_append, mem_singleton, or_assoc]
          refine or_congr_right ⟨?_, ?_⟩
          · rintro (rfl | ⟨hmem, hc⟩)
            · exact ⟨.inl rfl, hparent⟩
            · exact ⟨.inr hmem, hc⟩
          · rintro ⟨rfl | hmem, hc⟩
            · exact .inl rfl
            · exact .inr ⟨hmem, hc⟩
        · rw [if_neg hid]
          refine or_congr_right (and_congr_left fun hc => ⟨.inr, ?_⟩)
          rintro (rfl | hmem)
          · exact absurd (Option.mem_unique hc hparent) hid
          · exact hmem
  unfold buildChildrenMap
  rw [hfold tasks .empty h]
  simp

/-- The candidates are found, once each. -/
theorem loadScopedCandidates_spec (hacyclic : store.ParentsAcyclic) (scopeId : Option String) :
    ∃ turns candidates, (∀ fuel, turns ≤ fuel →
      loadScopedCandidates localeCompare store fuel (store.list localeCompare) scopeId =
        some candidates) ∧
      (∀ t, t ∈ candidates ↔ Candidate store scopeId t) ∧ (candidates.map Task.id).Nodup := by
  have hall : (∀ scope, scopeId = some scope → scope = "") →
      ∀ t, t ∈ store.list localeCompare ↔ Candidate store scopeId t := by
    intro hnone t
    rw [mem_list]
    exact ⟨fun h => ⟨h, fun scope hscope hne => absurd (hnone scope hscope) hne⟩, fun h => h.1⟩
  unfold loadScopedCandidates
  cases scopeId with
  | none =>
    refine ⟨0, _, fun _ _ => rfl, hall fun scope hscope => ?_, nodup_list⟩
    cases hscope
  | some scope =>
    by_cases hscope : scope = ""
    · refine ⟨0, _, fun _ _ => if_pos hscope, hall ?_, nodup_list⟩
      intro _ heq
      cases heq
      exact hscope
    · obtain ⟨turns, below, hwalk, hbelow⟩ := @descendants_spec localeCompare store hacyclic scope
      have hin : ∀ id, InScope store (some scope) id ↔
          id = scope ∨ Hierarchy.Below store.parentOf id scope := by
        intro id
        refine ⟨fun h => h scope rfl hscope, fun h _ heq _ => ?_⟩
        cases heq
        exact h
      cases hget : store.get scope with
      | none =>
        refine ⟨turns, below, fun fuel hfuel => ?_, fun t => ?_, hbelow.nodup⟩
        · dsimp only; rw [if_neg hscope, hwalk fuel hfuel, hget]; rfl
        · rw [hbelow.mem, Candidate, hin]
          refine and_congr_right fun ht => ⟨.inr, fun h => h.resolve_left ?_⟩
          rintro rfl
          cases hget.symm.trans ht
      | some task =>
        have hid := get_id hget
        refine ⟨turns, task :: below, fun fuel hfuel => ?_, fun t => ?_, ?_⟩
        · dsimp only; rw [if_neg hscope, hwalk fuel hfuel, hget]; rfl
        · rw [mem_cons, hbelow.mem, Candidate, hin]
          constructor
          · rintro (rfl | ⟨ht, h⟩)
            · exact ⟨by rw [hid, hget], .inl hid⟩
            · exact ⟨ht, .inr h⟩
          · rintro ⟨ht, rfl | h⟩
            · exact .inl (Option.mem_unique ht hget)
            · exact .inr ⟨ht, h⟩
        · rw [map_cons, nodup_cons]
          refine ⟨fun hmem => ?_, hbelow.nodup⟩
          obtain ⟨t, ht, heq⟩ := mem_map.mp hmem
          have hloop := ((hbelow.mem t).mp ht).2
          rw [heq, hid] at hloop
          exact hacyclic scope hloop

theorem loadScopedTaskGraph_spec (hacyclic : store.ParentsAcyclic) (scopeId : Option String) :
    ∃ turns graph, (∀ fuel, turns ≤ fuel →
      loadScopedTaskGraph localeCompare store fuel scopeId = some graph) ∧
      Loaded store scopeId graph := by
  obtain ⟨turns, candidates, hload, hmem, hnodup⟩ :=
    @loadScopedCandidates_spec localeCompare store hacyclic scopeId
  refine ⟨turns, scopedGraph (store.list localeCompare) candidates, fun fuel hfuel => ?_, ?_⟩
  · unfold loadScopedTaskGraph
    dsimp only
    rw [hload fuel hfuel]
    rfl
  · refine ⟨hmem, hnodup, get?_buildTaskMap, fun id c => ?_, fun id => ?_, fun id => ?_⟩
    · have hparents : ∀ t ∈ store.list localeCompare, t.parentId ≠ some "" := fun t ht =>
        parent_ne (mem_list.mp ht)
      unfold scopedGraph
      rw [mem_buildChildrenMap hparents, mem_list]
    · unfold scopedGraph; rw [mem_map]; exact exists_congr fun t => and_congr_left fun _ => hmem t
    · unfold scopedGraph
      rw [mem_map]
      constructor
      · rintro ⟨t, ht, rfl⟩
        obtain ⟨hlist, hdone⟩ := mem_filter.mp ht
        exact ⟨t, mem_list.mp hlist, of_decide_eq_true hdone⟩
      · rintro ⟨t, hget, hdone⟩
        have hid := get_id hget
        refine ⟨t, mem_filter.mpr ⟨mem_list.mpr ?_, decide_eq_true hdone⟩, hid⟩
        rw [hid]
        exact hget

/-- The check in the loop is the rule. -/
theorem Loaded.executable {graph : TaskGraph} (h : Loaded store scopeId graph) (id : String)
    (completed : List String) :
    graph.isTaskExecutableInOrder id completed = true ↔
      (completionRule store scopeId).ready {b | b ∈ completed} id := by
  unfold TaskGraph.isTaskExecutableInOrder
  rw [h.taskMap]
  cases hget : store.get id with
  | none =>
    constructor
    · exact fun h => absurd h Bool.false_ne_true
    · rintro ⟨t, ht, -⟩; cases hget.symm.trans ht
  | some task =>
    have hid := get_id hget
    have hdeps : graph.areTaskDepsDone task completed = true ↔
        ∀ d ∈ task.deps, (store.get d).isSome = true ∧ d ∈ completed := by
      unfold TaskGraph.areTaskDepsDone
      rw [all_eq_true]
      refine forall₂_congr fun d _ => ?_
      rw [h.taskMap, Bool.and_eq_true_iff, decide_eq_true_iff]
    have hchildren : graph.areTaskChildrenDone task.id completed true = true ↔
        ∀ c, Candidate store scopeId c → c.parentId = some id → c.id ∈ completed := by
      unfold TaskGraph.areTaskChildrenDone
      rw [all_eq_true, hid]
      constructor
      · intro hall c hc hparent
        have hcheck := hall c ((h.children id c).mpr ⟨hc.1, hparent⟩)
        have hin : c.id ∈ graph.candidateIds := (h.candidateIds c.id).mpr ⟨c, hc, rfl⟩
        simpa [hin] using hcheck
      · intro hall c hc
        obtain ⟨hcget, hparent⟩ := (h.children id c).mp hc
        by_cases hin : c.id ∈ graph.candidateIds
        · obtain ⟨u, hu, huid⟩ := (h.candidateIds c.id).mp hin
          have hucget : store.get c.id = some u := huid ▸ hu.1
          obtain rfl := Option.mem_unique hcget hucget
          simp [hall c hu hparent]
        · simp [hin]
    rw [Bool.and_eq_true_iff, hdeps, hchildren]
    constructor
    · exact fun hboth => ⟨task, hget, hboth⟩
    · rintro ⟨t, ht, hboth⟩; obtain rfl := Option.mem_unique hget ht; exact hboth

/-! ## 4. Sorting -/

section

variable (h : LawfulCompare localeCompare)
include h

theorem sortByPriorityThenCreated_total (a b : Task) :
    sortByPriorityThenCreated localeCompare a b ≤ 0 ∨
      sortByPriorityThenCreated localeCompare b a ≤ 0 := by
  unfold sortByPriorityThenCreated
  have hcreated := h.total a.created b.created
  cases a.priority with
  | none =>
    cases b.priority with
    | none => exact hcreated
    | some q => exact .inr (by dsimp only; omega)
  | some p =>
    cases b.priority with
    | none => exact .inl (by dsimp only; omega)
    | some q =>
      by_cases hpq : p = q
      · subst hpq; simpa using hcreated
      · dsimp only; omega

theorem sortByPriorityThenCreated_trans {a b c : Task}
    (hab : sortByPriorityThenCreated localeCompare a b ≤ 0)
    (hbc : sortByPriorityThenCreated localeCompare b c ≤ 0) :
    sortByPriorityThenCreated localeCompare a c ≤ 0 := by
  unfold sortByPriorityThenCreated at hab hbc ⊢
  have hcreated := h.trans a.created b.created c.created
  generalize a.priority = p at hab ⊢
  generalize b.priority = q at hab hbc
  generalize c.priority = r at hbc ⊢
  rcases p with _ | p <;> rcases q with _ | q <;> rcases r with _ | r
  all_goals dsimp only at hab hbc ⊢
  · exact hcreated hab hbc
  · omega
  · omega
  · omega
  · omega
  · omega
  · omega
  · split at hab
    · split at hbc
      · split <;> omega
      · split <;> omega
    · split at hbc
      · split <;> omega
      · rw [if_neg (by omega)]; exact hcreated hab hbc

/-- The first of the sorted tasks is one of them, and none of them goes before it. -/
theorem sortBy_head {tasks rest : List Task} {next : Task}
    (hsort : sortBy (sortByPriorityThenCreated localeCompare) tasks = next :: rest) :
    next ∈ tasks ∧ ∀ u ∈ tasks, sortByPriorityThenCreated localeCompare next u ≤ 0 := by
  have hmem : ∀ u, u ∈ next :: rest ↔ u ∈ tasks := by intro u; rw [← hsort]; exact mem_mergeSort
  have hsorted : (next :: rest).Pairwise fun a b =>
      decide (sortByPriorityThenCreated localeCompare a b ≤ 0) = true := by
    rw [← hsort]
    refine pairwise_mergeSort (fun a b c hab hbc => ?_) (fun a b => ?_) _
    · exact decide_eq_true (sortByPriorityThenCreated_trans h (of_decide_eq_true hab)
        (of_decide_eq_true hbc))
    · rw [Bool.or_eq_true_iff, decide_eq_true_iff, decide_eq_true_iff]
      exact sortByPriorityThenCreated_total h a b
  refine ⟨(hmem next).mp mem_cons_self, fun u hu => ?_⟩
  rcases mem_cons.mp ((hmem u).mpr hu) with rfl | hu
  · rcases sortByPriorityThenCreated_total h u u with hle | hle <;> exact hle
  · exact of_decide_eq_true ((pairwise_cons.mp hsorted).1 u hu)

end

/-! ## 5. The loop -/

/-- The task is one that remains and could be done after some others, and none that remains and
    could be done then goes before it. -/
structure Chosen (localeCompare : String → String → Int) (store : TaskFiles)
    (scopeId : Option String) (before : List Task) (t : Task) : Prop where
  candidate : Candidate store scopeId t
  pending : isPending t = true
  fresh : t ∉ before
  ready : (completionRule store scopeId).ready
    (doneIds store ∪ {id | id ∈ before.map Task.id}) t.id
  minimum : ∀ u, Candidate store scopeId u → isPending u = true → u ∉ before →
    (completionRule store scopeId).ready (doneIds store ∪ {id | id ∈ before.map Task.id}) u.id →
    sortByPriorityThenCreated localeCompare t u ≤ 0

/-- The loop after some turns: what it has placed, in order, and what remains. -/
structure LoopInv (localeCompare : String → String → Int) (store : TaskFiles)
    (scopeId : Option String) (done pending : List Task) (s : Simulation) : Prop where
  timeline : s.timeline = done ++ pending
  orderIdx : s.orderIdx = s.timeline.length
  orderMap : ∀ id i, s.orderMap.get? id = some i ↔ ∃ t, s.timeline[i]? = some t ∧ t.id = id
  simDone : ∀ id, id ∈ s.simDone ↔ id ∈ doneIds store ∪ {id | id ∈ pending.map Task.id}
  remaining : ∀ id, s.remaining.has id = true ↔
    (completionRule store scopeId).item id ∧ id ∉ pending.map Task.id
  chosen : ∀ (k : Nat) t, pending[k]? = some t →
    Chosen localeCompare store scopeId (pending.take k) t

variable {t : Task}

theorem pushed_orderMap {s : Simulation} (hidx : s.orderIdx = s.timeline.length)
    (hmap : ∀ id i, s.orderMap.get? id = some i ↔ ∃ t, s.timeline[i]? = some t ∧ t.id = id)
    (hfresh : ∀ u ∈ s.timeline, u.id ≠ t.id) (id : String) (i : Nat) :
    (s.push t).orderMap.get? id = some i ↔
      ∃ u, (s.push t).timeline[i]? = some u ∧ u.id = id := by
  unfold Simulation.push
  rw [get?_set]
  by_cases hid : id = t.id
  · subst hid
    rw [if_pos rfl, hidx]
    constructor
    · intro h; obtain rfl := Option.some.inj h; exact ⟨t, getElem?_concat_length, rfl⟩
    · rintro ⟨u, hu, huid⟩
      rcases Nat.lt_trichotomy i s.timeline.length with hlt | rfl | hgt
      · rw [getElem?_append_left hlt] at hu; exact absurd huid (hfresh u (mem_of_getElem? hu))
      · rfl
      · rw [getElem?_eq_none (by simp; omega)] at hu; cases hu
  · rw [if_neg hid, hmap]
    refine exists_congr fun u => and_congr_left fun huid => ?_
    rcases Nat.lt_or_ge i s.timeline.length with hlt | hge
    · rw [getElem?_append_left hlt]
    · rw [getElem?_append_right hge, getElem?_eq_none hge]
      refine ⟨fun hu => absurd hu (by simp), fun hu => ?_⟩
      obtain rfl := mem_singleton.mp (mem_of_getElem? hu)
      exact absurd huid.symm hid

theorem Candidate.eq {u : Task} (ht : Candidate store scopeId t) (hu : Candidate store scopeId u)
    (h : t.id = u.id) : t = u := by
  have hget := ht.1
  rw [h] at hget
  exact Option.mem_unique hget hu.1

theorem candidate_of_item {id : String} (h : (completionRule store scopeId).item id)
    (hget : store.get id = some t) : Candidate store scopeId t ∧ isPending t = true := by
  obtain ⟨u, rfl, hu, hpending⟩ := h
  obtain rfl := Option.mem_unique hget hu.1
  exact ⟨hu, hpending⟩

namespace LoopInv

variable {done pending : List Task} {s : Simulation}

section

variable (h : LoopInv localeCompare store scopeId done pending s)
include h

theorem candidates {t : Task}
    (ht : t ∈ pending) : Candidate store scopeId t ∧ isPending t = true := by
  obtain ⟨k, hk⟩ := mem_iff_getElem?.mp ht
  exact ⟨(h.chosen k t hk).candidate, (h.chosen k t hk).pending⟩

theorem mem_ids {t : Task}
    (ht : Candidate store scopeId t) : t.id ∈ pending.map Task.id ↔ t ∈ pending := by
  refine ⟨fun hmem => ?_, fun hmem => mem_map_of_mem hmem⟩
  obtain ⟨u, hu, hid⟩ := mem_map.mp hmem
  exact ht.eq (h.candidates hu).1 hid.symm ▸ hu

end

variable {graph : TaskGraph}

/-- What could be done now is what remains and is ready. -/
theorem mem_ready (hgraph : Loaded store scopeId graph)
    (h : LoopInv localeCompare store scopeId done pending s) (t : Task) :
    t ∈ (graph.getTasksById s.remaining.keys).filter (fun task =>
        graph.isTaskExecutableInOrder task.id s.simDone) ↔
      (Candidate store scopeId t ∧ isPending t = true ∧ t ∉ pending) ∧
        (completionRule store scopeId).ready
          (doneIds store ∪ {id | id ∈ pending.map Task.id}) t.id := by
  have hdone : {b | b ∈ s.simDone} = doneIds store ∪ {id | id ∈ pending.map Task.id} :=
    Set.ext h.simDone
  have htasks : t ∈ graph.getTasksById s.remaining.keys ↔
      Candidate store scopeId t ∧ isPending t = true ∧ t ∉ pending := by
    unfold TaskGraph.getTasksById
    rw [mem_filterMap]
    constructor
    · rintro ⟨id, hid, hget⟩
      rw [hgraph.taskMap] at hget
      obtain rfl := get_id hget
      obtain ⟨hitem, hnot⟩ :=
        (h.remaining t.id).mp (has_iff.mpr (mem_keys_iff.mp hid))
      obtain ⟨hcandidate, hpending⟩ := candidate_of_item hitem hget
      exact ⟨hcandidate, hpending, fun hmem => hnot ((h.mem_ids hcandidate).mpr hmem)⟩
    · rintro ⟨hcandidate, hpending, hnot⟩
      refine ⟨t.id, mem_keys_iff.mpr (has_iff.mp ((h.remaining t.id).mpr ?_)), ?_⟩
      · exact ⟨⟨t, rfl, hcandidate, hpending⟩, fun hmem => hnot ((h.mem_ids hcandidate).mp hmem)⟩
      · rw [hgraph.taskMap]; exact hcandidate.1
  rw [mem_filter, htasks, hgraph.executable, hdone]

section

variable (hcompare : LawfulCompare localeCompare) (hgraph : Loaded store scopeId graph)
  (hdone : ∀ t ∈ done, isPending t = false) (hstored : ∀ t ∈ done, Candidate store scopeId t)
  (h : LoopInv localeCompare store scopeId done pending s)
include hcompare hgraph hdone hstored h

/-- A turn places a task that may be chosen. -/
theorem complete {next : Task} {rest : List Task}
    (hready : s.readyNow localeCompare graph = next :: rest) :
    LoopInv localeCompare store scopeId done (pending ++ [next]) (s.complete next) ∧
      s.remaining.has next.id = true := by
  obtain ⟨hnext, hfirst⟩ := sortBy_head hcompare hready
  obtain ⟨⟨hcandidate, hpending, hnot⟩, hrule⟩ := (h.mem_ready hgraph next).mp hnext
  have hids : next.id ∉ pending.map Task.id := fun hmem =>
    hnot ((h.mem_ids hcandidate).mp hmem)
  have hfresh : ∀ u ∈ s.timeline, u.id ≠ next.id := by
    intro u hu hid
    rw [h.timeline, mem_append] at hu
    rcases hu with hu | hu
    · have heq := (hstored u hu).eq hcandidate hid
      rw [heq] at hu
      rw [hdone next hu] at hpending
      cases hpending
    · exact hids (hid ▸ mem_map_of_mem hu)
  have hitem : (completionRule store scopeId).item next.id := ⟨next, rfl, hcandidate, hpending⟩
  refine ⟨⟨?_, ?_, ?_, fun id => ?_, fun id => ?_, fun k t hk => ?_⟩,
    (h.remaining next.id).mpr ⟨hitem, hids⟩⟩
  · show s.timeline ++ [next] = _; rw [h.timeline, append_assoc]
  · show s.orderIdx + 1 = (s.timeline ++ [next]).length
    rw [h.orderIdx, length_append, length_singleton]
  · exact pushed_orderMap h.orderIdx h.orderMap hfresh
  · show id ∈ s.simDone ++ [next.id] ↔ _; rw [mem_append, h.simDone, map_append]; simp [or_assoc]
  · show (s.remaining.delete next.id).has id = true ↔ _
    rw [has_delete, Bool.and_eq_true_iff, h.remaining, map_append, mem_append]
    simp only [Bool.not_eq_true', decide_eq_false_iff_not, map_cons, map_nil, mem_singleton, not_or]
    exact ⟨fun ⟨hne, hitem, hmem⟩ => ⟨hitem, hmem, hne⟩,
      fun ⟨hitem, hmem, hne⟩ => ⟨hne, hitem, hmem⟩⟩
  · rcases Nat.lt_or_ge k pending.length with hlt | hge
    · rw [getElem?_append_left hlt] at hk
      rw [take_append_of_le_length (by omega)]
      exact h.chosen k t hk
    · rw [List.getElem?_append_right hge] at hk
      have hzero : k - pending.length = 0 := by
        have hlen := (List.getElem?_eq_some_iff.mp hk).1
        rw [length_singleton] at hlen
        omega
      obtain rfl := mem_singleton.mp (mem_of_getElem? hk)
      obtain rfl : k = pending.length := by omega
      rw [take_left]
      refine ⟨hcandidate, hpending, hnot, hrule, fun u hu hupending hunot huready => ?_⟩
      exact hfirst u ((h.mem_ready hgraph u).mpr ⟨⟨hu, hupending, hunot⟩, huready⟩)

/-- **The loop ends where nothing that remains could be done.** -/
theorem run :
    ∃ s' pending', (∀ turns, s.remaining.size < turns →
        s.run localeCompare graph turns = some s') ∧
      LoopInv localeCompare store scopeId done pending' s' ∧
      s'.readyNow localeCompare graph = [] := by
  induction hsize : s.remaining.size using Nat.strong_induction_on generalizing s pending with
  | _ size ih =>
    subst hsize
    cases hready : s.readyNow localeCompare graph with
    | nil =>
      refine ⟨s, pending, fun turns hturns => ?_, h, hready⟩
      obtain ⟨turns, rfl⟩ : ∃ n, turns = n + 1 := ⟨turns - 1, by omega⟩
      unfold Simulation.run
      rw [hready]
      split <;> rfl
    | cons next rest =>
      obtain ⟨hnext, hhas⟩ := h.complete hcompare hgraph hdone hstored hready
      obtain ⟨u, hu⟩ := has_iff.mp hhas
      have hlt : (s.complete next).remaining.size < s.remaining.size := size_delete_lt hu
      obtain ⟨s', pending', hrun, hinv, hstop⟩ := ih _ hlt hnext rfl
      refine ⟨s', pending', fun turns hturns => ?_, hinv, hstop⟩
      obtain ⟨turns, rfl⟩ : ∃ n, turns = n + 1 := ⟨turns - 1, by omega⟩
      unfold Simulation.run
      rw [if_neg (by omega), hready]
      exact hrun turns (by omega)

end

/-- What the loop has placed is an order of completing. -/
theorem order (h : LoopInv localeCompare store scopeId done pending s) (k : Nat) :
    Order (completionRule store scopeId) (doneIds store) ((pending.take k).map Task.id).reverse := by
  induction k with
  | zero => exact .nil
  | succ k ih =>
    rw [take_add_one]
    cases hk : pending[k]? with
    | none => rw [Option.toList_none, append_nil]; exact ih
    | some t =>
      have hchosen := h.chosen k t hk
      have hset : {id | id ∈ ((pending.take k).map Task.id).reverse} =
          {id | id ∈ (pending.take k).map Task.id} := Set.ext fun id => mem_reverse
      rw [Option.toList_some, map_append, reverse_append]
      show Order _ _ (t.id :: ((pending.take k).map Task.id).reverse)
      refine .cons ⟨t, rfl, hchosen.candidate, hchosen.pending⟩ ?_ ih
      rw [hset]
      exact hchosen.ready

theorem stuck (hgraph : Loaded store scopeId graph)
    (h : LoopInv localeCompare store scopeId done pending s)
    (hready : s.readyNow localeCompare graph = []) : Stuck (completionRule store scopeId)
      (doneIds store ∪ {id | id ∈ pending.map Task.id}) := by
  rintro id ⟨t, rfl, hcandidate, hpending⟩ hrule
  by_contra hnot
  have hmem : t ∉ pending := fun hmem => hnot (.inr (mem_map_of_mem hmem))
  have hin : t ∈ s.readyNow localeCompare graph :=
    mem_mergeSort.mpr ((h.mem_ready hgraph t).mpr ⟨⟨hcandidate, hpending, hmem⟩, hrule⟩)
  rw [hready] at hin
  exact not_mem_nil hin

end LoopInv

/-! ## 6. The order that is computed -/

theorem not_pending_of_done (h : t.status = .done) : isPending t = false := by
  unfold isPending
  rw [h]
  rfl

/-- What pushing some tasks in turn comes to. -/
theorem foldl_push {ts : List Task} {s : Simulation} (hidx : s.orderIdx = s.timeline.length)
    (hmap : ∀ id i, s.orderMap.get? id = some i ↔ ∃ t, s.timeline[i]? = some t ∧ t.id = id)
    (hnodup : ((s.timeline ++ ts).map Task.id).Nodup) :
    let s' := ts.foldl Simulation.push s
    s'.timeline = s.timeline ++ ts ∧ s'.orderIdx = s'.timeline.length ∧
      (∀ id i, s'.orderMap.get? id = some i ↔ ∃ t, s'.timeline[i]? = some t ∧ t.id = id) ∧
      s'.simDone = s.simDone ∧ s'.remaining = s.remaining := by
  induction ts generalizing s with
  | nil => exact ⟨(append_nil _).symm, hidx, hmap, rfl, rfl⟩
  | cons t ts ih =>
    have hsplit : s.timeline ++ t :: ts = (s.push t).timeline ++ ts := by
      show _ = s.timeline ++ [t] ++ ts
      rw [append_assoc]
      rfl
    have hfresh : ∀ u ∈ s.timeline, u.id ≠ t.id := by
      intro u hu hid
      rw [map_append, nodup_append] at hnodup
      exact hnodup.2.2 u.id (mem_map_of_mem hu) t.id (mem_map_of_mem mem_cons_self) hid
    have hpushed : (s.push t).orderIdx = (s.push t).timeline.length := by
      show s.orderIdx + 1 = (s.timeline ++ [t]).length
      rw [hidx, length_append, length_singleton]
    rw [hsplit] at hnodup ⊢
    exact ih hpushed (pushed_orderMap hidx hmap hfresh) hnodup

/-- The start of the loop, with the done candidates in place. -/
theorem startSimulation_inv {graph : TaskGraph} (hgraph : Loaded store scopeId graph) :
    ∃ done, (∀ t, t ∈ done ↔ Candidate store scopeId t ∧ t.status = .done) ∧
      (done.map Task.id).Nodup ∧
      LoopInv localeCompare store scopeId done [] (startSimulation localeCompare graph) := by
  have hmem : ∀ t, t ∈ sortBy (fun a b => localeCompare a.created b.created)
      (graph.candidates.filter fun t => t.status = .done) ↔
        Candidate store scopeId t ∧ t.status = .done := by
    intro t
    unfold sortBy
    rw [mem_mergeSort, mem_filter, hgraph.candidates, decide_eq_true_iff]
  have hnodup : ((sortBy (fun a b => localeCompare a.created b.created)
      (graph.candidates.filter fun t => t.status = .done)).map Task.id).Nodup :=
    ((mergeSort_perm _ _).map Task.id).nodup_iff.mpr
      (hgraph.nodup.sublist (filter_sublist.map Task.id))
  refine ⟨_, hmem, hnodup, ?_⟩
  unfold startSimulation
  generalize sortBy (fun a b => localeCompare a.created b.created)
    (graph.candidates.filter fun t => t.status = .done) = done at hnodup
  obtain ⟨htimeline, hidx, hmap, hdone, hremaining⟩ := @foldl_push done
    ⟨graph.doneTaskIds, .ofList ((graph.candidates.filter isPending).map fun t => (t.id, ())), [],
      .empty, 0⟩ rfl (fun id i => by simp) hnodup
  refine ⟨htimeline.trans (append_nil _).symm, hidx, hmap, fun id => ?_, fun id => ?_,
    fun k t hk => by cases hk⟩
  · rw [hdone, hgraph.doneTaskIds]; simp
  · rw [hremaining, has_ofList, any_map, any_eq_true]
    constructor
    · rintro ⟨t, ht, hid⟩
      obtain ⟨hcandidate, hpending⟩ := mem_filter.mp ht
      exact ⟨⟨t, of_decide_eq_true hid, (hgraph.candidates t).mp hcandidate, hpending⟩, not_mem_nil⟩
    · rintro ⟨⟨t, hid, hcandidate, hpending⟩, -⟩
      exact ⟨t, mem_filter.mpr ⟨(hgraph.candidates t).mpr hcandidate, hpending⟩, decide_eq_true hid⟩

section Result

variable {done pending : List Task} {s : Simulation}

/-- A pending task stands in the second part of the timeline. -/
theorem LoopInv.position (h : LoopInv localeCompare store scopeId done pending s)
    (hdone : ∀ t, t ∈ done ↔ Candidate store scopeId t ∧ t.status = .done) {i : Nat} {t : Task}
    (hi : s.timeline[i]? = some t) (hpending : isPending t = true) :
    ∃ k, pending[k]? = some t ∧ s.timeline.take i = done ++ pending.take k := by
  rw [h.timeline] at hi ⊢
  rcases Nat.lt_or_ge i done.length with hlt | hge
  · rw [getElem?_append_left hlt] at hi
    have hstatus := ((hdone t).mp (mem_of_getElem? hi)).2
    rw [not_pending_of_done hstatus] at hpending
    cases hpending
  · rw [getElem?_append_right hge] at hi
    refine ⟨i - done.length, hi, ?_⟩
    rw [take_append, take_of_length_le hge]

theorem doneBefore_eq (hdone : ∀ t, t ∈ done ↔ Candidate store scopeId t ∧ t.status = .done)
    {timeline : List Task} {i k : Nat} (h : timeline.take i = done ++ pending.take k) :
    doneBefore store timeline i =
      doneIds store ∪ {id | id ∈ (pending.take k).map Task.id} := by
  unfold doneBefore
  rw [h]
  ext id
  rw [map_append]
  constructor
  · rintro (hid | hid)
    · exact .inl hid
    · rcases mem_append.mp hid with hid | hid
      · obtain ⟨t, ht, rfl⟩ := mem_map.mp hid
        obtain ⟨hcandidate, hstatus⟩ := (hdone t).mp ht
        exact .inl ⟨t, hcandidate.1, hstatus⟩
      · exact .inr hid
  · rintro (hid | hid)
    · exact .inl hid
    · exact .inr (mem_append_right _ hid)

/-- The result of a loop that has ended. -/
theorem LoopInv.isExecutionOrder {graph : TaskGraph} (hgraph : Loaded store scopeId graph)
    (h : LoopInv localeCompare store scopeId done pending s)
    (hdone : ∀ t, t ∈ done ↔ Candidate store scopeId t ∧ t.status = .done)
    (hnodup : (done.map Task.id).Nodup) (hready : s.readyNow localeCompare graph = []) :
    IsExecutionOrder localeCompare store scopeId ⟨s.timeline, s.orderMap, s.remaining⟩ := by
  have hstuck := h.stuck hgraph hready
  have hremaining : ∀ t, Candidate store scopeId t → isPending t = true →
      (s.remaining.has t.id = true ↔ t ∉ pending) := by
    intro t ht hpending
    rw [h.remaining, h.mem_ids ht]
    exact ⟨fun hboth => hboth.2, fun hnot => ⟨⟨t, rfl, ht, hpending⟩, hnot⟩⟩
  have htimeline : ∀ t, isPending t = true → (t ∈ s.timeline ↔ t ∈ pending) := by
    intro t hpending
    rw [h.timeline, mem_append]
    refine ⟨fun hmem => hmem.resolve_left fun hd => ?_, .inr⟩
    rw [not_pending_of_done ((hdone t).mp hd).2] at hpending
    cases hpending
  have hmember : ∀ t ∈ s.timeline,
      Candidate store scopeId t ∧ (t.status = .done ∨ isPending t = true) := by
    intro t ht
    rw [h.timeline] at ht
    rcases mem_append.mp ht with hd | hp
    · exact ⟨((hdone t).mp hd).1, .inl ((hdone t).mp hd).2⟩
    · exact ⟨(h.candidates hp).1, .inr (h.candidates hp).2⟩
  -- an id that is done or placed before belongs to a task that is
  have hearlier : ∀ {i k : Nat} {id : String} {u : Task},
      s.timeline.take i = done ++ pending.take k → store.get id = some u →
      id ∈ doneIds store ∪ {id | id ∈ (pending.take k).map Task.id} →
      u.status = .done ∨ u ∈ s.timeline.take i := by
    rintro i k id u htake hget (⟨v, hv, hstatus⟩ | hmem)
    · obtain rfl := Option.mem_unique hget hv; exact .inl hstatus
    · obtain ⟨v, hv, rfl⟩ := mem_map.mp hmem
      have hvget := (h.candidates (mem_of_mem_take hv)).1.1
      obtain rfl := Option.mem_unique hget hvget
      rw [htake]
      exact .inr (mem_append_right _ hv)
  refine ⟨fun t ht hstatus => ?_, fun t ht hpending => ?_, hmember, ?_, h.orderMap,
    fun i t hi hpending => ?_, fun i t u hi hpending hu hupending hnot hrule => ?_, fun id => ?_⟩
  · rw [h.timeline]; exact mem_append_left _ ((hdone t).mpr ⟨ht, hstatus⟩)
  · by_cases hmem : t ∈ pending
    · refine .inl ⟨(htimeline t hpending).mpr hmem, ?_⟩
      exact Bool.eq_false_iff.mpr fun hhas => (hremaining t ht hpending).mp hhas hmem
    · exact .inr ⟨mt (htimeline t hpending).mp hmem, (hremaining t ht hpending).mpr hmem⟩
  · have hpendingNodup : pending.Nodup := by
      rw [nodup_iff_getElem?_ne_getElem?]
      intro i j hij hj heq
      have hchosen := h.chosen j _ (getElem?_eq_getElem hj)
      refine hchosen.fresh (mem_of_getElem? (i := i) ?_)
      rw [getElem?_take_of_lt hij, heq, getElem?_eq_getElem hj]
    rw [h.timeline, nodup_append]
    refine ⟨hnodup.of_map, hpendingNodup, fun t ht u hu heq => ?_⟩
    subst heq
    have hpending := (h.candidates hu).2
    rw [not_pending_of_done ((hdone t).mp ht).2] at hpending
    cases hpending
  · obtain ⟨k, hk, htake⟩ := h.position hdone hi hpending
    have hchosen := h.chosen k t hk
    obtain ⟨t', hget, hdeps, hchildren⟩ := hchosen.ready
    obtain rfl := Option.mem_unique hchosen.candidate.1 hget
    refine ⟨fun d hd => ?_, fun c hc hparent => hearlier htake hc.1 (hchildren c hc hparent)⟩
    obtain ⟨hsome, hmem⟩ := hdeps d hd
    obtain ⟨u, hu⟩ := Option.isSome_iff_exists.mp hsome
    exact ⟨u, hu, hearlier htake hu hmem⟩
  · obtain ⟨k, hk, htake⟩ := h.position hdone hi hpending
    rw [doneBefore_eq hdone htake] at hrule
    rw [htake] at hnot
    exact (h.chosen k t hk).minimum u hu hupending
      (fun hmem => hnot (mem_append_right _ hmem)) hrule
  · rw [h.remaining]
    refine and_congr_right fun hitem => ⟨fun hnot order horder => ?_, fun hall hmem => ?_⟩
    · refine horder.not_ready Set.subset_union_left hstuck hitem ?_
      rintro (⟨t, hget, hstatus⟩ | hmem)
      · have hpending := (candidate_of_item hitem hget).2
        rw [not_pending_of_done hstatus] at hpending
        cases hpending
      · exact hnot hmem
    · obtain ⟨t, ht, rfl⟩ := mem_map.mp hmem
      obtain ⟨k, hk⟩ := mem_iff_getElem?.mp ht
      refine hall _ (h.order k) ?_
      have hset : {id | id ∈ ((pending.take k).map Task.id).reverse} =
          {id | id ∈ (pending.take k).map Task.id} := Set.ext fun id => mem_reverse
      rw [hset]
      exact (h.chosen k t hk).ready

end Result

/-- **Where parents never come back, the computation ends with an execution order.** -/
theorem computeExecutionOrder_spec (hcompare : LawfulCompare localeCompare)
    (hacyclic : store.ParentsAcyclic) (scopeId : Option String) :
    ∃ turns result, (∀ fuel, turns ≤ fuel →
      computeExecutionOrder localeCompare store fuel scopeId = some result) ∧
      IsExecutionOrder localeCompare store scopeId result := by
  obtain ⟨turns, graph, hload, hgraph⟩ :=
    @loadScopedTaskGraph_spec localeCompare store hacyclic scopeId
  obtain ⟨done, hdone, hnodup, hstart⟩ := @startSimulation_inv localeCompare _ _ _ hgraph
  obtain ⟨s, pending, hrun, hinv, hready⟩ := hstart.run hcompare hgraph
    (fun t ht => not_pending_of_done ((hdone t).mp ht).2) (fun t ht => ((hdone t).mp ht).1)
  refine ⟨turns + (startSimulation localeCompare graph).remaining.size + 1, _,
    fun fuel hfuel => ?_, hinv.isExecutionOrder hgraph hdone hnodup hready⟩
  unfold computeExecutionOrder
  rw [hload fuel (by omega)]
  show (do
    let s ← (startSimulation localeCompare graph).run localeCompare graph fuel
    return ExecutionOrderResult.mk s.timeline s.orderMap s.remaining) = _
  rw [hrun fuel (by omega)]
  rfl

/-- How `localeCompare` orders times as `toISOString` writes them in one century. -/
def compareIso (a b : String) : Int := if a = b then 0 else if a < b then -1 else 1

theorem compareIso_lawful : LawfulCompare compareIso := by
  have hle : ∀ a b, compareIso a b ≤ 0 ↔ a ≤ b := by
    intro a b
    unfold compareIso
    rcases lt_trichotomy a b with hlt | rfl | hgt
    · simp [hlt.ne, hlt, hlt.le]
    · simp
    · simp [hgt.ne', hgt.not_gt, hgt.not_ge]
  refine ⟨fun a b => ?_, fun a b c hab hbc => ?_⟩
  · rw [hle, hle]; exact le_total a b
  · rw [hle] at hab hbc ⊢; exact hab.trans hbc

def epic : Task :=
  ⟨"0e", "Epic", .open, ["ab"], none, "", [], [], "2026-01-01T00:00:00.000Z", none, none⟩

def subtask : Task :=
  ⟨"5b", "Subtask", .inProgress, [], some "0e", "", [], [], "2026-01-02T00:00:00.000Z", none,
    some 1⟩

def epicStore : TaskFiles where
  files := ⟨[("0e", epic), ("5b", subtask)], by decide⟩
  named := by
    intro id task h
    rcases mem_cons.mp (get?_eq_some_iff.mp h) with heq | h
    · obtain ⟨rfl, rfl⟩ := Prod.mk.inj heq; rfl
    · obtain ⟨rfl, rfl⟩ := Prod.mk.inj (mem_singleton.mp h); rfl
  parents := by
    intro id task h
    rcases mem_cons.mp (get?_eq_some_iff.mp h) with heq | h
    · obtain ⟨rfl, rfl⟩ := Prod.mk.inj heq; decide
    · obtain ⟨rfl, rfl⟩ := Prod.mk.inj (mem_singleton.mp h); decide

theorem epicStore_acyclic : epicStore.ParentsAcyclic := by
  refine Hierarchy.acyclic_of_rank (fun id => if id = "5b" then 1 else 0) fun id p h => ?_
  obtain ⟨task, hget, hparent⟩ := parentOf_eq.mp h
  rcases mem_cons.mp (get?_eq_some_iff.mp hget) with heq | hmem
  · obtain ⟨-, rfl⟩ := Prod.mk.inj heq; cases hparent
  · obtain ⟨rfl, rfl⟩ := Prod.mk.inj (mem_singleton.mp hmem)
    obtain rfl := Option.some.inj hparent
    decide

/-- A subtask, and an epic that waits for a task which is gone. -/
theorem epic_computeExecutionOrder :
    ∃ turns result, (∀ fuel, turns ≤ fuel →
      computeExecutionOrder compareIso epicStore fuel (some "0e") = some result) ∧
      IsExecutionOrder compareIso epicStore (some "0e") result :=
  computeExecutionOrder_spec compareIso_lawful epicStore_acyclic (some "0e")

end Frogg.Tasks
