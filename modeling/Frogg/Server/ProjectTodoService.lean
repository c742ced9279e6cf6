/-
  Subject:   The to-dos of all projects under the locks of the service
             (mutate, delete, releaseAgentInProject and withLock of project-todos/service.ts).

  The index of a root is read, changed and written under the lock of the root. A call may fail
  wherever it touches a file. **`projectTodos_consistent`** says what holds of every index in every
  run: some of it always, some as long as no operation undoes it (`keepsParallel`, `keepsBound`,
  `keepsClaimed`).
-/
import Frogg.Library.LockedStore
import Frogg.Server.ProjectTodoClaims

namespace Frogg.Server

open Library List

/-! ## 1. The service -/

/-- What a call writes: nothing where it throws or finds nothing to change. -/
def projectTodoPlan (op : ProjectTodoOperation) (env : ProjectTodoEnv) (index : ProjectTodoIndex) :
    Option ProjectTodoIndex :=
  match op.apply env index with
  | .ok next => next
  | .error _ => none

abbrev ProjectTodoService (Root : Type) :=
  LockedStore Root ProjectTodoIndex ProjectTodoEnv ProjectTodoOperation

/-- The service over empty indexes, in the runs in which every operation is `allowed` on every item
    of the index it has read. -/
def projectTodoSystem (Root : Type) [DecidableEq Root]
    (allowed : ProjectTodoOperation → TodoShape → Bool) :
    TransitionSystem (ProjectTodoService Root) :=
  LockedStore.system (fun _ => ⟨[]⟩) projectTodoPlan
    fun op _ index => ∀ item ∈ index.items, allowed op item.shape = true

theorem indexChange_of_plan {op : ProjectTodoOperation} {env : ProjectTodoEnv}
    {index next : ProjectTodoIndex} (h : projectTodoPlan op env index = some next) :
    IndexChange env.isAgentRunning op index next := by
  unfold projectTodoPlan at h
  split at h
  · rename_i written happly; rw [h] at happly; exact indexChange_of_apply happly
  · cases h

/-! ## 2. Invariants of an index -/

variable {allowed : ProjectTodoOperation → TodoShape → Bool}

section Invariants

variable {running : String → Bool} {op : ProjectTodoOperation} {index index' : ProjectTodoIndex}

theorem exists_before {R : ProjectTodoItem → ProjectTodoItem → Prop}
    {items items' : List ProjectTodoItem} (h : List.Forall₂ R items items')
    {item' : ProjectTodoItem} (hitem' : item' ∈ items') : ∃ item ∈ items, R item item' := by
  induction h with
  | nil => cases hitem'
  | cons hchange _ ih =>
    rcases mem_cons.mp hitem' with rfl | hrest
    · exact ⟨_, mem_cons_self, hchange⟩
    · obtain ⟨item, hitem, hR⟩ := ih hrest; exact ⟨item, mem_cons_of_mem _ hitem, hR⟩

/-- What every change of an item keeps, every change of an index keeps of all items. -/
theorem IndexChange.forall_items {P : TodoShape → Prop} (h : IndexChange running op index index')
    (hcreated : ∀ shape : TodoShape, shape.agents = [] → shape.status.claimBound = false → P shape)
    (hchanged : ∀ shape shape', P shape → allowed op shape = true →
      ItemChange running op shape shape' → P shape')
    (hallowed : ∀ item ∈ index.items, allowed op item.shape = true)
    (hall : ∀ item ∈ index.items, P item.shape) : ∀ item ∈ index'.items, P item.shape := by
  intro item hitem
  cases h with
  | @created new hid hclaims hstatus =>
    rcases mem_append.mp hitem with hold | hnew
    · exact hall item hold
    · rw [mem_singleton.mp hnew]
      exact hcreated new.shape (by rw [ProjectTodoItem.shape, hclaims, map_nil]) hstatus
  | changed hitems =>
    obtain ⟨before, hbefore, hchange⟩ := exists_before hitems hitem
    exact hchanged _ _ (hall before hbefore) (hallowed before hbefore) hchange
  | deleted => exact hall item (mem_filter.mp hitem).1

theorem IndexChange.ids_nodup (h : IndexChange running op index index')
    (hnodup : (index.items.map (·.id)).Nodup) : (index'.items.map (·.id)).Nodup := by
  cases h with
  | @created new hid =>
    rw [map_append, map_singleton]
    refine nodup_append.mpr ⟨hnodup, nodup_singleton _, ?_⟩
    intro id hmem id' hmem' heq
    obtain ⟨other, hother, rfl⟩ := mem_map.mp hmem
    exact hid other hother (heq.trans (mem_singleton.mp hmem'))
  | @changed items hitems =>
    have hids : List.Forall₂ (· = ·) (index.items.map (·.id)) (items.map (·.id)) := by
      rw [forall₂_map_left_iff, forall₂_map_right_iff]
      exact hitems.imp fun item item' hchange => hchange.id_eq.symm
    rw [forall₂_eq_eq_eq] at hids
    rw [← hids]
    exact hnodup
  | deleted => exact hnodup.sublist (filter_sublist.map _)

/-- A running agent's claim is on the item still, unless the operation removes it. -/
theorem IndexChange.kept_agent (h : IndexChange running op index index') {item : ProjectTodoItem}
    (hitem : item ∈ index.items) {agent : String} (hagent : agent ∈ item.shape.agents)
    (hrunning : running agent = true) :
    op.removes item.id agent = true ∨
      ∃ item' ∈ index'.items, item'.id = item.id ∧ agent ∈ item'.shape.agents := by
  cases h with
  | created => exact .inr ⟨item, mem_append_left _ hitem, rfl, hagent⟩
  | changed hitems =>
    obtain ⟨item', hitem', hchange⟩ := exists_before hitems.flip hitem
    rcases hchange.kept_agent hagent hrunning with hremoves | hkept
    · exact .inl hremoves
    · exact .inr ⟨item', hitem', hchange.id_eq, hkept⟩
  | @deleted todoId hremoves =>
    by_cases hid : item.id = todoId
    · exact .inl (hid ▸ hremoves agent)
    · exact .inr ⟨item, mem_filter.mpr ⟨hitem, decide_eq_true hid⟩, rfl, hagent⟩

end Invariants

/-! ## 3. Every run -/

section Runs

variable {Root : Type} [DecidableEq Root]

/-- Distinct ids, no agent twice on an item, and no claim on what is done. -/
structure TodoIndexOk (index : ProjectTodoIndex) : Prop where
  ids : (index.items.map (·.id)).Nodup
  agents : ∀ item ∈ index.items, (item.claims.map (·.agentId)).Nodup
  done : ∀ item ∈ index.items, item.status = .done → item.claims = []

theorem todoIndexOk_reachable {s : ProjectTodoService Root}
    (h : (projectTodoSystem Root allowed).Reachable s) (root : Root) :
    TodoIndexOk (s.values root) := by
  have hinv : ((s.values root).items.map (·.id)).Nodup ∧
      ∀ item ∈ (s.values root).items, ClaimsOk item.shape := by
    refine @LockedStore.inv_reachable Root _ _ _ _ _ _ _ (fun index =>
      (index.items.map (·.id)).Nodup ∧ ∀ item ∈ index.items, ClaimsOk item.shape) ?_ ?_ s h root
    · exact fun _ => ⟨nodup_nil, fun _ => nofun⟩
    · intro op env index next hok hallowed hplan
      have hchange := indexChange_of_plan hplan
      refine ⟨hchange.ids_nodup hok.1, hchange.forall_items ?_ ?_ hallowed hok.2⟩
      · exact fun shape hnone _ => ⟨hnone ▸ nodup_nil, fun _ => hnone⟩
      · exact fun shape shape' hclaims _ hitem => hitem.claimsOk hclaims
  exact ⟨hinv.1, fun item hitem => (hinv.2 item hitem).distinct,
    fun item hitem hdone => map_eq_nil_iff.mp ((hinv.2 item hitem).done hdone)⟩

/-- An invariant of shapes that the allowed operations keep. -/
theorem shapes_reachable {P : TodoShape → Prop}
    (hcreated : ∀ shape : TodoShape, shape.agents = [] → shape.status.claimBound = false → P shape)
    (hchanged : ∀ running op shape shape', P shape → allowed op shape = true →
      ItemChange running op shape shape' → P shape') {s : ProjectTodoService Root}
    (h : (projectTodoSystem Root allowed).Reachable s) (root : Root) :
    ∀ item ∈ (s.values root).items, P item.shape := by
  refine @LockedStore.inv_reachable Root _ _ _ _ _ _ _
    (fun index => ∀ item ∈ index.items, P item.shape) ?_ ?_ s h root
  · exact fun _ _ => nofun
  · intro op env index next hall hallowed hplan
    exact (indexChange_of_plan hplan).forall_items hcreated (hchanged _ op) hallowed hall

/-- **The to-dos in every run.** In every index reached the ids are distinct, no agent has two
    claims on an item and what is done has none; a write takes a claim off only where the operation
    removes it or the agent did not run when it was planned. As long as parallel work is not
    switched off under several agents, an item without it has one claim at most; as long as no item
    without a claim is moved to a status that needs one, such a status has a claim; as long as none
    with a claim is moved away and none is claimed in review or blocked, a claim has such a
    status. -/
theorem projectTodos_consistent :
    (∀ s : ProjectTodoService Root, (projectTodoSystem Root fun _ _ => true).Reachable s →
      (∀ root, TodoIndexOk (s.values root)) ∧
      ∀ root op env next, s.holder root = some (op, .planned env next) →
        ∀ item ∈ (s.values root).items, ∀ claim ∈ item.claims,
          env.isAgentRunning claim.agentId = true →
            op.removes item.id claim.agentId = true ∨
              ∃ item' ∈ next.items, item'.id = item.id ∧
                ∃ claim' ∈ item'.claims, claim'.agentId = claim.agentId) ∧
    (∀ s : ProjectTodoService Root,
      (projectTodoSystem Root ProjectTodoOperation.keepsParallel).Reachable s →
        ∀ root, ∀ item ∈ (s.values root).items,
          item.allowParallel = false → item.claims.length ≤ 1) ∧
    (∀ s : ProjectTodoService Root,
      (projectTodoSystem Root ProjectTodoOperation.keepsBound).Reachable s →
        ∀ root, ∀ item ∈ (s.values root).items,
          item.status = .claimed ∨ item.status = .inProgress → item.claims ≠ []) ∧
    ∀ s : ProjectTodoService Root,
      (projectTodoSystem Root ProjectTodoOperation.keepsClaimed).Reachable s →
        ∀ root, ∀ item ∈ (s.values root).items,
          item.claims ≠ [] → item.status = .claimed ∨ item.status = .inProgress := by
  have hbound : ∀ status : ProjectTodoStatus,
      status.claimBound = true ↔ status = .claimed ∨ status = .inProgress := by
    intro status
    rw [ProjectTodoStatus.claimBound, Bool.or_eq_true, decide_eq_true_eq, decide_eq_true_eq]
  refine ⟨fun s h => ⟨todoIndexOk_reachable h, ?_⟩, fun s h root item hitem hparallel => ?_,
    fun s h root item hitem hstatus => ?_, fun s h root item hitem hclaims => ?_⟩
  · intro root op env next hholder item hitem claim hclaim hrunning
    have hchange := indexChange_of_plan (LockedStore.written_eq_plan h hholder).1
    rcases hchange.kept_agent hitem (mem_map.mpr ⟨claim, hclaim, rfl⟩) hrunning with
      hremoves | ⟨item', hitem', hid, hagent⟩
    · exact .inl hremoves
    · obtain ⟨claim', hclaim', heq⟩ := mem_map.mp hagent
      exact .inr ⟨item', hitem', hid, claim', hclaim', heq⟩
  · have hone := shapes_reachable (P := ParallelOk)
      (fun shape hnone _ _ => by rw [hnone]; exact Nat.zero_le 1)
      (fun _ _ _ _ hok hkeeps hchange => hchange.parallelOk hkeeps hok) h root item hitem hparallel
    rwa [ProjectTodoItem.shape, length_map] at hone
  · have hsome := shapes_reachable (P := BoundOk)
      (fun shape _ hnot hyes => absurd (hyes.symm.trans hnot) Bool.noConfusion)
      (fun _ _ _ _ hok hkeeps hchange => hchange.boundOk hkeeps hok) h root item hitem
      ((hbound item.status).mpr hstatus)
    exact fun hnone => hsome (map_eq_nil_iff.mpr hnone)
  · refine (hbound item.status).mp ?_
    exact shapes_reachable (P := ClaimedOk) (fun shape hnone _ hsome => absurd hnone hsome)
      (fun _ _ _ _ hok hkeeps hchange => hchange.claimedOk hkeeps hok) h root item hitem
      fun hnone => hclaims (map_eq_nil_iff.mp hnone)

end Runs

/-! ## 4. Two runs -/

/-- Agents run, and the next id is free. -/
def todoEnv : ProjectTodoEnv := ⟨fun _ => true, "t", ["t1"]⟩

/-- One project's index after the operations, one after the other. -/
def todoIndexAfter : List ProjectTodoOperation → ProjectTodoIndex → ProjectTodoIndex
  | [], index => index
  | op :: ops, index => todoIndexAfter ops ((projectTodoPlan op todoEnv index).getD index)

/-- Every operation is allowed on every item it comes upon. -/
def todosAllowed (allowed : ProjectTodoOperation → TodoShape → Bool) :
    List ProjectTodoOperation → ProjectTodoIndex → Bool
  | [], _ => true
  | op :: ops, index =>
    (index.items.all fun item => allowed op item.shape) &&
      todosAllowed allowed ops ((projectTodoPlan op todoEnv index).getD index)

def todosIdle (index : ProjectTodoIndex) : ProjectTodoService Unit := .idle fun _ => index

theorem todosIdle_reachable {index : ProjectTodoIndex}
    (h : (projectTodoSystem Unit allowed).Reachable (todosIdle index))
    (ops : List ProjectTodoOperation) (hallowed : todosAllowed allowed ops index = true) :
    (projectTodoSystem Unit allowed).Reachable (todosIdle (todoIndexAfter ops index)) := by
  induction ops generalizing index with
  | nil => exact h
  | cons op ops ih =>
    obtain ⟨hop, hops⟩ := Bool.and_eq_true_iff.mp hallowed
    refine ih ?_ hops
    cases hplan : projectTodoPlan op todoEnv index with
    | none => exact h
    | some next =>
      have hcall := LockedStore.idle_reachable_call () h hplan (all_eq_true.mp hop)
      have hupdate : Function.update (fun _ : Unit => index) () next = fun _ => next :=
        funext fun _ => Function.update_self ..
      rwa [hupdate] at hcall

theorem todosIdle_start (allowed : ProjectTodoOperation → TodoShape → Bool) :
    (projectTodoSystem Unit allowed).Reachable (todosIdle ⟨[]⟩) := .of_init rfl

def claimedOnce : List ProjectTodoOperation :=
  [.create { title := "Ship it" } none, .claim "t1" ⟨"a1", none, none, none⟩ false]

/-- A claimed item is moved to review, where its agent keeps the claim. -/
theorem reviewed_not_claimed :
    ∃ s : ProjectTodoService Unit, (projectTodoSystem Unit fun _ _ => true).Reachable s ∧
      ¬ ∀ item ∈ (s.values ()).items,
        (item.status = .claimed ∨ item.status = .inProgress) ↔ item.claims ≠ [] := by
  refine ⟨_, todosIdle_reachable (todosIdle_start _)
    (claimedOnce ++ [.setStatus "t1" .review (some "a1") none]) (by decide), ?_⟩
  decide

/-- Claimed once, the item is as the operations keep it. -/
theorem claimedOnce_consistent :
    TodoIndexOk (todoIndexAfter claimedOnce ⟨[]⟩) ∧
    ∀ item ∈ (todoIndexAfter claimedOnce ⟨[]⟩).items,
      (item.allowParallel = false → item.claims.length ≤ 1) ∧
      ((item.status = .claimed ∨ item.status = .inProgress) ↔ item.claims ≠ []) := by
  obtain ⟨hok, hparallel, hbound, hclaimed⟩ := @projectTodos_consistent Unit _
  refine ⟨(hok _ (todosIdle_reachable (todosIdle_start _) claimedOnce (by decide))).1 (),
    fun item hitem => ⟨?_, ?_, ?_⟩⟩
  · exact hparallel _ (todosIdle_reachable (todosIdle_start _) claimedOnce (by decide)) ()
      item hitem
  · exact hbound _ (todosIdle_reachable (todosIdle_start _) claimedOnce (by decide)) ()
      item hitem
  · exact hclaimed _ (todosIdle_reachable (todosIdle_start _) claimedOnce (by decide)) ()
      item hitem

end Frogg.Server
