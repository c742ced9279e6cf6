/-
  Subject:   Walking the dependencies of a task (getDepTree).

  **`getDepTree_spec`**: the walk ends whatever the dependencies are, and finds the tasks that are
  reached through them, once each and never the task itself.
-/
import Mathlib.Data.Finset.Card
import Mathlib.Logic.Relation
import Frogg.Tasks.TaskGraph

namespace Frogg.Tasks

open Library List Option

namespace TaskFiles

variable {store : TaskFiles}

/-! ## 1. What a walk adds -/

/-- The second task is stored and a dependency of the first. -/
def Depends (store : TaskFiles) (id depId : String) : Prop :=
  ∃ task dep, store.get id = some task ∧ depId ∈ task.deps ∧ store.get depId = some dep

/-- Tasks that a walk finds when it starts at some ids and passes over others: they are new, they
    are reached, and nothing that they depend on is left out. -/
structure Grown (store : TaskFiles) (visited : List String) (starts : List String)
    (new : List Task) : Prop where
  nodup : (new.map Task.id).Nodup
  fresh : ∀ t ∈ new, t.id ∉ visited
  stored : ∀ t ∈ new, store.get t.id = some t
  reached : ∀ t ∈ new, ∃ d ∈ starts, Relation.ReflTransGen store.Depends d t.id
  closed : ∀ t ∈ new, ∀ d, store.Depends t.id d → d ∈ visited ∨ d ∈ new.map Task.id
  started : ∀ d ∈ starts, ∀ dep, store.get d = some dep → d ∈ visited ∨ d ∈ new.map Task.id

/-- How many stored tasks a walk may still visit. -/
def unseen (store : TaskFiles) (visited : List String) : Nat :=
  (store.files.keys.toFinset \ visited.toFinset).card

theorem unseen_mono {visited visited' : List String} (h : visited ⊆ visited') :
    store.unseen visited' ≤ store.unseen visited := by
  refine Finset.card_le_card (Finset.sdiff_subset_sdiff subset_rfl ?_)
  intro id hid
  exact mem_toFinset.mpr (h (mem_toFinset.mp hid))

theorem unseen_cons_lt {id : String} {task : Task} {visited : List String}
    (hget : store.get id = some task) (hnew : id ∉ visited) :
    store.unseen (id :: visited) < store.unseen visited := by
  refine Finset.card_lt_card (Finset.ssubset_iff_of_subset ?_ |>.mpr ⟨id, ?_, ?_⟩)
  · refine Finset.sdiff_subset_sdiff subset_rfl fun x hx => ?_
    exact mem_toFinset.mpr (mem_cons_of_mem id (mem_toFinset.mp hx))
  · rw [Finset.mem_sdiff, List.mem_toFinset, List.mem_toFinset]
    exact ⟨JsMap.mem_keys_iff.mpr ⟨task, hget⟩, hnew⟩
  · simp

theorem Grown.nil {visited : List String} : store.Grown visited [] [] where
  nodup := nodup_nil
  fresh := fun _ h => absurd h not_mem_nil
  stored := fun _ h => absurd h not_mem_nil
  reached := fun _ h => absurd h not_mem_nil
  closed := fun _ h => absurd h not_mem_nil
  started := fun _ h => absurd h not_mem_nil

/-- An id that is visited or missing starts nothing. -/
theorem Grown.skip {visited starts : List String} {new : List Task} {id : String}
    (h : store.Grown visited starts new) (hid : id ∈ visited ∨ store.get id = none) :
    store.Grown visited (id :: starts) new where
  nodup := h.nodup
  fresh := h.fresh
  stored := h.stored
  reached := fun t ht => by
    obtain ⟨d, hd, hreach⟩ := h.reached t ht
    exact ⟨d, mem_cons_of_mem id hd, hreach⟩
  closed := h.closed
  started := fun d hd dep hdep => by
    rcases mem_cons.mp hd with rfl | hd
    · rcases hid with hvisited | hnone
      · exact .inl hvisited
      · cases hnone.symm.trans hdep
    · exact h.started d hd dep hdep

/-- A dependency, what its own dependencies add, and what the other ones add after that. -/
theorem Grown.cons {visited starts : List String} {dep : Task} {below rest : List Task}
    (hget : store.get dep.id = some dep) (hnew : dep.id ∉ visited)
    (hbelow : store.Grown (dep.id :: visited) dep.deps below)
    (hrest : store.Grown ((below.map Task.id).reverse ++ dep.id :: visited) starts rest) :
    store.Grown visited (dep.id :: starts) (dep :: (below ++ rest)) := by
  have hids : ∀ {d : String}, d ∈ (below.map Task.id).reverse ++ dep.id :: visited →
      d ∈ visited ∨ d ∈ (dep :: (below ++ rest)).map Task.id := by
    intro d hd
    rw [map_cons, map_append]
    rcases mem_append.mp hd with hd | hd
    · exact .inr (mem_cons_of_mem _ (mem_append_left _ (mem_reverse.mp hd)))
    · rcases mem_cons.mp hd with rfl | hd
      · exact .inr mem_cons_self
      · exact .inl hd
  have hlate : ∀ {d : String}, d ∈ rest.map Task.id →
      d ∈ visited ∨ d ∈ (dep :: (below ++ rest)).map Task.id := by
    intro d hd
    rw [map_cons, map_append]
    exact .inr (mem_cons_of_mem _ (mem_append_right _ hd))
  have hinner : ∀ {d : String}, d ∈ dep.id :: visited ∨ d ∈ below.map Task.id →
      d ∈ visited ∨ d ∈ (dep :: (below ++ rest)).map Task.id := by
    rintro d (hd | hd)
    · exact hids (mem_append_right _ hd)
    · exact hids (mem_append_left _ (mem_reverse.mpr hd))
  have houter : ∀ {d : String},
      d ∈ (below.map Task.id).reverse ++ dep.id :: visited ∨ d ∈ rest.map Task.id →
      d ∈ visited ∨ d ∈ (dep :: (below ++ rest)).map Task.id := fun h => h.elim hids hlate
  refine ⟨?_, ?_, ?_, ?_, ?_, ?_⟩
  · rw [map_cons, map_append, nodup_cons, mem_append, nodup_append]
    refine ⟨?_, hbelow.nodup, hrest.nodup, ?_⟩
    · rintro (hmem | hmem)
      · obtain ⟨t, ht, hid⟩ := mem_map.mp hmem; exact hbelow.fresh t ht (hid ▸ mem_cons_self)
      · obtain ⟨t, ht, hid⟩ := mem_map.mp hmem
        exact hrest.fresh t ht (hid ▸ mem_append_right _ mem_cons_self)
    · rintro a ha b hb rfl
      obtain ⟨t, ht, rfl⟩ := mem_map.mp hb
      exact hrest.fresh t ht (mem_append_left _ (mem_reverse.mpr ha))
  · intro t ht
    rcases mem_cons.mp ht with rfl | ht
    · exact hnew
    · rcases mem_append.mp ht with ht | ht
      · exact fun hmem => hbelow.fresh t ht (mem_cons_of_mem _ hmem)
      · exact fun hmem => hrest.fresh t ht (mem_append_right _ (mem_cons_of_mem _ hmem))
  · intro t ht
    rcases mem_cons.mp ht with rfl | ht
    · exact hget
    · exact (mem_append.mp ht).elim (hbelow.stored t) (hrest.stored t)
  · intro t ht
    rcases mem_cons.mp ht with rfl | ht
    · exact ⟨t.id, mem_cons_self, .refl⟩
    · rcases mem_append.mp ht with ht | ht
      · obtain ⟨d, hd, hreach⟩ := hbelow.reached t ht
        refine ⟨dep.id, mem_cons_self, ?_⟩
        rcases hreach.cases_head with heq | ⟨e, he, -⟩
        · exact .single ⟨dep, t, hget, heq ▸ hd, hbelow.stored t ht⟩
        · obtain ⟨task, -, htask, -⟩ := he; exact .head ⟨dep, task, hget, hd, htask⟩ hreach
      · obtain ⟨d, hd, hreach⟩ := hrest.reached t ht; exact ⟨d, mem_cons_of_mem _ hd, hreach⟩
  · intro t ht d hd
    rcases mem_cons.mp ht with rfl | ht
    · obtain ⟨task, found, htask, hmem, hfound⟩ := hd
      obtain rfl := mem_unique hget htask
      exact hinner (hbelow.started d hmem found hfound)
    · rcases mem_append.mp ht with ht | ht
      · exact hinner (hbelow.closed t ht d hd)
      · exact houter (hrest.closed t ht d hd)
  · intro d hd found hfound
    rcases mem_cons.mp hd with rfl | hd
    · exact hids (mem_append_right _ mem_cons_self)
    · exact houter (hrest.started d hd found hfound)

/-! ## 2. The walk -/

section Congruence

variable {get get' : String → Option Task} {read : String → Prop}

section

variable (hget : ∀ id, read id → get id = get' id)
include hget

theorem visitDeps_congr {traverse traverse' : String → List String × List Task →
      Option (List String × List Task)}
    (htraverse : ∀ id, read id → traverse id = traverse' id) {deps : List String}
    (hdeps : ∀ d ∈ deps, read d) (found : List String × List Task) :
    visitDeps get traverse deps found = visitDeps get' traverse' deps found := by
  induction deps generalizing found with
  | nil => rfl
  | cons depId deps ih =>
    have hfirst := hdeps depId mem_cons_self
    have hrest := ih fun d hd => hdeps d (mem_cons_of_mem depId hd)
    unfold visitDeps
    rw [hget depId hfirst, htraverse depId hfirst]
    simp only [hrest]

section

variable (hdeps : ∀ id task, read id → get id = some task → ∀ d ∈ task.deps, read d)
include hdeps

/-- A walk reads what is under the ids that it comes to, and nothing else. -/
theorem traverseDeps_congr (fuel : Nat)
    (id : String) (hid : read id) : traverseDeps get fuel id = traverseDeps get' fuel id := by
  induction fuel generalizing id with
  | zero => rfl
  | succ fuel ih =>
    funext found
    unfold traverseDeps
    rw [← hget id hid]
    cases htask : get id with
    | none => rfl
    | some task => dsimp only; rw [visitDeps_congr hget ih (hdeps id task hid htask)]

theorem getDepTree_congr (fuel : Nat)
    {id : String} (hid : read id) : getDepTree get fuel id = getDepTree get' fuel id := by
  unfold getDepTree
  rw [hget id hid, traverseDeps_congr hget hdeps fuel id hid]

end

end

end Congruence

/-- What a walk adds does not depend on its fuel where that suffices. -/
theorem visitDeps_spec {turns : Nat}
    (htraverse : ∀ (dep : Task) (visited : List String) (result : List Task),
      store.get dep.id = some dep → dep.id ∉ visited → store.unseen visited ≤ turns →
      ∃ new, (∀ fuel, turns ≤ fuel → traverseDeps store.get fuel dep.id (visited, result) =
          some ((new.map Task.id).reverse ++ dep.id :: visited, result ++ new)) ∧
        store.Grown (dep.id :: visited) dep.deps new)
    (deps visited : List String) (result : List Task) (hturns : store.unseen visited ≤ turns) :
    ∃ new, (∀ fuel, turns ≤ fuel →
        visitDeps store.get (traverseDeps store.get fuel) deps (visited, result) =
          some ((new.map Task.id).reverse ++ visited, result ++ new)) ∧
      store.Grown visited deps new := by
  induction deps generalizing visited result with
  | nil => exact ⟨[], fun fuel _ => by simp [visitDeps], .nil⟩
  | cons depId deps ih =>
    by_cases hvisited : depId ∈ visited
    · obtain ⟨new, hrun, hgrown⟩ := ih visited result hturns
      refine ⟨new, fun fuel hfuel => ?_, hgrown.skip (.inl hvisited)⟩
      unfold visitDeps
      rw [if_pos hvisited]
      exact hrun fuel hfuel
    cases hget : store.get depId with
    | none =>
      obtain ⟨new, hrun, hgrown⟩ := ih visited result hturns
      refine ⟨new, fun fuel hfuel => ?_, hgrown.skip (.inr hget)⟩
      unfold visitDeps
      rw [if_neg hvisited, hget]
      exact hrun fuel hfuel
    | some dep =>
      obtain rfl : dep.id = depId := store.named depId dep hget
      obtain ⟨below, hbelow, hgrownBelow⟩ :=
        htraverse dep visited (result ++ [dep]) hget hvisited hturns
      obtain ⟨rest, hrest, hgrownRest⟩ := ih ((below.map Task.id).reverse ++ dep.id :: visited)
        (result ++ [dep] ++ below) (Nat.le_trans (unseen_mono fun x hx =>
          mem_append_right _ (mem_cons_of_mem _ hx)) hturns)
      refine ⟨dep :: (below ++ rest), fun fuel hfuel => ?_,
        .cons hget hvisited hgrownBelow hgrownRest⟩
      unfold visitDeps
      rw [if_neg hvisited, hget]
      dsimp only
      rw [hbelow fuel hfuel]
      dsimp only [bind_eq_bind, bind_some]
      rw [hrest fuel hfuel]
      simp

theorem traverseDeps_spec (turns : Nat) (task : Task) (visited : List String) (result : List Task)
    (hget : store.get task.id = some task) (hnew : task.id ∉ visited)
    (hturns : store.unseen visited ≤ turns) :
    ∃ new, (∀ fuel, turns ≤ fuel → traverseDeps store.get fuel task.id (visited, result) =
        some ((new.map Task.id).reverse ++ task.id :: visited, result ++ new)) ∧
      store.Grown (task.id :: visited) task.deps new := by
  induction turns generalizing task visited result with
  | zero =>
    have hlt := unseen_cons_lt hget hnew
    omega
  | succ turns ih =>
    have hlt := unseen_cons_lt hget hnew
    obtain ⟨new, hrun, hgrown⟩ :=
      visitDeps_spec ih task.deps (task.id :: visited) result (by omega)
    refine ⟨new, fun fuel hfuel => ?_, hgrown⟩
    obtain ⟨fuel, rfl⟩ : ∃ n, fuel = n + 1 := ⟨fuel - 1, by omega⟩
    unfold traverseDeps
    rw [if_neg hnew, hget]
    exact hrun fuel (by omega)

/-- **The walk over the dependencies ends, and finds the stored tasks that are reached through them
    once each, and never where it started.** -/
theorem getDepTree_spec {root : Task} (hget : store.get root.id = some root) :
    ∃ turns found, (∀ fuel, turns ≤ fuel → getDepTree store.get fuel root.id = some (.ok found)) ∧
      (found.map Task.id).Nodup ∧
      ∀ t, t ∈ found ↔ store.get t.id = some t ∧ t.id ≠ root.id ∧
        Relation.TransGen store.Depends root.id t.id := by
  obtain ⟨found, hrun, hgrown⟩ := traverseDeps_spec (store.unseen []) root [] [] hget
    not_mem_nil (Nat.le_refl _)
  refine ⟨store.unseen [], found, fun fuel hfuel => ?_, hgrown.nodup, fun t => ⟨fun ht => ?_, ?_⟩⟩
  · unfold getDepTree
    rw [hget]
    rw [hrun fuel hfuel]
    rfl
  · refine ⟨hgrown.stored t ht, fun heq => hgrown.fresh t ht (heq ▸ mem_cons_self), ?_⟩
    obtain ⟨d, hd, hreach⟩ := hgrown.reached t ht
    obtain ⟨dep, hdep⟩ : ∃ dep, store.get d = some dep := by
      rcases hreach.cases_head with heq | ⟨e, ⟨dep, -, hdep, -⟩, -⟩
      · exact ⟨t, heq ▸ hgrown.stored t ht⟩
      · exact ⟨dep, hdep⟩
    exact .head' ⟨root, dep, hget, hd, hdep⟩ hreach
  · rintro ⟨hstored, hne, hreach⟩
    -- what is reached is the root or found: the root's dependencies are, and then theirs
    have hclosed : ∀ id, Relation.TransGen store.Depends root.id id →
        id = root.id ∨ id ∈ found.map Task.id := by
      intro id hid
      have hdone : ∀ {id : String}, id ∈ [root.id] ∨ id ∈ found.map Task.id →
          id = root.id ∨ id ∈ found.map Task.id := fun h => h.imp_left mem_singleton.mp
      induction hid with
      | single hstep =>
        obtain ⟨task, dep, htask, hmem, hdep⟩ := hstep
        obtain rfl := mem_unique hget htask
        exact hdone (hgrown.started _ hmem dep hdep)
      | tail _ hstep ih =>
        rcases ih with rfl | hfound
        · obtain ⟨task, dep, htask, hmem, hdep⟩ := hstep
          obtain rfl := mem_unique hget htask
          exact hdone (hgrown.started _ hmem dep hdep)
        · obtain ⟨u, hu, rfl⟩ := mem_map.mp hfound; exact hdone (hgrown.closed u hu _ hstep)
    obtain ⟨u, hu, hid⟩ := mem_map.mp ((hclosed t.id hreach).resolve_left hne)
    have hstoredU := hgrown.stored u hu
    rw [hid, hstored] at hstoredU
    rwa [some.inj hstoredU]

end TaskFiles

end Frogg.Tasks
