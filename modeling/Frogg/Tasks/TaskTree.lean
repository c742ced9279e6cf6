/-
  Subject:   Walking the hierarchy of a task store.

  **`descendants_spec`** and **`ancestorsFrom_spec`**: where following `parentId` never comes back,
  both walks end, and they find the tasks below an id, or the tasks from an id upwards, once each.
-/
import Mathlib.Algebra.Order.BigOperators.Group.List
import Mathlib.Algebra.Order.Group.Nat
import Frogg.Library.Hierarchy
import Frogg.Tasks.TaskGraph

namespace Frogg.Tasks

open Library Hierarchy List JsMap

namespace TaskFiles

variable {localeCompare : String → String → Int} {store : TaskFiles}

/-! ## 1. The tasks that are listed -/

def parentOf (store : TaskFiles) (id : String) : Option String :=
  (store.get id).bind Task.parentId

/-- Following `parentId` from a stored task never comes back to one. -/
def ParentsAcyclic (store : TaskFiles) : Prop := Acyclic store.parentOf

variable {id : String}

theorem get_id {task : Task} (h : store.get id = some task) : task.id = id :=
  store.named id task h

theorem parentOf_eq {p : String} :
    store.parentOf id = some p ↔ ∃ task, store.get id = some task ∧ task.parentId = some p :=
  Option.bind_eq_some_iff

variable {t : Task}

theorem mem_values : t ∈ store.files.values ↔ store.get t.id = some t := by
  rw [mem_values_iff]
  constructor
  · rintro ⟨id, h⟩; rw [get_id h]; exact h
  · exact fun h => ⟨t.id, h⟩

theorem values_ids : store.files.values.map Task.id = store.files.keys := by
  unfold JsMap.values JsMap.keys
  rw [map_map]
  refine map_congr_left fun e he => ?_
  exact store.named e.1 e.2 (get?_eq_some_iff.mpr he)

theorem nodup_values : (store.files.values.map Task.id).Nodup := by
  rw [values_ids]
  exact store.files.nodup

theorem mem_list : t ∈ store.list localeCompare ↔ store.get t.id = some t := by
  unfold list sortBy
  rw [mem_mergeSort, mem_values]

theorem nodup_list : ((store.list localeCompare).map Task.id).Nodup :=
  ((mergeSort_perm _ _).map Task.id).nodup_iff.mpr nodup_values

theorem mem_getChildren : t ∈ store.getChildren localeCompare id ↔
      store.get t.id = some t ∧ t.parentId = some id := by
  unfold getChildren sortBy
  rw [mem_mergeSort, mem_filter, mem_list, decide_eq_true_iff]

theorem nodup_getChildren : ((store.getChildren localeCompare id).map Task.id).Nodup :=
  ((mergeSort_perm _ _).map Task.id).nodup_iff.mpr (nodup_list.sublist (filter_sublist.map Task.id))

theorem under_of_child (h : t ∈ store.getChildren localeCompare id) :
    Under store.parentOf t.id id :=
  parentOf_eq.mpr ⟨t, mem_getChildren.mp h⟩

theorem stored_finite : {id : String | id ∈ store.files.keys}.Finite := finite_toSet _

theorem stored_of_parent {p : String} (h : store.parentOf id = some p) :
    id ∈ {id : String | id ∈ store.files.keys} := by
  obtain ⟨task, hget, -⟩ := parentOf_eq.mp h
  exact mem_keys_iff.mpr ⟨task, hget⟩

/-! ## 2. Walking down -/

theorem foldlM_children {walk : String → Option (List Task)} {below : Task → List Task}
    {children : List Task} (h : ∀ c ∈ children, walk c.id = some (below c)) (found : List Task) :
    children.foldlM (fun result child => do
        let below ← walk child.id
        return result ++ child :: below) found =
      some (found ++ children.flatMap fun c => c :: below c) := by
  induction children generalizing found with
  | nil => simp
  | cons c children ih =>
    rw [foldlM_cons, h c mem_cons_self]
    show children.foldlM _ (found ++ c :: below c) = _
    rw [ih fun d hd => h d (mem_cons_of_mem c hd)]
    simp

/-- Some tasks, once each, that are all those below an id. -/
structure AllBelow (store : TaskFiles) (id : String) (below : List Task) : Prop where
  mem : ∀ t, t ∈ below ↔ store.get t.id = some t ∧ Below store.parentOf t.id id
  nodup : (below.map Task.id).Nodup

theorem AllBelow.of_children (hacyclic : store.ParentsAcyclic) {below : Task → List Task}
    (h : ∀ c ∈ store.getChildren localeCompare id, store.AllBelow c.id (below c)) :
    store.AllBelow id
      ((store.getChildren localeCompare id).flatMap fun c => c :: below c) := by
  have hstored : ∀ c ∈ store.getChildren localeCompare id, ∀ t ∈ c :: below c,
      store.get t.id = some t ∧ Relation.ReflTransGen (Under store.parentOf) t.id c.id := by
    intro c hc t ht
    rcases mem_cons.mp ht with rfl | ht
    · exact ⟨(mem_getChildren.mp hc).1, .refl⟩
    · obtain ⟨hget, hbelow⟩ := ((h c hc).mem t).mp ht; exact ⟨hget, hbelow.to_reflTransGen⟩
  refine ⟨fun t => ?_, ?_⟩
  · rw [mem_flatMap]
    constructor
    · rintro ⟨c, hc, ht⟩
      obtain ⟨hget, hup⟩ := hstored c hc t ht
      exact ⟨hget, below_iff.mpr ⟨c.id, under_of_child hc, hup⟩⟩
    · rintro ⟨hget, hbelow⟩
      obtain ⟨childId, hchild, hup⟩ := below_iff.mp hbelow
      obtain ⟨c, hcget, hparent⟩ := parentOf_eq.mp hchild
      obtain rfl := get_id hcget
      have hc : c ∈ store.getChildren localeCompare id := mem_getChildren.mpr ⟨hcget, hparent⟩
      refine ⟨c, hc, ?_⟩
      rcases Relation.reflTransGen_iff_eq_or_transGen.mp hup with heq | hbelow
      · rw [heq] at hcget; exact mem_cons.mpr (.inl (Option.mem_unique hget hcget))
      · exact mem_cons_of_mem c (((h c hc).mem t).mpr ⟨hget, hbelow⟩)
  · rw [map_flatMap, nodup_flatMap]
    refine ⟨fun c hc => ?_, ?_⟩
    · rw [map_cons, nodup_cons]
      refine ⟨fun hmem => ?_, (h c hc).nodup⟩
      obtain ⟨t, ht, hid⟩ := mem_map.mp hmem
      have hbelow := (((h c hc).mem t).mp ht).2
      rw [hid] at hbelow
      exact hacyclic c.id hbelow
    · refine (pairwise_map.mp nodup_getChildren).imp_of_mem fun {c d} hc hd hne => ?_
      intro k hk hk'
      obtain ⟨t, ht, rfl⟩ := mem_map.mp hk
      obtain ⟨u, hu, hid⟩ := mem_map.mp hk'
      have hup := (hstored c hc t ht).2
      have hup' := (hstored d hd u hu).2
      rw [hid] at hup'
      exact hne (sibling_unique hacyclic (under_of_child hc) (under_of_child hd) hup hup')

/-- **The walk down ends and finds what is below an id, once each.** -/
theorem descendants_spec (hacyclic : store.ParentsAcyclic) (id : String) :
    ∃ turns below, (∀ fuel, turns ≤ fuel →
      store.descendants localeCompare fuel id = some below) ∧ store.AllBelow id below := by
  have hwell := wellFounded_under stored_finite (fun _ _ => stored_of_parent) hacyclic
  induction id using hwell.induction with
  | _ id ih =>
    have hchild : ∀ c : Task, ∃ turns below, c ∈ store.getChildren localeCompare id →
        (∀ fuel, turns ≤ fuel → store.descendants localeCompare fuel c.id = some below) ∧
          store.AllBelow c.id below := by
      intro c
      by_cases hc : c ∈ store.getChildren localeCompare id
      · obtain ⟨turns, below, h⟩ := ih c.id (under_of_child hc); exact ⟨turns, below, fun _ => h⟩
      · exact ⟨0, [], fun h => absurd h hc⟩
    choose turns below hspec using hchild
    refine ⟨((store.getChildren localeCompare id).map turns).sum + 1, _, fun fuel hfuel => ?_,
      AllBelow.of_children hacyclic fun c hc => (hspec c hc).2⟩
    obtain ⟨fuel, rfl⟩ : ∃ n, fuel = n + 1 := ⟨fuel - 1, by omega⟩
    unfold descendants
    rw [foldlM_children fun c hc => (hspec c hc).1 fuel ?_, nil_append]
    have hle : turns c ≤ ((store.getChildren localeCompare id).map turns).sum :=
      le_sum_of_mem (mem_map_of_mem hc)
    omega

/-! ## 3. Walking up -/

/-- The tasks from an id upwards, once each. -/
structure AllAbove (store : TaskFiles) (id : String) (chain : List Task) : Prop where
  mem : ∀ t, t ∈ chain ↔
    store.get t.id = some t ∧ Relation.ReflTransGen (Under store.parentOf) id t.id
  nodup : (chain.map Task.id).Nodup

theorem parent_ne {task : Task} (h : store.get id = some task) :
    task.parentId ≠ some "" := store.parents id task h

theorem AllAbove.missing (h : store.get id = none) : store.AllAbove id [] := by
  refine ⟨fun t => ⟨fun ht => absurd ht not_mem_nil, ?_⟩, nodup_nil⟩
  rintro ⟨hget, hup⟩
  rcases hup.cases_head with rfl | ⟨p, hp, -⟩
  · cases h.symm.trans hget
  · obtain ⟨task, htask, -⟩ := parentOf_eq.mp hp; cases h.symm.trans htask

/-- A task stands before those above it. -/
theorem AllAbove.cons (hacyclic : store.ParentsAcyclic) {id : String} {task : Task}
    {above : List Task} (hget : store.get id = some task)
    (habove : ∀ t, t ∈ above ↔ store.get t.id = some t ∧ Below store.parentOf id t.id)
    (hnodup : (above.map Task.id).Nodup) : store.AllAbove id (task :: above) := by
  have hid := get_id hget
  refine ⟨fun t => ?_, ?_⟩
  · rw [mem_cons, habove, Relation.reflTransGen_iff_eq_or_transGen]
    constructor
    · rintro (rfl | ⟨htget, hbelow⟩)
      · exact ⟨by rw [hid, hget], .inl hid⟩
      · exact ⟨htget, .inr hbelow⟩
    · rintro ⟨htget, heq | hbelow⟩
      · rw [heq] at htget; exact .inl (Option.mem_unique htget hget)
      · exact .inr ⟨htget, hbelow⟩
  · rw [map_cons, nodup_cons]
    refine ⟨fun hmem => ?_, hnodup⟩
    obtain ⟨t, ht, heq⟩ := mem_map.mp hmem
    have hbelow := ((habove t).mp ht).2
    rw [heq, hid] at hbelow
    exact hacyclic id hbelow

/-- **The walk up ends and finds what is above an id, once each.** -/
theorem ancestorsFrom_spec (hacyclic : store.ParentsAcyclic) (hid : id ≠ "") :
    ∃ turns chain, (∀ fuel, turns ≤ fuel → store.ancestorsFrom fuel (some id) = some chain) ∧
      store.AllAbove id chain := by
  have hwell := wellFounded_above stored_finite (fun _ _ => stored_of_parent) hacyclic
  induction id using hwell.induction with
  | _ id ih =>
    cases hget : store.get id with
    | none =>
      refine ⟨1, [], fun fuel hfuel => ?_, .missing hget⟩
      obtain ⟨fuel, rfl⟩ : ∃ n, fuel = n + 1 := ⟨fuel - 1, by omega⟩
      unfold ancestorsFrom
      rw [if_neg hid, hget]
    | some task =>
      cases hparent : task.parentId with
      | none =>
        refine ⟨2, [task], fun fuel hfuel => ?_, .cons hacyclic hget (fun t => ?_) nodup_nil⟩
        · obtain ⟨fuel, rfl⟩ : ∃ n, fuel = n + 2 := ⟨fuel - 2, by omega⟩
          unfold ancestorsFrom
          rw [if_neg hid, hget]
          dsimp only
          rw [hparent]
          rfl
        · refine ⟨fun h => absurd h not_mem_nil, fun h => ?_⟩
          obtain ⟨p, hp, -⟩ := Relation.TransGen.head'_iff.mp h.2
          obtain ⟨task', hget', hparent'⟩ := parentOf_eq.mp hp
          obtain rfl := Option.mem_unique hget hget'
          cases hparent.symm.trans hparent'
      | some p =>
        have hunder : Under store.parentOf id p := parentOf_eq.mpr ⟨task, hget, hparent⟩
        have hp : p ≠ "" := by rintro rfl; exact parent_ne hget hparent
        obtain ⟨turns, chain, hwalk, hall⟩ := ih p hunder hp
        refine ⟨turns + 1, task :: chain, fun fuel hfuel => ?_,
          .cons hacyclic hget (fun t => ?_) hall.nodup⟩
        · obtain ⟨fuel, rfl⟩ : ∃ n, fuel = n + 1 := ⟨fuel - 1, by omega⟩
          unfold ancestorsFrom
          rw [if_neg hid, hget]
          dsimp only
          rw [hparent, hwalk fuel (by omega)]
          rfl
        · rw [hall.mem]
          refine and_congr_right fun _ => ?_
          unfold Below
          rw [Relation.TransGen.head'_iff]
          constructor
          · exact fun h => ⟨p, hunder, h⟩
          · rintro ⟨q, hq, h⟩; obtain rfl := Option.mem_unique hq hunder; exact h

end TaskFiles

end Frogg.Tasks
