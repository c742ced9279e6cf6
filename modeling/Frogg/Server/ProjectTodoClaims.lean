/-
  Subject:   Who works on a to-do: what the operations do to the claims, the status and
             `allowParallel` of an item.

  An item is looked at as its shape. `ItemChange` says all that an operation may do to a shape;
  every operation is one of its cases (`indexChange_of_apply`), and the invariants are read off it.
-/
import Frogg.Library.Failing
import Frogg.Server.ProjectTodos
import Mathlib.Data.List.Forall2
import Mathlib.Data.List.Nodup

namespace Frogg.Server

open Library List Option

/-! ## 1. Shapes -/

structure TodoShape where
  id : String
  status : ProjectTodoStatus
  allowParallel : Bool
  agents : List String

def ProjectTodoItem.shape (item : ProjectTodoItem) : TodoShape :=
  ⟨item.id, item.status, item.allowParallel, item.claims.map (·.agentId)⟩

/-- The operation takes the agent's claim off the to-do. -/
def ProjectTodoOperation.removes (op : ProjectTodoOperation) (todoId agent : String) : Bool :=
  match op with
  | .setStatus id status _ _ => id = todoId && status = .done
  | .release id agentId _ =>
    id = todoId && (agentId = none || agentId = some "" || agentId = some agent)
  | .delete id => id = todoId
  | .releaseAgent agentId => agentId = agent || agentId = ""
  | _ => false

/-- The status an item comes to by a claim. -/
def ProjectTodoStatus.onClaim (status : ProjectTodoStatus) : ProjectTodoStatus :=
  if status = .backlog ∨ status = .ready then .claimed else status

/-- What an operation may do to an item. -/
inductive ItemChange (running : String → Bool) : ProjectTodoOperation → TodoShape → TodoShape → Prop
  | kept {op : ProjectTodoOperation} {shape : TodoShape} : ItemChange running op shape shape
  | parallel {id : String} {shape : TodoShape} {input : UpdateTodoInput} {allowParallel : Bool}
      (hid : shape.id = id) (hinput : input.allowParallel = some allowParallel) :
      ItemChange running (.update id input) shape { shape with allowParallel }
  | moved {id : String} {shape : TodoShape} {status : ProjectTodoStatus}
      {agentId note : Option String} (hid : shape.id = id) :
      ItemChange running (.setStatus id status agentId note) shape
        { shape with status, agents := if status = .done then [] else shape.agents }
  | joined {id : String} {shape : TodoShape} {claimant : ProjectTodoClaimant} {takeover : Bool}
      (hid : shape.id = id) (hdone : shape.status ≠ .done)
      (hnew : claimant.agentId ∉ shape.agents)
      (hfree : shape.agents = [] ∨ shape.allowParallel = true) :
      ItemChange running (.claim id claimant takeover) shape
        { shape with
          status := shape.status.onClaim, agents := shape.agents ++ [claimant.agentId] }
  | tookOver {id : String} {shape : TodoShape} {claimant : ProjectTodoClaimant} {takeover : Bool}
      (hid : shape.id = id) (hdone : shape.status ≠ .done)
      (hstale : ∀ agent ∈ shape.agents, running agent = false) :
      ItemChange running (.claim id claimant takeover) shape
        { shape with status := shape.status.onClaim, agents := [claimant.agentId] }
  | released {op : ProjectTodoOperation} {shape : TodoShape} (keep : String → Bool)
      (hremoves : ∀ agent, keep agent = false → op.removes shape.id agent = true) :
      ItemChange running op shape
        { shape with
          status :=
            if shape.agents.filter keep = [] ∧ shape.status.claimBound then .ready
            else shape.status
          agents := shape.agents.filter keep }

/-- What an operation may do to an index. -/
inductive IndexChange (running : String → Bool) (op : ProjectTodoOperation)
    (index : ProjectTodoIndex) : ProjectTodoIndex → Prop
  | created {item : ProjectTodoItem} (hid : ∀ other ∈ index.items, other.id ≠ item.id)
      (hclaims : item.claims = []) (hstatus : item.status.claimBound = false) :
      IndexChange running op index ⟨index.items ++ [item]⟩
  | changed {items : List ProjectTodoItem}
      (hitems : List.Forall₂ (fun item item' => ItemChange running op item.shape item'.shape)
        index.items items) :
      IndexChange running op index ⟨items⟩
  | deleted {todoId : String} (hremoves : ∀ agent, op.removes todoId agent = true) :
      IndexChange running op index ⟨index.items.filter (·.id ≠ todoId)⟩

/-! ## 2. The operations on an item -/

variable {id : String}

section Items

variable {item item' : ProjectTodoItem} {running : String → Bool} {now : String}

theorem createItem_ok {input : CreateTodoInput} (h : createItem id input now = .ok item) :
    item.id = id ∧ item.claims = [] ∧ item.status.claimBound = false := by
  unfold createItem at h
  dsimp only at h
  split at h
  · cases h
  · rename_i hbound
    obtain ⟨title, -, h⟩ := except_bind_ok h
    obtain ⟨description, -, h⟩ := except_bind_ok h
    obtain ⟨category, -, h⟩ := except_bind_ok h
    cases h
    exact ⟨rfl, rfl, Bool.eq_false_iff.mpr hbound⟩

theorem writePlan_ok {plan : String} (h : writePlan item plan now = .ok item') :
    item' = { item with planUpdatedAt := some now, updatedAt := now } := by
  unfold writePlan at h
  split at h
  · cases h
  · exact (Except.ok.inj h).symm

theorem updateItem_change {input : UpdateTodoInput} (h : updateItem item input now = .ok item') :
    ItemChange running (.update item.id input) item.shape item'.shape := by
  obtain ⟨title, -, h⟩ := except_bind_ok h
  obtain ⟨description, -, h⟩ := except_bind_ok h
  obtain ⟨category, -, h⟩ := except_bind_ok h
  cases h
  cases hinput : input.allowParallel with
  | none => exact .kept
  | some allowParallel => exact .parallel rfl hinput

theorem updateOwnClaim_agents (claims : List ProjectTodoClaim) (agentId : String)
    {f : ProjectTodoClaim → ProjectTodoClaim} (hf : ∀ claim, (f claim).agentId = claim.agentId) :
    (updateOwnClaim claims agentId f).map (·.agentId) = claims.map (·.agentId) := by
  unfold updateOwnClaim
  induction claims with
  | nil => rfl
  | cons claim claims ih =>
    rw [replaceF_cons]
    by_cases hagent : claim.agentId = agentId
    · rw [if_pos hagent]; rw [map_cons, map_cons, hf]
    · rw [if_neg hagent]; rw [map_cons, map_cons, ih]

variable {agentId : Option String}

theorem appendProgress_shape {note : String}
    (h : appendProgress item note agentId now = .ok item') : item'.shape = item.shape := by
  obtain ⟨note, -, h⟩ := except_bind_ok h
  cases h
  unfold ProjectTodoItem.shape
  split
  · rw [updateOwnClaim_agents]; exact fun _ => rfl
  · rfl

theorem setStatusOf_change {status : ProjectTodoStatus} {note : Option String}
    (h : setStatusOf item status agentId note now = .ok item') :
    ItemChange running (.setStatus item.id status agentId note) item.shape item'.shape := by
  have hmoved : ∀ noted : ProjectTodoItem, noted.shape = item.shape →
      ItemChange running (.setStatus item.id status agentId note) item.shape
        (setItemStatus noted status now).shape := by
    intro noted hshape
    have hset : (setItemStatus noted status now).shape =
        { noted.shape with
          status, agents := if status = .done then [] else noted.shape.agents } := by
      unfold setItemStatus ProjectTodoItem.shape
      split
      · rfl
      · rfl
    rw [hset, hshape]
    exact .moved rfl
  obtain ⟨noted, hnoted, h⟩ := except_bind_ok h
  cases h
  refine hmoved noted ?_
  unfold appendNote at hnoted
  split at hnoted
  · split at hnoted
    · exact appendProgress_shape hnoted
    · cases hnoted; rfl
  · cases hnoted; rfl

theorem addClaim_shape (claimant : ProjectTodoClaimant) :
    (addClaim item claimant now).shape =
      { item.shape with
        status := item.status.onClaim
        agents := item.shape.agents ++ [claimant.agentId] } := by
  unfold addClaim ProjectTodoItem.shape
  rw [map_append]
  rfl

theorem stale_of_views {claims : List ProjectTodoClaim}
    (h : ¬ ((toClaimViews claims running).any fun view => !view.stale) = true) :
    ∀ agent ∈ claims.map (·.agentId), running agent = false := by
  intro agent hagent
  obtain ⟨claim, hclaim, rfl⟩ := List.mem_map.mp hagent
  rw [List.any_eq_true] at h
  by_contra hrunning
  refine h ⟨_, List.mem_map.mpr ⟨claim, hclaim, rfl⟩, ?_⟩
  rw [Bool.not_not]
  exact (Bool.not_eq_false _).mp hrunning

theorem claimItem_change {claimant : ProjectTodoClaimant} {takeover : Bool}
    (h : claimItem item claimant takeover running now = .ok item') :
    ItemChange running (.claim item.id claimant takeover) item.shape item'.shape := by
  unfold claimItem at h
  split at h
  · cases h
  rename_i hdone
  split at h
  · -- the claim is the claimant's own already
    cases h
    have hshape : ProjectTodoItem.shape { item with
        claims := updateOwnClaim item.claims claimant.agentId (refreshClaim claimant now)
        updatedAt := now } = item.shape := by
      unfold ProjectTodoItem.shape
      rw [updateOwnClaim_agents]
      exact fun _ => rfl
    rw [hshape]
    exact .kept
  rename_i hown
  have hnew : claimant.agentId ∉ item.shape.agents := by
    intro hmem
    obtain ⟨claim, hclaim, heq⟩ := mem_map.mp hmem
    exact hown (any_eq_true.mpr ⟨claim, hclaim, decide_eq_true heq⟩)
  split at h
  · dsimp only at h
    split at h
    · cases h
    split at h
    · cases h
    rename_i hstale
    cases h
    exact .tookOver rfl hdone (stale_of_views hstale)
  · rename_i hfree
    cases h
    rw [addClaim_shape]
    refine .joined rfl hdone hnew ?_
    by_cases hparallel : item.allowParallel = true
    · exact .inr hparallel
    · refine .inl (map_eq_nil_iff.mpr (length_eq_zero_iff.mp ?_))
      have hnot : item.allowParallel = false := Bool.eq_false_iff.mpr hparallel
      have : ¬ item.claims.length > 0 := fun hlength => hfree ⟨hlength, hnot⟩
      omega

theorem releaseItem_change {op : ProjectTodoOperation}
    (hremoves : ∀ agent, agentId.filter (· ≠ "") = none ∨ agentId = some agent →
      op.removes item.id agent = true) (h : releaseItem item agentId now = some item') :
    ItemChange running op item.shape item'.shape := by
  unfold releaseItem at h
  cases hagent : agentId.filter (· ≠ "") with
  | none =>
    rw [hagent] at h
    dsimp only at h
    split at h
    · cases h
    obtain rfl := some.inj h
    have hrel := @ItemChange.released running op item.shape (fun _ => false)
      fun agent _ => hremoves agent (.inl hagent)
    simpa [ProjectTodoItem.shape] using hrel
  | some agent =>
    rw [hagent] at h
    dsimp only at h
    split at h
    · cases h
    obtain rfl := some.inj h
    obtain ⟨hsome, -⟩ := filter_eq_some_iff.mp hagent
    have hrel := @ItemChange.released running op item.shape (fun other => other ≠ agent)
      fun other hother => hremoves other (.inr ?_)
    · have hkeep : item.shape.agents.filter (fun other => other ≠ agent) =
          (item.claims.filter (·.agentId ≠ agent)).map (·.agentId) := by
        rw [ProjectTodoItem.shape, List.filter_map]
        rfl
      rw [hkeep] at hrel
      simpa [ProjectTodoItem.shape] using hrel
    · have heq : other = agent := by simpa using hother
      rw [hsome, heq]

end Items

/-! ## 3. The operations on an index -/

section Index

variable {running : String → Bool} {op : ProjectTodoOperation} {index index' : ProjectTodoIndex}

theorem forall₂_replaced {R : ProjectTodoItem → ProjectTodoItem → Prop}
    (hrefl : ∀ item, R item item) {items : List ProjectTodoItem} {item item' : ProjectTodoItem}
    (hfind : items.find? (·.id = id) = some item) (h : R item item') :
    List.Forall₂ R items
      (items.replaceF fun candidate => if candidate.id = id then some item' else none) := by
  induction items with
  | nil => cases hfind
  | cons candidate items ih =>
    rw [replaceF_cons]
    by_cases hid : candidate.id = id
    · simp only [find?_cons, hid, decide_true] at hfind
      rw [if_pos hid]
      exact .cons (some.inj hfind ▸ h) (forall₂_same.mpr fun item _ => hrefl item)
    · simp only [find?_cons, hid, decide_false] at hfind
      rw [if_neg hid]
      exact .cons (hrefl candidate) (ih hfind)

theorem indexChange_of_modify {f : ProjectTodoItem → Except ProjectTodoError ProjectTodoItem}
    (hf : ∀ item item', item.id = id → f item = .ok item' →
      ItemChange running op item.shape item'.shape)
    (h : some <$> index.modify id f = .ok (some index')) : IndexChange running op index index' := by
  obtain ⟨modified, hmodify, heq⟩ := except_map_ok h
  obtain rfl := some.inj heq
  unfold ProjectTodoIndex.modify at hmodify
  split at hmodify
  · cases hmodify
  · rename_i item hfind
    obtain ⟨item', hitem, hmodify⟩ := except_bind_ok hmodify
    obtain rfl := Except.ok.inj hmodify
    have hid : item.id = id := by simpa using find?_some hfind
    exact .changed (forall₂_replaced (fun _ => .kept) hfind (hf item item' hid hitem))

theorem indexChange_of_create {input : CreateTodoInput} {plan : Option String}
    {env : ProjectTodoEnv} (h : createIn index input plan env = .ok (some index')) :
    IndexChange running op index index' := by
  unfold createIn at h
  split at h
  · cases h
  rename_i id hid
  split at h
  · cases h
  obtain ⟨item, hcreate, h⟩ := except_bind_ok h
  obtain ⟨item', hplan, h⟩ := except_bind_ok h
  cases h
  obtain ⟨hitemId, hclaims, hstatus⟩ := createItem_ok hcreate
  have hsame : item'.id = item.id ∧ item'.claims = item.claims ∧ item'.status = item.status := by
    unfold writeFirstPlan at hplan
    split at hplan
    · split at hplan
      · rw [writePlan_ok hplan]; exact ⟨rfl, rfl, rfl⟩
      · cases hplan; exact ⟨rfl, rfl, rfl⟩
    · cases hplan; exact ⟨rfl, rfl, rfl⟩
  refine .created (fun other hother heq => ?_) (hsame.2.1.trans hclaims)
    (hsame.2.2.symm ▸ hstatus)
  have hunused : ∀ item ∈ index.items, item.id ≠ id := by simpa using find?_some hid
  exact hunused other hother (heq.trans (hsame.1.trans hitemId))

/-- **Every operation** that writes an index is one of the changes. -/
theorem indexChange_of_apply {env : ProjectTodoEnv} (h : op.apply env index = .ok (some index')) :
    IndexChange env.isAgentRunning op index index' := by
  cases op with
  | create input plan => exact indexChange_of_create h
  | update todoId input =>
    refine indexChange_of_modify (fun item item' hid hitem => ?_) h
    rw [← hid]
    exact updateItem_change hitem
  | updatePlan todoId plan =>
    refine indexChange_of_modify (fun item item' hid hitem => ?_) h
    rw [writePlan_ok hitem]
    exact .kept
  | setStatus todoId status agentId note =>
    refine indexChange_of_modify (fun item item' hid hitem => ?_) h
    rw [← hid]
    exact setStatusOf_change hitem
  | claim todoId claimant takeover =>
    refine indexChange_of_modify (fun item item' hid hitem => ?_) h
    rw [← hid]
    exact claimItem_change hitem
  | addProgress todoId note agentId =>
    refine indexChange_of_modify (fun item item' hid hitem => ?_) h
    rw [appendProgress_shape hitem]
    exact .kept
  | release todoId agentId requireClaim =>
    replace h : releaseIn index todoId agentId requireClaim env.now = .ok (some index') := h
    unfold releaseIn at h
    split at h
    · cases h
    rename_i item hfind
    have hid : item.id = todoId := by simpa using find?_some hfind
    split at h
    · rename_i released hreleased
      obtain rfl := some.inj (Except.ok.inj h)
      refine .changed (forall₂_replaced (fun _ => .kept) hfind
        (releaseItem_change (fun agent hagent => ?_) hreleased))
      simp only [ProjectTodoOperation.removes, hid, decide_true, Bool.true_and, Bool.or_eq_true,
        decide_eq_true_eq]
      rcases hagent with hnone | hsome
      · cases agentId with
        | none => exact .inl (.inl rfl)
        | some agentId =>
          refine .inl (.inr ?_)
          by_contra hne
          rw [filter_some_pos (by simpa using hne)] at hnone
          cases hnone
      · exact .inr hsome
    · split at h
      · cases h
      · cases h
  | delete todoId =>
    have hdelete := Except.ok.inj h
    unfold deleteIn at hdelete
    dsimp only at hdelete
    split at hdelete
    · cases hdelete
    · obtain rfl := some.inj hdelete; exact .deleted fun agent => decide_eq_true rfl
  | releaseAgent agentId =>
    have hrelease := Except.ok.inj h
    unfold releaseAgentIn at hrelease
    split at hrelease
    · obtain rfl := some.inj hrelease
      refine .changed (forall₂_map_right_iff.mpr (forall₂_same.mpr fun item _ => ?_))
      cases hreleased : releaseArchived agentId env.now item with
      | none => exact .kept
      | some released =>
        unfold releaseArchived at hreleased
        split at hreleased
        · obtain ⟨item', hitem, rfl⟩ := map_eq_some_iff.mp hreleased
          show ItemChange _ _ item.shape item'.shape
          refine releaseItem_change (fun agent hagent => ?_) hitem
          simp only [ProjectTodoOperation.removes, Bool.or_eq_true, decide_eq_true_eq]
          rcases hagent with hnone | hsome
          · refine .inr ?_
            by_contra hne
            rw [filter_some_pos (by simpa using hne)] at hnone
            cases hnone
          · exact .inl (some.inj hsome)
        · cases hreleased
    · cases hrelease

end Index

/-! ## 4. What the changes keep -/

/-- Two agents never hold one claim twice, and what is done is nobody's. -/
structure ClaimsOk (shape : TodoShape) : Prop where
  distinct : shape.agents.Nodup
  done : shape.status = .done → shape.agents = []

/-- Without parallel work there is one claim at most. -/
def ParallelOk (shape : TodoShape) : Prop :=
  shape.allowParallel = false → shape.agents.length ≤ 1

/-- Who is in a status that needs a claim has one. -/
def BoundOk (shape : TodoShape) : Prop := shape.status.claimBound = true → shape.agents ≠ []

/-- What has a claim is in a status that needs one. -/
def ClaimedOk (shape : TodoShape) : Prop := shape.agents ≠ [] → shape.status.claimBound = true

section

variable (op : ProjectTodoOperation) (shape : TodoShape)

/-- Parallel work is not switched off while several agents are at it. -/
def ProjectTodoOperation.keepsParallel : Bool :=
  match op with
  | .update todoId input =>
    todoId ≠ shape.id || input.allowParallel ≠ some false || shape.agents.length ≤ 1
  | _ => true

/-- An item without a claim is not moved to a status that needs one. -/
def ProjectTodoOperation.keepsBound : Bool :=
  match op with
  | .setStatus todoId status _ _ =>
    todoId ≠ shape.id || !status.claimBound || shape.agents ≠ []
  | _ => true

/-- An item with a claim is not moved to a status without, and none is claimed that is in review
    or blocked. -/
def ProjectTodoOperation.keepsClaimed : Bool :=
  match op with
  | .setStatus todoId status _ _ =>
    todoId ≠ shape.id || status.claimBound || status = .done || shape.agents = []
  | .claim todoId _ _ => todoId ≠ shape.id || (shape.status ≠ .review && shape.status ≠ .blocked)
  | _ => true

end

section Changes

variable {running : String → Bool} {op : ProjectTodoOperation} {shape shape' : TodoShape}

theorem ItemChange.id_eq (h : ItemChange running op shape shape') : shape'.id = shape.id := by
  cases h <;> rfl

theorem onClaim_ne_done {status : ProjectTodoStatus} (h : status ≠ .done) :
    status.onClaim ≠ .done := by
  cases status <;> revert h <;> decide

section

variable (h : ItemChange running op shape shape')
include h

theorem ItemChange.claimsOk (hok : ClaimsOk shape) : ClaimsOk shape' := by
  cases h with
  | kept => exact hok
  | parallel => exact ⟨hok.distinct, hok.done⟩
  | @moved _ _ status =>
    constructor
    · split
      · exact nodup_nil
      · exact hok.distinct
    · exact fun hdone => if_pos hdone
  | joined _ hdone hnew =>
    refine ⟨?_, fun h => absurd h (onClaim_ne_done hdone)⟩
    refine nodup_append.mpr ⟨hok.distinct, nodup_singleton _, ?_⟩
    intro agent hagent other hother heq
    rw [mem_singleton.mp hother] at heq
    exact hnew (heq ▸ hagent)
  | tookOver _ hdone => exact ⟨nodup_singleton _, fun h => absurd h (onClaim_ne_done hdone)⟩
  | released keep =>
    refine ⟨hok.distinct.filter _, fun hdone => ?_⟩
    split at hdone
    · cases hdone
    · rw [hok.done hdone, filter_nil]

/-- **A running agent's claim** stays unless the operation is one that removes it. -/
theorem ItemChange.kept_agent {agent : String} (hagent : agent ∈ shape.agents)
    (hrunning : running agent = true) :
    op.removes shape.id agent = true ∨ agent ∈ shape'.agents := by
  cases h with
  | kept => exact .inr hagent
  | parallel => exact .inr hagent
  | @moved _ _ status _ _ hid =>
    by_cases hdone : status = .done
    · refine .inl ?_
      simp only [ProjectTodoOperation.removes, hid, hdone, decide_true, Bool.and_self]
    · refine .inr ?_
      rw [if_neg hdone]
      exact hagent
  | joined => exact .inr (mem_append_left _ hagent)
  | tookOver _ _ hstale => rw [hstale agent hagent] at hrunning; cases hrunning
  | released keep hremoves =>
    by_cases hkeep : keep agent = true
    · exact .inr (mem_filter.mpr ⟨hagent, hkeep⟩)
    · exact .inl (hremoves agent (Bool.eq_false_iff.mpr hkeep))

theorem ItemChange.parallelOk (hkeeps : op.keepsParallel shape = true) (hok : ParallelOk shape) :
    ParallelOk shape' := by
  cases h with
  | kept => exact hok
  | @parallel _ _ input allowParallel hid hinput =>
    intro hnot
    have hfalse : input.allowParallel = some false := by rw [hinput]; exact congrArg some hnot
    simpa [ProjectTodoOperation.keepsParallel, hid, hfalse] using hkeeps
  | @moved _ _ status =>
    intro hnot
    split
    · exact Nat.zero_le _
    · exact hok hnot
  | joined _ _ _ hfree =>
    intro hnot
    rcases hfree with hnone | hparallel
    · rw [hnone]; exact Nat.le_refl _
    · exact absurd (hnot.symm.trans hparallel) Bool.false_ne_true
  | tookOver => exact fun _ => Nat.le_refl _
  | released keep => exact fun hnot => (length_filter_le keep shape.agents).trans (hok hnot)

theorem ItemChange.boundOk (hkeeps : op.keepsBound shape = true) (hok : BoundOk shape) :
    BoundOk shape' := by
  cases h with
  | kept => exact hok
  | parallel => exact hok
  | @moved _ _ status _ _ hid =>
    intro hbound
    have hdone : status ≠ .done := fun hdone => by
      subst hdone
      exact Bool.false_ne_true hbound
    rw [if_neg hdone]
    have hbound' : status.claimBound = true := hbound
    simpa [ProjectTodoOperation.keepsBound, hid, hbound'] using hkeeps
  | joined => exact fun _ => append_ne_nil_of_right_ne_nil _ (cons_ne_nil _ _)
  | tookOver => exact fun _ => cons_ne_nil _ _
  | released keep =>
    intro hbound hnone
    have hnone' : shape.agents.filter keep = [] := hnone
    dsimp only at hbound
    split at hbound
    · exact absurd hbound (by decide)
    · rename_i hnot; exact hnot ⟨hnone', hbound⟩

theorem ItemChange.claimedOk (hkeeps : op.keepsClaimed shape = true) (hok : ClaimedOk shape) :
    ClaimedOk shape' := by
  have honClaim : ∀ {id claimant takeover}, op = .claim id claimant takeover → shape.id = id →
      shape.status ≠ .done → shape.status.onClaim.claimBound = true := by
    intro id claimant takeover hop hid hdone
    have hopen : shape.status ≠ .review ∧ shape.status ≠ .blocked := by
      simpa [hop, ProjectTodoOperation.keepsClaimed, hid] using hkeeps
    obtain ⟨hreview, hblocked⟩ := hopen
    revert hdone hreview hblocked
    cases shape.status <;> decide
  cases h with
  | kept => exact hok
  | parallel => exact hok
  | @moved _ _ status _ _ hid =>
    intro hagents
    by_contra hbound
    have hnot : status.claimBound = false := Bool.eq_false_iff.mpr hbound
    by_cases hdone : status = .done
    · exact hagents (if_pos hdone)
    · have hnone : shape.agents = [] := by
        simpa [ProjectTodoOperation.keepsClaimed, hid, hnot, hdone] using hkeeps
      refine hagents ?_
      rw [if_neg hdone, hnone]
  | joined hid hdone => exact fun _ => honClaim rfl hid hdone
  | tookOver hid hdone => exact fun _ => honClaim rfl hid hdone
  | released keep =>
    intro hagents
    have hsome : shape.agents.filter keep ≠ [] := hagents
    have hbefore : shape.agents ≠ [] := fun hnone => hsome (by rw [hnone, filter_nil])
    rw [if_neg fun h => hsome h.1]
    exact hok hbefore

end

end Changes

end Frogg.Server
