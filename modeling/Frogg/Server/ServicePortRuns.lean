/-
  Subject:   Which service has which port, over every run of the registry.

  A port is taken after a probe, on what was read before it. Two refreshes of one service at a time
  leave the port of the first without a service (`refreshedTwice_leaks`). **`servicePorts_ok`**: in
  the runs in which every port taken may be taken (`PendingPlan.MayTake`, `PendingRefresh.MayTake`)
  no port is shared and none is left.
-/
import Frogg.Library.Transition
import Frogg.Server.DynamicPorts

namespace Frogg.Server

open Library List Option Function JsMap

/-! ## 1. Plans -/

/-- No two services of the plan have one port. -/
def PlanDistinct (plan : PortPlan) : Prop :=
  ∀ a b ea eb, plan.get? a = some ea → plan.get? b = some eb → ea.port = eb.port → a = b

/-- Every port that is not explicit is recorded for its service. -/
def PlanOwned (d : DynamicPorts) (workspaceId : String) (plan : PortPlan) : Prop :=
  ∀ script entry, plan.get? script = some entry → entry.explicit = false →
    d.recorded workspaceId script = some entry.port

theorem planDistinct_empty : PlanDistinct .empty := fun _ _ _ _ => nofun

variable {plan : PortPlan} {scriptName : String} {planned : PlannedPort} {port : Nat}
  {services : List WorkspaceServicePortDeclaration}

theorem planDistinct_set (h : PlanDistinct plan) (hnew : ∀ script entry, script ≠ scriptName →
      plan.get? script = some entry → entry.port ≠ planned.port) :
    PlanDistinct (plan.set scriptName planned) := by
  intro a b ea eb ha hb hports
  rw [get?_set] at ha hb
  split at ha
  · rename_i hsame
    obtain rfl := some.inj ha
    split at hb
    · rename_i hsame'; rw [hsame, hsame']
    · rename_i hne; exact absurd hports.symm (hnew b eb hne hb)
  · rename_i hne
    split at hb
    · obtain rfl := some.inj hb; exact absurd hports (hnew a ea hne ha)
    · exact h a b ea eb ha hb hports

theorem mem_ports_iff : port ∈ PortPlan.ports plan ↔
      ∃ script entry, plan.get? script = some entry ∧ entry.port = port := by
  unfold PortPlan.ports
  rw [List.mem_map]
  constructor
  · intro ⟨entry, hmem, hport⟩
    obtain ⟨script, hget⟩ := mem_values_iff.mp hmem
    exact ⟨script, entry, hget, hport⟩
  · intro ⟨script, entry, hget, hport⟩; exact ⟨entry, mem_values_iff.mpr ⟨script, hget⟩, hport⟩

/-- The declared ports are distinct and none of them is in the plan. -/
structure Fresh (plan : PortPlan) (services : List WorkspaceServicePortDeclaration) : Prop where
  nodup : (services.filterMap (·.port)).Nodup
  new : ∀ port ∈ services.filterMap (·.port), port ∉ PortPlan.ports plan

theorem ports_set (h : port ∈ PortPlan.ports (plan.set scriptName planned)) :
    port = planned.port ∨ port ∈ PortPlan.ports plan := by
  obtain ⟨script, entry, hget, rfl⟩ := mem_ports_iff.mp h
  rw [get?_set] at hget
  split at hget
  · exact .inl (congrArg PlannedPort.port (some.inj hget)).symm
  · exact .inr (mem_ports_iff.mpr ⟨script, entry, hget, rfl⟩)

theorem planExplicit_ok (hdistinct : PlanDistinct plan) (hfresh : Fresh plan services) :
    PlanDistinct (planExplicit plan services).1 ∧
    (∀ script entry, (planExplicit plan services).1.get? script = some entry →
      entry.explicit = false → plan.get? script = some entry) ∧
    ∀ scriptName rest, (planExplicit plan services).2 = some (scriptName, rest) →
      Fresh (planExplicit plan services).1 rest ∧
        ∀ port ∈ rest.filterMap (·.port), port ∈ services.filterMap (·.port) := by
  induction services generalizing plan with
  | nil => exact ⟨hdistinct, fun _ _ h _ => h, fun _ _ => nofun⟩
  | cons service services ih =>
    obtain ⟨scriptName, port⟩ := service
    cases port with
    | none =>
      refine ⟨hdistinct, fun _ _ h _ => h, fun name rest h => ?_⟩
      obtain ⟨rfl, rfl⟩ := Prod.mk.inj (some.inj h)
      exact ⟨⟨hfresh.nodup, hfresh.new⟩, fun port hport => hport⟩
    | some port =>
      have hports : (⟨scriptName, some port⟩ :: services).filterMap
          WorkspaceServicePortDeclaration.port = port :: services.filterMap (·.port) := rfl
      obtain ⟨hnew, hnodup⟩ := nodup_cons.mp (hports ▸ hfresh.nodup)
      have hnotIn : port ∉ PortPlan.ports plan := hfresh.new port (hports ▸ mem_cons_self)
      have hdistinct' : PlanDistinct (plan.set scriptName ⟨port, true⟩) :=
        planDistinct_set hdistinct fun script entry _ hget heq =>
          hnotIn (mem_ports_iff.mpr ⟨script, entry, hget, heq⟩)
      have hfresh' : Fresh (plan.set scriptName ⟨port, true⟩) services := by
        refine ⟨hnodup, fun p hp hin => ?_⟩
        rcases ports_set hin with rfl | hin
        · exact hnew hp
        · exact hfresh.new p (hports ▸ mem_cons_of_mem _ hp) hin
      obtain ⟨h₁, h₂, h₃⟩ := ih hdistinct' hfresh'
      refine ⟨h₁, fun script entry hget hdynamic => ?_, fun name rest h => ?_⟩
      · have hold := h₂ script entry hget hdynamic
        rw [get?_set] at hold
        split at hold
        · rw [← some.inj hold] at hdynamic; cases hdynamic
        · exact hold
      · obtain ⟨hrest, hsub⟩ := h₃ name rest h
        exact ⟨hrest, fun p hp => hports ▸ mem_cons_of_mem _ (hsub p hp)⟩

theorem explicitPortsOf_ok {ports all : List Nat} (h : explicitPortsOf services ports = .ok all)
    (hnodup : ports.Nodup) : all = ports ++ services.filterMap (·.port) ∧ all.Nodup := by
  induction services generalizing ports with
  | nil => obtain rfl := Except.ok.inj h; exact ⟨(append_nil _).symm, hnodup⟩
  | cons service services ih =>
    obtain ⟨scriptName, port⟩ := service
    cases port with
    | none => exact ih h hnodup
    | some port =>
      unfold explicitPortsOf at h
      dsimp only at h
      split at h
      · cases h
      · rename_i hnew
        have hnodup' : (ports ++ [port]).Nodup := by
          refine nodup_append.mpr ⟨hnodup, nodup_singleton _, ?_⟩
          intro p hp q hq heq
          rw [mem_singleton.mp hq] at heq
          exact hnew (heq ▸ hp)
        obtain ⟨hall, hnodup''⟩ := ih h hnodup'
        exact ⟨by rw [hall, append_assoc]; rfl, hnodup''⟩

/-! ## 2. The invariant -/

/-- A pending build: its plan and what is left make distinct ports. -/
structure BuildOk (s : ServicePortRegistry) (workspaceId : String) (build : PendingPlan) :
    Prop where
  distinct : PlanDistinct build.plan
  fresh : Fresh build.plan build.rest
  explicit : ∀ port ∈ build.rest.filterMap (·.port), port ∈ build.explicitPorts
  issued : build.isReleased = false → s.issued workspaceId = true

/-- `workspaceOf` is the workspace a plan object belongs to. -/
structure RegistryOk (workspaceOf : Nat → String) (s : ServicePortRegistry) : Prop where
  agree : s.dynamic.Agree
  distinct : ∀ object, PlanDistinct (s.objects object)
  stored : ∀ w object, s.plans.get? w = some object →
    object < s.nextObject ∧ workspaceOf object = w ∧ PlanOwned s.dynamic w (s.objects object)
  found : ∀ call refresh object, s.refreshes.get? call = some refresh →
    refresh.plan = some object → object < s.nextObject ∧ workspaceOf object = refresh.workspaceId
  builds : ∀ w build, s.builds.get? w = some build → BuildOk s w build
  retired : ∀ w, s.issued w = false → s.plans.get? w = none ∧
    (s.builds.get? w = none → ∀ script, s.dynamic.recorded w script = none)

/-- The workspace has nothing left, but for a build that was released. -/
structure Retired (s : ServicePortRegistry) (workspaceId : String) : Prop where
  plans : s.plans.get? workspaceId = none
  ports : ∀ script, s.dynamic.recorded workspaceId script = none
  builds : ∀ build, s.builds.get? workspaceId = some build → build.isReleased = true

/-- A step of a build leaves the registry well, and nothing where the build failed. -/
def BuildStep (workspaceId : String) (answer : ServicePortRegistry × Option PortSettlement) :
    Prop :=
  ∃ workspaceOf, RegistryOk workspaceOf answer.1 ∧
    ∀ message, answer.2 = some (.failed message) → Retired answer.1 workspaceId

section Invariant

variable {workspaceOf : Nat → String} {s : ServicePortRegistry} {workspaceId : String}

theorem BuildOk.of_issued {s' : ServicePortRegistry} {build : PendingPlan}
    (h : BuildOk s workspaceId build) (hissued : s.issued workspaceId = true →
      s'.issued workspaceId = true) : BuildOk s' workspaceId build :=
  ⟨h.distinct, h.fresh, h.explicit, fun hreleased => hissued (h.issued hreleased)⟩

theorem registryOk_initial : RegistryOk (fun _ => "") .initial :=
  ⟨DynamicPorts.agree_empty, fun _ => planDistinct_empty, fun _ _ => nofun,
    fun _ _ _ => nofun, fun _ _ => nofun, fun _ _ => ⟨rfl, fun _ _ => rfl⟩⟩

section

variable (h : RegistryOk workspaceOf s)
include h

theorem RegistryOk.issue (workspaceId : String) :
    RegistryOk workspaceOf (s.record workspaceId true) := by
  have hissued : ∀ w, s.issued w = true → update s.issued workspaceId true w = true := by
    intro w hw
    by_cases hsame : w = workspaceId
    · rw [hsame, update_self]
    · rw [update_of_ne hsame]; exact hw
  refine ⟨h.agree, h.distinct, h.stored, h.found,
    fun w build hget => (h.builds w build hget).of_issued (hissued w), fun w hw => h.retired w ?_⟩
  exact Bool.eq_false_iff.mpr fun htrue => Bool.false_ne_true (hw.symm.trans (hissued w htrue))

theorem RegistryOk.retire (hretired : Retired s workspaceId) :
    RegistryOk workspaceOf (s.record workspaceId false) := by
  refine ⟨h.agree, h.distinct, h.stored, h.found, fun w build hget => ?_, fun w hw => ?_⟩
  · have hok := h.builds w build hget
    refine ⟨hok.distinct, hok.fresh, hok.explicit, fun hreleased => ?_⟩
    have hne : w ≠ workspaceId := fun hsame =>
      Bool.false_ne_true (hreleased.symm.trans (hretired.builds build (hsame ▸ hget)))
    exact (update_of_ne hne ..).trans (hok.issued hreleased)
  · by_cases hsame : w = workspaceId
    · rw [hsame]; exact ⟨hretired.plans, fun _ => hretired.ports⟩
    · exact h.retired w ((update_of_ne hsame ..).symm.trans hw)

theorem RegistryOk.release (workspaceId : String) :
    RegistryOk workspaceOf (s.releaseWorkspaceServicePortPlan workspaceId) ∧
      Retired (s.releaseWorkspaceServicePortPlan workspaceId) workspaceId := by
  obtain ⟨hagree, hrecorded⟩ := h.agree.releaseWorkspace workspaceId
  have hbuilds : ∀ w build,
      (s.releaseWorkspaceServicePortPlan workspaceId).builds.get? w = some build →
        (w = workspaceId → build.isReleased = true) ∧
          BuildOk (s.releaseWorkspaceServicePortPlan workspaceId) w build := by
    intro w build hget
    unfold ServicePortRegistry.releaseWorkspaceServicePortPlan at hget
    dsimp only at hget
    split at hget
    · rename_i old hold
      rw [get?_set] at hget
      split at hget
      · rename_i hsame
        obtain rfl := some.inj hget
        have hok := h.builds workspaceId old hold
        rw [hsame]
        exact ⟨fun _ => rfl, hok.distinct, hok.fresh, hok.explicit, fun heq => by cases heq⟩
      · exact ⟨fun hsame => absurd hsame ‹_›, (h.builds w build hget).of_issued id⟩
    · rename_i hnone
      refine ⟨fun hsame => ?_, (h.builds w build hget).of_issued id⟩
      rw [hsame, hnone] at hget
      cases hget
  refine ⟨⟨hagree, h.distinct, fun w object hget => ?_, h.found,
    fun w build hget => (hbuilds w build hget).2, fun w hw => ?_⟩,
    ⟨get?_delete_self, fun script => (hrecorded workspaceId script).trans (if_pos rfl),
      fun build hget => (hbuilds workspaceId build hget).1 rfl⟩⟩
  · have hw : w ≠ workspaceId := by
      intro hsame
      have hdeleted : (s.plans.delete workspaceId).get? w = some object := hget
      rw [hsame, get?_delete_self] at hdeleted
      cases hdeleted
    have hold : s.plans.get? w = some object := (get?_delete_of_ne hw).symm.trans hget
    obtain ⟨hlt, hof, howned⟩ := h.stored w object hold
    refine ⟨hlt, hof, fun script entry hentry hdynamic => ?_⟩
    exact ((hrecorded w script).trans (if_neg hw)).trans (howned script entry hentry hdynamic)
  · by_cases hsame : w = workspaceId
    · subst hsame; exact ⟨get?_delete_self, fun _ script => (hrecorded w script).trans (if_pos rfl)⟩
    · obtain ⟨hplans, hports⟩ := h.retired w hw
      refine ⟨(get?_delete_of_ne hsame).trans hplans, fun hnone script => ?_⟩
      have hnone' : s.builds.get? w = none := by
        have hget : (s.releaseWorkspaceServicePortPlan workspaceId).builds.get? w = none := hnone
        unfold ServicePortRegistry.releaseWorkspaceServicePortPlan at hget
        split at hget
        · exact (get?_set_of_ne hsame).symm.trans hget
        · exact hget
      exact ((hrecorded w script).trans (if_neg hsame)).trans (hports hnone' script)

theorem RegistryOk.failBuild (workspaceId message : String) :
    BuildStep workspaceId (s.failBuild workspaceId message) := by
  obtain ⟨hreleased, hretired⟩ := h.release workspaceId
  have hgone : ((s.releaseWorkspaceServicePortPlan workspaceId).builds.delete workspaceId).get?
      workspaceId = none := get?_delete_self
  refine ⟨workspaceOf, ⟨hreleased.agree, hreleased.distinct, hreleased.stored, hreleased.found,
    fun w build hget => ?_, fun w hw => ?_⟩, fun _ _ => ⟨hretired.plans, hretired.ports,
      fun build hget => by cases hgone.symm.trans hget⟩⟩
  · have hne : w ≠ workspaceId := by rintro rfl; cases hgone.symm.trans hget
    exact (hreleased.builds w build ((get?_delete_of_ne hne).symm.trans hget)).of_issued id
  · obtain ⟨hplans, hports⟩ := hreleased.retired w hw
    refine ⟨hplans, fun hbuilds => ?_⟩
    by_cases hsame : w = workspaceId
    · rw [hsame]; exact hretired.ports
    · exact hports ((get?_delete_of_ne hsame).symm.trans hbuilds)

omit h in
theorem BuildStep.record {answer : ServicePortRegistry × Option PortSettlement}
    (h : BuildStep workspaceId answer) :
    ∃ workspaceOf, RegistryOk workspaceOf (ServicePortRegistry.recordBuild workspaceId answer).1 := by
  obtain ⟨workspaceOf, hok, hfailed⟩ := h
  unfold ServicePortRegistry.recordBuild
  split
  · rename_i message heq; exact ⟨workspaceOf, hok.retire (hfailed message heq)⟩
  all_goals exact ⟨workspaceOf, hok⟩

/-- A change of what is pending alone. -/
theorem RegistryOk.setBuild {build : PendingPlan} (hbuild : BuildOk s workspaceId build) :
    RegistryOk workspaceOf { s with builds := s.builds.set workspaceId build } := by
  refine ⟨h.agree, h.distinct, h.stored, h.found, fun w build' hget => ?_, fun w hw => ?_⟩
  · have hget' : (s.builds.set workspaceId build).get? w = some build' := hget
    rw [get?_set] at hget'
    split at hget'
    · rename_i hsame; rw [← some.inj hget', hsame]; exact hbuild.of_issued id
    · exact (h.builds w build' hget').of_issued id
  · obtain ⟨hplans, hports⟩ := h.retired w hw
    refine ⟨hplans, fun hnone => hports ?_⟩
    have hnone' : (s.builds.set workspaceId build).get? w = none := hnone
    rw [get?_set] at hnone'
    split at hnone'
    · cases hnone'
    · exact hnone'

end

variable {d : DynamicPorts}

section

variable (h : RegistryOk workspaceOf s)
include h

/-- A plan object becomes the plan of a workspace that was asked for since its last release. -/
theorem RegistryOk.setPlan {object nextObject : Nat} {workspaceOf' : Nat → String}
    (hagree : d.Agree)
    (hothers : ∀ w script, w ≠ workspaceId → d.recorded w script = s.dynamic.recorded w script)
    (hissued : s.issued workspaceId = true) (hdistinct : PlanDistinct plan)
    (howned : PlanOwned d workspaceId plan) (hnext : s.nextObject ≤ nextObject)
    (hobject : object < nextObject) (hself : workspaceOf' object = workspaceId)
    (hof : ∀ o, o < s.nextObject → workspaceOf' o = workspaceOf o) :
    RegistryOk workspaceOf' { s with
      dynamic := d
      plans := s.plans.set workspaceId object
      objects := update s.objects object plan
      nextObject } := by
  refine ⟨hagree, fun o => ?_, fun w o hget => ?_, fun call refresh o hget hplan => ?_,
    fun w build hget => (h.builds w build hget).of_issued id, fun w hw => ?_⟩
  · show PlanDistinct (update s.objects object plan o)
    by_cases ho : o = object
    · rw [ho, update_self]; exact hdistinct
    · rw [update_of_ne ho]; exact h.distinct o
  · have hget' : (s.plans.set workspaceId object).get? w = some o := hget
    show o < nextObject ∧ workspaceOf' o = w ∧
      PlanOwned d w (update s.objects object plan o)
    rw [get?_set] at hget'
    split at hget'
    · rename_i hsame
      obtain rfl := some.inj hget'
      rw [update_self, hsame]
      exact ⟨hobject, hself, howned⟩
    · rename_i hne
      obtain ⟨hlt, hof', howned'⟩ := h.stored w o hget'
      have ho : o ≠ object := fun heq => hne (by rw [← hof', ← hof o hlt, heq, hself])
      rw [update_of_ne ho]
      refine ⟨by omega, (hof o hlt).trans hof', fun script entry hentry hdynamic => ?_⟩
      exact (hothers w script hne).trans (howned' script entry hentry hdynamic)
  · obtain ⟨hlt, hof'⟩ := h.found call refresh o hget hplan
    exact ⟨Nat.lt_of_lt_of_le hlt hnext, (hof o hlt).trans hof'⟩
  · have hne : w ≠ workspaceId := fun hsame => by
      rw [hsame] at hw
      exact Bool.false_ne_true (hw.symm.trans hissued)
    obtain ⟨hplans, hports⟩ := h.retired w hw
    refine ⟨(get?_set_of_ne hne).trans hplans, fun hbuilds script => ?_⟩
    exact (hothers w script hne).trans (hports hbuilds script)

theorem RegistryOk.storePlan (hagree : d.Agree)
    (hothers : ∀ w script, w ≠ workspaceId → d.recorded w script = s.dynamic.recorded w script)
    (hissued : s.issued workspaceId = true) (hdistinct : PlanDistinct plan)
    (howned : PlanOwned d workspaceId plan) :
    RegistryOk (update workspaceOf s.nextObject workspaceId)
      (({ s with dynamic := d } : ServicePortRegistry).storePlan workspaceId plan) := by
  refine h.setPlan hagree hothers hissued hdistinct howned (Nat.le_succ _) (Nat.lt_succ_self _)
    (update_self ..) fun o ho => ?_
  have hne : o ≠ s.nextObject := by omega
  exact update_of_ne hne ..

/-- A refreshed port put into the plan object the refresh found, or into one of its own. -/
theorem RegistryOk.putPlanned {plan : Option Nat} (hagree : d.Agree)
    (hothers : ∀ w script, ¬ (w = workspaceId ∧ script = scriptName) →
      d.recorded w script = s.dynamic.recorded w script)
    (hplanned : planned.explicit = false → d.recorded workspaceId scriptName = some planned.port)
    (hissued : s.issued workspaceId = true) (hplan : ∀ object, plan = some object →
      (object < s.nextObject ∧ workspaceOf object = workspaceId) ∧
      ∀ script entry, script ≠ scriptName → (s.objects object).get? script = some entry →
        entry.port ≠ planned.port ∧
          (entry.explicit = false → s.dynamic.recorded workspaceId script = some entry.port)) :
    ∃ workspaceOf', RegistryOk workspaceOf'
      (({ s with dynamic := d } : ServicePortRegistry).putPlanned workspaceId scriptName plan
        planned) := by
  have hothers' : ∀ w script, w ≠ workspaceId → d.recorded w script = s.dynamic.recorded w script :=
    fun w script hw => hothers w script fun hsame => hw hsame.1
  have howned : ∀ before : PortPlan, (∀ script entry, script ≠ scriptName →
      before.get? script = some entry → entry.explicit = false →
        s.dynamic.recorded workspaceId script = some entry.port) →
      PlanOwned d workspaceId (before.set scriptName planned) := by
    intro before hbefore script entry hentry hdynamic
    rw [get?_set] at hentry
    split at hentry
    · rename_i hsame
      obtain rfl := some.inj hentry
      rw [hsame]
      exact hplanned hdynamic
    · rename_i hne
      rw [hothers workspaceId script fun hsame => hne hsame.2]
      exact hbefore script entry hne hentry hdynamic
  cases plan with
  | none =>
    refine ⟨_, h.storePlan hagree hothers' hissued ?_ (howned .empty fun _ _ _ h => by cases h)⟩
    exact planDistinct_set planDistinct_empty fun _ _ _ h => by cases h
  | some object =>
    obtain ⟨⟨hlt, hof⟩, hentries⟩ := hplan object rfl
    refine ⟨workspaceOf, h.setPlan hagree hothers' hissued ?_
      (howned _ fun script entry hne hentry => (hentries script entry hne hentry).2)
      (Nat.le_refl _) hlt hof fun _ _ => rfl⟩
    exact planDistinct_set (h.distinct object) fun script entry hne hentry =>
      (hentries script entry hne hentry).1

/-- A pending build is gone; its workspace was asked for since its last release. -/
theorem RegistryOk.deleteBuild (hissued : s.issued workspaceId = true) :
    RegistryOk workspaceOf { s with builds := s.builds.delete workspaceId } := by
  refine ⟨h.agree, h.distinct, h.stored, h.found, fun w build hget => ?_, fun w hw => ?_⟩
  · have hget' : (s.builds.delete workspaceId).get? w = some build := hget
    obtain ⟨-, hget'⟩ := get?_delete_eq_some.mp hget'
    exact (h.builds w build hget').of_issued id
  · have hne : w ≠ workspaceId := fun hsame => by
      rw [hsame] at hw
      exact Bool.false_ne_true (hw.symm.trans hissued)
    obtain ⟨hplans, hports⟩ := h.retired w hw
    exact ⟨hplans, fun hnone => hports ((get?_delete_of_ne hne).symm.trans hnone)⟩

/-- A build that goes on; where it ends, its ports are still its services'. -/
theorem RegistryOk.continueBuild {explicitPorts : List Nat} {isReleased : Bool}
    (hdistinct : PlanDistinct plan) (hfresh : Fresh plan services)
    (hexplicit : ∀ port ∈ services.filterMap (·.port), port ∈ explicitPorts)
    (hissued : isReleased = false → s.issued workspaceId = true)
    (hend : isReleased = false → (planExplicit plan services).2 = none →
      PlanOwned s.dynamic workspaceId plan) :
    BuildStep workspaceId
      (s.continueBuild workspaceId explicitPorts isReleased plan services) := by
  obtain ⟨hdistinct', hentries, hrest⟩ := planExplicit_ok hdistinct hfresh
  unfold ServicePortRegistry.continueBuild
  split
  · rename_i plan' scriptName rest heq
    rw [heq] at hdistinct' hrest
    obtain ⟨hfresh', hsub⟩ := hrest scriptName rest rfl
    exact ⟨workspaceOf, h.setBuild
      ⟨hdistinct', hfresh', fun port hport => hexplicit port (hsub port hport), hissued⟩, nofun⟩
  · rename_i plan' heq
    rw [heq] at hdistinct' hentries hend
    split
    · exact h.failBuild workspaceId _
    · rename_i hreleased
      have hreleased' : isReleased = false := Bool.eq_false_iff.mpr hreleased
      have howned : PlanOwned s.dynamic workspaceId plan' := fun script entry hget hdynamic =>
        hend hreleased' rfl script entry (hentries script entry hget hdynamic) hdynamic
      have hstored := h.storePlan h.agree (fun _ _ _ => rfl) (hissued hreleased') hdistinct' howned
      exact ⟨_, hstored.deleteBuild (hissued hreleased'), nofun⟩

/-- Only what is pending of the refreshes changes. -/
theorem RegistryOk.setRefreshes {refreshes : JsMap Nat PendingRefresh} {nextCall : Nat}
    (hfound : ∀ call refresh object, refreshes.get? call = some refresh →
      refresh.plan = some object → object < s.nextObject ∧
        workspaceOf object = refresh.workspaceId) :
    RegistryOk workspaceOf { s with refreshes, nextCall } :=
  ⟨h.agree, h.distinct, h.stored, hfound,
    fun w build hget => (h.builds w build hget).of_issued id, h.retired⟩

/-- Only the dynamic ports of one service change, while a build of its workspace is pending. -/
theorem RegistryOk.setDynamic (hagree : d.Agree)
    (hothers : ∀ w script, ¬ (w = workspaceId ∧ script = scriptName) →
      d.recorded w script = s.dynamic.recorded w script)
    (hkept : ∀ port, s.dynamic.recorded workspaceId scriptName = some port →
      d.recorded workspaceId scriptName = some port) (hpending : s.builds.get? workspaceId ≠ none) :
    RegistryOk workspaceOf { s with dynamic := d } := by
  refine ⟨hagree, h.distinct, fun w object hget => ?_, h.found,
    fun w build hget => (h.builds w build hget).of_issued id, fun w hw => ?_⟩
  · obtain ⟨hlt, hof, howned⟩ := h.stored w object hget
    refine ⟨hlt, hof, fun script entry hentry hdynamic => ?_⟩
    have hrec := howned script entry hentry hdynamic
    by_cases hsame : w = workspaceId ∧ script = scriptName
    · rw [hsame.1, hsame.2] at hrec ⊢; exact hkept _ hrec
    · exact (hothers w script hsame).trans hrec
  · obtain ⟨hplans, hports⟩ := h.retired w hw
    refine ⟨hplans, fun hbuilds script => ?_⟩
    have hne : ¬ (w = workspaceId ∧ script = scriptName) := fun hsame =>
      hpending (hsame.1 ▸ hbuilds)
    exact (hothers w script hne).trans (hports hbuilds script)

end

end Invariant

/-! ## 3. Events -/

/-- The answer is a port the build takes: its service has no other port, no other service goes by
    its owner, and where the build ends its services have the ports it reserved for them still. -/
structure PendingPlan.MayTake (s : ServicePortRegistry) (workspaceId : String) (build : PendingPlan)
    (port : Nat) : Prop where
  alone : s.dynamic.Alone workspaceId build.scriptName
  recorded : s.dynamic.recorded workspaceId build.scriptName = none ∨
    s.dynamic.recorded workspaceId build.scriptName = some port
  kept : build.isReleased = false →
    (planExplicit (build.plan.set build.scriptName ⟨port, false⟩) build.rest).2 = none →
      ∀ script entry, script ≠ build.scriptName → build.plan.get? script = some entry →
        entry.explicit = false → s.dynamic.recorded workspaceId script = some entry.port

/-- The answer is a port the refresh takes: its service has no port but this one or the one it had
    when the refresh was called, no other service goes by its owner, a call was issued since the
    last release, and the other services of the plan found have ports of their own still. -/
structure PendingRefresh.MayTake (s : ServicePortRegistry) (refresh : PendingRefresh) (port : Nat) :
    Prop where
  alone : s.dynamic.Alone refresh.workspaceId refresh.scriptName
  recorded : s.dynamic.recorded refresh.workspaceId refresh.scriptName = none ∨
    s.dynamic.recorded refresh.workspaceId refresh.scriptName = some port ∨
    s.dynamic.recorded refresh.workspaceId refresh.scriptName = refresh.oldDynamicPort
  issued : s.issued refresh.workspaceId = true
  others : ∀ object, refresh.plan = some object → ∀ script entry, script ≠ refresh.scriptName →
    (s.objects object).get? script = some entry → entry.port ≠ port ∧
      (entry.explicit = false → s.dynamic.recorded refresh.workspaceId script = some entry.port)

/-- A port that is taken may be taken. -/
def PortEvent.Orderly (s : ServicePortRegistry) : PortEvent → Prop
  | .buildAnswered workspaceId (.ok port) => ∀ build, s.builds.get? workspaceId = some build →
      portAttempt s.dynamic (build.explicitPorts ++ PortPlan.ports build.plan)
        (toServiceOwner workspaceId build.scriptName) build.attempt port = .reserved →
          build.MayTake s workspaceId port
  | .refreshAnswered call (.ok port) => ∀ refresh, s.refreshes.get? call = some refresh →
      portAttempt s.dynamic refresh.reservedPorts
        (toServiceOwner refresh.workspaceId refresh.scriptName) refresh.attempt port = .reserved →
          refresh.MayTake s port
  | _ => True

section Events

variable {workspaceOf : Nat → String} {s : ServicePortRegistry} {workspaceId : String}

theorem portAttempt_reserved {d : DynamicPorts} {reservedPorts : List Nat} {serviceOwner : String}
    {attempt : Nat} (h : portAttempt d reservedPorts serviceOwner attempt port = .reserved) :
    port ∉ reservedPorts ∧ ∀ owner, d.owners.get? port = some owner → owner = serviceOwner := by
  unfold portAttempt at h
  split at h
  · split at h
    · cases h
    · cases h
  · rename_i hfree
    rw [not_or] at hfree
    refine ⟨hfree.1, fun owner howner => ?_⟩
    by_contra hne
    refine hfree.2 ?_
    rw [howner, any_some]
    exact decide_eq_true hne

variable {s' : ServicePortRegistry} {settled : Option PortSettlement}

section

variable (h : RegistryOk workspaceOf s)
include h

theorem registryOk_buildAnswered {answer : Except String Nat}
    (horderly : PortEvent.Orderly s (.buildAnswered workspaceId answer))
    {next : ServicePortRegistry × Option PortSettlement}
    (hnext : s.buildAnswered workspaceId answer = some next) : BuildStep workspaceId next := by
  obtain ⟨build, hbuild, hnext⟩ := map_eq_some_iff.mp hnext
  have hok := h.builds workspaceId build hbuild
  cases answer with
  | error message => rw [← hnext]; exact h.failBuild workspaceId message
  | ok port =>
    dsimp only at hnext
    split at hnext
    · rw [← hnext]
      exact ⟨workspaceOf, h.setBuild ⟨hok.distinct, hok.fresh, hok.explicit, hok.issued⟩, nofun⟩
    · rw [← hnext]; exact h.failBuild workspaceId (couldNotAllocate build.scriptName)
    · rename_i hreserved
      obtain ⟨hnew, howner⟩ := portAttempt_reserved hreserved
      rw [mem_append, not_or] at hnew
      obtain ⟨halone, hrecorded, hkept⟩ := horderly build hbuild hreserved
      have hpending : s.builds.get? workspaceId ≠ none := by rw [hbuild]; exact some_ne_none build
      have hview := fun w script => @DynamicPorts.recorded_reserve s.dynamic workspaceId
        build.scriptName w script port
      have hothers : ∀ w script, ¬ (w = workspaceId ∧ script = build.scriptName) →
          (s.dynamic.reserveDynamicPort workspaceId build.scriptName port).recorded w script =
            s.dynamic.recorded w script := fun w script hne => (hview w script).trans (if_neg hne)
      have hself := (hview workspaceId build.scriptName).trans (if_pos ⟨rfl, rfl⟩)
      have hdynamic := h.setDynamic (h.agree.reserve halone howner hrecorded) hothers
        (fun old hold => by
          rcases hrecorded with hnone | hsome
          · rw [hnone] at hold; cases hold
          · rw [hself, ← hold, hsome]) hpending
      rw [← hnext]
      refine hdynamic.continueBuild ?_ ⟨hok.fresh.nodup, fun p hp hin => ?_⟩ hok.explicit
        hok.issued fun hreleased hend script entry hentry hentryDynamic => ?_
      · exact planDistinct_set hok.distinct fun script entry _ hget heq =>
          hnew.2 (mem_ports_iff.mpr ⟨script, entry, hget, heq⟩)
      · rcases ports_set hin with rfl | hold
        · exact hnew.1 (hok.explicit _ hp)
        · exact hok.fresh.new p hp hold
      · rw [get?_set] at hentry
        split at hentry
        · rename_i hsame
          obtain rfl := some.inj hentry
          rw [hsame]
          exact hself
        · rename_i hne
          refine (hothers workspaceId script fun hsame => hne hsame.2).trans ?_
          exact hkept hreleased hend script entry hne hentry hentryDynamic

theorem RegistryOk.deleteRefresh (call : Nat) :
    RegistryOk workspaceOf { s with refreshes := s.refreshes.delete call } := by
  refine h.setRefreshes fun other refresh object hget hplan => ?_
  obtain ⟨-, hget⟩ := get?_delete_eq_some.mp hget
  exact h.found other refresh object hget hplan

theorem RegistryOk.setRefresh {call nextCall : Nat} {refresh : PendingRefresh}
    (hfound : ∀ object, refresh.plan = some object →
      object < s.nextObject ∧ workspaceOf object = refresh.workspaceId) :
    RegistryOk workspaceOf { s with refreshes := s.refreshes.set call refresh, nextCall } := by
  refine h.setRefreshes fun other refresh' object hget hplan => ?_
  rw [get?_set] at hget
  split at hget
  · obtain rfl := some.inj hget; exact hfound object hplan
  · exact h.found other refresh' object hget hplan

theorem registryOk_refreshAnswered {call : Nat} {answer : Except String Nat}
    (horderly : PortEvent.Orderly s (.refreshAnswered call answer))
    (hnext : s.refreshAnswered call answer = some (s', settled)) :
    ∃ workspaceOf', RegistryOk workspaceOf' s' := by
  obtain ⟨refresh, hrefresh, hnext⟩ := map_eq_some_iff.mp hnext
  have hdeleted := h.deleteRefresh call
  cases answer with
  | error message => obtain rfl := (Prod.mk.inj hnext).1; exact ⟨workspaceOf, hdeleted⟩
  | ok port =>
    dsimp only at hnext
    split at hnext
    · obtain rfl := (Prod.mk.inj hnext).1
      exact ⟨workspaceOf, h.setRefresh fun object => h.found call refresh object hrefresh⟩
    · obtain rfl := (Prod.mk.inj hnext).1; exact ⟨workspaceOf, hdeleted⟩
    · rename_i hreserved
      obtain ⟨-, howner⟩ := portAttempt_reserved hreserved
      obtain ⟨halone, hrecorded, hissued, hothers⟩ := horderly refresh hrefresh hreserved
      have hview := fun w script => @DynamicPorts.recorded_taken s.dynamic refresh.workspaceId
        refresh.scriptName w script port refresh.oldDynamicPort
      have hstate := (Prod.mk.inj hnext).1
      rw [← hstate]
      exact hdeleted.putPlanned (h.agree.taken halone howner hrecorded)
        (fun w script hne => (hview w script).trans (if_neg hne))
        (fun _ => (hview _ _).trans (if_pos ⟨rfl, rfl⟩)) hissued
        fun object hplan => ⟨h.found call refresh object hrefresh hplan, hothers object hplan⟩

theorem registryOk_ensure (hissued : s.issued workspaceId = true)
    (services : List WorkspaceServicePortDeclaration) :
    BuildStep workspaceId (s.ensureWorkspaceServicePortPlan workspaceId services) := by
  unfold ServicePortRegistry.ensureWorkspaceServicePortPlan
  split
  · exact ⟨workspaceOf, h, fun _ heq => by cases heq⟩
  · split
    · exact ⟨workspaceOf, h, fun _ heq => by cases heq⟩
    · split
      · exact h.failBuild workspaceId _
      · rename_i explicitPorts hexplicit
        obtain ⟨hall, hnodup⟩ := explicitPortsOf_ok hexplicit nodup_nil
        rw [hall] at hnodup
        refine h.continueBuild planDistinct_empty ⟨hnodup, fun port _ hin => ?_⟩
          (fun port hport => hall ▸ hport) (fun _ => hissued)
          fun _ _ script entry hget => (by cases hget)
        obtain ⟨script, entry, hget, -⟩ := mem_ports_iff.mp hin
        cases hget

theorem registryOk_refresh (hissued : s.issued workspaceId = true)
    (service : WorkspaceServicePortDeclaration) : ∃ workspaceOf', RegistryOk workspaceOf'
      (s.refreshWorkspaceServicePort workspaceId service).1 := by
  unfold ServicePortRegistry.refreshWorkspaceServicePort
  dsimp only
  cases service.port with
  | some port =>
    dsimp only
    split_ifs with hfree
    · exact ⟨workspaceOf, h⟩
    · refine h.putPlanned (h.agree.giveUp workspaceId service.scriptName port)
        (fun w script hne => DynamicPorts.recorded_giveUp hne)
        (fun heq => by cases heq) hissued fun object hobject => ?_
      obtain ⟨hlt, hof, howned⟩ := h.stored workspaceId object hobject
      refine ⟨⟨hlt, hof⟩, fun script entry hne hentry =>
        ⟨fun heq => ?_, howned script entry hentry⟩⟩
      rw [hobject] at hfree
      refine hfree ?_
      have hmem : port ∈ PortPlan.ports (s.objects object) :=
        mem_ports_iff.mpr ⟨script, entry, hentry, heq⟩
      split
      · rename_i previous hprevious
        refine mem_filter.mpr ⟨hmem, decide_eq_true fun hsame => hne ?_⟩
        exact h.distinct object script service.scriptName entry previous hentry hprevious
          (heq.trans hsame)
      · exact hmem
  | none =>
    refine ⟨workspaceOf, h.setRefresh fun object hobject => ?_⟩
    obtain ⟨hlt, hof, -⟩ := h.stored workspaceId object hobject
    exact ⟨hlt, hof⟩

/-- **One event** keeps the invariant where a port that is taken may be taken. -/
theorem registryOk_next {event : PortEvent} (horderly : event.Orderly s)
    (hnext : s.next event = some (s', settled)) : ∃ workspaceOf', RegistryOk workspaceOf' s' := by
  cases event with
  | ensure workspaceId services =>
    obtain ⟨rfl, -⟩ := Prod.mk.inj (some.inj hnext)
    exact (registryOk_ensure (h.issue workspaceId) (update_self ..) services).record
  | refresh workspaceId service =>
    obtain ⟨rfl, -⟩ := Prod.mk.inj (some.inj hnext)
    exact registryOk_refresh (h.issue workspaceId) (update_self ..) service
  | release workspaceId =>
    obtain ⟨rfl, -⟩ := Prod.mk.inj (some.inj hnext)
    exact ⟨workspaceOf, (h.release workspaceId).1.retire (h.release workspaceId).2⟩
  | buildAnswered workspaceId answer =>
    obtain ⟨answered, hanswered, heq⟩ := map_eq_some_iff.mp hnext
    rw [show s' = _ from congrArg Prod.fst heq.symm]
    exact (registryOk_buildAnswered h horderly hanswered).record
  | refreshAnswered call answer => exact registryOk_refreshAnswered h horderly hnext

end

end Events

/-! ## 4. Runs -/

/-- The registry in the runs whose events are `allowed`. -/
def portSystem (allowed : ServicePortRegistry → PortEvent → Prop) :
    TransitionSystem ServicePortRegistry where
  init s := s = .initial
  step s s' := ∃ event settled, allowed s event ∧ s.next event = some (s', settled)

/-- Both maps hold the same ports, no port has two services, the ports of a plan are distinct and
    recorded where they are not explicit, and a workspace that was released, or whose build failed,
    has nothing unless a call was issued since or its build is pending still. -/
structure PortsOk (s : ServicePortRegistry) : Prop where
  same : ∀ port owner, s.dynamic.owners.get? port = some owner ↔
    ∃ w script, toServiceOwner w script = owner ∧ s.dynamic.recorded w script = some port
  unshared : ∀ port w script w' script', s.dynamic.recorded w script = some port →
    s.dynamic.recorded w' script' = some port → w = w' ∧ script = script'
  distinct : ∀ w object, s.plans.get? w = some object → PlanDistinct (s.objects object)
  owned : ∀ w object, s.plans.get? w = some object → PlanOwned s.dynamic w (s.objects object)
  settled : ∀ w, s.issued w = false → s.builds.get? w = none →
    s.plans.get? w = none ∧ ∀ script, s.dynamic.recorded w script = none

theorem RegistryOk.portsOk {workspaceOf : Nat → String} {s : ServicePortRegistry}
    (h : RegistryOk workspaceOf s) : PortsOk s := by
  refine ⟨h.agree.same, fun port w script w' script' hrec hrec' => ?_,
    fun w object _ => h.distinct object, fun w object hget => (h.stored w object hget).2.2,
    fun w hissued hbuilds => ⟨(h.retired w hissued).1, (h.retired w hissued).2 hbuilds⟩⟩
  have howner := (h.agree.same port _).mpr ⟨w, script, rfl, hrec⟩
  have howner' := (h.agree.same port _).mpr ⟨w', script', rfl, hrec'⟩
  have htexts := mem_unique howner howner'
  have hsome : s.dynamic.recorded w script ≠ none := by rw [hrec]; exact some_ne_none port
  have hsome' : s.dynamic.recorded w' script' ≠ none := by rw [hrec']; exact some_ne_none port
  exact h.agree.alone w' script' hsome' w script hsome htexts

/-- **The ports in every run** whose calls take only what they may take. -/
theorem servicePorts_ok {s : ServicePortRegistry}
    (h : (portSystem fun s event => event.Orderly s).Reachable s) : PortsOk s := by
  have hinv : ∃ workspaceOf, RegistryOk workspaceOf s := by
    refine @TransitionSystem.Reachable.invariant _ _
      (fun s => ∃ workspaceOf, RegistryOk workspaceOf s) ?_ ?_ s h
    · intro s hinit; rw [hinit]; exact ⟨_, registryOk_initial⟩
    · intro s s' ⟨workspaceOf, hok⟩ ⟨event, settled, horderly, hnext⟩
      exact registryOk_next hok horderly hnext
  obtain ⟨workspaceOf, hok⟩ := hinv
  exact hok.portsOk

/-- The state after the events; an answer nobody waits for does nothing. -/
def portsAfter (s : ServicePortRegistry) : List PortEvent → ServicePortRegistry
  | [] => s
  | event :: events =>
    match s.next event with
    | some (s', _) => portsAfter s' events
    | none => portsAfter s events

/-- Each of the events is allowed where it comes. -/
def AllAllowed (allowed : ServicePortRegistry → PortEvent → Prop) (s : ServicePortRegistry) :
    List PortEvent → Prop
  | [] => True
  | event :: events =>
    allowed s event ∧ AllAllowed allowed (((s.next event).map Prod.fst).getD s) events

theorem portsAfter_reachable {allowed : ServicePortRegistry → PortEvent → Prop}
    {s : ServicePortRegistry} (h : (portSystem allowed).Reachable s) (events : List PortEvent)
    (hall : AllAllowed allowed s events) : (portSystem allowed).Reachable (portsAfter s events) := by
  induction events generalizing s with
  | nil => exact h
  | cons event events ih =>
    obtain ⟨hallowed, hall⟩ := hall
    unfold portsAfter
    cases hnext : s.next event with
    | some next => rw [hnext] at hall; exact ih (h.step ⟨event, next.2, hallowed, hnext⟩) hall
    | none => rw [hnext] at hall; exact ih h hall

/-- Two refreshes of one service at a time, then a release. -/
def refreshedTwice : ServicePortRegistry :=
  portsAfter .initial [.refresh "w" ⟨"a", none⟩, .refresh "w" ⟨"a", none⟩,
    .refreshAnswered 0 (.ok 4000), .refreshAnswered 1 (.ok 4001), .release "w"]

/-- The port of the first refresh has an owner for ever. -/
theorem refreshedTwice_leaks :
    (portSystem fun _ _ => True).Reachable refreshedTwice ∧ ¬ PortsOk refreshedTwice := by
  refine ⟨portsAfter_reachable (.of_init rfl) _ ⟨trivial, trivial, trivial, trivial, trivial,
    trivial⟩, fun hok => ?_⟩
  have howner : refreshedTwice.dynamic.owners.get? 4000 = some (toServiceOwner "w" "a") := by
    decide
  have hempty : refreshedTwice.dynamic.byWorkspace = .empty := by decide
  obtain ⟨w, script, -, hrec⟩ := (hok.same 4000 _).mp howner
  unfold DynamicPorts.recorded at hrec
  cases hrec

theorem alone_of_entries {d : DynamicPorts} {workspaceId scriptName : String}
    (h : ∀ e ∈ d.byWorkspace.entries, ∀ f ∈ e.2.entries,
      toServiceOwner e.1 f.1 = toServiceOwner workspaceId scriptName →
        e.1 = workspaceId ∧ f.1 = scriptName) : d.Alone workspaceId scriptName := by
  intro w script hsome howner
  obtain ⟨port, hport⟩ := ne_none_iff_exists'.mp hsome
  obtain ⟨ports, hports, hscript⟩ := bind_eq_some_iff.mp hport
  exact h (w, ports) (get?_eq_some_iff.mp hports) (script, port)
    (get?_eq_some_iff.mp hscript) howner

/-- Two workspaces with builds that come in between each other, a port that is taken already, a
    refresh and a release. -/
def ensuringAll : List PortEvent :=
  [.ensure "w" [⟨"a", none⟩, ⟨"b", some 5000⟩, ⟨"c", none⟩], .ensure "v" [⟨"a", none⟩],
    .buildAnswered "w" (.ok 4000), .buildAnswered "v" (.ok 4000), .buildAnswered "w" (.ok 4001),
    .buildAnswered "v" (.ok 4002), .refresh "w" ⟨"a", none⟩, .refreshAnswered 0 (.ok 4003)]

def ensured : ServicePortRegistry := portsAfter .initial ensuringAll

/-- The refreshed ports, and none of the released workspace. -/
theorem ensured_ok : PortsOk ensured ∧ PortsOk (portsAfter ensured [.release "w"]) ∧
    ensured.dynamic.recorded "w" "a" = some 4003 ∧ ensured.dynamic.recorded "v" "a" = some 4002 ∧
    (portsAfter ensured [.release "w"]).dynamic.owners.entries = [(4002, "v\x00a")] := by
  have hensured : (portSystem fun s event => event.Orderly s).Reachable ensured := by
    refine portsAfter_reachable (.of_init rfl) _ ⟨trivial, trivial, ?_, ?_, ?_, ?_, trivial, ?_,
      trivial⟩
    · intro build hbuild _
      obtain rfl := some.inj hbuild
      exact ⟨alone_of_entries (by decide), .inl rfl, fun _ => nofun⟩
    · intro build hbuild hreserved; obtain rfl := some.inj hbuild; cases hreserved
    · intro build hbuild _
      obtain rfl := some.inj hbuild
      have hplan : ∀ e ∈ [("a", (⟨4000, false⟩ : PlannedPort)), ("b", ⟨5000, true⟩)],
          e.2.explicit = false →
            (portsAfter .initial (ensuringAll.take 4)).dynamic.recorded "w" e.1 =
              some e.2.port := by decide
      exact ⟨alone_of_entries (by decide), .inl rfl, fun _ _ script entry _ hget =>
        hplan (script, entry) (get?_eq_some_iff.mp hget)⟩
    · intro build hbuild _
      obtain rfl := some.inj hbuild
      exact ⟨alone_of_entries (by decide), .inl rfl,
        fun _ _ script entry _ hget => by cases hget⟩
    · intro refresh hrefresh _
      obtain rfl := some.inj hrefresh
      have hplan : ∀ e ∈ [("a", (⟨4000, false⟩ : PlannedPort)), ("b", ⟨5000, true⟩),
          ("c", ⟨4001, false⟩)], e.1 ≠ "a" → e.2.port ≠ 4003 ∧ (e.2.explicit = false →
            (portsAfter .initial (ensuringAll.take 7)).dynamic.recorded "w" e.1 =
              some e.2.port) := by decide
      refine ⟨alone_of_entries (by decide), .inr (.inr rfl), rfl,
        fun object hobject script entry hne hget => ?_⟩
      obtain rfl := some.inj hobject
      exact hplan (script, entry) (get?_eq_some_iff.mp hget) hne
  exact ⟨servicePorts_ok hensured,
    servicePorts_ok (portsAfter_reachable hensured [.release "w"] ⟨trivial, trivial⟩),
    by decide, by decide, by decide⟩

end Frogg.Server
