/-
  Subject:   What holds of the git process scheduler in every run.

  * `Inv`: the counters of the scheduler are the lengths of what they count, and every call is at
    one place: in a queue, kept by the throttle, executing, or exited.
  * `Drained`: work that could be admitted has a drain scheduled for it.
  * `Told`: the calls, starts and exits of the state are those of the moves of the run.
  * `reachable_inv`, `reachable_drained`: both hold in every state that a run reaches.
  * `reachable_safe`: what follows for the limit, the starts, the promises and the order.
-/
import Frogg.Server.GitProcessScheduler

namespace Frogg.Server.GitProcesses

open Library List

namespace GitProcessScheduler

variable {policy : GitProcessPolicy} {s s' : GitProcessScheduler} {call : Nat}
  {priority : GitProcessPriority}

/-! ## 1. The record -/

section

variable (s : GitProcessScheduler)

def handedCalls : List Nat := s.handed.map (·.call)

def exitedCalls : List Nat := s.exited.map Prod.fst

def settledCalls : List Nat := s.settled.map Prod.fst

variable (priority : GitProcessPriority)

/-- The calls of one priority that were handed to the throttle, in the order of their shifts. -/
def handedOf : List Nat :=
  (s.handed.filter (·.priority = priority)).map (·.call)

/-- The calls of one priority, in the order they were made. -/
def callsOf : List Nat :=
  (s.calls.zipIdx.filter (·.1 = priority)).map Prod.snd

end

/-- The counters count, and each call is at one place. -/
structure Inv (policy : GitProcessPolicy) (s : GitProcessScheduler) : Prop where
  flagged : s.immediates = s.drainScheduled.toNat
  bounded : s.admitted ≤ policy.maxProcessConcurrency
  admitted : s.admitted = s.throttled.length + s.executing.length
  running : s.running = s.executing.length
  waiting : s.waiting =
    s.highPriorityQueue.length + s.normalPriorityQueue.length + s.throttled.length
  numbered : (s.handedCalls ++ (s.highPriorityQueue ++ s.normalPriorityQueue)).Perm
    (range s.calls.length)
  places : s.handedCalls.Perm (s.throttled ++ (s.executing ++ s.exitedCalls))
  ordered : ∀ priority, s.handedOf priority ++ s.queue priority = s.callsOf priority
  prior : ∀ a ∈ s.handed, a.priority = .normal → a.highWaiting = 0
  startedOnce : s.started.Nodup
  startedPlace : ∀ c ∈ s.started, c ∈ s.executing ++ s.exitedCalls
  settledOnce : s.settledCalls.Nodup
  settledPlace : ∀ c ∈ s.settledCalls, c ∈ s.executing ++ s.exitedCalls
  resultsPlace : ∀ c ∈ s.results, c ∈ s.executing ++ s.exitedCalls
  unsettled : ∀ c ∈ s.executing ++ s.exitedCalls, c ∈ s.settledCalls ∨ c ∈ s.results
  failed : ∀ c, (c, Exit.failed) ∈ s.exited → c ∈ s.settledCalls

/-- Work that could be admitted has a drain scheduled. -/
def Drained (policy : GitProcessPolicy) (s : GitProcessScheduler) : Prop :=
  (s.highPriorityQueue ≠ [] ∨ s.normalPriorityQueue ≠ []) →
    s.admitted < policy.maxProcessConcurrency → s.drainScheduled = true

theorem Inv.handed_nodup (h : s.Inv policy) : s.handedCalls.Nodup :=
  (nodup_append.mp (h.numbered.nodup_iff.mpr nodup_range)).1

theorem Inv.places_nodup (h : s.Inv policy) :
    (s.throttled ++ (s.executing ++ s.exitedCalls)).Nodup := h.places.nodup_iff.mp h.handed_nodup

theorem inv_empty : empty.Inv policy where
  flagged := rfl
  bounded := Nat.zero_le _
  admitted := rfl
  running := rfl
  waiting := rfl
  numbered := List.Perm.refl _
  places := List.Perm.refl _
  ordered priority := by cases priority <;> rfl
  prior a ha := absurd ha not_mem_nil
  startedOnce := nodup_nil
  startedPlace c hc := absurd hc not_mem_nil
  settledOnce := nodup_nil
  settledPlace c hc := absurd hc not_mem_nil
  resultsPlace c hc := absurd hc not_mem_nil
  unsettled c hc := absurd hc not_mem_nil
  failed c hc := absurd hc not_mem_nil

/-! ## 2. Settling and scheduling -/

theorem settle_eq (call : Nat) (how : Settlement) (s : GitProcessScheduler) :
    ∃ settled, s.settle call how = { s with settled := settled } ∧
      (s.settledCalls.Nodup → (settled.map Prod.fst).Nodup) ∧
      (∀ c, c ∈ settled.map Prod.fst ↔ c ∈ s.settledCalls ∨ c = call) := by
  unfold settle
  split
  · rename_i hmem
    refine ⟨s.settled, rfl, id, fun c => ⟨Or.inl, ?_⟩⟩
    rintro (hc | rfl)
    · exact hc
    · exact hmem
  · rename_i hmem
    refine ⟨_, rfl, fun hnodup => ?_, fun c => ?_⟩
    · rw [map_append]
      refine nodup_append.mpr ⟨hnodup, nodup_singleton _, ?_⟩
      intro a ha b hb hab
      obtain rfl : b = call := mem_singleton.mp hb
      exact hmem (hab ▸ ha)
    · rw [map_append, mem_append, map_singleton, mem_singleton]; rfl

theorem scheduleDrain_eq (policy : GitProcessPolicy) (s : GitProcessScheduler) :
    ∃ flag immediates, s.scheduleDrain policy =
        { s with drainScheduled := flag, immediates := immediates } ∧
      (s.immediates = s.drainScheduled.toNat → immediates = flag.toNat) ∧
      ((s.highPriorityQueue ≠ [] ∨ s.normalPriorityQueue ≠ []) →
        s.admitted < policy.maxProcessConcurrency → flag = true) := by
  unfold scheduleDrain
  split
  · rename_i hfull
    refine ⟨s.drainScheduled, s.immediates, rfl, id, fun _ hroom => ?_⟩
    exact hfull.resolve_right (Nat.not_le.mpr hroom)
  · rename_i hroom
    obtain ⟨hidle, -⟩ := not_or.mp hroom
    split
    · rename_i hnone
      refine ⟨s.drainScheduled, s.immediates, rfl, id, fun hwork _ => ?_⟩
      exact absurd hwork (by simp [hnone.1, hnone.2])
    · refine ⟨true, s.immediates + 1, rfl, fun hflag => ?_, fun _ _ => rfl⟩
      rw [hflag, eq_false_of_ne_true hidle]
      rfl

theorem Inv.settle (h : s.Inv policy) (hmem : call ∈ s.executing ++ s.exitedCalls)
    (how : Settlement) : (s.settle call how).Inv policy := by
  obtain ⟨settled, heq, hnodup, hsettled⟩ := settle_eq call how s
  rw [heq]
  refine { h with
    settledOnce := hnodup h.settledOnce, settledPlace := ?_, unsettled := ?_, failed := ?_ }
  · intro c hc
    rcases (hsettled c).mp hc with hc | rfl
    · exact h.settledPlace c hc
    · exact hmem
  · exact fun c hc => (h.unsettled c hc).imp_left fun hc => (hsettled c).mpr (.inl hc)
  · exact fun c hc => (hsettled c).mpr (.inl (h.failed c hc))

theorem Inv.scheduleDrain (h : s.Inv policy) : (s.scheduleDrain policy).Inv policy := by
  obtain ⟨flag, immediates, heq, hflag, -⟩ := scheduleDrain_eq policy s
  rw [heq]
  exact { h with flagged := hflag h.flagged }

theorem drained_scheduleDrain (policy : GitProcessPolicy) (s : GitProcessScheduler) :
    (s.scheduleDrain policy).Drained policy := by
  obtain ⟨flag, immediates, heq, -, hdrained⟩ := scheduleDrain_eq policy s
  rw [heq]
  exact hdrained

/-! ## 3. A call on its way -/

theorem perm_erase_concat {as : List Nat} (bs : List Nat) (hmem : call ∈ as) :
    (as ++ bs).Perm (as.erase call ++ (bs ++ [call])) := by
  calc (as ++ bs).Perm (call :: as.erase call ++ bs) :=
        (perm_cons_erase hmem).append_right bs
    _ |>.Perm (as.erase call ++ (call :: bs)) := perm_middle.symm
    _ |>.Perm (as.erase call ++ (bs ++ [call])) :=
        (perm_append_singleton call bs).symm.append_left _

theorem exitedCalls_concat (s : GitProcessScheduler) (call : Nat) (how : Exit) :
    (s.exited ++ [(call, how)]).map Prod.fst = s.exitedCalls ++ [call] := map_append

/-- A call leaves `execute`; one that failed has its promise settled by then. -/
theorem Inv.finish (h : s.Inv policy) (hmem : call ∈ s.executing) {how : Exit}
    (hfailed : how = .failed → call ∈ s.settledCalls) : (s.finish policy call how).Inv policy := by
  have hmoved := perm_erase_concat s.exitedCalls hmem
  have hlength := length_erase_of_mem hmem
  have hpositive := length_pos_of_mem hmem
  have hadmitted := h.admitted
  have hrunning := h.running
  have hbounded := h.bounded
  refine Inv.scheduleDrain { h with
    bounded := ?_, admitted := ?_, running := ?_, places := ?_, startedPlace := ?_
    settledPlace := ?_, resultsPlace := ?_, unsettled := ?_, failed := ?_ }
  · show s.admitted - 1 ≤ _; omega
  · show s.admitted - 1 = s.throttled.length + (s.executing.erase call).length; omega
  · show s.running - 1 = (s.executing.erase call).length; omega
  · show s.handedCalls.Perm (s.throttled ++ (_ ++ (s.exited ++ [(call, how)]).map Prod.fst))
    rw [exitedCalls_concat]
    exact h.places.trans (hmoved.append_left _)
  all_goals
    simp only [exitedCalls, exitedCalls_concat]
  · exact fun c hc => hmoved.mem_iff.mp (h.startedPlace c hc)
  · exact fun c hc => hmoved.mem_iff.mp (h.settledPlace c hc)
  · exact fun c hc => hmoved.mem_iff.mp (h.resultsPlace c hc)
  · exact fun c hc => h.unsettled c (hmoved.mem_iff.mpr hc)
  · intro c hc
    rcases mem_append.mp hc with hc | hc
    · exact h.failed c hc
    · obtain ⟨rfl, rfl⟩ := Prod.mk.inj (mem_singleton.mp hc); exact hfailed rfl

theorem drained_finish (policy : GitProcessPolicy) (call : Nat) (how : Exit)
    (s : GitProcessScheduler) : (s.finish policy call how).Drained policy :=
  drained_scheduleDrain policy _

variable {rest : List Nat}

/-- The head of the throttle begins to execute. Its promise is settled, or its result is open. -/
theorem Inv.begin (h : s.Inv policy) (hhead : s.throttled = call :: rest) {results : List Nat}
    {settled : List (Nat × Settlement)}
    (hnodup : s.settledCalls.Nodup → (settled.map Prod.fst).Nodup)
    (hresults : ∀ c ∈ results, c ∈ s.results ∨ c = call) (hopen : s.results ⊆ results)
    (hsettled : ∀ c ∈ settled.map Prod.fst, c ∈ s.settledCalls ∨ c = call)
    (hclosed : s.settledCalls ⊆ settled.map Prod.fst)
    (hcall : call ∈ settled.map Prod.fst ∨ call ∈ results) : { s with
      throttled := rest, waiting := s.waiting - 1, running := s.running + 1
      executing := s.executing ++ [call], started := s.started ++ [call]
      results := results, settled := settled : GitProcessScheduler }.Inv policy := by
  have hnew : call ∉ s.executing ++ s.exitedCalls := by
    have hplaces := h.places_nodup
    rw [hhead] at hplaces
    intro hmem
    exact (nodup_cons.mp hplaces).1 (mem_append_right rest hmem)
  have hmem : ∀ c, c ∈ (s.executing ++ [call]) ++ s.exitedCalls ↔
      c ∈ s.executing ++ s.exitedCalls ∨ c = call := by
    intro c
    simp only [mem_append, mem_singleton]
    exact or_right_comm
  have hadmitted := h.admitted
  have hwaiting := h.waiting
  rw [hhead, length_cons] at hadmitted hwaiting
  refine { h with
    admitted := ?_, running := ?_, waiting := ?_, places := ?_, startedOnce := ?_
    startedPlace := ?_, settledOnce := hnodup h.settledOnce, settledPlace := ?_
    resultsPlace := ?_, unsettled := ?_, failed := fun c hc => hclosed (h.failed c hc) }
  · show s.admitted = rest.length + (s.executing ++ [call]).length
    rw [length_append, length_singleton]
    omega
  · rw [length_append, length_singleton, h.running]
  · show s.waiting - 1 =
      s.highPriorityQueue.length + s.normalPriorityQueue.length + rest.length
    omega
  · refine h.places.trans ?_
    rw [hhead, append_assoc s.executing]
    refine perm_middle.symm.trans (List.Perm.append_left rest ?_)
    exact perm_middle.symm
  · refine nodup_append.mpr ⟨h.startedOnce, nodup_singleton _, ?_⟩
    intro a ha b hb hab
    obtain rfl : b = call := mem_singleton.mp hb
    exact hnew (hab ▸ h.startedPlace a ha)
  · intro c hc
    refine (hmem c).mpr ((mem_append.mp hc).imp (h.startedPlace c) mem_singleton.mp)
  · exact fun c hc => (hmem c).mpr ((hsettled c hc).imp_left (h.settledPlace c))
  · exact fun c hc => (hmem c).mpr ((hresults c hc).imp_left (h.resultsPlace c))
  · intro c hc
    rcases (hmem c).mp hc with hc | rfl
    · exact (h.unsettled c hc).imp (fun hc => hclosed hc) fun hc => hopen hc
    · exact hcall

theorem Inv.execute (h : s.Inv policy) (hhead : s.throttled = call :: rest) (start : Start) :
    ({ s with throttled := rest }.execute policy call start).Inv policy := by
  cases start with
  | throws =>
    unfold GitProcessScheduler.execute
    dsimp only
    obtain ⟨settled, heq, hnodup, hmem⟩ := settle_eq call .rejected
      { s with
        throttled := rest, waiting := s.waiting - 1, running := s.running + 1
        executing := s.executing ++ [call], started := s.started ++ [call] }
    rw [heq]
    have hbegin := h.begin hhead hnodup (fun c hc => .inl hc) (fun c hc => hc)
      (fun c => (hmem c).mp) (fun c hc => (hmem c).mpr (.inl hc)) (.inl ((hmem call).mpr (.inr rfl)))
    exact hbegin.finish (mem_append_right _ (mem_singleton_self call))
      fun _ => (hmem call).mpr (.inr rfl)
  | starts =>
    refine h.begin hhead id (fun c hc => ?_) (subset_append_left _ _)
      (fun c hc => .inl hc) (List.Subset.refl _)
      (.inr (mem_append_right _ (mem_singleton_self call)))
    exact (mem_append.mp hc).imp_right mem_singleton.mp

theorem Drained.execute (h : s.Drained policy) (start : Start) :
    ({ s with throttled := rest }.execute policy call start).Drained policy := by
  cases start with
  | throws => exact drained_finish policy call .failed _
  | starts => exact h

theorem Inv.exit (h : s.Inv policy) (hmem : call ∈ s.executing) (how : Exit) :
    (s.exit policy call how).Inv policy := by
  cases how with
  | clean => exact h.finish hmem nofun
  | failed =>
    unfold GitProcessScheduler.exit
    have hsettle := h.settle (mem_append_left _ hmem) .rejected
    obtain ⟨settled, heq, -, hsettled⟩ := settle_eq call .rejected s
    rw [heq] at hsettle ⊢
    exact hsettle.finish hmem fun _ => (hsettled call).mpr (.inr rfl)

theorem drained_exit (policy : GitProcessPolicy) (call : Nat) (how : Exit)
    (s : GitProcessScheduler) : (s.exit policy call how).Drained policy := by
  cases how <;> exact drained_finish policy call _ _

/-- The result of a process settles, before its exit or after it. -/
theorem Inv.result (h : s.Inv policy) (hopen : call ∈ s.results) (how : Settlement) :
    ({ s with results := s.results.erase call }.settle call how).Inv policy := by
  obtain ⟨settled, heq, hnodup, hsettled⟩ :=
    settle_eq call how { s with results := s.results.erase call }
  rw [heq]
  refine { h with
    settledOnce := hnodup h.settledOnce, settledPlace := ?_
    resultsPlace := fun c hc => h.resultsPlace c (mem_of_mem_erase hc)
    unsettled := ?_, failed := ?_ }
  · intro c hc
    rcases (hsettled c).mp hc with hc | rfl
    · exact h.settledPlace c hc
    · exact h.resultsPlace c hopen
  · intro c hc
    rcases h.unsettled c hc with hc | hc
    · exact .inl ((hsettled c).mpr (.inl hc))
    · by_cases hcall : c = call
      · exact .inl ((hsettled c).mpr (.inr hcall))
      · exact .inr ((mem_erase_of_ne hcall).mpr hc)
  · exact fun c hc => (hsettled c).mpr (.inl (h.failed c hc))

theorem Drained.result (h : s.Drained policy) (call : Nat) (how : Settlement) :
    ({ s with results := s.results.erase call }.settle call how).Drained policy := by
  obtain ⟨settled, heq, -, -⟩ := settle_eq call how { s with results := s.results.erase call }
  rw [heq]
  exact h

/-- A call that the throttle refuses never executes. -/
theorem Inv.refuse (h : s.Inv policy) (hkept : call ∈ s.throttled) :
    (s.refuse policy call).Inv policy := by
  have hlength := length_erase_of_mem hkept
  have hpositive := length_pos_of_mem hkept
  have hadmitted := h.admitted
  have hwaiting := h.waiting
  have hbounded := h.bounded
  unfold GitProcessScheduler.refuse
  obtain ⟨settled, heq, hnodup, hsettled⟩ := settle_eq call .rejected
    { s with
      waiting := s.waiting - 1, admitted := s.admitted - 1, throttled := s.throttled.erase call
      exited := s.exited ++ [(call, Exit.failed)] }
  have hmem : ∀ c, c ∈ s.executing ++ (s.exited ++ [(call, Exit.failed)]).map Prod.fst ↔
      c ∈ s.executing ++ s.exitedCalls ∨ c = call := by
    intro c
    rw [exitedCalls_concat, ← append_assoc, mem_append, mem_singleton]
  rw [heq]
  refine Inv.scheduleDrain { h with
    bounded := ?_, admitted := ?_, waiting := ?_, places := ?_, startedPlace := ?_
    settledOnce := hnodup h.settledOnce, settledPlace := ?_, resultsPlace := ?_, unsettled := ?_
    failed := ?_ }
  · show s.admitted - 1 ≤ _; omega
  · show s.admitted - 1 = (s.throttled.erase call).length + s.executing.length; omega
  · show s.waiting - 1 = s.highPriorityQueue.length + s.normalPriorityQueue.length +
      (s.throttled.erase call).length
    omega
  · refine h.places.trans ?_
    show List.Perm _ (_ ++ (s.executing ++ (s.exited ++ [(call, Exit.failed)]).map Prod.fst))
    rw [exitedCalls_concat, ← append_assoc s.executing]
    exact perm_erase_concat _ hkept
  · exact fun c hc => (hmem c).mpr (.inl (h.startedPlace c hc))
  · exact fun c hc => (hmem c).mpr (((hsettled c).mp hc).imp_left (h.settledPlace c))
  · exact fun c hc => (hmem c).mpr (.inl (h.resultsPlace c hc))
  · intro c hc
    rcases (hmem c).mp hc with hc | rfl
    · exact (h.unsettled c hc).imp_left fun hc => (hsettled c).mpr (.inl hc)
    · exact .inl ((hsettled c).mpr (.inr rfl))
  · intro c hc
    rcases mem_append.mp hc with hc | hc
    · exact (hsettled c).mpr (.inl (h.failed c hc))
    · obtain ⟨rfl, -⟩ := Prod.mk.inj (mem_singleton.mp hc); exact (hsettled c).mpr (.inr rfl)

theorem drained_refuse (policy : GitProcessPolicy) (call : Nat) (s : GitProcessScheduler) :
    (s.refuse policy call).Drained policy := drained_scheduleDrain policy _

/-! ## 4. Admission -/

/-- Where a call is taken from: the first of the queues that is not empty. -/
theorem shift_cases (h : s.shift = some (call, s')) : ∃ high normal priority,
    s' = { s with
      highPriorityQueue := high, normalPriorityQueue := normal
      handed := s.handed ++ [⟨call, priority, s.highPriorityQueue.length⟩] } ∧
    s.highPriorityQueue ++ s.normalPriorityQueue = call :: (high ++ normal) ∧
    (∀ p, s.queue p = (if priority = p then [call] else []) ++ s'.queue p) ∧
    (priority = .normal → s.highPriorityQueue = []) := by
  unfold shift at h
  split at h
  · rename_i taken high hhigh
    obtain ⟨rfl, rfl⟩ := Prod.mk.inj (Option.some.inj h)
    refine ⟨high, s.normalPriorityQueue, .high, rfl, ?_, fun p => ?_, nofun⟩
    · rw [hhigh]; rfl
    · cases p with
      | high => exact hhigh
      | normal => rfl
  · rename_i taken normal hhigh hnormal
    obtain ⟨rfl, rfl⟩ := Prod.mk.inj (Option.some.inj h)
    refine ⟨s.highPriorityQueue, normal, .normal, rfl, ?_, fun p => ?_, fun _ => hhigh⟩
    · rw [hhigh, hnormal]; rfl
    · cases p with
      | high => rfl
      | normal => exact hnormal
  · cases h

theorem shift_eq_none (h : s.shift = none) :
    s.highPriorityQueue = [] ∧ s.normalPriorityQueue = [] := by
  unfold shift at h
  split at h
  · cases h
  · cases h
  · rename_i hhigh hnormal; exact ⟨hhigh, hnormal⟩

theorem handedOf_concat (handed : List Admission) (a : Admission) (p : GitProcessPriority) :
    ((handed ++ [a]).filter (·.priority = p)).map (·.call) =
      (handed.filter (·.priority = p)).map (·.call) ++ if a.priority = p then [a.call] else [] := by
  by_cases hp : a.priority = p <;> simp [hp]

/-- A call that is shifted is admitted and handed to the throttle. -/
theorem Inv.hand (h : s.Inv policy) (hroom : s.admitted < policy.maxProcessConcurrency)
    (hshift : s.shift = some (call, s')) :
    { s' with admitted := s'.admitted + 1, throttled := s'.throttled ++ [call] :
      GitProcessScheduler }.Inv policy := by
  have hplaces : (s.handedCalls ++ [call]).Perm
      ((s.throttled ++ [call]) ++ (s.executing ++ s.exitedCalls)) := by
    rw [append_assoc]
    refine ((h.places.append_right [call]).trans ?_)
    rw [append_assoc]
    exact List.Perm.append_left _ perm_append_comm
  have hadmitted := h.admitted
  have hwaiting := h.waiting
  obtain ⟨high, normal, priority, rfl, hqueues, hqueue, hprior⟩ := shift_cases hshift
  have hlengths := congrArg length hqueues
  rw [length_append, length_cons, length_append] at hlengths
  refine { h with
    bounded := hroom, admitted := ?_, waiting := ?_, numbered := ?_, places := ?_, ordered := ?_
    prior := ?_ }
  · show s.admitted + 1 = (s.throttled ++ [call]).length + s.executing.length
    rw [length_append, length_singleton]
    omega
  · show s.waiting = high.length + normal.length + (s.throttled ++ [call]).length
    rw [length_append, length_singleton]
    omega
  · have hnumbered := h.numbered
    rw [hqueues] at hnumbered
    show List.Perm ((s.handed ++ [_]).map Admission.call ++ (high ++ normal)) _
    rw [map_append, append_assoc]
    exact hnumbered
  · show List.Perm ((s.handed ++ [_]).map Admission.call) _; rw [map_append]; exact hplaces
  · intro p
    have hordered := h.ordered p
    rw [hqueue p, ← append_assoc] at hordered
    refine Eq.trans ?_ hordered
    exact congrArg (· ++ _) (handedOf_concat s.handed ⟨call, priority, _⟩ p)
  · intro a ha hpriority
    rcases mem_append.mp ha with ha | ha
    · exact h.prior a ha hpriority
    · rw [mem_singleton.mp ha] at hpriority ⊢; exact congrArg length (hprior hpriority)

variable {atOnce : Option Start}

theorem Inv.admitCall (h : s.Inv policy) (hroom : s.admitted < policy.maxProcessConcurrency)
    (hshift : s.shift = some (call, s')) (horder : atOnce ≠ none → s.throttled = []) :
    ({ s' with admitted := s'.admitted + 1 }.admitCall policy call atOnce).Inv policy := by
  have hhand := h.hand hroom hshift
  cases atOnce with
  | none => exact hhand
  | some start =>
    have hnone : s'.throttled = [] := by
      rw [← horder nofun]
      obtain ⟨_, _, _, rfl, -⟩ := shift_cases hshift
      rfl
    have hhead : { s' with admitted := s'.admitted + 1, throttled := s'.throttled ++ [call] :
        GitProcessScheduler }.throttled = [call] := by
      rw [hnone]
      rfl
    have hexecute := hhand.execute hhead start
    rw [← hnone] at hexecute
    exact hexecute

/-- **What a drain does**, from a state whose flag is down. -/
theorem Inv.drainOne (h : { s with drainScheduled := false : GitProcessScheduler }.Inv policy)
    {atOnce : Option Start} (horder : atOnce ≠ none → s.throttled = []) :
    (s.drainOne policy atOnce).Inv policy ∧ (s.drainOne policy atOnce).Drained policy := by
  unfold GitProcessScheduler.drainOne
  dsimp only
  split
  · rename_i hfull; exact ⟨h, fun _ hroom => absurd hroom (Nat.not_lt.mpr hfull)⟩
  · rename_i hroom
    split
    · rename_i hnone
      obtain ⟨hhigh, hnormal⟩ := shift_eq_none hnone
      exact ⟨h, fun hwork _ => absurd hwork (not_or.mpr ⟨not_not.mpr hhigh, not_not.mpr hnormal⟩)⟩
    · rename_i call s' hshift
      have hcalled := h.admitCall (Nat.not_le.mp hroom) hshift horder
      exact ⟨hcalled.scheduleDrain, drained_scheduleDrain policy _⟩

/-- A call that is made is the last of its queue. -/
theorem push_eq (priority : GitProcessPriority) (s : GitProcessScheduler) : ∃ high normal,
    s.push priority = { s with
      waiting := s.waiting + 1, calls := s.calls ++ [priority]
      highPriorityQueue := high, normalPriorityQueue := normal } ∧
    (high ++ normal).Perm (s.highPriorityQueue ++ s.normalPriorityQueue ++ [s.calls.length]) ∧
    ∀ p, (s.push priority).queue p = s.queue p ++ if priority = p then [s.calls.length] else [] := by
  have hindex : (s.calls ++ [priority]).length - 1 = s.calls.length := by
    rw [length_append, length_singleton, Nat.add_sub_cancel]
  cases priority with
  | high =>
    refine ⟨_, s.normalPriorityQueue, rfl, ?_, fun p => ?_⟩
    · rw [hindex, append_assoc, append_assoc]; exact perm_append_comm.append_left _
    · cases p with
      | high => exact congrArg (s.highPriorityQueue ++ [·]) hindex
      | normal => exact (append_nil _).symm
  | normal =>
    refine ⟨s.highPriorityQueue, _, rfl, ?_, fun p => ?_⟩
    · rw [hindex, append_assoc]
    · cases p with
      | high => exact (append_nil _).symm
      | normal => exact congrArg (s.normalPriorityQueue ++ [·]) hindex

theorem callsOf_concat (calls : List GitProcessPriority) (priority p : GitProcessPriority) :
    ((calls ++ [priority]).zipIdx.filter (·.1 = p)).map Prod.snd =
      (calls.zipIdx.filter (·.1 = p)).map Prod.snd ++
        if priority = p then [calls.length] else [] := by
  rw [zipIdx_append, filter_append, map_append, zipIdx_singleton, filter_singleton]
  by_cases hp : priority = p <;> simp [hp]

theorem Inv.push (h : s.Inv policy) (priority : GitProcessPriority) :
    (s.push priority).Inv policy := by
  have hwaiting := h.waiting
  obtain ⟨high, normal, heq, hperm, hqueue⟩ := push_eq priority s
  have hlengths := hperm.length_eq
  rw [length_append, length_append, length_append, length_singleton] at hlengths
  have hordered : ∀ p, s.handedOf p ++ (s.push priority).queue p =
      ((s.calls ++ [priority]).zipIdx.filter (·.1 = p)).map Prod.snd := by
    intro p
    rw [hqueue, callsOf_concat, ← append_assoc, h.ordered p]
    rfl
  rw [heq] at hordered ⊢
  refine { h with waiting := ?_, numbered := ?_, ordered := hordered }
  · show s.waiting + 1 = high.length + normal.length + s.throttled.length; omega
  · rw [length_append, length_singleton, range_succ]
    refine (hperm.append_left _).trans ?_
    rw [← append_assoc]
    exact h.numbered.append_right _

theorem Inv.run (h : s.Inv policy) (priority : GitProcessPriority)
    (horder : atOnce ≠ none → s.throttled = []) :
    (s.run policy priority atOnce).Inv policy ∧ (s.run policy priority atOnce).Drained policy := by
  have hpush := h.push priority
  have hsame : (s.push priority).throttled = s.throttled := by
    obtain ⟨_, _, heq, -⟩ := push_eq priority s
    rw [heq]
  unfold GitProcessScheduler.run
  dsimp only
  split
  · rename_i hidle
    refine Inv.drainOne ?_ (hsame.symm ▸ horder)
    rw [← hidle.2]
    exact hpush
  · exact ⟨hpush.scheduleDrain, drained_scheduleDrain policy _⟩

theorem Inv.immediate (h : s.Inv policy) (hpending : 0 < s.immediates)
    (horder : atOnce ≠ none → s.throttled = []) :
    ({ s with immediates := s.immediates - 1 }.drainOne policy atOnce).Inv policy ∧
      ({ s with immediates := s.immediates - 1 }.drainOne policy atOnce).Drained policy := by
  have hidle : { s with immediates := s.immediates - 1, drainScheduled := false :
      GitProcessScheduler }.Inv policy := by
    refine { h with flagged := ?_ }
    have hflagged := h.flagged
    have hle := Bool.toNat_le s.drainScheduled
    show s.immediates - 1 = 0
    omega
  exact @Inv.drainOne policy { s with immediates := s.immediates - 1 } hidle atOnce horder

/-! ## 5. What the moves leave -/

/-- The records only grow. -/
structure Grows (s s' : GitProcessScheduler) : Prop where
  started : s.started ⊆ s'.started
  exited : s.exited ⊆ s'.exited
  settled : s.settledCalls ⊆ s'.settledCalls

/-- No call is made, and what comes to execute is started. -/
structure Keeps (s s' : GitProcessScheduler) : Prop extends Grows s s' where
  calls : s'.calls = s.calls
  begun : ∀ c ∈ s'.executing ++ s'.exitedCalls, c ∈ s.executing ++ s.exitedCalls ∨ c ∈ s'.started

theorem Keeps.refl (s : GitProcessScheduler) : Keeps s s :=
  ⟨⟨List.Subset.refl _, List.Subset.refl _, List.Subset.refl _⟩, rfl, fun _ => .inl⟩

theorem Keeps.trans {a b c : GitProcessScheduler} (h : Keeps a b) (h' : Keeps b c) : Keeps a c where
  calls := h'.calls.trans h.calls
  started := List.Subset.trans h.started h'.started
  exited := List.Subset.trans h.exited h'.exited
  settled := List.Subset.trans h.settled h'.settled
  begun call hcall := by
    rcases h'.begun call hcall with hcall | hstarted
    · exact (h.begun call hcall).imp_right fun hstarted => h'.started hstarted
    · exact .inr hstarted

theorem keeps_settle (call : Nat) (how : Settlement) (s : GitProcessScheduler) :
    Keeps s (s.settle call how) ∧ call ∈ (s.settle call how).settledCalls := by
  obtain ⟨settled, heq, -, hmem⟩ := settle_eq call how s
  rw [heq]
  exact ⟨{ Keeps.refl s with settled := fun c hc => (hmem c).mpr (.inl hc) },
    (hmem call).mpr (.inr rfl)⟩

section

variable (policy : GitProcessPolicy)

theorem keeps_scheduleDrain (s : GitProcessScheduler) : Keeps s (s.scheduleDrain policy) := by
  obtain ⟨flag, immediates, heq, -⟩ := scheduleDrain_eq policy s
  rw [heq]
  exact { Keeps.refl s with }

theorem keeps_finish (hmem : call ∈ s.executing) (how : Exit) :
    Keeps s (s.finish policy call how) ∧ (call, how) ∈ (s.finish policy call how).exited := by
  have hleft : Keeps s { s with
      running := s.running - 1, admitted := s.admitted - 1, executing := s.executing.erase call
      exited := s.exited ++ [(call, how)] } := by
    refine { Keeps.refl s with exited := subset_append_left _ _, begun := fun c hc => .inl ?_ }
    rw [exitedCalls, exitedCalls_concat] at hc
    exact (perm_erase_concat s.exitedCalls hmem).mem_iff.mpr hc
  have hkeeps := keeps_scheduleDrain policy { s with
    running := s.running - 1, admitted := s.admitted - 1, executing := s.executing.erase call
    exited := s.exited ++ [(call, how)] }
  exact ⟨hleft.trans hkeeps, hkeeps.exited (mem_append_right _ (mem_singleton_self _))⟩

theorem settle_executing (call : Nat) (how : Settlement) (s : GitProcessScheduler) :
    (s.settle call how).executing = s.executing := by
  unfold settle
  split <;> rfl

/-- The `catch` of `execute`, and its `finally`. -/
theorem keeps_fail (hmem : call ∈ s.executing) :
    Keeps s ((s.settle call .rejected).finish policy call .failed) ∧
      (call, .failed) ∈ ((s.settle call .rejected).finish policy call .failed).exited := by
  have hsettle := (keeps_settle call .rejected s).1
  rw [← settle_executing call .rejected s] at hmem
  obtain ⟨hkeeps, hexited⟩ := keeps_finish policy hmem .failed
  exact ⟨hsettle.trans hkeeps, hexited⟩

theorem keeps_execute (call : Nat) (start : Start)
    (s : GitProcessScheduler) : Keeps s (s.execute policy call start) ∧
      call ∈ (s.execute policy call start).started ∧
      (start = .throws → (call, .failed) ∈ (s.execute policy call start).exited) := by
  obtain ⟨t, hkeeps, hexecuting, hstarted, hthrows, hstarts⟩ : ∃ t, Keeps s t ∧
      call ∈ t.executing ∧ call ∈ t.started ∧
      s.execute policy call .throws = (t.settle call .rejected).finish policy call .failed ∧
      s.execute policy call .starts = { t with results := t.results ++ [call] } := by
    refine ⟨{ s with
      waiting := s.waiting - 1, running := s.running + 1
      executing := s.executing ++ [call], started := s.started ++ [call] }, ?_,
      mem_append_right _ (mem_singleton_self call), mem_append_right _ (mem_singleton_self call),
      rfl, rfl⟩
    refine { Keeps.refl s with started := subset_append_left _ _, begun := fun c hc => ?_ }
    rw [append_assoc, mem_append, mem_append] at hc
    rcases hc with hc | hc | hc
    · exact .inl (mem_append_left _ hc)
    · exact .inr (mem_append_right _ hc)
    · exact .inl (mem_append_right _ hc)
  cases start with
  | throws =>
    rw [hthrows]
    obtain ⟨hfail, hexited⟩ := keeps_fail policy hexecuting
    exact ⟨hkeeps.trans hfail, hfail.started hstarted, fun _ => hexited⟩
  | starts =>
    rw [hstarts]
    exact ⟨{ hkeeps with }, hstarted, nofun⟩

theorem keeps_drainOne (atOnce : Option Start)
    (s : GitProcessScheduler) : Keeps s (s.drainOne policy atOnce) := by
  unfold GitProcessScheduler.drainOne
  dsimp only
  split
  · exact { Keeps.refl s with }
  · split
    · exact { Keeps.refl s with }
    · rename_i call s' hshift
      refine .trans ?_ (keeps_scheduleDrain policy _)
      obtain ⟨high, normal, priority, rfl, -⟩ := shift_cases hshift
      cases atOnce with
      | none => exact { Keeps.refl s with }
      | some start => exact { (keeps_execute policy call start _).1 with }

end

/-- What a move leaves for good. -/
def Done (s : GitProcessScheduler) : Move → Prop
  | .run .. | .immediate _ => True
  | .throttle call start =>
    call ∈ s.started ∧ (start = .throws → (call, Exit.failed) ∈ s.exited)
  | .refuse call => (call, Exit.failed) ∈ s.exited
  | .result call _ => call ∈ s.settledCalls
  | .exit call how => (call, how) ∈ s.exited

/-- What the moves of a run have left: the calls are those that were made, every move has had its
    effect, and what executes or has exited was started, or the throttle refused it. -/
structure Told (moves : List Move) (s : GitProcessScheduler) : Prop where
  calls : s.calls = moves.filterMap Move.called
  done : ∀ move ∈ moves, s.Done move
  begun : ∀ c ∈ s.executing ++ s.exitedCalls, c ∈ s.started ∨ .refuse c ∈ moves

variable {moves : List Move} {move : Move}

theorem Grows.done (h : Grows s s') (hdone : s.Done move) : s'.Done move := by
  cases move with
  | run | immediate => trivial
  | throttle => exact ⟨h.started hdone.1, fun hthrows => h.exited (hdone.2 hthrows)⟩
  | refuse | exit => exact h.exited hdone
  | result => exact h.settled hdone

theorem Told.of_grows (h : Told moves s) (hgrows : Grows s s')
    (hcalls : s'.calls = s.calls ++ move.called.toList) (hdone : s'.Done move)
    (hbegun : ∀ c ∈ s'.executing ++ s'.exitedCalls,
      c ∈ s.executing ++ s.exitedCalls ∨ c ∈ s'.started ∨ .refuse c = move) :
    Told (moves ++ [move]) s' where
  calls := by
    rw [hcalls, h.calls, filterMap_append]
    cases hcalled : move.called <;> simp [hcalled]
  done other hother := by
    rcases mem_append.mp hother with hother | hother
    · exact hgrows.done (h.done other hother)
    · exact mem_singleton.mp hother ▸ hdone
  begun c hc := by
    rcases hbegun c hc with hc | hstarted | hrefused
    · exact (h.begun c hc).imp (fun hc => hgrows.started hc) (mem_append_left _)
    · exact .inl hstarted
    · exact .inr (mem_append_right _ (mem_singleton.mpr hrefused))

/-- A move that is no call of `run` and no refusal. -/
theorem Told.keep (h : Told moves s) (hkeeps : Keeps s s') (hcalled : move.called = none)
    (hdone : s'.Done move) : Told (moves ++ [move]) s' := by
  refine h.of_grows hkeeps.toGrows ?_ hdone fun c hc => (hkeeps.begun c hc).imp_right .inl
  rw [hkeeps.calls, hcalled, Option.toList_none, append_nil]

/-- **Every step leaves what its move says.** -/
theorem Told.step (h : Told moves s) (hstep : Step policy s move s') :
    Told (moves ++ [move]) s' := by
  cases hstep with
  | run priority atOnce horder =>
    obtain ⟨high, normal, heq, -⟩ := push_eq priority s
    have hkeeps : Keeps (s.push priority) (s.run policy priority atOnce) := by
      unfold GitProcessScheduler.run
      dsimp only
      split
      · exact keeps_drainOne policy atOnce _
      · exact keeps_scheduleDrain policy _
    rw [heq] at hkeeps
    exact h.of_grows { hkeeps.toGrows with } hkeeps.calls trivial
      fun c hc => (hkeeps.begun c hc).imp_right .inl
  | immediate atOnce hpending horder =>
    exact h.keep { keeps_drainOne policy atOnce { s with immediates := s.immediates - 1 } with }
      rfl trivial
  | throttle call rest start hhead =>
    obtain ⟨hkeeps, hdone⟩ := keeps_execute policy call start { s with throttled := rest }
    exact h.keep { hkeeps with } rfl hdone
  | refuse call hkept =>
    have hkeeps := (keeps_settle call .rejected { s with
      waiting := s.waiting - 1, admitted := s.admitted - 1, throttled := s.throttled.erase call
      exited := s.exited ++ [(call, Exit.failed)] }).1.trans (keeps_scheduleDrain policy _)
    refine h.of_grows { hkeeps.toGrows with
      exited := Subset.trans (subset_append_left _ _) hkeeps.exited }
      (hkeeps.calls.trans (append_nil _).symm)
      (hkeeps.exited (mem_append_right _ (mem_singleton_self _))) fun c hc => ?_
    rcases hkeeps.begun c hc with hc | hstarted
    · rw [exitedCalls, exitedCalls_concat, ← append_assoc, mem_append, mem_singleton] at hc
      exact hc.imp_right fun hcall => .inr (congrArg Move.refuse hcall)
    · exact .inr (.inl hstarted)
  | result call how hopen =>
    obtain ⟨hkeeps, hsettled⟩ := keeps_settle call how { s with results := s.results.erase call }
    exact h.keep { hkeeps with } rfl hsettled
  | exit call how hopen =>
    obtain ⟨hkeeps, hexited⟩ : Keeps s (s.exit policy call how) ∧
        (call, how) ∈ (s.exit policy call how).exited := by
      cases how with
      | clean => exact keeps_finish policy hopen .clean
      | failed => exact keeps_fail policy hopen
    exact h.keep hkeeps rfl hexited

/-! ## 6. Every run -/

/-- **Every step keeps the invariant.** -/
theorem Inv.step (h : s.Inv policy) (hdrained : s.Drained policy) (hstep : Step policy s move s') :
    s'.Inv policy ∧ s'.Drained policy := by
  cases hstep with
  | run priority atOnce horder => exact h.run priority horder
  | immediate atOnce hpending horder => exact h.immediate hpending horder
  | throttle call rest start hhead => exact ⟨h.execute hhead start, hdrained.execute start⟩
  | refuse call hkept => exact ⟨h.refuse hkept, drained_refuse policy call s⟩
  | result call how hopen => exact ⟨h.result hopen how, hdrained.result call how⟩
  | exit call how hopen => exact ⟨h.exit hopen how, drained_exit policy call how s⟩

theorem told_empty : Told [] empty :=
  ⟨rfl, fun _ hmove => absurd hmove not_mem_nil, fun _ hc => absurd hc not_mem_nil⟩

theorem reachable_inv (h : (system policy).Reachable (moves, s)) :
    s.Inv policy ∧ s.Drained policy ∧ Told moves s := by
  refine @TransitionSystem.Reachable.invariant _ _
    (fun r => r.2.Inv policy ∧ r.2.Drained policy ∧ Told r.1 r.2) ?_ ?_ _ h
  · rintro _ rfl; exact ⟨inv_empty, fun hwork => absurd hwork (by decide), told_empty⟩
  · rintro ⟨moves, s⟩ ⟨moves', s'⟩ ⟨hinv, hdrained, htold⟩ ⟨move, hstep, hmoves⟩
    obtain ⟨hinv', hdrained'⟩ := hinv.step hdrained hstep
    exact ⟨hinv', hdrained', (show moves' = _ from hmoves) ▸ htold.step hstep⟩

/-- A call whose promise may still be settled. -/
def Waits (s : GitProcessScheduler) (call : Nat) : Prop :=
  call ∈ s.highPriorityQueue ∨ call ∈ s.normalPriorityQueue ∨ call ∈ s.throttled ∨
    call ∈ s.results

/-- Nothing is left to happen but calls of `run`. -/
def Quiescent (s : GitProcessScheduler) : Prop :=
  s.immediates = 0 ∧ s.throttled = [] ∧ s.executing = [] ∧ s.results = []

/-- What is promised about the limit, the starts, the promises, the order and the drains, after
    these moves. -/
structure Safe (policy : GitProcessPolicy) (moves : List Move) (s : GitProcessScheduler) :
    Prop where
  calls : s.calls = moves.filterMap Move.called
  done : ∀ move ∈ moves, s.Done move
  begun : ∀ call ∈ s.handedCalls, call ∈ s.throttled ∨ call ∈ s.started ∨ .refuse call ∈ moves
  bounded : s.admitted ≤ policy.maxProcessConcurrency
  counted : s.admitted = (s.handedCalls.filter (· ∉ s.exitedCalls)).length
  startedOnce : ∀ call, s.started.count call ≤ 1
  settledOnce : ∀ call, s.settledCalls.count call ≤ 1
  settled : ∀ call < s.calls.length, s.settledCalls.count call = 1 ∨ s.Waits call
  failed : ∀ call, (call, Exit.failed) ∈ s.exited → s.settledCalls.count call = 1
  normalLast : ∀ a ∈ s.handed, a.priority = .normal → a.highWaiting = 0
  ordered : ∀ priority, s.handedOf priority ++ s.queue priority = s.callsOf priority
  drained : (s.highPriorityQueue ≠ [] ∨ s.normalPriorityQueue ≠ []) →
    s.admitted < policy.maxProcessConcurrency → s.drainScheduled = true ∧ s.immediates = 1
  finished : 0 < policy.maxProcessConcurrency → s.Quiescent →
    ∀ call < s.calls.length, s.settledCalls.count call = 1

theorem Inv.counted (h : s.Inv policy) :
    s.admitted = (s.handedCalls.filter (· ∉ s.exitedCalls)).length := by
  have hnodup := h.places_nodup
  rw [← append_assoc] at hnodup
  have hin : (s.throttled ++ s.executing).filter (· ∉ s.exitedCalls) = s.throttled ++ s.executing :=
    filter_eq_self.mpr fun c hc =>
      decide_eq_true fun hexited => (nodup_append.mp hnodup).2.2 c hc c hexited rfl
  have hout : s.exitedCalls.filter (· ∉ s.exitedCalls) = [] :=
    filter_eq_nil_iff.mpr fun c hc => by
      rw [decide_eq_true_iff]
      exact not_not.mpr hc
  rw [(h.places.filter _).length_eq, ← append_assoc, filter_append, hin, hout,
    append_nil, length_append, h.admitted]

theorem Inv.settled_or_waits (h : s.Inv policy) (hcall : call < s.calls.length) :
    call ∈ s.settledCalls ∨ s.Waits call := by
  have hmem := h.numbered.mem_iff.mpr (mem_range.mpr hcall)
  rcases mem_append.mp hmem with hhanded | hqueued
  · rcases mem_append.mp (h.places.mem_iff.mp hhanded) with hthrottled | hmem
    · exact .inr (.inr (.inr (.inl hthrottled)))
    · exact (h.unsettled call hmem).imp_right fun hopen => .inr (.inr (.inr hopen))
  · exact .inr ((mem_append.mp hqueued).imp_right .inl)

/-- Where nothing is left to happen, no call waits. -/
theorem Inv.not_waits (h : s.Inv policy) (hdrained : s.Drained policy)
    (hpositive : 0 < policy.maxProcessConcurrency) (hquiet : s.Quiescent) : ¬ s.Waits call := by
  obtain ⟨himmediates, hthrottled, hexecuting, hresults⟩ := hquiet
  have hadmitted := h.admitted
  rw [hthrottled, hexecuting] at hadmitted
  have hflagged := h.flagged
  have hidle : ¬ (s.highPriorityQueue ≠ [] ∨ s.normalPriorityQueue ≠ []) := by
    intro hwork
    rw [hdrained hwork (hadmitted ▸ hpositive), himmediates] at hflagged
    cases hflagged
  obtain ⟨hhigh, hnormal⟩ := not_or.mp hidle
  unfold Waits
  rw [not_not.mp hhigh, not_not.mp hnormal, hthrottled, hresults]
  simp

/-- **The scheduler is safe and strands nothing**: in every state that a run reaches, whatever the
    order of calls, immediates, starts, results and exits. -/
theorem reachable_safe (policy : GitProcessPolicy) (moves : List Move) (s : GitProcessScheduler)
    (h : (system policy).Reachable (moves, s)) : Safe policy moves s := by
  obtain ⟨hinv, hdrained, htold⟩ := reachable_inv h
  have hone : ∀ c, c ∈ s.settledCalls → s.settledCalls.count c = 1 := fun c hc =>
    count_eq_one_of_mem hinv.settledOnce hc
  refine
    { calls := htold.calls
      done := htold.done
      begun := fun c hc =>
        (mem_append.mp (hinv.places.mem_iff.mp hc)).imp_right fun hc => htold.begun c hc
      bounded := hinv.bounded
      counted := hinv.counted
      startedOnce := nodup_iff_count_le_one.mp hinv.startedOnce
      settledOnce := nodup_iff_count_le_one.mp hinv.settledOnce
      settled := fun c hc => (hinv.settled_or_waits hc).imp_left (hone c)
      failed := fun c hc => hone c (hinv.failed c hc)
      normalLast := hinv.prior
      ordered := hinv.ordered
      drained := fun hwork hroom => ?_
      finished := fun hpositive hquiet c hc => ?_ }
  · have hflag := hdrained hwork hroom
    exact ⟨hflag, by rw [hinv.flagged, hflag]; rfl⟩
  · exact hone c ((hinv.settled_or_waits hc).resolve_right
      (hinv.not_waits hdrained hpositive hquiet))

theorem reachable_next (h : (system policy).Reachable (moves, s)) (hstep : Step policy s move s') :
    (system policy).Reachable (moves ++ [move], s') := h.step ⟨move, hstep, rfl⟩

/-- Two calls are made; the first starts at once and its process fails. -/
theorem reachable_safe_of_two : Safe DEFAULT_GIT_PROCESS_POLICY
    [.run .normal (some .starts), .run .high none, .exit 0 .failed]
    (((empty.run DEFAULT_GIT_PROCESS_POLICY .normal (some .starts)).run
      DEFAULT_GIT_PROCESS_POLICY .high none).exit DEFAULT_GIT_PROCESS_POLICY 0 .failed) := by
  have hmade := @reachable_next DEFAULT_GIT_PROCESS_POLICY _ _ _ _
    (reachable_next (.of_init rfl) (.run .normal (some .starts) fun _ => rfl))
    (.run .high none fun hnone => absurd rfl hnone)
  exact reachable_safe _ _ _ (reachable_next hmade (.exit 0 .failed (by decide)))

end GitProcessScheduler

end Frogg.Server.GitProcesses
