/-
  Subject:   That an abandoned lock can be taken, from wherever a crash left the others.
-/
import Frogg.Server.PidLockMoves

namespace Frogg.Server.PidLock

open Library Function

/-! ## 1. A process that runs alone -/

section Alone

variable {host : Host} {s : World} {files : LockFiles} {p : Nat} {proc : Process}
  {options : AcquireOptions}

/-- The world with other files and one process further on. -/
def World.withProcess (s : World) (files : LockFiles) (p : Nat) (proc : Process) : World :=
  { files, process := update s.process p (some proc) }

def OwnStep (host : Host) (p : Nat) (s s' : World) : Prop := host.step s (.act p .main) = some s'

/-- The steps of the process `p` alone. -/
abbrev OwnSteps (host : Host) (p : Nat) : World → World → Prop :=
  Relation.ReflTransGen (OwnStep host p)

theorem alive_withProcess (q : Nat) :
    (s.withProcess files p proc).alive q = (q = p || s.alive q) := by
  unfold World.alive World.withProcess
  by_cases hqp : q = p
  · simp [hqp]
  · simp [hqp, update_of_ne]

/-- One operation of an acquire that runs alone. -/
theorem ownStep_acquire {pc : AcquirePc} {files' : LockFiles} {proc' : Process}
    (hmain : proc.main = .acquiring options pc)
    (h : host.acquireStep (s.withProcess files p proc).alive p files proc options pc =
      (files', proc')) :
    OwnStep host p (s.withProcess files p proc) (s.withProcess files' p proc') := by
  have hproc : (s.withProcess files p proc).process p = some proc := update_self _ _ _
  have hact : host.act (s.withProcess files p proc).alive p files proc .main =
      some (files', proc') := by
    unfold Host.act
    rw [hmain]
    exact congrArg some h
  show (((s.withProcess files p proc).process p).bind _) = _
  rw [hproc]
  show (host.act (s.withProcess files p proc).alive p files proc .main).map _ = _
  rw [hact]
  show some (World.mk files' (update (update s.process p (some proc)) p _)) = _
  rw [update_idem]
  rfl

/-- With no lock at the path the process publishes its own. -/
theorem owns_of_writing (host : Host) (s : World) (p : Nat)
    (hmain : proc.main = .acquiring options .writing) (hnone : files.file .lock = none) :
    ∃ s', OwnSteps host p (s.withProcess files p proc) s' ∧ s'.owns p = true := by
  have hfree : (files.write (.tmp p) (some (host.lockText p proc options))).file .lock = none :=
    (LinkedFiles.write_of_ne (by simp)).trans hnone
  obtain ⟨t, hfile, -⟩ := LinkedFiles.write_holds files (.tmp p)
    (some (host.lockText p proc options))
  obtain ⟨linked, hlink⟩ := LinkedFiles.link_of_free hfile hfree
  have hwrite : OwnStep host p (s.withProcess files p proc)
      (s.withProcess (files.write (.tmp p) (some (host.lockText p proc options))) p
        (proc.acquiring options .linking)) := ownStep_acquire hmain rfl
  have hpublish : OwnStep host p
      (s.withProcess (files.write (.tmp p) (some (host.lockText p proc options))) p
        (proc.acquiring options .linking))
      (s.withProcess linked p ((proc.acquiring options .linking).acquires.acquiring options
        (.unlinkingTmp (some (.ok ()))))) := by
    refine ownStep_acquire rfl ?_
    unfold Host.acquireStep
    rw [hlink]
  refine ⟨_, (Relation.ReflTransGen.single hwrite).tail hpublish, ?_⟩
  simp [World.owns, World.withProcess, Process.acquires, Process.acquiring]

/-- A lock that cannot be read is read ten times, and given up. -/
theorem checks_again_of_unreadable (s : World) (p : Nat) (options : AcquireOptions)
    (hread : host.readPath proc.runtime files = none) (attempt : Nat) :
    OwnSteps host p (s.withProcess files p (proc.acquiring options (.reading attempt)))
      (s.withProcess files p (proc.acquiring options .checkingAgain)) := by
  have hmiss : OwnStep host p (s.withProcess files p (proc.acquiring options (.reading attempt)))
      (s.withProcess files p (proc.acquiring options (.missing attempt))) := by
    have hagain : host.readPath (proc.acquiring options (.reading attempt)).runtime files = none :=
      hread
    refine ownStep_acquire rfl ?_
    simp only [Host.acquireStep, hagain]
    rfl
  refine Relation.ReflTransGen.head hmiss ?_
  by_cases hagain : (existsPath files && decide (attempt + 1 < readRetryAttempts)) = true
  · have hnext : OwnStep host p
        (s.withProcess files p (proc.acquiring options (.missing attempt)))
        (s.withProcess files p (proc.acquiring options (.reading (attempt + 1)))) := by
      refine ownStep_acquire rfl ?_
      exact if_pos hagain
    exact Relation.ReflTransGen.head hnext
      (checks_again_of_unreadable s p options hread (attempt + 1))
  · refine .single (ownStep_acquire rfl ?_)
    exact if_neg hagain
termination_by readRetryAttempts - attempt
decreasing_by
  simp only [Bool.and_eq_true, decide_eq_true_eq] at hagain
  omega

theorem isPidRunning_dead (host : Host) (p : Nat) {alive : Nat → Bool} {pid : Nat} (hpos : 0 < pid)
    (hdead : alive pid = false) (runtime : Runtime) :
    host.isPidRunning alive p (some (pid : Int)) runtime = false := by
  have hkill : host.kill alive p pid = .esrch := by simp [Host.kill, hpos, hdead]
  cases runtime <;> simp [Host.isPidRunning, hkill]

theorem isPidRunning_self (host : Host) (alive : Nat → Bool) (hpos : 0 < p) (hmax : p ≤ 2147483647)
    (halive : alive p = true) (runtime : Runtime) :
    host.isPidRunning alive p (some (p : Int)) runtime = true := by
  have hkill : host.kill alive p p = .ok := by simp [Host.kill, hpos, halive, host.signals_self]
  cases runtime <;> simp [Host.isPidRunning, hkill] <;> omega

/-- The lock at the path names no live process but perhaps `p`. -/
def World.Abandoned (host : Host) (s : World) (p : Nat) : Prop :=
  ∀ i runtime lock, s.files.file .lock = some i →
    Runtime.view host.brand (s.files.text i) runtime = some lock →
      ∀ q : Nat, lock.pid = some (q : Int) → q ≠ p → s.process q = none

/-- No lock, or one that stays unreadable and is removed. -/
theorem owns_of_unreadable (hread : host.readPath proc.runtime s.files = none) :
    ∃ s', OwnSteps host p (s.withProcess s.files p (proc.acquiring options (.reading 0))) s' ∧
      s'.owns p = true := by
  have hchecks := checks_again_of_unreadable s p options hread 0
  by_cases hexists : existsPath s.files = true
  · have hcheck : OwnStep host p (s.withProcess s.files p (proc.acquiring options .checkingAgain))
        (s.withProcess s.files p (proc.acquiring options .unlinkingUnreadable)) := by
      refine ownStep_acquire rfl ?_
      simp only [Host.acquireStep, hexists, if_true]
      rfl
    have hunlink : OwnStep host p
        (s.withProcess s.files p (proc.acquiring options .unlinkingUnreadable))
        (s.withProcess (s.files.unlink .lock) p (proc.acquiring options .writing)) :=
      ownStep_acquire rfl rfl
    obtain ⟨s', hsteps, howns⟩ := @owns_of_writing (s.files.unlink .lock)
      (proc.acquiring options .writing) options host s p rfl LinkedFiles.unlink_self
    exact ⟨s', ((hchecks.tail hcheck).tail hunlink).trans hsteps, howns⟩
  · have hcheck : OwnStep host p (s.withProcess s.files p (proc.acquiring options .checkingAgain))
        (s.withProcess s.files p (proc.acquiring options .writing)) := by
      refine ownStep_acquire rfl ?_
      simp only [Host.acquireStep, hexists]
      rfl
    have hnone : s.files.file .lock = none := by simpa [existsPath] using hexists
    obtain ⟨s', hsteps, howns⟩ := @owns_of_writing s.files
      (proc.acquiring options .writing) options host s p rfl hnone
    exact ⟨s', (hchecks.tail hcheck).trans hsteps, howns⟩

/-- A lock that names the process itself, after a crash of another one with its pid. -/
theorem owns_of_own_lock (host : Host) (proc : Process) (options : AcquireOptions)
    {lock : LockView} (seen : Nat) (hpos : 0 < p) (hmax : p ≤ 2147483647)
    (hexists : existsPath s.files = true) (hpid : lock.pid = some (p : Int)) :
    ∃ s', OwnSteps host p
      (s.withProcess s.files p (proc.acquiring options (.probing lock seen))) s' ∧
        s'.owns p = true := by
  have hrunning := isPidRunning_self host
    (s.withProcess s.files p (proc.acquiring options (.probing lock seen))).alive hpos hmax
    (by simp [alive_withProcess]) (proc.acquiring options (.probing lock seen)).runtime
  have hreenter : OwnStep host p
      (s.withProcess s.files p (proc.acquiring options (.probing lock seen)))
      (s.withProcess s.files p (proc.acquiring options .touching)) := by
    refine ownStep_acquire rfl ?_
    simp only [Host.acquireStep, hpid, hrunning, if_true]
    rfl
  have htouch : OwnStep host p (s.withProcess s.files p (proc.acquiring options .touching))
      (s.withProcess s.files p
        ((proc.acquiring options .touching).acquires.returns (.ok ()))) := by
    refine ownStep_acquire rfl ?_
    simp only [Host.acquireStep, hexists]
    cases (proc.acquiring options .touching).runtime <;> rfl
  refine ⟨_, (Relation.ReflTransGen.single hreenter).tail htouch, ?_⟩
  simp [World.owns, World.withProcess, Process.acquires, Process.acquiring, Process.returns]

/-- A lock that names a process that is gone. -/
theorem owns_of_dead_lock (host : Host) (proc : Process) (options : AcquireOptions)
    {lock : LockView} (seen : Nat) {pid : Nat} (hpos : 0 < pid) (hne : pid ≠ p)
    (hdead : s.process pid = none) (hpid : lock.pid = some (pid : Int)) :
    ∃ s', OwnSteps host p
      (s.withProcess s.files p (proc.acquiring options (.probing lock seen))) s' ∧
        s'.owns p = true := by
  have halive : (s.withProcess s.files p (proc.acquiring options (.probing lock seen))).alive pid =
      false := by
    rw [alive_withProcess]
    simp [hne, World.alive, hdead]
  have hrunning := isPidRunning_dead host p hpos halive
    (proc.acquiring options (.probing lock seen)).runtime
  have hcondemn : OwnStep host p
      (s.withProcess s.files p (proc.acquiring options (.probing lock seen)))
      (s.withProcess s.files p (proc.acquiring options (.unlinkingStale lock seen))) := by
    refine ownStep_acquire rfl ?_
    simp only [Host.acquireStep, hpid, hrunning]
    rfl
  have hunlink : OwnStep host p
      (s.withProcess s.files p (proc.acquiring options (.unlinkingStale lock seen)))
      (s.withProcess (s.files.unlink .lock) p (proc.acquiring options .writing)) :=
    ownStep_acquire rfl rfl
  obtain ⟨s', hsteps, howns⟩ := @owns_of_writing (s.files.unlink .lock)
    (proc.acquiring options .writing) options host s p rfl LinkedFiles.unlink_self
  exact ⟨s', ((Relation.ReflTransGen.single hcondemn).tail hunlink).trans hsteps, howns⟩

/-- **An acquire that runs on its own gets an abandoned lock.** -/
theorem owns_of_abandoned (options : AcquireOptions) (hsane : Sane host s)
    (hproc : s.process p = some proc) (habandoned : s.Abandoned host p) :
    ∃ s', OwnSteps host p (s.withProcess s.files p (proc.acquiring options (.reading 0))) s' ∧
      s'.owns p = true := by
  obtain ⟨hpos, hmax⟩ := hsane.pid hproc
  cases hread : host.readPath proc.runtime s.files with
  | none => exact owns_of_unreadable hread
  | some found =>
    obtain ⟨seen, lock⟩ := found
    obtain ⟨i, hi, hlock⟩ := Option.bind_eq_some_iff.mp hread
    obtain ⟨view, hview, heq⟩ := Option.map_eq_some_iff.mp hlock
    cases heq
    obtain ⟨hbrand, pid, hpid, hlockPid⟩ := hsane.lawful seen proc.runtime lock hview
    have hprobe : OwnStep host p
        (s.withProcess s.files p (proc.acquiring options (.reading 0)))
        (s.withProcess s.files p (proc.acquiring options (.probing lock seen))) := by
      have hfound : host.readPath (proc.acquiring options (.reading 0)).runtime s.files =
          some (seen, lock) := hread
      refine ownStep_acquire rfl ?_
      simp only [Host.acquireStep, hfound, hbrand, if_true]
      rfl
    by_cases hself : pid = p
    · obtain ⟨s', hsteps, howns⟩ := owns_of_own_lock host proc options seen hpos hmax
        (show existsPath s.files = true by simp [existsPath, hi]) (hself ▸ hlockPid)
      exact ⟨s', hsteps.head hprobe, howns⟩
    · obtain ⟨s', hsteps, howns⟩ := owns_of_dead_lock host proc options seen hpid hself
        (habandoned seen proc.runtime lock hi hview pid hlockPid hself) hlockPid
      exact ⟨s', hsteps.head hprobe, howns⟩

end Alone

/-! ## 2. Recovery -/

section Recovery

variable {host : Host} {s : World}

/-- A process can crash, where it is not gone already. -/
theorem crash_of (host : Host) (s : World) (p : Nat) :
    ∃ s', Relation.ReflTransGen (lockSystem host).step s s' ∧ s'.files = s.files ∧
      s'.process p = none ∧ ∀ q, s.process q = none → s'.process q = none := by
  cases hproc : s.process p with
  | none => exact ⟨s, .refl, rfl, hproc, fun _ => id⟩
  | some proc =>
    have hstep : host.step s (.crash p) =
        some { s with process := update s.process p none } := by
      simp [Host.step, World.alive, hproc]
    refine ⟨_, .single ⟨_, hstep⟩, rfl, update_self _ _ _, fun q hq => ?_⟩
    by_cases hqp : q = p
    · rw [hqp]; exact update_self _ _ _
    · exact (update_of_ne hqp _ _).trans hq

/-- An idle process begins an acquire. -/
theorem step_acquire {p : Nat} {proc : Process} {last : Option AcquireResult}
    (hproc : s.process p = some proc) (hidle : proc.main = .idle last) (options : AcquireOptions) :
    host.step s (.act p (.acquire options)) =
      some (s.withProcess s.files p (proc.acquiring options (.reading 0))) := by
  simp [Host.step, hproc, Host.act, hidle, World.withProcess]

theorem steps_of_ownSteps {p : Nat} {s' : World} (h : OwnSteps host p s s') :
    Relation.ReflTransGen (lockSystem host).step s s' :=
  Relation.ReflTransGen.mono (fun _ _ hstep => ⟨_, hstep⟩) _ _ h

theorem Sane.steps {s' : World} (h : Sane host s)
    (hrun : Relation.ReflTransGen (lockSystem host).step s s') : Sane host s' := by
  induction hrun with
  | refl => exact h
  | tail _ hlast ih => obtain ⟨e, he⟩ := hlast; exact ih.step he

/-- **From everywhere a later acquire can succeed.** -/
theorem later_acquire (hsane : Sane host s) :
    ∃ s₀ s' p, Relation.ReflTransGen (lockSystem host).step s s₀ ∧ s₀.owns p = false ∧
      Relation.ReflTransGen (lockSystem host).step s₀ s' ∧ s'.owns p = true := by
  -- the process that the lock names, if it names one, and the process 1 crash
  let named : Nat := (((s.files.file .lock).bind fun i => pidField (s.files.text i)).getD 0).toNat
  obtain ⟨s₁, hrun₁, hfiles₁, hnamed₁, -⟩ := crash_of host s named
  obtain ⟨s₂, hrun₂, hfiles₂, hone₂, hgone₂⟩ := crash_of host s₁ 1
  have hspawn : host.step s₂ (.spawn 1 .node 0) =
      some (s₂.withProcess s₂.files 1 (.start .node 0)) := by
    simp [Host.step, World.alive, hone₂, World.withProcess]
  have hsane₃ := (hsane.steps (hrun₁.trans hrun₂)).step hspawn
  have hproc : (s₂.withProcess s₂.files 1 (.start .node 0)).process 1 =
      some (.start .node 0) := by simp [World.withProcess]
  have habandoned : (s₂.withProcess s₂.files 1 (.start .node 0)).Abandoned host 1 := by
    intro i runtime lock hi hview q hq hne
    have hfiles : (s₂.withProcess s₂.files 1 (.start .node 0)).files = s.files :=
      hfiles₂.trans hfiles₁
    rw [hfiles] at hi hview
    have hnamed : named = q := by
      show (((s.files.file .lock).bind fun i => pidField (s.files.text i)).getD 0).toNat = q
      rw [hi, Option.bind_some, ← view_pid hview, hq]
      rfl
    exact (update_of_ne hne _ _).trans (hgone₂ q (hnamed ▸ hnamed₁))
  obtain ⟨s', hsteps, howns⟩ := owns_of_abandoned
    { listen := none, startedAt := "", desktopManaged := false } hsane₃ hproc habandoned
  refine ⟨_, s', 1, (hrun₁.trans hrun₂).tail ⟨_, hspawn⟩, ?_, ?_, howns⟩
  · rfl
  · exact (steps_of_ownSteps hsteps).head ⟨_, step_acquire hproc rfl _⟩

end Recovery

end Frogg.Server.PidLock
