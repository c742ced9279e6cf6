/-
  Subject:   What one operation on `frogg.pid` can change, and what the locks say in every run.
-/
import Frogg.Server.PidLockCalls

namespace Frogg.Server.PidLock

open Library Option LinkedFiles Function

/-! ## 1. The operations, told apart by what they change -/

/-- A main call whose next operation rests on nothing it found out before. -/
def MainCall.isFree : MainCall → Bool
  | .acquiring _ (.probing _ _) => false
  | .acquiring _ .touching => false
  | .acquiring _ (.unlinkingStale _ _) => false
  | .acquiring _ .linking => false
  | .releasing (.unlinking _) => false
  | _ => true

/-- What the next operation of the process `p` may be. -/
inductive Move (host : Host) (p : Nat) (files : LockFiles) (proc : Process) (act : Act)
    (files' : LockFiles) (proc' : Process) : Prop where
  | quiet (hfiles : files' = files) (hupdating : proc'.updating = proc.updating)
      (hmain : proc'.main = proc.main ∨ proc'.main.isFree = true)
      (howns : proc'.owns = true → proc.owns = true)
  | probe (options : AcquireOptions) (lock : LockView) (seen : Nat) (hfiles : files' = files)
      (hupdating : proc'.updating = proc.updating) (howns : proc'.owns = proc.owns)
      (hread : host.readPath proc.runtime files = some (seen, lock))
      (hmain' : proc'.main = .acquiring options (.probing lock seen))
  | reenter (options : AcquireOptions) (lock : LockView) (seen : Nat) (hfiles : files' = files)
      (hupdating : proc'.updating = proc.updating) (howns : proc'.owns = proc.owns)
      (hmain : proc.main = .acquiring options (.probing lock seen))
      (hpid : lock.pid = some (p : Int))
      (hmain' : proc'.main = .acquiring options .touching)
  | condemn (options : AcquireOptions) (lock : LockView) (seen : Nat) (hfiles : files' = files)
      (hupdating : proc'.updating = proc.updating) (howns : proc'.owns = proc.owns)
      (hmain : proc.main = .acquiring options (.probing lock seen))
      (hmain' : proc'.main = .acquiring options (.unlinkingStale lock seen))
  | touch (options : AcquireOptions) (hfiles : files' = files)
      (hupdating : proc'.updating = proc.updating)
      (hmain : proc.main = .acquiring options .touching) (hmain' : proc'.main.isFree = true)
  | unlinkUnreadable (options : AcquireOptions) (hact : act = .main)
      (hfiles : files' = files.unlink .lock)
      (hupdating : proc'.updating = proc.updating) (howns : proc'.owns = proc.owns)
      (hmain : proc.main = .acquiring options .unlinkingUnreadable)
      (hmain' : proc'.main.isFree = true)
  | unlinkStale (options : AcquireOptions) (lock : LockView) (seen : Nat) (hact : act = .main)
      (hfiles : files' = files.unlink .lock) (hupdating : proc'.updating = proc.updating)
      (howns : proc'.owns = proc.owns)
      (hmain : proc.main = .acquiring options (.unlinkingStale lock seen))
      (hmain' : proc'.main.isFree = true)
  | write (options : AcquireOptions)
      (hfiles : files' = files.write (.tmp p) (some (host.lockText p proc options)))
      (hupdating : proc'.updating = proc.updating) (howns : proc'.owns = proc.owns)
      (hmain' : proc'.main = .acquiring options .linking)
  | link (options : AcquireOptions) (hfiles : files.link (.tmp p) .lock = .ok files')
      (hupdating : proc'.updating = proc.updating)
      (hmain : proc.main = .acquiring options .linking) (hmain' : proc'.main.isFree = true)
  | unlinkTmp (hfiles : files' = files.unlink (.tmp p)) (hupdating : proc'.updating = proc.updating)
      (howns : proc'.owns = proc.owns) (hmain' : proc'.main.isFree = true)
  | ownRelease (lock : LockView) (seen : Nat) (hfiles : files' = files)
      (hupdating : proc'.updating = proc.updating) (howns : proc'.owns = proc.owns)
      (hread : host.readPath proc.runtime files = some (seen, lock))
      (hpid : lock.pid = some (p : Int)) (hmain' : proc'.main = .releasing (.unlinking seen))
  | release (seen : Nat) (hfiles : files' = files.unlink .lock)
      (hupdating : proc'.updating = proc.updating) (howns : proc'.owns = false)
      (hmain : proc.main = .releasing (.unlinking seen)) (hmain' : proc'.main.isFree = true)
  | read (hfiles : files' = files) (hmain : proc'.main = proc.main) (howns : proc'.owns = proc.owns)
      (hupdating : ∀ i info, proc.updating ≠ .rewriting i info)
      (hupdating' : proc'.updating = .idle ∨ (∃ listen, proc'.updating = .opening listen) ∨
        ∃ listen i attempt, proc'.updating = .reading listen i attempt ∧
          (files.file .lock = some i ∨ ∃ before, proc.updating = .reading listen i before))
  | prepare (listen : String) (i attempt : Nat) (lock : PidLockInfo) (hfiles : files' = files)
      (hmain : proc'.main = proc.main) (howns : proc'.owns = proc.owns)
      (hupdating : proc.updating = .reading listen i attempt)
      (hread : readPidLock (files.text i) = some lock) (hpid : lock.pid = .integer p)
      (hbrand : matchesBrand host.brand lock.brand = true)
      (hupdating' : proc'.updating = .truncating i { lock with listen := some listen })
  | truncate (i : Nat) (info : PidLockInfo) (hfiles : files' = files.overwrite i none)
      (hmain : proc'.main = proc.main) (howns : proc'.owns = proc.owns)
      (hupdating : proc.updating = .truncating i info)
      (hupdating' : proc'.updating = .rewriting i info)
  | rewrite (i : Nat) (info : PidLockInfo) (hfiles : files' = files.overwrite i (some info.toJson))
      (hmain : proc'.main = proc.main) (howns : proc'.owns = proc.owns)
      (hupdating : proc.updating = .rewriting i info) (hupdating' : proc'.updating = .idle)

variable {host : Host} {alive : Nat → Bool} {p : Nat} {files files' : LockFiles}
  {proc proc' : Process}

theorem acquireStep_move {options : AcquireOptions} {pc : AcquirePc}
    (hmain : proc.main = .acquiring options pc)
    (h : host.acquireStep alive p files proc options pc = (files', proc')) :
    Move host p files proc .main files' proc' := by
  cases pc with
  | reading attempt =>
    simp only [Host.acquireStep] at h
    split at h
    · cases h; exact .quiet rfl rfl (.inr rfl) id
    · rename_i seen lock hread
      split at h
      · cases h; exact .probe options lock seen rfl rfl rfl hread rfl
      · cases h; exact .quiet rfl rfl (.inr rfl) id
  | missing attempt =>
    simp only [Host.acquireStep] at h
    split at h <;> cases h <;> exact .quiet rfl rfl (.inr rfl) id
  | checkingAgain =>
    simp only [Host.acquireStep] at h
    split at h <;> cases h <;> exact .quiet rfl rfl (.inr rfl) id
  | unlinkingUnreadable => cases h; exact .unlinkUnreadable options rfl rfl rfl rfl hmain rfl
  | probing lock seen =>
    simp only [Host.acquireStep] at h
    split at h
    · split at h
      · rename_i hpid; cases h; exact .reenter options lock seen rfl rfl rfl hmain hpid rfl
      · cases h; exact .quiet rfl rfl (.inr rfl) id
    · cases h; exact .condemn options lock seen rfl rfl rfl hmain rfl
  | touching =>
    simp only [Host.acquireStep] at h
    split at h <;> cases h <;> exact .touch options rfl rfl hmain rfl
  | unlinkingStale lock seen =>
    cases h
    exact .unlinkStale options lock seen rfl rfl rfl rfl hmain rfl
  | writing => cases h; exact .write options rfl rfl rfl rfl
  | linking =>
    simp only [Host.acquireStep] at h
    split at h
    · rename_i linked hlink; cases h; exact .link options hlink rfl hmain rfl
    · cases h; exact .quiet rfl rfl (.inr rfl) id
    · split at h <;> cases h <;> exact .quiet rfl rfl (.inr rfl) id
  | racing attempt | racingMissing attempt =>
    simp only [Host.acquireStep, Process.lost] at h
    split at h
    · cases h; exact .quiet rfl rfl (.inr rfl) id
    · split at h <;> cases h <;> exact .quiet rfl rfl (.inr rfl) id
  | unlinkingTmp result =>
    simp only [Host.acquireStep] at h
    split at h <;> cases h <;> exact .unlinkTmp rfl rfl rfl rfl

theorem releaseStep_move {pc : ReleasePc} (hmain : proc.main = .releasing pc)
    (h : host.releaseStep p files proc pc = (files', proc')) :
    Move host p files proc .main files' proc' := by
  cases pc with
  | reading =>
    simp only [Host.releaseStep] at h
    split at h
    · cases h; exact .quiet rfl rfl (.inr rfl) nofun
    · rename_i seen lock hread
      split at h
      · rename_i hown
        cases h
        simp only [Runtime.isOwn, Bool.and_eq_true, decide_eq_true_eq] at hown
        exact .ownRelease lock seen rfl rfl rfl hread hown.1 rfl
      · cases h; exact .quiet rfl rfl (.inr rfl) nofun
  | unlinking seen => cases h; exact .release seen rfl rfl rfl hmain rfl

theorem updateStep_move (h : host.updateStep p files proc proc.updating = some (files', proc')) :
    Move host p files proc .updating files' proc' := by
  cases hupdating : proc.updating with
  | idle => rw [hupdating] at h; cases h
  | opening listen =>
    rw [hupdating] at h
    simp only [Host.updateStep] at h
    split at h
    · cases h; exact .read rfl rfl rfl (by simp [hupdating]) (.inl rfl)
    · rename_i i hi
      cases h
      exact .read rfl rfl rfl (by simp [hupdating])
        (.inr (.inr ⟨listen, i, 0, rfl, .inl hi⟩))
  | reading listen i attempt =>
    rw [hupdating] at h
    simp only [Host.updateStep] at h
    split at h
    · split at h
      · cases h
        exact .read rfl rfl rfl (by simp [hupdating])
          (.inr (.inr ⟨listen, i, attempt + 1, rfl, .inr ⟨attempt, hupdating⟩⟩))
      · cases h; exact .read rfl rfl rfl (by simp [hupdating]) (.inl rfl)
    · rename_i lock hread
      split at h
      · rename_i hown
        cases h
        exact .prepare listen i attempt lock rfl rfl rfl hupdating hread hown.1 hown.2 rfl
      · cases h; exact .read rfl rfl rfl (by simp [hupdating]) (.inl rfl)
  | truncating i info =>
    rw [hupdating] at h
    cases h
    exact .truncate i info rfl rfl rfl hupdating rfl
  | rewriting i info =>
    rw [hupdating] at h
    cases h
    exact .rewrite i info rfl rfl rfl hupdating rfl

/-- A heartbeat changes nothing but its own place and, where it fails, the ownership. -/
theorem beatStep_fields {call : HeartbeatCall} (h : host.beatStep p files proc call = some proc') :
    proc'.main = proc.main ∧ proc'.updating = proc.updating ∧
      (proc'.owns = true → proc.owns = true) := by
  cases call with
  | idle => cases h
  | opening =>
    simp only [Host.beatStep] at h
    split at h <;> cases h <;> simp [Process.beatFails]
  | readingFile i attempt =>
    simp only [Host.beatStep] at h
    split at h <;> split at h <;> cases h <;> simp [Process.beatFails]
  | touchingFile => cases h; simp
  | readingPath attempt =>
    simp only [Host.beatStep] at h
    split at h
    · cases h; simp
    · split at h <;> cases h <;> simp [Process.beatFails]
  | missingPath attempt =>
    simp only [Host.beatStep] at h
    split at h <;> cases h <;> simp [Process.beatFails]
  | touchingPath =>
    simp only [Host.beatStep] at h
    split at h <;> cases h <;> simp [Process.beatFails]

variable {act : Act}

/-- **What one operation of a process can change.** -/
theorem act_move (h : host.act alive p files proc act = some (files', proc')) :
    Move host p files proc act files' proc' := by
  cases act with
  | acquire options =>
    simp only [Host.act] at h
    split at h
    · cases h; exact .quiet rfl rfl (.inr rfl) id
    · cases h
  | release =>
    simp only [Host.act] at h
    split at h
    · cases h; exact .quiet rfl rfl (.inr rfl) id
    · cases h
  | update listen =>
    simp only [Host.act] at h
    split at h
    · rename_i hidle; cases h; exact .read rfl rfl rfl (by simp [hidle]) (.inr (.inl ⟨listen, rfl⟩))
    · cases h
  | heartbeat =>
    simp only [Host.act] at h
    split at h
    · cases h; exact .quiet rfl rfl (.inl rfl) id
    · cases h; exact .quiet rfl rfl (.inl rfl) id
    · cases h
  | main =>
    simp only [Host.act] at h
    split at h
    · cases h
    · rename_i options pc hmain; exact acquireStep_move hmain (some.inj h)
    · rename_i pc hmain; exact releaseStep_move hmain (some.inj h)
  | updating => exact updateStep_move h
  | beating =>
    obtain ⟨after, hbeat, heq⟩ := map_eq_some_iff.mp h
    cases heq
    obtain ⟨hmain, hupdating, howns⟩ := beatStep_fields hbeat
    exact .quiet rfl hupdating (.inl hmain) howns

/-! ## 2. What the locks say -/

/-- The pid that stands in a lock. -/
def pidField (held : Option Json) : Option Int :=
  (held.bind (·.field? "pid")).bind fun value => value.numberText?.bind Json.integer?

theorem toInteger_read (text : String) :
    (JsNumber.read text).toInteger? = Json.integer? text := by
  unfold JsNumber.read
  split
  · rename_i n hn; exact hn.symm
  · rename_i hnone; exact hnone.symm

variable {brand : BrandIdentity}

/-- Both runtimes read the same pid. -/
theorem view_pid {held : Option Json} {runtime : Runtime} {lock : LockView}
    (h : runtime.view brand held = some lock) : lock.pid = pidField held := by
  cases runtime with
  | node =>
    obtain ⟨info, hinfo, rfl⟩ := map_eq_some_iff.mp h
    obtain ⟨raw, rfl, hparse⟩ := bind_eq_some_iff.mp hinfo
    obtain ⟨text, htext, hnumber⟩ := map_eq_some_iff.mp (numbers_of_parse hparse).1
    obtain ⟨value, hvalue, hread⟩ := bind_eq_some_iff.mp htext
    rw [← hnumber, toInteger_read]
    simp [pidField, hvalue, hread]
  | rust =>
    obtain ⟨value, hvalue, rfl⟩ := map_eq_some_iff.mp h
    simp only [DaemonRs.readLock, bind_eq_bind, bind_eq_some_iff] at hvalue
    obtain ⟨raw, rfl, n, ⟨field, hfield, hn⟩, startedAt, -, hlock⟩ := hvalue
    cases hlock
    cases field with
    | number text =>
      have hinteger := (filter_eq_some_iff.mp hn).1
      simp [pidField, hfield, Json.numberText?, hinteger]
    | _ => cases hn

theorem pidField_toJson {info : PidLockInfo} {n : Int} (h : info.pid = .integer n) :
    pidField (some info.toJson) = some n := by
  obtain ⟨brand, pid, startedAt, hostname, uid, listen, desktopManaged, heartbeat⟩ := info
  obtain rfl := h
  cases brand <;> cases desktopManaged <;> cases heartbeat <;>
    simp [pidField, PidLockInfo.toJson, Json.field?, List.lookup_cons, JsNumber.toJson,
      Json.numberText?, Json.integer_integerText]

theorem pidField_lockJson {pid uid : Nat} {startedAt hostname listen : String} :
    pidField (some (DaemonRs.lockJson brand pid startedAt hostname uid listen)) =
      some (pid : Int) := by
  simp [pidField, DaemonRs.lockJson, Json.field?, List.lookup_cons, Json.numberText?,
    Json.integer_integerText]

/-- What a process publishes and rewrites: its own lock, for the Node daemon at least. -/
structure OwnText (brand : BrandIdentity) (p : Nat) (held : Option Json) : Prop where
  readable : ∃ lock, Runtime.node.view brand held = some lock
  pid : pidField held = some (p : Int)
  ours : ∀ runtime lock, Runtime.view brand held runtime = some lock → lock.matchesBrand = true

theorem ownText_toJson {info : PidLockInfo} (hp : p ≤ 2147483647) (hpid : info.pid = .integer p)
    (huid : info.uid.Written) (hbrand : matchesBrand brand info.brand = true) :
    OwnText brand p (some info.toJson) := by
  have hwritten : info.pid.Written := fun text h => by rw [hpid] at h; cases h
  have hnode : readPidLock (some info.toJson) = some info := parse_toJson hwritten huid
  refine ⟨⟨_, by rw [Runtime.view, hnode]; rfl⟩, pidField_toJson hpid, fun runtime lock h => ?_⟩
  cases runtime with
  | node => rw [Runtime.view, hnode] at h; obtain rfl := some.inj h; exact hbrand
  | rust =>
    rw [Runtime.view, DaemonRs.readLock_toJson hpid hp] at h
    obtain rfl := some.inj h
    exact (DaemonRs.matchesIdentity_toJson brand info.brand).trans hbrand

section

variable (brand : BrandIdentity)

theorem matchesBrand_self : matchesBrand brand (some brand) = true := by
  simp [matchesBrand]

theorem written_integer (n : Int) : (JsNumber.integer n).Written := fun _ => nofun

/-- A lock is published whole, and both runtimes take it for the product's own. -/
theorem ownText_lockText (hp : p ≤ 2147483647) (options : AcquireOptions) :
    OwnText host.brand p (some (host.lockText p proc options)) := by
  unfold Host.lockText
  cases proc.runtime with
  | node => exact ownText_toJson hp rfl (written_integer _) (matchesBrand_self _)
  | rust =>
    have hnode := DaemonRs.parse_lockJson host.brand p options.startedAt host.hostname proc.uid
      (options.listen.getD "")
    refine ⟨⟨_, by rfl⟩,
      pidField_lockJson, fun runtime lock h => ?_⟩
    cases runtime with
    | node =>
      rw [Runtime.view, readPidLock, bind_some, hnode] at h
      obtain rfl := some.inj h
      exact matchesBrand_self _
    | rust =>
      rw [Runtime.view, DaemonRs.readLock_lockJson _ hp] at h
      obtain rfl := some.inj h
      exact (DaemonRs.matchesIdentity_toJson host.brand (some host.brand)).trans
        (matchesBrand_self _)

/-- The lock that an update of the process `p` is about to write. -/
def UpdateCall.Owned (p : Nat) : UpdateCall → Prop
  | .truncating _ info | .rewriting _ info =>
    info.pid = .integer p ∧ info.uid.Written ∧ matchesBrand brand info.brand = true
  | _ => True

/-- An operation leaves a file, empties it or writes a lock of the process into it. -/
theorem Move.text (h : Move host p files proc act files' proc') (hp : p ≤ 2147483647)
    (howned : proc.updating.Owned host.brand p) (i : Nat) :
    files'.text i = files.text i ∨ files'.text i = none ∨ OwnText host.brand p (files'.text i) := by
  cases h with
  | write options hfiles =>
    rw [hfiles]
    rcases write_text files (.tmp p) (some (host.lockText p proc options)) i with h | h
    · exact .inl h
    · rw [h]; exact .inr (.inr (ownText_lockText hp options))
  | truncate j info hfiles =>
    rw [hfiles]
    by_cases h : i = j
    · rw [h]; exact .inr (.inl overwrite_self)
    · exact .inl (overwrite_of_ne h)
  | rewrite j info hfiles hmain howns hupdating =>
    rw [hfiles]
    rw [hupdating] at howned
    obtain ⟨hpid, huid, hbrand⟩ := howned
    by_cases h : i = j
    · rw [h, overwrite_self]; exact .inr (.inr (ownText_toJson hp hpid huid hbrand))
    · exact .inl (overwrite_of_ne h)
  | link options hfiles =>
    obtain ⟨-, -, -, -, htext, -⟩ := link_ok hfiles
    rw [htext]
    exact .inl rfl
  | quiet hfiles => exact .inl (by rw [hfiles])
  | probe options lock seen hfiles => exact .inl (by rw [hfiles])
  | reenter options lock seen hfiles => exact .inl (by rw [hfiles])
  | condemn options lock seen hfiles => exact .inl (by rw [hfiles])
  | touch options hfiles => exact .inl (by rw [hfiles])
  | unlinkUnreadable options hact hfiles => exact .inl (by rw [hfiles, unlink_text])
  | unlinkStale options lock seen hact hfiles => exact .inl (by rw [hfiles, unlink_text])
  | unlinkTmp hfiles => exact .inl (by rw [hfiles, unlink_text])
  | ownRelease lock seen hfiles => exact .inl (by rw [hfiles])
  | release seen hfiles => exact .inl (by rw [hfiles, unlink_text])
  | read hfiles => exact .inl (by rw [hfiles])
  | prepare listen j attempt lock hfiles => exact .inl (by rw [hfiles])

/-! ## 3. Every run -/

/-- What one event can do. -/
theorem step_cases {s s' : World} {e : Event} (h : host.step s e = some s') :
    (∃ p runtime uid, e = .spawn p runtime uid ∧ s.process p = none ∧ 0 < p ∧ p ≤ 2147483647 ∧
      s' = { s with process := update s.process p (some (.start runtime uid)) }) ∨
    (∃ p, e = .crash p ∧ s' = { s with process := update s.process p none }) ∨
    (∃ p act proc files' proc', e = .act p act ∧ s.process p = some proc ∧
      host.act s.alive p s.files proc act = some (files', proc') ∧
      s' = { files := files', process := update s.process p (some proc') }) := by
  cases e with
  | spawn p runtime uid =>
    simp only [Host.step] at h
    split at h
    · cases h
    · rename_i hguard
      simp only [Bool.or_eq_true, decide_eq_true_eq, not_or, World.alive, Bool.not_eq_true,
        isSome_eq_false_iff, isNone_iff_eq_none] at hguard
      obtain ⟨⟨hnone, hpos⟩, hmax⟩ := hguard
      exact .inl ⟨p, runtime, uid, rfl, hnone, Nat.pos_of_ne_zero hpos, Nat.not_lt.mp hmax,
        (some.inj h).symm⟩
  | crash p =>
    simp only [Host.step] at h
    split at h
    · exact .inr (.inl ⟨p, rfl, (some.inj h).symm⟩)
    · cases h
  | act p act =>
    obtain ⟨proc, hproc, hact⟩ := bind_eq_some_iff.mp h
    obtain ⟨⟨files', proc'⟩, hmove, rfl⟩ := map_eq_some_iff.mp hact
    exact .inr (.inr ⟨p, act, proc, files', proc', rfl, hproc, hmove, rfl⟩)

/-- A text that both runtimes take for a lock of the product, of a pid a process can have. -/
def Lawful (held : Option Json) : Prop :=
  ∀ runtime lock, Runtime.view brand held runtime = some lock →
    lock.matchesBrand = true ∧ ∃ pid : Nat, 0 < pid ∧ lock.pid = some (pid : Int)

end

theorem OwnText.lawful {held : Option Json} (h : OwnText brand p held) (hp : 0 < p) :
    Lawful brand held :=
  fun runtime lock hlock => ⟨h.ours runtime lock hlock, p, hp, (view_pid hlock).trans h.pid⟩

variable (brand : BrandIdentity)

theorem view_none (runtime : Runtime) : runtime.view brand none = none := by
  cases runtime <;> rfl

theorem lawful_none : Lawful brand none :=
  fun runtime lock h => by rw [view_none] at h; cases h

/-- A home as the daemons of the product leave it: no lock, one that cannot be read, or one of
    the product. -/
def Startable (home : Option (Option Json)) : Prop :=
  ∀ held, home = some held → Lawful brand held

/-- Every run from a home as the daemons leave it. -/
def lockSystem (host : Host) : TransitionSystem World where
  init s := ∃ home, Startable host.brand home ∧ s = World.start home
  step s s' := ∃ e, host.step s e = some s'

/-- What holds in every run: the pids, the locks the updates are about to write, and what the
    files say. -/
structure Sane (host : Host) (s : World) : Prop where
  pid : ∀ {p proc}, s.process p = some proc → 0 < p ∧ p ≤ 2147483647
  owned : ∀ {p proc}, s.process p = some proc → proc.updating.Owned host.brand p
  lawful : ∀ i, Lawful host.brand (s.files.text i)

/-- The processes after one was set: the one that was, and the others as before. -/
theorem of_update {processes : Nat → Option Process} {q : Nat} {now : Option Process}
    {after : Process} (h : update processes p now q = some after) :
    (q = p ∧ now = some after) ∨ (q ≠ p ∧ processes q = some after) := by
  by_cases hqp : q = p
  · rw [hqp, update_self] at h; exact .inl ⟨hqp, h⟩
  · exact .inr ⟨hqp, (update_of_ne hqp _ _).symm.trans h⟩

theorem sane_start {home : Option (Option Json)} (h : Startable host.brand home) :
    Sane host (World.start home) := by
  cases home with
  | none => exact ⟨nofun, nofun, fun _ => lawful_none _⟩
  | some held =>
    refine ⟨nofun, nofun, fun i => ?_⟩
    show Lawful host.brand (((LinkedFiles.empty none).write LockName.lock held).text i)
    rcases write_text (LinkedFiles.empty none) LockName.lock held i with htext | htext
    · rw [htext]; exact lawful_none _
    · rw [htext]; exact h held rfl

/-- What an update is about to write was read as its own. -/
theorem Move.owned (h : Move host p files proc act files' proc')
    (howned : proc.updating.Owned host.brand p) : proc'.updating.Owned host.brand p := by
  cases h with
  | quiet _ hupdating => rwa [hupdating]
  | probe _ _ _ _ hupdating => rwa [hupdating]
  | reenter _ _ _ _ hupdating => rwa [hupdating]
  | condemn _ _ _ _ hupdating => rwa [hupdating]
  | touch _ _ hupdating => rwa [hupdating]
  | unlinkUnreadable _ _ _ hupdating => rwa [hupdating]
  | unlinkStale _ _ _ _ _ hupdating => rwa [hupdating]
  | write _ _ hupdating => rwa [hupdating]
  | link _ _ hupdating => rwa [hupdating]
  | unlinkTmp _ hupdating => rwa [hupdating]
  | ownRelease _ _ _ hupdating => rwa [hupdating]
  | release _ _ hupdating => rwa [hupdating]
  | read _ _ _ _ hupdating' =>
    obtain hidle | ⟨listen, hopening⟩ | ⟨listen, i, attempt, hreading, -⟩ := hupdating'
    · rw [hidle]; trivial
    · rw [hopening]; trivial
    · rw [hreading]; trivial
  | prepare listen i attempt lock _ _ _ _ hread hpid hbrand hupdating' =>
    rw [hupdating']
    obtain ⟨raw, -, hparse⟩ := bind_eq_some_iff.mp hread
    exact ⟨hpid, written_of_numberField (numbers_of_parse hparse).2, hbrand⟩
  | truncate i info _ _ _ hupdating hupdating' =>
    rw [hupdating']
    rw [hupdating] at howned
    exact howned
  | rewrite i info _ _ _ _ hupdating' => rw [hupdating']; trivial

theorem Sane.step {s s' : World} {e : Event} (h : Sane host s) (hstep : host.step s e = some s') :
    Sane host s' := by
  obtain ⟨p, runtime, uid, -, -, hpos, hmax, rfl⟩ | ⟨p, -, rfl⟩ |
    ⟨p, act, proc, files', proc', -, hproc, hact, rfl⟩ := step_cases hstep
  · refine ⟨fun {q after} hq => ?_, fun {q after} hq => ?_, h.lawful⟩
    · obtain ⟨rfl, -⟩ | ⟨-, hbefore⟩ := of_update hq
      · exact ⟨hpos, hmax⟩
      · exact h.pid hbefore
    · obtain ⟨rfl, hnow⟩ | ⟨-, hbefore⟩ := of_update hq
      · obtain rfl := some.inj hnow; trivial
      · exact h.owned hbefore
  · have hbefore : ∀ {q after}, update s.process p none q = some after →
        s.process q = some after := fun {q after} hq => by
      obtain ⟨-, hnow⟩ | ⟨-, hbefore⟩ := of_update hq
      · cases hnow
      · exact hbefore
    exact ⟨fun hq => h.pid (hbefore hq), fun hq => h.owned (hbefore hq), h.lawful⟩
  · have hmove := act_move hact
    obtain ⟨hpos, hmax⟩ := h.pid hproc
    refine ⟨fun {q after} hq => ?_, fun {q after} hq => ?_, fun i => ?_⟩
    · obtain ⟨rfl, -⟩ | ⟨-, hbefore⟩ := of_update hq
      · exact ⟨hpos, hmax⟩
      · exact h.pid hbefore
    · obtain ⟨rfl, hnow⟩ | ⟨-, hbefore⟩ := of_update hq
      · obtain rfl := some.inj hnow; exact hmove.owned (h.owned hproc)
      · exact h.owned hbefore
    · rcases hmove.text hmax (h.owned hproc) i with htext | htext | htext
      · exact htext ▸ h.lawful i
      · exact htext ▸ lawful_none _
      · exact htext.lawful hpos

end Frogg.Server.PidLock
