/-
  Subject:   What the owner of a home has at the path, as long as each removal of the lock
             removes the lock that was looked at.

  The invariant gives every file the pid its lock was written for. A process that owns the home
  has the lock at the path, written for it, and either readable or between the truncation and the
  rewrite of its own update.
-/
import Frogg.Server.PidLockMoves

namespace Frogg.Server.PidLock

open Library Option Function LinkedFiles

/-! ## 1. The runs in question -/

/-- A live process has emptied the file and not yet rewritten it. -/
def World.Rewriting (s : World) (i : Nat) : Prop :=
  ∃ p proc info, s.process p = some proc ∧ proc.updating = .rewriting i info

/-- A removal by path meets the file that was looked at: a stale lock is still the one that was
    read, and no process has taken its pid; a lock that could not be read is one that neither
    runtime can read and that nobody is rewriting. -/
structure Careful (host : Host) (s : World) (proc : Process) : Prop where
  stale : ∀ {options lock seen}, proc.main = .acquiring options (.unlinkingStale lock seen) →
    ∀ i, s.files.file .lock = some i →
      i = seen ∧ ∀ q : Nat, lock.pid = some (q : Int) → s.process q = none
  unreadable : ∀ {options}, proc.main = .acquiring options .unlinkingUnreadable →
    ∀ i, s.files.file .lock = some i →
      (∀ runtime, Runtime.view host.brand (s.files.text i) runtime = none) ∧ ¬ s.Rewriting i

def CarefulEvent (host : Host) (s : World) (e : Event) : Prop :=
  ∀ p proc, e = .act p .main → s.process p = some proc → Careful host s proc

/-- The runs whose removals are careful. -/
def carefulSystem (host : Host) : TransitionSystem World where
  init s := ∃ home, Startable host.brand home ∧ s = World.start home
  step s s' := ∃ e, CarefulEvent host s e ∧ host.step s e = some s'

/-! ## 2. The invariant -/

/-- The pid that each file's lock was written for. -/
abbrev Author := Nat → Option Int

section Claims

variable (brand : BrandIdentity) (author : Author) (files : LockFiles) (p : Nat)
  (call : UpdateCall)

/-- A file with a lock of the process, or one it is rewriting. -/
structure Stands (i : Nat) : Prop where
  lt : i < files.fresh
  author : author i = some (p : Int)
  held : (∃ runtime lock, Runtime.view brand (files.text i) runtime = some lock) ∨
    ∃ info, call = .rewriting i info

structure Claims (i : Nat) : Prop where
  lock : files.file .lock = some i
  stands : Stands brand author files p call i

/-- What the next operation of the main call rests on. -/
def MainInv : MainCall → Prop
  | .acquiring _ (.probing lock seen) =>
    seen < files.fresh ∧ author seen = lock.pid ∧
      (lock.pid = some (p : Int) → Claims brand author files p call seen)
  | .acquiring _ .touching => ∃ i, Claims brand author files p call i
  | .acquiring _ (.unlinkingStale lock seen) => seen < files.fresh ∧ author seen = lock.pid
  | .acquiring _ .linking =>
    ∃ i, files.file (.tmp p) = some i ∧ Stands brand author files p call i
  | .releasing (.unlinking seen) => Claims brand author files p call seen
  | _ => True

def UpdateInv : UpdateCall → Prop
  | .reading _ i _ => i < files.fresh
  | .truncating i _ | .rewriting i _ => i < files.fresh ∧ author i = some (p : Int)
  | _ => True

end Claims

structure Guarded (host : Host) (author : Author) (s : World) : Prop where
  sane : Sane host s
  written : ∀ i runtime lock, Runtime.view host.brand (s.files.text i) runtime = some lock →
    lock.pid = author i
  tmp : ∀ p i, s.files.file (.tmp p) = some i → author i = some (p : Int)
  owns : ∀ {p proc}, s.process p = some proc → proc.owns = true →
    ∃ i, Claims host.brand author s.files p proc.updating i
  main : ∀ {p proc}, s.process p = some proc →
    MainInv host.brand author s.files p proc.updating proc.main
  updating : ∀ {p proc}, s.process p = some proc → UpdateInv author s.files p proc.updating

/-! ## 3. What an operation leaves to a process -/

/-- The files of a process before and after, whose update may have gone on meanwhile. -/
structure Kept (brand : BrandIdentity) (author : Author) (files : LockFiles) (author' : Author)
    (files' : LockFiles) (p : Nat) (call call' : UpdateCall) : Prop where
  lock : ∀ {i}, Claims brand author files p call i → files'.file .lock = some i
  tmp : files'.file (.tmp p) = files.file (.tmp p)
  stands : ∀ {i}, Stands brand author files p call i →
    Stands brand author' files' p call' i
  author : ∀ {i}, i < files.fresh → author' i = author i
  fresh : files.fresh ≤ files'.fresh

variable {i : Nat} {held : Option Json}

section Kept

variable {brand : BrandIdentity} {author author' : Author} {files files' : LockFiles} {p : Nat}
  {call call' : UpdateCall}

theorem Kept.claims (h : Kept brand author files author' files' p call call')
    (hclaims : Claims brand author files p call i) : Claims brand author' files' p call' i :=
  ⟨h.lock hclaims, h.stands hclaims.stands⟩

theorem Kept.main (h : Kept brand author files author' files' p call call')
    {main : MainCall} (hmain : MainInv brand author files p call main) :
    MainInv brand author' files' p call' main := by
  unfold MainInv at hmain ⊢
  split at hmain
  · obtain ⟨hlt, hauthor, hown⟩ := hmain
    exact ⟨Nat.lt_of_lt_of_le hlt h.fresh, (h.author hlt).trans hauthor,
      fun hpid => h.claims (hown hpid)⟩
  · obtain ⟨i, hi⟩ := hmain; exact ⟨i, h.claims hi⟩
  · obtain ⟨hlt, hauthor⟩ := hmain
    exact ⟨Nat.lt_of_lt_of_le hlt h.fresh, (h.author hlt).trans hauthor⟩
  · obtain ⟨i, hi, hstands⟩ := hmain; exact ⟨i, h.tmp.trans hi, h.stands hstands⟩
  · exact h.claims hmain
  · trivial

theorem Kept.updating (h : Kept brand author files author' files' p call call)
    (hupdating : UpdateInv author files p call) : UpdateInv author' files' p call := by
  unfold UpdateInv at hupdating ⊢
  split at hupdating
  · exact Nat.lt_of_lt_of_le hupdating h.fresh
  · exact ⟨Nat.lt_of_lt_of_le hupdating.1 h.fresh, (h.author hupdating.1).trans hupdating.2⟩
  · exact ⟨Nat.lt_of_lt_of_le hupdating.1 h.fresh, (h.author hupdating.1).trans hupdating.2⟩
  · trivial

theorem Kept.refl : Kept brand author files author files p call call :=
  ⟨fun h => h.lock, rfl, id, fun _ => rfl, Nat.le_refl _⟩

/-- An update that is not at the rewrite may go on to any place. -/
theorem Kept.of_not_rewriting (h : ∀ i info, call ≠ .rewriting i info) :
    Kept brand author files author files p call call' where
  lock hclaims := hclaims.lock
  tmp := rfl
  stands hstands := by
    refine ⟨hstands.lt, hstands.author, hstands.held.imp_right ?_⟩
    intro hrewriting
    obtain ⟨info, hinfo⟩ := hrewriting
    exact absurd hinfo (h _ info)
  author _ := rfl
  fresh := Nat.le_refl _

/-- The lock is removed where the process has no claim to it. -/
theorem Kept.of_unlink_lock (h : ∀ i, ¬ Claims brand author files p call i) :
    Kept brand author files author (files.unlink .lock) p call call where
  lock hclaims := absurd hclaims (h _)
  tmp := unlink_of_ne (by simp)
  stands hstands := ⟨hstands.lt, hstands.author, hstands.held⟩
  author _ := rfl
  fresh := Nat.le_refl _

/-- A file written for another process is emptied or rewritten. -/
theorem Kept.of_overwrite (h : author i ≠ some (p : Int)) :
    Kept brand author files author (files.overwrite i held) p call call where
  lock hclaims := hclaims.lock
  tmp := rfl
  stands {j} hstands := by
    have hne : j ≠ i := fun hji => h (hji ▸ hstands.author)
    refine ⟨hstands.lt, hstands.author, ?_⟩
    rw [overwrite_of_ne hne]
    exact hstands.held
  author _ := rfl
  fresh := Nat.le_refl _

variable {q : Nat}

theorem Kept.of_unlink_tmp (h : p ≠ q) :
    Kept brand author files author (files.unlink (.tmp q)) p call call where
  lock hclaims := (unlink_of_ne (by simp)).trans hclaims.lock
  tmp := unlink_of_ne (by simp [h])
  stands hstands := ⟨hstands.lt, hstands.author, hstands.held⟩
  author _ := rfl
  fresh := Nat.le_refl _

/-- Another process writes its temporary file, which is the file `t` after it. -/
theorem Kept.of_write {t : Nat} (h : p ≠ q)
    (hfile : (files.write (.tmp q) held).file (.tmp q) = some t)
    (hauthor : ∀ i, files.file (.tmp q) = some i → author i = some (q : Int)) :
    Kept brand author files (update author t (some (q : Int)))
      (files.write (.tmp q) held) p call call := by
  have hsame : ∀ {i}, i < files.fresh → update author t (some (q : Int)) i = author i := by
    intro i hlt
    by_cases hit : i = t
    · rw [hit, update_self]
      rcases write_file hfile with hold | hnew
      · exact (hauthor t hold).symm
      · exact absurd hlt (by rw [hit, hnew]; exact Nat.lt_irrefl _)
    · exact update_of_ne hit _ _
  refine ⟨fun hclaims => ?_, ?_, fun {i} hstands => ?_, hsame, fresh_le_write⟩
  · exact (write_of_ne (by simp)).trans hclaims.lock
  · exact write_of_ne (by simp [h])
  · have hit : i ≠ t := by
      intro hit
      rw [hit] at hstands
      rcases write_file hfile with hold | hnew
      · have heq := (hauthor t hold).symm.trans hstands.author
        exact h (Int.ofNat.inj (some.inj heq)).symm
      · exact absurd hstands.lt (by rw [hnew]; exact Nat.lt_irrefl _)
    refine ⟨Nat.lt_of_lt_of_le hstands.lt fresh_le_write,
      (hsame hstands.lt).trans hstands.author, ?_⟩
    rw [write_text_of_ne fun hi => hit (mem_unique hi hfile)]
    exact hstands.held

/-- The lock is published where there was none. -/
theorem Kept.of_link (h : files.link (.tmp q) .lock = .ok files') :
    Kept brand author files author files' p call call := by
  obtain ⟨i, -, hnone, hfile, htext, hfresh⟩ := link_ok h
  refine ⟨fun hclaims => ?_, ?_, fun hstands => ?_, fun _ => rfl, Nat.le_of_eq hfresh.symm⟩
  · cases hnone.symm.trans hclaims.lock
  · rw [hfile]; exact update_of_ne (by simp) _ _
  · exact ⟨hfresh ▸ hstands.lt, hstands.author, htext ▸ hstands.held⟩

theorem mainInv_of_isFree {main : MainCall} (h : main.isFree = true) :
    MainInv brand author files p call main := by
  unfold MainInv
  split
  · cases h
  · cases h
  · cases h
  · cases h
  · cases h
  · trivial

end Kept

/-! ## 4. One operation -/

section Step

variable {host : Host} {author author' : Author} {s : World} {p : Nat} {proc proc' : Process}
  {files' : LockFiles}

/-- What a process finds in a lock it reads at the path. -/
theorem Guarded.readPath (h : Guarded host author s) {runtime : Runtime} {seen : Nat}
    {lock : LockView} (hread : host.readPath runtime s.files = some (seen, lock)) :
    s.files.file .lock = some seen ∧ seen < s.files.fresh ∧ author seen = lock.pid ∧
      ∀ {q call}, lock.pid = some ((q : Nat) : Int) →
        Claims host.brand author s.files q call seen := by
  obtain ⟨i, hi, hlock⟩ := bind_eq_some_iff.mp hread
  obtain ⟨view, hview, heq⟩ := map_eq_some_iff.mp hlock
  cases heq
  have hlt := s.files.file_lt hi
  have hauthor := (h.written seen runtime lock hview).symm
  exact ⟨hi, hlt, hauthor, fun hpid => ⟨hi, hlt, hauthor.trans hpid, .inl ⟨runtime, lock, hview⟩⟩⟩

/-- The invariant after an operation, from what it left to the others and to the process. -/
theorem Guarded.of_move (h : Guarded host author s) (hproc : s.process p = some proc)
    {act : Act} (hact : host.act s.alive p s.files proc act = some (files', proc'))
    (hwritten : ∀ i runtime lock, Runtime.view host.brand (files'.text i) runtime = some lock →
      lock.pid = author' i)
    (htmp : ∀ q i, files'.file (.tmp q) = some i → author' i = some (q : Int))
    (hothers : ∀ {q other}, q ≠ p → s.process q = some other →
      Kept host.brand author s.files author' files' q other.updating other.updating)
    (howns : proc'.owns = true → ∃ i, Claims host.brand author' files' p proc'.updating i)
    (hmain : MainInv host.brand author' files' p proc'.updating proc'.main)
    (hupdating : UpdateInv author' files' p proc'.updating) :
    Guarded host author'
      { files := files', process := update s.process p (some proc') } := by
  have hsane : Sane host { files := files', process := update s.process p (some proc') } :=
    @Sane.step host s _ (.act p act) h.sane (by simp [Host.step, hproc, hact])
  refine ⟨hsane, hwritten, htmp, fun {q after} hq hown => ?_, fun {q after} hq => ?_,
    fun {q after} hq => ?_⟩
  · obtain ⟨rfl, hnow⟩ | ⟨hne, hbefore⟩ := of_update hq
    · obtain rfl := some.inj hnow; exact howns hown
    · obtain ⟨i, hi⟩ := h.owns hbefore hown; exact ⟨i, (hothers hne hbefore).claims hi⟩
  · obtain ⟨rfl, hnow⟩ | ⟨hne, hbefore⟩ := of_update hq
    · obtain rfl := some.inj hnow; exact hmain
    · exact (hothers hne hbefore).main (h.main hbefore)
  · obtain ⟨rfl, hnow⟩ | ⟨hne, hbefore⟩ := of_update hq
    · obtain rfl := some.inj hnow; exact hupdating
    · exact (hothers hne hbefore).updating (h.updating hbefore)

variable {q : Nat} {other : Process}

/-- Where an unreadable lock is removed with care no live process claims it. -/
theorem Careful.unclaimed_unreadable (hcare : Careful host s proc) {options : AcquireOptions}
    (hmain : proc.main = .acquiring options .unlinkingUnreadable) (hq : s.process q = some other)
    (i : Nat) : ¬ Claims host.brand author s.files q other.updating i := by
  intro hclaims
  obtain ⟨hviews, hrewriting⟩ := hcare.unreadable hmain i hclaims.lock
  rcases hclaims.stands.held with ⟨runtime, lock, hlock⟩ | ⟨info, hinfo⟩
  · cases (hviews runtime).symm.trans hlock
  · exact hrewriting ⟨q, other, info, hq, hinfo⟩

/-- Where a stale lock is removed with care no live process claims it. -/
theorem Careful.unclaimed_stale (hcare : Careful host s proc) {options : AcquireOptions}
    {lock : LockView} {seen : Nat}
    (hmain : proc.main = .acquiring options (.unlinkingStale lock seen))
    (hauthor : author seen = lock.pid) (hq : s.process q = some other) (i : Nat) :
    ¬ Claims host.brand author s.files q other.updating i := by
  intro hclaims
  obtain ⟨rfl, hdead⟩ := hcare.stale hmain i hclaims.lock
  have hpid : lock.pid = some (q : Int) := hauthor.symm.trans hclaims.stands.author
  cases (hdead q hpid).symm.trans hq

/-- A process writes its lock into its temporary file. -/
theorem Guarded.write (h : Guarded host author s) (hproc : s.process p = some proc) {act : Act}
    {options : AcquireOptions} (hact : host.act s.alive p s.files proc act =
      some (s.files.write (.tmp p) (some (host.lockText p proc options)), proc'))
    (hupdating : proc'.updating = proc.updating) (howns : proc'.owns = proc.owns)
    (hmain' : proc'.main = .acquiring options .linking) :
    ∃ author', Guarded host author'
      { files := s.files.write (.tmp p) (some (host.lockText p proc options))
        process := update s.process p (some proc') } := by
  obtain ⟨t, hfile, htext⟩ := write_holds s.files (.tmp p) (some (host.lockText p proc options))
  have hown : OwnText host.brand p (some (host.lockText p proc options)) :=
    ownText_lockText (h.sane.pid hproc).2 options
  have hkept : ∀ {q call}, q ≠ p → Kept host.brand author s.files
      (update author t (some (p : Int)))
      (s.files.write (.tmp p) (some (host.lockText p proc options))) q call call :=
    fun {q call} hne => .of_write hne hfile (h.tmp p)
  have hsame : ∀ {i}, i < s.files.fresh →
      update author t (some (p : Int)) i = author i := fun {i} hlt =>
    (@hkept (p + 1) .idle (Nat.succ_ne_self p)).author hlt
  have hself : ∀ {i}, Stands host.brand author s.files p proc.updating i →
      Stands host.brand (update author t (some (p : Int)))
        (s.files.write (.tmp p) (some (host.lockText p proc options))) p proc.updating i := by
    intro i hi
    refine ⟨Nat.lt_of_lt_of_le hi.lt fresh_le_write, (hsame hi.lt).trans hi.author, ?_⟩
    by_cases hit : i = t
    · rw [hit, htext]; exact .inl ⟨.node, hown.readable⟩
    · rw [write_text_of_ne fun hfi => hit (mem_unique hfi hfile)]; exact hi.held
  refine ⟨_, h.of_move hproc hact (fun i runtime lock hlock => ?_) (fun q i hi => ?_)
    (fun hne _ => hkept hne) ?_ ?_ ?_⟩
  · by_cases hit : i = t
    · rw [hit, update_self]; rw [hit, htext] at hlock; exact (view_pid hlock).trans hown.pid
    · rw [update_of_ne hit]
      rw [write_text_of_ne fun hfi => hit (mem_unique hfi hfile)] at hlock
      exact h.written i runtime lock hlock
  · by_cases hqp : q = p
    · rw [hqp] at hi ⊢; rw [mem_unique hi hfile, update_self]
    · rw [write_of_ne (by simp [hqp])] at hi
      exact (hsame (s.files.file_lt hi)).trans (h.tmp q i hi)
  · rw [hupdating, howns]
    intro howner
    obtain ⟨i, hlock, hstands⟩ := h.owns hproc howner
    exact ⟨i, (write_of_ne (by simp)).trans hlock, hself hstands⟩
  · rw [hmain']
    refine ⟨t, hfile, file_lt _ hfile, update_self _ _ _, .inl ⟨.node, ?_⟩⟩
    rw [htext]
    exact hown.readable
  · rw [hupdating]
    have hupdate := h.updating hproc
    unfold UpdateInv at hupdate ⊢
    split at hupdate
    · exact Nat.lt_of_lt_of_le hupdate fresh_le_write
    · exact ⟨Nat.lt_of_lt_of_le hupdate.1 fresh_le_write, (hsame hupdate.1).trans hupdate.2⟩
    · exact ⟨Nat.lt_of_lt_of_le hupdate.1 fresh_le_write, (hsame hupdate.1).trans hupdate.2⟩
    · trivial

section

variable (h : Guarded host author s) (hproc : s.process p = some proc)
include h hproc

/-- What the process owns stays its own. -/
theorem Guarded.owns_kept {call : UpdateCall}
    (hkept : Kept host.brand author s.files author' files' p proc.updating call)
    (howns : proc'.owns = proc.owns) (hown : proc'.owns = true) :
    ∃ i, Claims host.brand author' files' p call i := by
  obtain ⟨i, hi⟩ := h.owns hproc (howns ▸ hown)
  exact ⟨i, hkept.claims hi⟩

/-- An update empties or rewrites a lock of its own process. -/
theorem Guarded.overwrite {act : Act}
    (hact : host.act s.alive p s.files proc act = some (s.files.overwrite i held, proc'))
    (hauthor : author i = some (p : Int))
    (hheld : ∀ runtime lock, Runtime.view host.brand held runtime = some lock →
      lock.pid = some (p : Int))
    (hstands : ∀ j, Stands host.brand author s.files p proc.updating j →
      (∃ runtime lock,
        Runtime.view host.brand ((s.files.overwrite i held).text j) runtime = some lock) ∨
        ∃ info, proc'.updating = .rewriting j info) (hmain' : proc'.main = proc.main)
    (howns : proc'.owns = proc.owns) (hupdating : UpdateInv author s.files p proc'.updating) :
    Guarded host author
      { files := s.files.overwrite i held, process := update s.process p (some proc') } := by
  have hkept : Kept host.brand author s.files author (s.files.overwrite i held) p proc.updating
      proc'.updating :=
    ⟨fun hclaims => hclaims.lock, rfl, fun hj => ⟨hj.lt, hj.author, hstands _ hj⟩, fun _ => rfl,
      Nat.le_refl _⟩
  refine h.of_move hproc hact (fun j runtime lock hlock => ?_) h.tmp (fun hne _ => ?_)
    (h.owns_kept hproc hkept howns) ?_ hupdating
  · by_cases hji : j = i
    · rw [hji, overwrite_self] at hlock; rw [hji, hauthor]; exact hheld runtime lock hlock
    · rw [overwrite_of_ne hji] at hlock; exact h.written j runtime lock hlock
  · refine .of_overwrite fun hother => hne ?_
    exact (Int.ofNat.inj (mem_unique hauthor hother)).symm
  · rw [hmain']; exact hkept.main (h.main hproc)

section

variable {act : Act} (hact : host.act s.alive p s.files proc act = some (files', proc'))
  (hupdating : proc'.updating = proc.updating)
include hact hupdating

/-- The files stay, and so does the update of the process. -/
theorem Guarded.stay (hfiles : files' = s.files)
    (howns : proc'.owns = true → ∃ i, Claims host.brand author s.files p proc.updating i)
    (hmain : MainInv host.brand author s.files p proc.updating proc'.main) :
    ∃ author', Guarded host author'
      { files := files', process := update s.process p (some proc') } := by
  subst hfiles
  rw [← hupdating] at howns hmain
  exact ⟨author, h.of_move hproc hact h.written h.tmp (fun _ _ => .refl) howns hmain
    (hupdating ▸ h.updating hproc)⟩

/-- The lock is removed where no other process claims it and this one owns none. -/
theorem Guarded.unlinkLock (hfiles : files' = s.files.unlink .lock)
    (hnone : ∀ {q other}, q ≠ p → s.process q = some other →
      ∀ i, ¬ Claims host.brand author s.files q other.updating i)
    (howns : ¬ proc'.owns = true) (hmain : proc'.main.isFree = true) :
    ∃ author', Guarded host author'
      { files := files', process := update s.process p (some proc') } := by
  subst hfiles
  refine ⟨author, h.of_move hproc hact h.written (fun q i hi => ?_)
    (fun hne hq => .of_unlink_lock (hnone hne hq)) (fun hown => absurd hown howns)
    (mainInv_of_isFree hmain) (hupdating ▸ h.updating hproc)⟩
  exact h.tmp q i ((unlink_of_ne (by simp)).symm.trans hi)

end

/-- **An operation keeps the invariant**, where a removal of the lock is careful. -/
theorem Guarded.act {act : Act} (hcare : act = .main → Careful host s proc)
    (hact : host.act s.alive p s.files proc act = some (files', proc')) :
    ∃ author', Guarded host author'
      { files := files', process := update s.process p (some proc') } := by
  have hmain := h.main hproc
  have hupdate := h.updating hproc
  cases act_move hact with
  | quiet hfiles hupdating hmain' howns =>
    refine h.stay hproc hact hupdating hfiles (fun hown => h.owns hproc (howns hown)) ?_
    rcases hmain' with hsame | hfree
    · exact hsame ▸ hmain
    · exact mainInv_of_isFree hfree
  | probe options lock seen hfiles hupdating howns hread hmain' =>
    obtain ⟨hfile, hlt, hauthor, hclaims⟩ := h.readPath hread
    refine h.stay hproc hact hupdating hfiles (howns ▸ h.owns hproc) ?_
    rw [hmain']
    exact ⟨hlt, hauthor, hclaims⟩
  | reenter options lock seen hfiles hupdating howns hmainBefore hpid hmain' =>
    rw [hmainBefore] at hmain
    refine h.stay hproc hact hupdating hfiles (howns ▸ h.owns hproc) ?_
    rw [hmain']
    exact ⟨seen, hmain.2.2 hpid⟩
  | condemn options lock seen hfiles hupdating howns hmainBefore hmain' =>
    rw [hmainBefore] at hmain
    refine h.stay hproc hact hupdating hfiles (howns ▸ h.owns hproc) ?_
    rw [hmain']
    exact ⟨hmain.1, hmain.2.1⟩
  | touch options hfiles hupdating hmainBefore hmain' =>
    rw [hmainBefore] at hmain
    exact h.stay hproc hact hupdating hfiles (fun _ => hmain) (mainInv_of_isFree hmain')
  | unlinkUnreadable options hmainAct hfiles hupdating howns hmainBefore hmain' =>
    have hnone := fun {q other} (hq : s.process q = some other) =>
      @Careful.unclaimed_unreadable _ author _ _ _ _ (hcare hmainAct) options hmainBefore hq
    refine h.unlinkLock hproc hact hupdating hfiles (fun _ hq => hnone hq) (fun hown => ?_) hmain'
    obtain ⟨i, hi⟩ := h.owns hproc (howns ▸ hown)
    exact hnone hproc i hi
  | unlinkStale options lock seen hmainAct hfiles hupdating howns hmainBefore hmain' =>
    rw [hmainBefore] at hmain
    have hnone := fun {q other} (hq : s.process q = some other) =>
      (hcare hmainAct).unclaimed_stale hmainBefore hmain.2 hq
    refine h.unlinkLock hproc hact hupdating hfiles (fun _ hq => hnone hq) (fun hown => ?_) hmain'
    obtain ⟨i, hi⟩ := h.owns hproc (howns ▸ hown)
    exact hnone hproc i hi
  | unlinkTmp hfiles hupdating howns hmain' =>
    subst hfiles
    refine ⟨author, h.of_move hproc hact h.written (fun q i hi => ?_)
      (fun hne _ => .of_unlink_tmp hne) ?_ ?_ ?_⟩
    · by_cases hqp : q = p
      · rw [hqp, unlink_self] at hi; cases hi
      · exact h.tmp q i ((unlink_of_ne (by simp [hqp])).symm.trans hi)
    · rw [hupdating, howns]
      intro hown
      obtain ⟨i, hlock, hlt, hauthor, hheld⟩ := h.owns hproc hown
      exact ⟨i, (unlink_of_ne (by simp)).trans hlock, hlt, hauthor, hheld⟩
    · exact mainInv_of_isFree hmain'
    · rw [hupdating]; exact hupdate
  | write options hfiles hupdating howns hmain' =>
    subst hfiles
    exact h.write hproc hact hupdating howns hmain'
  | link options hlink hupdating hmainBefore hmain' =>
    rw [hmainBefore] at hmain
    obtain ⟨i, htmp, hstands⟩ := hmain
    obtain ⟨j, hj, -, hfile, htext, hfresh⟩ := link_ok hlink
    obtain rfl := mem_unique htmp hj
    have hkept : ∀ {q call}, Kept host.brand author s.files author files' q call call :=
      fun {q call} => Kept.of_link hlink
    refine ⟨author, h.of_move hproc hact (fun k => ?_) (fun q k hk => ?_) (fun _ _ => hkept)
      ?_ ?_ ?_⟩
    · rw [htext]; exact h.written k
    · rw [(@hkept q .idle).tmp] at hk; exact h.tmp q k hk
    · rw [hupdating]
      refine fun _ => ⟨i, ?_, hkept.stands hstands⟩
      rw [hfile]
      exact update_self _ _ _
    · exact mainInv_of_isFree hmain'
    · rw [hupdating]; exact hkept.updating hupdate
  | ownRelease lock seen hfiles hupdating howns hread hpid hmain' =>
    obtain ⟨-, -, -, hclaims⟩ := h.readPath hread
    refine h.stay hproc hact hupdating hfiles (howns ▸ h.owns hproc) ?_
    rw [hmain']
    exact hclaims hpid
  | release seen hfiles hupdating howns hmainBefore hmain' =>
    rw [hmainBefore] at hmain
    refine h.unlinkLock hproc hact hupdating hfiles (fun {q other} hne _ i hclaims => ?_)
      (by simp [howns]) hmain'
    obtain rfl := mem_unique hmain.lock hclaims.lock
    have heq := hclaims.stands.author.symm.trans hmain.stands.author
    exact hne (Int.ofNat.inj (some.inj heq))
  | read hfiles hmain' howns hbefore hupdating' =>
    subst hfiles
    have hkept : Kept host.brand author s.files author s.files p proc.updating proc'.updating :=
      .of_not_rewriting hbefore
    refine ⟨author, h.of_move hproc hact h.written h.tmp (fun _ _ => .refl)
      (h.owns_kept hproc hkept howns) ?_ ?_⟩
    · rw [hmain']; exact hkept.main hmain
    · obtain hidle | ⟨listen, hopening⟩ | ⟨listen, i, attempt, hreading, hopen⟩ := hupdating'
      · rw [hidle]; trivial
      · rw [hopening]; trivial
      · rw [hreading]
        rcases hopen with hlock | ⟨before, hsame⟩
        · exact s.files.file_lt hlock
        · rw [hsame] at hupdate; exact hupdate
  | prepare listen i attempt lock hfiles hmain' howns hbefore hread hpid hbrand hupdating' =>
    subst hfiles
    rw [hbefore] at hupdate
    have hkept : Kept host.brand author s.files author s.files p proc.updating proc'.updating :=
      .of_not_rewriting (by simp [hbefore])
    have hauthor : author i = some (p : Int) := by
      have hview : Runtime.view host.brand (s.files.text i) .node = some
          { pid := lock.pid.toInteger?, startedAt := lock.startedAt,
            matchesBrand := matchesBrand host.brand lock.brand } := by
        rw [Runtime.view, hread]
        rfl
      rw [← h.written i .node _ hview, hpid]
      rfl
    refine ⟨author, h.of_move hproc hact h.written h.tmp (fun _ _ => .refl)
      (h.owns_kept hproc hkept howns) ?_ ?_⟩
    · rw [hmain']; exact hkept.main hmain
    · rw [hupdating']; exact ⟨hupdate, hauthor⟩
  | truncate i info hfiles hmain' howns hbefore hupdating' =>
    subst hfiles
    rw [hbefore] at hupdate
    refine ⟨author, h.overwrite hproc hact hupdate.2 ?_ ?_ hmain' howns ?_⟩
    · exact fun runtime lock hlock => by rw [view_none] at hlock; cases hlock
    · intro j hj
      by_cases hji : j = i
      · exact .inr ⟨info, hji ▸ hupdating'⟩
      · rw [overwrite_of_ne hji]
        refine hj.held.imp_right ?_
        rw [hbefore]
        intro hrewriting
        obtain ⟨other, hother⟩ := hrewriting
        cases hother
    · rw [hupdating']; exact hupdate
  | rewrite i info hfiles hmain' howns hbefore hupdating' =>
    subst hfiles
    rw [hbefore] at hupdate
    have howned := h.sane.owned hproc
    rw [hbefore] at howned
    obtain ⟨hpid, huid, hbrand⟩ := howned
    have htext := ownText_toJson (h.sane.pid hproc).2 hpid huid hbrand
    refine ⟨author, h.overwrite hproc hact hupdate.2 ?_ ?_ hmain' howns ?_⟩
    · exact fun runtime lock hlock => (view_pid hlock).trans htext.pid
    · intro j hj
      by_cases hji : j = i
      · rw [hji, overwrite_self]; exact .inl ⟨.node, htext.readable⟩
      · rw [overwrite_of_ne hji]
        refine hj.held.imp_right ?_
        rw [hbefore]
        intro hrewriting
        obtain ⟨other, hother⟩ := hrewriting
        cases hother
        exact absurd rfl hji
    · rw [hupdating']; trivial

/-- An operation of another process leaves the lock of a process where it is. -/
theorem Guarded.lock_kept {act : Act} (hcare : act = .main → Careful host s proc)
    (hact : host.act s.alive p s.files proc act = some (files', proc')) (hne : q ≠ p)
    (hq : s.process q = some other)
    (hclaims : Claims host.brand author s.files q other.updating i) :
    files'.file .lock = some i := by
  rw [← hclaims.lock]
  cases act_move hact with
  | quiet hfiles => rw [hfiles]
  | probe options lock seen hfiles => rw [hfiles]
  | reenter options lock seen hfiles => rw [hfiles]
  | condemn options lock seen hfiles => rw [hfiles]
  | touch options hfiles => rw [hfiles]
  | unlinkUnreadable options hmainAct hfiles hupdating howns hmain =>
    exact absurd hclaims ((hcare hmainAct).unclaimed_unreadable hmain hq i)
  | unlinkStale options lock seen hmainAct hfiles hupdating howns hmain =>
    have hauthor := h.main hproc
    rw [hmain] at hauthor
    exact absurd hclaims ((hcare hmainAct).unclaimed_stale hmain hauthor.2 hq i)
  | write options hfiles => rw [hfiles, write_of_ne (by simp)]
  | link options hlink =>
    obtain ⟨-, -, hnone, -⟩ := link_ok hlink
    cases hnone.symm.trans hclaims.lock
  | unlinkTmp hfiles => rw [hfiles, unlink_of_ne (by simp)]
  | ownRelease lock seen hfiles => rw [hfiles]
  | release seen hfiles hupdating howns hmain =>
    have hown := h.main hproc
    rw [hmain] at hown
    obtain rfl := mem_unique hown.lock hclaims.lock
    have heq := hclaims.stands.author.symm.trans hown.stands.author
    exact absurd (Int.ofNat.inj (some.inj heq)) hne
  | read hfiles => rw [hfiles]
  | prepare listen i attempt lock hfiles => rw [hfiles]
  | truncate i info hfiles => rw [hfiles, overwrite_file]
  | rewrite i info hfiles => rw [hfiles, overwrite_file]

end

end Step

end Frogg.Server.PidLock
