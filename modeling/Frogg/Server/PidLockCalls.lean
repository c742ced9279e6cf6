/-
  Subject:   The calls on `frogg.pid` of any number of Node and Rust processes, one file operation
             at a time.

  A process runs its acquire and release one after the other, and beside them one update and one
  heartbeat at a time. A crash may come before any operation. The desktop option that reclaims
  the lock of a live owner is not taken, so no call reads how old the file is.
-/
import Frogg.DaemonRs.PidLockFile
import Frogg.Library.LinkedFiles
import Frogg.Library.Transition

namespace Frogg.Server.PidLock

open Library Function

/-! ## 1. What a process sees in the lock -/

inductive Runtime where
  | node
  | rust
  deriving DecidableEq

/-- What a call uses of a lock it read. -/
structure LockView where
  pid : Option Int
  startedAt : String
  matchesBrand : Bool
  deriving DecidableEq

def Runtime.view (brand : BrandIdentity) (held : Option Json) : Runtime → Option LockView
  | .node => (readPidLock held).map fun lock =>
    { pid := lock.pid.toInteger?, startedAt := lock.startedAt,
      matchesBrand := matchesBrand brand lock.brand }
  | .rust => (DaemonRs.readLock held).map fun lock =>
    { pid := some lock.pid, startedAt := lock.startedAt,
      matchesBrand := DaemonRs.matchesIdentity brand lock.brand }

inductive Kill where
  | ok
  | esrch
  | eperm
  deriving DecidableEq

/-- The machine: whom a process may signal, and which process groups `kill` finds. -/
structure Host where
  brand : BrandIdentity
  hostname : String
  signals : Nat → Nat → Bool
  groups : Int → Bool
  signals_self : ∀ p, signals p p = true

variable (host : Host)

section

variable (alive : Nat → Bool)

/-- `kill(pid, 0)` by the process `self`. -/
def Host.kill (self : Nat) (pid : Int) : Kill :=
  if 0 < pid then
    if alive pid.toNat then if host.signals self pid.toNat then .ok else .eperm else .esrch
  else if host.groups pid then .ok else .esrch

/-- `isPidRunning` takes no other answer than success for a running process; `pid_running` also
    takes a refused permission for one. -/
def Host.isPidRunning (self : Nat) (pid : Option Int) : Runtime → Bool
  | .node => match pid with
      | none => false
      | some pid =>
        -2147483648 ≤ pid && pid ≤ 2147483647 && host.kill alive self pid = .ok
  | .rust => match pid with
      | none => false
      | some pid =>
        !(pid ≤ 0 || pid > 2147483647) &&
          (host.kill alive self pid = .ok || host.kill alive self pid = .eperm)

/-! ## 2. Processes -/

/-- What an acquire is called with, and the time it writes into the lock. -/
structure AcquireOptions where
  listen : Option String
  startedAt : String
  desktopManaged : Bool

inductive AcquireError where
  | held (pid : Option Int) (startedAt : String)
  | otherProduct
  | raced
  | missing
  deriving DecidableEq

abbrev AcquireResult := Except AcquireError Unit

/-- `PID_LOCK_READ_RETRY_ATTEMPTS` -/
def readRetryAttempts : Nat := 10

/-- The next operation of an acquire. -/
inductive AcquirePc where
  /-- the read of `readPidLockWithRetry`, after so many unreadable ones -/
  | reading (attempt : Nat)
  /-- `existsSync` after an unreadable read -/
  | missing (attempt : Nat)
  /-- `!existingLock && existsSync(pidPath)` -/
  | checkingAgain
  | unlinkingUnreadable
  /-- the probe of the owner of the lock that was read in the file `seen` -/
  | probing (lock : LockView) (seen : Nat)
  | touching
  | unlinkingStale (lock : LockView) (seen : Nat)
  | writing
  | linking
  /-- the reads for the message after `EEXIST` -/
  | racing (attempt : Nat)
  | racingMissing (attempt : Nat)
  /-- the removal of the temporary file; the Rust front reads for its message after it -/
  | unlinkingTmp (result : Option AcquireResult)

inductive ReleasePc where
  | reading
  | unlinking (seen : Nat)

inductive MainCall where
  | idle (last : Option AcquireResult)
  | acquiring (options : AcquireOptions) (pc : AcquirePc)
  | releasing (pc : ReleasePc)

/-- `updatePidLock`, on the open file. -/
inductive UpdateCall where
  | idle
  | opening (listen : String)
  | reading (listen : String) (i : Nat) (attempt : Nat)
  | truncating (i : Nat) (updated : PidLockInfo)
  | rewriting (i : Nat) (updated : PidLockInfo)

/-- `refreshPidLock` on the open file, `heartbeat` on the path. -/
inductive HeartbeatCall where
  | idle
  | opening
  | readingFile (i : Nat) (attempt : Nat)
  | touchingFile
  | readingPath (attempt : Nat)
  | missingPath (attempt : Nat)
  | touchingPath

/-- A live process. `owns`: an acquire succeeded, and no release has acted and no heartbeat has
    failed since. -/
structure Process where
  runtime : Runtime
  uid : Nat
  owns : Bool
  main : MainCall
  updating : UpdateCall
  beating : HeartbeatCall

def Process.start (runtime : Runtime) (uid : Nat) : Process :=
  { runtime, uid, owns := false, main := .idle none, updating := .idle, beating := .idle }

/-- The names in the home that the calls use. -/
inductive LockName where
  | lock
  | tmp (pid : Nat)
  deriving DecidableEq

abbrev LockFiles := LinkedFiles LockName (Option Json)

/-! ## 3. One operation of each call -/

/-- The lock a process publishes; the Rust front is always given an address. -/
def Host.lockText (p : Nat) (proc : Process) (options : AcquireOptions) : Json :=
  match proc.runtime with
  | .node => PidLockInfo.toJson
      { brand := some host.brand, pid := .integer p, startedAt := options.startedAt,
        hostname := host.hostname, uid := .integer proc.uid, listen := options.listen,
        desktopManaged := if options.desktopManaged then some true else none,
        heartbeat := some () }
  | .rust =>
    DaemonRs.lockJson host.brand p options.startedAt host.hostname proc.uid
      (options.listen.getD "")

/-- The lock at the path and the file it stands in. -/
def Host.readPath (runtime : Runtime) (files : LockFiles) : Option (Nat × LockView) :=
  (files.file .lock).bind fun i =>
    (runtime.view host.brand (files.text i)).map fun lock => (i, lock)

def existsPath (files : LockFiles) : Bool := (files.file .lock).isSome

variable (proc : Process)

def Process.acquiring (options : AcquireOptions) (pc : AcquirePc) : Process :=
  { proc with main := .acquiring options pc }

def Process.returns (result : AcquireResult) : Process :=
  { proc with main := .idle (some result) }

/-- The acquire has succeeded; what is left of it touches no lock. -/
def Process.acquires : Process := { proc with owns := true }

/-- After the reads that choose the message of a lost race. -/
def Process.lost (options : AcquireOptions) (error : AcquireError) : Process :=
  match proc.runtime with
  | .node => proc.acquiring options (.unlinkingTmp (some (.error error)))
  | .rust => proc.returns (.error error)

variable (p : Nat) (files : LockFiles) (proc : Process)

def Host.acquireStep (options : AcquireOptions) : AcquirePc → LockFiles × Process
  | .reading attempt =>
    match host.readPath proc.runtime files with
    | none => (files, proc.acquiring options (.missing attempt))
    | some (seen, lock) =>
      if lock.matchesBrand then (files, proc.acquiring options (.probing lock seen))
      else (files, proc.returns (.error .otherProduct))
  | .missing attempt =>
    if existsPath files && attempt + 1 < readRetryAttempts then
      (files, proc.acquiring options (.reading (attempt + 1)))
    else (files, proc.acquiring options .checkingAgain)
  | .checkingAgain =>
    if existsPath files then (files, proc.acquiring options .unlinkingUnreadable)
    else (files, proc.acquiring options .writing)
  | .unlinkingUnreadable => (files.unlink .lock, proc.acquiring options .writing)
  | .probing lock seen =>
    if host.isPidRunning alive p lock.pid proc.runtime then
      if lock.pid = some (p : Int) then (files, proc.acquiring options .touching)
      else (files, proc.returns (.error (.held lock.pid lock.startedAt)))
    else (files, proc.acquiring options (.unlinkingStale lock seen))
  | .touching =>
    -- Node fails with the missing file, the Rust front ignores it
    match proc.runtime, existsPath files with
    | .node, false => (files, proc.returns (.error .missing))
    | _, _ => (files, proc.acquires.returns (.ok ()))
  | .unlinkingStale _ _ => (files.unlink .lock, proc.acquiring options .writing)
  | .writing =>
    (files.write (.tmp p) (some (host.lockText p proc options)), proc.acquiring options .linking)
  | .linking =>
    match files.link (.tmp p) .lock with
    | .ok files => (files, proc.acquires.acquiring options (.unlinkingTmp (some (.ok ()))))
    | .error .missing =>
      (files, proc.acquiring options (.unlinkingTmp (some (.error .missing))))
    | .error .taken =>
      match proc.runtime with
      | .node => (files, proc.acquiring options (.racing 0))
      | .rust => (files, proc.acquiring options (.unlinkingTmp none))
  | .racing attempt =>
    match host.readPath proc.runtime files with
    | none => (files, proc.acquiring options (.racingMissing attempt))
    | some (_, lock) => (files, proc.lost options (.held lock.pid lock.startedAt))
  | .racingMissing attempt =>
    if existsPath files && attempt + 1 < readRetryAttempts then
      (files, proc.acquiring options (.racing (attempt + 1)))
    else (files, proc.lost options .raced)
  | .unlinkingTmp result =>
    match result with
    | some result => (files.unlink (.tmp p), proc.returns result)
    | none => (files.unlink (.tmp p), proc.acquiring options (.racing 0))

/-- A lock of its own, as a release and a heartbeat check it. -/
def Runtime.isOwn (runtime : Runtime) (p : Nat) (lock : LockView) : Bool :=
  lock.pid = some (p : Int) && (runtime = .rust || lock.matchesBrand)

def Host.releaseStep : ReleasePc → LockFiles × Process
  | .reading =>
    match host.readPath proc.runtime files with
    | none => (files, { proc with main := .idle none, owns := false })
    | some (seen, lock) =>
      if proc.runtime.isOwn p lock then
        (files, { proc with main := .releasing (.unlinking seen) })
      else (files, { proc with main := .idle none, owns := false })
  | .unlinking _ => (files.unlink .lock, { proc with main := .idle none, owns := false })

def Host.updateStep : UpdateCall → Option (LockFiles × Process)
  | .idle => none
  | .opening listen =>
    match files.file .lock with
    | none => some (files, { proc with updating := .idle })
    | some i => some (files, { proc with updating := .reading listen i 0 })
  | .reading listen i attempt =>
    match readPidLock (files.text i) with
    | none =>
      if attempt + 1 < readRetryAttempts then
        some (files, { proc with updating := .reading listen i (attempt + 1) })
      else some (files, { proc with updating := .idle })
    | some lock =>
      if lock.pid = .integer p ∧ matchesBrand host.brand lock.brand = true then
        let updatedLock := { lock with listen := some listen }
        some (files, { proc with updating := .truncating i updatedLock })
      else some (files, { proc with updating := .idle })
  | .truncating i updated =>
    some (files.overwrite i none, { proc with updating := .rewriting i updated })
  | .rewriting i updated =>
    some (files.overwrite i (some updated.toJson), { proc with updating := .idle })

/-- A heartbeat that fails ends the ownership. -/
def Process.beatFails : Process := { proc with beating := .idle, owns := false }

def Host.beatStep : HeartbeatCall → Option Process
  | .idle => none
  | .opening =>
    match files.file .lock with
    | none => some proc.beatFails
    | some i => some { proc with beating := .readingFile i 0 }
  | .readingFile i attempt =>
    match Runtime.view host.brand (files.text i) .node with
    | none =>
      if attempt + 1 < readRetryAttempts then
        some { proc with beating := .readingFile i (attempt + 1) }
      else some proc.beatFails
    | some lock =>
      if Runtime.isOwn .node p lock then some { proc with beating := .touchingFile }
      else some proc.beatFails
  | .touchingFile => some { proc with beating := .idle }
  | .readingPath attempt =>
    match host.readPath .rust files with
    | none => some { proc with beating := .missingPath attempt }
    | some (_, lock) =>
      if Runtime.isOwn .rust p lock then some { proc with beating := .touchingPath }
      else some proc.beatFails
  | .missingPath attempt =>
    if existsPath files && attempt + 1 < readRetryAttempts then
      some { proc with beating := .readingPath (attempt + 1) }
    else some proc.beatFails
  | .touchingPath =>
    if existsPath files then some { proc with beating := .idle } else some proc.beatFails

/-! ## 4. The processes together -/

/-- What one process does next: it begins a call, or a call does its next operation. -/
inductive Act where
  | acquire (options : AcquireOptions)
  | release
  | update (listen : String)
  | heartbeat
  | main
  | updating
  | beating

def Host.act : Act → Option (LockFiles × Process)
  | .acquire options => match proc.main with
      | .idle _ => some (files, proc.acquiring options (.reading 0))
      | _ => none
  | .release => match proc.main with
      | .idle _ => some (files, { proc with main := .releasing .reading })
      | _ => none
  | .update listen => match proc.runtime, proc.updating with
      | .node, .idle => some (files, { proc with updating := .opening listen })
      | _, _ => none
  | .heartbeat => match proc.runtime, proc.beating with
      | .node, .idle => some (files, { proc with beating := .opening })
      | .rust, .idle => some (files, { proc with beating := .readingPath 0 })
      | _, _ => none
  | .main => match proc.main with
      | .idle _ => none
      | .acquiring options pc => some (host.acquireStep alive p files proc options pc)
      | .releasing pc => some (host.releaseStep p files proc pc)
  | .updating => host.updateStep p files proc proc.updating
  | .beating => (host.beatStep p files proc proc.beating).map fun proc => (files, proc)

end

structure World where
  files : LockFiles
  process : Nat → Option Process

namespace World

def alive (s : World) (p : Nat) : Bool := (s.process p).isSome

def owns (s : World) (p : Nat) : Bool := (s.process p).any Process.owns

/-- A home without temporary files, and what its `frogg.pid` holds where it has one. -/
def start : Option (Option Json) → World
  | none => { files := .empty none, process := fun _ => none }
  | some held => { files := (LinkedFiles.empty none).write .lock held, process := fun _ => none }

end World

inductive Event where
  | spawn (p : Nat) (runtime : Runtime) (uid : Nat)
  | crash (p : Nat)
  | act (p : Nat) (act : Act)

def Event.pid : Event → Nat
  | .spawn p _ _ => p
  | .crash p => p
  | .act p _ => p

/-- One event; the pids of live processes are distinct. -/
def Host.step (host : Host) (s : World) : Event → Option World
  | .spawn p runtime uid =>
    if s.alive p || p = 0 || p > 2147483647 then none
    else some { s with process := update s.process p (some (.start runtime uid)) }
  | .crash p =>
    if s.alive p then some { s with process := update s.process p none } else none
  | .act p act =>
    (s.process p).bind fun proc => (host.act s.alive p s.files proc act).map fun (files, proc) =>
      { files, process := update s.process p (some proc) }

def Host.run (host : Host) (s : World) (events : List Event) : Option World :=
  events.foldlM host.step s

end Frogg.Server.PidLock
