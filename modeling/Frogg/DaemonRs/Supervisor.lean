/-
  Subject:   How the Rust front supervises its worker: requests, kills, restarts and the delays
             after crashes (supervisor.rs).

  `Supervisor::run` is a machine over what its `select!`s can receive and over the clock, in
  nanoseconds. A timer wakes the supervisor when it is due, so the clock does not pass a deadline
  that is waited for. At most two messages are ever sent to a worker, whose channel holds sixteen:
  `begin_stop` does not block, and is part of its step.
-/
import Frogg.Library.Transition
import Mathlib.Algebra.Order.Ring.Nat

namespace Frogg.DaemonRs.Supervision

open Library

/-! ## 1. Delays -/

/-- `Duration::from_secs`. -/
def fromSecs (secs : Nat) : Nat := secs * 1000000000

/-- `Duration::MAX` -/
def durationMax : Nat := fromSecs 18446744073709551615 + 999999999

/-- The values of a `u32` are below it. -/
def u32Size : Nat := 4294967296

def TERMINATION_GRACE : Nat := fromSecs 10
def BACKOFF_INITIAL : Nat := fromSecs 1
def BACKOFF_MAX : Nat := fromSecs 30
def BACKOFF_RESET_AFTER : Nat := fromSecs 60

def saturatingPow (base exponent : Nat) : Nat := min (base ^ exponent) (u32Size - 1)

def saturatingMul (duration factor : Nat) : Nat := min (duration * factor) durationMax

def crashDelay (consecutiveCrashes : Nat) : Nat :=
  if consecutiveCrashes = 0 then 0
  else
    let factor := saturatingPow 2 (consecutiveCrashes - 1)
    min (saturatingMul BACKOFF_INITIAL factor) BACKOFF_MAX

/-! ## 2. The supervisor -/

/-- Why the supervisor stopped. -/
inductive Exit where
  | requested
  | workerExited (code : Int)
  deriving DecidableEq

/-- How `child.wait()` ends. -/
inductive ExitStatus where
  | code (code : Int)
  | signal (signal : Nat)
  | error
  deriving DecidableEq

def SIGTERM : Nat := 15

/-- `describe` -/
def describe : ExitStatus → Option Int × Option Nat
  | .code code => (some code, none)
  | .signal signal => (none, some signal)
  | .error => (none, none)

/-- `crashed` of `run`. -/
def crashed (status : ExitStatus) : Bool :=
  (match (describe status).1 with
    | some c => c ≠ 0
    | none => false) ||
  match (describe status).2 with
    | some s => s ≠ SIGTERM
    | none => false

def wsUrl (listen : String) : String := s!"ws://{listen}/ws"

/-- A worker that is up, with the locals of its loop. What stands after `killAt` records which
    address it last reported, when it was first asked to stop or restart, when it was first
    killed, and how many messages it was sent. -/
structure Running where
  started : Nat
  restartRequested : Bool
  stopReason : Option String
  killAt : Option Nat
  ready : Option String
  asked : Option Nat
  killed : Option Nat
  sent : Nat
  deriving DecidableEq

inductive Phase where
  | spawning
  | up (running : Running)
  | backoff (wakeAt : Nat)
  | done (exit : Exit)
  deriving DecidableEq

/-- A crash, as the log reports it, after the time its worker was up. -/
structure Crash where
  uptime : Nat
  cause : Option String
  attempt : Nat
  delay : Nat
  deriving DecidableEq

inductive Mark where
  | ready
  | crash (crash : Crash)
  deriving DecidableEq

/-- `requested` records that a stop or a shutdown request was received, `spawned` how many workers
    were spawned, and `marks` the ready messages and the crashes so far. -/
structure Supervisor where
  now : Nat
  phase : Phase
  consecutiveCrashes : Nat
  lastListenFailure : Option String
  upstream : Option String
  requested : Bool
  spawned : Nat
  marks : List Mark
  deriving DecidableEq

def Supervisor.start (now : Nat) : Supervisor :=
  { now, phase := .spawning, consecutiveCrashes := 0, lastListenFailure := none, upstream := none
    requested := false, spawned := 0, marks := [] }

/-- What the supervisor can receive next: the outcome of `spawn`, a message of the worker, its exit,
    a stop request, a timer that is due, and the passing of time. -/
inductive Event where
  | spawn (succeeds : Bool)
  | ready (listen : String)
  | listenFailed (message : String)
  | restart (reason : String)
  | shutdown (reason : String)
  | stop (reason : String)
  | exited (status : ExitStatus)
  | wake
  | advance (duration : Nat)
  deriving DecidableEq

def Running.fresh (now : Nat) : Running :=
  { started := now, restartRequested := false, stopReason := none, killAt := none, ready := none
    asked := none, killed := none, sent := 0 }

/-- A worker is asked to stop: `begin_stop`, and a deadline that an earlier request keeps. -/
def Running.ask (now : Nat) (w : Running) : Running :=
  { w with
    killAt := w.killAt.or (some (now + TERMINATION_GRACE))
    asked := w.asked.or (some now)
    sent := w.sent + 1 }

namespace Supervisor

variable (s : Supervisor)

def spawn (succeeds : Bool) : Supervisor :=
  if succeeds then
    { s with spawned := s.spawned + 1, phase := .up (.fresh s.now) }
  else { s with phase := .done (.workerExited 1) }

section

variable (w : Running)

def receiveReady (listen : String) : Supervisor :=
  let w := { w with ready := some listen }
  { s with
    consecutiveCrashes := 0
    upstream := some (wsUrl listen)
    phase := .up w
    marks := s.marks ++ [.ready] }

def receiveRestart : Supervisor :=
  if w.restartRequested = false ∧ w.stopReason = none then
    let w := { w.ask s.now with
      restartRequested := true, killAt := some (s.now + TERMINATION_GRACE) }
    { s with phase := .up w }
  else s

def receiveStop (reason : String) : Supervisor :=
  if w.stopReason = none then
    let w := { w.ask s.now with stopReason := some reason }
    { s with requested := true, phase := .up w }
  else s

/-- The grace period is over: `start_kill`. -/
def kill : Supervisor :=
  let w := { w with killAt := none, killed := w.killed.or (some s.now) }
  { s with phase := .up w }

/-- From `crashed` on: the crash is counted, and followed by its delay. -/
def crash (w : Running) : Supervisor :=
  let uptime := s.now - w.started
  let before := if BACKOFF_RESET_AFTER ≤ uptime then 0 else s.consecutiveCrashes
  let consecutiveCrashes := (before + 1) % u32Size
  let delay := crashDelay consecutiveCrashes
  let crash : Crash :=
    { uptime, cause := s.lastListenFailure, attempt := consecutiveCrashes, delay }
  { s with
    consecutiveCrashes := consecutiveCrashes
    lastListenFailure := none
    phase := .backoff (s.now + delay)
    marks := s.marks ++ [.crash crash] }

/-- The worker has exited. -/
def exit (status : ExitStatus) : Supervisor :=
  let s := { s with upstream := none }
  if w.stopReason ≠ none then { s with phase := .done .requested }
  else if w.restartRequested then { s with phase := .spawning }
  else if crashed status = false then
    { s with phase := .done (.workerExited ((describe status).1.getD 1)) }
  else s.crash w

end

/-- The deadline that the supervisor waits for. -/
def deadline : Option Nat :=
  match s.phase with
  | .up w => w.killAt
  | .backoff wakeAt => some wakeAt
  | _ => none

/-- `Supervisor::run`, one event at a time; `none` where the event cannot be received. -/
def step (s : Supervisor) (event : Event) : Option Supervisor :=
  match s.phase, event with
  | .spawning, .spawn succeeds => some (s.spawn succeeds)
  | .up w, .ready listen => some (s.receiveReady w listen)
  | .up _, .listenFailed message => some { s with lastListenFailure := some message }
  | .up w, .restart _ => some (s.receiveRestart w)
  | .up w, .shutdown reason => some (s.receiveStop w reason)
  | .up w, .stop reason => if w.stopReason = none then some (s.receiveStop w reason) else none
  | .up w, .exited status => some (s.exit w status)
  | .up w, .wake => if w.killAt.any (· ≤ s.now) then some (s.kill w) else none
  | .backoff _, .stop _ => some { s with requested := true, phase := .done .requested }
  | .backoff wakeAt, .wake => if wakeAt ≤ s.now then some { s with phase := .spawning } else none
  | .done _, _ => none
  | _, .advance duration =>
    if s.deadline.all (s.now + duration ≤ ·) then some { s with now := s.now + duration } else none
  | _, _ => none

/-- What is left of a supervisor that receives these events in turn. -/
def receive (s : Supervisor) (events : List Event) : Option Supervisor := events.foldlM step s

end Supervisor

/-- The runs of a supervisor that starts at some time. -/
def system : TransitionSystem Supervisor where
  init s := ∃ now, s = .start now
  step s s' := ∃ event, s.step event = some s'

/-- One supervisor comes after another in some run. -/
def Later : Supervisor → Supervisor → Prop := Relation.ReflTransGen system.step

end Frogg.DaemonRs.Supervision
