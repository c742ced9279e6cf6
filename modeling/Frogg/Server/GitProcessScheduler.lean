/-
  Subject:   How git processes are admitted: two queues, a limit, and one drain at a time
             (git-process-scheduler.ts).

  The scheduler is a machine over what the event loop, the throttle and the processes do. Calls of
  `run` are numbered in the order they are made; beside the counters of the source the state keeps
  what they count, and a record of what was handed on, started, exited and settled.
-/
import Frogg.Library.Transition
import Mathlib.Data.List.Nodup
import Mathlib.Data.List.Range
import Mathlib.Data.List.Perm.Basic

namespace Frogg.Server.GitProcesses

open Library

/-! ## 1. Policy -/

structure GitProcessPolicy where
  maxProcessesPerSecond : Nat
  maxProcessConcurrency : Nat
  deriving DecidableEq

def DEFAULT_GIT_PROCESS_POLICY : GitProcessPolicy :=
  { maxProcessesPerSecond := 2048, maxProcessConcurrency := 8 }

inductive GitProcessPriority where
  | normal
  | high
  deriving DecidableEq

/-! ## 2. The scheduler and what surrounds it -/

/-- What `start()` does: it throws, or it gives a process with its two promises. -/
inductive Start where
  | throws
  | starts
  deriving DecidableEq

/-- How the promise of a `run` call is settled. -/
inductive Settlement where
  | resolved
  | rejected
  deriving DecidableEq

/-- How `exited` ends. A start that throws, and a call that the throttle refuses, fail. -/
inductive Exit where
  | clean
  | failed
  deriving DecidableEq

/-- One `shift` of the drain: the call it took, and how many calls of high priority waited then. -/
structure Admission where
  call : Nat
  priority : GitProcessPriority
  highWaiting : Nat
  deriving DecidableEq

structure GitProcessScheduler where
  highPriorityQueue : List Nat
  normalPriorityQueue : List Nat
  admitted : Nat
  running : Nat
  waiting : Nat
  drainScheduled : Bool
  /-- Callbacks of `setImmediate` that have not fired. -/
  immediates : Nat
  /-- Calls that the throttle has accepted and not yet run. -/
  throttled : List Nat
  /-- Calls inside `execute`, up to the end of `exited`. -/
  executing : List Nat
  /-- Calls whose `result` is not settled. -/
  results : List Nat
  calls : List GitProcessPriority
  handed : List Admission
  started : List Nat
  exited : List (Nat × Exit)
  settled : List (Nat × Settlement)
  deriving DecidableEq

namespace GitProcessScheduler

def empty : GitProcessScheduler :=
  { highPriorityQueue := [], normalPriorityQueue := [], admitted := 0, running := 0, waiting := 0
    drainScheduled := false, immediates := 0, throttled := [], executing := [], results := []
    calls := [], handed := [], started := [], exited := [], settled := [] }

def queue (s : GitProcessScheduler) : GitProcessPriority → List Nat
  | .high => s.highPriorityQueue
  | .normal => s.normalPriorityQueue

/-- `resolve` and `reject`: a promise that is settled stays as it is. -/
def settle (call : Nat) (how : Settlement) (s : GitProcessScheduler) : GitProcessScheduler :=
  if call ∈ s.settled.map Prod.fst then s else { s with settled := s.settled ++ [(call, how)] }

variable (policy : GitProcessPolicy)

def scheduleDrain (s : GitProcessScheduler) : GitProcessScheduler :=
  if s.drainScheduled = true ∨ policy.maxProcessConcurrency ≤ s.admitted then s
  else if s.highPriorityQueue = [] ∧ s.normalPriorityQueue = [] then s
  else { s with drainScheduled := true, immediates := s.immediates + 1 }

section

variable (call : Nat)

/-- The `finally` of `execute`. -/
def finish (exit : Exit) (s : GitProcessScheduler) : GitProcessScheduler :=
  { s with
    running := s.running - 1
    admitted := s.admitted - 1
    executing := s.executing.erase call
    exited := s.exited ++ [(call, exit)] }.scheduleDrain policy

/-- `execute` up to its `await`. -/
def execute (start : Start) (s : GitProcessScheduler) : GitProcessScheduler :=
  let s := { s with
    waiting := s.waiting - 1
    running := s.running + 1
    executing := s.executing ++ [call]
    started := s.started ++ [call] }
  match start with
  | .throws => (s.settle call .rejected).finish policy call .failed
  | .starts => { s with results := s.results ++ [call] }

/-- The rest of `execute`, when `exited` ends. -/
def exit (how : Exit) (s : GitProcessScheduler) : GitProcessScheduler :=
  match how with
  | .clean => s.finish policy call .clean
  | .failed => (s.settle call .rejected).finish policy call .failed

/-- The `catch` of `admit`: the throttle rejects a call without running it. -/
def refuse (s : GitProcessScheduler) : GitProcessScheduler :=
  ({ s with
    waiting := s.waiting - 1
    admitted := s.admitted - 1
    throttled := s.throttled.erase call
    exited := s.exited ++ [(call, Exit.failed)] }.settle call .rejected).scheduleDrain policy

/-- `admit`: the throttle runs the call at once, or keeps it. -/
def admitCall (atOnce : Option Start) (s : GitProcessScheduler) : GitProcessScheduler :=
  match atOnce with
  | none => { s with throttled := s.throttled ++ [call] }
  | some start => s.execute policy call start

end

/-- `this.highPriorityQueue.shift() ?? this.normalPriorityQueue.shift()`, with its record. -/
def shift (s : GitProcessScheduler) : Option (Nat × GitProcessScheduler) :=
  match s.highPriorityQueue, s.normalPriorityQueue with
  | call :: high, _ => some (call, { s with
      highPriorityQueue := high
      handed := s.handed ++ [⟨call, .high, s.highPriorityQueue.length⟩] })
  | [], call :: normal => some (call, { s with
      normalPriorityQueue := normal
      handed := s.handed ++ [⟨call, .normal, s.highPriorityQueue.length⟩] })
  | [], [] => none

def drainOne (atOnce : Option Start) (s : GitProcessScheduler) : GitProcessScheduler :=
  let s := { s with drainScheduled := false }
  if policy.maxProcessConcurrency ≤ s.admitted then s
  else match s.shift with
    | none => s
    | some (call, s) =>
      (({ s with admitted := s.admitted + 1 }).admitCall policy call atOnce).scheduleDrain policy

variable (priority : GitProcessPriority)

/-- `queue.push(admit)`, for the next call. -/
def push (s : GitProcessScheduler) : GitProcessScheduler :=
  let s := { s with waiting := s.waiting + 1, calls := s.calls ++ [priority] }
  match priority with
  | .high => { s with highPriorityQueue := s.highPriorityQueue ++ [s.calls.length - 1] }
  | .normal => { s with normalPriorityQueue := s.normalPriorityQueue ++ [s.calls.length - 1] }

def run (atOnce : Option Start) (s : GitProcessScheduler) : GitProcessScheduler :=
  let s := s.push priority
  if s.admitted = 0 ∧ s.drainScheduled = false then s.drainOne policy atOnce
  else s.scheduleDrain policy

end GitProcessScheduler

/-! ## 3. Steps -/

/-- What can happen next. -/
inductive Move where
  | run (priority : GitProcessPriority) (atOnce : Option Start)
  | immediate (atOnce : Option Start)
  | throttle (call : Nat) (start : Start)
  | refuse (call : Nat)
  | result (call : Nat) (how : Settlement)
  | exit (call : Nat) (how : Exit)

/-- The call of `run` that a move is. -/
def Move.called : Move → Option GitProcessPriority
  | .run priority _ => some priority
  | _ => none

/-- What a move does. The throttle runs the calls it accepts in their order, so it runs one at
    once only while it keeps none. -/
inductive Step (policy : GitProcessPolicy) :
    GitProcessScheduler → Move → GitProcessScheduler → Prop where
  | run {s} (priority : GitProcessPriority) (atOnce : Option Start)
      (horder : atOnce ≠ none → s.throttled = []) :
      Step policy s (.run priority atOnce) (s.run policy priority atOnce)
  | immediate {s} (atOnce : Option Start) (hpending : 0 < s.immediates)
      (horder : atOnce ≠ none → s.throttled = []) : Step policy s (.immediate atOnce)
        ({ s with immediates := s.immediates - 1 }.drainOne policy atOnce)
  | throttle {s} (call : Nat) (rest : List Nat) (start : Start)
      (hhead : s.throttled = call :: rest) : Step policy s (.throttle call start)
        ({ s with throttled := rest }.execute policy call start)
  | refuse {s} (call : Nat) (hkept : call ∈ s.throttled) :
      Step policy s (.refuse call) (s.refuse policy call)
  | result {s} (call : Nat) (how : Settlement) (hopen : call ∈ s.results) :
      Step policy s (.result call how) ({ s with results := s.results.erase call }.settle call how)
  | exit {s} (call : Nat) (how : Exit) (hopen : call ∈ s.executing) :
      Step policy s (.exit call how) (s.exit policy call how)

/-- The runs of a scheduler from its construction, with the moves so far. -/
def system (policy : GitProcessPolicy) : TransitionSystem (List Move × GitProcessScheduler) where
  init r := r = ([], .empty)
  step r r' := ∃ move, Step policy r.2 move r'.2 ∧ r'.1 = r.1 ++ [move]

end Frogg.Server.GitProcesses
