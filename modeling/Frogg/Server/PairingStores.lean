/-
  Subject:   The codes and the approvals by which a device pairs itself
             (pairing-code-store.ts, pairing-request-store.ts, and the spelling of codes in
             protocol/device-access.ts).

  An operation takes the times that it reads from the clock, and what it draws at random. `upper` is
  the upper case of a character. The numbers of grants and requests and the log are not in the
  source: they tell apart two codes of one text and two requests of one id. The listeners of the
  request store are left out.
-/
import Frogg.Library.TextCodec
import Frogg.Server.ClaimStore
import Mathlib.Data.Rat.Floor

namespace Frogg.Server.Pairing

open Library

/-! ## 1. Pairing codes -/

def pairingCodeAlphabet : List Char := "0123456789ABCDEFGHJKMNPQRSTVWXYZ".toList

def pairingCodeLength : Nat := 8

def normalizePairingCode (upper : Char → List Char) (input : String) : Option String :=
  let cleaned := (((jsTrim input).toList.flatMap upper).filter fun c =>
    !(isJsWhitespace c || c = '-')).map fun c =>
      if c = 'I' ∨ c = 'L' then '1' else if c = 'O' then '0' else c
  if jsLength (String.ofList cleaned) ≠ pairingCodeLength then none
  else if cleaned.all (· ∈ pairingCodeAlphabet) then some (String.ofList cleaned)
  else none

/-- A number, if it is finite. -/
abbrev JsNumber := Option ℚ

def clampPairingCodeTtlSeconds (ttlSeconds : Option JsNumber) : Nat :=
  match ttlSeconds with
  | some (some seconds) => (min 3600 (max 30 ⌊seconds⌋)).toNat
  | _ => 600

structure CodeEntry where
  role : DeviceRole
  expiresAtMs : Nat
  grant : Nat

structure PairingCode where
  code : String
  role : DeviceRole
  expiresAt : String

structure PairingCodeStore where
  maxLive : Nat
  live : JsMap String CodeEntry

namespace PairingCodeStore

/-- `while (live.size > maxLive)`: the oldest codes go. -/
def evictOldest (maxLive : Nat) (live : JsMap String CodeEntry) : JsMap String CodeEntry :=
  match _h : live.entries with
  | [] => live
  | oldest :: _ =>
    if maxLive < live.size then evictOldest maxLive (live.delete oldest.1) else live
termination_by live.size
decreasing_by
  exact JsMap.size_delete_lt (JsMap.get?_eq_some_iff.mpr (_h ▸ List.mem_cons_self))

variable (store : PairingCodeStore)

def prune (current : Nat) : PairingCodeStore :=
  { store with
    live := evictOldest store.maxLive
      ((store.live.entries.filter fun e => e.2.expiresAtMs ≤ current).foldl
        (fun live e => live.delete e.1) store.live) }

/-- The codes are generated until one is not live; `none` while none is. -/
def issue (role : Option DeviceRole) (ttlSeconds : Option JsNumber)
    (generated : List String) (grant first second third : Nat) :
    Option (PairingCodeStore × PairingCode × Nat) :=
  let store := store.prune first
  let role := role.getD .operator
  let expiresAtMs := second + clampPairingCodeTtlSeconds ttlSeconds * 1000
  match generated.find? fun code => !store.live.has code with
  | none => none
  | some code =>
    let store := { store with live := store.live.set code ⟨role, expiresAtMs, grant⟩ }
    some (store.prune third, ⟨code, role, IsoDate.toISOString expiresAtMs⟩, expiresAtMs)

/-- `findConstantTime`, over texts as bytes. -/
def findConstantTime {α : Type} (live : JsMap String α) (candidate : String) : Option String :=
  live.keys.foldl
    (fun found code => if textEncode code = textEncode candidate then some code else found) none

def redeem (upper : Char → List Char) (store : PairingCodeStore) (input : String)
    (first second : Nat) : PairingCodeStore × Option (PairingCode × Nat) :=
  let store := store.prune first
  match normalizePairingCode upper input with
  | none => (store, none)
  | some normalized =>
    match (findConstantTime store.live normalized).filter (· ≠ "") with
    | none => (store, none)
    | some code =>
      match store.live.get? code with
      | none => (store, none)
      | some entry =>
        let store := { store with live := store.live.delete code }
        if entry.expiresAtMs ≤ second then (store, none)
        else
          (store, some (⟨code, entry.role, IsoDate.toISOString entry.expiresAtMs⟩,
            entry.grant))

def liveCount (current : Nat) : PairingCodeStore × Nat :=
  (store.prune current, (store.prune current).live.size)

end PairingCodeStore

/-! ## 2. Pairing requests -/

structure PairingRequestRecord where
  id : String
  pollId : String
  deviceName : String
  matchCode : String
  remoteAddress : Option String
  createdAt : String
  expiresAt : String

/-- What an owner sees of a request. -/
structure PendingPairingRequest where
  id : String
  deviceName : String
  matchCode : String
  remoteAddress : Option String
  createdAt : String
  expiresAt : String

inductive Outcome where
  | denied
  | approved (role : DeviceRole) (name : String)
  deriving DecidableEq

inductive PairingRequestState where
  | pending (expiresAt : String)
  | settled (outcome : Outcome)

structure RequestEntry where
  record : PairingRequestRecord
  expiresAtMs : Nat
  outcome : Option Outcome
  request : Nat

structure PairingRequestStore where
  ttlMs : Nat
  maxPending : Nat
  entries : JsMap String RequestEntry

namespace PairingRequestStore

variable (store : PairingRequestStore)

def prune (current : Nat) : PairingRequestStore :=
  { store with
    entries := (store.entries.entries.filter fun e => e.2.expiresAtMs ≤ current).foldl
      (fun entries e => entries.delete e.1) store.entries }

/-- `pendingEntries` behind its `prune`. -/
def pendingEntries : List RequestEntry :=
  store.entries.values.filter fun entry => entry.outcome.isNone

/-- What is drawn at random for a request. -/
structure Drawn where
  id : String
  pollId : String
  matchCode : String

def create (deviceName : String) (remoteAddress : Option String)
    (drawn : Drawn) (request first second third : Nat) :
    PairingRequestStore × Option (PairingRequestRecord × Nat) :=
  let store := (store.prune first).prune second
  if store.maxPending ≤ store.pendingEntries.length then (store, none)
  else
    let expiresAtMs := third + store.ttlMs
    let record := {
      id := drawn.id
      pollId := drawn.pollId
      deviceName
      matchCode := drawn.matchCode
      remoteAddress
      createdAt := IsoDate.toISOString third
      expiresAt := IsoDate.toISOString expiresAtMs }
    ({ store with entries := store.entries.set record.pollId ⟨record, expiresAtMs, none, request⟩ },
      some (record, expiresAtMs))

def list (current : Nat) : PairingRequestStore × List PendingPairingRequest :=
  let store := store.prune current
  (store, store.pendingEntries.map fun entry =>
    { id := entry.record.id
      deviceName := entry.record.deviceName
      matchCode := entry.record.matchCode
      remoteAddress := entry.record.remoteAddress
      createdAt := entry.record.createdAt
      expiresAt := entry.record.expiresAt })

/-- The outcome is written into the entry, which stays under its `pollId`. -/
def decide (id : String) (approve : Bool) (role : Option DeviceRole)
    (name : Option String) (current : Nat) :
    PairingRequestStore × Option (RequestEntry × Outcome) :=
  let store := store.prune current
  match store.pendingEntries.find? fun entry => entry.record.id = id with
  | none => (store, none)
  | some entry =>
    let outcome :=
      if approve then .approved (role.getD .operator) (name.getD entry.record.deviceName)
      else .denied
    ({ store with
      entries := store.entries.set entry.record.pollId { entry with outcome := some outcome } },
      some (entry, outcome))

/-- An outcome is collected once. -/
def poll (pollId : String) (current : Nat) :
    PairingRequestStore × Option (PairingRequestState × Nat) :=
  let store := store.prune current
  match (PairingCodeStore.findConstantTime store.entries pollId).filter (· ≠ "") with
  | none => (store, none)
  | some key =>
    match store.entries.get? key with
    | none => (store, none)
    | some entry =>
      match entry.outcome with
      | none => (store, some (.pending entry.record.expiresAt, entry.request))
      | some outcome =>
        ({ store with entries := store.entries.delete key },
          some (.settled outcome, entry.request))

end PairingRequestStore

/-! ## 3. Runs -/

/-- What the calls answered. -/
inductive LogEntry where
  | issued (grant : Nat) (code : String) (role : DeviceRole) (expiresAtMs : Nat)
  | redeemed (grant : Nat) (code : String) (role : DeviceRole) (time : Nat)
  | created (request : Nat) (record : PairingRequestRecord) (expiresAtMs : Nat)
  | decided (request : Nat) (outcome : Outcome)
  | collected (request : Nat) (pollId : String) (outcome : Outcome) (time : Nat)

structure World where
  clock : Nat
  codes : PairingCodeStore
  requests : PairingRequestStore
  next : Nat
  log : List LogEntry

namespace World

def initial (maxLive ttlMs maxPending : Nat) : World where
  clock := 0
  codes := ⟨maxLive, .empty⟩
  requests := ⟨ttlMs, maxPending, .empty⟩
  next := 0
  log := []

/-- A call, with the times that it reads. -/
inductive Move where
  | issue (role : Option DeviceRole) (ttlSeconds : Option JsNumber) (generated : List String)
      (first second third : Nat)
  | redeem (input : String) (first second : Nat)
  | liveCount (current : Nat)
  | create (deviceName : String) (remoteAddress : Option String)
      (drawn : PairingRequestStore.Drawn) (first second third : Nat)
  | list (current : Nat)
  | decide (id : String) (approve : Bool) (role : Option DeviceRole) (name : Option String)
      (current : Nat)
  | poll (pollId : String) (current : Nat)

def Move.times : Move → List Nat
  | .issue _ _ _ first second third => [first, second, third]
  | .redeem _ first second => [first, second]
  | .liveCount current => [current]
  | .create _ _ _ first second third => [first, second, third]
  | .list current => [current]
  | .decide _ _ _ _ current => [current]
  | .poll _ current => [current]

section Step

variable (upper : Char → List Char) (w : World)

/-- A call, at the time it last reads. -/
def act : Move → World
  | .issue role ttlSeconds generated first second third =>
    match w.codes.issue role ttlSeconds generated w.next first second third with
    | none => w
    | some (codes, code, expiresAtMs) =>
      { w with
        codes
        next := w.next + 1
        log := w.log ++ [.issued w.next code.code code.role expiresAtMs] }
  | .redeem input first second =>
    let (codes, answer) := w.codes.redeem upper input first second
    { w with
      codes
      log := w.log ++
        (answer.map fun found => .redeemed found.2 found.1.code found.1.role second).toList }
  | .liveCount current => { w with codes := (w.codes.liveCount current).1 }
  | .create deviceName remoteAddress drawn first second third =>
    let (requests, answer) :=
      w.requests.create deviceName remoteAddress drawn w.next first second third
    { w with
      requests
      next := w.next + 1
      log := w.log ++ (answer.map fun made => .created w.next made.1 made.2).toList }
  | .list current => { w with requests := (w.requests.list current).1 }
  | .decide id approve role name current =>
    let (requests, answer) := w.requests.decide id approve role name current
    { w with
      requests
      log := w.log ++ (answer.map fun made => .decided made.1.request made.2).toList }
  | .poll pollId current =>
    let (requests, answer) := w.requests.poll pollId current
    { w with
      requests
      log := w.log ++ match answer with
        | some (.settled outcome, request) => [.collected request pollId outcome current]
        | _ => [] }

/-- The clock does not go back. -/
def step (move : Move) : World :=
  if (w.clock :: move.times).IsChain (· ≤ ·) then
    { w.act upper move with clock := move.times.getLastD w.clock }
  else w

def run (moves : List Move) : World := moves.foldl (step upper) w

end Step

end World

end Frogg.Server.Pairing
