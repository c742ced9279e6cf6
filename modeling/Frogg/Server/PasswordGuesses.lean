/-
  Subject:   How many passwords can be guessed under one key of the throttle.

  The block is looked up before a token is verified and the failure is recorded after it, so any
  number of requests pass the throttle together (`flood_compares`). Kept for every run of requests
  that do not come in such numbers (`Paced`): **`guesses_bounded`**.
-/
import Frogg.Library.Transition
import Frogg.Server.DaemonAuth

namespace Frogg.Server

open Library List AuthFailureLimiter JsMap

variable {Digest : Type}

/-! ## 1. Runs -/

/-- What happens under a key of the throttle. -/
inductive GuessEvent where
  | compared (key : String) (wrong : Bool) (time : Nat)
  | succeeded (key : String) (time : Nat)
  | blocked (key : String) (time : Nat)
  | evicted (key : String) (time : Nat)
  deriving DecidableEq

/-- The daemon with the requests that await a verification; the newest event is the first. -/
structure AuthRun (Digest : Type) where
  auth : AuthState Digest
  clock : Nat
  pending : List Verification
  history : List GuessEvent

/-- What the daemon does to its devices, its password and its files between two requests. -/
structure AuthSettings (Digest : Type) where
  store : ClaimStore Digest
  password : Option String
  localToken : Option String
  trustedProxies : TrustedProxiesSetting

section Runs

variable [DecidableEq Digest] (lib : AuthLib Digest) (options : AuthFailureLimiterOptions)

/-- A token that is not the password, and not known to be it. -/
def Verification.isWrong (v : Verification) : Bool :=
  decide (AuthState.outcome lib v = some false)

/-- A memoized token is not compared, nor is one where comparing throws. -/
def Verification.comparison (v : Verification) (now : Nat) : List GuessEvent :=
  if v.memoized then []
  else match comparePassword lib v.token v.password with
    | none => []
    | some ok => [.compared v.key (!ok) now]

/-- The block a failure starts, and before it the keys that are evicted for it. -/
def failureEvents (limiter : AuthFailureLimiter) (key : String) (now : Nat) : List GuessEvent :=
  (if ((limiter.entryNow key now).fail options now).failures = [] then [.blocked key now] else []) ++
    (limiter.keys.filter fun other =>
      !(limiter.recordFailure options key now).has other).map fun other => .evicted other now

namespace AuthRun

def recordFailure (s : AuthRun Digest) (key : String) : AuthRun Digest :=
  { s with
    auth := s.auth.recordFailure options key s.clock
    history := failureEvents options s.auth.limiter key s.clock ++ s.history }

def recordSuccess (s : AuthRun Digest) (key : String) : AuthRun Digest :=
  { s with
    auth := s.auth.recordSuccess key s.clock
    history := .succeeded key s.clock :: s.history }

variable (s : AuthRun Digest)

/-- A request up to its answer or its verification. -/
def arrive (stat : FileStat) (request : AuthRequest) : AuthRun Digest :=
  match s.auth.beginRequest lib stat s.clock request with
  | (auth, .answered _) => { s with auth }
  | (auth, .refused key _) => { s with auth }.recordFailure options key
  | (auth, .verifying v) =>
    { s with
      auth, pending := s.pending ++ [v], history := v.comparison lib s.clock ++ s.history }

/-- The verification of a request has come to an end. -/
def complete (v : Verification) : AuthRun Digest :=
  { s with
    auth := (s.auth.finish lib options s.clock v).1
    history :=
      (match AuthState.outcome lib v with
        | none => []
        | some true => [.succeeded v.key s.clock]
        | some false => failureEvents options s.auth.limiter v.key s.clock) ++ s.history }

def configure (settings : AuthSettings Digest) : AuthRun Digest :=
  { s with
    auth := { s.auth with
      store := settings.store, password := settings.password
      localToken := settings.localToken, trustedProxies := settings.trustedProxies } }

end AuthRun

inductive AuthEvent (Digest : Type) where
  | advanced (later : Nat)
  | arrived (stat : FileStat) (request : AuthRequest)
  | completed (before : List Verification) (v : Verification) (after : List Verification)
  | pairingFailed (key : String)
  | pairingSucceeded (key : String)
  | configured (settings : AuthSettings Digest)

/-- One step. A synchronous request is an arrival whose verification ends before anything else. -/
inductive AuthStep (s : AuthRun Digest) : AuthEvent Digest → AuthRun Digest → Prop where
  | advanced (later : Nat) (hlater : s.clock ≤ later) :
      AuthStep s (.advanced later) { s with clock := later }
  | arrived (stat : FileStat) (request : AuthRequest) :
      AuthStep s (.arrived stat request) (s.arrive lib options stat request)
  | completed (before after : List Verification) (v : Verification)
      (hpending : s.pending = before ++ v :: after) :
      AuthStep s (.completed before v after)
        ({ s with pending := before ++ after }.complete lib options v)
  | pairingFailed (key : String) : AuthStep s (.pairingFailed key) (s.recordFailure options key)
  | pairingSucceeded (key : String) : AuthStep s (.pairingSucceeded key) (s.recordSuccess key)
  | configured (settings : AuthSettings Digest) :
      AuthStep s (.configured settings) (s.configure settings)

end Runs

/-! ## 2. What is promised -/

namespace GuessEvent

def time : GuessEvent → Nat
  | .compared _ _ time | .succeeded _ time | .blocked _ time | .evicted _ time => time

/-- The key has had a success, or its entry is gone. -/
def resets (key : String) : GuessEvent → Bool
  | .succeeded k _ | .evicted k _ => decide (k = key)
  | .compared .. | .blocked .. => false

/-- A wrong token of the key, compared later than `since`. -/
def isGuess (key : String) (since : Int) : GuessEvent → Bool
  | .compared k wrong time => decide (k = key) && wrong && decide (since < time)
  | .succeeded .. | .blocked .. | .evicted .. => false

end GuessEvent

section Promises

variable (options : AuthFailureLimiterOptions) (history : List GuessEvent)

/-- Between two successes, without an eviction, no window holds more wrong tokens of a key than the
    limiter allows failures. -/
def GuessesBounded : Prop :=
  ∀ (key : String) (later segment earlier : List GuessEvent) (windowEnd : Int),
    history = later ++ segment ++ earlier → (∀ e ∈ segment, e.resets key = false) →
      (segment.countP fun e =>
        e.isGuess key (windowEnd - options.windowMs) && decide (e.time ≤ windowEnd)) ≤
          options.maxFailures

/-- No token of a blocked key is compared before the block is over, unless the key was evicted. -/
def BlocksRespected : Prop :=
  ∀ (key : String) (wrong : Bool) (blockedAt comparedAt : Nat)
    (later between earlier : List GuessEvent),
    history =
        later ++ .compared key wrong comparedAt :: between ++ .blocked key blockedAt :: earlier →
      (∀ time, .evicted key time ∉ between) → (blockedAt : Int) + options.blockMs ≤ comparedAt

/-- A key that is blocked still is dropped only if every key was blocked. -/
def EvictsBlockedLast (s s' : AuthRun Digest) : Prop :=
  ∀ key entry, s.auth.limiter.get? key = some entry → (s'.clock : Int) < entry.blockedUntil →
    s'.auth.limiter.get? key = none →
      ∀ other otherEntry, s.auth.limiter.get? other = some otherEntry →
        (s'.clock : Int) < otherEntry.blockedUntil

end Promises

/-! ## 3. The budget of a key -/

variable {e : GuessEvent}

section Budget

variable {options : AuthFailureLimiterOptions} {limiter : AuthFailureLimiter}
  {history events : List GuessEvent} {key other : String} {since : Int}

/-- The wrong tokens since the last success or eviction of the key, those up to `since` left out. -/
def guessesSince (key : String) (since : Int) (history : List GuessEvent) : Nat :=
  (history.takeWhile fun e => !e.resets key).countP (GuessEvent.isGuess key since)

theorem guessesSince_cons (e : GuessEvent) :
    guessesSince key since (e :: history) =
      if e.resets key then 0
      else guessesSince key since history + if e.isGuess key since then 1 else 0 := by
  unfold guessesSince
  rw [takeWhile_cons]
  cases e.resets key with
  | true => rfl
  | false => exact countP_cons

theorem guessesSince_quiet (hevents : ∀ e ∈ events, e.isGuess key since = false) :
    guessesSince key since (events ++ history) ≤ guessesSince key since history := by
  induction events with
  | nil => exact Nat.le_refl _
  | cons e events ih =>
    have hrest := ih fun e he => hevents e (mem_cons_of_mem _ he)
    rw [cons_append, guessesSince_cons, hevents e mem_cons_self]
    split
    · omega
    · simpa using hrest

theorem guessesSince_reset (hevents : ∀ e ∈ events, e.isGuess key since = false)
    (hreset : ∃ e ∈ events, e.resets key = true) :
    guessesSince key since (events ++ history) = 0 := by
  induction events with
  | nil => obtain ⟨e, he, -⟩ := hreset; exact absurd he not_mem_nil
  | cons e events ih =>
    rw [cons_append, guessesSince_cons]
    split
    · rfl
    · rename_i hnot
      obtain ⟨e', he', hresets⟩ := hreset
      have hin : e' ∈ events := by
        rcases mem_cons.mp he' with rfl | hin
        · exact absurd hresets hnot
        · exact hin
      rw [ih (fun e he => hevents e (mem_cons_of_mem _ he)) ⟨e', hin, hresets⟩,
        hevents e mem_cons_self]
      rfl

/-- Nothing of the key was compared later than `since`. -/
theorem guessesSince_old (h : ∀ e ∈ history, (e.time : Int) ≤ since) :
    guessesSince key since history = 0 := by
  refine countP_eq_zero.mpr fun e he => ?_
  have hle := h e (takeWhile_subset _ he)
  cases e with
  | compared k wrong time =>
    have hnot : ¬ since < (time : Int) := Int.not_lt.mpr hle
    simp [GuessEvent.isGuess, hnot]
  | succeeded | blocked | evicted => simp [GuessEvent.isGuess]

/-- The failures of the key on record that are later than `since`. -/
def failuresSince (limiter : AuthFailureLimiter) (key : String) (since : Int) : Nat :=
  ((limiter.get? key).map fun entry => entry.failures.countP fun failedAt => since < failedAt).getD 0

/-- At a time, the key is blocked or its wrong tokens in the window are `awaited` or on record. -/
def Budget (options : AuthFailureLimiterOptions) (limiter : AuthFailureLimiter)
    (history : List GuessEvent) (key : String) (awaited : Nat) (time : Int) : Prop :=
  (∃ entry, limiter.get? key = some entry ∧ time < entry.blockedUntil) ∨
    guessesSince key (time - options.windowMs) history ≤
      awaited + failuresSince limiter key (time - options.windowMs)

theorem Budget.mono {awaited more : Nat} {time : Int}
    (h : Budget options limiter history key awaited time) (hle : awaited ≤ more) : Budget options limiter history key more time :=
  h.imp_right fun hguesses => by omega

/-! ### A failure -/

variable {now awaited : Nat} {time : Int}

theorem LimiterEntry.fail_cases (options : AuthFailureLimiterOptions) (entry : LimiterEntry)
    (current : Int) :
    ((entry.fail options current).failures = [] ∧
        (entry.fail options current).blockedUntil = current + options.blockMs) ∨
      ((entry.fail options current).failures =
            entry.failures.filter (fun failedAt => failedAt > current - options.windowMs) ++
              [current] ∧
        (entry.fail options current).blockedUntil = entry.blockedUntil) := by
  unfold LimiterEntry.fail
  dsimp only
  split
  · exact .inl ⟨rfl, rfl⟩
  · exact .inr ⟨rfl, rfl⟩

theorem mem_failureEvents (h : e ∈ failureEvents options limiter key now) :
    (e = .blocked key now ∧ ((limiter.entryNow key now).fail options now).failures = []) ∨
      ∃ other, e = .evicted other now ∧ (limiter.get? other).isSome ∧
        (limiter.recordFailure options key now).get? other = none := by
  rcases mem_append.mp h with h | h
  · split at h
    · exact .inl ⟨mem_singleton.mp h, ‹_›⟩
    · exact absurd h not_mem_nil
  · obtain ⟨other, hother, rfl⟩ := mem_map.mp h
    obtain ⟨hkeys, hgone⟩ := mem_filter.mp hother
    obtain ⟨entry, hget⟩ := mem_keys_iff.mp hkeys
    refine .inr ⟨other, rfl, by rw [hget]; rfl, has_eq_false_iff.mp ?_⟩
    simpa using hgone

theorem evicted_mem_failureEvents {entry : LimiterEntry} (hget : limiter.get? other = some entry)
    (hgone : (limiter.recordFailure options key now).get? other = none) :
    .evicted other now ∈ failureEvents options limiter key now := by
  refine mem_append_right _ (mem_map.mpr ⟨other, mem_filter.mpr ⟨?_, ?_⟩, rfl⟩)
  · exact mem_keys_iff.mpr ⟨entry, hget⟩
  · simpa using has_eq_false_iff.mpr hgone

theorem time_failureEvents (h : e ∈ failureEvents options limiter key now) : e.time = now := by
  rcases mem_failureEvents h with ⟨rfl, -⟩ | ⟨other, rfl, -⟩ <;> rfl

theorem isGuess_failureEvents (h : e ∈ failureEvents options limiter key now) :
    e.isGuess other since = false := by
  rcases mem_failureEvents h with ⟨rfl, -⟩ | ⟨other, rfl, -⟩ <;> rfl

theorem entryNow_of_get {entry : LimiterEntry} (hget : limiter.get? key = some entry) :
    limiter.entryNow key now = { entry with lastSeenAt := now } := by
  unfold entryNow
  rw [hget]
  rfl

/-- The failures of the entry that is found or made. -/
theorem failuresSince_eq : failuresSince limiter key since =
    (limiter.entryNow key now).failures.countP fun failedAt => since < failedAt := by
  unfold failuresSince entryNow
  cases limiter.get? key with
  | none => rfl
  | some entry => rfl

theorem countP_fail (entry : LimiterEntry) (hnow : now ≤ time) :
    (entry.failures.filter (fun failedAt => failedAt > now - options.windowMs)).countP
        (fun failedAt => time - options.windowMs < failedAt) =
      entry.failures.countP fun failedAt => time - options.windowMs < failedAt := by
  rw [countP_filter]
  refine countP_congr fun failedAt _ => ?_
  simp only [gt_iff_lt, Bool.and_eq_true, decide_eq_true_eq]
  omega

/-- A failure takes the place of a token that was awaited, or starts a block. -/
theorem Budget.failure (hblock : options.windowMs ≤ options.blockMs)
    (htimes : ∀ e ∈ history, e.time ≤ now) (hnow : now ≤ time)
    (h : Budget options limiter history key (awaited + 1) time) :
    Budget options (limiter.recordFailure options key now)
      (failureEvents options limiter key now ++ history) key awaited time := by
  have hself := @recordFailure_self options now key limiter
  by_cases hold : (now : Int) ≤ time - options.windowMs
  · right
    rw [guessesSince_old fun e he => ?_]
    · exact Nat.zero_le _
    · rcases mem_append.mp he with he | he
      · rw [time_failureEvents he]; exact hold
      · have hle := htimes e he
        omega
  · rcases (limiter.entryNow key now).fail_cases options now with ⟨-, huntil⟩ | ⟨hfailures, huntil⟩
    · exact .inl ⟨_, hself, by omega⟩
    · rcases h with ⟨entry, hget, hlt⟩ | hguesses
      · refine .inl ⟨_, hself, ?_⟩
        rw [huntil, entryNow_of_get hget]
        exact hlt
      · right
        have hquiet := @guessesSince_quiet history (failureEvents options limiter key now) key
          (time - options.windowMs) fun e he => isGuess_failureEvents he
        have hcount : failuresSince (limiter.recordFailure options key now) key
            (time - options.windowMs) = failuresSince limiter key (time - options.windowMs) + 1 := by
          rw [@failuresSince_eq limiter key _ now, failuresSince, hself]
          show countP _ ((limiter.entryNow key now).fail options now).failures = _
          rw [hfailures, countP_append, countP_fail _ hnow, countP_singleton,
            if_pos (by simpa using hold)]
        omega

theorem Budget.failure_other (hother : other ≠ key)
    (h : Budget options limiter history other awaited time) :
    Budget options (limiter.recordFailure options key now)
      (failureEvents options limiter key now ++ history) other awaited time := by
  have hnoGuess : ∀ e ∈ failureEvents options limiter key now,
      e.isGuess other (time - options.windowMs) = false := fun e he => isGuess_failureEvents he
  have hsame : (limiter.recordFailure options key now).get? other = limiter.get? other →
      Budget options (limiter.recordFailure options key now)
        (failureEvents options limiter key now ++ history) other awaited time := by
    intro hget
    refine h.imp (fun ⟨entry, hentry, hlt⟩ => ⟨entry, hget.trans hentry, hlt⟩) fun hguesses => ?_
    have hquiet := @guessesSince_quiet history _ other _ hnoGuess
    unfold failuresSince at hguesses ⊢
    rw [hget]
    omega
  rcases @recordFailure_other options now key limiter other hother with
    hget | ⟨-, hgone⟩
  · exact hsame hget
  · cases hget : limiter.get? other with
    | none => exact hsame (hgone.trans hget.symm)
    | some entry =>
      right
      rw [guessesSince_reset hnoGuess ⟨_, evicted_mem_failureEvents hget hgone, ?_⟩]
      · exact Nat.zero_le _
      · exact decide_eq_true rfl

/-! ### A success, and a comparison -/

theorem Budget.success :
    Budget options (limiter.recordSuccess key now) (.succeeded key now :: history) key awaited
      time := by
  right
  rw [guessesSince_cons, if_pos (show (GuessEvent.succeeded key now).resets key = true from
    decide_eq_true rfl)]
  exact Nat.zero_le _

theorem Budget.success_other (hother : other ≠ key)
    (h : Budget options limiter history other awaited time) :
    Budget options (limiter.recordSuccess key now) (.succeeded key now :: history) other awaited
      time := by
  have hget := @recordSuccess_other now key limiter other hother
  refine h.imp (fun ⟨entry, hentry, hlt⟩ => ⟨entry, hget.trans hentry, hlt⟩) fun hguesses => ?_
  have hquiet := @guessesSince_quiet history [.succeeded key now] other
    (time - options.windowMs) fun e he => by rw [mem_singleton.mp he]; rfl
  unfold failuresSince at hguesses ⊢
  rw [hget]
  exact Nat.le_trans hquiet hguesses

/-- The wrong tokens that a comparison adds to those of the key. -/
theorem Budget.compared {k : String} {wrong : Bool}
    (h : Budget options limiter history key awaited time) :
    Budget options limiter (.compared k wrong now :: history) key
      (awaited + if k = key ∧ wrong = true then 1 else 0) time := by
  refine h.imp_right fun hguesses => ?_
  rw [guessesSince_cons, if_neg (by simp [GuessEvent.resets])]
  by_cases hguess : k = key ∧ wrong = true
  · split <;> omega
  · have hnot : (GuessEvent.compared k wrong now).isGuess key (time - options.windowMs) = false := by
      unfold GuessEvent.isGuess
      by_contra hcon
      simp only [Bool.not_eq_false, Bool.and_eq_true, decide_eq_true_eq] at hcon
      exact hguess hcon.1
    rw [hnot, if_neg hguess]
    simpa using hguesses

end Budget

/-! ## 4. Blocks and windows -/

section History

variable {options : AuthFailureLimiterOptions} {limiter : AuthFailureLimiter}
  {history events : List GuessEvent} {key : String} {clock : Nat}

def GuessEvent.evicts (key : String) : GuessEvent → Bool
  | .evicted k _ => decide (k = key)
  | .compared .. | .succeeded .. | .blocked .. => false

/-- A block since the last eviction of the key is over or stands in its entry. -/
def BlocksStand (options : AuthFailureLimiterOptions) (limiter : AuthFailureLimiter)
    (history : List GuessEvent) (key : String) (clock : Nat) : Prop :=
  ∀ blockedAt : Nat, .blocked key blockedAt ∈ (history.takeWhile fun e => !e.evicts key) →
    (blockedAt : Int) + options.blockMs ≤ clock ∨ ∃ entry, limiter.get? key = some entry ∧
      blockedAt + options.blockMs ≤ entry.blockedUntil

theorem BlocksStand.later {later : Nat} (h : BlocksStand options limiter history key clock)
    (hlater : clock ≤ later) : BlocksStand options limiter history key later := by
  intro blockedAt hin
  refine (h blockedAt hin).imp_left fun hle => ?_
  omega

/-- An event that is neither a block nor an eviction, with the key's entry as it was. -/
theorem BlocksStand.cons {e : GuessEvent} {limiter' : AuthFailureLimiter}
    (h : BlocksStand options limiter history key clock) (hevicts : e.evicts key = false)
    (hblocked : ∀ time, e ≠ .blocked key time)
    (hentry : ∀ entry, limiter.get? key = some entry → limiter'.get? key = some entry ∨
      entry.blockedUntil ≤ clock) :
    BlocksStand options limiter' (e :: history) key clock := by
  intro blockedAt hin
  rw [takeWhile_cons, hevicts] at hin
  rcases mem_cons.mp hin with heq | hin
  · exact absurd heq.symm (hblocked blockedAt)
  · rcases h blockedAt hin with hover | ⟨entry, hget, hle⟩
    · exact .inl hover
    · rcases hentry entry hget with hsame | hover
      · exact .inr ⟨entry, hsame, hle⟩
      · exact .inl (Int.le_trans hle hover)

theorem takeWhile_of_evicted (hin : .evicted key clock ∈ events) (more : List GuessEvent) :
    (events ++ more).takeWhile (fun e => !e.evicts key) =
      events.takeWhile fun e => !e.evicts key := by
  induction events with
  | nil => exact absurd hin not_mem_nil
  | cons e events ih =>
    rw [cons_append, takeWhile_cons, takeWhile_cons]
    cases hevicts : e.evicts key with
    | true => rfl
    | false =>
      rcases mem_cons.mp hin with rfl | hin
      · simp [GuessEvent.evicts] at hevicts
      · exact congrArg (e :: ·) (ih hin)

theorem BlocksStand.failure {failing : String} (h : BlocksStand options limiter history key clock)
    (htimes : ∀ e ∈ history, e.time ≤ clock) :
    BlocksStand options (limiter.recordFailure options failing clock)
      (failureEvents options limiter failing clock ++ history) key clock := by
  intro blockedAt hin
  have hself := @recordFailure_self options clock failing limiter
  have hnew : .blocked key blockedAt ∈ failureEvents options limiter failing clock →
      ∃ entry, (limiter.recordFailure options failing clock).get? key = some entry ∧
        (blockedAt : Int) + options.blockMs ≤ entry.blockedUntil := by
    intro hin
    rcases mem_failureEvents hin with ⟨heq, hfailures⟩ | ⟨other, heq, -⟩
    · obtain ⟨rfl, rfl⟩ := GuessEvent.blocked.inj heq
      refine ⟨_, hself, ?_⟩
      rcases (limiter.entryNow key blockedAt).fail_cases options blockedAt with
        ⟨-, huntil⟩ | ⟨hadded, -⟩
      · omega
      · rw [hadded] at hfailures
        exact absurd hfailures (append_ne_nil_of_right_ne_nil _ (cons_ne_nil _ _))
    · cases heq
  by_cases hkept : ∀ entry, limiter.get? key = some entry →
      (limiter.recordFailure options failing clock).get? key ≠ none
  · rcases mem_append.mp ((takeWhile_subset _) hin) with hfresh | hold
    · exact .inr (hnew hfresh)
    · have hnone : ∀ e ∈ failureEvents options limiter failing clock, e.evicts key = false := by
        intro e he
        rcases mem_failureEvents he with ⟨rfl, -⟩ | ⟨other, rfl, hsome, hgone⟩
        · rfl
        · refine decide_eq_false ?_
          rintro rfl
          obtain ⟨entry, hget⟩ := Option.isSome_iff_exists.mp hsome
          exact hkept entry hget hgone
      rw [takeWhile_append_of_pos fun e he => by rw [hnone e he]; rfl] at hin
      rcases mem_append.mp hin with hfresh | hin
      · exact .inr (hnew hfresh)
      · rcases h blockedAt hin with hover | ⟨entry, hget, hle⟩
        · exact .inl hover
        · right
          by_cases hfailing : key = failing
          · subst hfailing
            refine ⟨_, hself, ?_⟩
            have hblockedAt := htimes _ hold
            rcases (limiter.entryNow key clock).fail_cases options clock with
              ⟨-, huntil⟩ | ⟨-, huntil⟩
            · have hle : blockedAt ≤ clock := hblockedAt
              omega
            · rw [huntil, entryNow_of_get hget]; exact hle
          · rcases @recordFailure_other options clock failing limiter key
              hfailing with hsame | ⟨-, hgone⟩
            · exact ⟨entry, hsame.trans hget, hle⟩
            · exact absurd hgone (hkept entry hget)
  · obtain ⟨entry, hentry⟩ := not_forall.mp hkept
    obtain ⟨hget, hgone⟩ := Classical.not_imp.mp hentry
    have hgone := not_not.mp hgone
    rw [takeWhile_of_evicted (evicted_mem_failureEvents hget hgone)] at hin
    exact .inr (hnew (takeWhile_subset _ hin))

/-! ### What the events promise -/

/-- Events that compare nothing keep both promises. -/
theorem guessesBounded_cons (h : GuessesBounded options history)
    (hguess : ∀ key, e.isGuess key (e.time - 1) = true →
      guessesSince key (e.time - options.windowMs) (e :: history) ≤ options.maxFailures) :
    GuessesBounded options (e :: history) := by
  intro key later segment earlier windowEnd heq hsegment
  cases later with
  | cons l later =>
    obtain ⟨-, heq⟩ := cons.inj heq
    exact h key later segment earlier windowEnd heq hsegment
  | nil =>
    cases segment with
    | nil => exact Nat.zero_le _
    | cons first segment =>
      obtain ⟨rfl, hrest⟩ := cons.inj heq
      have hbefore := h key [] segment earlier windowEnd hrest fun e he =>
        hsegment e (mem_cons_of_mem _ he)
      rw [countP_cons]
      split
      · rename_i hin
        obtain ⟨hin, hwindow⟩ := Bool.and_eq_true_iff.mp hin
        have hle : (e.time : Int) ≤ windowEnd := of_decide_eq_true hwindow
        have hnow := hguess key (by
          cases e with
          | compared k wrong time =>
            simp only [GuessEvent.isGuess, Bool.and_eq_true, decide_eq_true_eq] at hin ⊢
            refine ⟨hin.1, ?_⟩
            show (time : Int) - 1 < time
            omega
          | succeeded | blocked | evicted => simp [GuessEvent.isGuess] at hin)
        refine Nat.le_trans ?_ hnow
        have htake : ((e :: history).takeWhile fun e => !e.resets key) =
            (e :: segment) ++ earlier.takeWhile fun e => !e.resets key := by
          rw [hrest]
          show takeWhile _ ((e :: segment) ++ earlier) = _
          exact takeWhile_append_of_pos fun e' he' => by rw [hsegment e' he']; rfl
        unfold guessesSince
        have hsince : ∀ e' : GuessEvent, (e'.isGuess key (windowEnd - options.windowMs) &&
            decide ((e'.time : Int) ≤ windowEnd)) = true →
              e'.isGuess key (e.time - options.windowMs) = true := by
          intro e' he'
          obtain ⟨hguess', -⟩ := Bool.and_eq_true_iff.mp he'
          cases e' with
          | compared k wrong time =>
            simp only [GuessEvent.isGuess, Bool.and_eq_true, decide_eq_true_eq] at hguess' ⊢
            exact ⟨hguess'.1, by omega⟩
          | succeeded | blocked | evicted => simp [GuessEvent.isGuess] at hguess'
        rw [htake, countP_append, countP_cons,
          if_pos (hsince e (Bool.and_eq_true_iff.mpr ⟨hin, hwindow⟩))]
        have hle := countP_mono_left (l := segment) fun e' _ => hsince e'
        omega
      · exact hbefore

theorem blocksRespected_cons (h : BlocksRespected options history)
    (hcompared : ∀ key wrong comparedAt, e = .compared key wrong comparedAt → ∀ blockedAt : Nat,
      .blocked key blockedAt ∈ (history.takeWhile fun e => !e.evicts key) →
        (blockedAt : Int) + options.blockMs ≤ comparedAt) :
    BlocksRespected options (e :: history) := by
  intro key wrong blockedAt comparedAt later between earlier heq hbetween
  cases later with
  | cons l later =>
    obtain ⟨-, heq⟩ := cons.inj heq
    exact h key wrong blockedAt comparedAt later between earlier heq hbetween
  | nil =>
    obtain ⟨rfl, hrest⟩ := cons.inj heq
    refine hcompared key wrong comparedAt rfl blockedAt ?_
    have hrest : history = between ++ .blocked key blockedAt :: earlier := hrest
    rw [hrest, show between ++ .blocked key blockedAt :: earlier =
      between ++ ([.blocked key blockedAt] ++ earlier) from rfl,
      takeWhile_append_of_pos fun e he => ?_]
    · exact mem_append_right _ mem_cons_self
    · cases e with
      | evicted k time =>
        have hne : k ≠ key := by rintro rfl; exact hbetween time he
        simp [GuessEvent.evicts, hne]
      | compared | succeeded | blocked => rfl

theorem guessesBounded_quiet (h : GuessesBounded options history)
    (hevents : ∀ e ∈ events, ∀ key since, e.isGuess key since = false) :
    GuessesBounded options (events ++ history) := by
  induction events with
  | nil => exact h
  | cons e events ih =>
    refine guessesBounded_cons (ih fun e he => hevents e (mem_cons_of_mem _ he)) ?_
    intro key hguess
    rw [hevents e mem_cons_self] at hguess
    cases hguess

theorem blocksRespected_quiet (h : BlocksRespected options history)
    (hevents : ∀ e ∈ events, ∀ key wrong time, e ≠ .compared key wrong time) :
    BlocksRespected options (events ++ history) := by
  induction events with
  | nil => exact h
  | cons e events ih =>
    refine blocksRespected_cons (ih fun e he => hevents e (mem_cons_of_mem _ he)) ?_
    intro key wrong time heq
    exact absurd heq (hevents e mem_cons_self key wrong time)

end History

/-! ## 5. The invariant -/

/-- What holds of the limiter and the history, with `awaited` wrong tokens of each key in flight. -/
structure GuessInv (options : AuthFailureLimiterOptions) (limiter : AuthFailureLimiter)
    (history : List GuessEvent) (clock : Nat) (awaited : String → Nat) : Prop where
  size : limiter.size ≤ options.maxKeys
  below : 0 < options.maxFailures → ∀ key entry, limiter.get? key = some entry →
    entry.failures.length < options.maxFailures
  times : ∀ e ∈ history, e.time ≤ clock
  budget : ∀ key time, (clock : Int) ≤ time →
    Budget options limiter history key (awaited key) time
  stand : ∀ key, BlocksStand options limiter history key clock
  bounded : GuessesBounded options history
  respected : BlocksRespected options history

section Invariant

variable {options : AuthFailureLimiterOptions} {limiter : AuthFailureLimiter}
  {history : List GuessEvent} {key : String} {clock : Nat} {awaited awaited' : String → Nat}

theorem guessInv_start (options : AuthFailureLimiterOptions) (clock : Nat) :
    GuessInv options .empty [] clock fun _ => 0 where
  size := Nat.zero_le _
  below := fun _ key entry hget => by cases hget
  times := fun e he => absurd he not_mem_nil
  budget := fun key time _ => .inr (Nat.zero_le _)
  stand := fun key blockedAt hin => absurd hin not_mem_nil
  bounded := fun key later segment earlier windowEnd heq _ => by
    have hnil : segment = [] := by simp_all
    rw [hnil]
    exact Nat.zero_le _
  respected := fun key wrong blockedAt comparedAt later between earlier heq => by simp at heq

theorem GuessInv.advance {later : Nat} (h : GuessInv options limiter history clock awaited)
    (hlater : clock ≤ later) : GuessInv options limiter history later awaited :=
  { h with
    times := fun e he => Nat.le_trans (h.times e he) hlater
    budget := fun key time htime => h.budget key time (by omega)
    stand := fun key => (h.stand key).later hlater }

theorem GuessInv.awaiting (h : GuessInv options limiter history clock awaited)
    (hmore : ∀ k, awaited k ≤ awaited' k) : GuessInv options limiter history clock awaited' :=
  { h with budget := fun key time htime => (h.budget key time htime).mono (hmore key) }

theorem failures_fail_length (hpos : 0 < options.maxFailures) (entry : LimiterEntry)
    (current : Int) : (entry.fail options current).failures.length < options.maxFailures := by
  unfold LimiterEntry.fail
  dsimp only
  split
  · exact hpos
  · exact Nat.lt_of_not_le ‹_›

theorem GuessInv.failure (hkeys : 0 < options.maxKeys) (hblock : options.windowMs ≤ options.blockMs)
    (h : GuessInv options limiter history clock awaited) (key : String)
    (hless : ∀ k, awaited k ≤ awaited' k + if k = key then 1 else 0) :
    GuessInv options (limiter.recordFailure options key clock)
      (failureEvents options limiter key clock ++ history) clock awaited' where
  size := size_recordFailure hkeys h.size
  below := by
    intro hpos k entry hget
    by_cases hk : k = key
    · rw [hk, recordFailure_self] at hget
      rw [← Option.some.inj hget]
      exact failures_fail_length hpos _ _
    · rcases @recordFailure_other options clock key limiter k hk with
        hsame | ⟨-, hgone⟩
      · exact h.below hpos k entry (hsame.symm.trans hget)
      · rw [hgone] at hget; cases hget
  times := by
    intro e he
    rcases mem_append.mp he with he | he
    · exact Nat.le_of_eq (time_failureEvents he)
    · exact h.times e he
  budget := by
    intro k time htime
    have hbudget := h.budget k time htime
    have hle := hless k
    by_cases hk : k = key
    · subst hk; rw [if_pos rfl] at hle; exact (hbudget.mono hle).failure hblock h.times htime
    · rw [if_neg hk] at hle; exact (hbudget.mono hle).failure_other hk
  stand := fun k => (h.stand k).failure h.times
  bounded := guessesBounded_quiet h.bounded fun e he _ _ => isGuess_failureEvents he
  respected := blocksRespected_quiet h.respected fun e he k wrong time heq => by
    rcases mem_failureEvents he with ⟨hblocked, -⟩ | ⟨other, hevicted, -⟩
    · exact GuessEvent.noConfusion (heq.symm.trans hblocked)
    · exact GuessEvent.noConfusion (heq.symm.trans hevicted)

section

variable (h : GuessInv options limiter history clock awaited)
include h

theorem GuessInv.success (key : String) (hless : ∀ k, k ≠ key → awaited k ≤ awaited' k) :
    GuessInv options (limiter.recordSuccess key clock) (.succeeded key clock :: history) clock
      awaited' := by
  have hentry : ∀ k entry, limiter.get? k = some entry →
      (limiter.recordSuccess key clock).get? k = some entry ∨ entry.blockedUntil ≤ clock := by
    intro k entry hget
    by_cases hk : k = key
    · subst hk
      unfold AuthFailureLimiter.recordSuccess
      rw [hget]
      dsimp only
      split
      · exact .inr ‹_›
      · exact .inl hget
    · exact .inl ((recordSuccess_other hk).trans hget)
  have hback : ∀ k entry, (limiter.recordSuccess key clock).get? k = some entry →
      limiter.get? k = some entry := by
    intro k entry hget
    by_cases hk : k = key
    · subst hk
      rcases @recordSuccess_self clock k limiter with hnone | ⟨hsame, -⟩
      · rw [hnone] at hget; cases hget
      · rwa [hsame] at hget
    · rwa [recordSuccess_other hk] at hget
  refine ⟨Nat.le_trans size_recordSuccess h.size,
    fun hpos k entry hget => h.below hpos k entry (hback k entry hget),
    forall_mem_cons.mpr ⟨Nat.le_refl _, h.times⟩, fun k time htime => ?_,
    fun k => (h.stand k).cons rfl (fun _ heq => by cases heq) (hentry k),
    @guessesBounded_quiet _ _ [.succeeded key clock] h.bounded ?_,
    @blocksRespected_quiet _ _ [.succeeded key clock] h.respected ?_⟩
  · by_cases hk : k = key
    · subst hk; exact Budget.success
    · exact ((h.budget k time htime).mono (hless k hk)).success_other hk
  · intro e he k since; rw [mem_singleton.mp he]; rfl
  · intro e he k wrong time heq; rw [mem_singleton.mp he] at heq; cases heq

/-- A token is compared when the throttle lets its key pass, a wrong one while the failures on
    record leave room for those in flight. -/
theorem GuessInv.compared {wrong : Bool} (hopen : limiter.isBlocked key clock = false)
    (hroom : wrong = true → awaited key + failuresSince limiter key (clock - options.windowMs) <
      options.maxFailures) :
    GuessInv options limiter (.compared key wrong clock :: history) clock
      fun k => awaited k + if key = k ∧ wrong = true then 1 else 0 := by
  have hover : ∀ entry, limiter.get? key = some entry → entry.blockedUntil ≤ clock := by
    intro entry hget
    unfold AuthFailureLimiter.isBlocked at hopen
    rw [hget] at hopen
    exact Int.not_lt.mp (of_decide_eq_false hopen)
  refine { h with
    times := forall_mem_cons.mpr ⟨Nat.le_refl _, h.times⟩
    budget := fun k time htime => (h.budget k time htime).compared
    stand := fun k => (h.stand k).cons rfl (fun _ => nofun) fun _ hget => .inl hget
    bounded := guessesBounded_cons h.bounded fun k hguess => ?_
    respected := blocksRespected_cons h.respected fun k w comparedAt heq blockedAt hin => ?_ }
  · simp only [GuessEvent.isGuess, Bool.and_eq_true, decide_eq_true_eq] at hguess
    obtain ⟨⟨rfl, rfl⟩, -⟩ := hguess
    rw [guessesSince_cons, if_neg (by simp [GuessEvent.resets])]
    have hroom := hroom rfl
    show guessesSince key (clock - options.windowMs) history + _ ≤ _
    rcases h.budget key clock (Int.le_refl _) with ⟨entry, hget, hlt⟩ | hguesses
    · exact absurd (hover entry hget) (Int.not_le.mpr hlt)
    · split <;> omega
  · obtain ⟨rfl, -, rfl⟩ := GuessEvent.compared.inj heq
    rcases h.stand key blockedAt hin with hle | ⟨entry, hget, hle⟩
    · exact hle
    · exact Int.le_trans hle (hover entry hget)

end

end Invariant

/-! ## 6. Every run -/

section

variable (lib : AuthLib Digest) (pending : List Verification)

/-- The wrong tokens of a key whose verification is awaited. -/
def awaitedGuesses (key : String) : Nat :=
  pending.countP fun v => v.isWrong lib && decide (v.key = key)

theorem awaitedGuesses_append (v : Verification) (key : String) :
    awaitedGuesses lib (pending ++ [v]) key =
      awaitedGuesses lib pending key + if v.isWrong lib && decide (v.key = key) then 1 else 0 := by
  unfold awaitedGuesses
  rw [countP_append, countP_singleton]

theorem awaitedGuesses_remove (before after : List Verification) (v : Verification) (key : String) :
    awaitedGuesses lib (before ++ v :: after) key =
      awaitedGuesses lib (before ++ after) key +
        if v.isWrong lib && decide (v.key = key) then 1 else 0 := by
  unfold awaitedGuesses
  rw [countP_append, countP_append, countP_cons]
  omega

end

section Reached

variable [DecidableEq Digest] (lib : AuthLib Digest) (options : AuthFailureLimiterOptions)

/-- A wrong token is compared only while those in flight and the failures on record are fewer than
    the limiter allows. -/
def Paced (s : AuthRun Digest) : AuthEvent Digest → Prop
  | .arrived stat request => ∀ auth v,
      s.auth.beginRequest lib stat s.clock request = (auth, .verifying v) → v.isWrong lib = true →
        awaitedGuesses lib s.pending v.key +
          failuresSince s.auth.limiter v.key (s.clock - options.windowMs) < options.maxFailures
  | .advanced _ | .completed .. | .pairingFailed _ | .pairingSucceeded _ | .configured _ => True

def AuthRun.start (s : AuthRun Digest) : Prop :=
  s.auth.limiter = .empty ∧ s.auth.verifiedPasswords = .empty ∧ s.pending = [] ∧ s.history = []

def authRuns : TransitionSystem (AuthRun Digest) where
  init := AuthRun.start
  step s s' := ∃ event, AuthStep lib options s event s'

def pacedRuns : TransitionSystem (AuthRun Digest) where
  init := AuthRun.start
  step s s' := ∃ event, AuthStep lib options s event s' ∧ Paced lib options s event

def AuthRun.Inv (s : AuthRun Digest) : Prop :=
  GuessInv options s.auth.limiter s.history s.clock (awaitedGuesses lib s.pending)

variable {lib options} {s s' : AuthRun Digest}

section

variable (hkeys : 0 < options.maxKeys) (hblock : options.windowMs ≤ options.blockMs)
include hkeys hblock

theorem inv_arrive (h : s.Inv lib options) {stat : FileStat} {request : AuthRequest}
    (hpaced : Paced lib options s (.arrived stat request)) :
    (s.arrive lib options stat request).Inv lib options := by
  obtain ⟨hstore, hverifies⟩ := @AuthState.beginRequest_beginsFrom _ s.auth _ lib s.clock
    request stat
  unfold AuthRun.arrive
  split
  · rename_i auth answer heq
    rw [heq] at hstore
    show GuessInv options auth.limiter s.history s.clock _
    rw [hstore.limiter]
    exact h
  · rename_i auth key answer heq
    rw [heq] at hstore
    show GuessInv options (auth.limiter.recordFailure options key s.clock)
      (failureEvents options auth.limiter key s.clock ++ s.history) s.clock _
    rw [hstore.limiter]
    exact GuessInv.failure hkeys hblock h key fun k => Nat.le_add_right _ _
  · rename_i auth v heq
    have hverified := hverifies v (by rw [heq])
    rw [heq] at hstore
    show GuessInv options auth.limiter (v.comparison lib s.clock ++ s.history) s.clock
      (awaitedGuesses lib (s.pending ++ [v]))
    rw [hstore.limiter]
    have hcompared : ∀ wrong, v.comparison lib s.clock = [.compared v.key wrong s.clock] →
        v.isWrong lib = wrong → GuessInv options s.auth.limiter
          (v.comparison lib s.clock ++ s.history) s.clock
          (awaitedGuesses lib (s.pending ++ [v])) := by
      rintro wrong hcomparison rfl
      rw [hcomparison]
      refine (GuessInv.compared h hverified.notBlocked fun hwrong =>
        hpaced auth v heq hwrong).awaiting fun k => ?_
      rw [awaitedGuesses_append]
      simp [and_comm]
    by_cases hmemo : v.memoized = true
    · have hnone : v.comparison lib s.clock = [] := by
        unfold Verification.comparison
        rw [if_pos hmemo]
      rw [hnone]
      exact GuessInv.awaiting h fun k => by rw [awaitedGuesses_append]; exact Nat.le_add_right _ _
    · cases hverdict : comparePassword lib v.token v.password with
      | none =>
        have hnone : v.comparison lib s.clock = [] := by
          unfold Verification.comparison
          rw [if_neg hmemo, hverdict]
        rw [hnone]
        exact GuessInv.awaiting h fun k => by rw [awaitedGuesses_append]; exact Nat.le_add_right _ _
      | some ok =>
        refine hcompared (!ok) ?_ ?_
        · unfold Verification.comparison; rw [if_neg hmemo, hverdict]
        · unfold Verification.isWrong AuthState.outcome
          rw [if_neg hmemo, hverdict]
          cases ok <;> rfl

theorem inv_complete {before after : List Verification} {v : Verification}
    (hpending : s.pending = before ++ v :: after) (h : s.Inv lib options) :
    ({ s with pending := before ++ after }.complete lib options v).Inv lib options := by
  have hinv : GuessInv options s.auth.limiter s.history s.clock
      (awaitedGuesses lib (before ++ v :: after)) := hpending ▸ h
  have hless := fun k => awaitedGuesses_remove lib before after v k
  unfold AuthRun.complete AuthState.finish
  rcases houtcome : AuthState.outcome lib v with _ | _ | _
  · refine hinv.awaiting fun k => Nat.le_of_eq ?_
    rw [hless k, if_neg (by simp [Verification.isWrong, houtcome])]
    rfl
  · refine hinv.failure hkeys hblock v.key fun k => Nat.le_of_eq ?_
    rw [hless k]
    simp [Verification.isWrong, houtcome, eq_comm]
  · have hsame : ∀ k, awaitedGuesses lib (before ++ v :: after) k ≤
        awaitedGuesses lib (before ++ after) k := by
      intro k
      rw [hless k, if_neg (by simp [Verification.isWrong, houtcome])]
      exact Nat.le_refl _
    have hlimiter : (s.auth.remember lib v).limiter = s.auth.limiter := by
      unfold AuthState.remember
      split <;> rfl
    show GuessInv options ((s.auth.remember lib v).limiter.recordSuccess v.key s.clock)
      (.succeeded v.key s.clock :: s.history) s.clock _
    rw [hlimiter]
    exact hinv.success v.key fun k _ => hsame k

theorem inv_step {event : AuthEvent Digest} (h : s.Inv lib options)
    (hstep : AuthStep lib options s event s') (hpaced : Paced lib options s event) :
    s'.Inv lib options := by
  cases hstep with
  | advanced later hlater => exact GuessInv.advance h hlater
  | arrived stat request => exact inv_arrive hkeys hblock h hpaced
  | completed before after v hpending => exact inv_complete hkeys hblock hpending h
  | pairingFailed key => exact GuessInv.failure hkeys hblock h key fun k => Nat.le_add_right _ _
  | pairingSucceeded key => exact GuessInv.success h key fun k _ => Nat.le_refl _
  | configured settings => exact h

theorem inv_reachable_paced (h : (pacedRuns lib options).Reachable s) : s.Inv lib options := by
  refine h.invariant (fun s hs => ?_) fun s s' hinv ⟨event, hstep, hpaced⟩ =>
    inv_step hkeys hblock hinv hstep hpaced
  obtain ⟨hlimiter, -, hpending, hhistory⟩ := hs
  show GuessInv options s.auth.limiter s.history s.clock (awaitedGuesses lib s.pending)
  rw [hlimiter, hpending, hhistory]
  exact guessInv_start options s.clock

end

theorem evictsBlockedLast_step (h : s.Inv lib options) {event : AuthEvent Digest}
    (hstep : AuthStep lib options s event s') : EvictsBlockedLast s s' := by
  intro key entry hget hblocked hgone
  have hkept : s'.auth.limiter = s.auth.limiter → ∀ other otherEntry,
      s.auth.limiter.get? other = some otherEntry → (s'.clock : Int) < otherEntry.blockedUntil := by
    intro hsame
    rw [hsame, hget] at hgone
    cases hgone
  have hfailed : ∀ failing clock, (clock : Int) < entry.blockedUntil →
      (s.auth.limiter.recordFailure options failing clock).get? key = none → ∀ other otherEntry,
        s.auth.limiter.get? other = some otherEntry → (clock : Int) < otherEntry.blockedUntil :=
    fun failing clock hblocked hgone =>
      recordFailure_evicts h.size hget hblocked hgone
  have hsucceeded : ∀ k, (s.auth.limiter.recordSuccess k s.clock).get? key = none →
      ¬ (s.clock : Int) < entry.blockedUntil := by
    intro k hgone hblocked
    unfold AuthFailureLimiter.recordSuccess at hgone
    split at hgone
    · rename_i found hfound
      split at hgone
      · by_cases hk : key = k
        · subst hk; obtain rfl := Option.mem_unique hget hfound; omega
        · rw [get?_delete_of_ne hk, hget] at hgone; cases hgone
      · rw [hget] at hgone; cases hgone
    · rw [hget] at hgone; cases hgone
  cases hstep with
  | advanced later hlater => exact hkept rfl
  | configured settings => exact hkept rfl
  | pairingFailed k => exact hfailed k s.clock hblocked hgone
  | pairingSucceeded k => exact absurd hblocked (hsucceeded k hgone)
  | arrived stat request =>
    obtain ⟨hstore, -⟩ := @AuthState.beginRequest_beginsFrom _ s.auth _ lib s.clock request stat
    unfold AuthRun.arrive at hblocked hgone hkept ⊢
    split at hblocked
    · rename_i auth answer heq; rw [heq] at hstore hgone hkept; exact hkept hstore.limiter
    · rename_i auth k answer heq
      rw [heq] at hstore hgone
      have hlimiter : auth.limiter = s.auth.limiter := hstore.limiter
      refine hfailed k s.clock hblocked ?_
      rw [← hlimiter]
      exact hgone
    · rename_i auth v heq; rw [heq] at hstore hgone hkept; exact hkept hstore.limiter
  | completed before after v hpending =>
    unfold AuthRun.complete AuthState.finish at hblocked hgone hkept ⊢
    rcases houtcome : AuthState.outcome lib v with _ | _ | _
    · rw [houtcome] at hkept; exact hkept rfl
    · rw [houtcome] at hgone; exact hfailed v.key s.clock hblocked hgone
    · rw [houtcome] at hgone
      have hlimiter : (s.auth.remember lib v).limiter = s.auth.limiter := by
        unfold AuthState.remember
        split <;> rfl
      refine absurd hblocked (hsucceeded v.key ?_)
      rw [← hlimiter]
      exact hgone

/-- **Guesses are bounded.** In every run whose wrong tokens are compared only while those in flight
    and the failures on record leave room, with a block no shorter than the window: no window
    between two successes holds more wrong tokens of a key than the limiter allows failures, no
    token of a blocked key is compared before its block is over, the limiter keeps no more keys
    than it may, and a blocked key is dropped only where every key is blocked. -/
theorem guesses_bounded (hkeys : 0 < options.maxKeys) (hblock : options.windowMs ≤ options.blockMs)
    (h : (pacedRuns lib options).Reachable s) :
    GuessesBounded options s.history ∧ BlocksRespected options s.history ∧
      s.auth.limiter.size ≤ options.maxKeys ∧
      ∀ event s', AuthStep lib options s event s' → EvictsBlockedLast s s' := by
  have hinv := inv_reachable_paced hkeys hblock h
  exact ⟨hinv.bounded, hinv.respected, hinv.size, fun _ _ hstep => evictsBlockedLast_step hinv hstep⟩

end Reached

/-! ## 7. Requests that come together -/

/-- The only password that `$2right` is the hash of is `right`. -/
def plainLib : AuthLib String where
  net := ⟨fun _ => false, fun _ => false⟩
  hashCredential := id
  compare token hash := some (decide (hash = "$2" ++ token))
  scrypt _ _ _ _ _ _ := none
  hmacSha256 _ bytes := bytes
  toBase64url _ := ""
  fromBase64url _ := []

def passwordOnly : AuthState String :=
  { store := .createClaimStore none, limiter := .empty, verifiedPasswords := .empty
    password := some "$2right", localToken := none, trustedProxies := .listed [] }

def guess : AuthRequest := .tunnelled (some "guess") "relay"

/-- So many guesses that arrived in one millisecond. -/
def flood (n : Nat) : AuthRun String :=
  { auth := passwordOnly, clock := 1000
    pending := replicate n ⟨guess, "relay", "guess", "$2right", false⟩
    history := replicate n (.compared "relay" true 1000) }

variable (options : AuthFailureLimiterOptions)

theorem arrive_flood (n : Nat) :
    (flood n).arrive plainLib options ⟨0, 0⟩ guess = flood (n + 1) := by
  have hbegin : passwordOnly.beginRequest plainLib ⟨0, 0⟩ 1000 guess =
      (passwordOnly, .verifying ⟨guess, "relay", "guess", "$2right", false⟩) := rfl
  unfold AuthRun.arrive flood
  dsimp only
  rw [replicate_succ']
  rfl

/-- Any number of tokens is compared before the first failure is recorded. -/
theorem flood_compares (n : Nat) : (authRuns plainLib options).Reachable (flood n) := by
  induction n with
  | zero => exact .of_init ⟨rfl, rfl, rfl, rfl⟩
  | succ n ih => rw [← arrive_flood options n]; exact ih.step ⟨_, .arrived ⟨0, 0⟩ guess⟩

theorem guesses_unbounded : ¬ ∀ s, (authRuns plainLib {}).Reachable s →
    GuessesBounded {} s.history := by
  intro h
  have hbounded := h _ (flood_compares {} 11) "relay" [] (flood 11).history [] 1000
    (append_nil _).symm (by decide)
  revert hbounded
  decide

def twoFailures : AuthFailureLimiterOptions := { maxFailures := 2 }

def guessing : Verification := ⟨guess, "relay", "guess", "$2right", false⟩

/-- A guess that is compared and fails before the next one comes. -/
def guessed (s : AuthRun String) : AuthRun String :=
  { s.arrive plainLib twoFailures ⟨0, 0⟩ guess with pending := [] }.complete plainLib twoFailures
    guessing

/-- Two guesses fill the budget, and the third one is not compared. -/
theorem guesses_bounded_guess : ∃ s, (pacedRuns plainLib twoFailures).Reachable s ∧
    s.history = [.blocked "relay" 1000, .compared "relay" true 1000,
      .compared "relay" true 1000] ∧
    s.arrive plainLib twoFailures ⟨0, 0⟩ guess = s ∧
    GuessesBounded twoFailures s.history ∧ BlocksRespected twoFailures s.history ∧
    s.auth.limiter.size ≤ 4096 ∧
      ∀ event s', AuthStep plainLib twoFailures s event s' → EvictsBlockedLast s s' := by
  have hstart : (pacedRuns plainLib twoFailures).Reachable (flood 0) :=
    .of_init ⟨rfl, rfl, rfl, rfl⟩
  have hfirst := hstart.step ⟨_, .arrived ⟨0, 0⟩ guess, fun auth v heq _ => by
    obtain rfl := Begun.verifying.inj (Prod.mk.inj heq).2
    decide⟩
  have hfailed : (pacedRuns plainLib twoFailures).Reachable (guessed (flood 0)) :=
    hfirst.step ⟨_, .completed [] [] guessing rfl, trivial⟩
  have hsecond := hfailed.step ⟨_, .arrived ⟨0, 0⟩ guess, fun auth v heq _ => by
    obtain rfl := Begun.verifying.inj (Prod.mk.inj heq).2
    decide⟩
  have hblocked : (pacedRuns plainLib twoFailures).Reachable (guessed (guessed (flood 0))) :=
    hsecond.step ⟨_, .completed [] [] guessing rfl, trivial⟩
  exact ⟨_, hblocked, by decide, rfl, guesses_bounded (by decide) (by decide) hblocked⟩

end Frogg.Server
