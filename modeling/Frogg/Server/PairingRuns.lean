/-
  Subject:   A pairing code and an approval let one device in, once and in time
             (pairing-code-store.ts, pairing-request-store.ts).
-/
import Frogg.Library.SingleUse
import Frogg.Server.PairingStores

namespace Frogg.Server.Pairing

open Library Option List JsMap

/-! ## 1. The code store -/

namespace PairingCodeStore

variable {store : PairingCodeStore} {code : String} {entry : CodeEntry}

theorem get?_evictOldest {maxLive : Nat} {live : JsMap String CodeEntry}
    (h : (evictOldest maxLive live).get? code = some entry) : live.get? code = some entry := by
  fun_induction evictOldest maxLive live with
  | case1 live hempty => exact h
  | case2 live oldest rest hentries hsize ih =>
    have hdeleted := ih h
    obtain ⟨-, hdeleted⟩ := get?_delete_eq_some.mp hdeleted
    exact hdeleted
  | case3 live oldest rest hentries hsize => exact h

theorem size_evictOldest (maxLive : Nat) (live : JsMap String CodeEntry) :
    (evictOldest maxLive live).size ≤ maxLive := by
  fun_induction evictOldest maxLive live with
  | case1 live hempty => unfold size; rw [hempty]; exact Nat.zero_le _
  | case2 live oldest rest hentries hsize ih => exact ih
  | case3 live oldest rest hentries hsize => omega

theorem get?_prune {current : Nat} (h : (store.prune current).live.get? code = some entry) :
    store.live.get? code = some entry := by
  have hleft := get?_evictOldest h
  rw [get?_foldl_delete] at hleft
  split at hleft
  · cases hleft
  · exact hleft

theorem size_prune (store : PairingCodeStore) (current : Nat) :
    (store.prune current).live.size ≤ store.maxLive := size_evictOldest _ _

/-- An issued code is one more, if it is still live. -/
theorem issue_cases {role : Option DeviceRole} {ttlSeconds : Option JsNumber}
    {generated : List String} {grant first second third : Nat} {store' : PairingCodeStore}
    {issued : PairingCode} {expiresAtMs : Nat}
    (h : store.issue role ttlSeconds generated grant first second third =
      some (store', issued, expiresAtMs)) :
    store'.maxLive = store.maxLive ∧ store'.live.size ≤ store.maxLive ∧
      ∀ code entry, store'.live.get? code = some entry → store.live.get? code = some entry ∨
        code = issued.code ∧ entry = ⟨issued.role, expiresAtMs, grant⟩ := by
  unfold issue at h
  dsimp only at h
  split at h
  · cases h
  · obtain ⟨rfl, hrest⟩ := Prod.mk.inj (some.inj h)
    obtain ⟨rfl, rfl⟩ := Prod.mk.inj hrest
    refine ⟨rfl, size_prune _ _, fun code entry hget => ?_⟩
    have hset := get?_prune hget
    rw [get?_set] at hset
    split at hset
    · exact .inr ⟨‹_›, (some.inj hset).symm⟩
    · exact .inl (get?_prune hset)

/-- What the search finds is the candidate. -/
theorem findConstantTime_eq_some {α : Type} {live : JsMap String α} {candidate found : String}
    (h : findConstantTime live candidate = some found) : found = candidate := by
  have hfold : ∀ (keys : List String) (start : Option String),
      keys.foldl (fun found code =>
        if textEncode code = textEncode candidate then some code else found) start = some found →
      start = some found ∨ found = candidate := by
    intro keys
    induction keys with
    | nil => exact fun start h => .inl h
    | cons key keys ih =>
      intro start h
      rcases ih _ h with hstart | hfound
      · dsimp only at hstart
        split at hstart
        · rename_i hkey; obtain rfl := some.inj hstart; exact .inr (textEncode_injective hkey)
        · exact .inl hstart
      · exact .inr hfound
  exact (hfold live.keys none h).resolve_left (by simp)

/-- A redeemed code was live, and is so no more. -/
theorem redeem_cases (upper : Char → List Char) (store : PairingCodeStore) (input : String)
    (first second : Nat) :
    (store.redeem upper input first second).1.maxLive = store.maxLive ∧
      (store.redeem upper input first second).1.live.size ≤ store.maxLive ∧
      (∀ code entry, (store.redeem upper input first second).1.live.get? code = some entry →
        store.live.get? code = some entry) ∧
      ∀ redeemed grant, (store.redeem upper input first second).2 = some (redeemed, grant) →
        ∃ entry, store.live.get? redeemed.code = some entry ∧ entry.grant = grant ∧
          entry.role = redeemed.role ∧ second < entry.expiresAtMs ∧
          (store.redeem upper input first second).1.live.get? redeemed.code = none := by
  have hsize := size_prune store first
  have hheld : ∀ code entry, (store.prune first).live.get? code = some entry →
      store.live.get? code = some entry := fun code entry => get?_prune
  unfold redeem
  dsimp only
  split
  · exact ⟨rfl, hsize, hheld, by simp⟩
  · split
    · exact ⟨rfl, hsize, hheld, by simp⟩
    · split
      · exact ⟨rfl, hsize, hheld, by simp⟩
      · rename_i _ code hfound _ entry hentry
        have hdeleted : ∀ code' entry',
            ((store.prune first).live.delete code).get? code' = some entry' →
            store.live.get? code' = some entry' := by
          intro code' entry' h
          obtain ⟨-, h⟩ := get?_delete_eq_some.mp h
          exact hheld _ _ h
        have hless := Nat.le_trans (size_delete_le (k := code)) hsize
        split
        · exact ⟨rfl, hless, hdeleted, by simp⟩
        · refine ⟨rfl, hless, hdeleted, fun redeemed grant h => ?_⟩
          obtain ⟨rfl, rfl⟩ := Prod.mk.inj (some.inj h)
          exact ⟨entry, hheld _ _ hentry, rfl, rfl, by omega, get?_delete_self⟩

end PairingCodeStore

/-! ## 2. The request store -/

namespace PairingRequestStore

variable {store : PairingRequestStore} {pollId : String} {entry : RequestEntry}

theorem get?_prune {current : Nat} (h : (store.prune current).entries.get? pollId = some entry) :
    store.entries.get? pollId = some entry ∧ current < entry.expiresAtMs := by
  have hleft : ((store.entries.entries.filter fun e => e.2.expiresAtMs ≤ current).foldl
      (fun entries e => entries.delete e.1) store.entries).get? pollId = some entry := h
  rw [get?_foldl_delete] at hleft
  split at hleft
  · cases hleft
  · rename_i hkept
    refine ⟨hleft, Nat.lt_of_not_le fun hexpired => hkept ?_⟩
    exact mem_map.mpr ⟨(pollId, entry), mem_filter.mpr
      ⟨get?_eq_some_iff.mp hleft, decide_eq_true hexpired⟩, rfl⟩

/-- How many requests are undecided. -/
def pendingCount (store : PairingRequestStore) : Nat :=
  store.entries.values.countP fun entry => entry.outcome.isNone

theorem length_pendingEntries (store : PairingRequestStore) :
    store.pendingEntries.length = store.pendingCount := by
  unfold pendingEntries pendingCount
  rw [countP_eq_length_filter]

/-- Where what is undecided was so before. -/
theorem pendingCount_le {store' : PairingRequestStore}
    (h : ∀ pollId entry, store'.entries.get? pollId = some entry → entry.outcome = none →
      store.entries.get? pollId = some entry) : store'.pendingCount ≤ store.pendingCount := by
  refine countP_values_le [] fun pollId entry hget hnone => .inr ⟨entry, ?_, hnone⟩
  exact h pollId entry hget (isNone_iff_eq_none.mp hnone)

variable (store : PairingRequestStore)

theorem pendingCount_set_le (pollId : String) (entry : RequestEntry) :
    ({ store with entries := store.entries.set pollId entry } : PairingRequestStore).pendingCount ≤
      store.pendingCount + 1 := by
  refine countP_values_le [pollId] fun pollId' entry' hget hnone => ?_
  rw [get?_set] at hget
  split at hget
  · exact .inl (mem_singleton.mpr ‹_›)
  · exact .inr ⟨entry', hget, hnone⟩

/-- A created request is one more. -/
theorem create_cases (deviceName : String)
    (remoteAddress : Option String) (drawn : Drawn) (request first second third : Nat) :
    (store.create deviceName remoteAddress drawn request first second third).1.maxPending =
        store.maxPending ∧
      (store.pendingCount ≤ store.maxPending →
        (store.create deviceName remoteAddress drawn request first second third).1.pendingCount ≤
          store.maxPending) ∧
      ∀ pollId entry,
        (store.create deviceName remoteAddress drawn request first second third).1.entries.get?
          pollId = some entry → store.entries.get? pollId = some entry ∨
        ∃ made,
          (store.create deviceName remoteAddress drawn request first second third).2 = some made ∧
          pollId = made.1.pollId ∧ entry = ⟨made.1, made.2, none, request⟩ := by
  have hheld : ∀ pollId entry, ((store.prune first).prune second).entries.get? pollId = some entry →
      store.entries.get? pollId = some entry :=
    fun pollId entry h => (get?_prune (get?_prune h).1).1
  have hpending : ((store.prune first).prune second).pendingCount ≤ store.pendingCount :=
    pendingCount_le fun pollId entry h _ => hheld pollId entry h
  unfold create
  dsimp only
  split
  · exact ⟨rfl, fun h => Nat.le_trans hpending h, fun pollId entry h => .inl (hheld _ _ h)⟩
  · rename_i hroom
    refine ⟨rfl, fun h => ?_, fun pollId entry h => ?_⟩
    · rw [length_pendingEntries] at hroom
      exact Nat.le_trans (pendingCount_set_le _ _ _) (Nat.lt_of_not_le hroom)
    · rw [get?_set] at h
      split at h
      · exact .inr ⟨_, rfl, ‹_›, (some.inj h).symm⟩
      · exact .inl (hheld _ _ h)

/-- A decision is written into an entry that had none. -/
theorem decide_cases (id : String) (approve : Bool)
    (role : Option DeviceRole) (name : Option String) (current : Nat)
    (hkeys : ∀ pollId entry, store.entries.get? pollId = some entry →
      entry.record.pollId = pollId) :
    (store.decide id approve role name current).1.maxPending = store.maxPending ∧
      (∀ entry outcome, (store.decide id approve role name current).2 = some (entry, outcome) →
        store.entries.get? entry.record.pollId = some entry ∧ entry.outcome = none ∧
        (store.decide id approve role name current).1.entries.get? entry.record.pollId =
          some { entry with outcome := some outcome }) ∧
      ∀ pollId entry,
        (store.decide id approve role name current).1.entries.get? pollId = some entry →
        store.entries.get? pollId = some entry ∧
          (∀ answer, (store.decide id approve role name current).2 = some answer →
            pollId ≠ answer.1.record.pollId) ∨
        ∃ made, (store.decide id approve role name current).2 = some made ∧
          pollId = made.1.record.pollId ∧ entry = { made.1 with outcome := some made.2 } := by
  have hheld : ∀ pollId entry, (store.prune current).entries.get? pollId = some entry →
      store.entries.get? pollId = some entry := fun pollId entry h => (get?_prune h).1
  unfold decide
  dsimp only
  split
  · exact ⟨rfl, by simp, fun pollId entry h => .inl ⟨hheld _ _ h, by simp⟩⟩
  · rename_i found hfound
    obtain ⟨hvalue, hnone⟩ := mem_filter.mp (mem_of_find?_eq_some hfound)
    obtain ⟨key, hkey⟩ := mem_values_iff.mp hvalue
    have hlive := hheld key found hkey
    obtain rfl : found.record.pollId = key := hkeys key found hlive
    refine ⟨rfl, fun entry outcome h => ?_, fun pollId entry h => ?_⟩
    · obtain ⟨rfl, rfl⟩ := Prod.mk.inj (some.inj h)
      exact ⟨hlive, isNone_iff_eq_none.mp hnone, get?_set_self⟩
    · rw [get?_set] at h
      split at h
      · exact .inr ⟨_, rfl, ‹_›, (some.inj h).symm⟩
      · rename_i hother
        refine .inl ⟨hheld _ _ h, fun answer hanswer => ?_⟩
        obtain rfl := some.inj hanswer
        exact hother

/-- A collected request was decided and in time, and is so no more. -/
theorem poll_cases (pollId : String) (current : Nat) :
    (store.poll pollId current).1.maxPending = store.maxPending ∧
      (∀ key entry, (store.poll pollId current).1.entries.get? key = some entry →
        store.entries.get? key = some entry) ∧
      ∀ outcome request, (store.poll pollId current).2 = some (.settled outcome, request) →
        ∃ entry, store.entries.get? pollId = some entry ∧ entry.request = request ∧
          entry.outcome = some outcome ∧ current < entry.expiresAtMs ∧
          (store.poll pollId current).1.entries.get? pollId = none := by
  have hheld : ∀ key entry, (store.prune current).entries.get? key = some entry →
      store.entries.get? key = some entry := fun key entry h => (get?_prune h).1
  unfold poll
  dsimp only
  split
  · exact ⟨rfl, hheld, by simp⟩
  · rename_i _ key hfound
    obtain rfl : key = pollId :=
      PairingCodeStore.findConstantTime_eq_some (filter_eq_some_iff.mp hfound).1
    split
    · exact ⟨rfl, hheld, by simp⟩
    · rename_i entry hentry
      split
      · exact ⟨rfl, hheld, by simp⟩
      · rename_i outcome houtcome
        refine ⟨rfl, fun key' entry' h => ?_, fun outcome' request h => ?_⟩
        · obtain ⟨-, h⟩ := get?_delete_eq_some.mp h
          exact hheld _ _ h
        · obtain ⟨hstate, rfl⟩ := Prod.mk.inj (some.inj h)
          obtain rfl := PairingRequestState.settled.inj hstate
          exact ⟨entry, hheld _ _ hentry, rfl, houtcome, (get?_prune hentry).2,
            get?_delete_self⟩

end PairingRequestStore

/-! ## 3. What a run leaves -/

namespace World

variable (log : List LogEntry)

/-- The codes that were issued: grant, code, role and expiry. -/
def issues : List (Nat × String × DeviceRole × Nat) :=
  log.filterMap fun
    | .issued grant code role expiresAtMs => some (grant, code, role, expiresAtMs)
    | _ => none

/-- The codes that were redeemed: grant, code, role and time. -/
def redemptions : List (Nat × String × DeviceRole × Nat) :=
  log.filterMap fun
    | .redeemed grant code role time => some (grant, code, role, time)
    | _ => none

def creations : List (Nat × PairingRequestRecord × Nat) :=
  log.filterMap fun
    | .created request record expiresAtMs => some (request, record, expiresAtMs)
    | _ => none

def decisions : List (Nat × Outcome) :=
  log.filterMap fun
    | .decided request outcome => some (request, outcome)
    | _ => none

/-- The outcomes that were collected: request, the `pollId` polled for, outcome and time. -/
def collections : List (Nat × String × Outcome × Nat) :=
  log.filterMap fun
    | .collected request pollId outcome time => some (request, pollId, outcome, time)
    | _ => none

/-- **Codes and approvals let one device in, once and in time.** -/
structure SingleUse (maxLive maxPending : Nat) (w : World) : Prop where
  fewLive : w.codes.live.size ≤ maxLive
  fewPending : w.requests.pendingEntries.length ≤ maxPending
  issuedOnce : ((issues w.log).map Prod.fst).Nodup
  redeemedOnce : ((redemptions w.log).map Prod.fst).Nodup
  redeemed : ∀ grant code role time, (grant, code, role, time) ∈ redemptions w.log →
    ∃ expiresAtMs, (grant, code, role, expiresAtMs) ∈ issues w.log ∧ time < expiresAtMs
  createdOnce : ((creations w.log).map Prod.fst).Nodup
  decidedOnce : ((decisions w.log).map Prod.fst).Nodup
  decided : ∀ request outcome, (request, outcome) ∈ decisions w.log →
    ∃ record expiresAtMs, (request, record, expiresAtMs) ∈ creations w.log
  collectedOnce : ((collections w.log).map Prod.fst).Nodup
  collected : ∀ request pollId outcome time,
    (request, pollId, outcome, time) ∈ collections w.log →
    (request, outcome) ∈ decisions w.log ∧ ∃ record expiresAtMs,
      (request, record, expiresAtMs) ∈ creations w.log ∧ record.pollId = pollId ∧
        time < expiresAtMs

/-! ## 4. The ledgers -/

/-- The codes: opened when issued, spent when redeemed. -/
def codeLedger (w : World) :
    Ledger String Nat (String × DeviceRole × Nat) (String × DeviceRole × Nat) where
  held code := (w.codes.live.get? code).map fun e => (e.grant, code, e.role, e.expiresAtMs)
  opened := issues w.log
  spent := redemptions w.log

def CodeHonours (issued redeemed : String × DeviceRole × Nat) : Prop :=
  redeemed.1 = issued.1 ∧ redeemed.2.1 = issued.2.1 ∧ redeemed.2.2 < issued.2.2

/-- The requests: opened when created, spent when collected. -/
def requestLedger (w : World) :
    Ledger String Nat (PairingRequestRecord × Nat) (String × Outcome × Nat) where
  held pollId := (w.requests.entries.get? pollId).map fun e => (e.request, e.record, e.expiresAtMs)
  opened := creations w.log
  spent := collections w.log

def RequestHonours (created : PairingRequestRecord × Nat) (collected : String × Outcome × Nat) :
    Prop :=
  created.1.pollId = collected.1 ∧ collected.2.2 < created.2

/-- The undecided requests: opened when created, spent when decided. -/
def pendingLedger (w : World) : Ledger String Nat (PairingRequestRecord × Nat) Outcome where
  held pollId := ((w.requests.entries.get? pollId).filter fun e => e.outcome.isNone).map fun e =>
    (e.request, e.record, e.expiresAtMs)
  opened := creations w.log
  spent := decisions w.log

/-- The decisions: opened when made, spent when collected. -/
def decisionLedger (w : World) : Ledger String Nat Outcome (String × Outcome × Nat) where
  held pollId := (w.requests.entries.get? pollId).bind fun e => e.outcome.map (e.request, ·)
  opened := decisions w.log
  spent := collections w.log

structure CodeInv (maxLive : Nat) (w : World) : Prop where
  limit : w.codes.maxLive = maxLive
  few : w.codes.live.size ≤ maxLive
  below : ∀ x ∈ issues w.log, x.1 < w.next
  sound : (codeLedger w).Sound CodeHonours

structure RequestInv (maxPending : Nat) (w : World) : Prop where
  limit : w.requests.maxPending = maxPending
  few : w.requests.pendingCount ≤ maxPending
  keys : ∀ pollId entry, w.requests.entries.get? pollId = some entry →
    entry.record.pollId = pollId
  below : ∀ x ∈ creations w.log, x.1 < w.next
  requests : (requestLedger w).Sound RequestHonours
  pending : (pendingLedger w).Sound fun _ _ => True
  made : (decisionLedger w).Sound fun decided collected => collected.2.1 = decided

variable {maxLive maxPending : Nat} {w w' : World}

theorem singleUse_of_inv (hc : CodeInv maxLive w) (hr : RequestInv maxPending w) :
    SingleUse maxLive maxPending w where
  fewLive := hc.few
  fewPending := by rw [PairingRequestStore.length_pendingEntries]; exact hr.few
  issuedOnce := hc.sound.openedOnce
  redeemedOnce := hc.sound.spentOnce
  redeemed := by
    intro grant code role time hmem
    obtain ⟨⟨_, _, expiresAtMs⟩, hopened, hcode, hrole, htime⟩ := hc.sound.honoured grant _ hmem
    subst hcode hrole
    exact ⟨expiresAtMs, hopened, htime⟩
  createdOnce := hr.pending.openedOnce
  decidedOnce := hr.pending.spentOnce
  decided := by
    intro request outcome hmem
    obtain ⟨⟨record, expiresAtMs⟩, hopened, -⟩ := hr.pending.honoured request outcome hmem
    exact ⟨record, expiresAtMs, hopened⟩
  collectedOnce := hr.requests.spentOnce
  collected := by
    intro request pollId outcome time hmem
    obtain ⟨decided, hdecided, heq⟩ := hr.made.honoured request _ hmem
    obtain ⟨⟨record, expiresAtMs⟩, hopened, hpollId, htime⟩ := hr.requests.honoured request _ hmem
    subst heq
    exact ⟨hdecided, record, expiresAtMs, hopened, hpollId, htime⟩

/-! ## 5. What a call does to the codes -/

section

variable (h : CodeInv maxLive w)
include h

/-- A call that issues and redeems nothing may let codes go. -/
theorem CodeInv.shrink (hlimit : w'.codes.maxLive = w.codes.maxLive)
    (hsize : w'.codes.live.size ≤ w.codes.live.size ∨ w'.codes.live.size ≤ w.codes.maxLive)
    (hheld : ∀ code entry, w'.codes.live.get? code = some entry →
      w.codes.live.get? code = some entry)
    (hissues : issues w'.log = issues w.log) (hredemptions : redemptions w'.log = redemptions w.log)
    (hnext : w.next ≤ w'.next) : CodeInv maxLive w' where
  limit := hlimit.trans h.limit
  few := by
    have hfew := h.few
    have hlimit := h.limit
    omega
  below := by rw [hissues]; exact fun x hx => Nat.lt_of_lt_of_le (h.below x hx) hnext
  sound := by
    refine h.sound.shrink hissues hredemptions fun code x hx => ?_
    obtain ⟨entry, hentry, rfl⟩ := map_eq_some_iff.mp hx
    exact map_eq_some_iff.mpr ⟨entry, hheld code entry hentry, rfl⟩

/-- A call on the other store. -/
theorem CodeInv.frame (hcodes : w'.codes = w.codes)
    (hissues : issues w'.log = issues w.log) (hredemptions : redemptions w'.log = redemptions w.log)
    (hnext : w.next ≤ w'.next) : CodeInv maxLive w' :=
  h.shrink (by rw [hcodes]) (by simp [hcodes]) (by simp [hcodes]) hissues hredemptions hnext

variable (upper : Char → List Char)

theorem CodeInv.issue
    (role : Option DeviceRole) (ttlSeconds : Option JsNumber) (generated : List String)
    (first second third : Nat) :
    CodeInv maxLive (w.act upper (.issue role ttlSeconds generated first second third)) := by
  unfold act
  dsimp only
  split
  · exact h
  · rename_i codes code expiresAtMs hissue
    obtain ⟨hlimit, hsize, hheld⟩ := PairingCodeStore.issue_cases hissue
    have hfresh : w.next ∉ (codeLedger w).opened.map Prod.fst := by
      intro hmem
      obtain ⟨x, hx, heq⟩ := mem_map.mp hmem
      have hlt := h.below x hx
      omega
    have hissues : issues (w.log ++ [LogEntry.issued w.next code.code code.role expiresAtMs]) =
        issues w.log ++ [(w.next, code.code, code.role, expiresAtMs)] := by simp [issues]
    refine ⟨hlimit.trans h.limit, h.limit ▸ hsize, ?_, ?_⟩
    · intro x hx
      rw [hissues, mem_append, mem_singleton] at hx
      rcases hx with hx | rfl
      · exact Nat.lt_succ_of_lt (h.below x hx)
      · exact Nat.lt_succ_self _
    · refine h.sound.open hfresh hissues (by simp [codeLedger, redemptions]) (k := code.code) ?_
      intro code' x hx
      obtain ⟨entry, hentry, rfl⟩ := map_eq_some_iff.mp hx
      rcases hheld code' entry hentry with hold | ⟨rfl, rfl⟩
      · exact .inl (map_eq_some_iff.mpr ⟨entry, hold, rfl⟩)
      · exact .inr ⟨rfl, rfl⟩

theorem CodeInv.redeem (input : String)
    (first second : Nat) : CodeInv maxLive (w.act upper (.redeem input first second)) := by
  have hcases := w.codes.redeem_cases upper input first second
  unfold act
  dsimp only
  generalize w.codes.redeem upper input first second = result at hcases ⊢
  obtain ⟨codes, answer⟩ := result
  obtain ⟨hlimit, hsize, hheld, hanswer⟩ := hcases
  cases answer with
  | none =>
    exact h.shrink hlimit (.inr hsize) hheld (by simp) (by simp) (Nat.le_refl _)
  | some found =>
    obtain ⟨redeemed, grant⟩ := found
    obtain ⟨entry, hentry, rfl, hrole, htime, hgone⟩ := hanswer redeemed grant rfl
    have hissues : issues (w.log ++
        [LogEntry.redeemed entry.grant redeemed.code redeemed.role second]) = issues w.log := by
      simp [issues]
    refine ⟨hlimit.trans h.limit, h.limit ▸ hsize, ?_, ?_⟩
    · intro x hx; exact h.below x (hissues ▸ hx)
    · refine h.sound.spend (k := redeemed.code) (t := entry.grant)
        (d := (redeemed.code, entry.role, entry.expiresAtMs))
        (s := (redeemed.code, redeemed.role, second)) ?_ ⟨rfl, hrole.symm, htime⟩ hissues ?_ ?_
      · exact map_eq_some_iff.mpr ⟨entry, hentry, rfl⟩
      · simp [codeLedger, redemptions]
      · intro code x hx
        obtain ⟨entry', hentry', rfl⟩ := map_eq_some_iff.mp hx
        refine ⟨map_eq_some_iff.mpr ⟨entry', hheld code entry' hentry', rfl⟩, ?_⟩
        intro heq
        rw [heq, hgone] at hentry'
        cases hentry'

end

/-! ## 6. What a call does to the requests -/

variable {pollId : String} {entry : RequestEntry}

section

variable (h : w.requests.entries.get? pollId = some entry)
include h

theorem held_request :
    (requestLedger w).held pollId = some (entry.request, entry.record, entry.expiresAtMs) :=
  map_eq_some_iff.mpr ⟨entry, h, rfl⟩

theorem held_pending (hnone : entry.outcome = none) :
    (pendingLedger w).held pollId = some (entry.request, entry.record, entry.expiresAtMs) := by
  refine map_eq_some_iff.mpr ⟨entry, filter_eq_some_iff.mpr ⟨h, ?_⟩, rfl⟩
  exact isNone_iff_eq_none.mpr hnone

theorem held_decision {outcome : Outcome} (hsome : entry.outcome = some outcome) :
    (decisionLedger w).held pollId = some (entry.request, outcome) :=
  bind_eq_some_iff.mpr ⟨entry, h, map_eq_some_iff.mpr ⟨outcome, hsome, rfl⟩⟩

end

theorem of_held_request {x : Nat × PairingRequestRecord × Nat}
    (h : (requestLedger w).held pollId = some x) :
    ∃ entry, w.requests.entries.get? pollId = some entry ∧
      x = (entry.request, entry.record, entry.expiresAtMs) := by
  obtain ⟨entry, hentry, rfl⟩ := map_eq_some_iff.mp h
  exact ⟨entry, hentry, rfl⟩

theorem of_held_pending {x : Nat × PairingRequestRecord × Nat}
    (h : (pendingLedger w).held pollId = some x) :
    ∃ entry, w.requests.entries.get? pollId = some entry ∧ entry.outcome = none ∧
      x = (entry.request, entry.record, entry.expiresAtMs) := by
  obtain ⟨entry, hfilter, rfl⟩ := map_eq_some_iff.mp h
  obtain ⟨hentry, hnone⟩ := filter_eq_some_iff.mp hfilter
  exact ⟨entry, hentry, isNone_iff_eq_none.mp hnone, rfl⟩

theorem of_held_decision {x : Nat × Outcome} (h : (decisionLedger w).held pollId = some x) :
    ∃ entry outcome, w.requests.entries.get? pollId = some entry ∧
      entry.outcome = some outcome ∧ x = (entry.request, outcome) := by
  obtain ⟨entry, hentry, hmap⟩ := bind_eq_some_iff.mp h
  obtain ⟨outcome, houtcome, rfl⟩ := map_eq_some_iff.mp hmap
  exact ⟨entry, outcome, hentry, houtcome, rfl⟩

/-- A call that creates, decides and collects nothing may let requests go. -/
theorem RequestInv.shrink (h : RequestInv maxPending w)
    (hlimit : w'.requests.maxPending = w.requests.maxPending)
    (hheld : ∀ pollId entry, w'.requests.entries.get? pollId = some entry →
      w.requests.entries.get? pollId = some entry) (hcreations : creations w'.log = creations w.log)
    (hdecisions : decisions w'.log = decisions w.log)
    (hcollections : collections w'.log = collections w.log) (hnext : w.next ≤ w'.next) :
    RequestInv maxPending w' where
  limit := hlimit.trans h.limit
  few := Nat.le_trans
    (PairingRequestStore.pendingCount_le fun pollId entry hget _ => hheld pollId entry hget) h.few
  keys pollId entry hget := h.keys pollId entry (hheld pollId entry hget)
  below := by rw [hcreations]; exact fun x hx => Nat.lt_of_lt_of_le (h.below x hx) hnext
  requests := by
    refine h.requests.shrink hcreations hcollections fun pollId x hx => ?_
    obtain ⟨entry, hentry, rfl⟩ := of_held_request hx
    exact held_request (hheld pollId entry hentry)
  pending := by
    refine h.pending.shrink hcreations hdecisions fun pollId x hx => ?_
    obtain ⟨entry, hentry, hnone, rfl⟩ := of_held_pending hx
    exact held_pending (hheld pollId entry hentry) hnone
  made := by
    refine h.made.shrink hdecisions hcollections fun pollId x hx => ?_
    obtain ⟨entry, outcome, hentry, houtcome, rfl⟩ := of_held_decision hx
    exact held_decision (hheld pollId entry hentry) houtcome

/-- A call on the other store. -/
theorem RequestInv.frame (h : RequestInv maxPending w) (hrequests : w'.requests = w.requests)
    (hcreations : creations w'.log = creations w.log)
    (hdecisions : decisions w'.log = decisions w.log)
    (hcollections : collections w'.log = collections w.log) (hnext : w.next ≤ w'.next) :
    RequestInv maxPending w' :=
  h.shrink (by rw [hrequests]) (by simp [hrequests]) hcreations hdecisions hcollections hnext

section

variable (h : RequestInv maxPending w) (upper : Char → List Char)
include h upper

theorem RequestInv.create (deviceName : String) (remoteAddress : Option String)
    (drawn : PairingRequestStore.Drawn) (first second third : Nat) :
    RequestInv maxPending
      (w.act upper (.create deviceName remoteAddress drawn first second third)) := by
  have hcases :=
    w.requests.create_cases deviceName remoteAddress drawn w.next first second third
  unfold act
  dsimp only
  generalize w.requests.create deviceName remoteAddress drawn w.next first second third = result
    at hcases ⊢
  obtain ⟨requests, answer⟩ := result
  obtain ⟨hlimit, hfew, hheld⟩ := hcases
  cases answer with
  | none =>
    refine h.shrink hlimit (fun pollId entry hget => ?_) (by simp) (by simp) (by simp)
      (Nat.le_succ _)
    simpa using hheld pollId entry hget
  | some made =>
    obtain ⟨record, expiresAtMs⟩ := made
    have hheld : ∀ pollId entry, requests.entries.get? pollId = some entry →
        w.requests.entries.get? pollId = some entry ∨
          pollId = record.pollId ∧ entry = ⟨record, expiresAtMs, none, w.next⟩ := by
      intro pollId entry hget
      rcases hheld pollId entry hget with hold | ⟨_, heq, hpollId, hentry⟩
      · exact .inl hold
      · obtain rfl := some.inj heq; exact .inr ⟨hpollId, hentry⟩
    have hfresh : w.next ∉ (creations w.log).map Prod.fst := by
      intro hmem
      obtain ⟨x, hx, heq⟩ := mem_map.mp hmem
      have hlt := h.below x hx
      omega
    have hcreations : creations (w.log ++ [LogEntry.created w.next record expiresAtMs]) =
        creations w.log ++ [(w.next, record, expiresAtMs)] := by simp [creations]
    have hdecisions : decisions (w.log ++ [LogEntry.created w.next record expiresAtMs]) =
        decisions w.log := by simp [decisions]
    have hcollections : collections (w.log ++ [LogEntry.created w.next record expiresAtMs]) =
        collections w.log := by simp [collections]
    refine ⟨hlimit.trans h.limit, ?_, ?_, ?_, ?_, ?_, ?_⟩
    · have hroom := hfew (h.limit ▸ h.few)
      rw [h.limit] at hroom
      exact hroom
    · intro pollId entry hget
      rcases hheld pollId entry hget with hold | ⟨rfl, rfl⟩
      · exact h.keys pollId entry hold
      · rfl
    · intro x hx
      rw [map_some, toList_some, hcreations, mem_append, mem_singleton] at hx
      rcases hx with hx | rfl
      · exact Nat.lt_succ_of_lt (h.below x hx)
      · exact Nat.lt_succ_self _
    · refine h.requests.open hfresh hcreations hcollections (k := record.pollId) ?_
      intro pollId x hx
      obtain ⟨entry, hentry, rfl⟩ := of_held_request hx
      rcases hheld pollId entry hentry with hold | ⟨rfl, rfl⟩
      · exact .inl (held_request hold)
      · exact .inr ⟨rfl, rfl⟩
    · refine h.pending.open hfresh hcreations hdecisions (k := record.pollId) ?_
      intro pollId x hx
      obtain ⟨entry, hentry, hnone, rfl⟩ := of_held_pending hx
      rcases hheld pollId entry hentry with hold | ⟨rfl, rfl⟩
      · exact .inl (held_pending hold hnone)
      · exact .inr ⟨rfl, rfl⟩
    · refine h.made.shrink hdecisions hcollections fun pollId x hx => ?_
      obtain ⟨entry, outcome, hentry, houtcome, rfl⟩ := of_held_decision hx
      rcases hheld pollId entry hentry with hold | ⟨rfl, rfl⟩
      · exact held_decision hold houtcome
      · cases houtcome

theorem RequestInv.decide (id : String) (approve : Bool) (role : Option DeviceRole)
    (name : Option String) (current : Nat) :
    RequestInv maxPending (w.act upper (.decide id approve role name current)) := by
  have hcases := w.requests.decide_cases id approve role name current h.keys
  unfold act
  dsimp only
  generalize w.requests.decide id approve role name current = result at hcases ⊢
  obtain ⟨requests, answer⟩ := result
  obtain ⟨hlimit, hmade, hheld⟩ := hcases
  cases answer with
  | none =>
    refine h.shrink hlimit (fun pollId entry hget => ?_) (by simp) (by simp) (by simp)
      (Nat.le_refl _)
    simpa using hheld pollId entry hget
  | some made =>
    obtain ⟨made, outcome⟩ := made
    obtain ⟨hlive, hundecided, hwritten⟩ := hmade made outcome rfl
    have hheld : ∀ pollId entry, requests.entries.get? pollId = some entry →
        w.requests.entries.get? pollId = some entry ∧ pollId ≠ made.record.pollId ∨
          pollId = made.record.pollId ∧ entry = { made with outcome := some outcome } := by
      intro pollId entry hget
      rcases hheld pollId entry hget with ⟨hold, hother⟩ | ⟨_, heq, hpollId, hentry⟩
      · exact .inl ⟨hold, hother _ rfl⟩
      · obtain rfl := some.inj heq; exact .inr ⟨hpollId, hentry⟩
    have hcreations : creations (w.log ++ [LogEntry.decided made.request outcome]) =
        creations w.log := by simp [creations]
    have hdecisions : decisions (w.log ++ [LogEntry.decided made.request outcome]) =
        decisions w.log ++ [(made.request, outcome)] := by simp [decisions]
    have hcollections : collections (w.log ++ [LogEntry.decided made.request outcome]) =
        collections w.log := by simp [collections]
    have hpending := held_pending hlive hundecided
    refine ⟨hlimit.trans h.limit, ?_, ?_, ?_, ?_, ?_, ?_⟩
    · refine Nat.le_trans (PairingRequestStore.pendingCount_le fun pollId entry hget hnone => ?_)
        h.few
      rcases hheld pollId entry hget with ⟨hold, -⟩ | ⟨rfl, rfl⟩
      · exact hold
      · cases hnone
    · intro pollId entry hget
      rcases hheld pollId entry hget with ⟨hold, -⟩ | ⟨rfl, rfl⟩
      · exact h.keys pollId entry hold
      · rfl
    · intro x hx; exact h.below x (hcreations ▸ hx)
    · refine h.requests.shrink hcreations hcollections fun pollId x hx => ?_
      obtain ⟨entry, hentry, rfl⟩ := of_held_request hx
      rcases hheld pollId entry hentry with ⟨hold, -⟩ | ⟨rfl, rfl⟩
      · exact held_request hold
      · have hkept := held_request hlive
        exact hkept
    · refine h.pending.spend hpending trivial hcreations hdecisions fun pollId x hx => ?_
      obtain ⟨entry, hentry, hnone, rfl⟩ := of_held_pending hx
      rcases hheld pollId entry hentry with ⟨hold, hother⟩ | ⟨rfl, rfl⟩
      · exact ⟨held_pending hold hnone, hother⟩
      · cases hnone
    · refine h.made.open (h.pending.unspent _ _ _ hpending) hdecisions hcollections
        (k := made.record.pollId) fun pollId x hx => ?_
      obtain ⟨entry, outcome', hentry, houtcome, rfl⟩ := of_held_decision hx
      rcases hheld pollId entry hentry with ⟨hold, -⟩ | ⟨rfl, rfl⟩
      · exact .inl (held_decision hold houtcome)
      · obtain rfl := some.inj houtcome; exact .inr ⟨rfl, rfl⟩

theorem RequestInv.poll (pollId : String) (current : Nat) :
    RequestInv maxPending (w.act upper (.poll pollId current)) := by
  have hcases := w.requests.poll_cases pollId current
  unfold act
  dsimp only
  generalize w.requests.poll pollId current = result at hcases ⊢
  obtain ⟨requests, answer⟩ := result
  obtain ⟨hlimit, hheld, hanswer⟩ := hcases
  dsimp only at hlimit hheld hanswer ⊢
  split
  · rename_i outcome request
    obtain ⟨entry, hlive, rfl, houtcome, htime, hgone⟩ := hanswer outcome request rfl
    have hcreations : creations (w.log ++ [LogEntry.collected entry.request pollId outcome current]) =
        creations w.log := by simp [creations]
    have hdecisions : decisions (w.log ++ [LogEntry.collected entry.request pollId outcome current]) =
        decisions w.log := by simp [decisions]
    have hcollections : collections (w.log ++ [LogEntry.collected entry.request pollId outcome current]) =
        collections w.log ++ [(entry.request, pollId, outcome, current)] := by simp [collections]
    have hother : ∀ pollId' entry', requests.entries.get? pollId' = some entry' →
        pollId' ≠ pollId := by
      intro pollId' entry' hget heq
      rw [heq, hgone] at hget
      cases hget
    refine ⟨hlimit.trans h.limit, ?_, ?_, ?_, ?_, ?_, ?_⟩
    · exact Nat.le_trans
        (PairingRequestStore.pendingCount_le fun key entry hget _ => hheld key entry hget) h.few
    · exact fun key entry hget => h.keys key entry (hheld key entry hget)
    · intro x hx; exact h.below x (hcreations ▸ hx)
    · refine h.requests.spend (held_request hlive) ⟨h.keys pollId entry hlive, htime⟩ hcreations
        hcollections fun key x hx => ?_
      obtain ⟨entry', hentry', rfl⟩ := of_held_request hx
      exact ⟨held_request (hheld key entry' hentry'), hother key entry' hentry'⟩
    · refine h.pending.shrink hcreations hdecisions fun key x hx => ?_
      obtain ⟨entry', hentry', hnone, rfl⟩ := of_held_pending hx
      exact held_pending (hheld key entry' hentry') hnone
    · refine h.made.spend (held_decision hlive houtcome) rfl hdecisions hcollections
        fun key x hx => ?_
      obtain ⟨entry', outcome', hentry', houtcome', rfl⟩ := of_held_decision hx
      exact ⟨held_decision (hheld key entry' hentry') houtcome', hother key entry' hentry'⟩
  · exact h.shrink hlimit hheld (by simp) (by simp) (by simp) (Nat.le_refl _)

end

/-! ## 7. Runs -/

variable (upper : Char → List Char)

theorem CodeInv.act (h : CodeInv maxLive w) (move : Move) : CodeInv maxLive (w.act upper move) := by
  cases move with
  | issue role ttlSeconds generated first second third =>
    exact h.issue upper role ttlSeconds generated first second third
  | redeem input first second => exact h.redeem upper input first second
  | liveCount current =>
    exact h.shrink rfl (.inr (PairingCodeStore.size_prune _ _))
      (fun _ _ => PairingCodeStore.get?_prune) rfl rfl (Nat.le_refl _)
  | create deviceName remoteAddress drawn first second third =>
    unfold World.act
    dsimp only
    generalize w.requests.create deviceName remoteAddress drawn w.next first second third = result
    obtain ⟨requests, _ | made⟩ := result
    · exact h.frame rfl (by simp) (by simp) (Nat.le_succ _)
    · exact h.frame rfl (by simp [issues]) (by simp [redemptions]) (Nat.le_succ _)
  | list current => exact h.frame rfl rfl rfl (Nat.le_refl _)
  | decide id approve role name current =>
    unfold World.act
    dsimp only
    generalize w.requests.decide id approve role name current = result
    obtain ⟨requests, _ | made⟩ := result
    · exact h.frame rfl (by simp) (by simp) (Nat.le_refl _)
    · exact h.frame rfl (by simp [issues]) (by simp [redemptions]) (Nat.le_refl _)
  | poll pollId current =>
    unfold World.act
    dsimp only
    split
    · exact h.frame rfl (by simp [issues]) (by simp [redemptions]) (Nat.le_refl _)
    · exact h.frame rfl (by simp) (by simp) (Nat.le_refl _)

theorem RequestInv.act (h : RequestInv maxPending w) (move : Move) :
    RequestInv maxPending (w.act upper move) := by
  cases move with
  | issue role ttlSeconds generated first second third =>
    unfold World.act
    dsimp only
    split
    · exact h
    · exact h.frame rfl (by simp [creations]) (by simp [decisions]) (by simp [collections])
        (Nat.le_succ _)
  | redeem input first second =>
    unfold World.act
    dsimp only
    generalize w.codes.redeem upper input first second = result
    obtain ⟨codes, _ | redeemed⟩ := result
    · exact h.frame rfl (by simp) (by simp) (by simp) (Nat.le_refl _)
    · exact h.frame rfl (by simp [creations]) (by simp [decisions]) (by simp [collections])
        (Nat.le_refl _)
  | liveCount current => exact h.frame rfl rfl rfl rfl (Nat.le_refl _)
  | create deviceName remoteAddress drawn first second third =>
    exact h.create upper deviceName remoteAddress drawn first second third
  | list current =>
    exact h.shrink rfl (fun _ _ hget => (PairingRequestStore.get?_prune hget).1) rfl rfl rfl
      (Nat.le_refl _)
  | decide id approve role name current => exact h.decide upper id approve role name current
  | poll pollId current => exact h.poll upper pollId current

theorem inv_step (hc : CodeInv maxLive w) (hr : RequestInv maxPending w) (move : Move) :
    CodeInv maxLive (w.step upper move) ∧ RequestInv maxPending (w.step upper move) := by
  unfold step
  split
  · have hcodes := hc.act upper move
    have hrequests := hr.act upper move
    exact ⟨{ hcodes with },
      { hrequests with }⟩
  · exact ⟨hc, hr⟩

theorem inv_run (hc : CodeInv maxLive w) (hr : RequestInv maxPending w) (moves : List Move) :
    CodeInv maxLive (w.run upper moves) ∧ RequestInv maxPending (w.run upper moves) := by
  induction moves generalizing w with
  | nil => exact ⟨hc, hr⟩
  | cons move moves ih => obtain ⟨hc, hr⟩ := inv_step upper hc hr move; exact ih hc hr

theorem codeInv_initial (ttlMs maxPending : Nat) :
    CodeInv maxLive (initial maxLive ttlMs maxPending) where
  limit := rfl
  few := Nat.zero_le _
  below := by simp [initial, issues]
  sound := Ledger.sound_empty

theorem requestInv_initial (maxLive ttlMs : Nat) :
    RequestInv maxPending (initial maxLive ttlMs maxPending) where
  limit := rfl
  few := Nat.zero_le _
  keys := by simp [initial]
  below := by simp [initial, creations]
  requests := Ledger.sound_empty
  pending := Ledger.sound_empty
  made := Ledger.sound_empty

/-- **In every run, codes and approvals let one device in, once and in time.** -/
theorem single_use_run (maxLive ttlMs maxPending : Nat) (moves : List Move) :
    SingleUse maxLive maxPending ((initial maxLive ttlMs maxPending).run upper moves) := by
  obtain ⟨hc, hr⟩ := inv_run upper (codeInv_initial ttlMs maxPending)
    (requestInv_initial maxLive ttlMs) moves
  exact singleUse_of_inv hc hr

end World

end Frogg.Server.Pairing
