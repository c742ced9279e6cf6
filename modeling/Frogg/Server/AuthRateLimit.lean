/-
  Subject:   The throttle of failed authentications (auth-rate-limit.ts).

  An entry is a key's failures inside the window and the time its block ends. `recordFailure_cases`
  says once what recording a failure does to every key; the later modules use nothing else of it.
-/
import Frogg.Library.JsMap

namespace Frogg.Server

open Library List JsMap

structure AuthFailureLimiterOptions where
  maxFailures : Nat := 10
  windowMs : Int := 5 * 60000
  blockMs : Int := 5 * 60000
  maxKeys : Nat := 4096
  deriving DecidableEq

structure LimiterEntry where
  failures : List Int
  blockedUntil : Int
  lastSeenAt : Int
  deriving DecidableEq

/-- A failure now; the one that fills the budget starts a block. -/
def LimiterEntry.fail (options : AuthFailureLimiterOptions) (entry : LimiterEntry) (current : Int) :
    LimiterEntry :=
  let failures :=
    entry.failures.filter (fun failedAt => failedAt > current - options.windowMs) ++ [current]
  if failures.length ≥ options.maxFailures then
    { entry with blockedUntil := current + options.blockMs, failures := [] }
  else { entry with failures }

abbrev AuthFailureLimiter := JsMap String LimiterEntry

namespace AuthFailureLimiter

/-! ## 1. Eviction -/

section Eviction

variable (options : AuthFailureLimiterOptions) (current : Int)

/-- Neither blocked nor with a failure inside the window. -/
def expired (entry : LimiterEntry) : Bool :=
  decide (entry.blockedUntil ≤ current) &&
    entry.failures.all fun failedAt => decide (failedAt ≤ current - options.windowMs)

variable (keep : String)

def dropIfExpired (left : AuthFailureLimiter) (e : String × LimiterEntry) : AuthFailureLimiter :=
  if left.size ≤ options.maxKeys then left
  else if e.1 ≠ keep ∧ expired options current e.2 then left.delete e.1
  else left

/-- The first loop of `evictIfFull`, over the entries as they were. -/
def dropExpired (entries : AuthFailureLimiter) : AuthFailureLimiter :=
  entries.entries.foldl (dropIfExpired options current keep) entries

variable (blockedToo : Bool)

/-- Whether the round may drop an entry. -/
def evictable (e : String × LimiterEntry) : Bool :=
  e.1 ≠ keep && (blockedToo || decide (e.2.blockedUntil ≤ current))

def considerStalest
    (best : Option (String × Int)) (e : String × LimiterEntry) : Option (String × Int) :=
  if evictable current keep blockedToo e then
    match best with
    | none => some (e.1, e.2.lastSeenAt)
    | some (key, stalestAt) =>
      if e.2.lastSeenAt < stalestAt then some (e.1, e.2.lastSeenAt) else some (key, stalestAt)
  else best

/-- The first of the entries seen longest ago that may be dropped. -/
def stalest (entries : AuthFailureLimiter) : Option (String × Int) :=
  entries.entries.foldl (considerStalest current keep blockedToo) none

/-- One round of the second loop; every turn drops an entry, so as many turns as entries do. -/
def dropStalest (current : Int) (keep : String) (blockedToo : Bool) :
    Nat → AuthFailureLimiter → AuthFailureLimiter
  | 0, entries => entries
  | turns + 1, entries =>
    if entries.size ≤ options.maxKeys then entries
    else match stalest current keep blockedToo entries with
      | none => entries
      | some (key, _) => dropStalest current keep blockedToo turns (entries.delete key)

def evictIfFull (entries : AuthFailureLimiter) (current : Int) (keep : String) :
    AuthFailureLimiter :=
  let live := dropExpired options current keep entries
  let unblocked := dropStalest options current keep false live.size live
  dropStalest options current keep true unblocked.size unblocked

end Eviction

/-! ## 2. The limiter -/

section Limiter

variable (options : AuthFailureLimiterOptions) (entries : AuthFailureLimiter) (key : String)

/-- The entries with one for the key among them, and that entry, seen now. -/
def entryFor (current : Int) : AuthFailureLimiter × LimiterEntry :=
  match entries.get? key with
  | some entry => (entries, { entry with lastSeenAt := current })
  | none =>
    let entry : LimiterEntry := ⟨[], 0, current⟩
    (evictIfFull options (entries.set key entry) current key, entry)

variable (now : Int)

def isBlocked : Bool :=
  decide (((entries.get? key).map LimiterEntry.blockedUntil).getD 0 > now)

def recordFailure : AuthFailureLimiter :=
  let (entries, entry) := entryFor options entries key now
  entries.set key (entry.fail options now)

def recordSuccess : AuthFailureLimiter :=
  match entries.get? key with
  | some entry => if entry.blockedUntil ≤ now then entries.delete key else entries
  | none => entries

end Limiter

/-! ## 3. What an eviction drops -/

variable {options : AuthFailureLimiterOptions} {current : Int} {keep key : String}
  {entries : AuthFailureLimiter} {entry : LimiterEntry} {blockedToo : Bool}

variable {P : AuthFailureLimiter → Prop}

theorem dropExpired_rec (hstart : P entries)
    (hdrop : ∀ left e, e ∈ entries.entries → e.1 ≠ keep → expired options current e.2 = true →
      options.maxKeys < left.size → P left → P (left.delete e.1)) :
    P (dropExpired options current keep entries) := by
  refine foldlRecOn entries.entries _ hstart fun left hleft e he => ?_
  unfold dropIfExpired
  split
  · exact hleft
  · split
    · rename_i hfull hgone; exact hdrop left e he hgone.1 hgone.2 (by omega) hleft
    · exact hleft

theorem considerStalest_cases (best : Option (String × Int)) (e : String × LimiterEntry) :
    considerStalest current keep blockedToo best e = best ∨
      evictable current keep blockedToo e = true ∧
        considerStalest current keep blockedToo best e = some (e.1, e.2.lastSeenAt) := by
  unfold considerStalest
  split
  · rename_i hmay
    split
    · exact .inr ⟨hmay, rfl⟩
    · split
      · exact .inr ⟨hmay, rfl⟩
      · exact .inl rfl
  · exact .inl rfl

theorem considerStalest_none {best : Option (String × Int)} {e : String × LimiterEntry}
    (h : considerStalest current keep blockedToo best e = none) :
    best = none ∧ evictable current keep blockedToo e = false := by
  unfold considerStalest at h
  split at h
  · split at h
    · cases h
    · split at h <;> cases h
  · exact ⟨h, Bool.eq_false_iff.mpr ‹_›⟩

theorem stalest_some {seen : Int} (h : stalest current keep blockedToo entries = some (key, seen)) :
    ∃ entry, entries.get? key = some entry ∧
      evictable current keep blockedToo (key, entry) = true := by
  have hrec : ∀ found, stalest current keep blockedToo entries = some found →
      ∃ entry, (found.1, entry) ∈ entries.entries ∧
        evictable current keep blockedToo (found.1, entry) = true := by
    refine @foldlRecOn _ _ (fun best : Option (String × Int) => ∀ found, best = some found →
      ∃ entry, (found.1, entry) ∈ entries.entries ∧
        evictable current keep blockedToo (found.1, entry) = true) entries.entries _ none
      (fun found h => by cases h) fun best hbest e he => ?_
    rcases considerStalest_cases best e with heq | ⟨hmay, heq⟩
    · rw [heq]; exact hbest
    · intro found hfound; obtain rfl := Option.mem_unique heq hfound; exact ⟨e.2, he, hmay⟩
  obtain ⟨entry, hin, hmay⟩ := hrec _ h
  exact ⟨entry, get?_eq_some_iff.mpr hin, hmay⟩

theorem stalest_none (h : stalest current keep blockedToo entries = none)
    (hget : entries.get? key = some entry) :
    evictable current keep blockedToo (key, entry) = false := by
  have hfold : ∀ (es : List (String × LimiterEntry)) (best : Option (String × Int)),
      es.foldl (considerStalest current keep blockedToo) best = none →
        best = none ∧ ∀ e ∈ es, evictable current keep blockedToo e = false := by
    intro es
    induction es with
    | nil => exact fun best h => ⟨h, fun e he => absurd he not_mem_nil⟩
    | cons e es ih =>
      intro best h
      obtain ⟨hnone, hrest⟩ := ih _ h
      obtain ⟨hbest, he⟩ := considerStalest_none hnone
      exact ⟨hbest, forall_mem_cons.mpr ⟨he, hrest⟩⟩
  exact (hfold _ _ h).2 _ (get?_eq_some_iff.mp hget)

theorem dropStalest_rec (hdrop : ∀ left key entry, left.get? key = some entry →
      evictable current keep blockedToo (key, entry) = true → options.maxKeys < left.size →
      P left → P (left.delete key)) (turns : Nat) (hstart : P entries) :
    P (dropStalest options current keep blockedToo turns entries) := by
  induction turns generalizing entries with
  | zero => exact hstart
  | succ turns ih =>
    unfold dropStalest
    split
    · exact hstart
    · split
      · exact hstart
      · rename_i hfull _ key _ hstalest
        obtain ⟨entry, hget, hmay⟩ := stalest_some hstalest
        exact ih (hdrop entries key entry hget hmay (by omega) hstart)

/-- With a turn for each entry the round ends because the map is small enough or nothing is left
    to drop. -/
theorem dropStalest_done (turns : Nat) (hturns : entries.size ≤ turns) :
    (dropStalest options current keep blockedToo turns entries).size ≤ options.maxKeys ∨
      ∀ key entry, (dropStalest options current keep blockedToo turns entries).get? key =
        some entry → evictable current keep blockedToo (key, entry) = false := by
  induction turns generalizing entries with
  | zero =>
    right
    intro key entry hget
    have hmem := get?_eq_some_iff.mp hget
    have hnil : entries.entries = [] := length_eq_zero_iff.mp (Nat.le_zero.mp hturns)
    rw [show dropStalest options current keep blockedToo 0 entries = entries from rfl, hnil] at hmem
    exact absurd hmem not_mem_nil
  | succ turns ih =>
    unfold dropStalest
    split
    · exact .inl ‹_›
    · split
      · rename_i hstalest; exact .inr fun key entry hget => stalest_none hstalest hget
      · rename_i key _ hstalest
        obtain ⟨entry, hget, -⟩ := stalest_some hstalest
        have hlt := size_delete_lt hget
        exact ih (by omega)

/-- A map with some of the entries, the one for the key among them. -/
structure Thins (keep : String) (entries left : AuthFailureLimiter) : Prop where
  sublist : left.entries.Sublist entries.entries
  kept : left.get? keep = entries.get? keep

theorem Thins.refl (keep : String) (entries : AuthFailureLimiter) : Thins keep entries entries :=
  ⟨.refl _, rfl⟩

theorem Thins.trans {left less : AuthFailureLimiter} (h : Thins keep entries left)
    (hless : Thins keep left less) : Thins keep entries less :=
  ⟨hless.sublist.trans h.sublist, hless.kept.trans h.kept⟩

theorem Thins.delete {left : AuthFailureLimiter} (h : Thins keep entries left)
    (hkey : key ≠ keep) : Thins keep entries (left.delete key) :=
  ⟨filter_sublist.trans h.sublist, (get?_delete_of_ne hkey.symm).trans h.kept⟩

/-- Nothing was dropped, or the map is smaller. -/
theorem Thins.eq_or_lt {left : AuthFailureLimiter} (h : Thins keep entries left) :
    left = entries ∨ left.size < entries.size := by
  rcases Nat.lt_or_ge left.size entries.size with hlt | hge
  · exact .inr hlt
  · left
    have heq := h.sublist.eq_of_length_le hge
    cases entries
    subst heq
    rfl

theorem evictable_ne (h : evictable current keep blockedToo (key, entry) = true) : key ≠ keep := by
  simpa using (Bool.and_eq_true_iff.mp h).1

theorem thins_dropExpired : Thins keep entries (dropExpired options current keep entries) :=
  dropExpired_rec (.refl _ _) fun _ _ _ hne _ _ h => h.delete hne

theorem thins_dropStalest (turns : Nat) :
    Thins keep entries (dropStalest options current keep blockedToo turns entries) :=
  dropStalest_rec (fun _ _ _ _ hmay _ h => h.delete (evictable_ne hmay)) turns (.refl _ _)

theorem thins_evictIfFull : Thins keep entries (evictIfFull options entries current keep) :=
  (thins_dropExpired.trans (thins_dropStalest _)).trans (thins_dropStalest _)

/-- A map of the key's entry alone. -/
theorem size_le_one (h : ∀ key entry, entries.get? key = some entry → key = keep) :
    entries.size ≤ 1 := by
  have hkeys : entries.keys ⊆ [keep] := fun key hkey => by
    obtain ⟨entry, hget⟩ := mem_keys_iff.mp hkey
    exact mem_singleton.mpr (h key entry hget)
  have hle := (subperm_of_subset entries.nodup hkeys).length_le
  simpa [JsMap.keys, size] using hle

theorem size_evictIfFull (hmax : 1 ≤ options.maxKeys) :
    (evictIfFull options entries current keep).size ≤ options.maxKeys := by
  unfold evictIfFull
  dsimp only
  rcases dropStalest_done _ (Nat.le_refl _) with hle | hdone
  · exact hle
  · have hone := @size_le_one keep _ fun key entry hget => by
      simpa [evictable] using hdone key entry hget
    omega

/-- What an eviction with room for all but one key drops: nothing, or keys that were not blocked,
    or one of keys that are all blocked. -/
theorem evictIfFull_blocked (hsize : entries.size ≤ options.maxKeys + 1)
    (hget : entries.get? key = some entry) (hblocked : current < entry.blockedUntil)
    (hgone : (evictIfFull options entries current keep).get? key = none) :
    ∀ other otherEntry, entries.get? other = some otherEntry → other ≠ keep →
      current < otherEntry.blockedUntil := by
  have hlive : (dropExpired options current keep entries).get? key = some entry := by
    refine @dropExpired_rec options current keep entries (fun left => left.get? key = some entry)
      hget fun left e he _ hexpired _ hleft => ?_
    rw [get?_delete_of_ne, hleft]
    intro heq
    have he' : entries.get? e.1 = some e.2 := get?_eq_some_iff.mpr he
    rw [← heq, hget] at he'
    obtain rfl := Option.some.inj he'
    have hle := of_decide_eq_true (Bool.and_eq_true_iff.mp hexpired).1
    omega
  generalize hl : dropExpired options current keep entries = live at hlive
  have hthinned : Thins keep entries live := hl ▸ thins_dropExpired
  generalize hu : dropStalest options current keep false live.size live = unblocked
  have hrest : Thins keep live unblocked := hu ▸ thins_dropStalest _
  have hunblocked : unblocked.get? key = some entry := by
    rw [← hu]
    refine @dropStalest_rec options current keep live false (fun left => left.get? key = some entry)
      (fun left other otherEntry hother hmay _ hleft => ?_) _ hlive
    rw [get?_delete_of_ne, hleft]
    rintro rfl
    obtain rfl := Option.mem_unique hleft hother
    simp [evictable] at hmay
    omega
  have hevict : evictIfFull options entries current keep =
      dropStalest options current keep true unblocked.size unblocked := by
    unfold evictIfFull
    dsimp only
    rw [hl, hu]
  -- The last round drops something only if the map is still too large after the others.
  have hfull : options.maxKeys < unblocked.size := by
    by_contra hsmall
    have hsame : dropStalest options current keep true unblocked.size unblocked = unblocked := by
      cases hturns : unblocked.size with
      | zero => rfl
      | succ turns => unfold dropStalest; rw [if_pos (by omega)]
    rw [hevict, hsame, hunblocked] at hgone
    cases hgone
  have hsame : unblocked = entries := by
    rcases (hthinned.trans hrest).eq_or_lt with heq | hlt
    · exact heq
    · omega
  have hdone : ∀ other otherEntry, unblocked.get? other = some otherEntry →
      evictable current keep false (other, otherEntry) = false := by
    rcases @dropStalest_done options current keep live false _ (Nat.le_refl _) with hle | hdone
    · rw [hu] at hle; omega
    · rwa [hu] at hdone
  intro other otherEntry hother hne
  have hnot := hdone other otherEntry (hsame ▸ hother)
  simp [evictable, hne] at hnot
  omega

/-! ## 4. What recording does -/

/-- The entry that a failure of the key is recorded in. -/
def entryNow (entries : AuthFailureLimiter) (key : String) (current : Int) : LimiterEntry :=
  { (entries.get? key).getD ⟨[], 0, current⟩ with lastSeenAt := current }

theorem recordFailure_self :
    (recordFailure options entries key current).get? key =
      some ((entryNow entries key current).fail options current) := by
  unfold recordFailure entryFor entryNow
  cases hget : entries.get? key with
  | none => exact get?_set_self
  | some entry => exact get?_set_self

/-- Another key keeps its entry or is evicted. -/
theorem recordFailure_other {other : String} (hne : other ≠ key) :
    (recordFailure options entries key current).get? other = entries.get? other ∨
      entries.get? key = none ∧ (recordFailure options entries key current).get? other = none := by
  unfold recordFailure entryFor
  cases hget : entries.get? key with
  | some entry => exact .inl (get?_set_of_ne hne)
  | none =>
    rw [get?_set_of_ne hne]
    have hthins := @thins_evictIfFull options current key (entries.set key ⟨[], 0, current⟩)
    cases hleft :
      (evictIfFull options (entries.set key ⟨[], 0, current⟩) current key).get? other with
    | none => exact .inr ⟨rfl, rfl⟩
    | some entry =>
      left
      rw [← get?_of_sublist hthins.sublist hleft, get?_set_of_ne hne]

theorem size_recordFailure (hmax : 1 ≤ options.maxKeys) (hsize : entries.size ≤ options.maxKeys) :
    (recordFailure options entries key current).size ≤ options.maxKeys := by
  unfold recordFailure entryFor
  cases hget : entries.get? key with
  | some entry => rwa [size_set_of_mem (mem_keys_iff.mpr ⟨entry, hget⟩)]
  | none =>
    rw [size_set_of_mem]
    · exact size_evictIfFull hmax
    · exact mem_keys_iff.mpr ⟨_, thins_evictIfFull.kept.trans get?_set_self⟩

/-- **A blocked key is evicted only when every key is blocked.** -/
theorem recordFailure_evicts (hsize : entries.size ≤ options.maxKeys) {other : String}
    (hget : entries.get? other = some entry) (hblocked : current < entry.blockedUntil)
    (hgone : (recordFailure options entries key current).get? other = none) :
    ∀ k e, entries.get? k = some e → current < e.blockedUntil := by
  have hne : other ≠ key := by rintro rfl; rw [recordFailure_self] at hgone; cases hgone
  rcases @recordFailure_other options current key entries other hne with hsame | ⟨hnew, -⟩
  · rw [hgone, hget] at hsame; cases hsame
  · intro k e hk
    have hnotmem : key ∉ entries.keys := get?_eq_none_iff.mp hnew
    have hsizes := @size_set_of_not_mem _ _ _ entries key ⟨[], 0, current⟩ hnotmem
    have hkne : ∀ k e, entries.get? k = some e → k ≠ key := by
      rintro k e hk rfl
      rw [hnew] at hk
      cases hk
    unfold recordFailure entryFor at hgone
    rw [hnew] at hgone
    rw [get?_set_of_ne hne] at hgone
    refine evictIfFull_blocked (by omega) ((get?_set_of_ne hne).trans hget) hblocked
      hgone k e ?_ (hkne k e hk)
    rw [get?_set_of_ne (hkne k e hk), hk]

theorem recordSuccess_self :
    (recordSuccess entries key current).get? key = none ∨
      (recordSuccess entries key current) = entries ∧
        ∃ entry, entries.get? key = some entry ∧ current < entry.blockedUntil := by
  unfold recordSuccess
  cases hget : entries.get? key with
  | none => exact .inl hget
  | some entry =>
    dsimp only
    split
    · exact .inl get?_delete_self
    · exact .inr ⟨rfl, entry, rfl, by omega⟩

theorem recordSuccess_other {other : String} (hne : other ≠ key) :
    (recordSuccess entries key current).get? other = entries.get? other := by
  unfold recordSuccess
  split
  · split
    · exact get?_delete_of_ne hne
    · rfl
  · rfl

theorem size_recordSuccess : (recordSuccess entries key current).size ≤ entries.size := by
  unfold recordSuccess
  split
  · split
    · rename_i entry hget _; exact Nat.le_of_lt (size_delete_lt hget)
    · exact Nat.le_refl _
  · exact Nat.le_refl _

end AuthFailureLimiter

end Frogg.Server
