/-
  Subject:   What `authorizeBearerSync` comes to for a daemon that has read its files.

  **`bearer_role`**: a caller is admitted as the device whose credential it shows, and as the owner
  where it shows the local token from loopback or the password; nobody else is admitted. What the
  daemon remembers of earlier requests makes no difference.
-/
import Frogg.Server.HomeFiles

namespace Frogg.Server

open Library Option

variable {Digest : Type}

/-! ## 1. What last-seen times leave alone -/

theorem credentials_mapCredentials {α : Type} (file : PrincipalsFile Digest)
    (update : CredentialRecord Digest → CredentialRecord Digest) (f : CredentialRecord Digest → α) :
    ((file.mapCredentials update).credentials.map fun e => f e.2) =
      file.credentials.map fun e => f (update e.2) := by
  unfold PrincipalsFile.mapCredentials PrincipalsFile.credentials
  rw [List.flatMap_map, List.map_flatMap, List.map_flatMap]
  simp only [List.map_map]
  rfl

namespace ClaimStore

/-- The parts of a credential that the decisions read. -/
theorem credentials_withLastSeen {α : Type} (pending : JsMap String String)
    (file : PrincipalsFile Digest) {f : CredentialRecord Digest → α}
    (hf : ∀ (credential : CredentialRecord Digest) (seen : Option String),
      f { credential with lastSeenAt := seen } = f credential) :
    ((withLastSeen pending file).credentials.map fun e => f e.2) =
      file.credentials.map fun e => f e.2 := by
  have hseen : ∀ credential, f (seenLately pending credential) = f credential := by
    intro credential
    unfold seenLately
    split
    · rfl
    · split
      · exact hf ..
      · split
        · rfl
        · exact hf ..
  unfold withLastSeen
  split
  · rfl
  · rw [credentials_mapCredentials]; exact List.map_congr_left fun e _ => hseen e.2

theorem claimedAt_withLastSeen (pending : JsMap String String) (file : PrincipalsFile Digest) :
    (withLastSeen pending file).claimedAt = file.claimedAt := by
  unfold withLastSeen
  split <;> rfl

/-! ## 2. The store of a file -/

variable {s : ClaimStore Digest} {file : PrincipalsFile Digest} {upgraded : Bool}

theorem view_of_contents (h : s.contents = some (file, upgraded)) :
    s.view = some (withLastSeen s.pendingLastSeen file) := by
  unfold view
  rw [h]
  rfl

/-- Claimed by a device that is not a local one, or by the latch. -/
def claims (file : PrincipalsFile Digest) : Bool :=
  decide ((file.claimedAt.filter (· ≠ "")).isSome) ||
    file.credentials.any fun e => decide (e.2.pairedVia ≠ some .host)

theorem isClaimed_eq (hcoherent : s.Coherent) (h : s.contents = some (file, upgraded)) :
    s.isClaimed.2 = some (claims file) := by
  have hread := (reading_spec hcoherent fun current : PrincipalsFile Digest =>
    decide ((current.claimedAt.filter (· ≠ "")).isSome) ||
      current.principals.any fun principal =>
        principal.credentials.any fun credential => decide (credential.pairedVia ≠ some .host)).2
  unfold isClaimed
  rw [hread, view_of_contents h]
  refine congrArg some ?_
  have hany : ∀ current : PrincipalsFile Digest, (current.principals.any fun principal =>
      principal.credentials.any fun credential => decide (credential.pairedVia ≠ some .host)) =
      (current.credentials.map fun e => e.2.pairedVia).any
        fun via => decide (via ≠ some .host) := by
    intro current
    unfold PrincipalsFile.credentials
    rw [List.any_map, List.any_flatMap]
    refine congrArg (current.principals.any ·) (funext fun principal => ?_)
    rw [List.any_map]
    rfl
  dsimp only
  rw [hany, credentials_withLastSeen _ _ fun _ _ => rfl, claimedAt_withLastSeen, List.any_map]
  rfl

/-- The last-seen time is recorded where the file can be read. -/
theorem touchLastSeen_some (hcoherent : s.Coherent) (h : s.contents = some (file, upgraded))
    (stat : FileStat) (credentialId : String) (now : Nat) :
    (s.touchLastSeen stat credentialId now).2 = some () := by
  unfold touchLastSeen
  dsimp only
  split
  · rfl
  · generalize htouched : ({ s with
      pendingLastSeen := s.pendingLastSeen.set credentialId (IsoDate.toISOString now)
      lastPersistedAt := s.lastPersistedAt.set credentialId now } : ClaimStore Digest) = touched
    have hcoherent' : touched.Coherent := htouched ▸ hcoherent
    have hview : touched.view = some (withLastSeen touched.pendingLastSeen file) :=
      @view_of_contents _ touched file upgraded (htouched ▸ h)
    rcases @mutateCredential_spec _ touched stat credentialId hcoherent' (fun credential =>
        { credential with lastSeenAt := some (IsoDate.toISOString now) }) with
      ⟨-, ⟨-, hnone⟩ | ⟨hresult, -⟩⟩ | ⟨current, before, -, -, -, -, device, hresult⟩
    · rw [hview] at hnone; cases hnone
    · rw [hresult]; rfl
    · rw [hresult]; rfl

end ClaimStore

/-! ## 3. The decision -/

/-- The role a caller is admitted with. -/
def BearerDecision.role? : BearerDecision → Option DeviceRole
  | .ok principal => some (roleForPrincipal principal)
  | .rejected _ => none

/-- The role of the last device of a digest. -/
def deviceRole [DecidableEq Digest] (file : PrincipalsFile Digest) (digest : Digest) :
    Option DeviceRole :=
  ((file.credentials.map fun e => (e.2.sha256, e.2.role.getD .owner)).filter
    (·.1 = digest)).getLast?.map Prod.snd

namespace AuthState

variable [DecidableEq Digest] {s : AuthState Digest} {lib : AuthLib Digest}
  {verify : String → String → Bool} {file : PrincipalsFile Digest} {upgraded : Bool}

theorem resolveDevice_role (hcoherent : s.store.Coherent)
    (hcontents : s.store.contents = some (file, upgraded)) (stat : FileStat) (now : Nat)
    (token : String) :
    ∃ device, (s.resolveDevice lib stat now token).2 = some device ∧
      device.map DeviceRecord.role = deviceRole file (lib.hashCredential token) ∧
      (device = none →
        ClaimStore.Recached s.store (s.resolveDevice lib stat now token).1.store) := by
  obtain ⟨hcached, hfound⟩ := ClaimStore.reading_spec hcoherent
    fun current : PrincipalsFile Digest =>
      ((current.credentials.filter fun e => e.2.sha256 = lib.hashCredential token).getLast?).map
        fun e => toDevice e.1 e.2
  rw [ClaimStore.view_of_contents hcontents, map_some] at hfound
  have hrole : (((ClaimStore.withLastSeen s.store.pendingLastSeen file).credentials.filter
      fun e => e.2.sha256 = lib.hashCredential token).getLast?.map fun e => toDevice e.1 e.2).map
        DeviceRecord.role = deviceRole file (lib.hashCredential token) := by
    have hparts := @ClaimStore.credentials_withLastSeen _ _ s.store.pendingLastSeen file
      (fun credential => (credential.sha256, credential.role.getD .owner)) fun _ _ => rfl
    unfold deviceRole
    rw [← hparts, List.filter_map, List.getLast?_map, map_map, map_map]
    rfl
  unfold resolveDevice ClaimStore.findDeviceByToken
  revert hcached hfound
  generalize s.store.reading _ = result
  obtain ⟨store, found⟩ := result
  intro hcached hfound
  obtain rfl := hfound
  generalize ((ClaimStore.withLastSeen s.store.pendingLastSeen file).credentials.filter
    fun e => e.2.sha256 = lib.hashCredential token).getLast?.map (fun e => toDevice e.1 e.2) =
      device at hrole ⊢
  refine ⟨device, ?_, hrole, fun hnone => ?_⟩
  · cases device with
    | none => rfl
    | some device =>
      have htouch := ClaimStore.touchLastSeen_some hcached.coherent
        (hcached.contents.trans hcontents) stat device.id now
      dsimp only
      split
      · rename_i store' heq; rw [heq] at htouch; cases htouch
      · rfl
  · obtain rfl := hnone; exact hcached

/-- What is left when the token is none that is known: a refusal, or the password. -/
theorem checkPassword_role (hcoherent : s.store.Coherent)
    (hcontents : s.store.contents = some (file, upgraded)) {now : Nat}
    (hblocked : ∀ key, s.isBlocked key now = false) (request : AuthRequest) (key : String)
    (token : Option String) :
    (∃ s' reason, s.checkPassword lib request key now token =
        (s', .answered (.bearer (.rejected reason))) ∧
        (token = none ∨ s.configuredPassword = none)) ∨
      (∃ s', s.checkPassword lib request key now token =
        (s', .refused key (.bearer (.rejected .invalidToken))) ∧ s.configuredPassword = none) ∨
      ∃ s' text password, token = some text ∧ s.configuredPassword = some password ∧
        s'.verifiedPasswords = s.verifiedPasswords ∧
        s.checkPassword lib request key now token =
          (s', .verifying (s'.verification lib request key text password)) := by
  have honly := @hasSecrets_onlyStore _ s
  have hsecrets : s.hasSecrets.2 =
      some (s.configuredPassword.isSome || ClaimStore.claims file) := by
    unfold hasSecrets
    split
    · simp [*]
    · have hpassword : s.configuredPassword.isSome = false := Bool.eq_false_iff.mpr ‹_›
      rw [ClaimStore.isClaimed_eq hcoherent hcontents, hpassword, Bool.false_or]
  unfold checkPassword
  rw [if_neg (by simp [hblocked key])]
  generalize s.hasSecrets = result at honly hsecrets
  obtain ⟨s', known⟩ := result
  obtain rfl := hsecrets
  have hsame : s'.verifiedPasswords = s.verifiedPasswords ∧
      s'.configuredPassword = s.configuredPassword := by
    have heq : s' = { s with store := s'.store } := honly
    rw [heq]
    exact ⟨rfl, rfl⟩
  cases hpassword : s.configuredPassword with
  | none =>
    cases hclaims : ClaimStore.claims file with
    | false => exact .inl ⟨s', .unclaimed, rfl, .inr rfl⟩
    | true =>
      cases token with
      | none => exact .inl ⟨s', .missingToken, rfl, .inl rfl⟩
      | some text => simp [hsame.2, hpassword]
  | some password =>
    cases token with
    | none => exact .inl ⟨s', .missingToken, rfl, .inl rfl⟩
    | some text =>
      refine .inr (.inr ⟨s', text, password, rfl, rfl, hsame.1, ?_⟩)
      simp [hsame.2, hpassword]

end AuthState

section Decided

variable {s : AuthState Sha256Hex} {lib : AuthLib Sha256Hex} {verify : String → String → Bool}
  {file : PrincipalsFile Sha256Hex} {upgraded : Bool} {now : Nat} {home : HomeFiles}

section

variable (h : s.Reads lib verify now home)
include h

theorem AuthState.Reads.configuredPassword : s.configuredPassword = s.password := by
  unfold AuthState.configuredPassword
  have hpassword := h.password
  unfold readPassword at hpassword
  split at hpassword
  · rw [← some.inj hpassword]; rfl
  · obtain ⟨auth, -, heq⟩ := map_eq_some_iff.mp hpassword; rw [← heq, filter_filter]; simp

/-- What is remembered of a password is what verifying it again would say. -/
theorem outcome_verification
    (hverify : ∀ token hash, comparePassword lib token hash = some (verify token hash))
    {s' : AuthState Sha256Hex} (hmemory : s'.verifiedPasswords = s.verifiedPasswords)
    (request : AuthRequest) (key token password : String) :
    AuthState.outcome lib (s'.verification lib request key token password) =
      some (verify token password) := by
  unfold AuthState.outcome AuthState.verification
  rw [hmemory]
  split
  · rw [h.remembered password token ‹_›]
  · exact hverify token password

/-- **Who is admitted, and as what.** -/
theorem bearer_role (hcontents : s.store.contents = some (file, upgraded))
    (hverify : ∀ token hash, comparePassword lib token hash = some (verify token hash))
    (options : AuthFailureLimiterOptions) (stat : FileStat) (later : Nat) (req : RequestLike)
    (token : Option String) :
    ∃ decision, (s.decide lib options stat now later (.bearerSync req token)).2 =
        .bearer decision ∧
      decision.role? = token.bind fun text =>
        (deviceRole file (lib.hashCredential text)).or
          (if s.matchesLocalToken lib req text ∨ s.password.any (verify text) then some .owner
           else none) := by
  have hbegin : s.beginRequest lib stat now (.bearerSync req token) =
      s.beginBearer lib stat now (.bearerSync req token) req token := rfl
  unfold AuthState.decide
  rw [hbegin]
  cases token with
  | none =>
    rw [AuthState.beginBearer]
    rcases AuthState.checkPassword_role h.coherent hcontents h.notBlocked (.bearerSync req none)
        (s.clientKey lib req) none with
      ⟨s', reason, heq, -⟩ | ⟨s', heq, -⟩ | ⟨s', text, password, htext, -⟩
    · rw [heq]; exact ⟨_, rfl, rfl⟩
    · rw [heq]; exact ⟨_, rfl, rfl⟩
    · cases htext
  | some text =>
    obtain ⟨device, hdevice, hrole, hsame⟩ :=
      @AuthState.resolveDevice_role _ _ s lib _ _ h.coherent hcontents stat now text
    have honly := @AuthState.resolveDevice_onlyStore _ s _ lib stat now text
    rw [AuthState.beginBearer]
    generalize s.resolveDevice lib stat now text = result at hdevice hsame honly
    obtain ⟨s', found⟩ := result
    obtain rfl := hdevice
    cases device with
    | some device =>
      refine ⟨.ok (.device device), rfl, ?_⟩
      rw [bind_some, ← hrole]
      rfl
    | none =>
      have hstore := hsame rfl
      have heq : s' = { s with store := s'.store } := honly
      have hlocal : s'.matchesLocalToken lib req text = s.matchesLocalToken lib req text := by
        rw [heq]
        rfl
      simp only [hlocal]
      by_cases htoken : s.matchesLocalToken lib req text = true
      · rw [if_pos htoken]
        rw [bind_some, ← hrole]
        simp [htoken, BearerDecision.role?, roleForPrincipal]
      · rw [if_neg htoken]
        have hcoherent' : s'.store.Coherent := hstore.coherent
        have hcontents' : s'.store.contents = some (file, upgraded) :=
          hstore.contents.trans hcontents
        have hpassword' : s'.configuredPassword = s.password := by
          rw [← h.configuredPassword, heq]
          rfl
        have hblocked' : ∀ key, s'.isBlocked key now = false := by rw [heq]; exact h.notBlocked
        rw [bind_some, ← hrole]
        rcases AuthState.checkPassword_role hcoherent' hcontents' hblocked'
            (.bearerSync req (some text)) (s'.clientKey lib req) (some text) with
          ⟨s'', reason, hcheck, hnone⟩ | ⟨s'', hcheck, hnone⟩ |
            ⟨s'', text', password, htext, hpassword, hverified, hcheck⟩
        · have hnone := hpassword'.symm.trans (hnone.resolve_left nofun)
          rw [hcheck]
          exact ⟨_, rfl, by simp [htoken, hnone, BearerDecision.role?]⟩
        · have hnone := hpassword'.symm.trans hnone
          rw [hcheck]
          exact ⟨_, rfl, by simp [htoken, hnone, BearerDecision.role?]⟩
        · obtain rfl := some.inj htext
          have hpassword := hpassword'.symm.trans hpassword
          have hmemory : s''.verifiedPasswords = s.verifiedPasswords := by rw [hverified, heq]
          have houtcome := outcome_verification h hverify hmemory (.bearerSync req (some text))
            (s'.clientKey lib req) text password
          rw [hcheck]
          dsimp only
          unfold AuthState.finish
          rw [houtcome]
          cases hok : verify text password with
          | true =>
            refine ⟨.ok .password, rfl, ?_⟩
            simp [hpassword, hok, BearerDecision.role?, roleForPrincipal]
          | false =>
            refine ⟨.rejected .invalidToken, rfl, ?_⟩
            simp [hpassword, hok, htoken, BearerDecision.role?]

end

end Decided

end Frogg.Server
