/-
  Subject:   What a request that the daemon lets in has shown.

  `Live` is the policy: one case for each kind of credential, judged in the state in which the
  request is decided. **`only_live_admitted`**: in every run a change to the devices leaves what
  `StoreOp.Leaves` says (of a revoked device nothing), an answer that lets a request in at
  once is one of these cases, and one that comes after a verification is for the password that was
  configured when the request arrived; that need not be the password any more
  (`stale_password_admitted`).
-/
import Frogg.Server.PasswordGuesses

namespace Frogg.Server

open Library List Option AuthState Function JsMap

variable {Digest : Type}

/-! ## 1. Changes to the devices -/

/-- An operation of the claim store, with what it takes from outside. -/
inductive StoreOp where
  | mint (stat : FileStat) (fresh : NewDevice) (now : Nat) (input : MintInput)
  | register (stat : FileStat) (fresh : NewDevice) (now : Nat) (clientId name : String)
      (via : ClientVia)
  | rename (stat : FileStat) (credentialId name : String)
  | setRole (stat : FileStat) (credentialId : String) (role : DeviceRole)
  | revoke (stat : FileStat) (credentialId : String)
  | touch (stat : FileStat) (credentialId : String) (now : Nat)
  | migrate (stat : FileStat)
  | reset

def StoreOp.run (hashCredential : String → Digest) (s : ClaimStore Digest) :
    StoreOp → ClaimStore Digest
  | .mint stat fresh now input => (s.mintPrincipal hashCredential stat fresh now input).1
  | .register stat fresh now clientId name via =>
    (s.registerClientDevice hashCredential stat fresh now clientId name via).1
  | .rename stat credentialId name => (s.renameDevice stat credentialId name).1
  | .setRole stat credentialId role => (s.setCredentialRole stat credentialId role).1
  | .revoke stat credentialId => (s.revokeDevice stat credentialId).1
  | .touch stat credentialId now => (s.touchLastSeen stat credentialId now).1
  | .migrate stat => (s.migrate stat).1
  | .reset => s.reset.1

/-- What a token is matched against: the id, the digest and the role of a credential. -/
abbrev Key (Digest : Type) := String × Digest × DeviceRole

def CredentialRecord.key (credential : CredentialRecord Digest) : Key Digest :=
  (credential.id, credential.sha256, credential.role.getD .owner)

def PrincipalsFile.keys (file : PrincipalsFile Digest) : List (Key Digest) :=
  file.principals.flatMap fun principal => principal.credentials.map CredentialRecord.key

/-- Of what the store is asked about; none of a file that does not parse. -/
def ClaimStore.keys (s : ClaimStore Digest) : List (Key Digest) :=
  (s.view.map PrincipalsFile.keys).getD []

def Key.withRole (role : DeviceRole) (key : Key Digest) : Key Digest := (key.1, key.2.1, role)

/-- The keys that an operation leaves: of a revoked device none, of one with another role the key
    with that role, after a reset none at all. -/
def StoreOp.Leaves (hashCredential : String → Digest) (before after : List (Key Digest)) :
    StoreOp → Prop
  | .mint _ fresh _ input =>
    after ⊆ before ++ [(fresh.credentialId, hashCredential fresh.secret, input.role.getD .owner)]
  | .register _ fresh _ _ _ _ =>
    after ⊆ before ++ [(fresh.credentialId, hashCredential fresh.secret, .owner)]
  | .rename .. | .touch .. | .migrate _ => after = before
  | .setRole _ credentialId role =>
    after = before.map fun key => if key.1 = credentialId then key.withRole role else key
  | .revoke _ credentialId => after = before.filter (·.1 ≠ credentialId)
  | .reset => after = []

namespace ClaimStore

variable {s s' : ClaimStore Digest} {stat : FileStat} {credentialId : String}

theorem keys_withLastSeen (pending : JsMap String String) (file : PrincipalsFile Digest) :
    (withLastSeen pending file).keys = file.keys := by
  have hkey : CredentialRecord.key ∘ seenLately pending = @CredentialRecord.key Digest := by
    funext credential
    unfold comp seenLately
    split
    · rfl
    · split
      · rfl
      · split <;> rfl
  unfold withLastSeen PrincipalsFile.mapCredentials PrincipalsFile.keys
  split
  · rfl
  · simp [flatMap_map, hkey]

theorem keys_eq : s.keys = (s.contents.map fun l => l.1.keys).getD [] := by
  unfold keys view
  cases s.contents <;> simp [keys_withLastSeen]

/-- The keys are of the file; the times in memory do not count. -/
theorem keys_of_file (h : s'.file = s.file) : s'.keys = s.keys := by
  rw [keys_eq, keys_eq]
  unfold contents
  rw [h]

theorem keys_of_view {current : PrincipalsFile Digest} (h : s.view = some current) :
    s.keys = current.keys := by
  unfold keys
  rw [h]
  rfl

theorem valid_upgrade {principal : LegacyPrincipal Digest}
    (hlabel : principal.label ≠ "") {credential : LegacyCredential Digest}
    (hid : credential.id ≠ "") (hcreated : credential.createdAt ≠ "") :
    (upgradeCredential principal.label credential).valid = true := by
  have hname : trimmedOr credential.label principal.label ≠ "" := by
    unfold trimmedOr
    split
    · exact hlabel
    · split
      · exact hlabel
      · assumption
  simp [CredentialRecord.valid, upgradeCredential, hid, hcreated, hname]

theorem valid_contents {loaded : PrincipalsFile Digest × Bool} (h : s.contents = some loaded) :
    loaded.1.valid = true := by
  unfold contents at h
  split at h
  · obtain rfl := some.inj h; rfl
  · unfold upgradePrincipalsFile at h
    split at h
    · split at h
      · rename_i hvalid
        obtain rfl := some.inj h
        unfold LegacyFile.valid at hvalid
        simp only [PrincipalsFile.valid, List.all_map, List.all_eq_true,
          comp_apply] at hvalid ⊢
        intro principal hprincipal
        have hfields := hvalid principal hprincipal
        simp only [Bool.and_eq_true, decide_eq_true_eq, List.all_eq_true] at hfields
        obtain ⟨⟨⟨hid, hlabel⟩, hcreated⟩, hcredentials⟩ := hfields
        have hall : (upgradePrincipal principal).credentials.all CredentialRecord.valid = true := by
          simp only [upgradePrincipal, List.all_map, List.all_eq_true, comp_apply]
          exact fun credential hin =>
            valid_upgrade hlabel (hcredentials credential hin).1 (hcredentials credential hin).2
        simp only [PrincipalRecord.valid, hall]
        simp [upgradePrincipal, hid, hlabel, hcreated]
      · cases h
    · split at h
      · obtain rfl := some.inj h; assumption
      · cases h
    · cases h

/-- Changes that keep each credential valid keep the file so. -/
theorem valid_mapCredentials {file : PrincipalsFile Digest} (h : file.valid = true)
    {update : CredentialRecord Digest → CredentialRecord Digest}
    (hupdate : ∀ credential, credential.valid = true → (update credential).valid = true) :
    (file.mapCredentials update).valid = true := by
  simp only [PrincipalsFile.valid, PrincipalsFile.mapCredentials, List.all_map,
    List.all_eq_true, comp_apply, PrincipalRecord.valid, Bool.and_eq_true] at h ⊢
  exact fun principal hin => ⟨(h principal hin).1, fun credential hcredential =>
    hupdate credential ((h principal hin).2 credential hcredential)⟩

theorem valid_view {current : PrincipalsFile Digest} (h : s.view = some current) :
    current.valid = true := by
  obtain ⟨loaded, hcontents, rfl⟩ := map_eq_some_iff.mp h
  have hvalid := valid_contents hcontents
  unfold withLastSeen
  split
  · exact hvalid
  · refine valid_mapCredentials hvalid fun credential hcredential => ?_
    unfold seenLately
    split
    · exact hcredential
    · split
      · exact hcredential
      · split <;> exact hcredential

theorem keys_write {value : PrincipalsFile Digest} (h : value.valid = true) :
    (s.write stat value).keys = value.keys := by
  rw [keys_eq]
  simp [contents, write, upgradePrincipalsFile, h]

theorem keys_write_subset (value : PrincipalsFile Digest) :
    (s.write stat value).keys ⊆ value.keys := by
  by_cases h : value.valid = true
  · rw [keys_write h]; exact Subset.refl _
  · rw [keys_eq]; simp [contents, write, upgradePrincipalsFile, h]

/-- A change to the credentials of one id, seen on the keys. -/
theorem keys_mutateCredential (h : s.Coherent)
    {update : CredentialRecord Digest → CredentialRecord Digest} (keyed : Key Digest → Key Digest)
    (hvalid : ∀ credential, credential.valid = true → (update credential).valid = true)
    (hkey : ∀ credential, (update credential).key = keyed credential.key) :
    (s.mutateCredential stat credentialId update).1.keys =
      s.keys.map fun key => if key.1 = credentialId then keyed key else key := by
  rcases mutateCredential_spec h update with ⟨hcached, hnone⟩ | ⟨current, before, hview, -, -, heq, -⟩
  · rw [keys_of_file hcached.file]
    rcases hnone with ⟨-, hview⟩ | ⟨-, current, hview, hother⟩
    · simp [keys, hview]
    · rw [keys_of_view hview]
      refine ((map_congr_left fun key hin => ?_).trans (map_id _)).symm
      obtain ⟨principal, hprincipal, hmem⟩ := mem_flatMap.mp hin
      obtain ⟨credential, hcredential, rfl⟩ := mem_map.mp hmem
      exact if_neg (hother (principal, credential)
        (mem_flatMap.mpr ⟨principal, hprincipal, mem_map_of_mem hcredential⟩))
  · rw [heq, keys_write, keys_of_view hview]
    · simp only [PrincipalsFile.keys, PrincipalsFile.mapCredentials, flatMap_map, map_flatMap,
        List.map_map]
      refine flatMap_congr fun principal _ => map_congr_left fun credential _ => ?_
      simp only [comp_apply, apply_ite CredentialRecord.key, hkey]
      rfl
    · refine valid_mapCredentials (valid_view hview) fun credential hcredential => ?_
      split
      · exact hvalid credential hcredential
      · exact hcredential

theorem keys_mutateCredential_same (h : s.Coherent)
    {update : CredentialRecord Digest → CredentialRecord Digest}
    (hvalid : ∀ credential, credential.valid = true → (update credential).valid = true)
    (hkey : ∀ credential, (update credential).key = credential.key) :
    (s.mutateCredential stat credentialId update).1.keys = s.keys := by
  rw [keys_mutateCredential h id hvalid hkey]
  simp

theorem keys_withoutCredential (current : PrincipalsFile Digest) :
    (withoutCredential current credentialId).keys = current.keys.filter (·.1 ≠ credentialId) := by
  unfold withoutCredential PrincipalsFile.keys
  induction current.principals with
  | nil => rfl
  | cons principal rest ih =>
    simp only [map_cons, filter_cons, flatMap_cons, filter_append] at ih ⊢
    have hkeys : (principal.credentials.map CredentialRecord.key).filter (·.1 ≠ credentialId) =
        (principal.credentials.filter (·.id ≠ credentialId)).map CredentialRecord.key :=
      filter_map
    rw [hkeys]
    split
    · rw [flatMap_cons, ih]
    · rename_i hnone
      simp only [ne_eq, decide_not, Bool.not_eq_true', decide_eq_false_iff_not, not_not] at hnone
      rw [ih]
      simp [hnone]

theorem valid_withoutCredential {current : PrincipalsFile Digest} (h : current.valid = true) :
    (withoutCredential current credentialId).valid = true := by
  simp only [PrincipalsFile.valid, withoutCredential, List.all_eq_true, mem_filter,
    PrincipalRecord.valid, Bool.and_eq_true] at h ⊢
  rintro principal ⟨hin, -⟩
  obtain ⟨principal, hprincipal, rfl⟩ := mem_map.mp hin
  exact ⟨(h principal hprincipal).1, fun credential hcredential =>
    (h principal hprincipal).2 credential (mem_of_mem_filter hcredential)⟩

theorem coherent_mutateCredential (h : s.Coherent)
    (update : CredentialRecord Digest → CredentialRecord Digest) :
    (s.mutateCredential stat credentialId update).1.Coherent := by
  rcases mutateCredential_spec h update with ⟨hcached, -⟩ | ⟨current, before, -, -, -, heq, -⟩
  · exact hcached.coherent
  · rw [heq]; exact coherent_write _

theorem coherent_touchLastSeen (h : s.Coherent) (now : Nat) :
    (s.touchLastSeen stat credentialId now).1.Coherent := by
  unfold touchLastSeen
  dsimp only
  split
  · exact h
  · have hseen : ({ s with
        pendingLastSeen := s.pendingLastSeen.set credentialId (IsoDate.toISOString now)
        lastPersistedAt := s.lastPersistedAt.set credentialId now } : ClaimStore Digest).Coherent := h
    exact coherent_mutateCredential hseen _

theorem coherent_run (h : s.Coherent) (hashCredential : String → Digest) (op : StoreOp) :
    (op.run hashCredential s).Coherent := by
  obtain ⟨hread, -⟩ := read_spec h
  obtain ⟨hload, -⟩ := load_spec h
  cases op with
  | mint stat fresh now input =>
    show (s.mintPrincipal hashCredential stat fresh now input).1.Coherent
    unfold mintPrincipal
    split <;> rename_i heq <;> rw [heq] at hread
    · exact hread.coherent
    · exact coherent_write _
  | register stat fresh now clientId name via =>
    show (s.registerClientDevice hashCredential stat fresh now clientId name via).1.Coherent
    unfold registerClientDevice
    split <;> rename_i heq <;> rw [heq] at hread
    · exact hread.coherent
    · split
      · exact hread.coherent
      · exact coherent_write _
  | rename stat credentialId name =>
    show (s.renameDevice stat credentialId name).1.Coherent
    unfold renameDevice
    split
    · exact h
    · exact coherent_mutateCredential h _
  | setRole stat credentialId role =>
    show (s.setCredentialRole stat credentialId role).1.Coherent
    unfold setCredentialRole
    exact coherent_mutateCredential h _
  | revoke stat credentialId =>
    show (s.revokeDevice stat credentialId).1.Coherent
    unfold revokeDevice
    split <;> rename_i heq <;> rw [heq] at hread
    · exact hread.coherent
    · split
      · exact coherent_of_cache rfl
      · exact hread.coherent
  | touch stat credentialId now => exact coherent_touchLastSeen h now
  | migrate stat =>
    show (s.migrate stat).1.Coherent
    unfold migrate
    split <;> rename_i heq <;> rw [heq] at hload
    · exact hload.coherent
    · split
      · exact coherent_write _
      · exact hload.coherent
  | reset => exact coherent_of_cache rfl

/-- A new principal adds no other keys than its own. -/
theorem keys_write_append (current : PrincipalsFile Digest) (claimedAt : Option String)
    (principal : PrincipalRecord Digest) :
    (s.write stat ⟨claimedAt, current.principals ++ [principal]⟩).keys ⊆
      current.keys ++ principal.credentials.map CredentialRecord.key := by
  intro key hin
  have hkeys := keys_write_subset _ hin
  simpa [PrincipalsFile.keys] using hkeys

/-- What each operation leaves of the keys, whatever is cached. -/
theorem run_leaves (h : s.Coherent) (hashCredential : String → Digest) (op : StoreOp) :
    op.Leaves hashCredential s.keys (op.run hashCredential s).keys := by
  obtain ⟨hread, hview⟩ := read_spec h
  obtain ⟨hload, hcontents⟩ := load_spec h
  cases op with
  | mint stat fresh now input =>
    show (s.mintPrincipal hashCredential stat fresh now input).1.keys ⊆ _
    unfold mintPrincipal
    split <;> rename_i heq <;> rw [heq] at hread hview
    · rw [keys_of_file hread.file]; exact subset_append_left _ _
    · rw [keys_of_view hview.symm]; exact keys_write_append _ _ _
  | register stat fresh now clientId name via =>
    show (s.registerClientDevice hashCredential stat fresh now clientId name via).1.keys ⊆ _
    unfold registerClientDevice
    split <;> rename_i heq <;> rw [heq] at hread hview
    · rw [keys_of_file hread.file]; exact subset_append_left _ _
    · split
      · rw [keys_of_file hread.file]; exact subset_append_left _ _
      · rw [keys_of_view hview.symm]; exact keys_write_append _ _ _
  | rename stat credentialId name =>
    show (s.renameDevice stat credentialId name).1.keys = s.keys
    unfold renameDevice
    split
    · rfl
    · rename_i hname
      refine keys_mutateCredential_same h (fun credential hvalid => ?_) fun _ => rfl
      simp only [CredentialRecord.valid, Bool.and_eq_true] at hvalid ⊢
      exact ⟨⟨hvalid.1.1, decide_eq_true hname⟩, hvalid.2⟩
  | setRole stat credentialId role =>
    have hset := @keys_mutateCredential _ s stat credentialId h
      (fun credential => { credential with role := some role }) (Key.withRole role)
      (fun _ hvalid => hvalid) fun _ => rfl
    exact hset
  | revoke stat credentialId =>
    show (s.revokeDevice stat credentialId).1.keys = _
    unfold revokeDevice
    split <;> rename_i heq <;> rw [heq] at hread hview
    · rw [keys_of_file hread.file]; simp [keys, ← hview]
    · rename_i s' current
      rw [keys_of_view hview.symm]
      split
      · have hvalid := @valid_withoutCredential _ credentialId _ (valid_view hview.symm)
        have hstored := (@keys_write _ s' stat _ hvalid).trans (keys_withoutCredential current)
        exact (keys_of_file rfl).trans hstored
      · rename_i hnone
        rw [keys_of_file hread.file, keys_of_view hview.symm]
        refine (filter_eq_self.mpr fun key hin => ?_).symm
        obtain ⟨principal, hprincipal, hmem⟩ := mem_flatMap.mp hin
        obtain ⟨credential, hcredential, rfl⟩ := mem_map.mp hmem
        refine decide_eq_true fun hid => hnone (any_eq_true.mpr ⟨(principal, credential), ?_⟩)
        exact ⟨mem_flatMap.mpr ⟨principal, hprincipal, mem_map_of_mem hcredential⟩,
          decide_eq_true hid⟩
  | touch stat credentialId now =>
    show (s.touchLastSeen stat credentialId now).1.keys = s.keys
    unfold touchLastSeen
    dsimp only
    split
    · exact keys_of_file rfl
    · have hseen : ({ s with
          pendingLastSeen := s.pendingLastSeen.set credentialId (IsoDate.toISOString now)
          lastPersistedAt := s.lastPersistedAt.set credentialId now } : ClaimStore Digest).Coherent := h
      have hsame := @keys_mutateCredential_same _ _ stat credentialId hseen
        (fun credential => { credential with lastSeenAt := some (IsoDate.toISOString now) })
        (fun _ hvalid => hvalid) fun _ => rfl
      exact hsame.trans (keys_of_file rfl)
  | migrate stat =>
    show (s.migrate stat).1.keys = s.keys
    unfold migrate
    split <;> rename_i heq <;> rw [heq] at hload hcontents
    · exact keys_of_file hload.file
    · split
      · rw [keys_write (valid_contents hcontents.symm), keys_eq, ← hcontents]; rfl
      · exact keys_of_file hload.file
  | reset => rfl

end ClaimStore

/-! ## 2. The policy -/

namespace AuthRequest

/-- The token a request carries. -/
def token : AuthRequest → Option String
  | .bearerSync _ token | .bearerAsync _ token | .tunnelled token _ | .realCredential _ token _ =>
    token
  | .agentMcp _ _ authorizationHeader => extractHttpBearerToken authorizationHeader

/-- The request whose locality the local token is honoured for; none of a tunnel or an agent. -/
def direct : AuthRequest → Option RequestLike
  | .bearerSync req _ | .bearerAsync req _ | .realCredential req _ _ => some req
  | .tunnelled .. | .agentMcp .. => none

def requiredRole : AuthRequest → DeviceRole
  | .bearerSync .. | .bearerAsync .. | .tunnelled .. => .viewer
  | .realCredential _ _ minimumRole => minimumRole
  | .agentMcp .. => .operator

/-- The secret of the run that agent tokens are derived from. -/
def capability : AuthRequest → Option String
  | .agentMcp _ capabilityToken _ => capabilityToken.filter (· ≠ "")
  | .bearerSync .. | .bearerAsync .. | .tunnelled .. | .realCredential .. => none

/-- The answer to a device that may come in. -/
def forDevice (device : DeviceRecord) : AuthRequest → AuthAnswer
  | .bearerSync .. | .bearerAsync .. | .tunnelled .. => .bearer (.ok (.device device))
  | .realCredential .. => .credential true
  | .agentMcp .. => .agentMcp (.ok none)

def forLocalToken : AuthRequest → AuthAnswer
  | .realCredential .. => .credential true
  | .bearerSync .. | .bearerAsync .. | .tunnelled .. | .agentMcp .. => .bearer (.ok .localToken)

end AuthRequest

def AuthAnswer.admits : AuthAnswer → Bool
  | .bearer (.ok _) | .credential true | .agentMcp (.ok _) => true
  | .bearer (.rejected _) | .credential false | .agentMcp (.rejected _) | .thrown => false

section Policy

variable (lib : AuthLib Digest)

/-- The device is one of the store, and the token is its secret. -/
def PairedWith (store : ClaimStore Digest) (token : String) (device : DeviceRecord) : Prop :=
  ∃ current, store.view = some current ∧ ∃ e ∈ current.credentials, device = toDevice e.1 e.2 ∧
    ∀ secret, lib.hashCredential secret = e.2.sha256 ↔ secret = token

/-- The token carries the signature of the agent id that its middle part stands for. -/
def SignedFor (secret agentId token : String) : Prop :=
  ∃ id, token = agentMcpTokenPrefix ++ "." ++ id ++ "." ++
      lib.toBase64url (lib.hmacSha256 secret (textEncode agentId)) ∧
    utf8Text (lib.fromBase64url id) = agentId

/-- What lets a request in, and with which answer. -/
inductive Live (s : AuthState Digest) (request : AuthRequest) : AuthAnswer → Prop where
  | device (token : String) (device : DeviceRecord) (htoken : request.token = some token)
      (hpaired : PairedWith lib s.store token device)
      (hrole : roleSatisfies device.role request.requiredRole = true) :
      Live s request (request.forDevice device)
  | localToken (token : String) (req : RequestLike) (htoken : request.token = some token)
      (hdirect : request.direct = some req)
      (hloopback : req.remoteAddress.filter (· ≠ "") = none ∨
        (resolveForwardedClient lib.net req s.trustedProxies).2 = false ∧
          isLoopbackIp lib.net (req.remoteAddress.filter (· ≠ "")) = true)
      (hsecret : s.localToken = some token) : Live s request request.forLocalToken
  | capability (token : String) (htoken : request.token = some token)
      (hsecret : request.capability = some token) : Live s request (.agentMcp (.ok none))
  | agent (token secret agentId : String) (htoken : request.token = some token)
      (hsecret : request.capability = some secret) (hsigned : SignedFor lib secret agentId token) :
      Live s request (.agentMcp (.ok (some agentId)))

end Policy

/-! ## 3. A decision at once -/

section Decision

variable {lib : AuthLib Digest}

/-- A text in three parts. -/
theorem of_splitOnChar_three {text a b c : String} (h : splitOnChar '.' text = [a, b, c]) :
    text = a ++ "." ++ b ++ "." ++ c := by
  obtain ⟨as, rest₁, hsplit, rfl, h₁⟩ := map_eq_cons_iff.mp h
  obtain ⟨bs, rest₂, rfl, rfl, h₂⟩ := map_eq_cons_iff.mp h₁
  obtain ⟨cs, rest₃, rfl, rfl, h₃⟩ := map_eq_cons_iff.mp h₂
  obtain rfl := map_eq_nil_iff.mp h₃
  rcases of_splitChars_cons hsplit with ⟨hnil, -⟩ | ⟨tail, htext, htail⟩
  · cases hnil
  rcases of_splitChars_cons htail with ⟨hnil, -⟩ | ⟨last, rfl, hlast⟩
  · cases hnil
  rcases of_splitChars_cons hlast with ⟨-, rfl⟩ | ⟨more, -, hmore⟩
  · apply String.toList_inj.mp; simp [htext]
  · exact absurd hmore (splitChars_ne_nil _ _)

section

variable (hdot : ∀ bytes, '.' ∉ (lib.toBase64url bytes).toList)
include hdot

/-- The signature of a derived token; its other parts have no dot either. -/
theorem deriveAgentMcpToken_mac (secret agentId : String) :
    (splitOnChar '.' (deriveAgentMcpToken lib secret agentId))[2]? =
      some (lib.toBase64url (lib.hmacSha256 secret (textEncode agentId))) := by
  have htext : (deriveAgentMcpToken lib secret agentId).toList =
      agentMcpTokenPrefix.toList ++ '.' :: ((lib.toBase64url (textEncode agentId)).toList ++ '.' ::
        (lib.toBase64url (lib.hmacSha256 secret (textEncode agentId))).toList) := by
    simp [deriveAgentMcpToken]
  unfold splitOnChar
  rw [htext, splitChars_append (by decide), splitChars_append (hdot _), splitChars_single (hdot _)]
  simp

theorem signedFor_of_verify
    {secret token agentId : String} (h : verifyAgentMcpToken lib secret token = some agentId) :
    SignedFor lib secret agentId token := by
  unfold verifyAgentMcpToken at h
  split at h
  · rename_i tokenPrefix id mac hsplit
    split at h
    · rename_i hparts
      dsimp only at h
      split at h
      · rename_i hmac
        obtain rfl := some.inj h
        rw [deriveAgentMcpToken_mac hdot] at hmac
        refine ⟨id, ?_, rfl⟩
        rw [of_splitOnChar_three hsplit, hparts.1, some.inj hmac]
      · cases h
    · cases h
  · cases h

end

variable {s s' : AuthState Digest} {request : AuthRequest}

/-- A decision is coherent and by the policy; what awaits a verification carries the token. -/
structure Decides (lib : AuthLib Digest) (s : AuthState Digest) (request : AuthRequest)
    (result : AuthState Digest × Begun) : Prop where
  coherent : result.1.store.Coherent
  answered : ∀ answer, result.2 = .answered answer → answer.admits = true →
    Live lib s request answer
  refused : ∀ key answer, result.2 = .refused key answer → answer.admits = false
  verifying : ∀ v, result.2 = .verifying v → request.token = some v.token

variable {answer : AuthAnswer}

section

variable (h : s'.store.Coherent)
include h

theorem decides_refusal (hno : answer.admits = false) :
    Decides lib s request (s', .answered answer) where
  coherent := h
  answered := fun answer' heq hyes => by
    obtain rfl := Begun.answered.inj heq
    rw [hno] at hyes
    cases hyes
  refused := fun _ _ heq => nomatch heq
  verifying := fun _ heq => nomatch heq

theorem decides_live (hlive : Live lib s request answer) :
    Decides lib s request (s', .answered answer) where
  coherent := h
  answered := fun answer' heq _ => by
    obtain rfl := Begun.answered.inj heq
    exact hlive
  refused := fun _ _ heq => nomatch heq
  verifying := fun _ heq => nomatch heq

theorem decides_refused {key : String} (hno : answer.admits = false) :
    Decides lib s request (s', .refused key answer) where
  coherent := h
  answered := fun _ heq => nomatch heq
  refused := fun key' answer' heq => by
    obtain ⟨-, rfl⟩ := Begun.refused.inj heq
    exact hno
  verifying := fun _ heq => nomatch heq

theorem decides_verifying {v : Verification}
    (htoken : request.token = some v.token) : Decides lib s request (s', .verifying v) where
  coherent := h
  answered := fun _ heq => nomatch heq
  refused := fun _ _ heq => nomatch heq
  verifying := fun v' heq => by
    obtain rfl := Begun.verifying.inj heq
    exact htoken

end

/-- The local token, in the state that looking for a device has left. -/
theorem live_localToken {req : RequestLike} {token : String} (hstore : s.OnlyStore s')
    (htoken : request.token = some token) (hdirect : request.direct = some req)
    (h : s'.matchesLocalToken lib req token = true) : Live lib s request request.forLocalToken := by
  have hsame : s'.trustedProxies = s.trustedProxies ∧ s'.localToken = s.localToken := by
    rw [hstore]
    exact ⟨rfl, rfl⟩
  unfold matchesLocalToken at h
  rw [hsame.1, hsame.2] at h
  simp only [Bool.and_eq_true, decide_eq_true_eq] at h
  exact .localToken token req htoken hdirect (forwarded_not_loopback h.1.1) h.2

variable [DecidableEq Digest] {stat : FileStat} {now : Nat}

theorem resolveDevice_spec (hsha : Function.Injective lib.hashCredential) (h : s.store.Coherent)
    (token : String) :
    (s.resolveDevice lib stat now token).1.store.Coherent ∧
      ∀ device, (s.resolveDevice lib stat now token).2 = some (some device) →
        PairedWith lib s.store token device := by
  obtain ⟨hcached, hfound⟩ := ClaimStore.reading_spec h fun current : PrincipalsFile Digest =>
    ((current.credentials.filter fun e => e.2.sha256 = lib.hashCredential token).getLast?).map
      fun e => toDevice e.1 e.2
  unfold resolveDevice
  unfold ClaimStore.findDeviceByToken
  split
  · rename_i store heq; rw [heq] at hcached; exact ⟨hcached.coherent, fun _ hnone => nomatch hnone⟩
  · rename_i store heq; rw [heq] at hcached; exact ⟨hcached.coherent, fun _ hnone => nomatch hnone⟩
  · rename_i store device heq
    rw [heq] at hcached hfound
    have htouched := @ClaimStore.coherent_touchLastSeen _ store stat device.id hcached.coherent now
    have hpaired : PairedWith lib s.store token device := by
      obtain ⟨current, hview, hlast⟩ := map_eq_some_iff.mp hfound.symm
      obtain ⟨e, he, rfl⟩ := map_eq_some_iff.mp hlast
      obtain ⟨hin, hdigest⟩ := mem_filter.mp (mem_of_getLast? he)
      refine ⟨current, hview, e, hin, rfl, fun secret => ?_⟩
      rw [of_decide_eq_true hdigest]
      exact hsha.eq_iff
    split
    · rename_i store' htouch
      rw [htouch] at htouched
      exact ⟨htouched, fun _ hnone => nomatch hnone⟩
    · rename_i store' htouch
      rw [htouch] at htouched
      refine ⟨htouched, fun device' heq => ?_⟩
      obtain rfl := some.inj (some.inj heq)
      exact hpaired

theorem decides_checkPassword (h : s'.store.Coherent) (key : String) {token : Option String}
    (htoken : request.token = token) :
    Decides lib s request (s'.checkPassword lib request key now token) := by
  have hsecrets : s'.hasSecrets.1.store.Coherent := by
    unfold AuthState.hasSecrets
    split
    · exact h
    · exact (ClaimStore.isClaimed_recached h).coherent
  unfold checkPassword
  split
  · exact decides_refusal h rfl
  · split <;> rename_i heq <;> rw [heq] at hsecrets
    · exact decides_refusal hsecrets rfl
    · exact decides_refusal hsecrets rfl
    · split
      · exact decides_refusal hsecrets rfl
      · exact decides_refused hsecrets rfl
      · exact decides_verifying hsecrets htoken

theorem decides_beginBearer (hsha : Function.Injective lib.hashCredential) (h : s.store.Coherent)
    {req : RequestLike} {token : Option String} (htoken : request.token = token)
    (hdirect : request.direct = some req)
    (hforDevice : ∀ device, request.forDevice device = .bearer (.ok (.device device)))
    (hforLocal : request.forLocalToken = .bearer (.ok .localToken))
    (hrole : request.requiredRole = .viewer) :
    Decides lib s request (s.beginBearer lib stat now request req token) := by
  unfold beginBearer
  split
  · exact decides_checkPassword h _ htoken
  · rename_i text
    have hstore := @resolveDevice_onlyStore _ s _ lib stat now text
    obtain ⟨hcoherent, hpaired⟩ := @resolveDevice_spec _ lib s _ stat now hsha h text
    split <;> rename_i heq <;> rw [heq] at hstore hcoherent hpaired
    · exact decides_refusal hcoherent rfl
    · rename_i device
      rw [← hforDevice]
      refine decides_live hcoherent (.device text device htoken (hpaired device rfl) ?_)
      rw [hrole]
      exact decide_eq_true (Nat.zero_le _)
    · split
      · rename_i hlocal
        rw [← hforLocal]
        exact decides_live hcoherent (live_localToken hstore htoken hdirect hlocal)
      · exact decides_checkPassword hcoherent _ htoken

/-- **Every decision is by the policy.** -/
theorem decides_beginRequest (hsha : Function.Injective lib.hashCredential)
    (hdot : ∀ bytes, '.' ∉ (lib.toBase64url bytes).toList) (h : s.store.Coherent) (stat : FileStat)
    (now : Nat) (request : AuthRequest) :
    Decides lib s request (s.beginRequest lib stat now request) := by
  have hdevice := fun text => @resolveDevice_spec _ lib s _ stat now hsha h text
  have honly := fun text => @resolveDevice_onlyStore _ s _ lib stat now text
  cases request with
  | bearerSync req token => exact decides_beginBearer hsha h rfl rfl (fun _ => rfl) rfl rfl
  | bearerAsync req token => exact decides_beginBearer hsha h rfl rfl (fun _ => rfl) rfl rfl
  | tunnelled token key =>
    show Decides lib s _ (s.beginTunnelled lib stat now token key)
    unfold beginTunnelled
    split
    · exact decides_checkPassword h _ rfl
    · rename_i text
      obtain ⟨hcoherent, hpaired⟩ := hdevice text
      split <;> rename_i heq <;> rw [heq] at hcoherent hpaired
      · exact decides_refusal hcoherent rfl
      · rename_i device
        exact decides_live hcoherent (.device text device rfl (hpaired device rfl)
          (decide_eq_true (Nat.zero_le _)))
      · exact decides_checkPassword hcoherent _ rfl
  | realCredential req token minimumRole =>
    show Decides lib s _ (s.beginRealCredential lib stat now req token minimumRole)
    unfold beginRealCredential
    split
    · exact decides_refusal h rfl
    · rename_i text
      obtain ⟨hcoherent, hpaired⟩ := hdevice text
      have hstore := honly text
      split <;> rename_i heq <;> rw [heq] at hcoherent hpaired hstore
      · exact decides_refusal hcoherent rfl
      · rename_i device
        cases hrole : roleSatisfies device.role minimumRole with
        | false => exact decides_refusal hcoherent rfl
        | true => exact decides_live hcoherent (.device text device rfl (hpaired device rfl) hrole)
      · split
        · rename_i hlocal; exact decides_live hcoherent (live_localToken hstore rfl rfl hlocal)
        · dsimp only
          split
          · exact decides_refusal hcoherent rfl
          · split
            · exact decides_refusal hcoherent rfl
            · exact decides_verifying hcoherent rfl
  | agentMcp req capabilityToken authorizationHeader =>
    show Decides lib s _ (s.beginAgentMcp lib stat now req capabilityToken authorizationHeader)
    unfold beginAgentMcp
    split
    · exact decides_refusal h rfl
    · rename_i token htoken
      split
      · rename_i callerAgentId hcaller
        obtain ⟨secret, hsecret, hmatch⟩ := bind_eq_some_iff.mp hcaller
        split at hmatch
        · rename_i agentId hverified
          obtain rfl := some.inj hmatch
          have hsigned := signedFor_of_verify hdot (filter_eq_some_iff.mp hverified).1
          exact decides_live h (.agent token secret agentId htoken hsecret hsigned)
        · split at hmatch
          · rename_i hsame
            obtain rfl := some.inj hmatch
            exact decides_live h (.capability token htoken (hsame ▸ hsecret))
          · cases hmatch
      · obtain ⟨hcoherent, hpaired⟩ := hdevice token
        split <;> rename_i heq <;> rw [heq] at hcoherent hpaired
        · exact decides_refusal hcoherent rfl
        · rename_i device
          split
          · rename_i hrole
            exact decides_live hcoherent (.device token device htoken (hpaired device rfl) hrole)
          · exact decides_refusal hcoherent rfl
        · dsimp only
          split
          · exact decides_refusal hcoherent rfl
          · split
            · exact decides_refused hcoherent rfl
            · exact decides_verifying hcoherent htoken

end Decision

/-! ## 4. The synchronous and the asynchronous decider -/

section Deciders

variable [DecidableEq Digest] {lib : AuthLib Digest} {s : AuthState Digest}

/-- The same decision, for another request with the same token. -/
def Begun.retag (request : AuthRequest) : Begun → Begun
  | .verifying v => .verifying { v with request }
  | .answered answer => .answered answer
  | .refused key answer => .refused key answer

theorem checkPassword_retag (request request' : AuthRequest) (key : String) (now : Nat)
    (token : Option String) :
    s.checkPassword lib request key now token =
      ((s.checkPassword lib request' key now token).1,
        (s.checkPassword lib request' key now token).2.retag request) := by
  unfold checkPassword
  split
  · rfl
  · split
    · rfl
    · rfl
    · split <;> rfl

theorem beginBearer_retag (request request' : AuthRequest) (stat : FileStat) (now : Nat)
    (req : RequestLike) (token : Option String) :
    s.beginBearer lib stat now request req token =
      ((s.beginBearer lib stat now request' req token).1,
        (s.beginBearer lib stat now request' req token).2.retag request) := by
  unfold beginBearer
  split
  · exact checkPassword_retag ..
  · split
    · rfl
    · rfl
    · split
      · rfl
      · exact checkPassword_retag ..

/-- **The two deciders agree**, on what they answer and on what they leave. -/
theorem decide_sync_eq_async (options : AuthFailureLimiterOptions) (stat : FileStat)
    (now later : Nat) (req : RequestLike) (token : Option String) :
    s.decide lib options stat now later (.bearerSync req token) =
      s.decide lib options stat now later (.bearerAsync req token) := by
  have hsync : s.beginRequest lib stat now (.bearerSync req token) =
      s.beginBearer lib stat now (.bearerSync req token) req token := rfl
  have hasync : s.beginRequest lib stat now (.bearerAsync req token) =
      s.beginBearer lib stat now (.bearerAsync req token) req token := rfl
  unfold AuthState.decide
  rw [hsync, hasync, beginBearer_retag (.bearerSync req token) (.bearerAsync req token)]
  have hbegins := @beginRequest_beginsFrom _ s _ lib now (.bearerAsync req token) stat
  rw [hasync] at hbegins
  generalize s.beginBearer lib stat now (.bearerAsync req token) req token = result at hbegins ⊢
  obtain ⟨s', answer | ⟨key, answer⟩ | v⟩ := result
  · rfl
  · rfl
  · have hrequest := (hbegins.2 v rfl).request
    obtain ⟨request, key, text, password, memoized⟩ := v
    obtain rfl : request = .bearerAsync req token := hrequest
    rfl

end Deciders

/-! ## 5. Every run -/

section Reached

variable [DecidableEq Digest] (lib : AuthLib Digest) (options : AuthFailureLimiterOptions)

/-- The store is changed by its own operations. -/
def Administers (s : AuthRun Digest) : AuthEvent Digest → Prop
  | .configured settings => settings.store = s.auth.store ∨
      ∃ op : StoreOp, settings.store = op.run lib.hashCredential s.auth.store
  | .advanced _ | .arrived .. | .completed .. | .pairingFailed _ | .pairingSucceeded _ => True

def accessRuns : TransitionSystem (AuthRun Digest) where
  init s := s.start ∧ ∃ file, s.auth.store = .createClaimStore file
  step s s' := ∃ event, AuthStep lib options s event s' ∧ Administers lib s event

/-- The verification is of a request that arrived in this run, for the password of that time. -/
def Arrived (v : Verification) (s : AuthRun Digest) : Prop :=
  ∃ s₀ stat, (accessRuns lib options).Reachable s₀ ∧
    s₀.auth.configuredPassword = some v.password ∧
    (s₀.arrive lib options stat v.request).pending = s₀.pending ++ [v] ∧
    Relation.ReflTransGen (accessRuns lib options).step (s₀.arrive lib options stat v.request) s

/-- What is remembered as verified is. -/
structure AdmissionInv (s : AuthRun Digest) : Prop where
  coherent : s.auth.store.Coherent
  memo : ∀ password digest, s.auth.verifiedPasswords.has (password, digest) = true →
    ∃ token, lib.hashCredential token = digest ∧ comparePassword lib token password = some true
  token : ∀ v ∈ s.pending, v.request.token = some v.token
  memoized : ∀ v ∈ s.pending, v.memoized = true →
    comparePassword lib v.token v.password = some true

variable {lib options} {s s' : AuthRun Digest}

theorem mem_rememberVerified {verified : VerifiedPasswords Digest} {key added : String × Digest}
    (h : (rememberVerified verified added).has key = true) :
    key = added ∨ verified.has key = true := by
  obtain ⟨u, hget⟩ := has_iff.mp h
  have hset : (verified.set added ()).get? key = some u := by
    have hfold := get?_foldl_delete id
      ((verified.set added ()).keys.take ((verified.set added ()).size - verifiedCacheLimit))
      (verified.set added ()) key
    split at hfold
    · exact absurd (hget.symm.trans hfold) (some_ne_none u)
    · exact hfold.symm.trans hget
  by_cases hkey : key = added
  · exact .inl hkey
  · rw [get?_set_of_ne hkey] at hset; exact .inr (has_iff.mpr ⟨u, hset⟩)

theorem admissionInv_arrive (hsha : Function.Injective lib.hashCredential)
    (hdot : ∀ bytes, '.' ∉ (lib.toBase64url bytes).toList) (h : AdmissionInv lib s)
    (stat : FileStat) (request : AuthRequest) :
    AdmissionInv lib (s.arrive lib options stat request) := by
  have hdecides := decides_beginRequest hsha hdot h.coherent stat s.clock request
  have hbegins := @beginRequest_beginsFrom _ s.auth _ lib s.clock request stat
  have hmemo : ∀ auth : AuthState Digest, s.auth.OnlyStore auth →
      auth.verifiedPasswords = s.auth.verifiedPasswords := by
    intro auth honly
    rw [honly]
  unfold AuthRun.arrive
  split <;> rename_i heq <;> rw [heq] at hdecides hbegins
  · exact ⟨hdecides.coherent, hmemo _ hbegins.1 ▸ h.memo, h.token, h.memoized⟩
  · exact ⟨hdecides.coherent, hmemo _ hbegins.1 ▸ h.memo, h.token, h.memoized⟩
  · rename_i auth v
    have hverifies := hbegins.2 v rfl
    refine ⟨hdecides.coherent, hmemo _ hbegins.1 ▸ h.memo, fun v' hv' => ?_, fun v' hv' hmem => ?_⟩
    · rcases mem_append.mp hv' with hold | hnew
      · exact h.token v' hold
      · rw [mem_singleton.mp hnew, hverifies.request]; exact hdecides.verifying v rfl
    · rcases mem_append.mp hv' with hold | hnew
      · exact h.memoized v' hold hmem
      · obtain rfl := mem_singleton.mp hnew
        obtain ⟨token, hdigest, hright⟩ := h.memo _ _ (hverifies.memoized.symm.trans hmem)
        rwa [hsha hdigest] at hright

variable {v : Verification}

theorem admissionInv_complete (h : AdmissionInv lib s) {before after : List Verification}
    (hpending : s.pending = before ++ v :: after) :
    AdmissionInv lib ({ s with pending := before ++ after }.complete lib options v) := by
  have hsub : ∀ v' ∈ before ++ after, v' ∈ s.pending := by
    intro v' hv'
    rw [hpending]
    rcases mem_append.mp hv' with hin | hin
    · exact mem_append_left _ hin
    · exact mem_append_right _ (mem_cons_of_mem _ hin)
  have hrest := fun v' hv' => h.token v' (hsub v' hv')
  have hmemoized := fun v' hv' => h.memoized v' (hsub v' hv')
  unfold AuthRun.complete AuthState.finish
  rcases houtcome : AuthState.outcome lib v with _ | _ | _
  · exact ⟨h.coherent, h.memo, hrest, hmemoized⟩
  · exact ⟨h.coherent, h.memo, hrest, hmemoized⟩
  · refine ⟨?_, fun password digest hhas => ?_, hrest, hmemoized⟩
    · show (s.auth.remember lib v).store.Coherent
      unfold remember
      split <;> exact h.coherent
    · have hhas : (s.auth.remember lib v).verifiedPasswords.has (password, digest) = true := hhas
      unfold remember at hhas
      unfold AuthState.outcome at houtcome
      split at hhas
      · exact h.memo password digest hhas
      · rename_i hnot
        rw [if_neg hnot] at houtcome
        rcases mem_rememberVerified hhas with heq | hold
        · obtain ⟨rfl, rfl⟩ := Prod.mk.inj heq; exact ⟨v.token, rfl, houtcome⟩
        · exact h.memo password digest hold

section

variable (hsha : Function.Injective lib.hashCredential)
  (hdot : ∀ bytes, '.' ∉ (lib.toBase64url bytes).toList)
include hsha hdot

theorem admissionInv_step {event : AuthEvent Digest} (h : AdmissionInv lib s)
    (hstep : AuthStep lib options s event s') (hadmin : Administers lib s event) :
    AdmissionInv lib s' := by
  cases hstep with
  | advanced later hlater => exact { h with }
  | arrived stat request => exact admissionInv_arrive hsha hdot h stat request
  | completed before after v hpending => exact admissionInv_complete h hpending
  | pairingFailed key => exact { h with }
  | pairingSucceeded key => exact { h with }
  | configured settings =>
    refine ⟨?_, h.memo, h.token, h.memoized⟩
    show settings.store.Coherent
    rcases hadmin with hsame | ⟨op, hop⟩
    · rw [hsame]; exact h.coherent
    · rw [hop]; exact ClaimStore.coherent_run h.coherent lib.hashCredential op

theorem admissionInv_reachable (h : (accessRuns lib options).Reachable s) : AdmissionInv lib s := by
  refine h.invariant (fun s hs => ?_) fun s s' hinv ⟨event, hstep, hadmin⟩ =>
    admissionInv_step hsha hdot hinv hstep hadmin
  obtain ⟨⟨-, hverified, hpending, -⟩, file, hstore⟩ := hs
  refine ⟨?_, fun password digest hhas => ?_, fun v hv => ?_, fun v hv => ?_⟩
  · rw [hstore]; exact ClaimStore.coherent_of_cache rfl
  · rw [hverified] at hhas; cases hhas
  · rw [hpending] at hv; exact absurd hv not_mem_nil
  · rw [hpending] at hv; exact absurd hv not_mem_nil

end

/-- Every verification that is awaited is of a request that arrived in the run. -/
theorem arrived_of_pending (h : (accessRuns lib options).Reachable s) (hv : v ∈ s.pending) :
    Arrived lib options v s := by
  obtain ⟨s₁, hinit, hrun⟩ := h
  induction hrun with
  | refl => rw [hinit.1.2.2.1] at hv; exact absurd hv not_mem_nil
  | @tail s s' hbefore hstep ih =>
    have hkept : v ∈ s.pending → Arrived lib options v s' := by
      intro hold
      obtain ⟨s₀, stat, hreach, hpassword, hpending, hto⟩ := ih hold
      exact ⟨s₀, stat, hreach, hpassword, hpending, hto.tail hstep⟩
    obtain ⟨event, hauth, hadmin⟩ := hstep
    cases hauth with
    | advanced later hlater => exact hkept hv
    | pairingFailed key => exact hkept hv
    | pairingSucceeded key => exact hkept hv
    | configured settings => exact hkept hv
    | completed before after v' hpending =>
      refine hkept ?_
      rw [hpending]
      rcases mem_append.mp hv with hin | hin
      · exact mem_append_left _ hin
      · exact mem_append_right _ (mem_cons_of_mem _ hin)
    | arrived stat request =>
      have hbegins := @beginRequest_beginsFrom _ s.auth _ lib s.clock request stat
      have hcases : (s.arrive lib options stat request).pending = s.pending ∨
          ∃ v', AuthState.Verifies lib s.auth s.clock request v' ∧
            (s.arrive lib options stat request).pending = s.pending ++ [v'] := by
        unfold AuthRun.arrive
        split <;> rename_i heq <;> rw [heq] at hbegins
        · exact .inl rfl
        · exact .inl rfl
        · exact .inr ⟨_, hbegins.2 _ rfl, rfl⟩
      rcases hcases with hsame | ⟨v', hverifies, hpending⟩
      · exact hkept (hsame ▸ hv)
      · rw [hpending] at hv
        rcases mem_append.mp hv with hold | hnew
        · exact hkept hold
        · obtain rfl := mem_singleton.mp hnew
          refine ⟨s, stat, ⟨s₁, hinit, hbefore⟩, hverifies.password, ?_, ?_⟩
          · rw [hverifies.request]; exact hpending
          · rw [hverifies.request]

/-- An answer after a verification lets in whoever was found to have the password. -/
theorem outcome_of_admits {auth : AuthState Digest} {now : Nat}
    (h : (auth.finish lib options now v).2.admits = true) :
    AuthState.outcome lib v = some true := by
  unfold AuthState.finish at h
  rcases houtcome : AuthState.outcome lib v with _ | _ | _
  · rw [houtcome] at h; cases h
  · rw [houtcome] at h
    obtain ⟨request, key, token, password, memoized⟩ := v
    cases request <;> cases h
  · rfl

/-- **Only a live credential is admitted.** With a digest without collisions and a password hash
    that is met by its password only, in every run of requests, changes to the devices and changes
    of the password: each change leaves the keys that `StoreOp.Leaves` says, none of a revoked
    device; an answer at once that lets a request in is one of the cases of `Live` in the
    state it is given in; an answer after a verification that lets one in is for its token being the
    password that was configured when it arrived; a request without a token is let in by neither;
    the synchronous decider answers as the asynchronous one; and a route that asks for a bearer
    lets in no principal below its role. -/
theorem only_live_admitted {plain : String → Option String}
    (hsha : Function.Injective lib.hashCredential)
    (hkdf : ∀ token hash, comparePassword lib token hash = some true → plain hash = some token)
    (hdot : ∀ bytes, '.' ∉ (lib.toBase64url bytes).toList)
    (h : (accessRuns lib options).Reachable s) :
    (∀ stat request auth answer,
      s.auth.beginRequest lib stat s.clock request = (auth, .answered answer) →
        answer.admits = true → Live lib s.auth request answer) ∧
    (∀ stat request auth key answer,
      s.auth.beginRequest lib stat s.clock request = (auth, .refused key answer) →
        answer.admits = false) ∧
    (∀ before v after, s.pending = before ++ v :: after →
      (s.auth.finish lib options s.clock v).2.admits = true →
        v.request.token = some v.token ∧ plain v.password = some v.token ∧
          Arrived lib options v s) ∧
    (∀ stat later req token,
      s.auth.decide lib options stat s.clock later (.bearerSync req token) =
        s.auth.decide lib options stat s.clock later (.bearerAsync req token)) ∧
    (∀ method path decision, requireBearer method path decision = .next →
      shouldBypassBearerAuth method path = true ∨ ∃ principal, decision = .ok principal ∧
        roleSatisfies (roleForPrincipal principal) (requiredRoleForHttpRoute path) = true) ∧
    (∀ op : StoreOp, op.Leaves lib.hashCredential s.auth.store.keys
      (op.run lib.hashCredential s.auth.store).keys) := by
  have hinv := admissionInv_reachable hsha hdot h
  refine ⟨fun stat request auth answer heq hadmits => ?_, fun stat request auth key answer heq => ?_,
    fun before v after hpending hadmits => ?_,
    fun stat later req token => decide_sync_eq_async options stat s.clock later req token,
    fun method path decision hnext => requireBearer_next hnext,
    fun op => ClaimStore.run_leaves hinv.coherent lib.hashCredential op⟩
  · have hdecides := decides_beginRequest hsha hdot hinv.coherent stat s.clock request
    rw [heq] at hdecides
    exact hdecides.answered answer rfl hadmits
  · have hdecides := decides_beginRequest hsha hdot hinv.coherent stat s.clock request
    rw [heq] at hdecides
    exact hdecides.refused key answer rfl
  · have hv : v ∈ s.pending := hpending ▸ mem_append_right _ mem_cons_self
    refine ⟨hinv.token v hv, hkdf v.token v.password ?_, arrived_of_pending h hv⟩
    have houtcome := outcome_of_admits hadmits
    unfold AuthState.outcome at houtcome
    split at houtcome
    · exact hinv.memoized v hv ‹_›
    · exact houtcome

end Reached

/-! ## 6. Where more is let in than it seems -/

/-- As in `plainLib`; the id `a` is `YQ`, with or without padding. -/
def agentLib : AuthLib String where
  net := ⟨fun address => address = "127.0.0.1", fun _ => false⟩
  hashCredential := id
  compare token hash := some (decide (hash = "$2" ++ token))
  scrypt _ _ _ _ _ _ := none
  hmacSha256 _ bytes := bytes
  toBase64url bytes := if bytes = [97] then "YQ" else ""
  fromBase64url text := if text = "YQ" ∨ text = "YQ=" then [97] else []

def rightPassword : AuthRequest := .tunnelled (some "right") "relay"

/-- The password, presented while it was configured and verified after it was taken away. -/
def staleRun : AuthRun String :=
  { auth := { passwordOnly with password := none }, clock := 1000
    pending := [⟨rightPassword, "relay", "right", "$2right", false⟩]
    history := [.compared "relay" false 1000] }

theorem staleRun_reachable : (accessRuns agentLib {}).Reachable staleRun := by
  have hstart : (accessRuns agentLib {}).Reachable
      ({ auth := passwordOnly, clock := 1000, pending := [], history := [] } : AuthRun String) :=
    .of_init ⟨⟨rfl, rfl, rfl, rfl⟩, none, rfl⟩
  exact hstart.step ⟨_, .arrived ⟨0, 0⟩ rightPassword, trivial⟩
    |>.step ⟨_, .configured ⟨.createClaimStore none, none, none, .listed []⟩, .inl rfl⟩

/-- A password that is no longer configured is admitted, an agent token in another spelling is
    accepted, and a loopback peer may send any `X-Forwarded-For`. -/
theorem stale_password_admitted :
    (¬ ∀ s, (accessRuns agentLib {}).Reachable s → ∀ before v after,
      s.pending = before ++ v :: after → (s.auth.finish agentLib {} s.clock v).2.admits = true →
        s.auth.configuredPassword = some v.password) ∧
    (¬ ∀ secret token agentId, verifyAgentMcpToken agentLib secret token = some agentId →
      token = deriveAgentMcpToken agentLib secret agentId) ∧
    (¬ ∀ req trustedProxies, "127.0.0.1" ∈ req.forwardedFor →
      isLoopbackClient agentLib.net req trustedProxies = false) := by
  refine ⟨fun h => ?_, fun h => ?_, fun h => ?_⟩
  · have hsame := h staleRun staleRun_reachable [] _ [] rfl (by decide)
    cases hsame
  · have hsame := h "secret" "fam1.YQ=.YQ" "a" (by decide)
    revert hsame
    decide
  · have hloop := h ⟨some "127.0.0.1", ["127.0.0.1"]⟩ (.listed []) mem_cons_self
    revert hloop
    decide

theorem agentLib_passwords (token hash : String)
    (h : comparePassword agentLib token hash = some true) :
    some (String.ofList (hash.toList.drop 2)) = some token := by
  unfold comparePassword at h
  split at h
  · obtain rfl : hash = "$2" ++ token := of_decide_eq_true (some.inj h); simp
  · split at h <;> cases h

/-- The verification of `staleRun`: for the password of the time at which it arrived. -/
theorem only_live_admitted_stale : staleRun.auth.configuredPassword = none ∧
    rightPassword.token = some "right" ∧
    Arrived agentLib {} ⟨rightPassword, "relay", "right", "$2right", false⟩ staleRun := by
  have hdot : ∀ bytes, '.' ∉ (agentLib.toBase64url bytes).toList := by
    intro bytes
    show '.' ∉ (if bytes = [97] then "YQ" else "").toList
    split <;> decide
  obtain ⟨-, -, hverified, -⟩ := @only_live_admitted _ _ agentLib {} staleRun
    (fun hash => some (String.ofList (hash.toList.drop 2))) (fun _ _ heq => heq)
    agentLib_passwords hdot staleRun_reachable
  obtain ⟨htoken, -, harrived⟩ := hverified [] _ [] rfl (by decide)
  exact ⟨rfl, htoken, harrived⟩

end Frogg.Server
