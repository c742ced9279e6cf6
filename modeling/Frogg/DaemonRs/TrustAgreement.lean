/-
  Subject:   Where the Rust front and the Node daemon trust the same callers.

  Both have read the same files, and the password check, the digest and the parser of addresses are
  one for both. **`sameTrust_iff`**: where the texts are trimmed and lowered alike, the two decide
  alike exactly if the caller shows a token or has to show one (`LikeNode.bearer`), if no claim
  rests on local devices or on an empty latch alone (`LikeNode.claim`), and if the address is
  known. A caller on the machine itself that shows nothing is the owner for the front and nobody
  for the daemon (`anonymous_owner`).
-/
import Frogg.DaemonRs.Auth
import Frogg.Server.Admission
import Frogg.Server.BearerRole

namespace Frogg.DaemonRs

open Option

open Library
open Server (HomeFiles AuthState AuthLib BearerDecision AuthAnswer FileStat
  AuthFailureLimiterOptions Sha256Hex RequestLike DeviceRole)

/-! ## 1. A caller -/

/-- What the decisions are about: a connection with its token, a request, a `Host` header. -/
structure Caller where
  address : Option String
  token : Option String
  method : String
  path : String
  hostHeader : Option String

/-- The connection as the Node daemon sees it, without a header of a proxy. -/
def Caller.req (caller : Caller) : RequestLike := ⟨caller.address, []⟩

/-- `authorizeBearerSync`; what the middleware decides is the same. -/
def nodeAnswer (lib : AuthLib Sha256Hex) (options : AuthFailureLimiterOptions)
    (s : AuthState Sha256Hex) (stat : FileStat) (now later : Nat) (caller : Caller) : AuthAnswer :=
  (s.decide lib options stat now later (.bearerSync caller.req caller.token)).2

/-- The role that an answer admits a caller with. -/
def admittedRole : AuthAnswer → Option DeviceRole
  | .bearer decision => decision.role?
  | _ => none

section Agreement

variable (lib : AuthLib Sha256Hex) (verify : String → String → Bool)
  (sha256 : String → List UInt8) (toLowerCase : String → String) (pairing : String)
  (options : AuthFailureLimiterOptions) (s : AuthState Sha256Hex) (stat : FileStat)
  (now later : Nat) (config : AuthConfig) (hostnames : Hostnames) (allowPairingHostname : Bool)
  (caller : Caller)

/-- The two make the same decisions about the caller. -/
structure SameTrust : Prop where
  authorized : (config.authorize sha256 verify (classify caller.address) caller.token).role? =
    (admittedRole (nodeAnswer lib options s stat now later caller)).map Role.ofDevice
  claimed : s.store.isClaimed.2 = some config.isClaimed
  classified : (classify caller.address).toClient =
    Server.classifyClientAddress lib.net caller.address
  routes : "/api/".toList.isPrefixOf caller.path.toList = true →
    gateDaemonRoute sha256 verify config (classify caller.address) caller.method caller.path
      caller.token = none →
    ∃ decision, nodeAnswer lib options s stat now later caller = .bearer decision ∧
      Server.requireBearer caller.method caller.path decision = .next
  hosts : isHostnameAllowed pairing caller.hostHeader hostnames allowPairingHostname =
    Server.isHostnameAllowed toLowerCase lib.net pairing caller.hostHeader
      (some hostnames.toConfig) (some allowPairingHostname)

end Agreement

/-- Both languages trim and lower the texts that the decisions are made from alike. -/
structure TextsAlike (toLowerCase : String → String) (pairing : String)
    (allowPairingHostname : Bool) (home : HomeFiles) (hostnames : Hostnames) (caller : Caller) :
    Prop where
  address : ∀ address, caller.address = some address → jsTrim address = rustTrim address
  localToken : ∀ token text, caller.token = some token → home.localToken = some text →
    jsTrim text = rustTrim text
  hosts : HostReadAlike toLowerCase pairing allowPairingHostname caller.hostHeader hostnames

/-- Where the two decide alike. -/
structure LikeNode (lib : AuthLib Sha256Hex) (verify : String → String → Bool) (home : HomeFiles)
    (file : Server.PrincipalsFile Sha256Hex) (s : AuthState Sha256Hex) (config : AuthConfig)
    (caller : Caller) : Prop where
  /-- A token is shown, or one is needed. -/
  bearer : caller.token = none → config.needsBearer (classify caller.address) = true
  /-- The claim is by a device that is none of the machine's own, or by a latch that is set. -/
  claim : (∃ time, (readPrincipals home).claimedAt = some time ∧ time ≠ "") ∨
    (∃ e ∈ file.credentials, e.2.pairedVia ≠ some .host) ∨
    (readPrincipals home).claimedAt = none ∧ file.credentials = []
  address : caller.address ≠ none
  /-- An address without a text is a socket of the machine for the Node daemon only. -/
  socket : caller.address = some "" → ∀ token, caller.token = some token →
    s.localToken = some token →
    (Server.deviceRole file (lib.hashCredential token)).isSome = true ∨
      s.password.any (verify token) = true

/-! ## 2. The front's decision -/

section

variable (sha256 : String → List UInt8) (verify : String → String → Bool) (config : AuthConfig)
  (client : Locality)
include sha256 verify config client

theorem AuthConfig.authorize_none :
    (config.authorize sha256 verify client none).role? =
      if config.needsBearer client = true then none else some .owner := by
  unfold AuthConfig.authorize
  cases config.needsBearer client with
  | false => rfl
  | true =>
    dsimp only
    split
    · exact absurd ‹_› (by simp)
    · split <;> rfl

/-- A token that is shown is a device's, the machine's own or the password; or it admits nobody. -/
theorem AuthConfig.authorize_some (token : String) :
    (config.authorize sha256 verify client (some token)).role? =
      (matchDevice sha256 token config.devices).or
        (if (client = .loopback ∧ config.localToken = some token) ∨
            config.passwordHash.any (verify token) = true then some .owner else none) := by
  have hknown : config.knownCredential sha256 client token =
      (matchDevice sha256 token config.devices).or
        (if client = .loopback ∧ config.localToken = some token then some .owner else none) := by
    unfold AuthConfig.knownCredential
    cases matchDevice sha256 token config.devices with
    | some role => rfl
    | none => cases config.localToken <;> simp
  unfold AuthConfig.authorize
  dsimp only
  rw [hknown]
  cases matchDevice sha256 token config.devices with
  | some role => rfl
  | none =>
    rw [none_or, none_or]
    by_cases hlocal : client = .loopback ∧ config.localToken = some token
    · simp [hlocal, Decision.role?]
    · rw [if_neg hlocal]
      simp only [hlocal, false_or]
      split
      · rename_i hunclaimed
        have hnone : config.passwordHash = none := by
          have hsecrets := hunclaimed.2
          simpa using (Bool.or_eq_false_iff.mp hsecrets).1
        simp [hnone, Decision.role?]
      · cases config.passwordHash with
        | none => simp [Decision.role?]
        | some hash => cases hok : verify token hash <;> simp [hok, Decision.role?]

end

/-! ## 3. The files -/

section Files

variable {lib : AuthLib Sha256Hex} {verify : String → String → Bool} {now : Nat}
  {home : HomeFiles} {s : AuthState Sha256Hex} {file : Server.PrincipalsFile Sha256Hex}
  {upgraded : Bool} {sha256 : String → List UInt8}

theorem lower_of_digest (digest : Sha256Hex) : ∀ c ∈ digest.val.toList, LowerHex c := by
  intro c hc
  have hvalid := digest.property
  have hchar := List.all_eq_true.mp (Bool.and_eq_true_iff.mp hvalid).2 c hc
  simpa [LowerHex] using hchar

/-- A device is found by both or by neither, and with the same role. -/
theorem matchDevice_ofRecord
    (hdigest : ∀ token, (lib.hashCredential token).val = String.ofList (hexEncode (sha256 token)))
    (token : String) :
    matchDevice sha256 token (file.credentials.map fun e => Device.ofRecord e.2) =
      (Server.deviceRole file (lib.hashCredential token)).map Role.ofDevice := by
  have hsame : ∀ digest : Sha256Hex, hexDecode digest.val.toList = some (sha256 token) ↔
      digest = lib.hashCredential token := by
    intro digest
    rw [hexDecode_iff (lower_of_digest digest), Subtype.ext_iff, hdigest, ← String.toList_inj,
      String.toList_ofList]
  rw [matchDevice_eq, Server.deviceRole, List.filter_map, List.filter_map, List.getLast?_map,
    List.getLast?_map, map_map, map_map, map_map]
  have hfilter : (file.credentials.filter
      ((fun d => decide (hexDecode d.sha256.toList = some (sha256 token))) ∘
        fun e => Device.ofRecord e.2)) =
      file.credentials.filter ((fun e => decide (e.1 = lib.hashCredential token)) ∘
        fun e => (e.2.sha256, e.2.role.getD .owner)) :=
    List.filter_congr fun e _ => decide_eq_decide.mpr (hsame e.2.sha256)
  rw [hfilter]
  rfl

section

variable (hnode : s.Reads lib verify now home)
include hnode

/-- What both have read of the devices. -/
theorem samePrincipals_home (hrust : Reads home)
    (hcontents : s.store.contents = some (file, upgraded)) :
    SamePrincipals (readPrincipals home) file := by
  have hfile := hnode.file
  unfold Server.ClaimStore.contents at hcontents
  unfold readPrincipals readOrDefault
  cases hprincipals : home.principals with
  | none =>
    rw [hprincipals] at hfile
    rw [map_eq_none_iff.mp hfile] at hcontents
    cases hcontents
    exact ⟨rfl, rfl⟩
  | some raw =>
    rw [hprincipals] at hfile
    obtain ⟨⟨fileStat, stored⟩, hstored, heq⟩ := map_eq_some_iff.mp hfile
    obtain rfl := heq
    rw [hstored] at hcontents
    obtain ⟨read, hread⟩ := isSome_iff_exists.mp (hrust.principals raw hprincipals)
    rw [bind_some, hread]
    exact samePrincipals hcontents hread

theorem password_home (hrust : Reads home) (defaultTrustLan : Bool) :
    (buildAuth defaultTrustLan home none).passwordHash = s.password := by
  show (readDaemon home).auth.bind AuthSection.password = s.password
  have hpassword := hnode.password
  unfold readDaemon readOrDefault
  cases hconfig : home.config with
  | none => rw [hconfig] at hpassword; rw [← some.inj hpassword]; rfl
  | some raw =>
    rw [hconfig] at hpassword
    obtain ⟨read, hread⟩ := isSome_iff_exists.mp (hrust.config raw hconfig)
    rw [bind_some, hread]
    exact config_password hpassword hread

theorem localToken_home (htrim : ∀ text, home.localToken = some text → jsTrim text = rustTrim text)
    (defaultTrustLan : Bool) :
    (buildAuth defaultTrustLan home none).localToken = s.localToken := by
  rw [hnode.localToken]
  show (home.localToken.map rustTrim).filter _ = _
  unfold Server.readLocalToken
  cases htoken : home.localToken with
  | none => rfl
  | some text => rw [map_some, map_some, htrim text htoken]

end

end Files

/-! ## 4. The same decisions -/

section Decisions

variable {lib : AuthLib Sha256Hex} {verify : String → String → Bool} {now : Nat}
  {home : HomeFiles} {s : AuthState Sha256Hex} {file : Server.PrincipalsFile Sha256Hex}
  {upgraded : Bool} {sha256 : String → List UInt8} {toLowerCase : String → String}
  {hostnames : Hostnames} {caller : Caller}

/-- A connection is on the machine for the front if it is for the daemon, a socket without an
    address apart. -/
theorem isLoopbackClient_iff (hnet : lib.net = ipTests)
    (haddress : ∀ address, caller.address = some address → jsTrim address = rustTrim address)
    (trustedProxies : Server.TrustedProxiesSetting) :
    Server.isLoopbackClient lib.net caller.req trustedProxies = true ↔
      caller.address = some "" ∨ classify caller.address = .loopback := by
  rw [hnet]
  unfold Server.isLoopbackClient Server.clientLocality Caller.req
  cases hcaller : caller.address with
  | none => simp [classify]
  | some address =>
    by_cases hempty : address = ""
    · simp [hempty, filter_some]
    · have hpresent : (some address).filter (· ≠ "") = some address := by simp [hempty]
      have hforwarded : Server.resolveForwardedClient ipTests ⟨some address, []⟩ trustedProxies =
          (some address, false) := by
        unfold Server.resolveForwardedClient
        simp only [hpresent]
        rfl
      have hclass := toClient_classify (haddress address hcaller)
      simp only [hpresent, isNone_some, Server.classifyRequestLocality, hforwarded, ← hclass]
      cases classify (some address) <;> simp [Locality.toClient, hempty]

theorem matchesLocalToken_iff (hnode : s.Reads lib verify now home) (hnet : lib.net = ipTests)
    (haddress : ∀ address, caller.address = some address → jsTrim address = rustTrim address)
    (token : String) :
    s.matchesLocalToken lib caller.req token = true ↔
      (caller.address = some "" ∨ classify caller.address = .loopback) ∧
        s.localToken = some token := by
  have hempty : s.localToken = some token → token ≠ "" := by
    intro htoken
    rw [hnode.localToken] at htoken
    exact of_decide_eq_true (filter_eq_some_iff.mp htoken).2
  unfold AuthState.matchesLocalToken
  rw [Bool.and_eq_true, Bool.and_eq_true, isLoopbackClient_iff hnet haddress,
    decide_eq_true_iff, decide_eq_true_iff]
  exact ⟨fun h => ⟨h.1.1, h.2⟩, fun h => ⟨⟨h.1, hempty h.2⟩, h.2⟩⟩

theorem or_owner_map (found : Option DeviceRole) (p q : Prop) [Decidable p] [Decidable q] :
    (found.map Role.ofDevice).or (if p then some .owner else none) =
        (found.or (if q then some .owner else none)).map Role.ofDevice ↔
      found.isSome = true ∨ (p ↔ q) := by
  cases found with
  | some role => simp
  | none => by_cases hp : p <;> by_cases hq : q <;> simp [hp, hq, Role.ofDevice]

theorem bypassesBearer_le (method path : String) (h : bypassesBearer method path = true) :
    Server.shouldBypassBearerAuth method path = true := by
  have hfree : bearerFree.contains path = true →
      Server.publicRoutes.contains path = true ∨
        Server.selfAuthenticatingRoutes.contains path = true := by
    unfold bearerFree Server.publicRoutes Server.selfAuthenticatingRoutes
    grind
  unfold bypassesBearer at h
  unfold Server.shouldBypassBearerAuth Server.isBearerFreeRoute
  simp only [Bool.or_eq_true] at h ⊢
  rcases h with (h | h) | h
  · exact .inl h
  · exact .inr (.inl (.inl h))
  · exact .inr ((hfree h).elim (fun h => .inl (.inr h)) .inr)

theorem atLeast_ofDevice (role required : DeviceRole) :
    (Role.ofDevice role).atLeast (Role.ofDevice required) = Server.roleSatisfies role required := by
  cases role <;> cases required <;> rfl

theorem requiredRole_eq (path : String) :
    requiredRole path = Role.ofDevice (Server.requiredRoleForHttpRoute path) := by
  unfold requiredRole Server.requiredRoleForHttpRoute
  split
  · rfl
  · split <;> rfl

/-- A route that the front opens for a caller that both admit alike is open in the daemon. -/
theorem routes_of_authorized {config : AuthConfig} {client : Locality} {token : Option String}
    {decision : BearerDecision} {method path : String}
    (hrole : (config.authorize sha256 verify client token).role? =
      decision.role?.map Role.ofDevice) (hapi : "/api/".toList.isPrefixOf path.toList = true)
    (h : gateDaemonRoute sha256 verify config client method path token = none) :
    Server.requireBearer method path decision = .next := by
  unfold Server.requireBearer
  split
  · rfl
  · rename_i hbypass
    unfold gateDaemonRoute at h
    rw [if_neg (not_or.mpr ⟨by rw [hapi]; decide, mt (bypassesBearer_le method path) hbypass⟩)] at h
    split at h
    · rename_i role hauthorized
      rw [hauthorized] at hrole
      obtain ⟨role', hrole', heq⟩ := map_eq_some_iff.mp hrole.symm
      cases decision with
      | rejected reason => cases hrole'
      | ok principal =>
        have hprincipal : Server.roleForPrincipal principal = role' := some.inj hrole'
        split at h
        · rename_i hrank
          rw [← heq, requiredRole_eq, atLeast_ofDevice, ← hprincipal] at hrank
          dsimp only
          rw [if_pos hrank]
        · cases h
    all_goals cases h

theorem claimed_iff (hsame : SamePrincipals (readPrincipals home) file)
    (hcoherent : s.store.Coherent) (hcontents : s.store.contents = some (file, upgraded))
    (defaultTrustLan : Bool) :
    s.store.isClaimed.2 = some (buildAuth defaultTrustLan home none).isClaimed ↔
      (∃ time, (readPrincipals home).claimedAt = some time ∧ time ≠ "") ∨
      (∃ e ∈ file.credentials, e.2.pairedVia ≠ some .host) ∨
      (readPrincipals home).claimedAt = none ∧ file.credentials = [] := by
  have hdevices : (buildAuth defaultTrustLan home none).devices.isEmpty =
      file.credentials.isEmpty := by
    rw [show (buildAuth defaultTrustLan home none).devices = _ from hsame.devices, List.isEmpty_map]
  have hlatch : (buildAuth defaultTrustLan home none).claimedAt =
      (readPrincipals home).claimedAt.isSome := rfl
  have hother : (file.credentials.any fun e => decide (e.2.pairedVia ≠ some .host)) = true ↔
      ∃ e ∈ file.credentials, e.2.pairedVia ≠ some .host := by
    simp only [List.any_eq_true, decide_eq_true_eq]
  rw [Server.ClaimStore.isClaimed_eq hcoherent hcontents, some.injEq]
  unfold Server.ClaimStore.claims AuthConfig.isClaimed
  rw [← hsame.claimedAt, hdevices, hlatch, ← hother]
  cases hclaimed : (readPrincipals home).claimedAt with
  | none =>
    cases hcredentials : file.credentials with
    | nil => simp
    | cons e rest => simp
  | some time => by_cases hempty : time = "" <;> simp [hempty, filter_some]

section Agreement

variable (hnode : s.Reads lib verify now home) (hrust : Reads home)
    (hcontents : s.store.contents = some (file, upgraded)) (hnet : lib.net = ipTests)
    (hverify : ∀ token hash, Server.comparePassword lib token hash = some (verify token hash))
    (hdigest : ∀ token, (lib.hashCredential token).val = String.ofList (hexEncode (sha256 token)))
    (htexts : TextsAlike toLowerCase pairing allowPairingHostname home hostnames caller)
    (options : AuthFailureLimiterOptions) (stat : FileStat) (later : Nat) (defaultTrustLan : Bool)
include hnode hrust hcontents hnet hverify hdigest htexts

/-- The two admit the same caller with the same role. -/
theorem authorized_iff :
    ((buildAuth defaultTrustLan home none).authorize sha256 verify (classify caller.address)
        caller.token).role? =
      (admittedRole (nodeAnswer lib options s stat now later caller)).map Role.ofDevice ↔
    (caller.token = none →
      (buildAuth defaultTrustLan home none).needsBearer (classify caller.address) = true) ∧
    (caller.address = some "" → ∀ token, caller.token = some token →
      s.localToken = some token →
      (Server.deviceRole file (lib.hashCredential token)).isSome = true ∨
        s.password.any (verify token) = true) := by
  obtain ⟨decision, hanswer, hrole⟩ :=
    Server.bearer_role hnode hcontents hverify options stat later caller.req caller.token
  unfold nodeAnswer
  rw [hanswer]
  show _ = decision.role?.map Role.ofDevice ↔ _
  rw [hrole]
  cases htoken : caller.token with
  | none =>
    rw [AuthConfig.authorize_none]
    split <;> simp [*]
  | some token =>
    rw [AuthConfig.authorize_some, password_home hnode hrust,
      localToken_home hnode fun text => htexts.localToken token text htoken,
      show (buildAuth defaultTrustLan home none).devices = _ from
        (samePrincipals_home hnode hrust hcontents).devices,
      matchDevice_ofRecord hdigest, bind_some, or_owner_map,
      matchesLocalToken_iff hnode hnet htexts.address]
    by_cases hempty : caller.address = some ""
    · have houtside : ¬ classify (some "") = .loopback := by decide
      by_cases hlocal : s.localToken = some token
      · by_cases hpassword : s.password.any (verify token) = true <;>
          simp [hempty, houtside, hlocal, hpassword]
      · simp [hempty, houtside, hlocal]
    · simp [hempty]

/-- **The two trust the same callers** exactly where `LikeNode` holds: of all files that both read
    and all callers whose texts both trim and lower alike. -/
theorem sameTrust_iff :
    SameTrust lib verify sha256 toLowerCase pairing options s stat now later
        (buildAuth defaultTrustLan home none) hostnames allowPairingHostname caller ↔
      LikeNode lib verify home file s (buildAuth defaultTrustLan home none) caller := by
  have hauthorized := authorized_iff hnode hrust hcontents hnet hverify hdigest htexts options stat
    later defaultTrustLan
  have hclaimed := claimed_iff (samePrincipals_home hnode hrust hcontents) hnode.coherent hcontents
    defaultTrustLan
  constructor
  · intro h
    refine ⟨(hauthorized.mp h.authorized).1, hclaimed.mp h.claimed, fun hnone => ?_,
      (hauthorized.mp h.authorized).2⟩
    have hclass := h.classified
    rw [hnone] at hclass
    cases hclass
  · intro h
    have hsame := hauthorized.mpr ⟨h.bearer, h.socket⟩
    refine ⟨hsame, hclaimed.mpr h.claim, ?_, fun hapi hgate => ?_, ?_⟩
    · obtain ⟨address, haddress⟩ := ne_none_iff_exists'.mp h.address
      rw [haddress, hnet]
      exact toClient_classify (htexts.address address haddress)
    · obtain ⟨decision, hanswer, -⟩ :=
        Server.bearer_role hnode hcontents hverify options stat later caller.req caller.token
      have hanswer : nodeAnswer lib options s stat now later caller = .bearer decision := hanswer
      rw [hanswer] at hsame
      exact ⟨decision, hanswer, routes_of_authorized hsame hapi hgate⟩
    · rw [hnet]; exact isHostnameAllowed_eq htexts.hosts

end Agreement

end Decisions

/-! ### A daemon that was just installed, and one that a phone has claimed -/

/-- SHA-256 of `flt1.token`, `phone` and `guess`. -/
def exampleSha256 (token : String) : List UInt8 :=
  if token = "phone" then
    [69, 86, 157, 165, 127, 75, 123, 244, 114, 215, 168, 100, 239, 71, 129, 69, 28, 174, 99, 131,
      254, 233, 251, 10, 228, 12, 89, 170, 28, 228, 117, 183]
  else if token = "guess" then
    [241, 171, 225, 176, 131, 209, 45, 24, 26, 225, 54, 207, 199, 91, 141, 24, 168, 236, 180, 58,
      196, 233, 209, 163, 109, 106, 156, 117, 182, 1, 107, 97]
  else
    [157, 164, 114, 37, 186, 215, 67, 236, 124, 255, 138, 82, 125, 21, 75, 127, 91, 120, 82, 205,
      156, 104, 29, 63, 233, 203, 168, 157, 28, 44, 17, 23]

/-- No password is configured, so none is compared. -/
def cliLib : AuthLib Sha256Hex where
  net := ipTests
  hashCredential token := ⟨String.ofList (hexEncode (exampleSha256 token)), by
    unfold exampleSha256
    split
    · decide
    · split <;> decide⟩
  compare _ _ := some false
  scrypt _ _ _ _ _ _ := some []
  hmacSha256 _ bytes := bytes
  toBase64url _ := ""
  fromBase64url _ := []

def cliVerify (token hash : String) : Bool :=
  (Server.comparePassword cliLib token hash).getD false

def cliHome : HomeFiles := ⟨none, none, some "flt1.token\n"⟩

def cliDaemon : AuthState Sha256Hex :=
  ⟨.createClaimStore none, .empty, .empty, none, some "flt1.token", .listed []⟩

/-- A phone has claimed the daemon as an operator. -/
def phoneFile : Json :=
  .object [("version", .number "2"), ("claimedAt", .string "2026-01-01T00:00:00.000Z"),
    ("principals", .array [.object [("id", .string "owner"), ("label", .string "Owner"),
      ("createdAt", .string "2026-01-01T00:00:00.000Z"), ("permissions", .array []),
      ("credentials", .array [.object [("id", .string "device-1"),
        ("sha256", .string (cliLib.hashCredential "phone").val),
        ("createdAt", .string "2026-01-01T00:00:00.000Z"), ("name", .string "Phone"),
        ("role", .string "operator"), ("pairedVia", .string "claim")]])]])]

def phoneHome : HomeFiles := { cliHome with principals := some phoneFile }

def phoneDaemon : AuthState Sha256Hex :=
  { cliDaemon with
    store := .createClaimStore (some (⟨0, 0⟩, Server.storedPrincipals phoneFile)) }

def cliCaller (address : String) (token : Option String) : Caller :=
  ⟨some address, token, "GET", "/api/status", some "localhost:9999"⟩

theorem cliDaemon_reads : cliDaemon.Reads cliLib cliVerify 0 cliHome := by
  refine ⟨rfl, ?_, rfl, by decide, fun key => rfl, fun hash token h => ?_⟩
  · intro stat loaded stored hcache; cases hcache
  · cases h

theorem phoneDaemon_reads : phoneDaemon.Reads cliLib cliVerify 0 phoneHome := by
  refine ⟨rfl, ?_, rfl, by decide, fun key => rfl, fun hash token h => ?_⟩
  · intro stat loaded stored hcache; cases hcache
  · cases h

theorem cliHome_reads : Reads cliHome := by
  constructor <;> intro raw hraw <;> cases hraw

theorem phoneHome_reads : Reads phoneHome := by
  constructor
  · intro raw hraw; obtain rfl := some.inj hraw; decide
  · intro raw hraw; cases hraw

theorem cliVerify_eq (token hash : String) :
    Server.comparePassword cliLib token hash = some (cliVerify token hash) := by
  have hsome : (Server.comparePassword cliLib token hash).isSome = true := by
    unfold Server.comparePassword
    split
    · rfl
    · split <;> rfl
  obtain ⟨ok, hok⟩ := isSome_iff_exists.mp hsome
  unfold cliVerify
  rw [hok, getD_some]

theorem cliCaller_texts {address : String} (haddress : jsTrim address = rustTrim address)
    (token : Option String) (principals : Option Json) :
    TextsAlike jsToLower "" true { cliHome with principals } (.list ["frogg.example"])
      (cliCaller address token) := by
  refine ⟨fun _ h => ?_, fun _ text _ htext => ?_, fun header hheader => ?_,
    fun header name hheader hname => ?_, fun hostname patterns hhost hdefault => ?_⟩
  · obtain rfl := some.inj h; exact haddress
  · obtain rfl := some.inj htext; decide
  · obtain rfl := some.inj hheader; decide
  · obtain rfl := some.inj hheader
    have hlocal : Server.hostnameText (rustTrim "localhost:9999").toList = some "localhost" := by
      decide
    obtain rfl := mem_unique hlocal hname
    have hchars : "localhost".toList.all fun c => c.toNat != 0x85 && c.toNat != 0xFEFF := by decide
    exact normalizedAlike_ascii (fun c hc => by simpa using List.all_eq_true.mp hchars c hc) rfl
  · have hlocal : (some "localhost:9999").bind parseHostnameFromHostHeader = some "localhost" := by
      decide
    obtain rfl := mem_unique hlocal hhost
    exact absurd hdefault (by decide)

/-- The machine's own token is the owner's for both; the phone is let in from the network, and who
    guesses is not. -/
theorem sameTrust_localToken :
    SameTrust cliLib cliVerify exampleSha256 jsToLower "" {} cliDaemon ⟨0, 0⟩ 0 0
      (buildAuth true cliHome none) (.list ["frogg.example"]) true
        (cliCaller "127.0.0.1" (some "flt1.token")) ∧
    (∀ token, SameTrust cliLib cliVerify exampleSha256 jsToLower "" {} phoneDaemon ⟨0, 0⟩ 0 0
      (buildAuth true phoneHome none) (.list ["frogg.example"]) true
        (cliCaller "192.168.1.7" (some token))) ∧
    ((buildAuth true phoneHome none).authorize exampleSha256 cliVerify (classify (some "192.168.1.7"))
      (some "phone")).role? = some .operator ∧
    ((buildAuth true phoneHome none).authorize exampleSha256 cliVerify (classify (some "192.168.1.7"))
      (some "guess")).role? = none := by
  refine ⟨(sameTrust_iff cliDaemon_reads cliHome_reads rfl rfl cliVerify_eq (fun _ => rfl)
    (cliCaller_texts (by decide) _ _) {} ⟨0, 0⟩ 0 true).mpr
      ⟨by decide, .inr (.inr ⟨rfl, rfl⟩), by decide, by decide⟩, fun token =>
    (sameTrust_iff phoneDaemon_reads phoneHome_reads rfl rfl cliVerify_eq (fun _ => rfl)
      (cliCaller_texts (by decide) _ _) {} ⟨0, 0⟩ 0 true).mpr
        ⟨nofun, .inl ⟨_, rfl, by decide⟩, nofun, fun h => absurd (some.inj h) (by decide)⟩,
    by decide, by decide⟩

/-- Without it the front takes the caller for the owner and lets it through to a route that the
    daemon answers with 401. -/
theorem anonymous_owner :
    cliDaemon.Reads cliLib cliVerify 0 cliHome ∧ Reads cliHome ∧
    TextsAlike jsToLower "" true cliHome (.list ["frogg.example"]) (cliCaller "127.0.0.1" none) ∧
    ¬ SameTrust cliLib cliVerify exampleSha256 jsToLower "" {} cliDaemon ⟨0, 0⟩ 0 0
      (buildAuth true cliHome none) (.list ["frogg.example"]) true
        (cliCaller "127.0.0.1" none) := by
  refine ⟨cliDaemon_reads, cliHome_reads, cliCaller_texts (by decide) none none, fun h => ?_⟩
  have hrole := h.authorized
  revert hrole
  decide

end Frogg.DaemonRs
