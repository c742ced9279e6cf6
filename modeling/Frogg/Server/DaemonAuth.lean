/-
  Subject:   Who the daemon lets in: devices, the local token, the password, agent tokens (auth.ts).

  The configuration is the daemon's own, with the claim store, the limiter and the local token.
  `AuthLib` is what comes from packages and from Node. An asynchronous function is cut at its
  `await`: `beginRequest` runs up to the verification of the password, `finish` from there on.
-/
import Frogg.Library.TextCodec
import Frogg.Server.AccessPolicy
import Frogg.Server.AuthRateLimit
import Frogg.Server.ClaimStore

namespace Frogg.Server

open Library

/-- `none` where the function throws. -/
structure AuthLib (Digest : Type) where
  net : AddressTests
  hashCredential : String → Digest
  compare : String → String → Option Bool
  scrypt : (token : String) → (salt : List UInt8) → (keylen N r p : Nat) → Option (List UInt8)
  hmacSha256 : String → List UInt8 → List UInt8
  toBase64url : List UInt8 → String
  fromBase64url : String → List UInt8

variable {Digest : Type}

/-! ## 1. The password -/

def isLegacyPasswordHash (hash : String) : Bool := "$2".toList.isPrefixOf hash.toList

def isBase64urlChar (c : Char) : Bool := c.isAlphanum || c = '_' || c = '-'

section

variable (lib : AuthLib Digest)

/-- `N`, `r`, `p`, the salt and the key of `scrypt$<N>$<r>$<p>$<salt>$<hash>`. -/
def parseScrypt (hash : String) : Option (Nat × Nat × Nat × List UInt8 × List UInt8) :=
  match splitOnChar '$' hash with
  | ["scrypt", N, r, p, salt, expected] =>
    if salt ≠ "" ∧ salt.toList.all isBase64urlChar ∧ expected ≠ "" ∧
        expected.toList.all isBase64urlChar then
      match decimal N, decimal r, decimal p with
      | some N, some r, some p =>
        some (N, r, p, lib.fromBase64url salt, lib.fromBase64url expected)
      | _, _, _ => none
    else none
  | _ => none

/-- What a token that was not verified before is compared to: `none` where that throws. -/
def comparePassword (token hash : String) : Option Bool :=
  if isLegacyPasswordHash hash then lib.compare token hash
  else
    match parseScrypt lib hash with
    | none => some false
    | some (N, r, p, salt, expected) =>
      (lib.scrypt token salt expected.length N r p).map fun actual => decide (actual = expected)

def verifiedCacheLimit : Nat := 64

abbrev VerifiedPasswords (Digest : Type) := JsMap (String × Digest) Unit

/-- A key that is remembered already keeps its place; the oldest go where there are too many. -/
def rememberVerified [DecidableEq Digest] (verified : VerifiedPasswords Digest)
    (key : String × Digest) : VerifiedPasswords Digest :=
  let verified := verified.set key ()
  (verified.keys.take (verified.size - verifiedCacheLimit)).foldl JsMap.delete verified

/-! ## 2. Requests and answers -/

inductive BearerPrincipal where
  | device (device : DeviceRecord)
  | password
  | localToken
  deriving DecidableEq

inductive RejectReason where
  | unclaimed | missingToken | invalidToken | rateLimited
  deriving DecidableEq

inductive BearerDecision where
  | ok (principal : BearerPrincipal)
  | rejected (reason : RejectReason)
  deriving DecidableEq

inductive AgentMcpAuthorization where
  | ok (callerAgentId : Option String)
  | rejected (status : Nat)
  deriving DecidableEq

inductive AuthRequest where
  | bearerSync (req : RequestLike) (token : Option String)
  | bearerAsync (req : RequestLike) (token : Option String)
  | tunnelled (token : Option String) (clientKeyOverride : String)
  | realCredential (req : RequestLike) (token : Option String) (minimumRole : DeviceRole)
  | agentMcp (req : RequestLike) (capabilityToken authorizationHeader : Option String)
  deriving DecidableEq

inductive AuthAnswer where
  | bearer (decision : BearerDecision)
  | credential (real : Bool)
  | agentMcp (authorization : AgentMcpAuthorization)
  | thrown
  deriving DecidableEq

/-- A verification that a request awaits. -/
structure Verification where
  request : AuthRequest
  key : String
  token : String
  password : String
  memoized : Bool
  deriving DecidableEq

/-- What a request comes to at once; a refusal is answered after a failure of the key is recorded. -/
inductive Begun where
  | answered (answer : AuthAnswer)
  | refused (key : String) (answer : AuthAnswer)
  | verifying (verification : Verification)
  deriving DecidableEq

/-! ## 3. The decisions -/

structure AuthState (Digest : Type) where
  store : ClaimStore Digest
  limiter : AuthFailureLimiter
  verifiedPasswords : VerifiedPasswords Digest
  password : Option String
  localToken : Option String
  trustedProxies : TrustedProxiesSetting

/-- The parts of a text between its runs of white space. -/
def splitSpaces : List Char → List (List Char)
  | [] => []
  | c :: cs =>
    if isJsWhitespace c then splitSpaces cs
    else
      match cs, splitSpaces cs with
      | [], _ => [[c]]
      | c' :: _, parts =>
        if isJsWhitespace c' then [c] :: parts
        else match parts with
          | [] => [[c]]
          | part :: rest => (c :: part) :: rest

def extractHttpBearerToken (value : Option String) : Option String :=
  match (splitSpaces (value.getD "").toList).map String.ofList with
  | ["Bearer", token] => some token
  | _ => none

def roleRank : DeviceRole → Nat
  | .viewer => 0
  | .operator => 1
  | .owner => 2

def roleSatisfies (role required : DeviceRole) : Bool :=
  decide (roleRank required ≤ roleRank role)

def agentMcpTokenPrefix : String := "fam1"

/-- `fam1.<agentId base64url>.<HMAC-SHA256(secret, agentId)>` -/
def deriveAgentMcpToken (secret agentId : String) : String :=
  agentMcpTokenPrefix ++ "." ++ lib.toBase64url (textEncode agentId) ++ "." ++
    lib.toBase64url (lib.hmacSha256 secret (textEncode agentId))

/-- `buffer.toString("utf8")` -/
def utf8Text (bytes : List UInt8) : String := String.ofList (Utf8State.decode Utf8State.idle bytes)

def verifyAgentMcpToken (secret token : String) : Option String :=
  match splitOnChar '.' token with
  | [tokenPrefix, id, mac] =>
    if tokenPrefix = agentMcpTokenPrefix ∧ id ≠ "" ∧ mac ≠ "" then
      let agentId := utf8Text (lib.fromBase64url id)
      if (splitOnChar '.' (deriveAgentMcpToken lib secret agentId))[2]? = some mac then
        some agentId
      else none
    else none
  | _ => none

end

namespace AuthState

section Decisions

variable [DecidableEq Digest] (lib : AuthLib Digest)

def recordFailure (options : AuthFailureLimiterOptions) (s : AuthState Digest) (key : String)
    (now : Nat) : AuthState Digest :=
  { s with limiter := s.limiter.recordFailure options key now }

def recordSuccess (s : AuthState Digest) (key : String) (now : Nat) : AuthState Digest :=
  { s with limiter := s.limiter.recordSuccess key now }

def isBlocked (s : AuthState Digest) (key : String) (now : Nat) : Bool :=
  s.limiter.isBlocked key now

def clientKey (s : AuthState Digest) (req : RequestLike) : String :=
  Server.clientKey lib.net req s.trustedProxies

variable (s : AuthState Digest)

/-- An empty hash counts as none. -/
def configuredPassword : Option String := s.password.filter (· ≠ "")

variable (stat : FileStat) (now : Nat)

def resolveDevice (token : String) : AuthState Digest × Option (Option DeviceRecord) :=
  match s.store.findDeviceByToken lib.hashCredential token with
  | (store, none) => ({ s with store }, none)
  | (store, some none) => ({ s with store }, some none)
  | (store, some (some device)) =>
    match store.touchLastSeen stat device.id now with
    | (store, none) => ({ s with store }, none)
    | (store, some ()) => ({ s with store }, some (some device))

def matchesLocalToken (req : RequestLike) (token : String) : Bool :=
  isLoopbackClient lib.net req s.trustedProxies && token ≠ "" && s.localToken = some token

def hasSecrets : AuthState Digest × Option Bool :=
  if s.configuredPassword.isSome then (s, some true)
  else
    let (store, claimed) := s.store.isClaimed
    ({ s with store }, claimed)

section

variable (request : AuthRequest)

/-- The verification of a token against the password, with what is remembered of it. -/
def verification (key token password : String) : Verification :=
  { request, key, token, password
    memoized := s.verifiedPasswords.has (password, lib.hashCredential token) }

/-- What is left when the token is not known: the throttle, then the password. -/
def checkPassword (key : String) (now : Nat) (token : Option String) : AuthState Digest × Begun :=
  if s.isBlocked key now then (s, .answered (.bearer (.rejected .rateLimited)))
  else
    match s.hasSecrets with
    | (s, none) => (s, .answered .thrown)
    | (s, some false) => (s, .answered (.bearer (.rejected .unclaimed)))
    | (s, some true) =>
      match token, s.configuredPassword with
      | none, _ => (s, .answered (.bearer (.rejected .missingToken)))
      | some _, none => (s, .refused key (.bearer (.rejected .invalidToken)))
      | some token, some password =>
        (s, .verifying (s.verification lib request key token password))

/-- `preDecide` up to the password. -/
def beginBearer (req : RequestLike) (token : Option String) : AuthState Digest × Begun :=
  match token with
  | none => s.checkPassword lib request (s.clientKey lib req) now none
  | some text =>
    match s.resolveDevice lib stat now text with
    | (s, none) => (s, .answered .thrown)
    | (s, some (some device)) => (s, .answered (.bearer (.ok (.device device))))
    | (s, some none) =>
      if s.matchesLocalToken lib req text then (s, .answered (.bearer (.ok .localToken)))
      else s.checkPassword lib request (s.clientKey lib req) now (some text)

end

/-- `authorizeTunnelledCredential` -/
def beginTunnelled (token : Option String)
    (clientKeyOverride : String) : AuthState Digest × Begun :=
  let request := .tunnelled token clientKeyOverride
  match token with
  | none => s.checkPassword lib request clientKeyOverride now none
  | some text =>
    match s.resolveDevice lib stat now text with
    | (s, none) => (s, .answered .thrown)
    | (s, some (some device)) => (s, .answered (.bearer (.ok (.device device))))
    | (s, some none) => s.checkPassword lib request clientKeyOverride now (some text)

/-- `hasRealCredential` -/
def beginRealCredential (req : RequestLike)
    (token : Option String) (minimumRole : DeviceRole) : AuthState Digest × Begun :=
  match token with
  | none => (s, .answered (.credential false))
  | some text =>
    match s.resolveDevice lib stat now text with
    | (s, none) => (s, .answered .thrown)
    | (s, some (some device)) =>
      (s, .answered (.credential (roleSatisfies device.role minimumRole)))
    | (s, some none) =>
      if s.matchesLocalToken lib req text then (s, .answered (.credential true))
      else
        let key := s.clientKey lib req
        match s.configuredPassword with
        | none => (s, .answered (.credential false))
        | some password =>
          if s.isBlocked key now then (s, .answered (.credential false))
          else
            let request := .realCredential req token minimumRole
            (s, .verifying (s.verification lib request key text password))

/-- `authorizeAgentMcpRequest`; the `mcp` transport is admitted at `operator`. -/
def beginAgentMcp (req : RequestLike)
    (capabilityToken authorizationHeader : Option String) : AuthState Digest × Begun :=
  match extractHttpBearerToken authorizationHeader with
  | none => (s, .answered (.agentMcp (.rejected 401)))
  | some token =>
    match (capabilityToken.filter (· ≠ "")).bind fun secret =>
        match (verifyAgentMcpToken lib secret token).filter (· ≠ "") with
        | some agentId => some (some agentId)
        | none => if token = secret then some none else none with
    | some callerAgentId => (s, .answered (.agentMcp (.ok callerAgentId)))
    | none =>
      match s.resolveDevice lib stat now token with
      | (s, none) => (s, .answered .thrown)
      | (s, some (some device)) =>
        if roleSatisfies device.role .operator then (s, .answered (.agentMcp (.ok none)))
        else (s, .answered (.agentMcp (.rejected 403)))
      | (s, some none) =>
        let key := s.clientKey lib req
        if s.isBlocked key now then (s, .answered (.agentMcp (.rejected 429)))
        else
          match s.configuredPassword with
          | none => (s, .refused key (.agentMcp (.rejected 401)))
          | some password =>
            let request := .agentMcp req capabilityToken authorizationHeader
            (s, .verifying (s.verification lib request key token password))

variable (request : AuthRequest)

/-- A request up to the verification of its token, or to its answer. -/
def beginRequest : AuthState Digest × Begun :=
  match request with
  | .bearerSync req token | .bearerAsync req token =>
    s.beginBearer lib stat now request req token
  | .tunnelled token clientKeyOverride =>
    s.beginTunnelled lib stat now token clientKeyOverride
  | .realCredential req token minimumRole =>
    s.beginRealCredential lib stat now req token minimumRole
  | .agentMcp req capabilityToken authorizationHeader =>
    s.beginAgentMcp lib stat now req capabilityToken authorizationHeader

/-- The answer of a request whose token is, or is not, the password. -/
def answerOf (ok : Bool) : AuthAnswer :=
  match request with
  | .bearerSync .. | .bearerAsync .. | .tunnelled .. =>
    .bearer (if ok then .ok .password else .rejected .invalidToken)
  | .realCredential .. => .credential ok
  | .agentMcp .. => .agentMcp (if ok then .ok none else .rejected 401)

/-- What `verifyDaemonPassword` comes to. -/
def outcome (v : Verification) : Option Bool :=
  if v.memoized then some true else comparePassword lib v.token v.password

def remember (v : Verification) : AuthState Digest :=
  if v.memoized then s
  else { s with
    verifiedPasswords := rememberVerified s.verifiedPasswords
      (v.password, lib.hashCredential v.token) }

variable (options : AuthFailureLimiterOptions) (s : AuthState Digest)

/-- From the verification on. -/
def finish (now : Nat) (v : Verification) : AuthState Digest × AuthAnswer :=
  match outcome lib v with
  | none => (s, .thrown)
  | some true => ((s.remember lib v).recordSuccess v.key now, answerOf v.request true)
  | some false => (s.recordFailure options v.key now, answerOf v.request false)

/-- A request that nothing comes between: what it changes and its answer. -/
def decide (stat : FileStat)
    (now later : Nat) (request : AuthRequest) : AuthState Digest × AuthAnswer :=
  match s.beginRequest lib stat now request with
  | (s, .answered answer) => (s, answer)
  | (s, .refused key answer) => (s.recordFailure options key now, answer)
  | (s, .verifying v) => s.finish lib options later v

end Decisions

end AuthState

/-! ## 4. Routes -/

def selfAuthenticatingRoutes : List String :=
  ["/api/files/download", "/mcp/agents", "/api/setup/offer"]

def publicRoutes : List String :=
  ["/api/health", "/api/identity", "/api/identity/proof", "/api/setup/status", "/api/setup/claim",
    "/api/setup/request", "/api/auth/login"]

def isBearerFreeRoute (path : String) : Bool :=
  "/api/setup/request/".toList.isPrefixOf path.toList || publicRoutes.contains path ||
    selfAuthenticatingRoutes.contains path

variable (method path : String)

def shouldBypassBearerAuth : Bool :=
  method = "OPTIONS" || isBearerFreeRoute path

def requiredRoleForHttpRoute (path : String) : DeviceRole :=
  if path = "/api/status" ∨ path = "/api/files/download" then .viewer
  else if path = "/api/setup/offer" then .owner
  else .operator

/-- A principal that is not a device is the owner. -/
def roleForPrincipal : BearerPrincipal → DeviceRole
  | .device device => device.role
  | .password | .localToken => .owner

inductive RouteVerdict where
  | next
  | status (code : Nat) (unclaimed : Bool)
  deriving DecidableEq

/-- The middleware of `createRequireBearerMiddleware`, with the decision about the bearer. -/
def requireBearer (decision : BearerDecision) : RouteVerdict :=
  if shouldBypassBearerAuth method path then .next
  else
    match decision with
    | .rejected .rateLimited => .status 429 false
    | .rejected reason => .status 401 (reason = .unclaimed)
    | .ok principal =>
      if roleSatisfies (roleForPrincipal principal) (requiredRoleForHttpRoute path) then .next
      else .status 403 false

/-- **A route that asks for a bearer** lets nobody in below its role. -/
theorem requireBearer_next {method path : String} {decision : BearerDecision}
    (h : requireBearer method path decision = .next) :
    shouldBypassBearerAuth method path = true ∨ ∃ principal, decision = .ok principal ∧
      roleSatisfies (roleForPrincipal principal) (requiredRoleForHttpRoute path) = true := by
  unfold requireBearer at h
  split at h
  · exact .inl ‹_›
  · split at h
    · cases h
    · cases h
    · split at h
      · exact .inr ⟨_, rfl, ‹_›⟩
      · cases h

namespace AuthState

/-! ## 5. What a request does before its verification -/

/-- Only the store is another: its cache, and the last-seen time of a device that was found. -/
def OnlyStore (s s' : AuthState Digest) : Prop := s' = { s with store := s'.store }

theorem OnlyStore.refl (s : AuthState Digest) : OnlyStore s s := rfl

theorem OnlyStore.limiter {s s' : AuthState Digest} (h : OnlyStore s s') :
    s'.limiter = s.limiter := by
  rw [h]

theorem OnlyStore.trans {s s' s'' : AuthState Digest} (h : OnlyStore s s')
    (h' : OnlyStore s' s'') : OnlyStore s s'' := by
  unfold OnlyStore at h h' ⊢
  rw [h', h]

variable {s s' : AuthState Digest}

theorem hasSecrets_onlyStore : OnlyStore s s.hasSecrets.1 := by
  unfold hasSecrets
  split <;> rfl

variable [DecidableEq Digest] {lib : AuthLib Digest} {stat : FileStat} {now : Nat}
  {request : AuthRequest}

theorem resolveDevice_onlyStore (token : String) :
    OnlyStore s (s.resolveDevice lib stat now token).1 := by
  unfold resolveDevice
  split
  · rfl
  · rfl
  · split <;> rfl

/-- What a request that goes on to verify a token has passed: the throttle, for the password that
    is configured. -/
structure Verifies (lib : AuthLib Digest) (s : AuthState Digest) (now : Nat)
    (request : AuthRequest) (v : Verification) : Prop where
  request : v.request = request
  notBlocked : s.isBlocked v.key now = false
  password : s.configuredPassword = some v.password
  memoized : v.memoized = s.verifiedPasswords.has (v.password, lib.hashCredential v.token)

theorem OnlyStore.verifies (h : OnlyStore s s') {v : Verification}
    (hv : Verifies lib s' now request v) : Verifies lib s now request v := by
  rw [h] at hv
  exact { hv with }

theorem verifies_verification {key token password : String} (hblocked : s.isBlocked key now = false)
    (hpassword : s.configuredPassword = some password) :
    Verifies lib s now request (s.verification lib request key token password) :=
  ⟨rfl, hblocked, hpassword, rfl⟩

/-- The store is all that a request changes before its verification, which it comes to with the
    throttle open. -/
def BeginsFrom (lib : AuthLib Digest) (s : AuthState Digest) (now : Nat) (request : AuthRequest)
    (result : AuthState Digest × Begun) : Prop :=
  OnlyStore s result.1 ∧ ∀ v, result.2 = .verifying v → Verifies lib s now request v

theorem beginsFrom_of_store {result : AuthState Digest × Begun} (h : OnlyStore s s')
    (hresult : BeginsFrom lib s' now request result) : BeginsFrom lib s now request result :=
  ⟨h.trans hresult.1, fun v hv => h.verifies (hresult.2 v hv)⟩

theorem beginsFrom_answered (answer : AuthAnswer) :
    BeginsFrom lib s now request (s, .answered answer) :=
  ⟨.refl s, fun _ hv => nomatch hv⟩

theorem beginsFrom_refused (key : String) (answer : AuthAnswer) :
    BeginsFrom lib s now request (s, .refused key answer) :=
  ⟨.refl s, fun _ hv => nomatch hv⟩

theorem beginsFrom_verifying {key token password : String}
    (hblocked : s.isBlocked key now = false) (hpassword : s.configuredPassword = some password) :
    BeginsFrom lib s now request
      (s, .verifying (s.verification lib request key token password)) := by
  refine ⟨.refl s, fun v hv => ?_⟩
  obtain rfl := Begun.verifying.inj hv
  exact verifies_verification hblocked hpassword

theorem checkPassword_beginsFrom (key : String) (token : Option String) :
    BeginsFrom lib s now request (s.checkPassword lib request key now token) := by
  unfold checkPassword
  split
  · exact beginsFrom_answered _
  · rename_i hblocked
    have hblocked := Bool.eq_false_iff.mpr hblocked
    have hstore := @hasSecrets_onlyStore _ s
    split
    · rename_i s' heq; rw [heq] at hstore; exact beginsFrom_of_store hstore (beginsFrom_answered _)
    · rename_i s' heq; rw [heq] at hstore; exact beginsFrom_of_store hstore (beginsFrom_answered _)
    · rename_i s' heq
      rw [heq] at hstore
      have hlimiter : s'.limiter = s.limiter := hstore.limiter
      have hblocked' : s'.isBlocked key now = false := by
        unfold isBlocked at hblocked ⊢
        rwa [hlimiter]
      refine beginsFrom_of_store hstore ?_
      split
      · exact beginsFrom_answered _
      · exact beginsFrom_refused _ _
      · exact beginsFrom_verifying hblocked' ‹_›

theorem beginRequest_beginsFrom (stat : FileStat) :
    BeginsFrom lib s now request (s.beginRequest lib stat now request) := by
  have hbearer : ∀ req token, BeginsFrom lib s now request
      (s.beginBearer lib stat now request req token) := by
    intro req token
    unfold beginBearer
    split
    · exact checkPassword_beginsFrom _ _
    · rename_i text
      have hstore := @resolveDevice_onlyStore _ s _ lib stat now text
      split <;> rename_i heq <;> rw [heq] at hstore
      · exact beginsFrom_of_store hstore (beginsFrom_answered _)
      · exact beginsFrom_of_store hstore (beginsFrom_answered _)
      · refine beginsFrom_of_store hstore ?_
        split
        · exact beginsFrom_answered _
        · exact checkPassword_beginsFrom _ _
  cases request with
  | bearerSync req token => exact hbearer req token
  | bearerAsync req token => exact hbearer req token
  | tunnelled token key =>
    show BeginsFrom lib s now _ (s.beginTunnelled lib stat now token key)
    unfold beginTunnelled
    split
    · exact checkPassword_beginsFrom _ _
    · rename_i text
      have hstore := @resolveDevice_onlyStore _ s _ lib stat now text
      split <;> rename_i heq <;> rw [heq] at hstore
      · exact beginsFrom_of_store hstore (beginsFrom_answered _)
      · exact beginsFrom_of_store hstore (beginsFrom_answered _)
      · exact beginsFrom_of_store hstore (checkPassword_beginsFrom _ _)
  | realCredential req token minimumRole =>
    show BeginsFrom lib s now _ (s.beginRealCredential lib stat now req token minimumRole)
    unfold beginRealCredential
    split
    · exact beginsFrom_answered _
    · rename_i text
      have hstore := @resolveDevice_onlyStore _ s _ lib stat now text
      split <;> rename_i heq <;> rw [heq] at hstore
      · exact beginsFrom_of_store hstore (beginsFrom_answered _)
      · exact beginsFrom_of_store hstore (beginsFrom_answered _)
      · refine beginsFrom_of_store hstore ?_
        split
        · exact beginsFrom_answered _
        · dsimp only
          split
          · exact beginsFrom_answered _
          · split
            · exact beginsFrom_answered _
            · exact beginsFrom_verifying (Bool.eq_false_iff.mpr ‹_›) ‹_›
  | agentMcp req capabilityToken authorizationHeader =>
    show BeginsFrom lib s now _
      (s.beginAgentMcp lib stat now req capabilityToken authorizationHeader)
    unfold beginAgentMcp
    split
    · exact beginsFrom_answered _
    · rename_i token _
      split
      · exact beginsFrom_answered _
      · have hstore := @resolveDevice_onlyStore _ s _ lib stat now token
        split <;> rename_i heq <;> rw [heq] at hstore
        · exact beginsFrom_of_store hstore (beginsFrom_answered _)
        · refine beginsFrom_of_store hstore ?_
          split <;> exact beginsFrom_answered _
        · refine beginsFrom_of_store hstore ?_
          dsimp only
          split
          · exact beginsFrom_answered _
          · split
            · exact beginsFrom_refused _ _
            · exact beginsFrom_verifying (Bool.eq_false_iff.mpr ‹_›) ‹_›

end AuthState

end Frogg.Server
