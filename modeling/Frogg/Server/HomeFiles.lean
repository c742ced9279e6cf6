/-
  Subject:   The files of the daemon's home that decide whom it trusts, as the Node daemon reads
             them: `principals.json` (claim-store.ts), the password of `config.json`
             (persisted-config.ts, config.ts) and `local-token` (local-token.ts).

  A file is the value of its text, `none` where there is none. Of two properties of one name the
  later counts.
-/
import Frogg.Server.DaemonAuth
import Frogg.Server.PidLockFile

namespace Frogg.Server

open Option

open Library
open Server.PidLock (textField optionalField boolean)

structure HomeFiles where
  principals : Option Json
  config : Option Json
  localToken : Option String

/-! ## 1. Schemas -/

variable {α : Type}

/-- `z.enum`: the names with what they stand for. -/
def enumOf (names : List (String × α)) (value : Json) : Option α :=
  (Json.string? value).bind fun name => names.lookup name

/-- A strict object: it has no other properties. -/
def strictObject (names : List String) : Json → Bool
  | .object fields => fields.all fun e => names.contains e.1
  | _ => false

variable (element : Json → Option α)

/-- `z.array(element)` -/
def arrayOf : Json → Option (List α)
  | .array elements => elements.mapM element
  | _ => none

def arrayField (raw : Json) (name : String) : Option (List α) :=
  (raw.field? name).bind (arrayOf element)

/-! ## 2. The devices -/

def deviceRoles : List (String × DeviceRole) :=
  [("owner", .owner), ("operator", .operator), ("viewer", .viewer)]

def pairedVias : List (String × PairedVia) :=
  [("claim", .claim), ("offer", .offer), ("code", .code), ("approval", .approval),
    ("password", .password), ("legacy", .legacy), ("local", .host)]

def daemonPermissionNames : List (String × DaemonPermission) :=
  [("daemon.read", .daemonRead), ("daemon.manage", .daemonManage),
    ("tunnel.manage", .tunnelManage), ("access.manage", .accessManage),
    ("workspace.read", .workspaceRead), ("workspace.write", .workspaceWrite),
    ("workspace.manage", .workspaceManage), ("automation.manage", .automationManage),
    ("hub.execute", .hubExecute)]

/-- `/^[0-9a-f]{64}$/` -/
def isSha256Hex (text : String) : Bool :=
  text.length = 64 && text.toList.all fun c => c.isDigit || ('a' ≤ c && c ≤ 'f')

/-- The digest of a credential, as the file has it. -/
abbrev Sha256Hex := { text : String // isSha256Hex text = true }

section

variable (raw : Json)

def sha256Field : Option Sha256Hex :=
  (textField raw "sha256").bind fun text =>
    if h : isSha256Hex text = true then some ⟨text, h⟩ else none

def parseLegacyCredential : Option (LegacyCredential Sha256Hex) := do
  guard (strictObject ["id", "sha256", "createdAt", "label"] raw)
  let id ← textField raw "id"
  let sha256 ← sha256Field raw
  let createdAt ← textField raw "createdAt"
  let label ← optionalField Json.string? raw "label"
  return { id, sha256, createdAt, label }

def parseLegacyPrincipal : Option (LegacyPrincipal Sha256Hex) := do
  guard (strictObject ["id", "label", "createdAt", "permissions", "credentials"] raw)
  let id ← textField raw "id"
  let label ← textField raw "label"
  let createdAt ← textField raw "createdAt"
  let permissions ← arrayField (enumOf daemonPermissionNames) raw "permissions"
  let credentials ← arrayField parseLegacyCredential raw "credentials"
  return { id, label, createdAt, permissions, credentials }

/-- `LegacyFileSchema`, the lengths apart. -/
def parseLegacyFile : Option (LegacyFile Sha256Hex) := do
  guard (strictObject ["version", "claimedAt", "principals"] raw)
  let claimedAt ← optionalField Json.string? raw "claimedAt"
  let principals ← arrayField parseLegacyPrincipal raw "principals"
  return { claimedAt, principals }

def parseCredential : Option (CredentialRecord Sha256Hex) := do
  guard (strictObject ["id", "sha256", "createdAt", "name", "role", "pairedVia", "lastSeenAt",
    "clientId"] raw)
  let id ← textField raw "id"
  let sha256 ← sha256Field raw
  let createdAt ← textField raw "createdAt"
  let name ← textField raw "name"
  let role ← optionalField (enumOf deviceRoles) raw "role"
  let pairedVia ← optionalField (enumOf pairedVias) raw "pairedVia"
  let lastSeenAt ← optionalField Json.string? raw "lastSeenAt"
  let clientId ← optionalField Json.string? raw "clientId"
  return { id, sha256, createdAt, name, role, pairedVia, lastSeenAt, clientId }

def parsePrincipal : Option (PrincipalRecord Sha256Hex) := do
  guard (strictObject ["id", "label", "createdAt", "permissions", "credentials"] raw)
  let id ← textField raw "id"
  let label ← textField raw "label"
  let createdAt ← textField raw "createdAt"
  let permissions ← arrayField (enumOf daemonPermissionNames) raw "permissions"
  let credentials ← arrayField parseCredential raw "credentials"
  return { id, label, createdAt, permissions, credentials }

/-- `PrincipalsFileSchema`, the lengths apart. -/
def parsePrincipalsFile : Option (PrincipalsFile Sha256Hex) := do
  guard (strictObject ["version", "claimedAt", "principals"] raw)
  let claimedAt ← optionalField Json.string? raw "claimedAt"
  let principals ← arrayField parsePrincipal raw "principals"
  return { claimedAt, principals }

/-- The version, which is written as an integer. -/
def versionOf : Option Int :=
  ((raw.field? "version").bind Json.numberText?).bind Json.integer?

/-- What `upgradePrincipalsFile` finds in a file. -/
def storedPrincipals : StoredPrincipals Sha256Hex :=
  if versionOf raw = some 1 then (parseLegacyFile raw).elim .malformed .legacy
  else if versionOf raw = some 2 then (parsePrincipalsFile raw).elim .malformed .current
  else .malformed

/-! ## 3. The password and the local token -/

def isBcryptChar (c : Char) : Bool := c.isAlphanum || c = '.' || c = '/'

/-- `PasswordHashSchema`: `$2[aby]$` with a cost and 53 characters, or `scrypt$` with its parts. -/
def isPasswordHash (text : String) : Bool :=
  match splitChars '$' text.toList with
  | [[], ['2', variant], cost, hash] =>
    ['a', 'b', 'y'].contains variant && cost.length = 2 && cost.all Char.isDigit &&
      hash.length = 53 && hash.all isBcryptChar
  | [['s', 'c', 'r', 'y', 'p', 't'], N, r, p, salt, hash] =>
    [N, r, p].all (fun digits => digits ≠ [] && digits.all Char.isDigit) &&
      [salt, hash].all fun part => part ≠ [] && part.all isBase64urlChar
  | _ => false

def passwordHash (value : Json) : Option String := (Json.string? value).filter isPasswordHash

inductive ClaimScope where
  | any | host
  deriving DecidableEq

/-- `DaemonAuthSchema` -/
structure DaemonAuthSection where
  password : Option String
  trustLan : Option Bool
  claimMode : Option Bool
  claimScope : Option ClaimScope

def parseDaemonAuth : Option DaemonAuthSection := do
  guard (strictObject ["password", "trustLan", "claimMode", "claimScope"] raw)
  let password ← optionalField passwordHash raw "password"
  let trustLan ← optionalField boolean raw "trustLan"
  let claimMode ← optionalField boolean raw "claimMode"
  let claimScope ← optionalField (enumOf [("any", .any), ("local", .host)]) raw "claimScope"
  return { password, trustLan, claimMode, claimScope }

end

/-- `daemon?.auth` of a configuration; its other sections have no part in this. -/
def persistedAuth (config : Json) : Option (Option DaemonAuthSection) :=
  if config.isObject then
    (optionalField (fun daemon =>
      if daemon.isObject then optionalField parseDaemonAuth daemon "auth" else none)
      config "daemon").map join
  else none

/-- `resolveAuthConfig` without the environment: the password's hash. -/
def readPassword (config : Option Json) : Option (Option String) :=
  match config with
  | none => some none
  | some config =>
    (persistedAuth config).map fun auth =>
      (auth.bind DaemonAuthSection.password).filter (· ≠ "")

def readLocalToken (text : Option String) : Option String := (text.map jsTrim).filter (· ≠ "")

theorem optionalField_some {α : Type} {check : Json → Option α} {raw : Json} {name : String} {a : α}
    (h : optionalField check raw name = some (some a)) : ∃ value, check value = some a := by
  unfold optionalField at h
  split at h
  · cases h
  · obtain ⟨b, hb, heq⟩ := map_eq_some_iff.mp h; exact ⟨_, hb.trans heq⟩

/-- A password that is read is a hash, so there is text in it. -/
theorem persistedAuth_password {config : Json} {auth : Option DaemonAuthSection}
    (h : persistedAuth config = some auth) :
    (auth.bind DaemonAuthSection.password).filter (· ≠ "") =
      auth.bind DaemonAuthSection.password := by
  cases auth with
  | none => rfl
  | some checked =>
    unfold persistedAuth at h
    split at h
    · obtain ⟨daemon, hdaemon, hjoin⟩ := map_eq_some_iff.mp h
      obtain rfl := join_eq_some_iff.mp hjoin
      obtain ⟨value, hvalue⟩ := optionalField_some hdaemon
      split at hvalue
      · obtain ⟨raw, hraw⟩ := optionalField_some hvalue
        obtain ⟨_, -, hfields⟩ := bind_eq_some_iff.mp hraw
        obtain ⟨password, hpassword, hfields⟩ := bind_eq_some_iff.mp hfields
        obtain ⟨trustLan, -, hfields⟩ := bind_eq_some_iff.mp hfields
        obtain ⟨claimMode, -, hfields⟩ := bind_eq_some_iff.mp hfields
        obtain ⟨scope, -, hchecked⟩ := bind_eq_some_iff.mp hfields
        cases hchecked
        cases password with
        | none => rfl
        | some hash =>
          obtain ⟨text, htext⟩ := optionalField_some hpassword
          refine filter_eq_some_iff.mpr ⟨rfl, decide_eq_true fun hempty => ?_⟩
          obtain rfl := hempty
          exact absurd (filter_eq_some_iff.mp htext).2 (by decide)
      · cases hvalue
    · cases h

/-! ## 4. A daemon of these files -/

/-- The state of a daemon that has read the files: whatever it remembers besides, nobody is
    throttled and what it remembers of verified passwords is right. -/
structure AuthState.Reads (s : AuthState Sha256Hex) (lib : AuthLib Sha256Hex)
    (verify : String → String → Bool) (now : Nat) (home : HomeFiles) : Prop where
  file : s.store.file.map Prod.snd = home.principals.map storedPrincipals
  coherent : s.store.Coherent
  password : readPassword home.config = some s.password
  localToken : s.localToken = readLocalToken home.localToken
  notBlocked : ∀ key, s.isBlocked key now = false
  remembered : ∀ hash token,
    s.verifiedPasswords.has (hash, lib.hashCredential token) = true → verify token hash = true

end Frogg.Server
