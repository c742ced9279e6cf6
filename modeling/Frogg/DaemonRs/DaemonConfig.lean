/-
  Subject:   The same files as the Rust front reads them (daemon_config.rs).

  A structure is read from an object, in which a property that is looked for stands once at most;
  unknown ones are passed over. The other spellings that the deserializer knows, a list for an
  object or an object for a role, are none that the Node daemon reads.
-/
import Frogg.DaemonRs.Hostnames
import Frogg.Server.HomeFiles
import Mathlib.Data.Option.Basic

namespace Frogg.DaemonRs

open List

open Library
open Server (HomeFiles DeviceRole CredentialRecord PrincipalRecord LegacyCredential
  LegacyPrincipal Sha256Hex)
open Server.PidLock (boolean)

/-! ## 1. Deserializing -/

section

variable (raw : Json)

/-- The property, `some none` where it is missing; `none` where it stands twice. -/
def property? (name : String) : Option (Option Json) :=
  match raw with
  | .object fields =>
    match fields.filter fun e => e.1 = name with
    | [] => some none
    | [e] => some (some e.2)
    | _ => none
  | _ => none

variable {α : Type} (read : Json → Option α)

/-- An `Option` with a default: missing and `null` are `None`. -/
def optionalProperty (raw : Json) (name : String) : Option (Option α) :=
  match property? raw name with
  | none => none
  | some none => some none
  | some (some .null) => some none
  | some (some value) => (read value).map some

/-- A `Vec` with a default. -/
def vecProperty (raw : Json) (name : String) : Option (List α) :=
  match property? raw name with
  | none => none
  | some none => some []
  | some (some (.array elements)) => elements.mapM read
  | some (some _) => none

def requiredProperty (raw : Json) (name : String) : Option α :=
  match property? raw name with
  | some (some value) => read value
  | _ => none

/-! ## 2. `principals.json` -/

inductive Role where
  | viewer | operator | owner
  deriving DecidableEq

def Role.rank : Role → Nat
  | .viewer => 0
  | .operator => 1
  | .owner => 2

/-- `role >= required`, in the order of the declaration. -/
def Role.atLeast (role required : Role) : Bool := required.rank ≤ role.rank

def readRole (value : Json) : Option Role :=
  match Json.string? value with
  | some "viewer" => some .viewer
  | some "operator" => some .operator
  | some "owner" => some .owner
  | _ => none

structure Credential where
  sha256 : String
  role : Option Role

structure Principal where
  credentials : List Credential

structure PrincipalsFile where
  claimedAt : Option String
  principals : List Principal

def readCredential : Option Credential := do
  let sha256 ← requiredProperty Json.string? raw "sha256"
  let role ← optionalProperty readRole raw "role"
  return { sha256, role }

def readPrincipal : Option Principal := do
  let credentials ← vecProperty readCredential raw "credentials"
  return { credentials }

def readPrincipalsFile : Option PrincipalsFile := do
  let claimedAt ← optionalProperty Json.string? raw "claimedAt"
  let principals ← vecProperty readPrincipal raw "principals"
  return { claimedAt, principals }

/-! ## 3. `config.json` -/

structure AuthSection where
  password : Option String
  trustLan : Option Bool
  claimMode : Option Bool

structure CorsSection where
  allowedOrigins : List String

structure DaemonSection where
  listen : Option String
  cors : Option CorsSection
  auth : Option AuthSection
  trustLan : Option Bool
  hostnames : Option Hostnames
  allowedHosts : Option Hostnames
  allowPairingHostname : Option Bool

def DaemonSection.default : DaemonSection := ⟨none, none, none, none, none, none, none⟩

/-- `false` is no documented value and stands for the defaults. -/
def readHostnames : Json → Option Hostnames
  | .bool true => some .every
  | .bool false => some (.list [])
  | .array elements => (elements.mapM Json.string?).map .list
  | _ => none

def readAuthSection : Option AuthSection := do
  let password ← optionalProperty Json.string? raw "password"
  let trustLan ← optionalProperty boolean raw "trustLan"
  let claimMode ← optionalProperty boolean raw "claimMode"
  return { password, trustLan, claimMode }

def readCorsSection : Option CorsSection := do
  let allowedOrigins ← vecProperty Json.string? raw "allowedOrigins"
  return { allowedOrigins }

def readDaemonSection : Option DaemonSection := do
  let listen ← optionalProperty Json.string? raw "listen"
  let cors ← optionalProperty readCorsSection raw "cors"
  let auth ← optionalProperty readAuthSection raw "auth"
  let trustLan ← optionalProperty boolean raw "trustLan"
  let hostnames ← optionalProperty readHostnames raw "hostnames"
  let allowedHosts ← optionalProperty readHostnames raw "allowedHosts"
  let allowPairingHostname ← optionalProperty boolean raw "allowPairingHostname"
  return { listen, cors, auth, trustLan, hostnames, allowedHosts, allowPairingHostname }

/-- `PersistedConfig` -/
def readConfig : Option DaemonSection :=
  (optionalProperty readDaemonSection raw "daemon").map fun daemon => daemon.getD .default

end

/-! ## 4. The configuration of the checks -/

/-- One paired device. -/
structure Device where
  sha256 : String
  role : Role

structure AuthConfig where
  passwordHash : Option String
  devices : List Device
  claimedAt : Bool
  localToken : Option String
  trustLan : Bool
  claimMode : Bool

def Credential.device (credential : Credential) : Device :=
  { sha256 := credential.sha256, role := credential.role.getD .owner }

/-- `read_json(..).unwrap_or_default()` -/
def readOrDefault {α : Type} (read : Json → Option α) (default : α) (file : Option Json) : α :=
  (file.bind read).getD default

def readPrincipals (home : HomeFiles) : PrincipalsFile :=
  readOrDefault readPrincipalsFile ⟨none, []⟩ home.principals

def readDaemon (home : HomeFiles) : DaemonSection :=
  readOrDefault readConfig .default home.config

/-- `build_auth`; `defaultTrustLan` is the brand's. -/
def buildAuth (defaultTrustLan : Bool) (home : HomeFiles) (envPasswordHash : Option String) :
    AuthConfig :=
  let principals := readPrincipals home
  let daemon := readDaemon home
  { passwordHash := envPasswordHash.or (daemon.auth.bind AuthSection.password)
    devices := (principals.principals.flatMap Principal.credentials).map Credential.device
    claimedAt := principals.claimedAt.isSome
    localToken := (home.localToken.map rustTrim).filter (· ≠ "")
    trustLan := ((daemon.auth.bind AuthSection.trustLan).or daemon.trustLan).getD defaultTrustLan
    claimMode := (daemon.auth.bind AuthSection.claimMode).getD false }

/-- Neither file is unreadable here. -/
structure Reads (home : HomeFiles) : Prop where
  principals : ∀ raw, home.principals = some raw → (readPrincipalsFile raw).isSome = true
  config : ∀ raw, home.config = some raw → (readConfig raw).isSome = true

/-! ## 5. What both read is the same -/

def Role.ofDevice : DeviceRole → Role
  | .viewer => .viewer
  | .operator => .operator
  | .owner => .owner

section Agreement

variable {α β : Type}

theorem lookup_eq_head (name : String) (fields : List (String × Json)) :
    fields.lookup name = ((fields.filter fun e => e.1 = name).head?).map Prod.snd := by
  induction fields with
  | nil => rfl
  | cons e fields ih =>
    obtain ⟨key, value⟩ := e
    rw [lookup_cons, filter_cons]
    by_cases h : key = name
    · simp [h]
    · have hne : (name == key) = false := beq_false_of_ne (Ne.symm h)
      rw [hne, if_neg (by simpa using h)]
      exact ih

variable {raw : Json} {name : String}

/-- A property that stands once is the one that counts. -/
theorem field_of_property {value : Option Json} (h : property? raw name = some value) :
    raw.field? name = value := by
  cases raw with
  | object fields =>
    show fields.reverse.lookup name = value
    rw [lookup_eq_head, filter_reverse]
    unfold property? at h
    dsimp only at h
    split at h <;> rename_i hfilter
    · rw [hfilter]; exact Option.some.inj h
    · rw [hfilter]; exact Option.some.inj h
    · cases h
  | null | bool | number | string | array => cases h

variable {read : Json → Option β}

/-- An optional property, where `null` is no value for the Node daemon. -/
theorem optionalProperty_rel {check : Json → Option α} {R : α → β → Prop}
    (hnull : check .null = none) (hread : ∀ v a b, check v = some a → read v = some b → R a b)
    {checked : Option α} {value : Option β}
    (hcheck : Server.PidLock.optionalField check raw name = some checked)
    (h : optionalProperty read raw name = some value) : Option.Rel R checked value := by
  unfold optionalProperty at h
  split at h
  · cases h
  · rename_i hproperty
    unfold Server.PidLock.optionalField at hcheck
    rw [field_of_property hproperty] at hcheck
    obtain rfl := Option.some.inj hcheck
    obtain rfl := Option.some.inj h
    exact .none
  · rename_i hproperty
    unfold Server.PidLock.optionalField at hcheck
    rw [field_of_property hproperty] at hcheck
    simp [hnull] at hcheck
  · rename_i v _ hproperty
    unfold Server.PidLock.optionalField at hcheck
    rw [field_of_property hproperty] at hcheck
    obtain ⟨a, ha, rfl⟩ := Option.map_eq_some_iff.mp hcheck
    obtain ⟨b, hb, rfl⟩ := Option.map_eq_some_iff.mp h
    exact .some (hread v a b ha hb)

variable {f : α → β}

theorem optionalProperty_eq {check : Json → Option α} (hnull : check .null = none)
    (hread : ∀ v a b, check v = some a → read v = some b → b = f a) {checked : Option α}
    {value : Option β} (hcheck : Server.PidLock.optionalField check raw name = some checked)
    (h : optionalProperty read raw name = some value) : value = checked.map f := by
  cases optionalProperty_rel hnull hread hcheck h with
  | none => rfl
  | some heq => exact congrArg some heq

section

variable {element : Json → Option α}
  (hread : ∀ v a b, element v = some a → read v = some b → b = f a)
include hread

theorem mapM_eq {elements : List Json} {checked : List α} {values : List β}
    (hcheck : elements.mapM element = some checked) (h : elements.mapM read = some values) :
    values = checked.map f := by
  induction elements generalizing checked values with
  | nil => cases hcheck; cases h; rfl
  | cons v elements ih =>
    simp only [mapM_cons, Option.bind_eq_bind, Option.bind_eq_some_iff] at hcheck h
    obtain ⟨a, ha, rest, hrest, hchecked⟩ := hcheck
    obtain ⟨b, hb, others, hothers, hvalues⟩ := h
    cases hchecked
    cases hvalues
    rw [hread v a b ha hb, ih hrest hothers, map_cons]

theorem vecProperty_eq {checked : List α} {values : List β}
    (hcheck : Server.arrayField element raw name = some checked)
    (h : vecProperty read raw name = some values) : values = checked.map f := by
  obtain ⟨array, hfield, helements⟩ := Option.bind_eq_some_iff.mp hcheck
  unfold vecProperty at h
  split at h
  · cases h
  · rename_i hproperty; rw [field_of_property hproperty] at hfield; cases hfield
  · rename_i elements hproperty
    rw [field_of_property hproperty] at hfield
    obtain rfl := Option.some.inj hfield
    exact mapM_eq hread helements h
  · cases h

end

end Agreement

section Principals

/-- The part of a record that the Rust front keeps. -/
def Credential.ofRecord (record : CredentialRecord Sha256Hex) : Credential :=
  { sha256 := record.sha256.val, role := record.role.map Role.ofDevice }

def Credential.ofLegacy (record : LegacyCredential Sha256Hex) : Credential :=
  { sha256 := record.sha256.val, role := none }

def Principal.ofRecord (record : PrincipalRecord Sha256Hex) : Principal :=
  { credentials := record.credentials.map Credential.ofRecord }

def Principal.ofLegacy (record : LegacyPrincipal Sha256Hex) : Principal :=
  { credentials := record.credentials.map Credential.ofLegacy }

variable {raw : Json}

theorem field_of_strict {names : List String} {name : String}
    (h : Server.strictObject names raw = true) (hname : name ∉ names) : raw.field? name = none := by
  cases raw with
  | object fields =>
    refine lookup_eq_none_iff.mpr fun e he => ?_
    have hin := all_eq_true.mp h e (mem_reverse.mp he)
    rw [contains_iff_mem] at hin
    exact bne_iff_ne.mpr fun heq => hname (heq ▸ hin)
  | null | bool | number | string | array => rfl

theorem sha256_eq {digest : Sha256Hex} {text : String}
    (hcheck : Server.sha256Field raw = some digest)
    (h : requiredProperty Json.string? raw "sha256" = some text) : text = digest.val := by
  obtain ⟨checked, hchecked, hvalid⟩ := Option.bind_eq_some_iff.mp hcheck
  unfold requiredProperty at h
  split at h
  · rename_i value hproperty
    unfold Server.PidLock.textField at hchecked
    rw [field_of_property hproperty] at hchecked
    obtain rfl : text = checked := Option.mem_unique h hchecked
    split at hvalid
    · rw [← Option.some.inj hvalid]
    · cases hvalid
  · cases h

variable (value : Json)

theorem role_eq (checked : DeviceRole) (role : Role)
    (hcheck : Server.enumOf Server.deviceRoles value = some checked)
    (h : readRole value = some role) : role = Role.ofDevice checked := by
  obtain ⟨name, hname, hlookup⟩ := Option.bind_eq_some_iff.mp hcheck
  unfold readRole at h
  rw [hname] at h
  split at h
  case h_4 => cases h
  all_goals
    rename_i heq
    obtain rfl := Option.some.inj heq
    obtain rfl := Option.some.inj h
    cases hlookup
    rfl

theorem credential_eq (record : CredentialRecord Sha256Hex) (credential : Credential)
    (hcheck : Server.parseCredential value = some record)
    (h : readCredential value = some credential) : credential = .ofRecord record := by
  simp only [Server.parseCredential, readCredential, Option.bind_eq_bind,
    Option.bind_eq_some_iff] at hcheck h
  obtain ⟨-, -, id, -, digest, hdigest, createdAt, -, name, -, role, hrole, via, -, seen, -, client,
    -, hrecord⟩ := hcheck
  obtain ⟨text, htext, role', hrole', hcredential⟩ := h
  cases hrecord
  cases hcredential
  rw [sha256_eq hdigest htext, optionalProperty_eq rfl role_eq hrole hrole']
  rfl

theorem legacyCredential_eq (record : LegacyCredential Sha256Hex) (credential : Credential)
    (hcheck : Server.parseLegacyCredential value = some record)
    (h : readCredential value = some credential) : credential = .ofLegacy record := by
  simp only [Server.parseLegacyCredential, readCredential, Option.bind_eq_bind,
    Option.bind_eq_some_iff] at hcheck h
  obtain ⟨_, hstrict, id, -, digest, hdigest, createdAt, -, label, -, hrecord⟩ := hcheck
  obtain ⟨text, htext, role, hrole, hcredential⟩ := h
  cases hrecord
  cases hcredential
  have hmissing : value.field? "role" = none := by
    unfold guard at hstrict
    split at hstrict
    · exact field_of_strict ‹_› (by decide)
    · cases hstrict
  have hnone : role = none := by
    unfold optionalProperty at hrole
    split at hrole
    · cases hrole
    · exact (Option.some.inj hrole).symm
    · exact (Option.some.inj hrole).symm
    · rename_i hproperty; rw [field_of_property hproperty] at hmissing; cases hmissing
  rw [sha256_eq hdigest htext, hnone]
  rfl

theorem principal_eq (record : PrincipalRecord Sha256Hex) (principal : Principal)
    (hcheck : Server.parsePrincipal value = some record) (h : readPrincipal value = some principal) :
    principal = .ofRecord record := by
  simp only [Server.parsePrincipal, readPrincipal, Option.bind_eq_bind,
    Option.bind_eq_some_iff] at hcheck h
  obtain ⟨-, -, id, -, label, -, createdAt, -, permissions, -, records, hrecords, hrecord⟩ := hcheck
  obtain ⟨credentials, hcredentials, hprincipal⟩ := h
  cases hrecord
  cases hprincipal
  rw [vecProperty_eq credential_eq hrecords hcredentials]
  rfl

theorem legacyPrincipal_eq (record : LegacyPrincipal Sha256Hex) (principal : Principal)
    (hcheck : Server.parseLegacyPrincipal value = some record)
    (h : readPrincipal value = some principal) : principal = .ofLegacy record := by
  simp only [Server.parseLegacyPrincipal, readPrincipal, Option.bind_eq_bind,
    Option.bind_eq_some_iff] at hcheck h
  obtain ⟨-, -, id, -, label, -, createdAt, -, permissions, -, records, hrecords, hrecord⟩ := hcheck
  obtain ⟨credentials, hcredentials, hprincipal⟩ := h
  cases hrecord
  cases hprincipal
  rw [vecProperty_eq legacyCredential_eq hrecords hcredentials]
  rfl

/-- The device that a record is for the Rust front. -/
def Device.ofRecord (record : CredentialRecord Sha256Hex) : Device :=
  { sha256 := record.sha256.val, role := Role.ofDevice (record.role.getD .owner) }

/-- What the Rust front knows of the file that the Node daemon has read. -/
structure SamePrincipals (read : PrincipalsFile) (file : Server.PrincipalsFile Sha256Hex) :
    Prop where
  claimedAt : read.claimedAt.filter (· ≠ "") = file.claimedAt.filter (· ≠ "")
  devices : (read.principals.flatMap Principal.credentials).map Credential.device =
    file.credentials.map fun e => Device.ofRecord e.2

theorem flatMap_map_congr {α β β' γ : Type} {f : α → List β} {g : α → List β'} {m : β → γ}
    {n : β' → γ} {l : List α} (h : ∀ a, (f a).map m = (g a).map n) :
    (l.flatMap f).map m = (l.flatMap g).map n := by
  rw [map_flatMap, map_flatMap]
  exact congrArg (l.flatMap ·) (funext h)

theorem legacy_devices (records : List (LegacyPrincipal Sha256Hex)) :
    ((records.map Principal.ofLegacy).flatMap Principal.credentials).map Credential.device =
      (Server.PrincipalsFile.credentials
        (⟨none, records.map Server.upgradePrincipal⟩ : Server.PrincipalsFile Sha256Hex)).map
          fun e => Device.ofRecord e.2 := by
  unfold Server.PrincipalsFile.credentials
  rw [flatMap_map, flatMap_map]
  refine flatMap_map_congr fun record => ?_
  simp only [Principal.ofLegacy, Server.upgradePrincipal, map_map]
  rfl

theorem record_devices (claimedAt : Option String) (records : List (PrincipalRecord Sha256Hex)) :
    ((records.map Principal.ofRecord).flatMap Principal.credentials).map Credential.device =
      (Server.PrincipalsFile.credentials ⟨claimedAt, records⟩).map
        fun e => Device.ofRecord e.2 := by
  rw [flatMap_map]
  refine flatMap_map_congr fun record => ?_
  simp only [Principal.ofRecord, map_map]
  refine map_congr_left fun credential _ => ?_
  show Device.mk _ _ = Device.mk _ _
  cases hrole : credential.role <;> simp [Credential.ofRecord, hrole, Role.ofDevice]

/-- **Of a file that both read they know the same devices**, of either version. -/
theorem samePrincipals {file : Server.PrincipalsFile Sha256Hex} {upgraded : Bool}
    {read : PrincipalsFile}
    (hnode : Server.upgradePrincipalsFile (Server.storedPrincipals raw) = some (file, upgraded))
    (h : readPrincipalsFile raw = some read) : SamePrincipals read file := by
  have htext : ∀ (v : Json) (a b : String), Json.string? v = some a → Json.string? v = some b →
      b = id a := fun v a b ha hb => Option.mem_unique hb ha
  simp only [readPrincipalsFile, Option.bind_eq_bind, Option.bind_eq_some_iff] at h
  obtain ⟨claimedAt, hclaimedAt, principals, hprincipals, hread⟩ := h
  cases hread
  unfold Server.storedPrincipals at hnode
  split at hnode
  · cases hparse : Server.parseLegacyFile raw with
    | none => rw [hparse] at hnode; cases hnode
    | some legacy =>
      rw [hparse] at hnode
      simp only [Server.parseLegacyFile, Option.bind_eq_bind, Option.bind_eq_some_iff] at hparse
      obtain ⟨-, -, claimedAt', hclaimedAt', records, hrecords, hlegacy⟩ := hparse
      cases hlegacy
      simp only [Option.elim_some, Server.upgradePrincipalsFile] at hnode
      split at hnode
      · cases hnode
        refine ⟨?_, ?_⟩
        · rw [optionalProperty_eq rfl htext hclaimedAt' hclaimedAt, Option.map_id]
          cases claimedAt' with
          | none => rfl
          | some text => by_cases hempty : text = "" <;> simp [Option.filter_some, hempty]
        · rw [vecProperty_eq legacyPrincipal_eq hrecords hprincipals]; exact legacy_devices records
      · cases hnode
  · split at hnode
    · cases hparse : Server.parsePrincipalsFile raw with
      | none => rw [hparse] at hnode; cases hnode
      | some current =>
        rw [hparse] at hnode
        simp only [Server.parsePrincipalsFile, Option.bind_eq_bind,
          Option.bind_eq_some_iff] at hparse
        obtain ⟨-, -, claimedAt', hclaimedAt', records, hrecords, hcurrent⟩ := hparse
        cases hcurrent
        simp only [Option.elim_some, Server.upgradePrincipalsFile] at hnode
        split at hnode
        · cases hnode
          refine ⟨?_, ?_⟩
          · rw [optionalProperty_eq rfl htext hclaimedAt' hclaimedAt, Option.map_id]; rfl
          · rw [vecProperty_eq principal_eq hrecords hprincipals]
            exact record_devices claimedAt' records
        · cases hnode
    · cases hnode

end Principals

section Config

variable {raw : Json}

theorem authSection_password (value : Json) (checked : Server.DaemonAuthSection)
    (read : AuthSection) (hcheck : Server.parseDaemonAuth value = some checked)
    (h : readAuthSection value = some read) : read.password = checked.password := by
  simp only [Server.parseDaemonAuth, readAuthSection, Option.bind_eq_bind,
    Option.bind_eq_some_iff] at hcheck h
  obtain ⟨-, -, password, hpassword, trustLan, -, claimMode, -, claimScope, -, hchecked⟩ := hcheck
  obtain ⟨password', hpassword', trustLan', -, claimMode', -, hsection⟩ := h
  cases hchecked
  cases hsection
  have hsame := optionalProperty_eq (f := id) rfl (fun v a b ha hb =>
    Option.some.inj (hb.symm.trans (Option.filter_eq_some_iff.mp ha).1)) hpassword hpassword'
  rw [hsame, Option.map_id]
  rfl

theorem daemonSection_password (value : Json) (checked : Option Server.DaemonAuthSection)
    (read : DaemonSection) (hcheck : (if value.isObject then
      Server.PidLock.optionalField Server.parseDaemonAuth value "auth" else none) = some checked)
    (h : readDaemonSection value = some read) :
    read.auth.bind AuthSection.password = checked.bind Server.DaemonAuthSection.password := by
  split at hcheck
  · simp only [readDaemonSection, Option.bind_eq_bind, Option.bind_eq_some_iff] at h
    obtain ⟨listen, -, cors, -, auth, hauth, trustLan, -, hostnames, -, allowed, -, pairing, -,
      hread⟩ := h
    cases hread
    cases optionalProperty_rel rfl authSection_password hcheck hauth with
    | none => rfl
    | some hsame => exact hsame
  · cases hcheck

/-- **Of a configuration that both read they know the same password.** -/
theorem config_password {password : Option String} {read : DaemonSection}
    (hnode : Server.readPassword (some raw) = some password) (h : readConfig raw = some read) :
    read.auth.bind AuthSection.password = password := by
  obtain ⟨auth, hauth, rfl⟩ := Option.map_eq_some_iff.mp hnode
  rw [Server.persistedAuth_password hauth]
  obtain ⟨daemon, hdaemon, rfl⟩ := Option.map_eq_some_iff.mp h
  unfold Server.persistedAuth at hauth
  split at hauth
  · obtain ⟨checked, hchecked, rfl⟩ := Option.map_eq_some_iff.mp hauth
    cases optionalProperty_rel rfl daemonSection_password hchecked hdaemon with
    | none => rfl
    | some hsame => simpa using hsame
  · cases hauth

end Config

end Frogg.DaemonRs
