/-
  Subject:   The paired devices of the daemon and their file (claim-store.ts).

  An operation returns the store it leaves and its answer, `none` where it throws. What comes from
  outside is an argument: the time, the random parts of a new device, and the `stat` of the file
  after a write. `Digest` is what `hashCredential` gives.
-/
import Frogg.Library.IsoDate
import Frogg.Library.JsMap

namespace Frogg.Server

open Library List

/-! ## 1. The file -/

inductive DeviceRole where
  | owner | operator | viewer
  deriving DecidableEq

/-- How a device was paired; `host` is `local`. -/
inductive PairedVia where
  | claim | offer | code | approval | password | legacy | host
  deriving DecidableEq

inductive DaemonPermission where
  | daemonRead | daemonManage | tunnelManage | accessManage | workspaceRead | workspaceWrite
  | workspaceManage | automationManage | hubExecute
  deriving DecidableEq

def daemonPermissions : List DaemonPermission :=
  [.daemonRead, .daemonManage, .tunnelManage, .accessManage, .workspaceRead, .workspaceWrite,
    .workspaceManage, .automationManage, .hubExecute]

structure LegacyCredential (Digest : Type) where
  id : String
  sha256 : Digest
  createdAt : String
  label : Option String
  deriving DecidableEq

structure LegacyPrincipal (Digest : Type) where
  id : String
  label : String
  createdAt : String
  permissions : List DaemonPermission
  credentials : List (LegacyCredential Digest)
  deriving DecidableEq

structure LegacyFile (Digest : Type) where
  claimedAt : Option String
  principals : List (LegacyPrincipal Digest)
  deriving DecidableEq

structure CredentialRecord (Digest : Type) where
  id : String
  sha256 : Digest
  createdAt : String
  name : String
  role : Option DeviceRole
  pairedVia : Option PairedVia
  lastSeenAt : Option String
  clientId : Option String
  deriving DecidableEq

structure PrincipalRecord (Digest : Type) where
  id : String
  label : String
  createdAt : String
  permissions : List DaemonPermission
  credentials : List (CredentialRecord Digest)
  deriving DecidableEq

structure PrincipalsFile (Digest : Type) where
  claimedAt : Option String
  principals : List (PrincipalRecord Digest)
  deriving DecidableEq

structure DeviceRecord where
  id : String
  name : String
  role : DeviceRole
  principalId : String
  principalLabel : String
  createdAt : String
  lastSeenAt : Option String
  pairedVia : Option PairedVia
  permissions : List DaemonPermission
  deriving DecidableEq

/-- The text of the file: of either version as to its shape, or nothing of the kind. -/
inductive StoredPrincipals (Digest : Type) where
  | legacy (file : LegacyFile Digest)
  | current (file : PrincipalsFile Digest)
  | malformed
  deriving DecidableEq

structure FileStat where
  mtimeMs : Nat
  size : Nat
  deriving DecidableEq

section Schema

variable {Digest : Type}

/-- The lengths that `LegacyFileSchema` asks for. -/
def LegacyFile.valid (file : LegacyFile Digest) : Bool :=
  file.principals.all fun principal =>
    principal.id ≠ "" && principal.label ≠ "" && principal.createdAt ≠ "" &&
      principal.credentials.all fun credential => credential.id ≠ "" && credential.createdAt ≠ ""

def CredentialRecord.valid (credential : CredentialRecord Digest) : Bool :=
  credential.id ≠ "" && credential.createdAt ≠ "" && credential.name ≠ "" &&
    credential.clientId ≠ some ""

def PrincipalRecord.valid (principal : PrincipalRecord Digest) : Bool :=
  principal.id ≠ "" && principal.label ≠ "" && principal.createdAt ≠ "" &&
    principal.credentials.all CredentialRecord.valid

/-- The lengths that `PrincipalsFileSchema` asks for. -/
def PrincipalsFile.valid (file : PrincipalsFile Digest) : Bool :=
  file.principals.all PrincipalRecord.valid

/-- `value?.trim() || fallback` -/
def trimmedOr (value : Option String) (fallback : String) : String :=
  match value with
  | none => fallback
  | some text => if jsTrim text = "" then fallback else jsTrim text

/-- A v1 credential as an owner device, named after its label or its principal. -/
def upgradeCredential (label : String) (credential : LegacyCredential Digest) :
    CredentialRecord Digest :=
  { id := credential.id, sha256 := credential.sha256, createdAt := credential.createdAt
    name := trimmedOr credential.label label, role := some .owner, pairedVia := some .legacy
    lastSeenAt := none, clientId := none }

def upgradePrincipal (principal : LegacyPrincipal Digest) : PrincipalRecord Digest :=
  { id := principal.id, label := principal.label, createdAt := principal.createdAt
    permissions := principal.permissions
    credentials := principal.credentials.map (upgradeCredential principal.label) }

/-- What a file holds and whether it was upgraded; `none` where the text does not parse. -/
def upgradePrincipalsFile : StoredPrincipals Digest → Option (PrincipalsFile Digest × Bool)
  | .legacy file =>
    if file.valid then
      some (⟨file.claimedAt.filter (· ≠ ""), file.principals.map upgradePrincipal⟩, true)
    else none
  | .current file => if file.valid then some (file, false) else none
  | .malformed => none

def toDevice (principal : PrincipalRecord Digest) (credential : CredentialRecord Digest) :
    DeviceRecord :=
  { id := credential.id, name := credential.name, role := credential.role.getD .owner
    principalId := principal.id, principalLabel := principal.label
    createdAt := credential.createdAt, lastSeenAt := credential.lastSeenAt
    pairedVia := credential.pairedVia, permissions := principal.permissions }

variable (file : PrincipalsFile Digest)

/-- Every credential with its principal, in the order of the file. -/
def PrincipalsFile.credentials : List (PrincipalRecord Digest × CredentialRecord Digest) :=
  file.principals.flatMap fun principal => principal.credentials.map (principal, ·)

/-- The same change at every credential. -/
def PrincipalsFile.mapCredentials
    (update : CredentialRecord Digest → CredentialRecord Digest) : PrincipalsFile Digest :=
  { file with
    principals := file.principals.map fun principal =>
      { principal with credentials := principal.credentials.map update } }

end Schema

/-! ## 2. The store -/

structure ClaimStore (Digest : Type) where
  file : Option (FileStat × StoredPrincipals Digest)
  cache : Option (FileStat × PrincipalsFile Digest × Bool)
  pendingLastSeen : JsMap String String
  lastPersistedAt : JsMap String Nat
  backup : Option (StoredPrincipals Digest)
  deriving DecidableEq

/-- What a new device takes from outside: two random ids and a random secret. -/
structure NewDevice where
  principalId : String
  credentialId : String
  secret : String
  deriving DecidableEq

structure MintInput where
  label : String
  deviceName : Option String
  role : Option DeviceRole
  pairedVia : Option PairedVia
  permissions : Option (List DaemonPermission)

structure MintedPrincipal where
  principalId : String
  credentialId : String
  credential : String
  permissions : List DaemonPermission
  role : DeviceRole
  deviceName : String

/-- `"password" | "local"` -/
inductive ClientVia where
  | password | host
  deriving DecidableEq

def ClientVia.pairedVia : ClientVia → PairedVia
  | .password => .password
  | .host => .host

def lastSeenWriteIntervalMs : Nat := 60000

namespace ClaimStore

variable {Digest : Type}

def createClaimStore (file : Option (FileStat × StoredPrincipals Digest)) : ClaimStore Digest :=
  ⟨file, none, .empty, .empty, none⟩

/-! ### Reading -/

section

variable (s : ClaimStore Digest)

def load : ClaimStore Digest × Option (PrincipalsFile Digest × Bool) :=
  match s.file with
  | none => ({ s with cache := none }, some (⟨none, []⟩, false))
  | some (stat, stored) =>
    match s.cache.filter (·.1 = stat) with
    | some (_, loaded) => (s, some loaded)
    | none =>
      match upgradePrincipalsFile stored with
      | none => (s, none)
      | some loaded => ({ s with cache := some (stat, loaded) }, some loaded)

variable (pending : JsMap String String)

/-- The later of the time in the file and the one not written yet. -/
def seenLately (credential : CredentialRecord Digest) : CredentialRecord Digest :=
  match (pending.get? credential.id).filter (· ≠ "") with
  | none => credential
  | some seen =>
    match credential.lastSeenAt.filter (· ≠ "") with
    | none => { credential with lastSeenAt := some seen }
    | some recorded =>
      if jsLe seen recorded then credential else { credential with lastSeenAt := some seen }

def withLastSeen (value : PrincipalsFile Digest) : PrincipalsFile Digest :=
  if pending.size = 0 then value else value.mapCredentials (seenLately pending)

def read : ClaimStore Digest × Option (PrincipalsFile Digest) :=
  let (s, loaded) := s.load
  (s, loaded.map fun l => withLastSeen s.pendingLastSeen l.1)

/-- A read operation: what the view gives. -/
def reading {α : Type} (s : ClaimStore Digest) (f : PrincipalsFile Digest → α) :
    ClaimStore Digest × Option α :=
  (s.read.1, s.read.2.map f)

/-- Latched by `claimedAt`; before that, claimed while a device other than a local one is there. -/
def isClaimed : ClaimStore Digest × Option Bool :=
  s.reading fun current =>
    decide ((current.claimedAt.filter (· ≠ "")).isSome) ||
      current.principals.any fun principal =>
        principal.credentials.any fun credential => decide (credential.pairedVia ≠ some .host)

/-- The last device of the file whose digest is the token's. -/
def findDeviceByToken [DecidableEq Digest] (hashCredential : String → Digest)
    (s : ClaimStore Digest) (token : String) : ClaimStore Digest × Option (Option DeviceRecord) :=
  s.reading fun current =>
    ((current.credentials.filter fun e => e.2.sha256 = hashCredential token).getLast?).map
      fun e => toDevice e.1 e.2

/-! ### Writing -/

def backupV1BeforeFirstWrite : ClaimStore Digest :=
  match s.file, s.backup, s.load.2 with
  | some (_, stored), none, some (_, true) => { s with backup := some stored }
  | _, _, _ => s

variable (stat : FileStat)

def write (value : PrincipalsFile Digest) : ClaimStore Digest :=
  { s.backupV1BeforeFirstWrite with
    file := some (stat, .current value), cache := none, pendingLastSeen := .empty }

variable (credentialId : String)

def mutateCredential (update : CredentialRecord Digest → CredentialRecord Digest) :
    ClaimStore Digest × Option (Option DeviceRecord) :=
  match s.read with
  | (s, none) => (s, none)
  | (s, some current) =>
    let found := (current.credentials.filter (·.2.id = credentialId)).map fun e =>
      toDevice e.1 (update e.2)
    match found.getLast? with
    | none => (s, some none)
    | some result =>
      (s.write stat (current.mapCredentials fun credential =>
        if credential.id = credentialId then update credential else credential),
        some (some result))

def renameDevice (credentialId name : String) : ClaimStore Digest × Option (Option DeviceRecord) :=
  if jsTrim name = "" then (s, some none)
  else s.mutateCredential stat credentialId fun credential =>
    { credential with name := jsTrim name }

def setCredentialRole (role : DeviceRole) : ClaimStore Digest × Option Bool :=
  let (s, result) := s.mutateCredential stat credentialId fun credential =>
    { credential with role := some role }
  (s, result.map Option.isSome)

def touchLastSeen (now : Nat) : ClaimStore Digest × Option Unit :=
  let iso := IsoDate.toISOString now
  let s := { s with pendingLastSeen := s.pendingLastSeen.set credentialId iso }
  let last := (s.lastPersistedAt.get? credentialId).getD 0
  if (now : Int) - last < lastSeenWriteIntervalMs then (s, some ())
  else
    let s := { s with lastPersistedAt := s.lastPersistedAt.set credentialId now }
    let (s, result) := s.mutateCredential stat credentialId fun credential =>
      { credential with lastSeenAt := some iso }
    (s, result.map fun _ => ())

/-- The file without the credential, and without a principal that has none. -/
def withoutCredential (current : PrincipalsFile Digest) (credentialId : String) :
    PrincipalsFile Digest :=
  { current with
    principals := (current.principals.map fun principal =>
      { principal with credentials := principal.credentials.filter (·.id ≠ credentialId) }).filter
        fun principal => principal.credentials ≠ [] }

def revokeDevice : ClaimStore Digest × Option Bool :=
  match s.read with
  | (s, none) => (s, none)
  | (s, some current) =>
    if current.credentials.any (·.2.id = credentialId) then
      let s := s.write stat (withoutCredential current credentialId)
      ({ s with lastPersistedAt := s.lastPersistedAt.delete credentialId }, some true)
    else (s, some false)

end

section Hash

variable (hashCredential : String → Digest) (s : ClaimStore Digest)

def mintPrincipal (stat : FileStat) (fresh : NewDevice) (now : Nat)
    (input : MintInput) : ClaimStore Digest × Option MintedPrincipal :=
  match s.read with
  | (s, none) => (s, none)
  | (s, some current) =>
    let iso := IsoDate.toISOString now
    let principalLabel := trimmedOr (some input.label) "Paired device"
    let name := trimmedOr input.deviceName principalLabel
    let role := input.role.getD .owner
    let permissions := input.permissions.getD daemonPermissions
    let principal : PrincipalRecord Digest :=
      { id := fresh.principalId, label := principalLabel, createdAt := iso, permissions
        credentials := [{ id := fresh.credentialId, sha256 := hashCredential fresh.secret
                          createdAt := iso, name, role := some role
                          pairedVia := input.pairedVia, lastSeenAt := none, clientId := none }] }
    (s.write stat ⟨some (current.claimedAt.getD iso), current.principals ++ [principal]⟩,
      some ⟨fresh.principalId, fresh.credentialId, fresh.secret, permissions, role, name⟩)

def registerClientDevice (stat : FileStat) (fresh : NewDevice) (now : Nat)
    (clientId name : String) (via : ClientVia) : ClaimStore Digest × Option DeviceRecord :=
  match s.read with
  | (s, none) => (s, none)
  | (s, some current) =>
    match current.principals.findSome? fun principal =>
        (principal.credentials.find? fun entry =>
          entry.clientId = some clientId ∧ entry.pairedVia = some via.pairedVia).map
            (toDevice principal) with
    | some device => (s, some device)
    | none =>
      let iso := IsoDate.toISOString now
      let deviceName := trimmedOr (some name) "Unnamed device"
      let credential : CredentialRecord Digest :=
        { id := fresh.credentialId, sha256 := hashCredential fresh.secret, createdAt := iso
          name := deviceName, role := some .owner, pairedVia := some via.pairedVia
          lastSeenAt := none, clientId := some clientId }
      let principal : PrincipalRecord Digest :=
        { id := fresh.principalId, label := deviceName, createdAt := iso
          permissions := daemonPermissions, credentials := [credential] }
      let claimedAt := match via with
        | .password => some (current.claimedAt.getD iso)
        | .host => current.claimedAt
      (s.write stat ⟨claimedAt, current.principals ++ [principal]⟩,
        some (toDevice principal credential))

end Hash

section

variable (s : ClaimStore Digest)

/-- Writes what the file holds; the last-seen times of the memory are not part of it. -/
def migrate (stat : FileStat) : ClaimStore Digest × Option Bool :=
  match s.load with
  | (s, none) => (s, none)
  | (s, some (value, upgraded)) =>
    if upgraded then (s.write stat value, some true) else (s, some false)

def reset : ClaimStore Digest × Bool :=
  ({ s with file := none, cache := none, pendingLastSeen := .empty, lastPersistedAt := .empty },
    s.file.isSome)

/-! ## 3. The file behind the cache -/

/-- What the file holds, read without the cache. -/
def contents : Option (PrincipalsFile Digest × Bool) :=
  match s.file with
  | none => some (⟨none, []⟩, false)
  | some (_, stored) => upgradePrincipalsFile stored

/-- What the store is asked about: the file, with the last-seen times that are not in it yet. -/
def view : Option (PrincipalsFile Digest) :=
  s.contents.map fun l => withLastSeen s.pendingLastSeen l.1

/-- What is cached for a `stat` is what the file with it holds. -/
def Coherent : Prop :=
  ∀ stat loaded stored, s.cache = some (stat, loaded) → s.file = some (stat, stored) →
    upgradePrincipalsFile stored = some loaded

end

/-- Only the cache is another, and coherent. -/
structure Recached (s s' : ClaimStore Digest) : Prop where
  file : s'.file = s.file
  pendingLastSeen : s'.pendingLastSeen = s.pendingLastSeen
  lastPersistedAt : s'.lastPersistedAt = s.lastPersistedAt
  backup : s'.backup = s.backup
  coherent : s'.Coherent

section Coherence

variable {s s' : ClaimStore Digest} {stat : FileStat} {credentialId : String}

theorem coherent_of_cache (h : s.cache = none) : s.Coherent := by
  intro stat loaded stored hcache
  rw [h] at hcache
  cases hcache

theorem coherent_write (value : PrincipalsFile Digest) : (s.write stat value).Coherent :=
  coherent_of_cache rfl

theorem Recached.refl (h : s.Coherent) : Recached s s := ⟨rfl, rfl, rfl, rfl, h⟩

theorem Recached.contents (h : Recached s s') : s'.contents = s.contents := by
  unfold ClaimStore.contents
  rw [h.file]

section

variable (h : s.Coherent)
include h

theorem load_spec : Recached s s.load.1 ∧ s.load.2 = s.contents := by
  unfold load contents
  cases hfile : s.file with
  | none => exact ⟨⟨hfile.symm, rfl, rfl, rfl, coherent_of_cache rfl⟩, rfl⟩
  | some e =>
    obtain ⟨stat, stored⟩ := e
    dsimp only
    split
    · rename_i cached loaded hcached
      obtain ⟨hcache, hstat⟩ := Option.filter_eq_some_iff.mp hcached
      obtain rfl : cached = stat := of_decide_eq_true hstat
      exact ⟨.refl h, (h cached loaded stored hcache hfile).symm⟩
    · split
      · rename_i hparse; exact ⟨.refl h, hparse.symm⟩
      · rename_i loaded hparse
        refine ⟨⟨hfile.symm, rfl, rfl, rfl, fun stat' loaded' stored' hcache hfile' => ?_⟩,
          hparse.symm⟩
        obtain ⟨rfl, rfl⟩ := Prod.mk.inj (Option.some.inj hcache)
        obtain ⟨-, rfl⟩ := Prod.mk.inj (Option.some.inj hfile')
        exact hparse

theorem read_spec : Recached s s.read.1 ∧ s.read.2 = s.view := by
  obtain ⟨hcached, hloaded⟩ := load_spec h
  refine ⟨hcached, ?_⟩
  show s.load.2.map (fun l => withLastSeen s.load.1.pendingLastSeen l.1) = _
  unfold view
  rw [hloaded, hcached.pendingLastSeen]

theorem reading_spec {α : Type} (f : PrincipalsFile Digest → α) :
    Recached s (s.reading f).1 ∧ (s.reading f).2 = s.view.map f := by
  obtain ⟨hcached, hread⟩ := read_spec h
  exact ⟨hcached, congrArg (Option.map f) hread⟩

theorem isClaimed_recached : Recached s s.isClaimed.1 := (reading_spec h _).1

/-- What one of the changes to a credential does: nothing, or it writes the view with the change. -/
theorem mutateCredential_spec (update : CredentialRecord Digest → CredentialRecord Digest) :
    (Recached s (s.mutateCredential stat credentialId update).1 ∧
        ((s.mutateCredential stat credentialId update).2 = none ∧ s.view = none ∨
          (s.mutateCredential stat credentialId update).2 = some none ∧
            ∃ current, s.view = some current ∧
              ∀ e ∈ current.credentials, e.2.id ≠ credentialId)) ∨
      ∃ current before, s.view = some current ∧ Recached s before ∧
        (∃ e ∈ current.credentials, e.2.id = credentialId) ∧
        (s.mutateCredential stat credentialId update).1 =
          before.write stat (current.mapCredentials fun credential =>
            if credential.id = credentialId then update credential else credential) ∧
        ∃ device, (s.mutateCredential stat credentialId update).2 = some (some device) := by
  obtain ⟨hcached, hread⟩ := read_spec h
  unfold mutateCredential
  split
  · rename_i s' heq; rw [heq] at hcached hread; exact .inl ⟨hcached, .inl ⟨rfl, hread.symm⟩⟩
  · rename_i s' current heq
    rw [heq] at hcached hread
    dsimp only
    split
    · rename_i hfound
      refine .inl ⟨hcached, .inr ⟨rfl, current, hread.symm, fun e he hid => ?_⟩⟩
      have hnil := map_eq_nil_iff.mp (getLast?_eq_none_iff.mp hfound)
      exact absurd (mem_filter.mpr ⟨he, decide_eq_true hid⟩) (hnil ▸ not_mem_nil)
    · rename_i device hfound
      refine .inr ⟨current, s', hread.symm, hcached, ?_, rfl, device, rfl⟩
      obtain ⟨e, he, -⟩ := mem_map.mp (mem_of_getLast? hfound)
      obtain ⟨hin, hid⟩ := mem_filter.mp he
      exact ⟨e, hin, of_decide_eq_true hid⟩

end

end Coherence

end ClaimStore

end Frogg.Server
