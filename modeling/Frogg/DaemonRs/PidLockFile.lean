/-
  Subject:   `frogg.pid` as the Rust front writes and reads it, and that each reads the other's.
-/
import Frogg.Server.PidLockFile

namespace Frogg.DaemonRs

open Library
open Server.PidLock (BrandIdentity PidLockInfo JsNumber parsePidLockInfo readPidLock)

/-! ## 1. Reading -/

/-- `Value::as_i64` -/
def asI64 : Json → Option Int
  | .number text =>
    (Json.integer? text).filter fun n => -9223372036854775808 ≤ n ∧ n ≤ 9223372036854775807
  | _ => none

/-- The properties of the lock's `Value` that are read; it may have others. -/
structure LockValue where
  pid : Int
  startedAt : String
  brand : Option Json

def readLock (held : Option Json) : Option LockValue := do
  let value ← held
  let pid ← (value.field? "pid").bind asI64
  let startedAt ← (value.field? "startedAt").bind Json.string?
  return { pid, startedAt, brand := value.field? "brand" }

def isNull : Json → Bool
  | .null => true
  | _ => false

section

variable (brand : BrandIdentity)

/-- `LEGACY_FROGG` is that the product's id is `frogg`. -/
def matchesIdentity (value : Option Json) : Bool :=
  match value.filter fun v => !isNull v with
  | some identity =>
    (identity.field? "id").bind Json.string? = some brand.id ∧
      (identity.field? "applicationId").bind Json.string? = some brand.applicationId
  | none => brand.id = "frogg"

/-! ## 2. Writing -/

/-- The lock that `PidLock::acquire` publishes. -/
def lockJson (pid : Nat) (startedAt hostname : String) (uid : Nat) (listen : String) : Json :=
  .object
    [("brand", brand.toJson), ("pid", .number (Json.integerText pid)),
      ("startedAt", .string startedAt), ("hostname", .string hostname),
      ("uid", .number (Json.integerText uid)), ("listen", .string listen),
      ("heartbeat", .bool true)]

/-! ## 3. Each reads the other's -/

theorem asI64_integerText {n : Nat} (h : n ≤ 2147483647) :
    asI64 (.number (Json.integerText n)) = some (n : Int) := by
  show (Json.integer? (Json.integerText n)).filter _ = _
  rw [Json.integer_integerText, Option.filter_some, if_pos]
  simp
  omega

/-- **The Node daemon reads the lock of the Rust front.** -/
theorem parse_lockJson (pid : Nat) (startedAt hostname : String) (uid : Nat) (listen : String) :
    parsePidLockInfo (lockJson brand pid startedAt hostname uid listen) =
      some { brand := some brand, pid := .integer pid, startedAt, hostname, uid := .integer uid,
             listen := some listen, desktopManaged := none, heartbeat := some () } := by
  have hnumber : ∀ n : Nat, JsNumber.read (Json.integerText n) = .integer n := fun n => by
    rw [JsNumber.read, Json.integer_integerText]
  simp [parsePidLockInfo, lockJson, Json.field?, Server.PidLock.optionalField,
    Server.PidLock.numberField, Server.PidLock.textField, List.lookup_cons,
    Server.PidLock.nullableText, Json.string?, Json.numberText?,
    Server.PidLock.parseBrand, BrandIdentity.toJson, Server.PidLock.literalTrue, hnumber]

theorem readLock_lockJson {pid : Nat} (h : pid ≤ 2147483647)
    (startedAt hostname : String) (uid : Nat) (listen : String) :
    readLock (some (lockJson brand pid startedAt hostname uid listen)) =
      some { pid, startedAt, brand := some brand.toJson } := by
  simp [readLock, lockJson, Json.field?, List.lookup_cons, Json.string?, asI64_integerText h]

end

/-- **The Rust front reads the lock of the Node daemon.** -/
theorem readLock_toJson {info : PidLockInfo} {pid : Nat} (hpid : info.pid = .integer pid)
    (h : pid ≤ 2147483647) :
    readLock (some info.toJson) =
      some { pid, startedAt := info.startedAt, brand := info.brand.map BrandIdentity.toJson } := by
  obtain ⟨brand, number, startedAt, hostname, uid, listen, desktopManaged, heartbeat⟩ := info
  obtain rfl := hpid
  cases brand <;> cases desktopManaged <;> cases heartbeat <;>
    simp [readLock, PidLockInfo.toJson, Json.field?, List.lookup_cons, Json.string?, JsNumber.toJson,
      asI64_integerText h]

/-- Both take the same locks for the product's own. -/
theorem matchesIdentity_toJson (brand : BrandIdentity) (actual : Option BrandIdentity) :
    matchesIdentity brand (actual.map BrandIdentity.toJson) =
      Server.PidLock.matchesBrand brand actual := by
  cases actual with
  | none => rfl
  | some actual =>
    have hpresent : ((some actual).map BrandIdentity.toJson).filter (fun v => !isNull v) =
        some actual.toJson := rfl
    unfold matchesIdentity
    rw [hpresent]
    simp [Server.PidLock.matchesBrand, BrandIdentity.toJson, Json.field?, List.lookup_cons, Json.string?]

end Frogg.DaemonRs
