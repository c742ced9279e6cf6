/-
  Subject:   The JSON object of `frogg.pid`, as the Node daemon writes and reads it.

  What a file holds is the value of its text, `none` where the text is not JSON (empty, or cut by
  a crash).
-/
import Frogg.Library.Json

namespace Frogg.Server.PidLock

open Library

/-! ## 1. Numbers and fields -/

/-- A number, told apart by whether its text is that of an integer. -/
inductive JsNumber where
  | integer (n : Int)
  | other (text : String)
  deriving DecidableEq

def JsNumber.read (text : String) : JsNumber :=
  match Json.integer? text with
  | some n => .integer n
  | none => .other text

def JsNumber.toJson : JsNumber → Json
  | .integer n => .number (Json.integerText n)
  | .other text => .number text

def JsNumber.toInteger? : JsNumber → Option Int
  | .integer n => some n
  | .other _ => none

variable (raw : Json)

def numberField (name : String) : Option JsNumber :=
  ((raw.field? name).bind Json.numberText?).map JsNumber.read

def textField (name : String) : Option String :=
  (raw.field? name).bind Json.string?

/-- A property that may be missing. -/
def optionalField {α : Type} (check : Json → Option α) (raw : Json) (name : String) :
    Option (Option α) :=
  match raw.field? name with
  | none => some none
  | some value => (check value).map some

def nullableText : Json → Option (Option String)
  | .null => some none
  | .string s => some (some s)
  | _ => none

def boolean : Json → Option Bool
  | .bool b => some b
  | _ => none

def literalTrue : Json → Option Unit
  | .bool true => some ()
  | _ => none

/-! ## 2. The lock -/

structure BrandIdentity where
  id : String
  applicationId : String
  deriving DecidableEq

def matchesBrand (expected : BrandIdentity) : Option BrandIdentity → Bool
  | none => expected.id = "frogg"
  | some actual => actual.id = expected.id ∧ actual.applicationId = expected.applicationId

structure PidLockInfo where
  brand : Option BrandIdentity
  pid : JsNumber
  startedAt : String
  hostname : String
  uid : JsNumber
  listen : Option String
  desktopManaged : Option Bool
  heartbeat : Option Unit
  deriving DecidableEq

def parseBrand (value : Json) : Option BrandIdentity := do
  let id ← textField value "id"
  let applicationId ← textField value "applicationId"
  return { id, applicationId }

/-- `pidLockInfoSchema.safeParse`; other properties are dropped. -/
def parsePidLockInfo : Option PidLockInfo := do
  let brand ← optionalField parseBrand raw "brand"
  let pid ← numberField raw "pid"
  let startedAt ← textField raw "startedAt"
  let hostname ← textField raw "hostname"
  let uid ← numberField raw "uid"
  let listen ← (raw.field? "listen").bind nullableText
  let desktopManaged ← optionalField boolean raw "desktopManaged"
  let heartbeat ← optionalField literalTrue raw "heartbeat"
  return { brand, pid, startedAt, hostname, uid, listen, desktopManaged, heartbeat }

/-- `JSON.parse` and the schema on what a file holds. -/
def readPidLock (held : Option Json) : Option PidLockInfo := held.bind parsePidLockInfo

def BrandIdentity.toJson (brand : BrandIdentity) : Json :=
  .object [("id", .string brand.id), ("applicationId", .string brand.applicationId)]

def listenJson : Option String → Json
  | none => .null
  | some listen => .string listen

/-- The value that `JSON.stringify` writes out. -/
def PidLockInfo.toJson (info : PidLockInfo) : Json :=
  .object
    (info.brand.toList.map (fun brand => ("brand", brand.toJson)) ++
      [("pid", info.pid.toJson), ("startedAt", .string info.startedAt),
        ("hostname", .string info.hostname), ("uid", info.uid.toJson),
        ("listen", listenJson info.listen)] ++
      info.desktopManaged.toList.map (fun b => ("desktopManaged", .bool b)) ++
      info.heartbeat.toList.map fun _ => ("heartbeat", .bool true))

/-! ## 3. What was written reads back -/

/-- A number as a file's text has it: one that is no integer is not written like one. -/
def JsNumber.Written (n : JsNumber) : Prop := ∀ text, n = .other text → Json.integer? text = none

theorem read_written {n : JsNumber} (h : n.Written) :
    n.toJson.numberText?.map JsNumber.read = some n := by
  cases n with
  | integer n =>
    show some (JsNumber.read (Json.integerText n)) = _
    rw [JsNumber.read, Json.integer_integerText]
  | other text => show some (JsNumber.read text) = _; rw [JsNumber.read, h text rfl]

theorem written_of_numberField {raw : Json} {name : String} {n : JsNumber}
    (h : numberField raw name = some n) : n.Written := by
  obtain ⟨text, -, rfl⟩ := Option.map_eq_some_iff.mp h
  intro other hother
  unfold JsNumber.read at hother
  split at hother
  · cases hother
  · rename_i hnone; cases hother; exact hnone

theorem nullableText_listenJson (listen : Option String) :
    nullableText (listenJson listen) = some listen := by
  cases listen <;> rfl

/-- **What the Node daemon writes it reads back.** -/
theorem parse_toJson {info : PidLockInfo} (hpid : info.pid.Written) (huid : info.uid.Written) :
    parsePidLockInfo info.toJson = some info := by
  obtain ⟨brand, pid, startedAt, hostname, uid, listen, desktopManaged, heartbeat⟩ := info
  have hp : pid.toJson.numberText?.map JsNumber.read = some pid := read_written hpid
  have hu : uid.toJson.numberText?.map JsNumber.read = some uid := read_written huid
  -- which properties stand in the text depends on the optional ones
  cases brand <;> cases desktopManaged <;> cases heartbeat <;>
    simp [parsePidLockInfo, PidLockInfo.toJson, Json.field?, optionalField, numberField,
      textField, List.lookup_cons, nullableText_listenJson, Json.string?, parseBrand,
      BrandIdentity.toJson, boolean, literalTrue, hp, hu]

theorem numbers_of_parse {raw : Json} {info : PidLockInfo} (h : parsePidLockInfo raw = some info) :
    numberField raw "pid" = some info.pid ∧ numberField raw "uid" = some info.uid := by
  unfold parsePidLockInfo at h
  simp only [Option.bind_eq_bind, Option.bind_eq_some_iff] at h
  obtain ⟨brand, -, pid, hpid, startedAt, -, hostname, -, uid, huid, listen, -, managed, -, beat, -,
    hinfo⟩ := h
  cases hinfo
  exact ⟨hpid, huid⟩

end Frogg.Server.PidLock
