/-
  Subject:   Whom the Rust front lets in (auth.rs), and through which routes (http_routes.rs and
             `gate_daemon_route` of main.rs).

  `sha256` and `verify` are the digest and `bcrypt::verify(..).unwrap_or(false)`.
-/
import Frogg.DaemonRs.DaemonConfig

namespace Frogg.DaemonRs

open Server (hexValue)

/-! ## 1. Digests -/

/-- `u8::from_str_radix(pair, 16)`, which takes a plus sign before a digit. -/
def hexPair? (a b : Char) : Option UInt8 :=
  match (if a = '+' then some 0 else hexValue a), hexValue b with
  | some high, some low => some (UInt8.ofNat (high * 16 + low))
  | _, _ => none

/-- `hex_decode` of an ASCII text. -/
def hexDecode : List Char → Option (List UInt8)
  | [] => some []
  | [_] => none
  | a :: b :: rest => do
    let byte ← hexPair? a b
    let bytes ← hexDecode rest
    return byte :: bytes

def hexDigit (n : Nat) : Char := if n < 10 then Char.ofNat (48 + n) else Char.ofNat (87 + n)

/-- `digest("hex")` -/
def hexEncode (bytes : List UInt8) : List Char :=
  bytes.flatMap fun byte => [hexDigit (byte.toNat / 16), hexDigit (byte.toNat % 16)]

/-! ## 2. Decisions -/

inductive Decision where
  | ok (role : Role)
  | unclaimed | missingToken | invalidToken
  deriving DecidableEq

section Decisions

variable (sha256 : String → List UInt8) (verify : String → String → Bool)

def considerDevice (token : String) (matched : Option Role) (device : Device) : Option Role :=
  match hexDecode device.sha256.toList with
  | some expected => if expected = sha256 token then some device.role else matched
  | none => matched

def matchDevice (token : String) (devices : List Device) : Option Role :=
  devices.foldl (considerDevice sha256 token) none

namespace AuthConfig

variable (config : AuthConfig)

def isClaimed : Bool := config.claimedAt || !config.devices.isEmpty

def hasSecrets : Bool := config.passwordHash.isSome || config.isClaimed

variable (client : Locality)

def needsBearer : Bool :=
  isAuthRequired config.passwordHash.isSome client (config.trustLan && !config.claimMode)

def knownCredential (token : String) : Option Role :=
  match matchDevice sha256 token config.devices with
  | some role => some role
  | none =>
    match config.localToken with
    | none => none
    | some expected => if client = .loopback ∧ expected = token then some .owner else none

def authorize (token : Option String) : Decision :=
  match token with
  | none =>
    if config.needsBearer client = false then .ok .owner
    else if config.hasSecrets then .missingToken else .unclaimed
  | some token =>
    match config.knownCredential sha256 client token with
    | some role => .ok role
    | none =>
      if config.needsBearer client ∧ config.hasSecrets = false then .unclaimed
      else
        match config.passwordHash with
        | some hash => if verify token hash then .ok .owner else .invalidToken
        | none => .invalidToken

end AuthConfig

/-- The role of a caller that is admitted. -/
def Decision.role? : Decision → Option Role
  | .ok role => some role
  | .unclaimed | .missingToken | .invalidToken => none

/-! ## 3. Routes -/

def bearerFree : List String :=
  ["/api/health", "/api/identity", "/api/identity/proof", "/api/setup/status",
    "/api/setup/claim", "/api/setup/request", "/api/auth/login", "/api/files/download"]

def bypassesBearer (method path : String) : Bool :=
  method = "OPTIONS" || "/api/setup/request/".toList.isPrefixOf path.toList ||
    bearerFree.contains path

def requiredRole (path : String) : Role :=
  if path = "/api/status" ∨ path = "/api/files/download" then .viewer
  else if path = "/api/setup/offer" then .owner
  else .operator

/-- `None`, or the status of the refusal. -/
def gateDaemonRoute (config : AuthConfig) (client : Locality) (method path : String)
    (token : Option String) : Option Nat :=
  if "/api/".toList.isPrefixOf path.toList = false ∨ bypassesBearer method path then none
  else
    match config.authorize sha256 verify client token with
    | .ok role => if role.atLeast (requiredRole path) then none else some 403
    | .unclaimed | .missingToken | .invalidToken => some 401

end Decisions

/-! ## 4. Lemmas -/

section Digests

theorem hexValue_hexDigit {n : Nat} (h : n < 16) : hexValue (hexDigit n) = some n := by
  rcases n with _ | _ | _ | _ | _ | _ | _ | _ | _ | _ | _ | _ | _ | _ | _ | _ | n
  all_goals first | rfl | omega

theorem hexDigit_ne_plus {n : Nat} (h : n < 16) : hexDigit n ≠ '+' := by
  intro hplus
  have hvalue := hexValue_hexDigit h
  rw [hplus, show hexValue '+' = none by decide] at hvalue
  cases hvalue

theorem hexDecode_hexEncode (bytes : List UInt8) : hexDecode (hexEncode bytes) = some bytes := by
  induction bytes with
  | nil => rfl
  | cons byte bytes ih =>
    have hbyte := byte.toNat_lt
    have hhigh : byte.toNat / 16 < 16 := by omega
    have hlow : byte.toNat % 16 < 16 := by omega
    have hpair : hexPair? (hexDigit (byte.toNat / 16)) (hexDigit (byte.toNat % 16)) =
        some byte := by
      unfold hexPair?
      rw [if_neg (hexDigit_ne_plus hhigh), hexValue_hexDigit hhigh, hexValue_hexDigit hlow]
      have hsum : byte.toNat / 16 * 16 + byte.toNat % 16 = byte.toNat := by omega
      simp only [hsum, UInt8.ofNat_toNat]
    show (hexPair? _ _).bind _ = _
    rw [hpair]
    show (hexDecode (hexEncode bytes)).bind _ = _
    rw [ih]
    rfl

/-- A lower-case digit. -/
def LowerHex (c : Char) : Prop := c.isDigit = true ∨ 'a' ≤ c ∧ c ≤ 'f'

theorem hexDigit_of_lower {c : Char} (h : LowerHex c) :
    ∃ n, n < 16 ∧ hexValue c = some n ∧ hexDigit n = c := by
  have hchar : ∀ n, c.toNat = n → Char.ofNat n = c := fun n hn => by rw [← hn, Char.ofNat_toNat]
  unfold hexValue hexDigit
  by_cases hdigit : c.isDigit = true
  · obtain ⟨hlow, hup⟩ := digit_of_toNat hdigit
    refine ⟨c.toNat - 48, by omega, if_pos hdigit, ?_⟩
    rw [if_pos (by omega)]
    exact hchar _ (by omega)
  · have hrange := h.resolve_left hdigit
    have hlow : 97 ≤ c.toNat := UInt32.le_iff_toNat_le.mp (Char.le_def.mp hrange.1)
    have hup : c.toNat ≤ 102 := UInt32.le_iff_toNat_le.mp (Char.le_def.mp hrange.2)
    refine ⟨c.toNat - 87, by omega, ?_, ?_⟩
    · rw [if_neg hdigit, if_pos hrange]
    · rw [if_neg (by omega)]; exact hchar _ (by omega)

theorem hexEncode_of_decode {cs : List Char} {bytes : List UInt8} (hlower : ∀ c ∈ cs, LowerHex c)
    (h : hexDecode cs = some bytes) : hexEncode bytes = cs := by
  induction cs using hexDecode.induct generalizing bytes with
  | case1 => obtain rfl := Option.some.inj h; rfl
  | case2 => cases h
  | case3 a b rest ih =>
    simp only [hexDecode, Option.bind_eq_bind, Option.bind_eq_some_iff] at h
    obtain ⟨byte, hpair, tail, htail, hbytes⟩ := h
    obtain rfl := Option.some.inj hbytes
    obtain ⟨high, hhigh, hvalue, ha⟩ := hexDigit_of_lower (hlower a (by simp))
    obtain ⟨low, hlow, hvalue', hb⟩ := hexDigit_of_lower (hlower b (by simp))
    have hplus : a ≠ '+' := ha ▸ hexDigit_ne_plus hhigh
    unfold hexPair? at hpair
    rw [if_neg hplus, hvalue, hvalue'] at hpair
    obtain rfl := Option.some.inj hpair
    have hnat : (UInt8.ofNat (high * 16 + low)).toNat = high * 16 + low := by
      rw [UInt8.toNat_ofNat']
      omega
    show hexDigit _ :: hexDigit _ :: hexEncode tail = _
    rw [hnat, ih (fun c hc => hlower c (by simp [hc])) htail,
      show (high * 16 + low) / 16 = high by omega, show (high * 16 + low) % 16 = low by omega, ha,
      hb]

/-- A digest in the file is the token's if it is the token's digest written out. -/
theorem hexDecode_iff {cs : List Char} {bytes : List UInt8} (hlower : ∀ c ∈ cs, LowerHex c) :
    hexDecode cs = some bytes ↔ cs = hexEncode bytes :=
  ⟨fun h => (hexEncode_of_decode hlower h).symm, fun h => h ▸ hexDecode_hexEncode bytes⟩

end Digests

section Devices

variable {sha256 : String → List UInt8} {token : String}

theorem considerDevice_eq (matched : Option Role) (device : Device) :
    considerDevice sha256 token matched device =
      if hexDecode device.sha256.toList = some (sha256 token) then some device.role
      else matched := by
  unfold considerDevice
  cases hexDecode device.sha256.toList with
  | none => simp
  | some expected => simp

/-- The last device whose digest is the token's. -/
theorem matchDevice_eq (devices : List Device) :
    matchDevice sha256 token devices =
      ((devices.filter fun d => hexDecode d.sha256.toList = some (sha256 token)).getLast?).map
        Device.role := by
  have hfold : ∀ (devices : List Device) (matched : Option Role),
      devices.foldl (considerDevice sha256 token) matched =
        ((devices.filter fun d => hexDecode d.sha256.toList = some (sha256 token)).getLast?.map
          Device.role).or matched := by
    intro devices
    induction devices with
    | nil => intro matched; rfl
    | cons device devices ih =>
      intro matched
      rw [List.foldl_cons, ih, List.filter_cons, considerDevice_eq]
      by_cases heq : hexDecode device.sha256.toList = some (sha256 token)
      · simp only [heq, decide_true, if_true, List.getLast?_cons]
        cases (devices.filter fun d =>
          hexDecode d.sha256.toList = some (sha256 token)).getLast? <;> rfl
      · simp [heq]
  rw [matchDevice, hfold, Option.or_none]

end Devices

end Frogg.DaemonRs
