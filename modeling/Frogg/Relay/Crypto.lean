/-
  Subject:   Keys and encryption of the relay (packages/relay/src/crypto.ts, base64.ts).

  tweetnacl and base64-js are packages: their functions are the fields of `Packages`, and what the
  relay relies on is stated of them in `Packages.Lawful`. Random bytes are arguments.
-/
import Frogg.Library.JsString
import Frogg.Library.TextCodec

namespace Frogg.Relay

open Library List

abbrev Bytes := List UInt8

/-- `string | ArrayBuffer`, as applications hand it over. -/
inductive Message where
  | text (data : String)
  | bytes (data : Bytes)
  deriving DecidableEq, Repr

/-- The functions of tweetnacl and base64-js that the relay calls; `none` where they throw or
    answer null. -/
structure Packages where
  scalarMult : Bytes → Bytes → Bytes
  boxBefore : Bytes → Bytes → Bytes
  boxAfter : Bytes → Bytes → Bytes → Bytes
  boxOpenAfter : Bytes → Bytes → Bytes → Option Bytes
  fromByteArray : Bytes → String
  toByteArray : String → Option Bytes

def publicKeyLength : Nat := 32
def secretKeyLength : Nat := 32
def sharedKeyLength : Nat := 32
def nonceLength : Nat := 24

/-- `nacl.randomBytes(NONCE_LENGTH)` -/
structure Nonce where
  bytes : Bytes
  length_bytes : bytes.length = nonceLength

structure KeyPair where
  publicKey : Bytes
  secretKey : Bytes
  length_publicKey : publicKey.length = publicKeyLength
  length_secretKey : secretKey.length = secretKeyLength

/-! ## 1. Base64 -/

def isBase64Char (c : Char) : Bool :=
  ('A' ≤ c && c ≤ 'Z') || ('a' ≤ c && c ≤ 'z') || ('0' ≤ c && c ≤ '9') || c = '+' || c = '/'

/-- `/^(?:[A-Za-z0-9+/]{4})*(?:[A-Za-z0-9+/]{2}==|[A-Za-z0-9+/]{3}=)?$/` -/
def isBase64Text : List Char → Bool
  | [] => true
  | a :: b :: c :: d :: rest =>
    if rest = [] ∧ d = '=' then isBase64Char a && isBase64Char b && (c = '=' || isBase64Char c)
    else [a, b, c, d].all isBase64Char && isBase64Text rest
  | _ => false

section

variable (lib : Packages) (base64 : String)

def decodePublicKeyBase64 : Except String Bytes :=
  if jsLength base64 % 4 ≠ 0 ∨ isBase64Text base64.toList = false then
    throw "Invalid public key encoding"
  else
    match lib.toByteArray base64 with
    | none => throw "Invalid string. Length must be a multiple of 4"
    | some bytes =>
      if lib.fromByteArray bytes ≠ base64 then throw "Invalid public key encoding"
      else return bytes

def exportPublicKey (publicKey : Bytes) : Except String String :=
  if publicKey.length ≠ publicKeyLength then throw "Invalid public key length (expected 32)"
  else return lib.fromByteArray publicKey

def importPublicKey : Except String Bytes := do
  let bytes ← decodePublicKeyBase64 lib base64
  if bytes.length ≠ publicKeyLength then throw "Invalid public key length (expected 32)"
  else return bytes

def arrayBufferToBase64 (buffer : Bytes) : String := lib.fromByteArray buffer

/-- The standard alphabet for the URL-safe one. -/
def standardBase64Char (c : Char) : Char := if c = '-' then '+' else if c = '_' then '/' else c

def normalizeBase64 : String :=
  let standard := String.ofList ((jsTrim base64).toList.map standardBase64Char)
  let padLen := (4 - jsLength standard % 4) % 4
  String.ofList (standard.toList ++ replicate padLen '=')

def base64ToArrayBuffer : Except String Bytes :=
  match lib.toByteArray (normalizeBase64 base64) with
  | none => throw "Invalid string. Length must be a multiple of 4"
  | some bytes => return bytes

/-! ## 2. Keys and boxes -/

def deriveSharedKey (ourSecretKey peerPublicKey : Bytes) : Except String Bytes :=
  if ourSecretKey.length ≠ secretKeyLength then throw "Invalid secret key length (expected 32)"
  else if peerPublicKey.length ≠ publicKeyLength then
    throw "Invalid peer public key length (expected 32)"
  else if lib.scalarMult ourSecretKey peerPublicKey = replicate sharedKeyLength 0 then
    throw "Invalid peer public key"
  else return lib.boxBefore peerPublicKey ourSecretKey

def toUint8 : Message → Bytes
  | .text data => textEncode data
  | .bytes data => data

/-- The bundle: nonce, then ciphertext. -/
def encrypt (nonce : Nonce) (sharedKey : Bytes) (data : Message) : Bytes :=
  nonce.bytes ++ lib.boxAfter (toUint8 data) nonce.bytes sharedKey

def decrypt (sharedKey data : Bytes) : Except String Bytes :=
  if data.length < nonceLength then throw "Ciphertext bundle too short"
  else
    match lib.boxOpenAfter (data.drop nonceLength) (data.take nonceLength) sharedKey with
    | none => throw "Decryption failed"
    | some opened => return opened

end

/-! ## 3. What the packages promise -/

/-- Documented behaviour: opening inverts boxing, and base64 is the standard encoding, which
    decoding inverts. -/
structure Packages.Lawful (lib : Packages) : Prop where
  open_box : ∀ plaintext nonce key,
    lib.boxOpenAfter (lib.boxAfter plaintext nonce key) nonce key = some plaintext
  decode_encode : ∀ bytes, lib.toByteArray (lib.fromByteArray bytes) = some bytes
  encode_shape : ∀ bytes, isBase64Text (lib.fromByteArray bytes).toList = true
  encode_length : ∀ bytes, (lib.fromByteArray bytes).toList.length = 4 * ((bytes.length + 2) / 3)

section

variable {lib : Packages}

theorem decrypt_encrypt (laws : lib.Lawful) (nonce : Nonce) (key : Bytes) (data : Message) :
    decrypt lib key (encrypt lib nonce key data) = .ok (toUint8 data) := by
  have hlen := nonce.length_bytes
  unfold decrypt encrypt
  rw [if_neg (by rw [length_append]; omega), ← hlen, drop_left, take_left,
    laws.open_box]
  rfl

/-- A character of base64, padding included. -/
def IsBase64Letter (c : Char) : Prop := isBase64Char c = true ∨ c = '='

theorem isBase64Text_letters {cs : List Char} (h : isBase64Text cs = true) :
    ∀ c ∈ cs, IsBase64Letter c := by
  fun_induction isBase64Text cs with
  | case1 => simp
  | case2 a b c d rest hend =>
    obtain ⟨rfl, rfl⟩ := hend
    simp only [Bool.and_eq_true, Bool.or_eq_true, decide_eq_true_eq] at h
    simp only [mem_cons, not_mem_nil, or_false]
    rintro x (rfl | rfl | rfl | rfl)
    · exact .inl h.1.1
    · exact .inl h.1.2
    · exact h.2.symm
    · exact .inr rfl
  | case3 a b c d rest hend ih =>
    simp only [Bool.and_eq_true, all_eq_true] at h
    rintro x hx
    rw [show a :: b :: c :: d :: rest = [a, b, c, d] ++ rest from rfl, mem_append] at hx
    rcases hx with hx | hx
    · exact .inl (h.1 x hx)
    · exact ih h.2 x hx
  | case4 => exact absurd h (by simp)

theorem IsBase64Letter.toNat {c : Char} (h : IsBase64Letter c) :
    c.toNat = 43 ∨ (47 ≤ c.toNat ∧ c.toNat ≤ 57) ∨ c.toNat = 61 ∨
      (65 ≤ c.toNat ∧ c.toNat ≤ 90) ∨ (97 ≤ c.toNat ∧ c.toNat ≤ 122) := by
  rcases h with h | rfl
  · simp only [isBase64Char, Bool.or_eq_true, Bool.and_eq_true, decide_eq_true_eq] at h
    rcases h with (((h | h) | h) | rfl) | rfl
    · exact .inr (.inr (.inr (.inl h)))
    · exact .inr (.inr (.inr (.inr h)))
    · exact .inr (.inl ⟨Nat.le_trans (by decide) h.1, h.2⟩)
    · exact .inl rfl
    · exact .inr (.inl ⟨by decide, by decide⟩)
  · exact .inr (.inr (.inl rfl))

theorem IsBase64Letter.ne {c d : Char} (h : IsBase64Letter c)
    (hd : ¬(d.toNat = 43 ∨ (47 ≤ d.toNat ∧ d.toNat ≤ 57) ∨ d.toNat = 61 ∨
      (65 ≤ d.toNat ∧ d.toNat ≤ 90) ∨ (97 ≤ d.toNat ∧ d.toNat ≤ 122))) : c ≠ d := by
  rintro rfl
  exact hd h.toNat

theorem IsBase64Letter.not_space {c : Char} (h : IsBase64Letter c) : isJsWhitespace c = false := by
  have := h.toNat
  simp only [isJsWhitespace, Bool.or_eq_false_iff, Bool.and_eq_false_iff, decide_eq_false_iff_not]
  omega

theorem isBase64Text_length {cs : List Char} (h : isBase64Text cs = true) : cs.length % 4 = 0 := by
  fun_induction isBase64Text cs with
  | case1 => rfl
  | case2 a b c d rest hend => simp [hend.1]
  | case3 a b c d rest hend ih =>
    simp only [Bool.and_eq_true] at h
    have := ih h.2
    simp only [length_cons]
    omega
  | case4 => exact absurd h (by simp)

theorem normalizeBase64_encode (laws : lib.Lawful) (bytes : Bytes) :
    normalizeBase64 (lib.fromByteArray bytes) = lib.fromByteArray bytes := by
  have hshape := laws.encode_shape bytes
  have hletters := isBase64Text_letters hshape
  have hstandard : (lib.fromByteArray bytes).toList.map standardBase64Char =
      (lib.fromByteArray bytes).toList := by
    refine (map_congr_left fun c hc => ?_).trans (map_id _)
    have hc := hletters c hc
    rw [standardBase64Char, if_neg (hc.ne (by decide)), if_neg (hc.ne (by decide)), id]
  have hlen : jsLength (lib.fromByteArray bytes) % 4 = 0 := by
    rw [jsLength_of_basic fun c hc => ?_, isBase64Text_length hshape]
    have := (hletters c hc).toNat
    omega
  unfold normalizeBase64
  rw [jsTrim_of_no_space fun c hc => (hletters c hc).not_space, hstandard, String.ofList_toList]
  dsimp only
  rw [hlen, show (4 - 0) % 4 = 0 from rfl, replicate_zero, append_nil,
    String.ofList_toList]

/-- Base64 on the wire reads back. -/
theorem base64ToArrayBuffer_arrayBufferToBase64 (laws : lib.Lawful) (bytes : Bytes) :
    base64ToArrayBuffer lib (arrayBufferToBase64 lib bytes) = .ok bytes := by
  unfold base64ToArrayBuffer arrayBufferToBase64
  rw [normalizeBase64_encode laws, laws.decode_encode]
  rfl

theorem importPublicKey_encode (laws : lib.Lawful) {publicKey : Bytes}
    (h : publicKey.length = publicKeyLength) :
    importPublicKey lib (lib.fromByteArray publicKey) = .ok publicKey := by
  have hshape := laws.encode_shape publicKey
  have hlen : jsLength (lib.fromByteArray publicKey) % 4 = 0 := by
    rw [jsLength_of_basic fun c hc => ?_, isBase64Text_length hshape]
    have := (isBase64Text_letters hshape c hc).toNat
    omega
  have hdecode : decodePublicKeyBase64 lib (lib.fromByteArray publicKey) = .ok publicKey := by
    unfold decodePublicKeyBase64
    rw [if_neg (by simp [hlen, hshape]), laws.decode_encode]
    simp [pure, Except.pure]
  unfold importPublicKey
  rw [hdecode]
  simp [bind, Except.bind, h, pure, Except.pure]

end

end Frogg.Relay
