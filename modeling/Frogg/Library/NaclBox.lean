/-
  Subject:   The box of NaCl: X25519, XSalsa20 and Poly1305 over lists of bytes.
-/
import Mathlib.Data.List.Basic

namespace Frogg.Library.NaclBox

open List

/-! ## 1. Bytes and words -/

def littleEndian (bytes : List UInt8) : Nat := bytes.foldr (fun b n => b.toNat + 256 * n) 0

def toLittleEndian : Nat → Nat → List UInt8
  | 0, _ => []
  | length + 1, n => UInt8.ofNat (n % 256) :: toLittleEndian length (n / 256)

def words (bytes : List UInt8) : Nat → List Nat
  | 0 => []
  | count + 1 => littleEndian (bytes.take 4) :: words (bytes.drop 4) count

def wordSize : Nat := 0x100000000

def rotateLeft (n r : Nat) : Nat := (n <<< r) % wordSize ||| (n >>> (32 - r))

/-! ## 2. X25519 -/

/-- 2²⁵⁵ - 19 -/
def prime : Nat := 0x7fffffffffffffffffffffffffffffffffffffffffffffffffffffffffffffed

def modPow (base : Nat) : Nat → Nat → Nat
  | 0, _ => 1
  | bits + 1, e =>
    let half := modPow base bits (e / 2)
    if e % 2 = 1 then half * half % prime * base % prime else half * half % prime

structure Ladder where
  x2 : Nat
  z2 : Nat
  x3 : Nat
  z3 : Nat

def Ladder.swap (l : Ladder) : Ladder := ⟨l.x3, l.z3, l.x2, l.z2⟩

def Ladder.next (u : Nat) (l : Ladder) : Ladder :=
  let a := (l.x2 + l.z2) % prime
  let b := (l.x2 + (prime - l.z2)) % prime
  let aa := a * a % prime
  let bb := b * b % prime
  let e := (aa + (prime - bb)) % prime
  let da := (l.x3 + (prime - l.z3)) % prime * a % prime
  let cb := (l.x3 + l.z3) % prime * b % prime
  let sum := (da + cb) % prime
  let difference := (da + (prime - cb)) % prime
  ⟨aa * bb % prime, e * (aa + 121665 * e) % prime, sum * sum % prime,
    u * (difference * difference % prime) % prime⟩

/-- The ladder over the bits of `scalar` below `bits`, the high ones first. -/
def ladder (u scalar : Nat) : Nat → Ladder → Ladder
  | 0, l => l
  | bits + 1, l =>
    ladder u scalar bits
      (if scalar >>> bits % 2 = 1 then (l.swap.next u).swap else l.next u)

/-- The three lowest bits cleared, bit 254 set and those above cleared. -/
def clamp (scalar : Nat) : Nat := scalar % (1 <<< 254) / 8 * 8 + 1 <<< 254

def scalarMult (secretKey publicKey : List UInt8) : List UInt8 :=
  let u := littleEndian (publicKey.take 32) % (1 <<< 255) % prime
  let l := ladder u (clamp (littleEndian (secretKey.take 32))) 255 ⟨1, 0, u, 1⟩
  toLittleEndian 32 (l.x2 * modPow l.z2 255 (prime - 2) % prime)

def basePoint : List UInt8 := toLittleEndian 32 9

/-! ## 3. Salsa20 -/

def addRotateXor (state : List Nat) : Nat × Nat × Nat × Nat → List Nat
  | (target, a, b, r) =>
    state.set target (state.getD target 0 ^^^
      rotateLeft ((state.getD a 0 + state.getD b 0) % wordSize) r)

def columnRound : List (Nat × Nat × Nat × Nat) :=
  [(4, 0, 12, 7), (8, 4, 0, 9), (12, 8, 4, 13), (0, 12, 8, 18),
    (9, 5, 1, 7), (13, 9, 5, 9), (1, 13, 9, 13), (5, 1, 13, 18),
    (14, 10, 6, 7), (2, 14, 10, 9), (6, 2, 14, 13), (10, 6, 2, 18),
    (3, 15, 11, 7), (7, 3, 15, 9), (11, 7, 3, 13), (15, 11, 7, 18)]

def rowRound : List (Nat × Nat × Nat × Nat) :=
  [(1, 0, 3, 7), (2, 1, 0, 9), (3, 2, 1, 13), (0, 3, 2, 18),
    (6, 5, 4, 7), (7, 6, 5, 9), (4, 7, 6, 13), (5, 4, 7, 18),
    (11, 10, 9, 7), (8, 11, 10, 9), (9, 8, 11, 13), (10, 9, 8, 18),
    (12, 15, 14, 7), (13, 12, 15, 9), (14, 13, 12, 13), (15, 14, 13, 18)]

def doubleRounds (state : List Nat) : Nat → List Nat
  | 0 => state
  | count + 1 => doubleRounds ((columnRound ++ rowRound).foldl addRotateXor state) count

variable (key input : List UInt8)

/-- "expand 32-byte k", the key and the input as a square of words. -/
def expand : List Nat :=
  let k := words key 8
  [0x61707865] ++ k.take 4 ++ [0x3320646e] ++ words input 4 ++ [0x79622d32] ++ k.drop 4 ++
    [0x6b206574]

def salsa20 : List UInt8 :=
  (zipWith (fun a b => (a + b) % wordSize) (expand key input)
    (doubleRounds (expand key input) 10)).flatMap (toLittleEndian 4)

def hsalsa20 : List UInt8 :=
  let state := doubleRounds (expand key input) 10
  [0, 5, 10, 15, 6, 7, 8, 9].flatMap fun i => toLittleEndian 4 (state.getD i 0)

def xsalsa20Blocks (subkey nonce : List UInt8) : Nat → Nat → List UInt8
  | 0, _ => []
  | count + 1, i =>
    salsa20 subkey (nonce.drop 16 ++ toLittleEndian 8 i) ++ xsalsa20Blocks subkey nonce count (i + 1)

/-- At least `length` bytes of key stream. -/
def keyStream (key nonce : List UInt8) (length : Nat) : List UInt8 :=
  xsalsa20Blocks (hsalsa20 key (nonce.take 16)) nonce (length / 64 + 1) 0

/-! ## 4. Poly1305 -/

def poly1305Sum (r : Nat) : Nat → List UInt8 → Nat → Nat
  | 0, _, acc => acc
  | blocks + 1, bytes, acc =>
    if bytes = [] then acc
    else
      let chunk := bytes.take 16
      poly1305Sum r blocks (bytes.drop 16)
        ((acc + littleEndian chunk + 1 <<< (8 * chunk.length)) * r % (1 <<< 130 - 5))

def poly1305 (key bytes : List UInt8) : List UInt8 :=
  let r := littleEndian (key.take 16) &&& 0x0ffffffc0ffffffc0ffffffc0fffffff
  let s := littleEndian ((key.drop 16).take 16)
  toLittleEndian 16 (poly1305Sum r (bytes.length / 16 + 1) bytes 0 + s)

/-! ## 5. The box -/

/-- Bytes xored with a key stream; past its end they stay. -/
def xorBytes : List UInt8 → List UInt8 → List UInt8
  | b :: bytes, k :: stream => (b ^^^ k) :: xorBytes bytes stream
  | bytes, _ => bytes

def boxBefore (publicKey secretKey : List UInt8) : List UInt8 :=
  hsalsa20 (scalarMult secretKey publicKey) (replicate 16 0)

variable (nonce key ciphertext : List UInt8)

/-- The tag of a ciphertext: its key is the start of the stream. -/
def tag : List UInt8 :=
  poly1305 ((keyStream key nonce (32 + ciphertext.length)).take 32) ciphertext

def xorStream (nonce key bytes : List UInt8) : List UInt8 :=
  xorBytes bytes ((keyStream key nonce (32 + bytes.length)).drop 32)

def boxAfter (plaintext nonce key : List UInt8) : List UInt8 :=
  tag nonce key (xorStream nonce key plaintext) ++ xorStream nonce key plaintext

def boxOpenAfter (box nonce key : List UInt8) : Option (List UInt8) :=
  if box.length < 16 then none
  else if tag nonce key (box.drop 16) = box.take 16 then some (xorStream nonce key (box.drop 16))
  else none

theorem length_toLittleEndian (length n : Nat) : (toLittleEndian length n).length = length := by
  induction length generalizing n with
  | zero => rfl
  | succ length ih => rw [toLittleEndian, length_cons, ih]

variable (bytes stream : List UInt8)

theorem xorBytes_length : (xorBytes bytes stream).length = bytes.length := by
  induction bytes generalizing stream with
  | nil => cases stream <;> rfl
  | cons b bytes ih =>
    cases stream with
    | nil => rfl
    | cons k stream => rw [xorBytes, length_cons, ih, length_cons]

/-- Xor with a key stream undoes itself. -/
theorem xorBytes_xorBytes : xorBytes (xorBytes bytes stream) stream = bytes := by
  induction bytes generalizing stream with
  | nil => cases stream <;> rfl
  | cons b bytes ih =>
    cases stream with
    | nil => rfl
    | cons k stream => rw [xorBytes, xorBytes, ih, UInt8.xor_assoc, UInt8.xor_self, UInt8.xor_zero]

theorem xorStream_xorStream (nonce key bytes : List UInt8) :
    xorStream nonce key (xorStream nonce key bytes) = bytes := by
  unfold xorStream
  rw [xorBytes_length, xorBytes_xorBytes]

theorem length_tag : (tag nonce key ciphertext).length = 16 :=
  length_toLittleEndian _ _

/-- **Opening inverts boxing.** -/
theorem boxOpenAfter_boxAfter (plaintext nonce key : List UInt8) :
    boxOpenAfter (boxAfter plaintext nonce key) nonce key = some plaintext := by
  have htag := length_tag nonce key (xorStream nonce key plaintext)
  unfold boxOpenAfter boxAfter
  rw [drop_left' htag, take_left' htag, xorStream_xorStream, if_pos rfl,
    if_neg (by rw [length_append, htag]; omega)]

end Frogg.Library.NaclBox
