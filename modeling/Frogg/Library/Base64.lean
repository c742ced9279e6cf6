/-
  Subject:   Base64 with the standard alphabet and padding.
-/
import Mathlib.Data.List.Basic

namespace Frogg.Library.Base64

open List

def digit (n : Nat) : Char :=
  if n < 26 then Char.ofNat (65 + n)
  else if n < 52 then Char.ofNat (71 + n)
  else if n < 62 then Char.ofNat (n - 4)
  else if n = 62 then '+'
  else '/'

/-- The value of a digit; other characters count as 0. -/
def value (c : Char) : Nat :=
  if c.isUpper then c.toNat - 65
  else if c.isLower then c.toNat - 71
  else if c.isDigit then c.toNat + 4
  else if c = '+' then 62
  else if c = '/' then 63
  else 0

def encode : List UInt8 → List Char
  | [] => []
  | [a] => [digit (a.toNat / 4), digit (a.toNat % 4 * 16), '=', '=']
  | [a, b] =>
    [digit (a.toNat / 4), digit (a.toNat % 4 * 16 + b.toNat / 16), digit (b.toNat % 16 * 4), '=']
  | a :: b :: c :: rest =>
    digit (a.toNat / 4) :: digit (a.toNat % 4 * 16 + b.toNat / 16) ::
      digit (b.toNat % 16 * 4 + c.toNat / 64) :: digit (c.toNat % 64) :: encode rest

def decode : List Char → Option (List UInt8)
  | [] => some []
  | a :: b :: c :: d :: rest =>
    let first := UInt8.ofNat (value a * 4 + value b / 16)
    let second := UInt8.ofNat (value b % 16 * 16 + value c / 4)
    let third := UInt8.ofNat (value c % 4 * 64 + value d)
    if rest = [] ∧ d = '=' then if c = '=' then some [first] else some [first, second]
    else (decode rest).map fun bytes => first :: second :: third :: bytes
  | _ => none

variable {n : Nat}

theorem value_digit (h : n < 64) : value (digit n) = n := by
  have hall : ∀ n : Fin 64, value (digit n) = n := by decide
  exact hall ⟨n, h⟩

theorem digit_ne_pad (h : n < 64) : digit n ≠ '=' := by
  have hall : ∀ n : Fin 64, digit n ≠ '=' := by decide
  exact hall ⟨n, h⟩

/-- A byte from its high and low parts. -/
theorem ofNat_toNat_of_eq {b : UInt8} {n : Nat} (h : n = b.toNat) : UInt8.ofNat n = b := by
  rw [h, UInt8.ofNat_toNat]

/-- **Decoding inverts encoding.** -/
theorem decode_encode (bytes : List UInt8) : decode (encode bytes) = some bytes := by
  fun_induction encode bytes with
  | case1 => rfl
  | case2 a =>
    have ha := a.toNat_lt
    rw [decode, if_pos ⟨rfl, rfl⟩, if_pos rfl, value_digit (by omega), value_digit (by omega),
      @ofNat_toNat_of_eq a _ (by omega)]
  | case3 a b =>
    have ha := a.toNat_lt
    have hb := b.toNat_lt
    rw [decode, if_pos ⟨rfl, rfl⟩, if_neg (digit_ne_pad (by omega)), value_digit (by omega),
      value_digit (by omega), value_digit (by omega), @ofNat_toNat_of_eq a _ (by omega),
      @ofNat_toNat_of_eq b _ (by omega)]
  | case4 a b c rest ih =>
    have ha := a.toNat_lt
    have hb := b.toNat_lt
    have hc := c.toNat_lt
    rw [decode, if_neg (fun h => digit_ne_pad (by omega) h.2), ih, value_digit (by omega),
      value_digit (by omega), value_digit (by omega), value_digit (by omega),
      @ofNat_toNat_of_eq a _ (by omega), @ofNat_toNat_of_eq b _ (by omega),
      @ofNat_toNat_of_eq c _ (by omega)]
    rfl

variable (bytes : List UInt8)

theorem encode_length : (encode bytes).length = 4 * ((bytes.length + 2) / 3) := by
  fun_induction encode bytes with
  | case1 => rfl
  | case2 a => simp
  | case3 a b => simp
  | case4 a b c rest ih => simp only [length_cons, ih]; omega

/-! ## Decoding what other characters stand in -/

/-- The value of a digit of the standard or the URL alphabet. -/
def sextet? (c : Char) : Option Nat :=
  if c.isUpper || c.isLower || c.isDigit then some (value c)
  else if c = '+' || c = '-' then some 62
  else if c = '/' || c = '_' then some 63
  else none

def ofSextets : List Nat → List UInt8
  | a :: b :: c :: d :: rest =>
    UInt8.ofNat (a * 4 + b / 16) :: UInt8.ofNat (b % 16 * 16 + c / 4) ::
      UInt8.ofNat (c % 4 * 64 + d) :: ofSextets rest
  | [a, b, c] => [UInt8.ofNat (a * 4 + b / 16), UInt8.ofNat (b % 16 * 16 + c / 4)]
  | [a, b] => [UInt8.ofNat (a * 4 + b / 16)]
  | _ => []

/-- `Buffer.from(text, "base64")`: other characters are skipped, padding ends the text. -/
def bufferFrom (cs : List Char) : List UInt8 :=
  ofSextets ((cs.takeWhile (· ≠ '=')).filterMap sextet?)

/-- `bytes.toString("base64url")`: the URL alphabet without padding. -/
def encodeUrl (bytes : List UInt8) : List Char :=
  ((encode bytes).filter (· ≠ '=')).map fun c => if c = '+' then '-' else if c = '/' then '_' else c

/-- The same in the URL alphabet. -/
theorem sextet_digit_url (h : n < 64) :
    sextet? (if digit n = '+' then '-' else if digit n = '/' then '_' else digit n) = some n := by
  have hall : ∀ n : Fin 64,
      sextet? (if digit n = '+' then '-' else if digit n = '/' then '_' else digit n) =
        some n.val := by decide
  exact hall ⟨n, h⟩

theorem digit_url_ne_pad (h : n < 64) :
    (if digit n = '+' then '-' else if digit n = '/' then '_' else digit n) ≠ '=' := by
  have hall : ∀ n : Fin 64,
      (if digit n = '+' then '-' else if digit n = '/' then '_' else digit n) ≠ '=' := by decide
  exact hall ⟨n, h⟩

/-- The digits of bytes, six bits each. -/
def sextets : List UInt8 → List Nat
  | [] => []
  | [a] => [a.toNat / 4, a.toNat % 4 * 16]
  | [a, b] => [a.toNat / 4, a.toNat % 4 * 16 + b.toNat / 16, b.toNat % 16 * 4]
  | a :: b :: c :: rest =>
    (a.toNat / 4) :: (a.toNat % 4 * 16 + b.toNat / 16) :: (b.toNat % 16 * 4 + c.toNat / 64) ::
      (c.toNat % 64) :: sextets rest

theorem sextets_lt : ∀ n ∈ sextets bytes, n < 64 := by
  fun_induction sextets bytes with
  | case1 => simp
  | case2 a =>
    have ha := a.toNat_lt
    simp only [mem_cons, not_mem_nil, or_false, forall_eq_or_imp, forall_eq]
    omega
  | case3 a b =>
    have ha := a.toNat_lt
    have hb := b.toNat_lt
    simp only [mem_cons, not_mem_nil, or_false, forall_eq_or_imp, forall_eq]
    omega
  | case4 a b c rest ih =>
    have ha := a.toNat_lt
    have hb := b.toNat_lt
    have hc := c.toNat_lt
    simp only [mem_cons, forall_eq_or_imp]
    refine ⟨by omega, by omega, by omega, by omega, ih⟩

theorem ofSextets_sextets : ofSextets (sextets bytes) = bytes := by
  fun_induction sextets bytes with
  | case1 => rfl
  | case2 a => rw [ofSextets, @ofNat_toNat_of_eq a _ (by omega)]
  | case3 a b =>
    have hb := b.toNat_lt
    rw [ofSextets, @ofNat_toNat_of_eq a _ (by omega), @ofNat_toNat_of_eq b _ (by omega)]
  | case4 a b c rest ih =>
    have hb := b.toNat_lt
    have hc := c.toNat_lt
    rw [ofSextets, ih, @ofNat_toNat_of_eq a _ (by omega), @ofNat_toNat_of_eq b _ (by omega),
      @ofNat_toNat_of_eq c _ (by omega)]

/-- What is encoded is its digits and the padding. -/
theorem encode_eq :
    ∃ padding, encode bytes = (sextets bytes).map digit ++ replicate padding '=' := by
  fun_induction encode bytes with
  | case1 => exact ⟨0, rfl⟩
  | case2 a => exact ⟨2, rfl⟩
  | case3 a b => exact ⟨1, rfl⟩
  | case4 a b c rest ih =>
    obtain ⟨padding, hrest⟩ := ih
    refine ⟨padding, ?_⟩
    rw [hrest]
    rfl

theorem filterMap_sextet {f : Nat → Char} (hf : ∀ n < 64, sextet? (f n) = some n) {ns : List Nat}
    (h : ∀ n ∈ ns, n < 64) : (ns.map f).filterMap sextet? = ns := by
  induction ns with
  | nil => rfl
  | cons n ns ih =>
    rw [map_cons, filterMap_cons_some (hf n (h n mem_cons_self)),
      ih fun m hm => h m (mem_cons_of_mem _ hm)]

theorem takeWhile_map {f : Nat → Char} (hf : ∀ n < 64, f n ≠ '=') {ns : List Nat}
    (h : ∀ n ∈ ns, n < 64) (padding : Nat) :
    (ns.map f ++ replicate padding '=').takeWhile (· ≠ '=') = ns.map f := by
  rw [takeWhile_append_of_pos]
  · cases padding with
    | zero => simp
    | succ padding => simp [replicate_succ]
  · intro c hc; obtain ⟨n, hn, rfl⟩ := mem_map.mp hc; exact decide_eq_true (hf n (h n hn))

theorem bufferFrom_encodeUrl : bufferFrom (encodeUrl bytes) = bytes := by
  obtain ⟨padding, hencode⟩ := encode_eq bytes
  have hlt := sextets_lt bytes
  have hdigits : ((sextets bytes).map digit).filter (· ≠ '=') = (sextets bytes).map digit := by
    refine filter_eq_self.mpr fun c hc => ?_
    obtain ⟨n, hn, rfl⟩ := mem_map.mp hc
    exact decide_eq_true (digit_ne_pad (hlt n hn))
  have hurl : encodeUrl bytes = (sextets bytes).map fun n =>
      if digit n = '+' then '-' else if digit n = '/' then '_' else digit n := by
    unfold encodeUrl
    rw [hencode, filter_append, hdigits]
    simp
  have htake := takeWhile_map (fun n => digit_url_ne_pad) hlt 0
  rw [replicate_zero, append_nil] at htake
  unfold bufferFrom
  rw [hurl, htake, filterMap_sextet (fun n => sextet_digit_url) hlt, ofSextets_sextets]

end Frogg.Library.Base64
