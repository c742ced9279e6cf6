/-
  Subject:   UTF-8 as `TextEncoder` and `TextDecoder` write and read it.
-/
import Mathlib.Data.List.Basic

namespace Frogg.Library

/-- A decoder drops one byte order mark at the start. -/
def stripByteOrderMark : List Char → List Char
  | c :: cs => if c.toNat = 0xFEFF then cs else c :: cs
  | [] => []

/-- Nothing a decoder would drop. -/
def StartsPlain (s : String) : Prop := stripByteOrderMark s.toList = s.toList

instance : DecidablePred StartsPlain := fun _ => inferInstanceAs (Decidable (_ = _))

/-- `new TextEncoder().encode(s)` -/
def textEncode (s : String) : List UInt8 := s.toUTF8.data.toList

/-- `new TextDecoder("utf-8", { fatal: true }).decode(bytes)`; `none` where it throws. -/
def textDecodeFatal (bytes : List UInt8) : Option String :=
  (String.fromUTF8? ⟨bytes.toArray⟩).map fun s => String.ofList (stripByteOrderMark s.toList)

/-! ## Decoding with replacement -/

/-- Between two bytes: what is read of a code point, how many bytes it still needs and the range
    the next one must lie in. -/
structure Utf8State where
  point : Nat
  needed : Nat
  lower : Nat
  upper : Nat

namespace Utf8State

def idle : Utf8State := ⟨0, 0, 0x80, 0xBF⟩

/-- The first byte of a code point. -/
def lead (b : Nat) : List Char × Utf8State :=
  if b < 0x80 then ([Char.ofNat b], idle)
  else if 0xC2 ≤ b ∧ b ≤ 0xDF then ([], ⟨b - 0xC0, 1, 0x80, 0xBF⟩)
  else if 0xE0 ≤ b ∧ b ≤ 0xEF then
    ([], ⟨b - 0xE0, 2, if b = 0xE0 then 0xA0 else 0x80, if b = 0xED then 0x9F else 0xBF⟩)
  else if 0xF0 ≤ b ∧ b ≤ 0xF4 then
    ([], ⟨b - 0xF0, 3, if b = 0xF0 then 0x90 else 0x80, if b = 0xF4 then 0x8F else 0xBF⟩)
  else (['\uFFFD'], idle)

/-- A byte that does not continue the code point replaces it and is read anew. -/
def next (st : Utf8State) (b : Nat) : List Char × Utf8State :=
  if st.needed = 0 then lead b
  else if b < st.lower ∨ st.upper < b then ('\uFFFD' :: (lead b).1, (lead b).2)
  else if st.needed = 1 then ([Char.ofNat (st.point * 64 + (b - 0x80))], idle)
  else ([], ⟨st.point * 64 + (b - 0x80), st.needed - 1, 0x80, 0xBF⟩)

def decode : Utf8State → List UInt8 → List Char
  | st, [] => if st.needed = 0 then [] else ['\uFFFD']
  | st, b :: bs => (st.next b.toNat).1 ++ decode (st.next b.toNat).2 bs

end Utf8State

/-- `new TextDecoder().decode(bytes)` -/
def textDecode (bytes : List UInt8) : String :=
  String.ofList (stripByteOrderMark (Utf8State.idle.decode bytes))

/-! ## Round trip -/

variable (s : String)

theorem fromUTF8?_toUTF8 : String.fromUTF8? s.toUTF8 = some s := by
  unfold String.fromUTF8?
  rw [dif_pos (show s.toUTF8.IsValidUTF8 from s.isValidUTF8)]
  rfl

/-- A text that starts with no byte order mark reads back as it was written. -/
theorem textDecodeFatal_textEncode {s : String} (h : StartsPlain s) :
    textDecodeFatal (textEncode s) = some s := by
  have hs : StartsPlain s := h
  unfold textDecodeFatal textEncode
  rw [show (⟨s.toUTF8.data.toList.toArray⟩ : ByteArray) = s.toUTF8 from rfl, fromUTF8?_toUTF8,
    Option.map_some, show stripByteOrderMark s.toList = s.toList from hs, String.ofList_toList]

theorem textEncode_eq_flatMap : textEncode s = s.toList.flatMap String.utf8EncodeChar := by
  have hbytes : s.toUTF8 = s.toList.utf8Encode := String.utf8Encode_toList.symm
  unfold textEncode
  rw [hbytes]
  simp [List.utf8Encode]

theorem textEncode_injective {s s' : String} (h : textEncode s = textEncode s') : s = s' := by
  have hbytes : s.toUTF8 = s'.toUTF8 := ByteArray.ext (Array.toList_inj.mp h)
  have hsome := congrArg String.fromUTF8? hbytes
  rw [fromUTF8?_toUTF8, fromUTF8?_toUTF8] at hsome
  exact Option.some.inj hsome

theorem toNat_ofNat_of_lt {n : Nat} (h : n < 256) : (UInt8.ofNat n).toNat = n := by
  exact Nat.mod_eq_of_lt h

namespace Utf8State

theorem decode_cons (st : Utf8State) (b : UInt8) (bs : List UInt8) :
    st.decode (b :: bs) = (st.next b.toNat).1 ++ decode (st.next b.toNat).2 bs := rfl

variable {b : Nat}

/-- A byte in its range that ends a code point. -/
theorem next_last {point lower upper : Nat} (hlow : lower ≤ b) (hup : b ≤ upper) :
    next ⟨point, 1, lower, upper⟩ b = ([Char.ofNat (point * 64 + (b - 0x80))], idle) := by
  unfold next
  rw [if_neg Nat.one_ne_zero, if_neg (by dsimp only; omega), if_pos rfl]

/-- A byte in its range with more to come. -/
theorem next_more {point needed lower upper : Nat} (hlow : lower ≤ b) (hup : b ≤ upper) :
    next ⟨point, needed + 2, lower, upper⟩ b =
      ([], ⟨point * 64 + (b - 0x80), needed + 1, 0x80, 0xBF⟩) := by
  unfold next
  rw [if_neg (by simp), if_neg (by dsimp only; omega), if_neg (by simp)]
  rfl

theorem next_idle (b : Nat) : next idle b = lead b := rfl

theorem lead_one (h : b < 0x80) : lead b = ([Char.ofNat b], idle) := if_pos h

theorem lead_two (hlow : 0xC2 ≤ b) (hup : b ≤ 0xDF) : lead b = ([], ⟨b - 0xC0, 1, 0x80, 0xBF⟩) := by
  unfold lead
  rw [if_neg (by omega), if_pos ⟨hlow, hup⟩]

theorem lead_three (hlow : 0xE0 ≤ b) (hup : b ≤ 0xEF) : lead b =
      ([], ⟨b - 0xE0, 2, if b = 0xE0 then 0xA0 else 0x80, if b = 0xED then 0x9F else 0xBF⟩) := by
  unfold lead
  rw [if_neg (by omega), if_neg (by omega), if_pos ⟨hlow, hup⟩]

theorem lead_four (hlow : 0xF0 ≤ b) (hup : b ≤ 0xF4) : lead b =
      ([], ⟨b - 0xF0, 3, if b = 0xF0 then 0x90 else 0x80, if b = 0xF4 then 0x8F else 0xBF⟩) := by
  unfold lead
  rw [if_neg (by omega), if_neg (by omega), if_neg (by omega), if_pos ⟨hlow, hup⟩]

/-- The bytes of a character read as it. -/
theorem decode_utf8EncodeChar (c : Char) (bs : List UInt8) :
    idle.decode (String.utf8EncodeChar c ++ bs) = c :: idle.decode bs := by
  have hvalid : c.toNat < 0xD800 ∨ 0xDFFF < c.toNat ∧ c.toNat < 0x110000 := c.valid
  have hchar (n : Nat) (h : n = c.toNat) : Char.ofNat n = c := by rw [h]; exact Char.ofNat_toNat c
  unfold String.utf8EncodeChar
  dsimp only
  rw [show c.val.toNat = c.toNat from rfl]
  generalize c.toNat = v at hvalid hchar ⊢
  split
  · show idle.decode (_ :: bs) = _
    rw [decode_cons, toNat_ofNat_of_lt (by omega), next_idle, lead_one (by omega), hchar v rfl]
    rfl
  · split
    · show idle.decode (_ :: _ :: bs) = _
      rw [decode_cons, toNat_ofNat_of_lt (by omega), next_idle,
        lead_two (by omega) (by omega), decode_cons, toNat_ofNat_of_lt (by omega),
        next_last (by omega) (by omega), hchar _ (by omega)]
      rfl
    · split
      · have hsecond : (if v / 4096 % 16 + 224 = 0xE0 then 0xA0 else 0x80) ≤ v / 64 % 64 + 128 ∧
            v / 64 % 64 + 128 ≤ if v / 4096 % 16 + 224 = 0xED then 0x9F else 0xBF := by
          refine ⟨?_, ?_⟩
          · split <;> omega
          · split <;> omega
        show idle.decode (_ :: _ :: _ :: bs) = _
        rw [decode_cons, toNat_ofNat_of_lt (by omega), next_idle, lead_three (by omega) (by omega),
          decode_cons, toNat_ofNat_of_lt (by omega), next_more hsecond.1 hsecond.2, decode_cons,
          toNat_ofNat_of_lt (by omega), next_last (by omega) (by omega), hchar _ (by omega)]
        rfl
      · have hsecond : (if v / 262144 % 8 + 240 = 0xF0 then 0x90 else 0x80) ≤ v / 4096 % 64 + 128 ∧
            v / 4096 % 64 + 128 ≤ if v / 262144 % 8 + 240 = 0xF4 then 0x8F else 0xBF := by
          refine ⟨?_, ?_⟩
          · split <;> omega
          · split <;> omega
        show idle.decode (_ :: _ :: _ :: _ :: bs) = _
        rw [decode_cons, toNat_ofNat_of_lt (by omega), next_idle, lead_four (by omega) (by omega),
          decode_cons, toNat_ofNat_of_lt (by omega), next_more hsecond.1 hsecond.2, decode_cons,
          toNat_ofNat_of_lt (by omega), next_more (by omega) (by omega), decode_cons,
          toNat_ofNat_of_lt (by omega), next_last (by omega) (by omega), hchar _ (by omega)]
        rfl

theorem decode_flatMap (cs : List Char) :
    idle.decode (cs.flatMap String.utf8EncodeChar) = cs := by
  induction cs with
  | nil => rfl
  | cons c cs ih => rw [List.flatMap_cons, decode_utf8EncodeChar, ih]

end Utf8State

/-- A text reads back, up to a byte order mark at its start. -/
theorem textDecode_textEncode :
    textDecode (textEncode s) = String.ofList (stripByteOrderMark s.toList) := by
  unfold textDecode
  rw [textEncode_eq_flatMap, Utf8State.decode_flatMap]

/-- Reading and writing again gives the same bytes where they are a text without the mark. -/
theorem textEncode_textDecode_iff {bytes : List UInt8} :
    textEncode (textDecode bytes) = bytes ↔ ∃ s, StartsPlain s ∧ textEncode s = bytes := by
  constructor
  · intro h
    refine ⟨textDecode bytes, ?_, h⟩
    have hagain := textDecode_textEncode (textDecode bytes)
    rw [h] at hagain
    have hlist := congrArg String.toList hagain
    rw [String.toList_ofList] at hlist
    exact hlist.symm
  · rintro ⟨s, hplain, rfl⟩
    rw [textDecode_textEncode, show stripByteOrderMark s.toList = s.toList from hplain,
      String.ofList_toList]

example : textDecode [0x68, 0xC3, 0xA9, 0xFF, 0xE2, 0x82] = "hé\uFFFD\uFFFD" := by decide

end Frogg.Library
