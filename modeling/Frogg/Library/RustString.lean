/-
  Subject:   Strings as Rust trims and lowers them, and where JavaScript does the same.

  The white space of the two differs in two characters: U+0085 is white space for Rust only,
  U+FEFF for JavaScript only.
-/
import Frogg.Library.JsString
import Frogg.Library.Tokens

namespace Frogg.Library

open List

/-! ## 1. Trimming and lowering -/

/-- `char::is_whitespace` -/
def isRustWhitespace (c : Char) : Bool :=
  (9 ≤ c.toNat && c.toNat ≤ 13) || c.toNat = 32 || c.toNat = 0x85 || c.toNat = 0xA0 ||
    c.toNat = 0x1680 || (0x2000 ≤ c.toNat && c.toNat ≤ 0x200A) || c.toNat = 0x2028 ||
    c.toNat = 0x2029 || c.toNat = 0x202F || c.toNat = 0x205F || c.toNat = 0x3000

variable (s : String)

/-- `str::trim` -/
def rustTrim : String :=
  String.ofList
    (((s.toList.dropWhile isRustWhitespace).reverse.dropWhile isRustWhitespace).reverse)

/-- `str::to_ascii_lowercase` -/
def toAsciiLowercase : String := String.ofList (s.toList.map Char.toLower)

theorem toNat_toLower (c : Char) :
    c.toLower.toNat = if 65 ≤ c.toNat ∧ c.toNat ≤ 90 then c.toNat + 32 else c.toNat := by
  have hcond : (c.val ≥ 'A'.val ∧ c.val ≤ 'Z'.val) ↔ (65 ≤ c.toNat ∧ c.toNat ≤ 90) := by rfl
  unfold Char.toLower
  by_cases h : c.val ≥ 'A'.val ∧ c.val ≤ 'Z'.val
  · rw [dif_pos h, if_pos (hcond.mp h)]
    have hle : c.val.toNat ≤ 90 := (hcond.mp h).2
    show (c.val + 32).toNat = c.val.toNat + 32
    exact Nat.mod_eq_of_lt (Nat.lt_of_le_of_lt (Nat.add_le_add_right hle 32) (by decide))
  · rw [dif_neg h, if_neg (mt hcond.mpr h)]

theorem isRustWhitespace_toLower (c : Char) : isRustWhitespace c.toLower = isRustWhitespace c := by
  unfold isRustWhitespace
  rw [toNat_toLower]
  split
  · grind
  · rfl

theorem toLower_toLower (c : Char) : c.toLower.toLower = c.toLower := by
  have h : c.toLower.toLower.toNat = c.toLower.toNat := by rw [toNat_toLower, toNat_toLower]; grind
  rw [← @Char.ofNat_toNat c.toLower.toLower, h, Char.ofNat_toNat]

theorem rustTrim_lower : rustTrim (toAsciiLowercase s) = toAsciiLowercase (rustTrim s) := by
  have hspace : isRustWhitespace ∘ Char.toLower = isRustWhitespace :=
    funext isRustWhitespace_toLower
  unfold rustTrim toAsciiLowercase
  simp only [String.toList_ofList, dropWhile_map, ← map_reverse, hspace]

theorem rustTrim_idem : rustTrim (rustTrim s) = rustTrim s := by
  have hstart := dropWhile_rdropWhile (dropWhile_idempotent isRustWhitespace s.toList)
  show String.ofList (((String.ofList _).toList.dropWhile isRustWhitespace).rdropWhile _) = _
  rw [String.toList_ofList]
  show String.ofList ((((s.toList.dropWhile isRustWhitespace).rdropWhile isRustWhitespace).dropWhile
    isRustWhitespace).rdropWhile _) = _
  rw [hstart, rdropWhile_idempotent]
  rfl

/-- A trimmed and lowered text stays what it is. -/
theorem lower_trim_idem : toAsciiLowercase (rustTrim (toAsciiLowercase (rustTrim s))) =
      toAsciiLowercase (rustTrim s) := by
  rw [rustTrim_lower, rustTrim_idem]
  unfold toAsciiLowercase
  rw [String.toList_ofList, map_map]
  exact congrArg String.ofList (map_congr_left fun c _ => toLower_toLower c)

/-! ## 2. Where the two trim alike -/

/-- Neither U+0085 nor U+FEFF. -/
def CommonSpace : Prop := ∀ c ∈ s.toList, c.toNat ≠ 0x85 ∧ c.toNat ≠ 0xFEFF

theorem isRustWhitespace_eq {c : Char} (h : c.toNat ≠ 0x85 ∧ c.toNat ≠ 0xFEFF) :
    isRustWhitespace c = isJsWhitespace c := by
  simp [isRustWhitespace, isJsWhitespace, h.1, h.2]

/-- A text without the two characters is trimmed alike. -/
theorem rustTrim_eq_jsTrim {s : String} (h : CommonSpace s) : rustTrim s = jsTrim s := by
  have hstart : s.toList.dropWhile isRustWhitespace = jsTrimStartChars s.toList :=
    dropWhile_congr fun c hc => isRustWhitespace_eq (h c hc)
  unfold rustTrim jsTrim jsTrimEndChars
  rw [hstart, dropWhile_congr fun c hc => isRustWhitespace_eq (h c ?_)]
  exact (dropWhile_suffix _).subset (mem_reverse.mp hc)

end Frogg.Library
