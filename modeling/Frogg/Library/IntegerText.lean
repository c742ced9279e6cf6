/-
  Subject:   Integers as JavaScript holds, writes and reads them.

  A number has 53 significant bits. It is written with the fewest decimal digits that read back as
  it, from 10^21 on with an exponent, which `parseInt` does not read.
-/
import Frogg.Library.JsString

namespace Frogg.Library

open List

/-! ## 1. Writing and reading -/

/-- The number nearest to an integer, the even one of two. -/
def nearestNumber (n : Nat) : Nat :=
  if n < 9007199254740992 then n
  else
    let shift := n.log2 - 52
    let unit := 1 <<< shift
    let kept := n >>> shift
    let dropped := n - kept * unit
    if dropped * 2 > unit ∨ (dropped * 2 = unit ∧ kept % 2 = 1) then (kept + 1) * unit
    else kept * unit

/-- An integer that is a number. -/
def IsNumber (n : Int) : Prop := nearestNumber n.natAbs = n.natAbs

instance (n : Int) : Decidable (IsNumber n) := inferInstanceAs (Decidable (_ = _))

def tenTo : Nat → Nat
  | 0 => 1
  | n + 1 => 10 * tenTo n

/-- A decimal that ends in so many zeros and reads as the number, the nearer one of two. -/
def roundDecimal (n zeros : Nat) : Option Nat :=
  let low := n / tenTo zeros * tenTo zeros
  let high := low + tenTo zeros
  if nearestNumber low = n ∧ (nearestNumber high ≠ n ∨ n - low ≤ high - n) then some low
  else if nearestNumber high = n then some high
  else none

/-- The decimal with the fewest digits among those with at most so many zeros at the end. -/
def shortestDecimal (n : Nat) : Nat → Nat
  | 0 => n
  | zeros + 1 => (roundDecimal n (zeros + 1)).getD (shortestDecimal n zeros)

/-- `String(n)` for a number that is a natural. -/
def naturalText (n : Nat) : List Char :=
  if n < 1000000000000000000000 then Nat.toDigits 10 (shortestDecimal n 21)
  else
    match Nat.toDigits 10 (shortestDecimal n (Nat.toDigits 10 n).length) with
    | [] => []
    | d :: ds =>
      let fraction := (ds.reverse.dropWhile (· = '0')).reverse
      d :: (if fraction = [] then [] else '.' :: fraction) ++ 'e' :: '+' ::
        Nat.toDigits 10 ds.length

/-- `String(n)` for a number that is an integer. -/
def integerText (n : Int) : List Char :=
  if n < 0 then '-' :: naturalText n.natAbs else naturalText n.natAbs

/-- The digits a text starts with, as a number. -/
def leadingNatural (cs : List Char) : Option Nat :=
  match cs.takeWhile Char.isDigit with
  | [] => none
  | ds => some (nearestNumber (Nat.ofDigitChars 10 ds 0))

/-- `parseInt(s, 10)`, none where it is `NaN`. -/
def parseInt (cs : List Char) : Option Int :=
  match jsTrimStartChars cs with
  | '-' :: rest => (leadingNatural rest).map fun n : Nat => -(n : Int)
  | '+' :: rest => (leadingNatural rest).map fun n : Nat => (n : Int)
  | rest => (leadingNatural rest).map fun n : Nat => (n : Int)

/-! ## 2. What is read back -/

variable {n : Nat}

theorem nearestNumber_shortestDecimal (h : nearestNumber n = n) (zeros : Nat) :
    nearestNumber (shortestDecimal n zeros) = n := by
  induction zeros with
  | zero => exact h
  | succ zeros ih =>
    unfold shortestDecimal
    cases hround : roundDecimal n (zeros + 1) with
    | none => exact ih
    | some m =>
      unfold roundDecimal at hround
      dsimp only at hround
      split at hround
      · obtain rfl := Option.some.inj hround; exact ‹_ ∧ _›.1
      · split at hround
        · obtain rfl := Option.some.inj hround; assumption
        · cases hround

theorem isDigit_of_mem_toDigits {n : Nat} {c : Char} (h : c ∈ Nat.toDigits 10 n) :
    c.isDigit = true := Nat.isDigit_of_mem_toDigits (by decide) (by decide) h

theorem leadingNatural_toDigits {rest : List Char}
    (hrest : ∀ c cs, rest = c :: cs → c.isDigit = false) :
    leadingNatural (Nat.toDigits 10 n ++ rest) = some (nearestNumber n) := by
  have htake : (Nat.toDigits 10 n ++ rest).takeWhile Char.isDigit = Nat.toDigits 10 n := by
    rw [takeWhile_append_of_pos fun c hc => isDigit_of_mem_toDigits hc]
    cases rest with
    | nil => simp
    | cons c cs => rw [takeWhile_cons, hrest c cs rfl]; simp
  unfold leadingNatural
  rw [htake]
  cases hdigits : Nat.toDigits 10 n with
  | nil => exact absurd hdigits Nat.toDigits_ne_nil
  | cons d ds => dsimp only; rw [← hdigits, Nat.ofDigitChars_ten_toDigits]

theorem leadingNatural_naturalText (h : nearestNumber n = n)
    (hsmall : n < 1000000000000000000000) : leadingNatural (naturalText n) = some n := by
  have hread := @leadingNatural_toDigits (shortestDecimal n 21) [] (by simp)
  rw [append_nil, nearestNumber_shortestDecimal h] at hread
  unfold naturalText
  rw [if_pos hsmall]
  exact hread

theorem naturalText_head (n : Nat) : ∃ d ds, naturalText n = d :: ds ∧ d.isDigit = true := by
  unfold naturalText
  split
  · cases hdigits : Nat.toDigits 10 (shortestDecimal n 21) with
    | nil => exact absurd hdigits Nat.toDigits_ne_nil
    | cons d ds => exact ⟨d, ds, rfl, isDigit_of_mem_toDigits (hdigits ▸ mem_cons_self)⟩
  · cases hdigits : Nat.toDigits 10 (shortestDecimal n (Nat.toDigits 10 n).length) with
    | nil => exact absurd hdigits Nat.toDigits_ne_nil
    | cons d ds => exact ⟨d, _, rfl, isDigit_of_mem_toDigits (hdigits ▸ mem_cons_self)⟩

theorem digit_le {d : Char} (h : d.isDigit = true) : Nat.ofDigitChars 10 [d] 0 ≤ 9 := by
  have hup := Char.le_def.mp (of_decide_eq_true (Bool.and_eq_true_iff.mp h).2)
  have hbound := UInt32.le_iff_toNat_le.mp hup
  show 10 * 0 + (d.toNat - 48) ≤ 9
  have hnine : d.toNat ≤ 57 := hbound
  omega

/-- From 10^21 on only the first digit is read. -/
theorem leadingNatural_of_large (hlarge : 1000000000000000000000 ≤ n) :
    ∃ m, leadingNatural (naturalText n) = some m ∧ m ≤ 9 := by
  unfold naturalText
  rw [if_neg (by omega)]
  cases hdigits : Nat.toDigits 10 (shortestDecimal n (Nat.toDigits 10 n).length) with
  | nil => exact absurd hdigits Nat.toDigits_ne_nil
  | cons d ds =>
    have hd := isDigit_of_mem_toDigits (hdigits ▸ mem_cons_self)
    have hle := digit_le hd
    have hnumber : nearestNumber (Nat.ofDigitChars 10 [d] 0) = Nat.ofDigitChars 10 [d] 0 := by
      unfold nearestNumber
      rw [if_pos (by omega)]
    refine ⟨Nat.ofDigitChars 10 [d] 0, ?_, hle⟩
    unfold leadingNatural
    dsimp only
    have hstop : ('.').isDigit = false ∧ ('e').isDigit = false := by decide
    split
    · rename_i hnil; rw [cons_append, takeWhile_cons, if_pos hd] at hnil; cases hnil
    · rename_i htake
      rw [cons_append, takeWhile_cons, if_pos hd] at htake ⊢
      split
      · exact congrArg some hnumber
      · exact congrArg some hnumber

theorem trimStart_of_head {c : Char} {cs : List Char} (h : isJsWhitespace c = false) :
    jsTrimStartChars (c :: cs) = c :: cs := by
  unfold jsTrimStartChars
  rw [dropWhile_cons, h]
  rfl

theorem not_space_of_digit {d : Char} (h : d.isDigit = true) : isJsWhitespace d = false := by
  have hlow := Char.le_def.mp (of_decide_eq_true (Bool.and_eq_true_iff.mp h).1)
  have hup := Char.le_def.mp (of_decide_eq_true (Bool.and_eq_true_iff.mp h).2)
  have h48 : 48 ≤ d.toNat := UInt32.le_iff_toNat_le.mp hlow
  have h57 : d.toNat ≤ 57 := UInt32.le_iff_toNat_le.mp hup
  unfold isJsWhitespace
  simp
  omega

/-- What `parseInt` reads of the text of an integer. -/
theorem parseInt_integerText (n : Int) :
    parseInt (integerText n) = (leadingNatural (naturalText n.natAbs)).map
      fun m : Nat => if n < 0 then -(m : Int) else (m : Int) := by
  unfold integerText
  by_cases hneg : n < 0
  · rw [if_pos hneg]
    unfold parseInt
    rw [trimStart_of_head (by decide)]
    simp only [if_pos hneg]
  · rw [if_neg hneg]
    obtain ⟨d, ds, htext, hd⟩ := naturalText_head n.natAbs
    unfold parseInt
    rw [htext, trimStart_of_head (not_space_of_digit hd)]
    have hsign : d ≠ '-' ∧ d ≠ '+' := by
      constructor <;>
      · rintro rfl; exact absurd hd (by decide)
    split
    · rename_i heq; exact absurd (cons.inj heq).1 hsign.1
    · rename_i heq; exact absurd (cons.inj heq).1 hsign.2
    · simp only [if_neg hneg]

/-- **A number below 10^21 is read back as it is, a greater one never.** -/
theorem parseInt_integerText_iff {n : Int} (h : IsNumber n) :
    parseInt (integerText n) = some n ↔ n.natAbs < 1000000000000000000000 := by
  rw [parseInt_integerText]
  constructor
  · intro hread
    refine Nat.lt_of_not_le fun hlarge => ?_
    obtain ⟨m, hm, hle⟩ := leadingNatural_of_large hlarge
    rw [hm] at hread
    have heq := Option.some.inj hread
    dsimp only at heq
    split at heq <;> omega
  · intro hsmall
    rw [leadingNatural_naturalText h hsmall]
    refine congrArg some ?_
    dsimp only
    split <;> omega

example : integerText 1152921504606846976 = "1152921504606847000".toList := by decide

end Frogg.Library
