/-
  Subject:   Whole numbers as doubles, and the texts that are written of them.

  `wholeDouble n` is the double that is read for `n`, `none` for infinity; `wholeText n` is what is
  written of it. **`wholeDouble_wholeText`**: below `10 ^ 21` the text is read back.
-/
import Frogg.Library.JsonText
import Mathlib.Data.List.TakeWhile
import Mathlib.Data.Nat.Log
import Mathlib.Tactic.Ring

namespace Frogg.Library

open List

/-- Of two neighbours the nearer one, in the middle the even one. -/
def roundUp (below remainder unit : Nat) : Bool :=
  unit < 2 * remainder || (unit = 2 * remainder && below % 2 = 1)

def maxExponent : Nat := 1024

/-- From here on, a number is infinity. -/
def doubleRange : Nat := 2 ^ maxExponent

theorem le_doubleRange : 2 ^ 53 ≤ doubleRange :=
  Nat.pow_le_pow_right Nat.two_pos (Nat.le_of_ble_eq_true rfl)

variable (n : Nat)

/-- The 53 bits that are kept, and what they count. -/
def significand : Nat :=
  let unit := 2 ^ (n.log2 - 52)
  if roundUp (n / unit) (n % unit) unit then n / unit + 1 else n / unit

def roundedWhole : Nat := significand n * 2 ^ (n.log2 - 52)

def wholeDouble : Option Nat :=
  if doubleRange ≤ roundedWhole n then none else some (roundedWhole n)

theorem wholeDouble_of_dvd {n : Nat} (h : 2 ^ (n.log2 - 52) ∣ n) :
    wholeDouble n = if doubleRange ≤ n then none else some n := by
  have hmod : n % 2 ^ (n.log2 - 52) = 0 := Nat.mod_eq_zero_of_dvd h
  have hdown : roundUp (n / 2 ^ (n.log2 - 52)) (n % 2 ^ (n.log2 - 52)) (2 ^ (n.log2 - 52)) =
      false := by
    unfold roundUp
    rw [hmod]
    simp
  have hrounded : roundedWhole n = n := by
    unfold roundedWhole significand
    dsimp only
    rw [hdown, if_neg Bool.false_ne_true, Nat.div_mul_cancel h]
  unfold wholeDouble
  rw [hrounded]

/-- A number below `2 ^ 53` is a double. -/
theorem wholeDouble_of_lt {n : Nat} (h : n < 2 ^ 53) : wholeDouble n = some n := by
  have hlog : n.log2 - 52 = 0 := by
    by_cases hn : n = 0
    · rw [hn]; rfl
    · have := (Nat.log2_lt hn).mpr h
      omega
  rw [wholeDouble_of_dvd (by rw [hlog]; exact one_dvd n), if_neg]
  exact Nat.not_le_of_lt (Nat.lt_of_lt_of_le h le_doubleRange)

/-- What a number is rounded to is a double. -/
theorem wholeDouble_idem {n m : Nat} (h : wholeDouble n = some m) : wholeDouble m = some m := by
  by_cases hsmall : n < 2 ^ 53
  · rw [wholeDouble_of_lt hsmall] at h
    obtain rfl := Option.some.inj h
    exact wholeDouble_of_lt hsmall
  unfold wholeDouble at h
  split at h
  · cases h
  rename_i hfinite
  obtain rfl := Option.some.inj h
  have hn : n ≠ 0 := by rintro rfl; exact hsmall (Nat.two_pow_pos 53)
  have hlow : 2 ^ n.log2 ≤ n := Nat.log2_self_le hn
  have hhigh : n < 2 ^ (n.log2 + 1) := Nat.lt_log2_self
  have hlog : 53 ≤ n.log2 := by
    by_contra hlt
    have := (Nat.log2_lt hn).mp (Nat.lt_of_not_le hlt)
    omega
  obtain ⟨e, he⟩ : ∃ e, n.log2 = 52 + e := ⟨n.log2 - 52, by omega⟩
  have hexponent : n.log2 - 52 = e := by omega
  rw [he] at hlow hhigh
  have hdiv : 2 ^ 52 ≤ n / 2 ^ e ∧ n / 2 ^ e < 2 ^ 53 := by
    rw [Nat.le_div_iff_mul_le (Nat.two_pow_pos e), Nat.div_lt_iff_lt_mul (Nat.two_pow_pos e),
      ← Nat.pow_add, ← Nat.pow_add]
    refine ⟨hlow, ?_⟩
    rw [Nat.add_right_comm] at hhigh
    exact hhigh
  have ha : 2 ^ 52 ≤ significand n ∧ significand n ≤ 2 ^ 53 := by
    unfold significand
    rw [hexponent]
    dsimp only
    split <;> omega
  unfold roundedWhole at hfinite ⊢
  rw [hexponent] at hfinite ⊢
  generalize significand n = a at hfinite ha ⊢
  have hm : a * 2 ^ e ≠ 0 := by
    have := Nat.mul_le_mul_right (2 ^ e) ha.1
    have : 0 < 2 ^ 52 * 2 ^ e := Nat.mul_pos (Nat.two_pow_pos _) (Nat.two_pow_pos _)
    omega
  have hdvd : 2 ^ ((a * 2 ^ e).log2 - 52) ∣ a * 2 ^ e := by
    rcases Nat.lt_or_eq_of_le ha.2 with hlt | rfl
    · have hlog : (a * 2 ^ e).log2 < 52 + e + 1 := by
        rw [Nat.log2_lt hm, Nat.add_right_comm, Nat.pow_add]
        exact Nat.mul_lt_mul_of_pos_right hlt (Nat.two_pow_pos e)
      exact (Nat.pow_dvd_pow 2 (by omega)).trans (Nat.dvd_mul_left _ _)
    · rw [← Nat.pow_add, Nat.log2_two_pow]; exact Nat.pow_dvd_pow 2 (by omega)
  rw [wholeDouble_of_dvd hdvd, if_neg hfinite]

/-! ## Texts -/

/-- The shortest digits, filled up with zeros, that are read as `n`; of two the nearer one, in the
    middle the even one. -/
def shortestWhole : Nat :=
  let size := (Nat.toDigits 10 n).length
  ((range size).findSome? fun i =>
    let unit := 10 ^ (size - 1 - i)
    let below := n / unit
    let near := if roundUp below (n % unit) unit then [below + 1, below] else [below, below + 1]
    (near.map (· * unit)).find? fun m => wholeDouble m = some n).getD n

theorem wholeDouble_shortestWhole {n : Nat} (h : wholeDouble n = some n) :
    wholeDouble (shortestWhole n) = some n := by
  unfold shortestWhole
  dsimp only
  generalize hfound : findSome? _ _ = found
  cases found with
  | none => exact h
  | some m =>
    obtain ⟨i, -, hm⟩ := exists_of_findSome?_eq_some hfound
    have hread := find?_some hm
    exact of_decide_eq_true hread

/-- `String(n)` -/
def wholeText : List Char :=
  let digits := Nat.toDigits 10 (shortestWhole n)
  if n < 10 ^ 21 then digits
  else match (digits.reverse.dropWhile (· = '0')).reverse with
    | [] => digits
    | first :: rest =>
      first :: (if rest = [] then [] else '.' :: rest) ++
        'e' :: '+' :: Nat.toDigits 10 (digits.length - 1)

/-- `Number(digits)` -/
def wholeNumber (digits : List Char) : Option Nat := wholeDouble (Nat.ofDigitChars 10 digits 0)

/-- **What is written of a double below `10 ^ 21` are digits, and they are read as it.** -/
theorem wholeDouble_wholeText {n : Nat} (h : wholeDouble n = some n) (hn : n < 10 ^ 21) :
    (∀ c ∈ wholeText n, c.isDigit = true) ∧ wholeText n ≠ [] ∧
      wholeNumber (wholeText n) = some n := by
  unfold wholeText
  rw [if_pos hn]
  refine ⟨fun c hc => Nat.isDigit_of_mem_toDigits (by decide) (by decide) hc,
    Nat.toDigits_ne_nil, ?_⟩
  unfold wholeNumber
  rw [Nat.ofDigitChars_ten_toDigits]
  exact wholeDouble_shortestWhole h

/-- **From `10 ^ 21` on, something stands behind the first digit that is none.** -/
theorem wholeText_exponent {n : Nat} (hn : ¬ n < 10 ^ 21) (hdouble : wholeDouble n = some n) :
    ∃ first c rest, wholeText n = first :: c :: rest ∧ first.isDigit = true ∧ (c = '.' ∨ c = 'e') ∧
      ∀ d ∈ rest, d.isDigit = true ∨ d = 'e' ∨ d = '+' := by
  have hdigits : ∀ m, ∀ c ∈ Nat.toDigits 10 m, c.isDigit = true := fun m c hc =>
    Nat.isDigit_of_mem_toDigits (by decide) (by decide) hc
  unfold wholeText
  rw [if_neg hn]
  split
  · rename_i hnone
    exfalso
    have hpos : 0 < shortestWhole n := by
      refine Nat.pos_of_ne_zero fun hzero => ?_
      have hread := wholeDouble_shortestWhole hdouble
      rw [hzero, wholeDouble_of_lt (Nat.two_pow_pos 53)] at hread
      exact hn (Option.some.inj hread ▸ (by decide : 0 < 10 ^ 21))
    have hall := dropWhile_eq_nil_iff.mp (reverse_eq_nil_iff.mp hnone)
    obtain ⟨first, rest, heq⟩ := exists_cons_of_ne_nil (@Nat.toDigits_ne_nil (shortestWhole n) 10)
    have hfirst : first = '0' := of_decide_eq_true
      (hall first (mem_reverse.mpr (heq ▸ mem_cons_self)))
    refine Json.head_toDigits_ne_zero hpos ?_
    rw [heq, hfirst]
    rfl
  · rename_i first rest hsome
    have hmem : ∀ c ∈ first :: rest, c.isDigit = true := by
      intro c hc
      rw [← hsome, mem_reverse] at hc
      exact hdigits _ c (mem_reverse.mp ((dropWhile_sublist _).subset hc))
    by_cases hrest : rest = []
    · rw [if_pos hrest]
      refine ⟨first, 'e', _, rfl, hmem first mem_cons_self, .inr rfl, fun d hd => ?_⟩
      rcases mem_cons.mp hd with rfl | hd
      · exact .inr (.inr rfl)
      · exact .inl (hdigits _ d hd)
    · rw [if_neg hrest]
      refine ⟨first, '.', _, rfl, hmem first mem_cons_self, .inl rfl, fun d hd => ?_⟩
      rcases mem_append.mp hd with hd | hd
      · exact .inl (hmem d (mem_cons_of_mem _ hd))
      · rcases mem_cons.mp hd with rfl | hd
        · exact .inr (.inl rfl)
        · rcases mem_cons.mp hd with rfl | hd
          · exact .inr (.inr rfl)
          · exact .inl (hdigits _ d hd)

example : wholeDouble 1152921504606846976 = some 1152921504606846976 ∧
    String.ofList (wholeText 1152921504606846976) = "1152921504606847000" ∧
    String.ofList (wholeText (2 ^ 80)) = "1.2089258196146292e+24" := by decide +kernel

end Frogg.Library
