/-
  Subject:   Numbers as a double holds them, and the numbers that texts write out.
-/
import Frogg.Library.JsonText
import Mathlib.Data.Int.Log
import Mathlib.Data.Rat.Floor

namespace Frogg.Library

/-! ## 1. Doubles -/

/-- The nearest integer, of two the even one. -/
def roundHalfEven (q : ℚ) : Int :=
  let below := ⌊q⌋
  if q - below < 1 / 2 then below
  else if 1 / 2 < q - below then below + 1
  else if below % 2 = 0 then below
  else below + 1

/-- The double nearest to a number; `none` for an infinity. -/
def roundDouble (q : ℚ) : Option ℚ :=
  let exponent := max (Int.log 2 |q| - 52) (-1074)
  let rounded := roundHalfEven (q / 2 ^ exponent) * (2 : ℚ) ^ exponent
  if 2 ^ 1024 ≤ |rounded| then none else some rounded

/-- `Number.isSafeInteger` -/
def safeInteger? (q : ℚ) : Option Int :=
  if q.den = 1 ∧ |q.num| ≤ 2 ^ 53 - 1 then some q.num else none

/-! ## 2. Texts -/

namespace Json

def digitsValue (cs : List Char) : Nat := Nat.ofDigitChars 10 cs 0

/-- What the text of a number writes out. -/
def decimalValue (text : String) : ℚ :=
  let (sign, rest) := parseSign text.toList
  let (whole, rest) := digits rest
  let (fraction, rest) := match rest with
    | '.' :: rest => digits rest
    | rest => ([], rest)
  let power : Int := match rest with
    | _ :: '-' :: ds => -digitsValue ds
    | _ :: '+' :: ds => digitsValue ds
    | _ :: ds => digitsValue ds
    | [] => 0
  let value := digitsValue (whole ++ fraction) * (10 : ℚ) ^ (power - fraction.length)
  if sign = [] then value else -value

/-- The text of an integer writes it out. -/
theorem decimalValue_integerText (n : Int) : decimalValue (integerText n) = n := by
  have hends : EndsNumber [] := nofun
  have hdigits : ∀ n : Nat, digits (Nat.toDigits 10 n) = (Nat.toDigits 10 n, []) := by
    intro n
    have hall : ∀ c ∈ Nat.toDigits 10 n, c.isDigit = true := fun c hc =>
      Nat.isDigit_of_mem_toDigits (by decide) (by decide) hc
    have hread := digits_append hall hends
    rw [List.append_nil] at hread
    exact hread
  have hvalue : ∀ n : Nat, digitsValue (Nat.toDigits 10 n ++ []) = n := by
    intro n
    rw [List.append_nil]
    exact Nat.ofDigitChars_ten_toDigits
  cases n with
  | ofNat n =>
    have hsign : parseSign (Nat.toDigits 10 n) = ([], Nat.toDigits 10 n) := by
      unfold parseSign
      split
      · rename_i heq; exact absurd heq (head_toDigits_ne_minus n _)
      · rfl
    unfold decimalValue integerText
    rw [String.toList_ofList, hsign]
    dsimp only
    rw [hdigits]
    rw [hvalue]
    simp
  | negSucc n =>
    have hsign : parseSign ('-' :: Nat.toDigits 10 (n + 1)) = (['-'], Nat.toDigits 10 (n + 1)) := rfl
    unfold decimalValue integerText
    rw [String.toList_ofList, hsign]
    dsimp only
    rw [hdigits]
    rw [hvalue]
    simp [Int.negSucc_eq]

/-- The number that a value is, as a double. -/
def double? : Json → Option ℚ
  | .number text => roundDouble (decimalValue text)
  | _ => none

example : (double? (.number "12.50e1")).bind safeInteger? = some 125 := by decide +kernel

example : (double? (.number "9007199254740993")).bind safeInteger? = none := by decide +kernel

end Json

end Frogg.Library
