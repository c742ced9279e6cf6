/-
  Subject:   Numbers written in a base: a text without leading zeros is what its value is written
             as.
-/
import Mathlib.Algebra.Order.Ring.Nat
import Mathlib.Data.List.DropRight
import Mathlib.Data.List.TakeWhile

namespace Frogg.Library

open List

section Numerals

variable {base : Nat} {value : Char → Nat}

/-- What digits come to, read from the left. -/
def numeralValue (base : Nat) (value : Char → Nat) (cs : List Char) : Nat :=
  cs.foldl (fun n c => n * base + value c) 0

/-- Digits of the base, each written as its value is. -/
def Digits (base : Nat) (value : Char → Nat) (cs : List Char) : Prop :=
  ∀ c ∈ cs, value c < base ∧ (value c).digitChar = c

variable {cs : List Char}

theorem Digits.tail {c : Char} (h : Digits base value (c :: cs)) : Digits base value cs :=
  fun d hd => h d (mem_cons_of_mem c hd)

/-- More digits behind a number above zero. -/
theorem toDigits_foldl (hbase : 1 < base) (hcs : Digits base value cs) {n : Nat} (hn : 0 < n) :
    Nat.toDigits base (cs.foldl (fun n c => n * base + value c) n) = Nat.toDigits base n ++ cs := by
  induction cs generalizing n with
  | nil => rw [foldl_nil, append_nil]
  | cons c cs ih =>
    obtain ⟨hvalue, hchar⟩ := hcs c mem_cons_self
    have hnext : 0 < n * base + value c :=
      Nat.lt_of_lt_of_le (Nat.mul_pos hn (by omega)) (Nat.le_add_right _ _)
    have hstep := Nat.toDigits_append_toDigits hbase hn hvalue
    rw [Nat.toDigits_of_lt_base hvalue, hchar, Nat.mul_comm] at hstep
    rw [foldl_cons, ih hcs.tail hnext, ← hstep, append_assoc]
    rfl

/-- **A number without leading zeros is written one way.** -/
theorem toDigits_numeralValue (hbase : 1 < base) {c : Char}
    (hcs : Digits base value (c :: cs)) (hzero : c = '0' → cs = []) :
    Nat.toDigits base (numeralValue base value (c :: cs)) = c :: cs := by
  obtain ⟨hvalue, hchar⟩ := hcs c mem_cons_self
  have hfirst : numeralValue base value (c :: cs) =
      cs.foldl (fun n c => n * base + value c) (value c) := by
    rw [numeralValue, foldl_cons, Nat.zero_mul, Nat.zero_add]
  rw [hfirst]
  by_cases hv : value c = 0
  · have hc : c = '0' := by rw [← hchar, hv]; rfl
    rw [hzero hc, foldl_nil, Nat.toDigits_of_lt_base hvalue, hchar]
  · rw [toDigits_foldl hbase hcs.tail (Nat.pos_of_ne_zero hv), Nat.toDigits_of_lt_base hvalue,
      hchar]
    rfl

/-- What a number is written as comes to it. -/
theorem numeralValue_toDigits (hbase : 1 < base)
    (hvalue : ∀ d, d < base → value d.digitChar = d) (n : Nat) :
    numeralValue base value (Nat.toDigits base n) = n := by
  induction n using Nat.strongRecOn with
  | ind n ih =>
    by_cases hn : n < base
    · rw [Nat.toDigits_of_lt_base hn, numeralValue, foldl_cons, foldl_nil, hvalue n hn]; omega
    · rw [Nat.toDigits_of_base_le hbase (by omega)]
      have hlast : n % base < base := Nat.mod_lt _ (by omega)
      have hfewer : n / base < n := Nat.div_lt_self (by omega) hbase
      rw [numeralValue, foldl_append]
      show foldl _ (numeralValue base value _) _ = n
      rw [ih _ hfewer, foldl_cons, foldl_nil, hvalue _ hlast, Nat.mul_comm]
      exact Nat.div_add_mod n base

theorem numeralValue_lt (hcs : ∀ c ∈ cs, value c < base) :
    numeralValue base value cs < base ^ cs.length := by
  have hfold : ∀ n, cs.foldl (fun n c => n * base + value c) n < (n + 1) * base ^ cs.length := by
    induction cs with
    | nil => simp
    | cons c cs ih =>
      intro n
      have hvalue := hcs c mem_cons_self
      refine Nat.lt_of_lt_of_le (ih (fun d hd => hcs d (mem_cons_of_mem c hd)) _) ?_
      have hstep : n * base + value c + 1 ≤ (n + 1) * base := by rw [Nat.succ_mul]; omega
      rw [length_cons, Nat.pow_succ', ← Nat.mul_assoc]
      exact Nat.mul_le_mul_right _ hstep
  have := hfold 0
  rwa [Nat.zero_add, Nat.one_mul] at this

theorem digits_toDigits (hbase : 1 < base) (hvalue : ∀ d, d < base → value d.digitChar = d)
    (n : Nat) : Digits base value (Nat.toDigits base n) := by
  have hdigit : ∀ d, d < base → Digits base value [d.digitChar] := by
    intro d hd c hc
    obtain rfl := mem_singleton.mp hc
    rw [hvalue d hd]
    exact ⟨hd, rfl⟩
  induction n using Nat.strongRecOn with
  | ind n ih =>
    by_cases hn : n < base
    · rw [Nat.toDigits_of_lt_base hn]; exact hdigit n hn
    · rw [Nat.toDigits_of_base_le hbase (by omega)]
      intro c hc
      rcases mem_append.mp hc with hc | hc
      · exact ih _ (Nat.div_lt_self (by omega) hbase) c hc
      · exact hdigit _ (Nat.mod_lt _ (by omega)) c hc

theorem numeralValue_dropZeros (hzero : value '0' = 0) (cs : List Char) :
    numeralValue base value (cs.dropWhile (· = '0')) = numeralValue base value cs := by
  induction cs with
  | nil => rfl
  | cons c cs ih =>
    by_cases hc : c = '0'
    · rw [dropWhile_cons_of_pos (by simpa using hc), ih, numeralValue, numeralValue,
        foldl_cons, hc, hzero, Nat.zero_mul, Nat.zero_add]
    · rw [dropWhile_cons_of_neg (by simpa using hc)]

end Numerals

end Frogg.Library
