/-
  Subject:   A list of keyed values written over what was there, one after the other.
-/
import Mathlib.Logic.Function.Basic

namespace Frogg.Library

open Function

variable {κ α β : Type*} [DecidableEq κ]

/-- Each entry's value at its key, the last one staying. -/
def overwrite (key : α → κ) (val : α → β) (entries : List α) (m : κ → β) : κ → β :=
  entries.foldl (fun m a => update m (key a) (val a)) m

variable {key : α → κ} {val : α → β} {entries : List α} {m : κ → β} {k : κ}

theorem overwrite_of_forall_ne (h : ∀ a ∈ entries, key a ≠ k) :
    overwrite key val entries m k = m k := by
  induction entries generalizing m with
  | nil => rfl
  | cons a entries ih =>
    have hrest := fun b hb => h b (List.mem_cons_of_mem a hb)
    show overwrite key val entries (update m (key a) (val a)) k = m k
    rw [ih hrest]
    exact update_of_ne (h a List.mem_cons_self).symm _ _

/-- Where the entries of a key agree on the value, that value stays. -/
theorem overwrite_of_agree {b : β} (hmem : ∃ a ∈ entries, key a = k)
    (h : ∀ a ∈ entries, key a = k → val a = b) : overwrite key val entries m k = b := by
  induction entries generalizing m with
  | nil => obtain ⟨a, ha, -⟩ := hmem; cases ha
  | cons a entries ih =>
    have hrest := fun d hd => h d (List.mem_cons_of_mem a hd)
    show overwrite key val entries (update m (key a) (val a)) k = b
    by_cases hlater : ∃ d ∈ entries, key d = k
    · exact ih hlater hrest
    · -- the head is the last entry of the key
      rw [overwrite_of_forall_ne fun d hd hdk => hlater ⟨d, hd, hdk⟩]
      obtain ⟨d, hd, hdk⟩ := hmem
      rcases List.mem_cons.mp hd with rfl | hd
      · rw [← hdk, update_self]; exact h d List.mem_cons_self hdk
      · exact absurd ⟨d, hd, hdk⟩ hlater

end Frogg.Library
