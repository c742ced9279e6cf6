/-
  Subject:   Keys with one parent each.

  Where following parents never comes back, the keys that have one being finitely many, both walking
  up and walking down end, and what lies below two siblings is disjoint.
-/
import Mathlib.Logic.Relation
import Mathlib.Order.WellFoundedSet

namespace Frogg.Library.Hierarchy

variable {κ : Type*} (up : κ → Option κ)

/-- The second key is the parent of the first. -/
def Under (child parent : κ) : Prop := up child = some parent

/-- The second key is reached from the first by following parents. -/
def Below : κ → κ → Prop := Relation.TransGen (Under up)

def Acyclic : Prop := ∀ k, ¬ Below up k k

variable {up}

/-- Parents that rank lower never come back. -/
theorem acyclic_of_rank (rank : κ → Nat) (h : ∀ k p, up k = some p → rank p < rank k) :
    Acyclic up := by
  have hbelow : ∀ k p, Below up k p → rank p < rank k := by
    intro k p hkp
    induction hkp with
    | single h' => exact h _ _ h'
    | tail _ h' ih => exact Nat.lt_trans (h _ _ h') ih
  exact fun k hk => Nat.lt_irrefl _ (hbelow k k hk)

variable {up' : κ → Option κ}

/-- Taking parents away brings nothing back. -/
theorem Acyclic.of_fewer (hacyclic : Acyclic up)
    (h : ∀ k p, up' k = some p → up k = some p) : Acyclic up' := fun k hk =>
  hacyclic k (Relation.TransGen.mono h k k hk)

/-- A key may get a parent that does not lead to it. -/
theorem Acyclic.of_moved {a b : κ} (hacyclic : Acyclic up)
    (hothers : ∀ k p, k ≠ a → up' k = some p → up k = some p) (ha : up' a = some b)
    (hfree : ¬ Relation.ReflTransGen (Under up) b a) : Acyclic up' := by
  have hto : ∀ {k}, Relation.ReflTransGen (Under up') k a → Relation.ReflTransGen (Under up) k a := by
    intro k hk
    induction hk using Relation.ReflTransGen.head_induction_on with
    | refl => exact .refl
    | @head c d hstep _ ih =>
      by_cases hc : c = a
      · rw [hc]
      · exact .head (hothers c d hc hstep) ih
  -- a way that does not lead over the key was there before
  have hway : ∀ {k p}, Below up' k p → Below up k p ∨
      (Relation.ReflTransGen (Under up') k a ∧ Relation.ReflTransGen (Under up') b p) := by
    intro k p hkp
    induction hkp using Relation.TransGen.head_induction_on with
    | @single c hstep =>
      by_cases hc : c = a
      · subst hc; obtain rfl := Option.mem_unique ha hstep; exact .inr ⟨.refl, .refl⟩
      · exact .inl (.single (hothers c p hc hstep))
    | @head c d hstep hrest ih =>
      by_cases hc : c = a
      · subst hc
        obtain rfl := Option.mem_unique ha hstep
        exact .inr ⟨.refl, hrest.to_reflTransGen⟩
      · rcases ih with hbefore | ⟨hda, hbp⟩
        · exact .inl (.head (hothers c d hc hstep) hbefore)
        · exact .inr ⟨.head hstep hda, hbp⟩
  intro k hk
  rcases hway hk with hbefore | ⟨hka, hbk⟩
  · exact hacyclic k hbefore
  · exact hfree (hto (hbk.trans hka))

/-- A relation on finitely many elements that never comes back is well-founded. -/
theorem wellFounded_of_acyclic {r : κ → κ → Prop} {keys : Set κ} (hfinite : keys.Finite)
    (hleft : ∀ a b, r a b → a ∈ keys) (h : ∀ k, ¬ Relation.TransGen r k k) : WellFounded r := by
  have hwell : keys.WellFoundedOn (Relation.TransGen r) := by
    have : IsStrictOrder κ (Relation.TransGen r) :=
      { irrefl := h, trans := fun _ _ _ hab hbc => hab.trans hbc }
    exact hfinite.wellFoundedOn
  have hacc : ∀ a, a ∈ keys → Acc r a := by
    intro a ha
    refine hwell.induction ha fun b _ ih => Acc.intro b fun c hc => ?_
    exact ih c (hleft c b hc) (.single hc)
  exact ⟨fun a => Acc.intro a fun b hb => hacc b (hleft b a hb)⟩

section Acyclic

variable {keys : Set κ} (hfinite : keys.Finite) (hkeys : ∀ k p, up k = some p → k ∈ keys)
  (hacyclic : Acyclic up)

include hfinite hkeys hacyclic

/-- Walking down ends. -/
theorem wellFounded_under : WellFounded (Under up) :=
  wellFounded_of_acyclic hfinite (fun a b h => hkeys a b h) hacyclic

/-- Walking up ends. -/
theorem wellFounded_above : WellFounded (Function.swap (Under up)) := by
  have hswap : ∀ k, ¬ Relation.TransGen (Function.swap (Under up)) k k := fun k h =>
    hacyclic k (Relation.transGen_swap.mp h)
  have hsteps : WellFounded fun a b => a ∈ keys ∧ Function.swap (Under up) a b :=
    wellFounded_of_acyclic hfinite (fun a b h => h.1) fun k h =>
      hswap k (Relation.TransGen.mono (fun _ _ hab => hab.2) k k h)
  refine ⟨fun a => Acc.intro a fun b hab => ?_⟩
  by_cases hb : b ∈ keys
  · have hacc := hsteps.apply b
    clear hab
    induction hacc with
    | intro b _ ih =>
      refine Acc.intro b fun c hbc => ?_
      by_cases hc : c ∈ keys
      · exact ih c ⟨hc, hbc⟩ hc
      · exact Acc.intro c fun d hcd => absurd (hkeys c d hcd) hc
  · exact Acc.intro b fun c hbc => absurd (hkeys b c hbc) hb

end Acyclic

/-- A key is below one of two siblings at most. -/
theorem sibling_unique (hacyclic : Acyclic up) {k a b p : κ} (ha : Under up a p)
    (hb : Under up b p) (hka : Relation.ReflTransGen (Under up) k a)
    (hkb : Relation.ReflTransGen (Under up) k b) : a = b := by
  have hunique : Relator.RightUnique (Under up) := fun x y z hy hz =>
    Option.mem_unique hy hz
  have hloop : ∀ {x y : κ}, Under up x p → Under up y p →
      Relation.ReflTransGen (Under up) x y → x = y := by
    intro x y hx hy hxy
    rcases hxy.cases_head with rfl | ⟨z, hxz, hzy⟩
    · rfl
    · obtain rfl := hunique hx hxz; exact absurd (Relation.TransGen.tail' hzy hy) (hacyclic p)
  rcases hka.total_of_right_unique hunique hkb with hab | hba
  · exact hloop ha hb hab
  · exact (hloop hb ha hba).symm

/-- What is below a key is the key's child, or below one. -/
theorem below_iff {k p : κ} :
    Below up k p ↔ ∃ child, Under up child p ∧ Relation.ReflTransGen (Under up) k child := by
  unfold Below
  rw [Relation.transGen_iff]
  constructor
  · rintro (h | ⟨child, hk, hchild⟩)
    · exact ⟨k, h, .refl⟩
    · exact ⟨child, hchild, hk.to_reflTransGen⟩
  · rintro ⟨child, hchild, hk⟩
    rcases Relation.reflTransGen_iff_eq_or_transGen.mp hk with rfl | hk
    · exact .inl hchild
    · exact .inr ⟨child, hk, hchild⟩

end Frogg.Library.Hierarchy
