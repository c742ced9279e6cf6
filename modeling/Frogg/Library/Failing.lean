/-
  Subject:   Taking apart a computation that may fail and did not.
-/
namespace Frogg.Library

universe u

variable {ε : Type} {α β : Type u} {x : Except ε α} {f : α → Except ε β} {b : β}

theorem except_bind_ok (h : (x >>= f) = .ok b) : ∃ a, x = .ok a ∧ f a = .ok b := by
  cases x with
  | error e => cases h
  | ok a => exact ⟨a, rfl, h⟩

theorem except_map_ok {f : α → β} (h : f <$> x = .ok b) : ∃ a, x = .ok a ∧ f a = b := by
  cases x with
  | error e => cases h
  | ok a => exact ⟨a, rfl, Except.ok.inj h⟩

/-- An optional input that was checked. -/
theorem option_mapM_ok {x : Option α} {y : Option β} (h : x.mapM f = .ok y) :
    (x = none ∧ y = none) ∨ ∃ a b, x = some a ∧ y = some b ∧ f a = .ok b := by
  cases x with
  | none => exact .inl ⟨rfl, (Except.ok.inj h).symm⟩
  | some a =>
    have hmap : some <$> f a = .ok y := h
    obtain ⟨b, hb, rfl⟩ := except_map_ok hmap
    exact .inr ⟨a, b, rfl, rfl, hb⟩

end Frogg.Library
