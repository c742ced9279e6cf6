/-
  Subject:   Things that are kept under keys, and are opened and spent once each.
-/
import Mathlib.Data.List.Nodup

namespace Frogg.Library

open List

universe u v w x

/-- What is held under the keys, and what was opened and spent so far: each by its number. -/
structure Ledger (κ : Type u) (τ : Type v) (δ : Type w) (σ : Type x) where
  held : κ → Option (τ × δ)
  opened : List (τ × δ)
  spent : List (τ × σ)

namespace Ledger

variable {κ : Type u} {τ : Type v} {δ : Type w} {σ : Type x} {honours : δ → σ → Prop}
  {l l' : Ledger κ τ δ σ} {k : κ} {t : τ} {d : δ} {s : σ}

/-- **Nothing is spent twice, nor otherwise than it was opened.** -/
structure Sound (honours : δ → σ → Prop) (l : Ledger κ τ δ σ) : Prop where
  distinct : ∀ k k' t d d', l.held k = some (t, d) → l.held k' = some (t, d') → k = k'
  known : ∀ k x, l.held k = some x → x ∈ l.opened
  unspent : ∀ k t d, l.held k = some (t, d) → t ∉ l.spent.map Prod.fst
  openedOnce : (l.opened.map Prod.fst).Nodup
  spentOnce : (l.spent.map Prod.fst).Nodup
  honoured : ∀ t s, (t, s) ∈ l.spent → ∃ d, (t, d) ∈ l.opened ∧ honours d s

theorem sound_empty : Sound honours (⟨fun _ => none, [], []⟩ : Ledger κ τ δ σ) where
  distinct := nofun
  known := nofun
  unspent := nofun
  openedOnce := nodup_nil
  spentOnce := nodup_nil
  honoured := by simp

/-- What is held may be given up. -/
theorem Sound.shrink (h : Sound honours l) (hopened : l'.opened = l.opened)
    (hspent : l'.spent = l.spent) (hheld : ∀ k x, l'.held k = some x → l.held k = some x) :
    Sound honours l' where
  distinct k k' t d d' hk hk' := h.distinct k k' t d d' (hheld _ _ hk) (hheld _ _ hk')
  known k x hk := hopened ▸ h.known k x (hheld _ _ hk)
  unspent k t d hk := hspent ▸ h.unspent k t d (hheld _ _ hk)
  openedOnce := hopened ▸ h.openedOnce
  spentOnce := hspent ▸ h.spentOnce
  honoured := by rw [hopened, hspent]; exact h.honoured

theorem Sound.spent_mem_opened (h : Sound honours l) (ht : t ∈ l.spent.map Prod.fst) :
    t ∈ l.opened.map Prod.fst := by
  obtain ⟨⟨t, s⟩, hs, rfl⟩ := mem_map.mp ht
  obtain ⟨d, hd, -⟩ := h.honoured t s hs
  exact mem_map_of_mem hd

theorem nodup_map_concat {α : Type*} {as : List (τ × α)} {a : τ × α}
    (h : (as.map Prod.fst).Nodup) (hfresh : a.1 ∉ as.map Prod.fst) :
    ((as ++ [a]).map Prod.fst).Nodup := by
  rw [map_append, map_singleton]
  refine nodup_append.mpr ⟨h, nodup_singleton _, ?_⟩
  intro b hb c hc hbc
  rw [mem_singleton] at hc
  exact hfresh (hc ▸ hbc ▸ hb)

/-- What is opened under a key has a number of its own. -/
theorem Sound.open (h : Sound honours l) (hfresh : t ∉ l.opened.map Prod.fst)
    (hopened : l'.opened = l.opened ++ [(t, d)]) (hspent : l'.spent = l.spent)
    (hheld : ∀ k' x, l'.held k' = some x → l.held k' = some x ∨ k' = k ∧ x = (t, d)) :
    Sound honours l' := by
  have hother : ∀ k' d', l.held k' ≠ some (t, d') := fun k' d' hk' =>
    hfresh (mem_map_of_mem (h.known k' _ hk'))
  refine ⟨?_, ?_, ?_, ?_, hspent ▸ h.spentOnce, ?_⟩
  · intro k₁ k₂ t' d₁ d₂ h₁ h₂
    rcases hheld k₁ _ h₁ with h₁ | ⟨rfl, heq₁⟩ <;> rcases hheld k₂ _ h₂ with h₂ | ⟨rfl, heq₂⟩
    · exact h.distinct k₁ k₂ t' d₁ d₂ h₁ h₂
    · obtain ⟨rfl, -⟩ := Prod.mk.inj heq₂; exact absurd h₁ (hother _ _)
    · obtain ⟨rfl, -⟩ := Prod.mk.inj heq₁; exact absurd h₂ (hother _ _)
    · rfl
  · intro k' x hk'
    rw [hopened, mem_append, mem_singleton]
    exact (hheld k' x hk').imp (h.known k' x) And.right
  · intro k' t' d' hk'
    rw [hspent]
    rcases hheld k' _ hk' with hk' | ⟨-, heq⟩
    · exact h.unspent k' t' d' hk'
    · obtain ⟨rfl, -⟩ := Prod.mk.inj heq; exact fun ht => hfresh (h.spent_mem_opened ht)
  · rw [hopened]; exact nodup_map_concat h.openedOnce hfresh
  · intro t' s hs
    rw [hspent] at hs
    obtain ⟨d', hd', hhonours⟩ := h.honoured t' s hs
    exact ⟨d', hopened ▸ mem_append_left _ hd', hhonours⟩

/-- What is spent is held no more. -/
theorem Sound.spend (h : Sound honours l) (hk : l.held k = some (t, d)) (hhonours : honours d s)
    (hopened : l'.opened = l.opened) (hspent : l'.spent = l.spent ++ [(t, s)])
    (hheld : ∀ k' x, l'.held k' = some x → l.held k' = some x ∧ k' ≠ k) : Sound honours l' := by
  have hunspent := h.unspent k t d hk
  refine ⟨?_, ?_, ?_, hopened ▸ h.openedOnce, ?_, ?_⟩
  · intro k₁ k₂ t' d₁ d₂ h₁ h₂; exact h.distinct k₁ k₂ t' d₁ d₂ (hheld _ _ h₁).1 (hheld _ _ h₂).1
  · intro k' x hk'; exact hopened ▸ h.known k' x (hheld k' x hk').1
  · intro k' t' d' hk'
    obtain ⟨hk', hne⟩ := hheld k' _ hk'
    rw [hspent, map_append, map_singleton, mem_append, mem_singleton]
    rintro (hmem | rfl)
    · exact h.unspent k' t' d' hk' hmem
    · exact hne (h.distinct k' k _ d' d hk' hk)
  · rw [hspent]; exact nodup_map_concat h.spentOnce hunspent
  · intro t' s' hs'
    rw [hopened]
    rw [hspent, mem_append, mem_singleton] at hs'
    rcases hs' with hs' | heq
    · exact h.honoured t' s' hs'
    · obtain ⟨rfl, rfl⟩ := Prod.mk.inj heq; exact ⟨d, h.known k _ hk, hhonours⟩

end Ledger

end Frogg.Library
