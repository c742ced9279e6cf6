/-
  Subject:   Maps as JavaScript keeps them: one entry a key, in the order of first insertion.
-/
import Mathlib.Data.List.Nodup
import Mathlib.Data.List.Perm.Subperm

namespace Frogg.Library

open List Option

universe u v

/-- A map is its entries; no key has two. -/
structure JsMap (κ : Type u) (α : Type v) where
  entries : List (κ × α)
  nodup : (entries.map Prod.fst).Nodup

namespace JsMap

variable {κ : Type u} {α : Type v}

instance [DecidableEq κ] [DecidableEq α] : DecidableEq (JsMap κ α) := fun m m' =>
  decidable_of_iff (m.entries = m'.entries) (by cases m; cases m'; simp)

/-! ## 1. Operations -/

def empty : JsMap κ α := ⟨[], nodup_nil⟩

def size (m : JsMap κ α) : Nat := m.entries.length

def keys (m : JsMap κ α) : List κ := m.entries.map Prod.fst

def values (m : JsMap κ α) : List α := m.entries.map Prod.snd

variable [DecidableEq κ]

section

variable (m : JsMap κ α) (k : κ)

def get? : Option α := (m.entries.find? (·.1 = k)).map Prod.snd

def has : Bool := (m.get? k).isSome

/-- A key that has an entry keeps its place. -/
def set (a : α) : JsMap κ α :=
  if h : k ∈ m.keys then
    ⟨m.entries.map fun e => if e.1 = k then (k, a) else e, by
      have hkeys : (m.entries.map fun e => if e.1 = k then (k, a) else e).map Prod.fst =
          m.entries.map Prod.fst := by
        rw [List.map_map]
        refine List.map_congr_left fun e _ => ?_
        dsimp only [Function.comp]
        split
        · exact Eq.symm ‹_›
        · rfl
      rw [hkeys]
      exact m.nodup⟩
  else
    ⟨m.entries ++ [(k, a)], by
      rw [map_append, map_singleton]
      exact nodup_append.mpr ⟨m.nodup, nodup_singleton k, by
        intro x hx y hy hxy
        have hxk : x = k := hxy.trans (mem_singleton.mp hy)
        exact h (hxk ▸ hx)⟩⟩

def delete : JsMap κ α :=
  ⟨m.entries.filter (·.1 ≠ k), (m.nodup.sublist (filter_sublist.map Prod.fst))⟩

end

/-- `new Map(entries)` -/
def ofList (entries : List (κ × α)) : JsMap κ α :=
  entries.foldl (fun m e => m.set e.1 e.2) empty

/-! ## 2. What a key holds -/

variable {m m' : JsMap κ α} {k k' : κ} {a b : α}

theorem get?_eq_some_iff : m.get? k = some a ↔ (k, a) ∈ m.entries := by
  unfold get?
  constructor
  · intro h
    obtain ⟨e, he, rfl⟩ := map_eq_some_iff.mp h
    have hk : e.1 = k := by simpa using find?_some he
    exact hk ▸ mem_of_find?_eq_some he
  · intro h
    cases hf : m.entries.find? (·.1 = k) with
    | none =>
      have := find?_eq_none.mp hf (k, a) h
      simp at this
    | some e =>
      have hk : e.1 = k := by simpa using find?_some hf
      have he := inj_on_of_nodup_map m.nodup (mem_of_find?_eq_some hf) h hk
      rw [he]
      rfl

theorem get?_eq_none_iff : m.get? k = none ↔ k ∉ m.keys := by
  rw [eq_none_iff_forall_ne_some]
  unfold keys
  rw [List.mem_map]
  constructor
  · rintro h ⟨⟨k', a⟩, he, rfl⟩; exact h a (get?_eq_some_iff.mpr he)
  · intro h a ha; exact h ⟨(k, a), get?_eq_some_iff.mp ha, rfl⟩

theorem mem_keys_iff : k ∈ m.keys ↔ ∃ a, m.get? k = some a := by
  rw [← not_iff_not, ← get?_eq_none_iff, ← isSome_iff_exists, not_isSome_iff_eq_none]

theorem has_iff : m.has k = true ↔ ∃ a, m.get? k = some a := isSome_iff_exists

theorem has_eq_false_iff : m.has k = false ↔ m.get? k = none := by
  unfold has
  rw [isSome_eq_false_iff, isNone_iff_eq_none]

theorem mem_values_iff : a ∈ m.values ↔ ∃ k, m.get? k = some a := by
  unfold values
  rw [List.mem_map]
  constructor
  · rintro ⟨⟨k, a⟩, he, rfl⟩; exact ⟨k, get?_eq_some_iff.mpr he⟩
  · rintro ⟨k, hk⟩; exact ⟨(k, a), get?_eq_some_iff.mp hk, rfl⟩

@[simp] theorem get?_empty : (empty : JsMap κ α).get? k = none := rfl

@[simp] theorem get?_set_self : (m.set k a).get? k = some a := by
  rw [get?_eq_some_iff]
  unfold set
  split
  · rename_i h; obtain ⟨e, he, rfl⟩ := List.mem_map.mp h; exact List.mem_map.mpr ⟨e, he, if_pos rfl⟩
  · exact mem_append_right _ (mem_singleton_self _)

theorem get?_set_of_ne (h : k' ≠ k) : (m.set k a).get? k' = m.get? k' := by
  refine Option.ext fun b => ?_
  rw [get?_eq_some_iff, get?_eq_some_iff]
  unfold set
  split
  · rw [List.mem_map]
    constructor
    · rintro ⟨e, he, heq⟩
      split at heq
      · exact absurd (congrArg Prod.fst heq).symm h
      · exact heq ▸ he
    · intro hb; exact ⟨(k', b), hb, if_neg h⟩
  · rw [mem_append, mem_singleton]
    refine ⟨fun hb => hb.resolve_right fun heq => h (congrArg Prod.fst heq), .inl⟩

theorem get?_set : (m.set k a).get? k' = if k' = k then some a else m.get? k' := by
  split
  · rename_i h; rw [h, get?_set_self]
  · exact get?_set_of_ne ‹_›

@[simp] theorem get?_delete_self : (m.delete k).get? k = none := by
  rw [get?_eq_none_iff]
  unfold keys delete
  rw [List.mem_map]
  simp

theorem get?_delete_of_ne (h : k' ≠ k) : (m.delete k).get? k' = m.get? k' := by
  refine ext fun b => ?_
  rw [get?_eq_some_iff, get?_eq_some_iff]
  unfold delete
  simp [h]

theorem get?_delete : (m.delete k).get? k' = if k' = k then none else m.get? k' := by
  split
  · rename_i h; rw [h, get?_delete_self]
  · exact get?_delete_of_ne ‹_›

theorem get?_delete_eq_some :
    (m.delete k).get? k' = some a ↔ k' ≠ k ∧ m.get? k' = some a := by
  rw [get?_delete]
  split <;> simp [*]

/-! ## 3. Many keys -/

variable {β : Type*}

theorem get?_foldl_delete (f : β → κ) (bs : List β) (m : JsMap κ α) (k : κ) :
    (bs.foldl (fun m b => m.delete (f b)) m).get? k = if k ∈ bs.map f then none else m.get? k := by
  induction bs generalizing m with
  | nil => rfl
  | cons b bs ih =>
    rw [foldl_cons, ih, map_cons, get?_delete]
    by_cases hb : k = f b
    · have hmem : k ∈ f b :: bs.map f := by rw [hb]; exact mem_cons_self
      rw [if_pos hb, if_pos hmem, ite_self]
    · have hiff : k ∈ f b :: bs.map f ↔ k ∈ bs.map f := by rw [mem_cons, or_iff_right hb]
      rw [if_neg hb]
      exact if_congr hiff.symm rfl rfl

variable (f : α → κ)

/-- Where `a` is the only value to be set at the key. -/
theorem get?_foldl_set (as : List α) (m : JsMap κ α) {k : κ} {a : α} (h : ∀ b ∈ as, f b = k → b = a) :
    (as.foldl (fun m a => m.set (f a) a) m).get? k =
      if k ∈ as.map f then some a else m.get? k := by
  induction as generalizing m with
  | nil => rfl
  | cons b as ih =>
    rw [foldl_cons, ih _ fun c hc => h c (mem_cons_of_mem _ hc), map_cons, get?_set]
    by_cases hb : k = f b
    · have hba : b = a := h b mem_cons_self hb.symm
      have hmem : k ∈ f b :: as.map f := by rw [hb]; exact mem_cons_self
      rw [if_pos hb, if_pos hmem, hba, ite_self]
    · have hiff : k ∈ f b :: as.map f ↔ k ∈ as.map f := by rw [mem_cons, or_iff_right hb]
      rw [if_neg hb]
      exact if_congr hiff.symm rfl rfl

/-- Where each value tells its key, the values of a key are the one it has. -/
theorem filter_values (h : ∀ k a, m.get? k = some a → f a = k) (k : κ) :
    m.values.filter (f · = k) = (m.get? k).toList := by
  have hkeys : ∀ e ∈ m.entries, f e.2 = e.1 := fun e he => h e.1 e.2 (get?_eq_some_iff.mpr he)
  have hget : ∀ es : List (κ × α), (es.map Prod.fst).Nodup → (∀ e ∈ es, f e.2 = e.1) →
      (es.map Prod.snd).filter (f · = k) = ((es.find? (·.1 = k)).map Prod.snd).toList := by
    intro es hnodup hes
    induction es with
    | nil => rfl
    | cons e es ih =>
      obtain ⟨hnotin, hnodup⟩ := nodup_cons.mp hnodup
      have hrest := ih hnodup fun e he => hes e (mem_cons_of_mem _ he)
      have he : f e.2 = e.1 := hes e mem_cons_self
      rw [map_cons, filter_cons, find?_cons, he]
      by_cases hk : e.1 = k
      · have hnone : es.find? (·.1 = k) = none := by
          refine find?_eq_none.mpr fun e' he' => ?_
          have hne : e'.1 ≠ k := fun heq =>
            hnotin (hk.trans heq.symm ▸ mem_map_of_mem he')
          simpa using hne
        rw [hrest, hnone]
        simp [hk]
      · rw [hrest]; simp [hk]
  exact hget m.entries m.nodup hkeys

theorem has_set : (m.set k a).has k' = (decide (k' = k) || m.has k') := by
  unfold has
  rw [get?_set]
  by_cases h : k' = k
  · simp [h]
  · simp [h]

theorem has_delete : (m.delete k).has k' = (!decide (k' = k) && m.has k') := by
  unfold has
  rw [get?_delete]
  by_cases h : k' = k
  · simp [h]
  · simp [h]

variable (l : List (κ × α))

theorem has_ofList (k : κ) : (ofList l).has k = l.any (·.1 = k) := by
  suffices h : ∀ m : JsMap κ α,
      (l.foldl (fun m e => m.set e.1 e.2) m).has k = (m.has k || l.any (·.1 = k)) by
    exact h empty
  induction l with
  | nil => simp
  | cons e l ih =>
    intro m
    rw [foldl_cons, ih, has_set, any_cons, ← Bool.or_assoc, Bool.or_comm (m.has k)]
    simp [eq_comm]

/-- What a map made of entries holds is one of them. -/
theorem mem_of_get?_ofList {l : List (κ × α)} (h : (ofList l).get? k = some a) : (k, a) ∈ l := by
  suffices hfold : ∀ m : JsMap κ α, (l.foldl (fun m e => m.set e.1 e.2) m).get? k = some a →
      m.get? k = some a ∨ (k, a) ∈ l by
    exact (hfold empty h).resolve_left nofun
  clear h
  induction l with
  | nil => exact fun m h => .inl h
  | cons e l ih =>
    intro m hm
    rcases ih _ hm with hset | hmem
    · rw [get?_set] at hset
      by_cases hk : k = e.1
      · rw [if_pos hk] at hset; obtain rfl := some.inj hset; exact .inr (hk ▸ mem_cons_self)
      · rw [if_neg hk] at hset; exact .inl hset
    · exact .inr (mem_cons_of_mem e hmem)

theorem get?_foldl_entries (m : JsMap κ α) (k : κ) : (l.foldl (fun m e => m.set e.1 e.2) m).get? k =
      ((l.reverse.find? (·.1 = k)).map Prod.snd).or (m.get? k) := by
  induction l generalizing m with
  | nil => rfl
  | cons e l ih =>
    rw [foldl_cons, ih, get?_set, reverse_cons, find?_append]
    cases l.reverse.find? fun e => decide (e.1 = k) with
    | some last => rfl
    | none =>
      by_cases h : k = e.1
      · simp [h]
      · simp [h, Ne.symm h]

/-- The last entry of a key decides. -/
theorem get?_ofList (k : κ) : (ofList l).get? k = (l.reverse.find? (·.1 = k)).map Prod.snd := by
  show (l.foldl (fun m e => m.set e.1 e.2) empty).get? k = _
  rw [get?_foldl_entries, get?_empty, or_none]

theorem get?_ofList_append (l l' : List (κ × α)) (k : κ) :
    (ofList (l ++ l')).get? k = ((ofList l').get? k).or ((ofList l).get? k) := by
  rw [get?_ofList l']
  show ((l ++ l').foldl (fun m e => m.set e.1 e.2) empty).get? k = _
  rw [foldl_append, get?_foldl_entries]
  rfl

/-- Where each value tells its key, a map made of values holds what they give. -/
theorem get?_ofList_filterMap_values (g : α → Option β) (h : ∀ k a, m.get? k = some a → f a = k)
    (k : κ) :
    (ofList (m.values.filterMap fun a => (g a).map (f a, ·))).get? k = (m.get? k).bind g := by
  refine ext fun b => ?_
  rw [bind_eq_some_iff]
  have hvalue : ∀ b', (k, b') ∈ m.values.filterMap (fun a => (g a).map (f a, ·)) →
      ∃ a, m.get? k = some a ∧ g a = some b' := by
    intro b' hb'
    obtain ⟨a, ha, hg⟩ := mem_filterMap.mp hb'
    obtain ⟨b'', hb'', heq⟩ := map_eq_some_iff.mp hg
    obtain ⟨rfl, rfl⟩ := Prod.mk.inj heq
    obtain ⟨k, hk⟩ := mem_values_iff.mp ha
    exact ⟨a, h k a hk ▸ hk, hb''⟩
  constructor
  · intro hget; exact hvalue b (mem_of_get?_ofList hget)
  · intro hget
    obtain ⟨a, ha, hb⟩ := hget
    have hhas : (ofList (m.values.filterMap fun a => (g a).map (f a, ·))).has k = true := by
      rw [has_ofList, List.any_eq_true]
      refine ⟨(f a, b), mem_filterMap.mpr ⟨a, mem_values_iff.mpr ⟨k, ha⟩, ?_⟩, ?_⟩
      · rw [hb]; rfl
      · exact decide_eq_true (h k a ha)
    obtain ⟨b', hb'⟩ := has_iff.mp hhas
    obtain ⟨a', ha', hb''⟩ := hvalue b' (mem_of_get?_ofList hb')
    obtain rfl := mem_unique ha ha'
    rw [hb', ← hb'', hb]

theorem get?_ofList_values (g : α → β) (h : ∀ k a, m.get? k = some a → f a = k) (k : κ) :
    (ofList (m.values.map fun a => (f a, g a))).get? k = (m.get? k).map g := by
  have hlist : m.values.map (fun a => (f a, g a)) =
      m.values.filterMap fun a => (some (g a)).map (f a, ·) :=
    (congrFun filterMap_eq_map m.values).symm
  rw [hlist, get?_ofList_filterMap_values f (fun a => some (g a)) h k]
  cases m.get? k <;> rfl

/-! ## 4. Size -/

theorem size_set_of_mem (h : k ∈ m.keys) : (m.set k a).size = m.size := by
  unfold set size
  rw [dif_pos h, length_map]

theorem size_set_of_not_mem (h : k ∉ m.keys) : (m.set k a).size = m.size + 1 := by
  unfold set size
  rw [dif_neg h, length_append, length_singleton]

theorem size_delete_lt (h : m.get? k = some a) : (m.delete k).size < m.size := by
  refine length_filter_lt_length_iff_exists.mpr ⟨(k, a), get?_eq_some_iff.mp h, ?_⟩
  simp

theorem size_delete_le : (m.delete k).size ≤ m.size := length_filter_le _ _

/-- How many of the values meet a test, where these keys were added. -/
theorem countP_values_le {p : α → Bool} (added : List κ)
    (h : ∀ k a, m'.get? k = some a → p a = true →
      k ∈ added ∨ ∃ b, m.get? k = some b ∧ p b = true) :
    m'.values.countP p ≤ m.values.countP p + added.length := by
  have hcount : ∀ m : JsMap κ α,
      m.values.countP p = ((m.entries.filter fun e => p e.2).map Prod.fst).length := by
    intro m
    unfold values
    rw [countP_map, countP_eq_length_filter, length_map]
    rfl
  have hnodup : ((m'.entries.filter fun e => p e.2).map Prod.fst).Nodup :=
    m'.nodup.sublist (filter_sublist.map Prod.fst)
  have hsubset : (m'.entries.filter fun e => p e.2).map Prod.fst ⊆
      (m.entries.filter fun e => p e.2).map Prod.fst ++ added := by
    intro k hk
    obtain ⟨e, he, rfl⟩ := mem_map.mp hk
    obtain ⟨he, hp⟩ := mem_filter.mp he
    rw [mem_append]
    rcases h e.1 e.2 (get?_eq_some_iff.mpr he) hp with hadded | ⟨b, hb, hpb⟩
    · exact .inr hadded
    · exact .inl (mem_map.mpr ⟨(e.1, b), mem_filter.mpr ⟨get?_eq_some_iff.mp hb, hpb⟩, rfl⟩)
  have hlength := (subperm_of_subset hnodup hsubset).length_le
  rw [length_append] at hlength
  rw [hcount m', hcount m]
  exact hlength

/-- A map with part of the entries. -/
theorem get?_of_sublist (h : m'.entries.Sublist m.entries) (ha : m'.get? k = some a) :
    m.get? k = some a :=
  get?_eq_some_iff.mpr (h.subset (get?_eq_some_iff.mp ha))

end JsMap

end Frogg.Library
