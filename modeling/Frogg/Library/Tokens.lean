/-
  Subject:   Trimming a list and cutting it at its separators.
-/
namespace Frogg.Library

open List

variable {α β : Type}

/-! ## 1. Cutting -/

section

variable (sep : α → Bool)

/-- Without the separators at both ends. -/
def trimBy (xs : List α) : List α :=
  ((xs.dropWhile sep).reverse.dropWhile sep).reverse

/-- The pieces between separators that are not empty. -/
def pieces (xs : List α) : List (List α) :=
  (xs.splitOnP sep).filter fun piece => !piece.isEmpty

/-- Cut at every run of separators; `piece` is what was read since the last one, `inRun` says that
    the element before was a separator. -/
def splitRunsFrom (sep : α → Bool) : List α → Bool → List α → List (List α)
  | piece, _, [] => [piece]
  | piece, inRun, x :: xs =>
    if sep x then
      if inRun then splitRunsFrom sep piece true xs
      else piece :: splitRunsFrom sep [] true xs
    else splitRunsFrom sep (piece ++ [x]) false xs

variable (xs : List α)

/-- `xs.split(/sep+/)` -/
def splitRuns : List (List α) := splitRunsFrom sep [] false xs

/-- **Cutting at runs and at single separators differ in empty pieces only.** -/
theorem filter_splitRuns :
    (splitRuns sep xs).filter (fun piece => !piece.isEmpty) = pieces sep xs := by
  suffices h : ∀ (piece : List α) (inRun : Bool), (inRun = true → piece = []) →
      (splitRunsFrom sep piece inRun xs).filter (fun piece => !piece.isEmpty) =
        (xs.splitOnPPrepend sep piece.reverse).filter fun piece => !piece.isEmpty by
    exact h [] false nofun
  induction xs with
  | nil => intro piece inRun _; rw [splitRunsFrom, splitOnPPrepend_nil, reverse_reverse]
  | cons x xs ih =>
    intro piece inRun hrun
    rw [splitRunsFrom]
    cases hx : sep x with
    | false =>
      have happ : x :: piece.reverse = (piece ++ [x]).reverse := by simp
      rw [if_neg (by simp), splitOnPPrepend_cons_neg hx, happ]
      exact ih (piece ++ [x]) false nofun
    | true =>
      rw [if_pos rfl, splitOnPPrepend_cons_pos hx, reverse_reverse]
      have hrest := ih [] true fun _ => rfl
      cases inRun with
      | false => rw [if_neg (by simp), filter_cons, filter_cons, hrest]; rfl
      | true =>
        -- inside a run there is no piece to end
        rw [if_pos rfl, hrun rfl, hrest]
        rfl

/-! ## 2. What the pieces hold -/

/-- The pieces of a list, as what is read before the first separator and the rest. -/
theorem splitOnP_span : ∃ first rest, xs.splitOnP sep = first :: rest := by
  cases h : xs.splitOnP sep with
  | nil => exact absurd h (splitOnP_ne_nil sep xs)
  | cons first rest => exact ⟨first, rest, rfl⟩

/-- Elements that are no separator join the first piece. -/
theorem splitOnP_append_plain {sep : α → Bool} {code xs first : List α} {rest : List (List α)}
    (hcode : ∀ y ∈ code, sep y = false) (hsplit : xs.splitOnP sep = first :: rest) :
    (code ++ xs).splitOnP sep = (code ++ first) :: rest := by
  induction code with
  | nil => exact hsplit
  | cons y code ih =>
    have hy : ¬ sep y = true := by simp [hcode y mem_cons_self]
    rw [cons_append, splitOnP_cons_eq_if_modifyHead, if_neg hy,
      ih fun z hz => hcode z (mem_cons_of_mem y hz)]
    rfl

theorem mem_splitOnP_iff (x : α) :
    (∃ piece ∈ xs.splitOnP sep, x ∈ piece) ↔ x ∈ xs ∧ sep x = false := by
  induction xs with
  | nil => simp [splitOnP_nil]
  | cons y ys ih =>
    obtain ⟨first, rest, hsplit⟩ := splitOnP_span sep ys
    cases hy : sep y with
    | true =>
      have hne : sep x = false → x ≠ y := by rintro hx rfl; simp [hx] at hy
      rw [splitOnP_cons_eq_if_modifyHead, if_pos hy]
      simp only [mem_cons, exists_eq_or_imp, not_mem_nil, false_or, ih]
      constructor
      · rintro ⟨hmem, hx⟩; exact ⟨.inr hmem, hx⟩
      · rintro ⟨hmem, hx⟩; exact ⟨hmem.resolve_left (hne hx), hx⟩
    | false =>
      have hcode : ∀ z ∈ [y], sep z = false := by simp [hy]
      rw [hsplit] at ih
      rw [← singleton_append, splitOnP_append_plain hcode hsplit]
      simp only [mem_cons, exists_eq_or_imp, mem_append, not_mem_nil, or_false] at ih ⊢
      rw [or_assoc, ih]
      constructor
      · rintro (rfl | ⟨hmem, hx⟩)
        · exact ⟨.inl rfl, hy⟩
        · exact ⟨.inr hmem, hx⟩
      · rintro ⟨hmem, hx⟩; exact hmem.imp id fun hmem => ⟨hmem, hx⟩

/-- **The pieces hold the elements that are no separator, and no others.** -/
theorem mem_pieces_iff (x : α) : (∃ piece ∈ pieces sep xs, x ∈ piece) ↔ x ∈ xs ∧ sep x = false := by
  rw [← mem_splitOnP_iff]
  constructor
  · rintro ⟨piece, hpiece, hx⟩; exact ⟨piece, (mem_filter.mp hpiece).1, hx⟩
  · rintro ⟨piece, hpiece, hx⟩
    refine ⟨piece, mem_filter.mpr ⟨hpiece, ?_⟩, hx⟩
    cases piece with
    | nil => cases hx
    | cons y ys => rfl

end

section

variable {sep : α → Bool} {xs : List α} {x : α}

theorem mem_dropWhile_of_not (hmem : x ∈ xs) (hx : sep x = false) : x ∈ xs.dropWhile sep := by
  induction xs with
  | nil => cases hmem
  | cons y ys ih =>
    cases hy : sep y with
    | true =>
      rw [dropWhile_cons_of_pos hy]
      refine ih (mem_of_ne_of_mem ?_ hmem)
      rintro rfl
      simp [hx] at hy
    | false => rw [dropWhile_cons_of_neg (by simp [hy])]; exact hmem

theorem mem_trimBy_of_not (hmem : x ∈ xs) (hx : sep x = false) : x ∈ trimBy sep xs :=
  mem_reverse.mpr (mem_dropWhile_of_not (mem_reverse.mpr (mem_dropWhile_of_not hmem hx)) hx)

theorem mem_of_mem_trimBy (h : x ∈ trimBy sep xs) : x ∈ xs :=
  (dropWhile_sublist sep).subset
    (mem_reverse.mp ((dropWhile_sublist sep).subset (mem_reverse.mp h)))

end

/-! ## 3. Separators that agree on what is there -/

variable {sep sep' : α → Bool} {xs : List α}

section

variable (h : ∀ x ∈ xs, sep x = sep' x)
include h

theorem dropWhile_congr : xs.dropWhile sep = xs.dropWhile sep' := by
  induction xs with
  | nil => rfl
  | cons x xs ih =>
    rw [dropWhile_cons, dropWhile_cons, h x mem_cons_self,
      ih fun y hy => h y (mem_cons_of_mem x hy)]

theorem trimBy_congr : trimBy sep xs = trimBy sep' xs := by
  unfold trimBy
  rw [dropWhile_congr h, dropWhile_congr fun x hx =>
    h x ((dropWhile_sublist sep').subset (mem_reverse.mp hx))]

theorem pieces_congr : pieces sep xs = pieces sep' xs := by
  unfold pieces
  congr 1
  induction xs with
  | nil => rfl
  | cons x xs ih =>
    rw [splitOnP_cons_eq_if_modifyHead, splitOnP_cons_eq_if_modifyHead,
      h x mem_cons_self, ih fun y hy => h y (mem_cons_of_mem x hy)]

end

/-! ## 4. Cutting before and after an encoding -/

/-- A separator is encoded as one separator, anything else without one. -/
structure KeepsSeparators (encode : α → List β) (sep : α → Bool) (sep' : β → Bool) : Prop where
  separator : ∀ x, sep x = true → ∃ y, encode x = [y] ∧ sep' y = true
  plain : ∀ x, sep x = false → encode x ≠ [] ∧ ∀ y ∈ encode x, sep' y = false

namespace KeepsSeparators

variable {encode : α → List β} {sep : α → Bool} {sep' : β → Bool}

section

variable (h : KeepsSeparators encode sep sep')
include h

theorem dropWhile (xs : List α) :
    (xs.flatMap encode).dropWhile sep' = (xs.dropWhile sep).flatMap encode := by
  induction xs with
  | nil => rfl
  | cons x xs ih =>
    cases hx : sep x with
    | true =>
      obtain ⟨y, hy, hsep⟩ := h.separator x hx
      rw [dropWhile_cons_of_pos hx, flatMap_cons, hy, singleton_append, dropWhile_cons_of_pos hsep]
      exact ih
    | false =>
      obtain ⟨hne, hplain⟩ := h.plain x hx
      rw [dropWhile_cons_of_neg (by simp [hx]), flatMap_cons]
      cases hcode : encode x with
      | nil => exact absurd hcode hne
      | cons y ys => simp [hplain y (by simp [hcode])]

/-- Read backwards, too. -/
theorem reverse :
    KeepsSeparators (fun x => (encode x).reverse) sep sep' where
  separator x hx := by obtain ⟨y, hy, hsep⟩ := h.separator x hx; exact ⟨y, by rw [hy]; rfl, hsep⟩
  plain x hx := by
    obtain ⟨hne, hplain⟩ := h.plain x hx
    exact ⟨by simpa using hne, fun y hy => hplain y (mem_reverse.mp hy)⟩

theorem trimBy (xs : List α) :
    trimBy sep' (xs.flatMap encode) = (Library.trimBy sep xs).flatMap encode := by
  have hback : ∀ zs : List α, (zs.flatMap encode).reverse =
      zs.reverse.flatMap fun x => (encode x).reverse := fun zs => reverse_flatMap ..
  unfold Library.trimBy
  rw [h.dropWhile, hback, h.reverse.dropWhile, flatMap_reverse]
  rfl

theorem splitOnP (xs : List α) :
    (xs.flatMap encode).splitOnP sep' = (xs.splitOnP sep).map (flatMap encode) := by
  induction xs with
  | nil => rfl
  | cons x xs ih =>
    obtain ⟨first, rest, hsplit⟩ := splitOnP_span sep xs
    rw [splitOnP_cons_eq_if_modifyHead, flatMap_cons]
    cases hx : sep x with
    | true =>
      obtain ⟨y, hy, hsep⟩ := h.separator x hx
      rw [hy, singleton_append, splitOnP_cons_eq_if_modifyHead, if_pos hsep, ih]
      rfl
    | false =>
      rw [hsplit, map_cons] at ih
      rw [if_neg (by simp), splitOnP_append_plain (h.plain x hx).2 ih, hsplit]
      rfl

theorem isEmpty_flatMap {piece : List α} (hpiece : ∀ x ∈ piece, sep x = false) :
    (piece.flatMap encode).isEmpty = piece.isEmpty := by
  cases piece with
  | nil => rfl
  | cons x xs =>
    obtain ⟨hne, -⟩ := h.plain x (hpiece x mem_cons_self)
    rw [flatMap_cons]
    cases hcode : encode x with
    | nil => exact absurd hcode hne
    | cons y ys => rfl

theorem pieces (xs : List α) :
    pieces sep' (xs.flatMap encode) = (Library.pieces sep xs).map (flatMap encode) := by
  unfold Library.pieces
  rw [h.splitOnP, filter_map]
  congr 1
  refine filter_congr fun piece hpiece => ?_
  rw [Function.comp_apply, h.isEmpty_flatMap fun x hx =>
    ((mem_splitOnP_iff sep xs x).mp ⟨piece, hpiece, hx⟩).2]

end

end KeepsSeparators

end Frogg.Library
