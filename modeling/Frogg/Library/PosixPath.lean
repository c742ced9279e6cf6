/-
  Subject:   Absolute paths: a path is resolved to its segments, and resolving it again changes
             nothing.
-/
import Frogg.Library.Tokens

namespace Frogg.Library

open List

/-- One segment further; `.` and an empty segment stay, `..` goes back. -/
def climb (stack : List (List Char)) (segment : List Char) : List (List Char) :=
  if segment = [] ∨ segment = ['.'] then stack
  else if segment = ['.', '.'] then stack.dropLast
  else stack ++ [segment]

variable (cs : List Char)

def pathSegments : List (List Char) := (cs.splitOn '/').foldl climb []

variable (workingDirectory path : String)

/-- `path.resolve(path)` in an absolute working directory. -/
def resolvePath : String :=
  let text :=
    if path.toList.head? = some '/' then path.toList
    else workingDirectory.toList ++ '/' :: path.toList
  String.ofList ('/' :: ['/'].intercalate (pathSegments text))

/-- What a segment of a resolved path is. -/
def IsSegment (segment : List Char) : Prop :=
  segment ≠ [] ∧ segment ≠ ['.'] ∧ segment ≠ ['.', '.'] ∧ '/' ∉ segment

theorem not_mem_of_mem_splitOn : ∀ piece ∈ cs.splitOn '/', '/' ∉ piece :=
  fun piece hpiece hmem =>
    absurd ((mem_splitOnP_iff (· == '/') cs '/').mp ⟨piece, hpiece, hmem⟩).2 (by decide)

theorem isSegment_climb {stack : List (List Char)} {segment : List Char}
    (hstack : ∀ piece ∈ stack, IsSegment piece) (hsegment : '/' ∉ segment) :
    ∀ piece ∈ climb stack segment, IsSegment piece := by
  intro piece hpiece
  unfold climb at hpiece
  split at hpiece
  · exact hstack piece hpiece
  · rename_i hnone
    split at hpiece
    · exact hstack piece (dropLast_subset stack hpiece)
    · rename_i hback
      rcases mem_append.mp hpiece with hpiece | hpiece
      · exact hstack piece hpiece
      · obtain rfl := mem_singleton.mp hpiece
        exact ⟨fun h => hnone (.inl h), fun h => hnone (.inr h), hback, hsegment⟩

theorem isSegment_pathSegments : ∀ piece ∈ pathSegments cs, IsSegment piece := by
  have hfold : ∀ (pieces stack : List (List Char)), (∀ piece ∈ pieces, '/' ∉ piece) →
      (∀ piece ∈ stack, IsSegment piece) → ∀ piece ∈ pieces.foldl climb stack, IsSegment piece := by
    intro pieces
    induction pieces with
    | nil => exact fun stack _ hstack => hstack
    | cons first pieces ih =>
      intro stack hpieces hstack
      exact ih (climb stack first) (fun piece hpiece => hpieces piece (mem_cons_of_mem _ hpiece))
        (isSegment_climb hstack (hpieces first mem_cons_self))
  exact hfold _ _ (not_mem_of_mem_splitOn cs) fun _ h => absurd h not_mem_nil

variable {segments : List (List Char)}

/-- Segments are climbed one by one. -/
theorem foldl_climb (h : ∀ piece ∈ segments, IsSegment piece)
    (stack : List (List Char)) : segments.foldl climb stack = stack ++ segments := by
  induction segments generalizing stack with
  | nil => exact (append_nil stack).symm
  | cons segment segments ih =>
    obtain ⟨hempty, hdot, hback, -⟩ := h segment mem_cons_self
    have hclimb : climb stack segment = stack ++ [segment] := by
      unfold climb
      rw [if_neg (not_or.mpr ⟨hempty, hdot⟩), if_neg hback]
    rw [foldl_cons, hclimb, ih fun piece hpiece => h piece (mem_cons_of_mem _ hpiece), append_assoc]
    rfl

theorem pathSegments_intercalate (h : ∀ piece ∈ segments, IsSegment piece) :
    pathSegments ('/' :: ['/'].intercalate segments) = segments := by
  have hsplit : ('/' :: ['/'].intercalate segments).splitOn '/' =
      [] :: (['/'].intercalate segments).splitOn '/' := splitOn_append_cons_self [] _
  unfold pathSegments
  rw [hsplit, foldl_cons]
  have hstay : climb [] [] = [] := rfl
  rw [hstay]
  cases segments with
  | nil => rfl
  | cons segment segments =>
    rw [splitOn_intercalate '/' (fun piece hpiece => (h piece hpiece).2.2.2)
      (cons_ne_nil _ _), foldl_climb h, nil_append]

theorem pathSegments_concat {segment : List Char} (h : IsSegment segment) :
    pathSegments (cs ++ '/' :: segment) = pathSegments cs ++ [segment] := by
  unfold pathSegments
  rw [splitOn_append_cons_self, foldl_append, splitOn_eq_singleton h.2.2.2,
    foldl_climb fun piece hpiece => mem_singleton.mp hpiece ▸ h]

/-- `path.join(directory, name)`, in an absolute directory. -/
def joinPath (directory name : String) : String :=
  String.ofList ('/' :: ['/'].intercalate (pathSegments (directory.toList ++ '/' :: name.toList)))

/-- Two names of one segment are two files of a directory. -/
theorem joinPath_inj {directory a b : String} (ha : IsSegment a.toList) (hb : IsSegment b.toList)
    (h : joinPath directory a = joinPath directory b) : a = b := by
  have hsegments := congrArg pathSegments (String.ofList_injective h)
  rw [pathSegments_intercalate (isSegment_pathSegments _),
    pathSegments_intercalate (isSegment_pathSegments _), pathSegments_concat _ ha,
    pathSegments_concat _ hb] at hsegments
  exact String.toList_inj.mp (singleton_inj.mp (append_cancel_left hsegments))

/-- **A resolved path resolves to itself.** -/
theorem resolvePath_resolvePath : resolvePath workingDirectory (resolvePath workingDirectory path) =
      resolvePath workingDirectory path := by
  have hsegments := isSegment_pathSegments
    (if path.toList.head? = some '/' then path.toList
      else workingDirectory.toList ++ '/' :: path.toList)
  unfold resolvePath
  dsimp only
  rw [String.toList_ofList, head?_cons, if_pos rfl, pathSegments_intercalate hsegments]

example : resolvePath "/home/u" "a/./b//../c/" = "/home/u/a/c" := by decide

end Frogg.Library
