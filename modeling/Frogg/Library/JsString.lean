/-
  Subject:   Strings as JavaScript trims and lowers them.
-/
import Mathlib.Data.List.Chain
import Mathlib.Data.List.DropRight
import Mathlib.Data.List.TakeWhile

namespace Frogg.Library

open List

/-- White space and line terminators, the characters `trim` removes. -/
def isJsWhitespace (c : Char) : Bool :=
  (9 ≤ c.toNat && c.toNat ≤ 13) || c.toNat = 32 || c.toNat = 0xA0 || c.toNat = 0x1680 ||
    (0x2000 ≤ c.toNat && c.toNat ≤ 0x200A) || c.toNat = 0x2028 || c.toNat = 0x2029 ||
    c.toNat = 0x202F || c.toNat = 0x205F || c.toNat = 0x3000 || c.toNat = 0xFEFF

def jsTrimStartChars (cs : List Char) : List Char := cs.dropWhile isJsWhitespace

def jsTrimEndChars (cs : List Char) : List Char := (cs.reverse.dropWhile isJsWhitespace).reverse

/-- `s.trim()` -/
def jsTrim (s : String) : String := String.ofList (jsTrimEndChars (jsTrimStartChars s.toList))

/-- `s.toLowerCase()` of a string of ASCII characters. -/
def jsToLower (s : String) : String := String.ofList (s.toList.map Char.toLower)

/-- The UTF-16 code units of a character. -/
def utf16Units (c : Char) : List Nat :=
  if c.toNat < 0x10000 then [c.toNat]
  else [0xD800 + (c.toNat - 0x10000) / 0x400, 0xDC00 + (c.toNat - 0x10000) % 0x400]

/-- The UTF-16 code units of a text. -/
def utf16Encode (cs : List Char) : List Nat := cs.flatMap utf16Units

/-- `isJsWhitespace` of a code unit. -/
def isJsSpaceUnit (u : Nat) : Bool :=
  (9 ≤ u && u ≤ 13) || u = 32 || u = 0xA0 || u = 0x1680 || (0x2000 ≤ u && u ≤ 0x200A) ||
    u = 0x2028 || u = 0x2029 || u = 0x202F || u = 0x205F || u = 0x3000 || u = 0xFEFF

/-- The order of `sort()`: strings by their UTF-16 code units. -/
def jsLe (a b : String) : Bool :=
  !lex (b.toList.flatMap utf16Units) (a.toList.flatMap utf16Units) Nat.blt

/-- `s.length`, in UTF-16 code units. -/
def jsLength (s : String) : Nat :=
  s.toList.foldr (fun c n => n + if c.toNat < 0x10000 then 1 else 2) 0

/-- `s.replace(/\s+/g, " ")`; `inRun` says that the character before was white space. -/
def jsCollapseSpaceChars : Bool → List Char → List Char
  | _, [] => []
  | inRun, c :: cs =>
    if isJsWhitespace c then
      if inRun then jsCollapseSpaceChars true cs else ' ' :: jsCollapseSpaceChars true cs
    else c :: jsCollapseSpaceChars false cs

def jsCollapseSpaces (s : String) : String :=
  String.ofList (jsCollapseSpaceChars false s.toList)

variable {s : String} {cs : List Char}

theorem jsTrim_of_no_space (h : ∀ c ∈ s.toList, isJsWhitespace c = false) : jsTrim s = s := by
  have hdrop : ∀ cs : List Char, (∀ c ∈ cs, isJsWhitespace c = false) →
      cs.dropWhile isJsWhitespace = cs := by
    rintro (_ | ⟨c, cs⟩) hcs
    · rfl
    · rw [dropWhile_cons_of_neg (by simp [hcs c mem_cons_self])]
  unfold jsTrim jsTrimEndChars jsTrimStartChars
  rw [hdrop _ h, hdrop _ fun c hc => h c (mem_reverse.mp hc), reverse_reverse, String.ofList_toList]

/-- A first character that is no white space stays first. -/
theorem jsTrim_head {c : Char} (hs : s.toList = c :: cs) (hc : isJsWhitespace c = false) :
    (jsTrim s).toList.head? = some c := by
  have hstart : jsTrimStartChars s.toList = c :: cs := by
    rw [hs, jsTrimStartChars, dropWhile_cons_of_neg (by simp [hc])]
  have hend : (jsTrimEndChars (c :: cs)).head? = some c := by
    have hne : (c :: cs).reverse.dropWhile isJsWhitespace ≠ [] := by
      intro hnil
      have := dropWhile_eq_nil_iff.mp hnil c (by simp)
      simp [hc] at this
    obtain ⟨dropped, hsplit⟩ := @dropWhile_suffix _ (c :: cs).reverse isJsWhitespace
    have hcs : jsTrimEndChars (c :: cs) ++ dropped.reverse = c :: cs := by
      rw [jsTrimEndChars, ← reverse_append, hsplit, reverse_reverse]
    have hne' : jsTrimEndChars (c :: cs) ≠ [] := by simpa [jsTrimEndChars] using hne
    cases hkept : jsTrimEndChars (c :: cs) with
    | nil => exact absurd hkept hne'
    | cons d ds => rw [hkept] at hcs; exact congrArg some (cons.inj hcs).1
  rw [jsTrim, hstart, String.toList_ofList, hend]

/-! ### Collapsing and trimming twice -/

/-- Single spaces only, between characters that are none. -/
def Spaced (cs : List Char) : Prop :=
  cs.IsChain (fun a b => isJsWhitespace a = false ∨ isJsWhitespace b = false) ∧
    ∀ c ∈ cs, isJsWhitespace c = true → c = ' '

theorem Spaced.of_part {ds : List Char} (h : Spaced ds) (hi : cs <:+: ds) : Spaced cs := by
  refine ⟨?_, fun c hc => h.2 c (hi.subset hc)⟩
  obtain ⟨before, after, rfl⟩ := hi
  exact h.1.left_of_append.right_of_append

theorem spaced_collapse (inRun : Bool) (cs : List Char) :
    Spaced (jsCollapseSpaceChars inRun cs) ∧
      (inRun = true → ∀ c, (jsCollapseSpaceChars inRun cs).head? = some c →
        isJsWhitespace c = false) := by
  induction cs generalizing inRun with
  | nil => exact ⟨⟨.nil, fun _ => nofun⟩, fun _ _ => nofun⟩
  | cons c cs ih =>
    unfold jsCollapseSpaceChars
    split
    · obtain ⟨hspaced, hhead⟩ := ih true
      split
      · exact ⟨hspaced, fun _ => hhead rfl⟩
      · rename_i hrun
        refine ⟨⟨isChain_cons.mpr ⟨fun d hd => .inr (hhead rfl d hd), hspaced.1⟩,
          fun d hd hspace => ?_⟩, fun h => absurd h hrun⟩
        rcases mem_cons.mp hd with rfl | hd
        · rfl
        · exact hspaced.2 d hd hspace
    · rename_i hplain
      have hplain : isJsWhitespace c = false := Bool.not_eq_true _ ▸ hplain
      obtain ⟨hspaced, -⟩ := ih false
      refine ⟨⟨isChain_cons.mpr ⟨fun _ _ => .inl hplain, hspaced.1⟩,
        fun d hd hspace => ?_⟩, fun _ d hd => Option.some.inj hd ▸ hplain⟩
      rcases mem_cons.mp hd with rfl | hd
      · rw [hplain] at hspace; cases hspace
      · exact hspaced.2 d hd hspace

theorem collapse_of_spaced (h : Spaced cs) (inRun : Bool)
    (hrun : inRun = true → ∀ c, cs.head? = some c → isJsWhitespace c = false) :
    jsCollapseSpaceChars inRun cs = cs := by
  induction cs generalizing inRun with
  | nil => rfl
  | cons c cs ih =>
    have hcs : Spaced cs := h.of_part (suffix_cons c cs).isInfix
    unfold jsCollapseSpaceChars
    split
    · rename_i hspace
      have hnot : ¬ inRun = true := fun hin => by
        rw [hrun hin c rfl] at hspace
        cases hspace
      rw [if_neg hnot, ← h.2 c mem_cons_self hspace, ih hcs true fun _ d hd => ?_]
      have hnext := (isChain_cons.mp h.1).1 d hd
      rw [hspace] at hnext
      exact hnext.resolve_left nofun
    · rw [ih hcs false nofun]

theorem trimChars_part (cs : List Char) : jsTrimEndChars (jsTrimStartChars cs) <:+: cs := by
  have hend : ∀ ds : List Char, jsTrimEndChars ds <+: ds := fun ds => by
    have hsuffix := @dropWhile_suffix _ ds.reverse isJsWhitespace
    unfold jsTrimEndChars
    rwa [← reverse_suffix, reverse_reverse]
  exact (hend _).isInfix.trans (dropWhile_suffix _).isInfix

/-- Cutting the end off leaves nothing to cut off the start. -/
theorem dropWhile_rdropWhile {α : Type} {p : α → Bool} {cs : List α} (h : cs.dropWhile p = cs) :
    (cs.rdropWhile p).dropWhile p = cs.rdropWhile p := by
  cases hkept : cs.rdropWhile p with
  | nil => rfl
  | cons c kept =>
    obtain ⟨dropped, happ⟩ := rdropWhile_prefix p cs
    rw [hkept] at happ
    rw [← happ, cons_append, dropWhile_cons] at h
    split at h
    · exact absurd (congrArg length h)
        (Nat.ne_of_lt (Nat.lt_succ_of_le (dropWhile_suffix p).length_le))
    · exact dropWhile_cons_of_neg ‹_›

theorem trimChars_idem (cs : List Char) :
    jsTrimEndChars (jsTrimStartChars (jsTrimEndChars (jsTrimStartChars cs))) =
      jsTrimEndChars (jsTrimStartChars cs) := by
  have hstart : jsTrimStartChars (jsTrimEndChars (jsTrimStartChars cs)) =
      jsTrimEndChars (jsTrimStartChars cs) :=
    dropWhile_rdropWhile (dropWhile_idempotent _ _)
  rw [hstart]
  exact rdropWhile_idempotent _ _

/-- Collapsing and trimming what is collapsed and trimmed changes nothing. -/
theorem trim_collapse_idem (s : String) :
    jsTrim (jsCollapseSpaces (jsTrim (jsCollapseSpaces s))) = jsTrim (jsCollapseSpaces s) := by
  have hspaced : Spaced (jsTrimEndChars (jsTrimStartChars (jsCollapseSpaceChars false s.toList))) :=
    (spaced_collapse false s.toList).1.of_part (trimChars_part _)
  unfold jsTrim jsCollapseSpaces
  simp only [String.toList_ofList]
  rw [collapse_of_spaced hspaced false nofun, trimChars_idem]

theorem jsLength_of_basic (h : ∀ c ∈ s.toList, c.toNat < 0x10000) :
    jsLength s = s.toList.length := by
  unfold jsLength
  revert h
  generalize s.toList = cs
  intro h
  induction cs with
  | nil => rfl
  | cons c cs ih =>
    rw [foldr_cons, if_pos (h c mem_cons_self),
      ih fun d hd => h d (mem_cons_of_mem _ hd), length_cons]

end Frogg.Library
