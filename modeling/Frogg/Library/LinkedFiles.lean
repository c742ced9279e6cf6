/-
  Subject:   Files that several names may link to and that a process may hold open.

  A file is a number; removing a name leaves the file, and a write through a name that is linked
  goes into the file the name links to.
-/
import Mathlib.Logic.Function.Basic

namespace Frogg.Library

open Function Option

/-- What each name links to, what each file holds, and the number of the next new file. -/
structure LinkedFiles (Name Text : Type*) where
  file : Name → Option Nat
  text : Nat → Text
  fresh : Nat
  file_lt : ∀ {name i}, file name = some i → i < fresh

/-- Why a second name was not given: there is no first, or it is taken. -/
inductive LinkError where
  | missing
  | taken
  deriving DecidableEq

namespace LinkedFiles

variable {Name Text : Type*}

/-- No names at all; a file that nothing links to holds `blank`. -/
def empty (blank : Text) : LinkedFiles Name Text where
  file _ := none
  text _ := blank
  fresh := 0
  file_lt h := by cases h

/-- Into an open file. -/
def overwrite (files : LinkedFiles Name Text) (i : Nat) (text : Text) : LinkedFiles Name Text :=
  { files with text := update files.text i text }

section Overwrite

variable {files : LinkedFiles Name Text} {i j : Nat} {text : Text}

@[simp] theorem overwrite_file : (files.overwrite i text).file = files.file := rfl

@[simp] theorem overwrite_self : (files.overwrite i text).text i = text := update_self ..

@[simp] theorem overwrite_of_ne (h : j ≠ i) : (files.overwrite i text).text j = files.text j :=
  update_of_ne h ..

end Overwrite

variable [DecidableEq Name] (files : LinkedFiles Name Text)

def unlink (name : Name) : LinkedFiles Name Text :=
  { files with
    file := update files.file name none
    file_lt := by
      intro other i h
      by_cases hname : other = name
      · rw [hname, update_self] at h; cases h
      · rw [update_of_ne hname] at h
        exact files.file_lt h }

/-- Into the file the name links to, a new one where there is none. -/
def write (name : Name) (text : Text) : LinkedFiles Name Text :=
  match files.file name with
  | some i => files.overwrite i text
  | none =>
    { file := update files.file name (some files.fresh)
      text := update files.text files.fresh text
      fresh := files.fresh + 1
      file_lt := by
        intro other i h
        by_cases hname : other = name
        · rw [hname, update_self] at h; exact some.inj h ▸ Nat.lt_succ_self _
        · rw [update_of_ne hname] at h
          exact Nat.lt_succ_of_lt (files.file_lt h) }

/-- A second name for the file that `old` links to. -/
def link (old new : Name) : Except LinkError (LinkedFiles Name Text) :=
  match hold : files.file old, files.file new with
  | none, _ => .error .missing
  | some _, some _ => .error .taken
  | some i, none => .ok
      { files with
        file := update files.file new (some i)
        file_lt := by
          intro other j h
          by_cases hname : other = new
          · rw [hname, update_self] at h; exact some.inj h ▸ files.file_lt hold
          · rw [update_of_ne hname] at h
            exact files.file_lt h }

/-! ## What each operation changes -/

variable {files} {name other old new : Name} {i j : Nat} {text : Text}

@[simp] theorem unlink_self : (files.unlink name).file name = none := update_self ..

@[simp] theorem unlink_of_ne (h : other ≠ name) :
    (files.unlink name).file other = files.file other := update_of_ne h ..

@[simp] theorem unlink_text : (files.unlink name).text = files.text := rfl

theorem write_of_linked (h : files.file name = some i) :
    files.write name text = files.overwrite i text := by
  unfold write
  split
  · rename_i j hj; rw [mem_unique hj h]
  · rename_i hnone; cases hnone.symm.trans h

theorem write_self (h : files.file name = none) :
    (files.write name text).file name = some files.fresh := by
  unfold write
  split
  · rename_i j hj; cases hj.symm.trans h
  · exact update_self ..

/-- After a write the name links to a file that holds what was written. -/
theorem write_holds (files : LinkedFiles Name Text) (name : Name) (text : Text) :
    ∃ i, (files.write name text).file name = some i ∧ (files.write name text).text i = text := by
  cases h : files.file name with
  | none =>
    refine ⟨files.fresh, write_self h, ?_⟩
    unfold write
    split
    · rename_i j hj; cases hj.symm.trans h
    · exact update_self ..
  | some i => rw [write_of_linked h]; exact ⟨i, h, overwrite_self⟩

theorem write_of_ne (h : other ≠ name) : (files.write name text).file other = files.file other := by
  unfold write
  split
  · rfl
  · exact update_of_ne h ..

/-- The file written to is the one the name linked to, or a new one. -/
theorem write_file (h : (files.write name text).file name = some i) :
    files.file name = some i ∨ i = files.fresh := by
  cases hname : files.file name with
  | none => rw [write_self hname] at h; exact .inr (some.inj h).symm
  | some j => rw [write_of_linked hname, overwrite_file, hname] at h; exact .inl h

/-- The other files hold what they held. -/
theorem write_text_of_ne (h : (files.write name text).file name ≠ some j) :
    (files.write name text).text j = files.text j := by
  cases hname : files.file name with
  | none =>
    have hne : j ≠ files.fresh := fun hj => h (by rw [hj, write_self hname])
    unfold write
    split
    · rename_i k hk; cases hk.symm.trans hname
    · exact update_of_ne hne ..
  | some i =>
    rw [write_of_linked hname] at h ⊢
    exact overwrite_of_ne fun hji => h (by rw [overwrite_file, hname, hji])

/-- A file holds what it held or what was written. -/
theorem write_text (files : LinkedFiles Name Text) (name : Name) (text : Text) (i : Nat) :
    (files.write name text).text i = files.text i ∨ (files.write name text).text i = text := by
  unfold write
  split
  · rename_i j hj
    by_cases h : i = j
    · rw [h]; exact .inr overwrite_self
    · exact .inl (overwrite_of_ne h)
  · by_cases h : i = files.fresh
    · rw [h]; exact .inr (update_self ..)
    · exact .inl (update_of_ne h ..)

theorem fresh_le_write : files.fresh ≤ (files.write name text).fresh := by
  unfold write
  split
  · exact Nat.le_refl _
  · exact Nat.le_succ _

/-- A link succeeds exactly where the first name is linked and the second is not. -/
theorem link_ok {files' : LinkedFiles Name Text} (h : files.link old new = .ok files') :
    ∃ i, files.file old = some i ∧ files.file new = none ∧
      files'.file = update files.file new (some i) ∧ files'.text = files.text ∧
        files'.fresh = files.fresh := by
  unfold link at h
  split at h
  · cases h
  · cases h
  · rename_i i hold hnew; obtain rfl := Except.ok.inj h; exact ⟨i, hold, hnew, rfl, rfl, rfl⟩

theorem link_of_free (hold : files.file old = some i) (hnew : files.file new = none) :
    ∃ files', files.link old new = .ok files' := by
  unfold link
  split
  · rename_i h; cases h.symm.trans hold
  · rename_i h; cases h.symm.trans hnew
  · exact ⟨_, rfl⟩

end LinkedFiles

end Frogg.Library
