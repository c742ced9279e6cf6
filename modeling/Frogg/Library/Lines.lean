/-
  Subject:   Streams of lines: what has ended, and the line that has not.
-/
import Mathlib.Data.List.Basic

namespace Frogg.Library

open List

universe u

variable {α : Type u} [DecidableEq α]

variable {separator : α}

end Frogg.Library
