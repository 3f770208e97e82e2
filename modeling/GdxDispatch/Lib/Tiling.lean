import Mathlib.Data.Int.Basic
import Mathlib.Tactic.Linarith

/-! Intervals that tile the line of whole numbers.

    Each number has a closed interval, the interval holds the number, and every number of an interval has that interval.
    The intervals then stand side by side: the next one starts where one ends. -/

namespace Lib

/-- An interval for every number, the same one for the numbers inside it. -/
structure Tiling where
  first : ℤ → ℤ
  last : ℤ → ℤ
  first_le : ∀ d, first d ≤ d
  le_last : ∀ d, d ≤ last d
  same_first : ∀ {d x}, first d ≤ x → x ≤ last d → first x = first d
  same_last : ∀ {d x}, first d ≤ x → x ≤ last d → last x = last d

namespace Tiling
variable (T : Tiling)

def Holds (d x : ℤ) : Prop := T.first d ≤ x ∧ x ≤ T.last d

/-- An interval starts the day after one ends. -/
theorem first_succ_last (d : ℤ) : T.first (T.last d + 1) = T.last d + 1 := by
  have hle := T.first_le (T.last d + 1)
  rcases hle.lt_or_eq with hlt | heq
  · have hmem : T.Holds (T.last d + 1) (T.last d) := ⟨by omega, by have := T.le_last (T.last d + 1); omega⟩
    have hsame := T.same_last hmem.1 hmem.2
    have hown := T.same_last (d := d) (x := T.last d) ((T.first_le d).trans (T.le_last d)) le_rfl
    have hnext := T.le_last (T.last d + 1)
    omega
  · exact heq

/-- An interval ends the day before one starts. -/
theorem last_pred_first (d : ℤ) : T.last (T.first d - 1) = T.first d - 1 := by
  have hge := T.le_last (T.first d - 1)
  rcases hge.lt_or_eq with hlt | heq
  · have hmem : T.Holds (T.first d - 1) (T.first d) := ⟨by have := T.first_le (T.first d - 1); omega, by omega⟩
    have hsame := T.same_first hmem.1 hmem.2
    have hown := T.same_first (d := d) (x := T.first d) le_rfl ((T.first_le d).trans (T.le_last d))
    have hbefore := T.first_le (T.first d - 1)
    omega
  · exact heq.symm

/-- The interval before the next one. -/
theorem first_last (d : ℤ) : T.first (T.last d) = T.first d :=
  T.same_first ((T.first_le d).trans (T.le_last d)) le_rfl

/-- The interval after the previous one. -/
theorem last_first (d : ℤ) : T.last (T.first d) = T.last d :=
  T.same_last le_rfl ((T.first_le d).trans (T.le_last d))

end Tiling

end Lib
