import Mathlib.Logic.Basic

/-! Running a list of steps twice.

    Where a step that has been taken changes nothing when it is taken again, whatever was done in between, the second
    pass over a list of steps changes nothing. -/

namespace Lib
variable {σ ι : Type*}

/-- `Done s i` says that step `i` has nothing left to do in `s`: it does nothing there, a step is done once it is
    taken, and it stays done. -/
structure Sticks (f : σ → ι → σ) (Done : σ → ι → Prop) : Prop where
  absorb : ∀ {s i}, Done s i → f s i = s
  done : ∀ s i, Done (f s i) i
  keep : ∀ {s i} (j), Done s i → Done (f s j) i

namespace Sticks
variable {f : σ → ι → σ} {Done : σ → ι → Prop} (h : Sticks f Done)
include h

theorem run_keep {i : ι} (steps : List ι) : ∀ {s : σ}, Done s i → Done (steps.foldl f s) i := by
  induction steps with
  | nil => exact fun hs => hs
  | cons j steps ih => exact fun hs => ih (h.keep j hs)

theorem run_done (steps : List ι) : ∀ (s : σ), ∀ i ∈ steps, Done (steps.foldl f s) i := by
  induction steps with
  | nil => exact fun s i hi => absurd hi List.not_mem_nil
  | cons j steps ih =>
    intro s i hi
    rcases List.mem_cons.mp hi with rfl | hi
    · exact h.run_keep steps (h.done s i)
    · exact ih _ i hi

theorem run_absorb {s : σ} (steps : List ι) (hs : ∀ i ∈ steps, Done s i) : steps.foldl f s = s := by
  induction steps with
  | nil => rfl
  | cons j steps ih =>
    rw [List.foldl_cons, h.absorb (hs j List.mem_cons_self)]
    exact ih fun i hi => hs i (List.mem_cons_of_mem _ hi)

theorem run_twice (steps : List ι) (s : σ) : steps.foldl f (steps.foldl f s) = steps.foldl f s :=
  h.run_absorb steps (h.run_done steps s)

end Sticks

end Lib
