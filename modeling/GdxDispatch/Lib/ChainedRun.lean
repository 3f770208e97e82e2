import Mathlib

/-! The last chained run of a list.

    A scan that appends each element to the run it holds, and starts over when the element does not follow the last
    one, ends with the longest suffix whose neighbours all follow each other. -/

namespace Lib

variable {α : Type} {r : α → α → Prop} [DecidableRel r] {xs ys : List α} {x : α}

/-- The run once `x` is read. -/
def extendRun (r : α → α → Prop) [DecidableRel r] (run : List α) (x : α) : List α :=
  match run.getLast? with
  | none => [x]
  | some prev => if r prev x then run ++ [x] else [x]

def lastRun (r : α → α → Prop) [DecidableRel r] (xs : List α) : List α := xs.foldl (extendRun r) []

theorem lastRun_concat (xs : List α) (x : α) : lastRun r (xs ++ [x]) = extendRun r (lastRun r xs) x := by
  rw [lastRun, List.foldl_concat, lastRun]

theorem lastRun_suffix (xs : List α) : lastRun r xs <:+ xs := by
  induction xs using List.reverseRecOn with
  | nil => exact List.suffix_rfl
  | append_singleton xs x ih =>
    rw [lastRun_concat, extendRun]
    split
    · exact List.suffix_append xs [x]
    · split
      · obtain ⟨before, hbefore⟩ := ih
        exact ⟨before, by rw [← List.append_assoc, hbefore]⟩
      · exact List.suffix_append xs [x]

theorem lastRun_isChain (xs : List α) : (lastRun r xs).IsChain r := by
  induction xs using List.reverseRecOn with
  | nil => exact .nil
  | append_singleton xs x ih =>
    rw [lastRun_concat, extendRun]
    split
    · exact .singleton x
    · rename_i prev hprev
      split
      · rename_i hr
        refine List.isChain_append.mpr ⟨ih, .singleton x, fun y hy z hz => ?_⟩
        rw [Option.mem_def.mp hy] at hprev
        cases hprev
        cases hz
        exact hr
      · exact .singleton x

/-- No chained suffix reaches further back. -/
theorem suffix_lastRun (hys : ys <:+ xs) (hchain : ys.IsChain r) : ys <:+ lastRun r xs := by
  induction xs using List.reverseRecOn generalizing ys with
  | nil => exact hys
  | append_singleton xs x ih =>
    rcases List.eq_nil_or_concat ys with rfl | ⟨zs, z, rfl⟩
    · exact List.nil_suffix
    · rw [List.concat_eq_append] at hys hchain ⊢
      obtain ⟨before, hbefore⟩ := hys
      rw [← List.append_assoc] at hbefore
      obtain ⟨hxs, hz⟩ := List.append_inj' hbefore rfl
      obtain rfl : z = x := List.singleton_inj.mp hz
      obtain ⟨hzs, -, hlink⟩ := List.isChain_append.mp hchain
      have hsuffix : zs <:+ lastRun r xs := ih ⟨before, hxs⟩ hzs
      rw [lastRun_concat, extendRun]
      rcases List.eq_nil_or_concat zs with rfl | ⟨ws, w, rfl⟩
      · split
        · exact List.suffix_rfl
        · split
          · exact ⟨lastRun r xs, rfl⟩
          · exact List.suffix_rfl
      · rw [List.concat_eq_append] at hsuffix hlink ⊢
        obtain ⟨front, hfront⟩ := hsuffix
        have hlast : (lastRun r xs).getLast? = some w := by rw [← hfront]; simp
        have hr : r w z := hlink w (by simp) z (by simp)
        rw [hlast]
        simp only [if_pos hr]
        exact ⟨front, by rw [← List.append_assoc, hfront]⟩

end Lib
