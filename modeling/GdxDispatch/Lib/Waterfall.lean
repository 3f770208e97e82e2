import Mathlib

/-! A cap filled in order.

    Amounts are poured into a cap one after another: each fills what the earlier ones left of it, and the rest of it
    spills. In whatever order they came, what spills in all is what the amounts have together beyond the cap. -/

namespace Lib

variable {α κ : Type} [LinearOrder κ] {key : α → κ} {amount : α → ℤ} {cap : ℤ} {xs ys : List α} {x : α}

/-- What was poured before `x`. -/
def poured (key : α → κ) (amount : α → ℤ) (xs : List α) (x : α) : ℤ :=
  ((xs.filter fun y => key y < key x).map amount).sum

/-- The part of `x` beyond what the earlier ones left of the cap. -/
def spill (key : α → κ) (amount : α → ℤ) (cap : ℤ) (xs : List α) (x : α) : ℤ :=
  amount x - min (amount x) (max (cap - poured key amount xs x) 0)

theorem poured_perm (h : xs.Perm ys) : poured key amount xs x = poured key amount ys x :=
  ((h.filter _).map _).sum_eq

theorem spill_perm (h : xs.Perm ys) : spill key amount cap xs x = spill key amount cap ys x := by
  rw [spill, spill, poured_perm h]

/-- A later amount changes nothing for an earlier one. -/
theorem poured_concat_of_lt {y : α} (h : key y < key x) :
    poured key amount (xs ++ [x]) y = poured key amount xs y := by
  simp [poured, h.le]

theorem poured_concat_self (h : ∀ y ∈ xs, key y < key x) :
    poured key amount (xs ++ [x]) x = (xs.map amount).sum := by
  have hall : xs.filter (fun y => key y < key x) = xs := by simpa using h
  simp [poured, hall]

theorem sum_spill_sorted (hsorted : xs.Pairwise fun y x => key y < key x) (hpos : ∀ x ∈ xs, 0 ≤ amount x) :
    (xs.map (spill key amount cap xs)).sum = max ((xs.map amount).sum - max cap 0) 0 := by
  induction xs using List.reverseRecOn with
  | nil => simp
  | append_singleton xs x ih =>
    obtain ⟨hxs, -, hlast⟩ := List.pairwise_append.mp hsorted
    have hlt : ∀ y ∈ xs, key y < key x := fun y hy => hlast y hy x (List.mem_singleton.mpr rfl)
    have hsame : xs.map (spill key amount cap (xs ++ [x])) = xs.map (spill key amount cap xs) :=
      List.map_congr_left fun y hy => by rw [spill, spill, poured_concat_of_lt (hlt y hy)]
    have hsum : 0 ≤ (xs.map amount).sum :=
      List.sum_nonneg (by simpa using fun y hy => hpos y (List.mem_append_left _ hy))
    have hx : 0 ≤ amount x := hpos x (by simp)
    have hih := ih hxs fun y hy => hpos y (List.mem_append_left _ hy)
    rw [List.map_append, List.sum_append, hsame, hih, List.map_append, List.sum_append, List.map_singleton,
      List.map_singleton, List.sum_singleton, List.sum_singleton, spill, poured_concat_self hlt]
    omega

/-- The rows in the order of their keys. -/
theorem exists_sorted (hkey : (xs.map key).Nodup) :
    ∃ ys : List α, ys.Perm xs ∧ ys.Pairwise fun y x => key y < key x := by
  have hperm : (xs.mergeSort fun y x => key y ≤ key x).Perm xs := List.mergeSort_perm _ _
  have hle : (xs.mergeSort fun y x => key y ≤ key x).Pairwise fun y x => decide (key y ≤ key x) = true :=
    List.pairwise_mergeSort (fun a b c => by simpa using fun h h' => h.trans h')
      (fun a b => by simpa using le_total _ _) xs
  have hne : (xs.mergeSort fun y x => key y ≤ key x).Pairwise fun y x => key y ≠ key x :=
    List.pairwise_map.mp ((hperm.map key).nodup_iff.mpr hkey)
  exact ⟨_, hperm, (hle.and hne).imp fun h => lt_of_le_of_ne (of_decide_eq_true h.1) h.2⟩

/-- What spills in all is what the amounts have together beyond the cap. -/
theorem sum_spill (hkey : (xs.map key).Nodup) (hpos : ∀ x ∈ xs, 0 ≤ amount x) :
    (xs.map (spill key amount cap xs)).sum = max ((xs.map amount).sum - max cap 0) 0 := by
  obtain ⟨ys, hperm, hsorted⟩ := exists_sorted hkey
  have hspill : spill key amount cap ys = spill key amount cap xs := funext fun x => spill_perm hperm
  calc (xs.map (spill key amount cap xs)).sum
      = (ys.map (spill key amount cap ys)).sum := by rw [hspill, (hperm.map _).sum_eq]
    _ = max ((ys.map amount).sum - max cap 0) 0 := sum_spill_sorted hsorted fun x hx => hpos x (hperm.mem_iff.mp hx)
    _ = max ((xs.map amount).sum - max cap 0) 0 := by rw [(hperm.map amount).sum_eq]

end Lib
