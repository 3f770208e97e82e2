import Mathlib.Data.Multiset.Powerset

/-! Combinations of a list.

    The ways to choose some places of a list, in the order of the first place, then of the second, and so on. They are its
    sublists of one length, and up to order they do not depend on the order of the list: a choice that is the only one with
    some property stays the only one when the list is permuted. -/

namespace Lib

variable {α : Type} {l l' s : List α}

/-- The choices of `k` places. -/
def combinations : ℕ → List α → List (List α)
  | 0, _ => [[]]
  | _ + 1, [] => []
  | k + 1, a :: l => (combinations k l).map (a :: ·) ++ combinations (k + 1) l

theorem mem_combinations {k : ℕ} : s ∈ combinations k l ↔ s.Sublist l ∧ s.length = k := by
  induction l generalizing k s with
  | nil =>
    cases k with
    | zero => simp [combinations, List.sublist_nil]
    | succ k =>
      simp only [combinations, List.not_mem_nil, List.sublist_nil, false_iff, not_and]
      rintro rfl
      simp
  | cons a l ih =>
    cases k with
    | zero =>
      rw [combinations, List.mem_singleton, List.length_eq_zero_iff]
      exact ⟨fun h => ⟨h ▸ List.nil_sublist _, h⟩, And.right⟩
    | succ k =>
      simp only [combinations, List.mem_append, List.mem_map, ih]
      constructor
      · rintro (⟨t, ⟨hsub, hlen⟩, rfl⟩ | ⟨hsub, hlen⟩)
        · exact ⟨hsub.cons_cons a, by simp [hlen]⟩
        · exact ⟨hsub.cons a, hlen⟩
      · rintro ⟨hsub, hlen⟩
        cases hsub with
        | cons _ h => exact .inr ⟨h, hlen⟩
        | cons_cons _ h => exact .inl ⟨_, ⟨h, by simpa using hlen⟩, rfl⟩

/-- Some lists, each of them and all of them up to order. -/
def upToOrder (ss : List (List α)) : Multiset (Multiset α) := Multiset.ofList (ss.map Multiset.ofList)

theorem upToOrder_append (ss ts : List (List α)) : upToOrder (ss ++ ts) = upToOrder ss + upToOrder ts := by
  rw [upToOrder, List.map_append, ← Multiset.coe_add]
  rfl

theorem upToOrder_map_cons (a : α) (ss : List (List α)) :
    upToOrder (ss.map (a :: ·)) = (upToOrder ss).map (Multiset.cons a) := by
  rw [upToOrder, upToOrder, Multiset.map_coe, List.map_map, List.map_map]
  rfl

/-- Up to order, the combinations are those of the list up to order. -/
theorem upToOrder_combinations (k : ℕ) (l : List α) : upToOrder (combinations k l) = Multiset.powersetCard k (l : Multiset α) := by
  induction l generalizing k with
  | nil => cases k <;> rfl
  | cons a l ih =>
    cases k with
    | zero => simp [combinations, upToOrder]
    | succ k =>
      rw [← Multiset.cons_coe, Multiset.powersetCard_cons, ← ih, ← ih, combinations, upToOrder_append, upToOrder_map_cons,
        add_comm]

/-- The choices of several sizes with some property. -/
def chosen (p : List α → Bool) (sizes : List ℕ) (l : List α) : List (List α) :=
  sizes.flatMap fun k => (combinations k l).filter p

theorem mem_chosen {p : List α → Bool} {sizes : List ℕ} :
    s ∈ chosen p sizes l ↔ s.Sublist l ∧ s.length ∈ sizes ∧ p s = true := by
  simp only [chosen, List.mem_flatMap, List.mem_filter, mem_combinations]
  constructor
  · rintro ⟨k, hk, ⟨hsub, rfl⟩, hp⟩
    exact ⟨hsub, hk, hp⟩
  · rintro ⟨hsub, hk, hp⟩
    exact ⟨_, hk, ⟨hsub, rfl⟩, hp⟩

/-- What is chosen does not depend on the order of the list, when the property does not depend on the choice's. -/
theorem upToOrder_chosen {p : List α → Bool} (hp : ∀ s t : List α, s.Perm t → p s = p t) (sizes : List ℕ) (h : l.Perm l') :
    upToOrder (chosen p sizes l) = upToOrder (chosen p sizes l') := by
  obtain ⟨q, hq⟩ : ∃ q : Multiset α → Bool, ∀ s : List α, q s = p s := ⟨Quotient.lift p hp, fun _ => rfl⟩
  have hfilter : ∀ ss : List (List α), upToOrder (ss.filter p) = (upToOrder ss).filter fun m => q m = true := by
    intro ss
    rw [upToOrder, upToOrder, Multiset.filter_coe, List.filter_map]
    congr 2
    refine List.filter_congr fun s _ => ?_
    simp [hq]
  induction sizes with
  | nil => rfl
  | cons k sizes ih =>
    rw [chosen, chosen, List.flatMap_cons, List.flatMap_cons, upToOrder_append, upToOrder_append, hfilter, hfilter,
      upToOrder_combinations, upToOrder_combinations, Multiset.coe_eq_coe.mpr h]
    exact congrArg _ ih

/-- The only choice of a list is, up to order, the only one of the permuted list. -/
theorem chosen_singleton {p : List α → Bool} (hp : ∀ s t : List α, s.Perm t → p s = p t) {sizes : List ℕ} (h : l.Perm l')
    (honly : chosen p sizes l = [s]) : ∃ t, chosen p sizes l' = [t] ∧ t.Perm s := by
  have hcoe := upToOrder_chosen hp sizes h
  rw [honly, upToOrder, upToOrder] at hcoe
  have hlen := congrArg Multiset.card hcoe
  simp only [Multiset.coe_card, List.length_map, List.length_singleton] at hlen
  obtain ⟨t, ht⟩ := List.length_eq_one_iff.mp hlen.symm
  rw [ht, List.map_singleton, List.map_singleton, Multiset.coe_eq_coe, List.singleton_perm_singleton] at hcoe
  exact ⟨t, ht, (Multiset.coe_eq_coe.mp hcoe).symm⟩

end Lib
