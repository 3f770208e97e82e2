import Mathlib

/-! Largest-remainder rounding.

    Shares with fractional parts are rounded down and the units that are left over go, one each, to the largest
    fractional parts, the earlier first among equals. Fewer units are left over than there are shares with a
    fractional part, so only these get one: each rounded share is less than one unit from the exact one, and larger
    shares round to no less than smaller ones. -/

namespace Lib

variable {K : Type} [Field K] [LinearOrder K] [FloorRing K]
  {exact : List K} {leftover : ℕ} {i j : ℕ} {e e' : K} {p p' : ℤ}

/-- The fractional part of a share. -/
def remainderAt (exact : List K) (i : ℕ) : K := Int.fract (exact.getD i 0)

/-- Larger remainder first, then the earlier position. -/
def remainderLe (exact : List K) (i j : ℕ) : Prop :=
  remainderAt exact j < remainderAt exact i ∨ (remainderAt exact i = remainderAt exact j ∧ i ≤ j)

instance (exact : List K) : DecidableRel (remainderLe exact) := fun _ _ => inferInstanceAs (Decidable (_ ∨ _))

/-- The positions by falling remainder. -/
def byRemainder (exact : List K) : List ℕ := (List.range exact.length).insertionSort (remainderLe exact)

/-- `for i in idxs: parts[i] += 1`. -/
def bumpAt (idxs : List ℕ) (parts : List ℤ) : List ℤ := idxs.foldl (fun ps i => ps.modify i (· + 1)) parts

/-- Every share rounded down, and one more for the `leftover` largest remainders. -/
def largestRemainder (exact : List K) (leftover : ℕ) : List ℤ :=
  bumpAt ((byRemainder exact).take leftover) (exact.map Int.floor)

/-! ### Adding the units -/

theorem length_bumpAt (idxs : List ℕ) (parts : List ℤ) : (bumpAt idxs parts).length = parts.length := by
  induction idxs generalizing parts with
  | nil => rfl
  | cons i idxs ih => rw [bumpAt, List.foldl_cons, ← bumpAt, ih, List.length_modify]

theorem getElem?_bumpAt {idxs : List ℕ} (hnodup : idxs.Nodup) (parts : List ℤ) (j : ℕ) :
    (bumpAt idxs parts)[j]? = parts[j]?.map (· + if j ∈ idxs then 1 else 0) := by
  induction idxs generalizing parts with
  | nil => simp [bumpAt]
  | cons i idxs ih =>
    obtain ⟨hi, hrest⟩ := List.nodup_cons.mp hnodup
    rw [bumpAt, List.foldl_cons, ← bumpAt, ih hrest, List.getElem?_modify]
    by_cases hij : i = j
    · subst hij
      cases parts[i]? <;> simp [hi]
    · have hji : ¬ j = i := fun h => hij h.symm
      cases parts[j]? <;> simp [hij, hji]

theorem sum_modify_succ {parts : List ℤ} (h : i < parts.length) : (parts.modify i (· + 1)).sum = parts.sum + 1 := by
  induction parts generalizing i with
  | nil => exact absurd h (Nat.not_lt_zero i)
  | cons x parts ih =>
    cases i with
    | zero =>
      rw [List.modify_zero_cons, List.sum_cons, List.sum_cons]
      ring
    | succ i =>
      rw [List.modify_succ_cons, List.sum_cons, List.sum_cons, ih (Nat.lt_of_succ_lt_succ h)]
      ring

theorem sum_bumpAt {idxs : List ℕ} {parts : List ℤ} (h : ∀ i ∈ idxs, i < parts.length) :
    (bumpAt idxs parts).sum = parts.sum + idxs.length := by
  induction idxs generalizing parts with
  | nil => simp [bumpAt]
  | cons i idxs ih =>
    rw [bumpAt, List.foldl_cons, ← bumpAt, ih, sum_modify_succ (h i List.mem_cons_self), List.length_cons]
    · push_cast
      ring
    · intro j hj
      rw [List.length_modify]
      exact h j (List.mem_cons_of_mem _ hj)

/-! ### The order of the remainders -/

theorem byRemainder_perm (exact : List K) : (byRemainder exact).Perm (List.range exact.length) :=
  List.perm_insertionSort _ _

theorem byRemainder_nodup (exact : List K) : (byRemainder exact).Nodup :=
  (byRemainder_perm exact).nodup_iff.mpr List.nodup_range

theorem mem_byRemainder : i ∈ byRemainder exact ↔ i < exact.length := by
  rw [(byRemainder_perm exact).mem_iff, List.mem_range]

instance (exact : List K) : Std.Total (remainderLe exact) where
  total i j := by
    rcases lt_trichotomy (remainderAt exact i) (remainderAt exact j) with h | h | h
    · exact .inr (.inl h)
    · rcases le_total i j with hij | hij
      · exact .inl (.inr ⟨h, hij⟩)
      · exact .inr (.inr ⟨h.symm, hij⟩)
    · exact .inl (.inl h)

instance (exact : List K) : IsTrans ℕ (remainderLe exact) where
  trans i j k hij hjk := by
    rcases hij with hij | ⟨hij, hle⟩
    · rcases hjk with hjk | ⟨hjk, -⟩
      · exact .inl (hjk.trans hij)
      · exact .inl (hjk ▸ hij)
    · rcases hjk with hjk | ⟨hjk, hle'⟩
      · exact .inl (hij ▸ hjk)
      · exact .inr ⟨hij.trans hjk, hle.trans hle'⟩

theorem byRemainder_sorted (exact : List K) : (byRemainder exact).Pairwise (remainderLe exact) :=
  List.pairwise_insertionSort _ _

theorem remainderAt_eq (h : exact[i]? = some e) : remainderAt exact i = Int.fract e := by
  rw [remainderAt, List.getD_eq_getElem?_getD, h, Option.getD_some]

theorem sum_remainders (exact : List K) :
    ((byRemainder exact).map (remainderAt exact)).sum = (exact.map Int.fract).sum := by
  rw [((byRemainder_perm exact).map _).sum_eq]
  congr 1
  refine List.ext_getElem (by simp) fun i h h' => ?_
  have hi : i < exact.length := by simpa using h
  rw [List.getElem_map, List.getElem_map, List.getElem_range,
    remainderAt_eq (List.getElem?_eq_getElem hi)]

theorem length_largestRemainder (exact : List K) (leftover : ℕ) :
    (largestRemainder exact leftover).length = exact.length := by
  rw [largestRemainder, length_bumpAt, List.length_map]

theorem getElem?_largestRemainder (exact : List K) (leftover i : ℕ) :
    (largestRemainder exact leftover)[i]? =
      exact[i]?.map fun e => ⌊e⌋ + if i ∈ (byRemainder exact).take leftover then 1 else 0 := by
  have hnodup : ((byRemainder exact).take leftover).Nodup := (byRemainder_nodup exact).sublist (List.take_sublist _ _)
  rw [largestRemainder, getElem?_bumpAt hnodup, List.getElem?_map, Option.map_map]
  rfl

/-- A share that does not get a unit has no larger remainder than one that does. -/
theorem remainderLe_of_taken (hi : i ∈ (byRemainder exact).take leftover) (hj : j < exact.length)
    (hnot : j ∉ (byRemainder exact).take leftover) : remainderLe exact i j := by
  have hsorted := byRemainder_sorted exact
  have hmem : j ∈ byRemainder exact := mem_byRemainder.mpr hj
  rw [← List.take_append_drop leftover (byRemainder exact)] at hsorted hmem
  rcases List.mem_append.mp hmem with h | h
  · exact absurd h hnot
  · exact (List.pairwise_append.mp hsorted).2.2 i hi j h

theorem share_eq (he : exact[i]? = some e) (hp : (largestRemainder exact leftover)[i]? = some p) :
    p = ⌊e⌋ + if i ∈ (byRemainder exact).take leftover then 1 else 0 := by
  rw [getElem?_largestRemainder, he, Option.map_some, Option.some.injEq] at hp
  exact hp.symm

/-- Among equal shares the earlier gets no less. -/
theorem share_tie (he : exact[i]? = some e) (he' : exact[j]? = some e)
    (hp : (largestRemainder exact leftover)[i]? = some p) (hp' : (largestRemainder exact leftover)[j]? = some p')
    (hij : i < j) : p' ≤ p := by
  rw [share_eq he hp, share_eq he' hp']
  by_cases hj : j ∈ (byRemainder exact).take leftover
  · by_cases hi : i ∈ (byRemainder exact).take leftover
    · rw [if_pos hi, if_pos hj]
    · have hilen : i < exact.length := (List.getElem?_eq_some_iff.mp he).1
      rcases remainderLe_of_taken hj hilen hi with hlt | ⟨-, hle⟩
      · rw [remainderAt_eq he, remainderAt_eq he'] at hlt
        exact absurd hlt (lt_irrefl _)
      · omega
  · rw [if_neg hj]
    split <;> omega

/-! ### Who gets a unit -/

section Ordered
variable [IsStrictOrderedRing K]

theorem remainderAt_nonneg (exact : List K) (i : ℕ) : 0 ≤ remainderAt exact i := Int.fract_nonneg _

theorem remainderAt_lt_one (exact : List K) (i : ℕ) : remainderAt exact i < 1 := Int.fract_lt_one _

theorem sum_le_length {f : ℕ → K} (xs : List ℕ) (h : ∀ x ∈ xs, f x ≤ 1) : (xs.map f).sum ≤ xs.length := by
  induction xs with
  | nil => simp
  | cons x xs ih =>
    have hrest := ih fun y hy => h y (List.mem_cons_of_mem _ hy)
    have hx := h x List.mem_cons_self
    rw [List.map_cons, List.sum_cons, List.length_cons]
    push_cast
    linarith

/-- No more units are left over than there are shares. -/
theorem leftover_le (hsum : (exact.map Int.fract).sum = (leftover : K)) : leftover ≤ exact.length := by
  have hle := sum_le_length (byRemainder exact) fun i _ => (remainderAt_lt_one exact i).le
  rw [sum_remainders, hsum, (byRemainder_perm exact).length_eq, List.length_range] at hle
  exact_mod_cast hle

theorem length_taken (hsum : (exact.map Int.fract).sum = (leftover : K)) :
    ((byRemainder exact).take leftover).length = leftover := by
  rw [List.length_take, (byRemainder_perm exact).length_eq, List.length_range]
  exact min_eq_left (leftover_le hsum)

/-- A unit goes to a share with a fractional part. -/
theorem remainder_pos_of_taken (hsum : (exact.map Int.fract).sum = (leftover : K))
    (hi : i ∈ (byRemainder exact).take leftover) : 0 < remainderAt exact i := by
  by_contra hzero
  have hi0 : remainderAt exact i = 0 := le_antisymm (not_lt.mp hzero) (remainderAt_nonneg exact i)
  -- then no share after it has one, and those before it are too few to add up to the units
  have hdrop : (((byRemainder exact).drop leftover).map (remainderAt exact)).sum = 0 := by
    refine List.sum_eq_zero fun x hx => ?_
    obtain ⟨j, hj, rfl⟩ := List.mem_map.mp hx
    have hsorted := byRemainder_sorted exact
    rw [← List.take_append_drop leftover (byRemainder exact)] at hsorted
    have hnn := remainderAt_nonneg exact j
    rcases (List.pairwise_append.mp hsorted).2.2 i hi j hj with hlt | ⟨heq, -⟩
    · linarith
    · rw [← heq, hi0]
  have htotal : (((byRemainder exact).take leftover).map (remainderAt exact)).sum = leftover := by
    have hall := sum_remainders exact
    rw [← List.take_append_drop leftover (byRemainder exact), List.map_append, List.sum_append, hdrop, add_zero] at hall
    rw [hall, hsum]
  obtain ⟨left, right, hsplit⟩ := List.append_of_mem hi
  have hlen := length_taken hsum
  rw [hsplit] at htotal hlen
  have hleft := sum_le_length left fun j _ => (remainderAt_lt_one exact j).le
  have hright := sum_le_length right fun j _ => (remainderAt_lt_one exact j).le
  rw [List.map_append, List.sum_append, List.map_cons, List.sum_cons, hi0] at htotal
  rw [List.length_append, List.length_cons] at hlen
  have hcount : (leftover : K) = left.length + right.length + 1 := by
    rw [← hlen]
    push_cast
    ring
  linarith

/-! ### The rounded shares -/

/-- The rounded shares add up to the shares rounded down and the units. -/
theorem sum_largestRemainder (hsum : (exact.map Int.fract).sum = (leftover : K)) :
    (largestRemainder exact leftover).sum = (exact.map Int.floor).sum + leftover := by
  rw [largestRemainder, sum_bumpAt, length_taken hsum]
  intro i hi
  rw [List.length_map]
  exact mem_byRemainder.mp (List.mem_of_mem_take hi)

/-- Each rounded share is less than one unit from the exact one. -/
theorem share_near (hsum : (exact.map Int.fract).sum = (leftover : K)) (he : exact[i]? = some e)
    (hp : (largestRemainder exact leftover)[i]? = some p) : |(p : K) - e| < 1 := by
  have hfract := Int.floor_add_fract e
  have hlt := Int.fract_lt_one e
  have hnn := Int.fract_nonneg e
  rw [share_eq he hp, abs_lt]
  split
  · rename_i htaken
    have hpos := remainder_pos_of_taken hsum htaken
    rw [remainderAt_eq he] at hpos
    push_cast
    constructor <;> linarith
  · push_cast
    constructor <;> linarith

/-- A larger share rounds to no less. -/
theorem share_mono (he : exact[i]? = some e) (he' : exact[j]? = some e')
    (hp : (largestRemainder exact leftover)[i]? = some p) (hp' : (largestRemainder exact leftover)[j]? = some p')
    (hlt : e < e') : p ≤ p' := by
  have hfloor : ⌊e⌋ ≤ ⌊e'⌋ := Int.floor_le_floor hlt.le
  rw [share_eq he hp, share_eq he' hp']
  by_cases hi : i ∈ (byRemainder exact).take leftover
  · by_cases hj : j ∈ (byRemainder exact).take leftover
    · rw [if_pos hi, if_pos hj]
      omega
    · have hjlen : j < exact.length := (List.getElem?_eq_some_iff.mp he').1
      have hrem := remainderLe_of_taken hi hjlen hj
      rw [remainderLe, remainderAt_eq he, remainderAt_eq he'] at hrem
      have hle : Int.fract e' ≤ Int.fract e := hrem.elim le_of_lt fun h => h.1.symm.le
      have hne : ⌊e⌋ ≠ ⌊e'⌋ := by
        intro heq
        have h1 := Int.floor_add_fract e
        have h2 := Int.floor_add_fract e'
        rw [heq] at h1
        linarith
      rw [if_pos hi, if_neg hj]
      omega
  · rw [if_neg hi]
    split <;> omega

end Ordered

/-! ### Rounding what is taken off

    Where each share and what is taken off it make a whole number, rounding the shares by largest remainder is taking
    off the largest-remainder rounding of what is taken off, equal remainders now going to the later position. -/

theorem remainderAt_reverse (exact : List K) (hi : i < exact.length) :
    remainderAt exact.reverse (exact.length - 1 - i) = remainderAt exact i := by
  rw [remainderAt, remainderAt, List.getD_eq_getElem?_getD, List.getD_eq_getElem?_getD,
    List.getElem?_reverse (by omega)]
  congr 3
  omega

theorem getElem?_largestRemainder_reverse (exact : List K) (leftover : ℕ) (hi : i < exact.length) :
    (largestRemainder exact.reverse leftover).reverse[i]? = exact[i]?.map fun e =>
      ⌊e⌋ + if exact.length - 1 - i ∈ (byRemainder exact.reverse).take leftover then 1 else 0 := by
  have hlen := length_largestRemainder exact.reverse leftover
  rw [List.length_reverse] at hlen
  rw [List.getElem?_reverse (by omega), hlen, getElem?_largestRemainder, List.getElem?_reverse (by omega)]
  congr 2
  omega

/-- The positions that get a unit, as a set. -/
def takenSet (exact : List K) (leftover : ℕ) : Finset ℕ := ((byRemainder exact).take leftover).toFinset

/-- The positions of the reversed list that get a unit, counted from the front. -/
def takenSetRev (exact : List K) (leftover : ℕ) : Finset ℕ :=
  (((byRemainder exact.reverse).take leftover).map fun j => exact.length - 1 - j).toFinset

theorem mem_takenSetRev (hi : i < exact.length) :
    i ∈ takenSetRev exact leftover ↔ exact.length - 1 - i ∈ (byRemainder exact.reverse).take leftover := by
  rw [takenSetRev, List.mem_toFinset, List.mem_map]
  constructor
  · rintro ⟨j, hj, rfl⟩
    have hjlen := mem_byRemainder.mp (List.mem_of_mem_take hj)
    rw [List.length_reverse] at hjlen
    have hback : exact.length - 1 - (exact.length - 1 - j) = j := by omega
    rwa [hback]
  · intro h
    exact ⟨_, h, by omega⟩

theorem lt_of_mem_takenSetRev (hi : i ∈ takenSetRev exact leftover) : i < exact.length := by
  rw [takenSetRev, List.mem_toFinset, List.mem_map] at hi
  obtain ⟨j, hj, rfl⟩ := hi
  have hjlen := mem_byRemainder.mp (List.mem_of_mem_take hj)
  rw [List.length_reverse] at hjlen
  omega

/-- The positions with a fractional part. -/
def fractionalSet (exact : List K) : Finset ℕ := (Finset.range exact.length).filter fun i => remainderAt exact i ≠ 0

theorem sum_range_remainders (exact : List K) :
    ∑ i ∈ Finset.range exact.length, remainderAt exact i = (exact.map Int.fract).sum := by
  rw [← List.toFinset_range, List.sum_toFinset _ List.nodup_range, ← sum_remainders exact,
    ((byRemainder_perm exact).map _).sum_eq]

section Complement
variable [IsStrictOrderedRing K] {shares off : List K} {leftOff : ℕ}

theorem card_takenSet (hsum : (exact.map Int.fract).sum = (leftover : K)) : (takenSet exact leftover).card = leftover := by
  rw [takenSet, List.toFinset_card_of_nodup ((byRemainder_nodup exact).sublist (List.take_sublist _ _)),
    length_taken hsum]

theorem card_takenSetRev (hsum : (exact.map Int.fract).sum = (leftover : K)) :
    (takenSetRev exact leftover).card = leftover := by
  have hrev : (exact.reverse.map Int.fract).sum = (leftover : K) := by
    rw [List.map_reverse, List.sum_reverse, hsum]
  have hnodup : ((byRemainder exact.reverse).take leftover).Nodup :=
    (byRemainder_nodup exact.reverse).sublist (List.take_sublist _ _)
  have hmap : (((byRemainder exact.reverse).take leftover).map fun j => exact.length - 1 - j).Nodup := by
    refine hnodup.map_on fun a ha b hb hab => ?_
    have halen := mem_byRemainder.mp (List.mem_of_mem_take ha)
    have hblen := mem_byRemainder.mp (List.mem_of_mem_take hb)
    rw [List.length_reverse] at halen hblen
    omega
  rw [takenSetRev, List.toFinset_card_of_nodup hmap, List.length_map, length_taken hrev]

/-- What a share and what is taken off it leave over: nothing each, or one unit together. -/
theorem remainder_complement (hwhole : ∀ i, ∃ c : ℤ, shares.getD i 0 + off.getD i 0 = c) (i : ℕ) :
    (remainderAt shares i = 0 ∧ remainderAt off i = 0) ∨
      (0 < remainderAt shares i ∧ remainderAt shares i + remainderAt off i = 1) := by
  obtain ⟨c, hc⟩ := hwhole i
  have hr := remainderAt_nonneg shares i
  have hs := remainderAt_nonneg off i
  have hr1 := remainderAt_lt_one shares i
  have hs1 := remainderAt_lt_one off i
  have hinteger : remainderAt shares i + remainderAt off i =
      ((c - ⌊shares.getD i 0⌋ - ⌊off.getD i 0⌋ : ℤ) : K) := by
    have h1 := Int.floor_add_fract (shares.getD i 0)
    have h2 := Int.floor_add_fract (off.getD i 0)
    rw [remainderAt, remainderAt]
    push_cast
    linarith
  have hlow : (-1 : ℤ) < c - ⌊shares.getD i 0⌋ - ⌊off.getD i 0⌋ := by
    have : (-1 : K) < ((c - ⌊shares.getD i 0⌋ - ⌊off.getD i 0⌋ : ℤ) : K) := by linarith
    exact_mod_cast this
  have hhigh : c - ⌊shares.getD i 0⌋ - ⌊off.getD i 0⌋ < (2 : ℤ) := by
    have : ((c - ⌊shares.getD i 0⌋ - ⌊off.getD i 0⌋ : ℤ) : K) < 2 := by linarith
    exact_mod_cast this
  have hcases : c - ⌊shares.getD i 0⌋ - ⌊off.getD i 0⌋ = 0 ∨ c - ⌊shares.getD i 0⌋ - ⌊off.getD i 0⌋ = 1 := by omega
  rcases hcases with hz | hz
  · rw [hz, Int.cast_zero] at hinteger
    exact .inl ⟨by linarith, by linarith⟩
  · rw [hz, Int.cast_one] at hinteger
    exact .inr ⟨by linarith, hinteger⟩

/-- As many units are left over, of the shares and of what is taken off, as there are fractional shares. -/
theorem card_fractionalSet (hlen : shares.length = off.length)
    (hwhole : ∀ i, ∃ c : ℤ, shares.getD i 0 + off.getD i 0 = c) (hsum : (shares.map Int.fract).sum = (leftover : K))
    (hoff : (off.map Int.fract).sum = (leftOff : K)) : (fractionalSet shares).card = leftover + leftOff := by
  have hone : ∀ i, remainderAt shares i + remainderAt off i = if remainderAt shares i ≠ 0 then 1 else 0 := by
    intro i
    rcases remainder_complement hwhole i with ⟨h1, h2⟩ | ⟨h1, h2⟩
    · rw [if_neg (not_not_intro h1), h1, h2, add_zero]
    · rw [if_pos h1.ne', h2]
  have hcount : ((fractionalSet shares).card : K) = leftover + leftOff := by
    rw [← hsum, ← hoff, ← sum_range_remainders, ← sum_range_remainders, ← hlen, ← Finset.sum_add_distrib,
      Finset.sum_congr rfl fun i _ => hone i, fractionalSet, Finset.sum_boole]
  exact_mod_cast hcount

theorem takenSet_subset (hsum : (exact.map Int.fract).sum = (leftover : K)) :
    takenSet exact leftover ⊆ fractionalSet exact := by
  intro i hi
  rw [takenSet, List.mem_toFinset] at hi
  rw [fractionalSet, Finset.mem_filter, Finset.mem_range]
  exact ⟨mem_byRemainder.mp (List.mem_of_mem_take hi), (remainder_pos_of_taken hsum hi).ne'⟩

theorem takenSetRev_subset (hlen : shares.length = off.length)
    (hwhole : ∀ i, ∃ c : ℤ, shares.getD i 0 + off.getD i 0 = c) (hoff : (off.map Int.fract).sum = (leftOff : K)) :
    takenSetRev off leftOff ⊆ fractionalSet shares := by
  intro i hi
  have hilen := lt_of_mem_takenSetRev hi
  have hrev : (off.reverse.map Int.fract).sum = (leftOff : K) := by rw [List.map_reverse, List.sum_reverse, hoff]
  have hpos := remainder_pos_of_taken hrev ((mem_takenSetRev hilen).mp hi)
  rw [remainderAt_reverse off hilen] at hpos
  rw [fractionalSet, Finset.mem_filter, Finset.mem_range, hlen]
  refine ⟨hilen, ?_⟩
  rcases remainder_complement hwhole i with ⟨-, h2⟩ | ⟨h1, -⟩
  · linarith
  · exact h1.ne'

/-- A fractional share gets a unit exactly when what is taken off it does not. -/
theorem taken_iff (hlen : shares.length = off.length) (hwhole : ∀ i, ∃ c : ℤ, shares.getD i 0 + off.getD i 0 = c)
    (hsum : (shares.map Int.fract).sum = (leftover : K)) (hoff : (off.map Int.fract).sum = (leftOff : K))
    (hi : i ∈ fractionalSet shares) : i ∈ takenSet shares leftover ↔ i ∉ takenSetRev off leftOff := by
  have hA := takenSet_subset hsum
  have hB := takenSetRev_subset hlen hwhole hoff
  have hN := card_fractionalSet hlen hwhole hsum hoff
  have hcardA := card_takenSet hsum
  have hcardB := card_takenSetRev hoff
  have hdisjoint : Disjoint (takenSet shares leftover) (takenSetRev off leftOff) := by
    rw [Finset.disjoint_left]
    intro a ha hb
    -- some fractional share is then missed by both, and the two orders put `a` before it
    obtain ⟨j, hj, hjA, hjB⟩ : ∃ j ∈ fractionalSet shares, j ∉ takenSet shares leftover ∧ j ∉ takenSetRev off leftOff := by
      by_contra hnone
      push Not at hnone
      have hsub : fractionalSet shares ⊆ takenSet shares leftover ∪ (takenSetRev off leftOff).erase a := by
        intro j hj
        by_cases hjA : j ∈ takenSet shares leftover
        · exact Finset.mem_union_left _ hjA
        · refine Finset.mem_union_right _ (Finset.mem_erase.mpr ⟨?_, hnone j hj hjA⟩)
          rintro rfl
          exact hjA ha
      have hle := (Finset.card_le_card hsub).trans (Finset.card_union_le _ _)
      rw [Finset.card_erase_of_mem hb, hN, hcardA, hcardB] at hle
      have hpos := Finset.card_pos.mpr ⟨a, hb⟩
      omega
    have haLen := lt_of_mem_takenSetRev hb
    have hjLen : j < off.length := hlen ▸ Finset.mem_range.mp (Finset.mem_filter.mp hj).1
    have hfirst := remainderLe_of_taken (List.mem_toFinset.mp ha) (hlen ▸ hjLen) fun h => hjA (List.mem_toFinset.mpr h)
    have hsecond := remainderLe_of_taken ((mem_takenSetRev haLen).mp hb) (j := off.length - 1 - j)
      (by rw [List.length_reverse]; omega) fun h => hjB ((mem_takenSetRev hjLen).mpr h)
    rw [remainderLe, remainderAt_reverse off haLen, remainderAt_reverse off hjLen] at hsecond
    have hja := remainder_complement hwhole j
    have haa := remainder_complement hwhole a
    have hj0 := (Finset.mem_filter.mp hj).2
    have ha0 := (Finset.mem_filter.mp (hA ha)).2
    have hj1 := (hja.resolve_left fun h => hj0 h.1).2
    have ha1 := (haa.resolve_left fun h => ha0 h.1).2
    rcases hfirst with h | ⟨h, hle⟩
    · rcases hsecond with h' | ⟨h', -⟩
      · linarith
      · linarith
    · rcases hsecond with h' | ⟨-, hle'⟩
      · linarith
      · have heq : a = j := by omega
        exact hjA (heq ▸ ha)
  have hunion : takenSet shares leftover ∪ takenSetRev off leftOff = fractionalSet shares := by
    refine Finset.eq_of_subset_of_card_le (Finset.union_subset hA hB) ?_
    rw [Finset.card_union_of_disjoint hdisjoint, hN, hcardA, hcardB]
  rw [← hunion, Finset.mem_union] at hi
  constructor
  · exact fun h => Finset.disjoint_left.mp hdisjoint h
  · exact fun h => hi.resolve_right h

/-- The rounded share and the rounding of what is taken off make the whole. -/
theorem largestRemainder_complement (hlen : shares.length = off.length)
    (hwhole : ∀ i, ∃ c : ℤ, shares.getD i 0 + off.getD i 0 = c) (hsum : (shares.map Int.fract).sum = (leftover : K))
    (hoff : (off.map Int.fract).sum = (leftOff : K)) (he : shares[i]? = some e) (he' : off[i]? = some e')
    (hp : (largestRemainder shares leftover)[i]? = some p)
    (hp' : (largestRemainder off.reverse leftOff).reverse[i]? = some p') : ((p + p' : ℤ) : K) = e + e' := by
  have hi : i < off.length := (List.getElem?_eq_some_iff.mp he').1
  have hshare := share_eq he hp
  rw [getElem?_largestRemainder_reverse off leftOff hi, he', Option.map_some, Option.some.injEq] at hp'
  have h1 := Int.floor_add_fract e
  have h2 := Int.floor_add_fract e'
  have hr := remainderAt_eq he
  have hs := remainderAt_eq he'
  by_cases hfractional : i ∈ fractionalSet shares
  · have htaken := taken_iff hlen hwhole hsum hoff hfractional
    rw [takenSet, List.mem_toFinset, mem_takenSetRev hi] at htaken
    have hone := ((remainder_complement hwhole i).resolve_left
      fun h => (Finset.mem_filter.mp hfractional).2 h.1).2
    rw [hr, hs] at hone
    rw [hshare, ← hp']
    by_cases hin : i ∈ (byRemainder shares).take leftover
    · rw [if_pos hin, if_neg (htaken.mp hin)]
      push_cast
      linarith
    · rw [if_neg hin, if_pos (by_contra fun h => hin (htaken.mpr h))]
      push_cast
      linarith
  · have hzero : remainderAt shares i = 0 := by
      by_contra hne
      exact hfractional (Finset.mem_filter.mpr ⟨Finset.mem_range.mpr (hlen ▸ hi), hne⟩)
    have hboth : remainderAt off i = 0 := by
      rcases remainder_complement hwhole i with h | h
      · exact h.2
      · exact absurd hzero h.1.ne'
    have hnotA : i ∉ (byRemainder shares).take leftover := fun h =>
      (remainder_pos_of_taken hsum h).ne' hzero
    have hnotB : off.length - 1 - i ∉ (byRemainder off.reverse).take leftOff := fun h =>
      hfractional (takenSetRev_subset hlen hwhole hoff ((mem_takenSetRev hi).mpr h))
    rw [hr] at hzero
    rw [hs] at hboth
    rw [hshare, ← hp', if_neg hnotA, if_neg hnotB]
    push_cast
    linarith

end Complement

end Lib
