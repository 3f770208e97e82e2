import Mathlib
import GdxDispatch.Lib.LargestRemainder

/-! Splitting cents in proportion to weights.

    `allocate` gives every part its share rounded down and hands the cents that are left, one each, to the largest
    fractional remainders. Weights are exact fractions. A negative total is split as its absolute value and negated,
    so that a refund comes apart exactly as the charge it unwinds. -/

namespace Gdx

open Lib

/-- What `allocate` raises. -/
inductive MoneyError where
  | valueError (message : String)
  | arithmeticError (message : String)
  deriving DecidableEq, Repr

/-- The exact shares. -/
def exactShares (totalCents : ℤ) (weights : List ℚ) : List ℚ := weights.map fun w => totalCents * w / weights.sum

/-- The split of a total that is not negative across weights that are not all zero. -/
def allocateShares (totalCents : ℤ) (weights : List ℚ) : Except MoneyError (List ℤ) :=
  let exact := exactShares totalCents weights
  let leftover := totalCents - (exact.map Int.floor).sum
  let parts := largestRemainder exact leftover.toNat
  if parts.sum ≠ totalCents then
    .error (.arithmeticError s!"allocate invariant violated: {parts.sum} != {totalCents}")
  else .ok parts

/-- `allocate`: the parts in the order of their weights. -/
def allocate (totalCents : ℤ) (weights : List ℚ) : Except MoneyError (List ℤ) :=
  if weights = [] then .error (.valueError "allocate needs at least one weight")
  else if weights.any (· < 0) then .error (.valueError "weights must be non-negative")
  else if weights.sum = 0 then
    if totalCents = 0 then .ok (weights.map fun _ => 0)
    else .error (.valueError "cannot allocate a nonzero total across all-zero weights")
  else if totalCents < 0 then (allocateShares (-totalCents) weights).map (·.map (-·))
  else allocateShares totalCents weights

example : allocate 6000 [40000, 60000] = .ok [2400, 3600] := by decide +kernel

/-- A quota method: the parts add up to the total, each is less than a cent from its exact share, and larger weights
    get no less of the total, nor do earlier ones among equals. -/
structure Quota (totalCents : ℤ) (weights : List ℚ) (parts : List ℤ) : Prop where
  length_eq : parts.length = weights.length
  sum_eq : parts.sum = totalCents
  near : ∀ (i : ℕ) (w : ℚ) (p : ℤ), weights[i]? = some w → parts[i]? = some p →
    |(p : ℚ) - totalCents * w / weights.sum| < 1
  ordered : ∀ (i j : ℕ) (w w' : ℚ) (p p' : ℤ), weights[i]? = some w → weights[j]? = some w' →
    parts[i]? = some p → parts[j]? = some p' → w < w' ∨ (w = w' ∧ j < i) →
    if 0 ≤ totalCents then p ≤ p' else p' ≤ p

variable {totalCents : ℤ} {weights : List ℚ} {parts : List ℤ}

theorem int_eq_zero_of_near {p : ℤ} (h : |(p : ℚ)| < 1) : p = 0 := by
  have habs : |p| < 1 := by exact_mod_cast h
  exact Int.abs_lt_one_iff.mp habs

/-- A weight of zero gets nothing. -/
theorem Quota.zero_of_zero (h : Quota totalCents weights parts) {i : ℕ} {p : ℤ} (hw : weights[i]? = some 0)
    (hp : parts[i]? = some p) : p = 0 := by
  have hnear := h.near i 0 p hw hp
  rw [mul_zero, zero_div, sub_zero] at hnear
  exact int_eq_zero_of_near hnear

theorem sum_map_neg (xs : List ℤ) : (xs.map (-·)).sum = -xs.sum := by
  induction xs with
  | nil => rfl
  | cons x xs ih =>
    rw [List.map_cons, List.sum_cons, List.sum_cons, ih]
    ring

/-- The negated parts are a quota of the negated total. -/
theorem Quota.neg (h : Quota totalCents weights parts) (hneg : 0 < totalCents) :
    Quota (-totalCents) weights (parts.map (-·)) where
  length_eq := by rw [List.length_map, h.length_eq]
  sum_eq := by rw [sum_map_neg, h.sum_eq]
  near := by
    intro i w p hw hp
    rw [List.getElem?_map, Option.map_eq_some_iff] at hp
    obtain ⟨q, hq, rfl⟩ := hp
    have hnear := h.near i w q hw hq
    rw [← abs_neg] at hnear
    convert hnear using 2
    push_cast
    ring
  ordered := by
    intro i j w w' p p' hw hw' hp hp' hlt
    rw [List.getElem?_map, Option.map_eq_some_iff] at hp hp'
    obtain ⟨q, hq, rfl⟩ := hp
    obtain ⟨q', hq', rfl⟩ := hp'
    have hle := h.ordered i j w w' q q' hw hw' hq hq' hlt
    rw [if_pos hneg.le] at hle
    rw [if_neg (by omega)]
    omega

theorem sum_exactShares (hsum : weights.sum ≠ 0) : (exactShares totalCents weights).sum = totalCents := by
  have hfactor : exactShares totalCents weights = weights.map fun w => totalCents / weights.sum * w :=
    List.map_congr_left fun w _ => by ring
  rw [hfactor, List.sum_map_mul_left, List.map_id', div_mul_cancel₀ _ hsum]

theorem sum_floor_add_fract (xs : List ℚ) :
    (((xs.map Int.floor).sum : ℤ) : ℚ) + (xs.map Int.fract).sum = xs.sum := by
  induction xs with
  | nil => simp
  | cons x xs ih =>
    have hx := Int.floor_add_fract x
    rw [List.map_cons, List.sum_cons, List.map_cons, List.sum_cons, List.sum_cons, Int.cast_add]
    linarith

/-- The cents left over are what the fractional parts add up to. -/
theorem leftover_eq (totalCents : ℤ) (hsum : weights.sum ≠ 0) : ((exactShares totalCents weights).map Int.fract).sum =
    ((totalCents - ((exactShares totalCents weights).map Int.floor).sum).toNat : ℚ) := by
  have htotal := sum_floor_add_fract (exactShares totalCents weights)
  rw [sum_exactShares hsum] at htotal
  have hnonneg : (0 : ℚ) ≤ ((exactShares totalCents weights).map Int.fract).sum :=
    List.sum_nonneg (by simp [Int.fract_nonneg])
  have heq : ((exactShares totalCents weights).map Int.fract).sum =
      ((totalCents - ((exactShares totalCents weights).map Int.floor).sum : ℤ) : ℚ) := by
    rw [Int.cast_sub]
    linarith
  rw [heq] at hnonneg ⊢
  have hint : 0 ≤ totalCents - ((exactShares totalCents weights).map Int.floor).sum := by exact_mod_cast hnonneg
  rw [← Int.cast_natCast, Int.toNat_of_nonneg hint]

/-- The cents left over. -/
def leftoverCents (totalCents : ℤ) (weights : List ℚ) : ℕ :=
  (totalCents - ((exactShares totalCents weights).map Int.floor).sum).toNat

/-- The internal check never raises. -/
theorem allocateShares_eq (totalCents : ℤ) (hsum : weights.sum ≠ 0) : allocateShares totalCents weights =
    .ok (largestRemainder (exactShares totalCents weights) (leftoverCents totalCents weights)) ∧
      (largestRemainder (exactShares totalCents weights) (leftoverCents totalCents weights)).sum = totalCents := by
  have hleft := leftover_eq totalCents hsum
  have hfloor := sum_floor_add_fract (exactShares totalCents weights)
  rw [hleft, sum_exactShares hsum] at hfloor
  have hexact : (largestRemainder (exactShares totalCents weights) (leftoverCents totalCents weights)).sum =
      totalCents := by
    rw [leftoverCents, sum_largestRemainder hleft]
    exact_mod_cast hfloor
  refine ⟨?_, hexact⟩
  rw [leftoverCents] at hexact
  simp only [allocateShares, hexact, ne_eq, not_true_eq_false, if_false, leftoverCents]

theorem allocateShares_quota (htotal : 0 ≤ totalCents) (hsum : 0 < weights.sum) :
    ∃ parts, allocateShares totalCents weights = .ok parts ∧ Quota totalCents weights parts := by
  have hleft := leftover_eq totalCents hsum.ne'
  obtain ⟨hok, hexact⟩ := allocateShares_eq totalCents hsum.ne'
  rw [leftoverCents] at hok hexact
  generalize hcount : (totalCents - ((exactShares totalCents weights).map Int.floor).sum).toNat = leftover at *
  have hshare : ∀ (i : ℕ) (w : ℚ), weights[i]? = some w →
      (exactShares totalCents weights)[i]? = some (totalCents * w / weights.sum) :=
    fun i w hw => by rw [exactShares, List.getElem?_map, hw, Option.map_some]
  have hnear : ∀ (i : ℕ) (w : ℚ) (p : ℤ), weights[i]? = some w →
      (largestRemainder (exactShares totalCents weights) leftover)[i]? = some p →
      |(p : ℚ) - totalCents * w / weights.sum| < 1 := fun i w p hw hp => share_near hleft (hshare i w hw) hp
  refine ⟨largestRemainder (exactShares totalCents weights) leftover, hok, ?_, hexact, hnear, ?_⟩
  · rw [length_largestRemainder, exactShares, List.length_map]
  · intro i j w w' p p' hw hw' hp hp' hlt
    rw [if_pos htotal]
    rcases hlt with hlt | ⟨rfl, hji⟩
    · rcases htotal.eq_or_lt with rfl | hpos
      · -- of a total of zero every share is zero
        have hp0 := int_eq_zero_of_near (by simpa using hnear i w p hw hp)
        have hp0' := int_eq_zero_of_near (by simpa using hnear j w' p' hw' hp')
        rw [hp0, hp0']
      · refine share_mono (hshare i w hw) (hshare j w' hw') hp hp' ?_
        have hcast : (0 : ℚ) < totalCents := by exact_mod_cast hpos
        gcongr
    · exact share_tie (hshare j w hw') (hshare i w hw) hp' hp hji

/-- Past its checks, `allocate` is the split of a total that is not negative. -/
theorem allocate_of_nonneg (hweights : ∀ w ∈ weights, 0 ≤ w) (hsum : 0 < weights.sum) (htotal : 0 ≤ totalCents) :
    allocate totalCents weights = allocateShares totalCents weights := by
  have hne : weights ≠ [] := by
    rintro rfl
    exact lt_irrefl _ hsum
  have hneg : ¬ weights.any (· < 0) = true := by simpa using hweights
  rw [allocate, if_neg hne, if_neg hneg, if_neg hsum.ne', if_neg (not_lt.mpr htotal)]

theorem allocate_of_neg (hweights : ∀ w ∈ weights, 0 ≤ w) (hsum : 0 < weights.sum) (htotal : totalCents < 0) :
    allocate totalCents weights = (allocate (-totalCents) weights).map (·.map (-·)) := by
  have hne : weights ≠ [] := by
    rintro rfl
    exact lt_irrefl _ hsum
  have hneg : ¬ weights.any (· < 0) = true := by simpa using hweights
  rw [allocate_of_nonneg hweights hsum (neg_nonneg.mpr htotal.le), allocate, if_neg hne, if_neg hneg,
    if_neg hsum.ne', if_pos htotal]

theorem map_neg_neg (xs : List ℤ) : (xs.map (-·)).map (-·) = xs := by
  rw [List.map_map]
  simp

/-- Every total is split into a quota, and the negated total into the negated one. -/
theorem exists_quota (totalCents : ℤ) (weights : List ℚ) (hweights : ∀ w ∈ weights, 0 ≤ w) (hsum : 0 < weights.sum) :
    ∃ parts, allocate totalCents weights = .ok parts ∧ Quota totalCents weights parts ∧
      allocate (-totalCents) weights = .ok (parts.map (-·)) := by
  rcases lt_trichotomy totalCents 0 with hneg | rfl | hpos
  · obtain ⟨parts, hok, hquota⟩ := allocateShares_quota (neg_nonneg.mpr hneg.le) hsum
    rw [← allocate_of_nonneg hweights hsum (neg_nonneg.mpr hneg.le)] at hok
    have hback := hquota.neg (neg_pos.mpr hneg)
    rw [neg_neg] at hback
    refine ⟨parts.map (-·), ?_, hback, ?_⟩
    · rw [allocate_of_neg hweights hsum hneg, hok]
      rfl
    · rw [hok, map_neg_neg]
  · obtain ⟨parts, hok, hquota⟩ := allocateShares_quota le_rfl hsum
    rw [← allocate_of_nonneg hweights hsum le_rfl] at hok
    have hzero : parts.map (-·) = parts := by
      refine List.ext_getElem? fun i => ?_
      rw [List.getElem?_map]
      cases hp : parts[i]? with
      | none => rfl
      | some p =>
        have hi : i < weights.length := hquota.length_eq ▸ (List.getElem?_eq_some_iff.mp hp).1
        have hp0 := int_eq_zero_of_near (by simpa using hquota.near i _ p (List.getElem?_eq_getElem hi) hp)
        rw [hp0]
        rfl
    exact ⟨parts, hok, hquota, by rw [neg_zero, hok, hzero]⟩
  · obtain ⟨parts, hok, hquota⟩ := allocateShares_quota hpos.le hsum
    rw [← allocate_of_nonneg hweights hsum hpos.le] at hok
    refine ⟨parts, hok, hquota, ?_⟩
    rw [allocate_of_neg hweights hsum (neg_lt_zero.mpr hpos), neg_neg, hok]
    rfl

/-- Splitting part of a whole across its pieces leaves of each piece its share of the rest, equal remainders of the rest
    going to the later piece. -/
theorem allocate_complement {pieces : List ℤ} {rest : ℤ} (hpieces : ∀ c ∈ pieces, 0 ≤ c) (htotal : 0 ≤ totalCents)
    (hrest : 0 ≤ rest) (hwhole : totalCents + rest = pieces.sum) (hsum : 0 < pieces.sum) :
    ∃ parts offs, allocate totalCents (pieces.map fun c : ℤ => (c : ℚ)) = .ok parts ∧
      allocate rest (pieces.reverse.map fun c : ℤ => (c : ℚ)) = .ok offs ∧ offs.length = pieces.length ∧
      parts = List.zipWith (· - ·) pieces offs.reverse := by
  have hcast : (pieces.map fun c : ℤ => (c : ℚ)).sum = ((pieces.sum : ℤ) : ℚ) := by
    rw [Int.cast_list_sum]
  have hsumQ : (0 : ℚ) < (pieces.map fun c : ℤ => (c : ℚ)).sum := by
    rw [hcast]
    exact_mod_cast hsum
  have hweights : ∀ w ∈ pieces.map fun c : ℤ => (c : ℚ), 0 ≤ w := by simpa using hpieces
  have hreverse : pieces.reverse.map (fun c : ℤ => (c : ℚ)) = (pieces.map fun c : ℤ => (c : ℚ)).reverse :=
    List.map_reverse
  generalize hw : pieces.map (fun c : ℤ => (c : ℚ)) = weights at hcast hsumQ hweights hreverse
  have hsumRev : weights.reverse.sum = weights.sum := List.sum_reverse _
  have hsharesRev : exactShares rest weights.reverse = (exactShares rest weights).reverse := by
    rw [exactShares, exactShares, hsumRev, List.map_reverse]
  have hoffRev := leftover_eq rest (hsumRev ▸ hsumQ.ne' : weights.reverse.sum ≠ 0)
  have hoff : ((exactShares rest weights).map Int.fract).sum = (leftoverCents rest weights.reverse : ℚ) := by
    rw [leftoverCents, ← hoffRev, hsharesRev, List.map_reverse, List.sum_reverse]
  have hshare : ∀ (t : ℤ) (i : ℕ) (c : ℤ), pieces[i]? = some c →
      (exactShares t weights)[i]? = some ((t : ℚ) * c / (pieces.sum : ℤ)) := by
    intro t i c hc
    rw [exactShares, List.getElem?_map, ← hw, List.getElem?_map, hc, hw, hcast]
    rfl
  have hlen : (exactShares totalCents weights).length = (exactShares rest weights).length := by
    rw [exactShares, exactShares, List.length_map, List.length_map]
  have hpiecesLen : (exactShares totalCents weights).length = pieces.length := by
    rw [exactShares, List.length_map, ← hw, List.length_map]
  have hsumInt : ((pieces.sum : ℤ) : ℚ) ≠ 0 := by exact_mod_cast hsum.ne'
  have hmakes : ∀ c : ℤ, (totalCents : ℚ) * c / (pieces.sum : ℤ) + (rest : ℚ) * c / (pieces.sum : ℤ) = c := by
    intro c
    rw [← hwhole, Int.cast_add] at hsumInt ⊢
    field_simp
  have hinteger : ∀ i, ∃ c : ℤ, (exactShares totalCents weights).getD i 0 + (exactShares rest weights).getD i 0 = c := by
    intro i
    rw [List.getD_eq_getElem?_getD, List.getD_eq_getElem?_getD]
    cases hc : pieces[i]? with
    | none =>
      rw [List.getElem?_eq_none_iff] at hc
      rw [List.getElem?_eq_none (by omega), List.getElem?_eq_none (by omega)]
      exact ⟨0, by simp⟩
    | some c =>
      rw [hshare totalCents i c hc, hshare rest i c hc]
      exact ⟨c, hmakes c⟩
  refine ⟨largestRemainder (exactShares totalCents weights) (leftoverCents totalCents weights),
    largestRemainder (exactShares rest weights).reverse (leftoverCents rest weights.reverse), ?_, ?_, ?_, ?_⟩
  · rw [allocate_of_nonneg hweights hsumQ htotal, (allocateShares_eq totalCents hsumQ.ne').1]
  · rw [hreverse, allocate_of_nonneg (by simpa using hweights) (hsumRev ▸ hsumQ) hrest,
      (allocateShares_eq rest (hsumRev ▸ hsumQ.ne')).1, hsharesRev]
  · rw [length_largestRemainder, List.length_reverse]
    omega
  · refine List.ext_getElem? fun i => ?_
    rw [List.getElem?_zipWith]
    cases hc : pieces[i]? with
    | none =>
      rw [List.getElem?_eq_none_iff] at hc
      rw [List.getElem?_eq_none (by rw [length_largestRemainder]; omega)]
    | some c =>
      have hi := (List.getElem?_eq_some_iff.mp hc).1
      obtain ⟨p, hp⟩ : ∃ p, (largestRemainder (exactShares totalCents weights)
          (leftoverCents totalCents weights))[i]? = some p :=
        ⟨_, List.getElem?_eq_getElem (by rw [length_largestRemainder]; omega)⟩
      obtain ⟨o, ho⟩ : ∃ o, (largestRemainder (exactShares rest weights).reverse
          (leftoverCents rest weights.reverse)).reverse[i]? = some o :=
        ⟨_, List.getElem?_eq_getElem (by rw [List.length_reverse, length_largestRemainder, List.length_reverse]; omega)⟩
      have hwholePart := largestRemainder_complement hlen hinteger (leftover_eq totalCents hsumQ.ne') hoff
        (hshare totalCents i c hc) (hshare rest i c hc) hp ho
      rw [hmakes c] at hwholePart
      have hint : p + o = c := by exact_mod_cast hwholePart
      rw [hp, ho]
      simp only [Option.some.injEq]
      omega

/-- `allocate` is a quota method, and negates with its total. -/
theorem allocate_is_quota (totalCents : ℤ) (weights : List ℚ) (hweights : ∀ w ∈ weights, 0 ≤ w)
    (hsum : 0 < weights.sum) :
    ∃ parts, allocate totalCents weights = .ok parts ∧ Quota totalCents weights parts ∧
      (∀ (i : ℕ) (p : ℤ), weights[i]? = some 0 → parts[i]? = some p → p = 0) ∧
      allocate (-totalCents) weights = .ok (parts.map (-·)) := by
  obtain ⟨parts, hok, hquota, hneg⟩ := exists_quota totalCents weights hweights hsum
  exact ⟨parts, hok, hquota, fun i p hw hp => hquota.zero_of_zero hw hp, hneg⟩

theorem allocate_is_quota_thirds : ∃ parts, allocate 100 [1, 0, 1, 1] = .ok parts ∧ Quota 100 [1, 0, 1, 1] parts ∧
    (∀ (i : ℕ) (p : ℤ), ([1, 0, 1, 1] : List ℚ)[i]? = some 0 → parts[i]? = some p → p = 0) ∧
    allocate (-100) [1, 0, 1, 1] = .ok (parts.map (-·)) :=
  allocate_is_quota 100 [1, 0, 1, 1] (by decide +kernel) (by decide +kernel)

/-- Of minus three cents the larger weight gets minus two, the smaller minus one. -/
theorem allocate_orders_negative_totals_backwards :
    ¬ ∀ (totalCents : ℤ) (weights : List ℚ), (∀ w ∈ weights, 0 ≤ w) → 0 < weights.sum →
      ∃ parts, allocate totalCents weights = .ok parts ∧
        ∀ (i j : ℕ) (w w' : ℚ) (p p' : ℤ), weights[i]? = some w → weights[j]? = some w' →
          parts[i]? = some p → parts[j]? = some p' → w < w' → p ≤ p' := by
  intro h
  obtain ⟨parts, hok, hordered⟩ := h (-3) [1, 2] (by decide +kernel) (by decide +kernel)
  have hparts : allocate (-3) [1, 2] = .ok [-1, -2] := by decide +kernel
  rw [hparts] at hok
  cases hok
  exact absurd (hordered 0 1 1 2 (-1) (-2) rfl rfl rfl rfl (by decide +kernel)) (by decide)

end Gdx
