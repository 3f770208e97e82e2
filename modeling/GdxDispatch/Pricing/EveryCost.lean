import Mathlib
import GdxDispatch.Lib.Keyed
import GdxDispatch.Lib.Ladder
import GdxDispatch.Pricing.Tables

/-! Which saved price tables price every cost.

    The walk over the sorted tiers admits exactly the ladders without overlaps, so that no cost and no volume is in two
    tiers. It does not ask for coverage: a table prices every cost exactly when its tiers start at zero, follow one
    another without a gap and end with an open one. -/

namespace Gdx

open Lib

variable {i : ℕ} {ranges : List (ℚ × Option ℚ)} {x : ℚ}

theorem inRange_iff (lower : ℚ) (upper : Option ℚ) (value : ℚ) :
    inRange lower upper value = true ↔ RungHolds value (lower, upper) := by
  cases upper <;> simp [inRange, RungHolds]

/-- The walk passes exactly the ladders without overlaps, when the first range does not start before `a`. -/
theorem walkRanges_ok_iff : ∀ {a : ℚ} {i : ℕ} {ranges : List (ℚ × Option ℚ)}, (∀ r ∈ ranges.head?, a ≤ r.1) →
    (walkRanges i ranges = .ok () ↔ ChainedFrom a ranges)
  | a, i, [], _ => by simp [walkRanges, ChainedFrom]
  | a, i, [(lo, none)], ha => by
    have hlo : a ≤ lo := ha _ rfl
    simp [walkRanges, ChainedFrom, hlo]
  | a, i, [(lo, some hi)], ha => by
    have hlo : a ≤ lo := ha _ rfl
    simp [walkRanges, ChainedFrom, hlo]
  | a, i, (lo, none) :: nxt :: more, _ => by simp [walkRanges, ChainedFrom]
  | a, i, (lo, some hi) :: nxt :: more, ha => by
    have hlo : a ≤ lo := ha _ rfl
    by_cases hempty : hi ≤ lo
    · simp [walkRanges, ChainedFrom, hempty]
    · by_cases hover : nxt.1 < hi
      · have hnot : ¬ ChainedFrom hi (nxt :: more) := fun h =>
          absurd (h.le_lo nxt List.mem_cons_self) (not_le.mpr hover)
        simp [walkRanges, ChainedFrom, hempty, hover, hnot]
      · have hrest : ∀ r ∈ (nxt :: more).head?, hi ≤ r.1 := by simpa using not_lt.mp hover
        have ih := walkRanges_ok_iff (i := i + 1) hrest
        simp [walkRanges, ChainedFrom, hempty, hover, hlo, ih, not_le.mp hempty]

section Sorted

variable {tiers : List TierIn}

theorem sortedTiers_perm (tiers : List TierIn) : (sortedTiers tiers).Perm (tiers.map (·.toTierRow)) :=
  List.mergeSort_perm _ _

/-- A tier of a saved table was in the request. -/
theorem mem_sortedTiers {t : TierRow} (h : t ∈ sortedTiers tiers) : ∃ u ∈ tiers, u.toTierRow = t :=
  List.mem_map.mp ((sortedTiers_perm tiers).mem_iff.mp h)

theorem validateTierCoverage_ok_iff :
    validateTierCoverage tiers = .ok () ↔ ChainedFrom 0 ((sortedTiers tiers).map (·.range)) := by
  refine walkRanges_ok_iff fun r hr => ?_
  obtain ⟨t, ht, rfl⟩ := List.mem_map.mp (List.mem_of_mem_head? hr)
  obtain ⟨u, -, rfl⟩ := mem_sortedTiers ht
  exact u.costMin_nonneg

theorem mem_sortedVolumeTiers {tiers : List VolumeTierIn} {t : VolumeTierRow} (h : t ∈ sortedVolumeTiers tiers) :
    ∃ u ∈ tiers, u.toVolumeTierRow = t :=
  List.mem_map.mp ((List.mergeSort_perm _ _).mem_iff.mp h)

theorem validateVolumeTiers_ok_iff {tiers : List VolumeTierIn} :
    validateVolumeTiers tiers = .ok () ↔ ChainedFrom 0 ((sortedVolumeTiers tiers).map (·.range)) := by
  refine walkRanges_ok_iff fun r hr => ?_
  obtain ⟨t, ht, rfl⟩ := List.mem_map.mp (List.mem_of_mem_head? hr)
  obtain ⟨u, -, rfl⟩ := mem_sortedVolumeTiers ht
  exact u.volumeMin_nonneg

end Sorted

/-! ### Looking a value up -/

/-- Rows whose ranges form a ladder have at most one that matches. -/
theorem length_matches_le {ρ : Type} (range : ρ → ℚ × Option ℚ) {rows : List ρ} {a : ℚ}
    (h : ChainedFrom a (rows.map range)) (x : ℚ) :
    (rows.filter fun t => inRange (range t).1 (range t).2 x).length ≤ 1 := by
  have hfilter : (rows.map range).filter (fun r => decide (RungHolds x r)) =
      (rows.filter fun t => inRange (range t).1 (range t).2 x).map range := by
    rw [List.filter_map]
    congr 1
    refine List.filter_congr fun t _ => ?_
    rw [Bool.eq_iff_iff, inRange_iff]
    simp
  calc (rows.filter fun t => inRange (range t).1 (range t).2 x).length
      = ((rows.map range).filter fun r => decide (RungHolds x r)).length := by rw [hfilter, List.length_map]
    _ ≤ 1 := h.length_filter_le

theorem mem_tierMatches {rows : List TierRow} {cost : ℚ} {t : TierRow} :
    t ∈ tierMatches rows cost ↔ t ∈ rows ∧ RungHolds cost t.range := by
  rw [tierMatches, List.mem_filter, inRange_iff]
  rfl

/-- A ladder has one matching tier for every cost from zero on exactly when it has no gaps. -/
theorem one_match_iff {rows : List TierRow} (h : ChainedFrom 0 (rows.map (·.range))) :
    (∀ cost, 0 ≤ cost → ∃ t, tierMatches rows cost = [t]) ↔ CoversFrom 0 (rows.map (·.range)) := by
  rw [← h.covers_iff]
  constructor
  · intro hall cost hcost
    obtain ⟨t, ht⟩ := hall cost hcost
    have hmem : t ∈ tierMatches rows cost := by rw [ht]; exact List.mem_singleton.mpr rfl
    obtain ⟨htr, hholds⟩ := mem_tierMatches.mp hmem
    exact ⟨t.range, List.mem_map_of_mem htr, hholds⟩
  · intro hall cost hcost
    obtain ⟨r, hr, hholds⟩ := hall cost hcost
    obtain ⟨t, ht, rfl⟩ := List.mem_map.mp hr
    have hmem : t ∈ tierMatches rows cost := mem_tierMatches.mpr ⟨ht, hholds⟩
    have hle : (tierMatches rows cost).length ≤ 1 := length_matches_le TierRow.range h cost
    obtain ⟨u, hu⟩ := List.length_eq_one_iff.mp (le_antisymm hle (List.length_pos_of_mem hmem))
    exact ⟨u, hu⟩

/-- With one matching tier of a sound margin, the engine sells at the cost over one less the margin. -/
theorem priceLine_of_match {category : Text} {customer : CustomerView} {settings : PricingSettingsView}
    {cls : PricingClass} {rows : List TierRow} {cost : ℚ} {t : TierRow}
    (hlabor : category.map Char.toLower ≠ "labor".toList) (hoverride : customer.marginOverridePct = none)
    (hclass : resolveClass customer = .ok cls) (hlookup : lookupTierSet settings category cls = .ok rows)
    (hcost : 0 ≤ cost) (ht : tierMatches rows cost = [t]) (hnonneg : 0 ≤ t.marginPct) (hlt : t.marginPct < 1) :
    priceLine cost category customer settings none =
      .ok ⟨cost, t.marginPct, cost / (1 - t.marginPct), cost / (1 - t.marginPct) - cost,
        if cls = .wholesale then .wholesaleTier else .tier⟩ := by
  have hfind : findTier rows cost (.tierSet category cls) = .ok t := by rw [findTier, ht]
  have hmargin : ∀ place, validateMargin t.marginPct place = .ok () := fun place => by
    rw [validateMargin, if_neg (not_lt.mpr hnonneg), if_neg (not_le.mpr hlt)]
  have hsell : sellFromCost cost t.marginPct = .ok (cost / (1 - t.marginPct)) := by
    rw [sellFromCost, hmargin]
    simp [bind, Except.bind, pure, Except.pure, not_lt.mpr hcost]
  unfold priceLine
  rw [if_neg hlabor]
  simp [hoverride, bind, Except.bind, pure, Except.pure, hclass, hlookup, hfind, hmargin, hsell]

/-! ### Saved tables -/

variable {s s' : PricingTables} {setId : ℕ} {payload : TierSetReplaceIn} {ts : PricingTierSet}

/-- A replaced table was walked without complaint, and holds the sorted tiers. -/
theorem replaceTiers_ok (h : s.replaceTiers setId payload = .ok s') :
    validateTierCoverage payload.tiers = .ok () ∧
      s'.tierSets = s.tierSets.map (·.replaced setId (sortedTiers payload.tiers)) := by
  unfold PricingTables.replaceTiers at h
  split at h
  · cases h
  · cases hwalk : validateTierCoverage payload.tiers with
    | error e =>
      rw [hwalk] at h
      cases h
    | ok u =>
      rw [hwalk] at h
      cases h
      exact ⟨rfl, rfl⟩

theorem lookup_replaced (h : s.replaceTiers setId payload = .ok s') (hts : ts ∈ s.tierSets) (hid : ts.id = setId)
    (hactive : ts.active = true) :
    lookupTierSet s'.hydrate ts.category ts.cls = .ok (sortedTiers payload.tiers) := by
  have hsets := (replaceTiers_ok h).2
  have hsaved : ({ ts with tiers := sortedTiers payload.tiers } : PricingTierSet) ∈ s'.tierSets := by
    rw [hsets]
    refine List.mem_map.mpr ⟨ts, hts, ?_⟩
    rw [PricingTierSet.replaced, if_pos hid]
  have hkeys : (s'.hydrate.tierSets.map (·.1)).Nodup := by
    rw [PricingTables.hydrate, List.map_map]
    exact (List.filter_sublist.map _).nodup s'.keyed
  have hfind : rowOf (·.1) s'.hydrate.tierSets (ts.category, ts.cls) =
      some ((ts.category, ts.cls), sortedTiers payload.tiers) := by
    rw [rowOf_eq_some_iff hkeys]
    exact ⟨List.mem_map.mpr ⟨_, List.mem_filter.mpr ⟨hsaved, hactive⟩, rfl⟩, rfl⟩
  have hne : sortedTiers payload.tiers ≠ [] := by
    intro hnil
    have hlength := (sortedTiers_perm payload.tiers).length_eq
    rw [hnil, List.length_map] at hlength
    exact payload.minLength (List.eq_nil_of_length_eq_zero hlength.symm)
  rw [rowOf] at hfind
  rw [lookupTierSet, hfind]
  cases hrows : sortedTiers payload.tiers with
  | nil => exact absurd hrows hne
  | cons t more => rfl

/-- A saved list of volume tiers never makes the discount raise. -/
theorem findVolumeDiscount_ok {vpayload : VolumeTiersReplaceIn} (h : s.replaceVolumeTiers vpayload = .ok s')
    {customer : CustomerView} {cls : PricingClass} (hclass : resolveClass customer = .ok cls) :
    ∃ pct, findVolumeDiscount s'.hydrate customer = .ok pct := by
  cases hwalk : validateVolumeTiers vpayload.tiers with
  | error e =>
    rw [PricingTables.replaceVolumeTiers, hwalk] at h
    cases h
  | ok u =>
    rw [PricingTables.replaceVolumeTiers, hwalk] at h
    cases h
    have hle : (volumeMatches (sortedVolumeTiers vpayload.tiers) customer.cachedRollingVolume).length ≤ 1 :=
      length_matches_le VolumeTierRow.range (validateVolumeTiers_ok_iff.mp hwalk) _
    unfold findVolumeDiscount
    simp only [PricingTables.hydrate]
    split
    · exact ⟨0, rfl⟩
    · split
      · exact ⟨0, rfl⟩
      · rw [hclass]
        simp only [bind, Except.bind]
        split
        · exact ⟨0, rfl⟩
        · cases hmatches : volumeMatches (sortedVolumeTiers vpayload.tiers) customer.cachedRollingVolume with
          | nil => exact ⟨0, rfl⟩
          | cons t more =>
            rw [hmatches, List.length_cons] at hle
            obtain rfl : more = [] := List.eq_nil_of_length_eq_zero (by omega)
            have ht : t ∈ sortedVolumeTiers vpayload.tiers := by
              have hmem : t ∈ volumeMatches (sortedVolumeTiers vpayload.tiers) customer.cachedRollingVolume := by
                rw [hmatches]
                exact List.mem_cons_self
              exact (List.mem_filter.mp hmem).1
            obtain ⟨u, -, rfl⟩ := mem_sortedVolumeTiers ht
            have hrange : ¬ (u.discountPct < 0 ∨ u.discountPct ≥ 1) :=
              not_or.mpr ⟨not_lt.mpr u.discount_nonneg, not_le.mpr u.discount_lt⟩
            exact ⟨u.discountPct, by simp [hrange]; rfl⟩

/-- The table of `payload` prices every cost for its category and class: one tier matches and sets the price. -/
def PricesEveryCost (settings : PricingSettingsView) (ts : PricingTierSet) (payload : TierSetReplaceIn)
    (customer : CustomerView) : Prop :=
  ∀ cost, 0 ≤ cost → ∃ t ∈ payload.tiers, tierMatches (sortedTiers payload.tiers) cost = [t.toTierRow] ∧
    ∃ price, priceLine cost ts.category customer settings none = .ok price ∧
      price.marginPct = t.marginPct ∧ price.sell = cost / (1 - t.marginPct)

/-- The volume discount answers for every list of volume tiers that can be saved. -/
def DiscountsEveryVolume (s : PricingTables) : Prop :=
  ∀ (payload : VolumeTiersReplaceIn) (s' : PricingTables), s.replaceVolumeTiers payload = .ok s' →
    ∀ (customer : CustomerView) (cls : PricingClass), resolveClass customer = .ok cls →
      0 ≤ customer.cachedRollingVolume → ∃ pct, findVolumeDiscount s'.hydrate customer = .ok pct

/-- A saved table prices every cost exactly when its tiers start at zero, follow one another without a gap and end
    with an open one; the volume discount never raises. -/
theorem saved_table_prices_every_cost_iff (s s' : PricingTables) (setId : ℕ) (payload : TierSetReplaceIn)
    (h : s.replaceTiers setId payload = .ok s') (ts : PricingTierSet) (hts : ts ∈ s.tierSets) (hid : ts.id = setId)
    (hactive : ts.active = true) (hlabor : ts.category.map Char.toLower ≠ "labor".toList) (customer : CustomerView)
    (hclass : resolveClass customer = .ok ts.cls) (hoverride : customer.marginOverridePct = none) :
    (PricesEveryCost s'.hydrate ts payload customer ∧ DiscountsEveryVolume s') ↔
      CoversFrom 0 ((sortedTiers payload.tiers).map (·.range)) := by
  have hchained := validateTierCoverage_ok_iff.mp (replaceTiers_ok h).1
  have hvolumes : DiscountsEveryVolume s' := fun _ _ hv _ _ hcls _ => findVolumeDiscount_ok hv hcls
  rw [← one_match_iff hchained]
  constructor
  · rintro ⟨hprices, -⟩ cost hcost
    obtain ⟨t, -, ht, -⟩ := hprices cost hcost
    exact ⟨_, ht⟩
  · refine fun hall => ⟨fun cost hcost => ?_, hvolumes⟩
    obtain ⟨t, ht⟩ := hall cost hcost
    have hmem : t ∈ tierMatches (sortedTiers payload.tiers) cost := by
      rw [ht]
      exact List.mem_singleton.mpr rfl
    obtain ⟨u, hu, rfl⟩ := mem_sortedTiers (List.mem_filter.mp hmem).1
    exact ⟨u, hu, ht, _, priceLine_of_match hlabor hoverride hclass (lookup_replaced h hts hid hactive) hcost ht
      u.margin_nonneg u.margin_lt, rfl, rfl⟩

/-- Two tiers, the first from zero to 100 and the second open from `start` on. -/
def twoTiers (start : ℚ) (hstart : 0 ≤ start) : TierSetReplaceIn where
  tiers := [⟨⟨0, some 100, 1 / 2⟩, by norm_num, by norm_num, by norm_num, by norm_num⟩,
    ⟨⟨start, none, 2 / 5⟩, hstart, by simp, by norm_num, by norm_num⟩]
  minLength := by simp
  maxLength := by simp

def doorsSet : PricingTierSet := ⟨1, "doors".toList, .retail, true, []⟩

def doorTables : PricingTables where
  tierSets := [doorsSet]
  volumeDiscountEnabled := false
  volumeTiers := []
  classSettings := []
  ids := by simp
  keyed := by simp

def retailCustomer : CustomerView := ⟨none, none, 0⟩

theorem sorted_twoTiers (start : ℚ) (hstart : 0 ≤ start) :
    sortedTiers (twoTiers start hstart).tiers = [⟨0, some 100, 1 / 2⟩, ⟨start, none, 2 / 5⟩] := by
  refine List.mergeSort_of_pairwise ?_
  simp [twoTiers, hstart]

theorem replace_twoTiers (start : ℚ) (hstart : 0 ≤ start) (h : 100 ≤ start) :
    ∃ s', doorTables.replaceTiers 1 (twoTiers start hstart) = .ok s' := by
  have hwalk : validateTierCoverage (twoTiers start hstart).tiers = .ok () := by
    rw [validateTierCoverage_ok_iff, sorted_twoTiers]
    simp [ChainedFrom, TierRow.range, h]
  rw [PricingTables.replaceTiers, if_neg (by decide), hwalk]
  exact ⟨_, rfl⟩

/-- Tiers from zero to 100 and from 100 on price every cost. -/
theorem saved_table_prices_every_cost_doors : ∃ s', doorTables.replaceTiers 1 (twoTiers 100 (by norm_num)) = .ok s' ∧
    PricesEveryCost s'.hydrate doorsSet (twoTiers 100 (by norm_num)) retailCustomer := by
  obtain ⟨s', hs'⟩ := replace_twoTiers 100 (by norm_num) le_rfl
  refine ⟨s', hs', ?_⟩
  refine ((saved_table_prices_every_cost_iff doorTables s' 1 (twoTiers 100 (by norm_num)) hs' doorsSet
    (List.mem_singleton.mpr rfl) rfl rfl (by decide) retailCustomer rfl rfl).mpr ?_).1
  rw [sorted_twoTiers]
  simp [CoversFrom, TierRow.range]

/-- Tiers from zero to 100 and from 200 on are saved, and a cost of 150 has no price. -/
theorem saved_table_leaves_gap :
    ¬ ∀ (s s' : PricingTables) (setId : ℕ) (payload : TierSetReplaceIn), s.replaceTiers setId payload = .ok s' →
      ∀ ts ∈ s.tierSets, ts.id = setId → ts.active = true → ts.category.map Char.toLower ≠ "labor".toList →
      ∀ customer, resolveClass customer = .ok ts.cls → customer.marginOverridePct = none →
        PricesEveryCost s'.hydrate ts payload customer ∧ DiscountsEveryVolume s' := by
  intro h
  obtain ⟨s', hs'⟩ := replace_twoTiers 200 (by norm_num) (by norm_num)
  obtain ⟨t, -, ht, -⟩ := (h doorTables s' 1 _ hs' doorsSet (List.mem_singleton.mpr rfl) rfl rfl (by decide)
    retailCustomer rfl rfl).1 150 (by norm_num)
  have hnone : tierMatches (sortedTiers (twoTiers 200 (by norm_num)).tiers) 150 = [] := by
    rw [sorted_twoTiers]
    norm_num [tierMatches, inRange]
  rw [hnone] at ht
  cases ht

end Gdx
