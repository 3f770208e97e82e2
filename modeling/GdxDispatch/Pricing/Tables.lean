import Mathlib
import GdxDispatch.Lib.Text

/-! Price tables (`services/pricing_engine.py`, `routers/pricing_admin.py`).

    The engine turns a cost into a sell price through the one tier whose range holds the cost, and refuses when none or
    several do. The settings pages replace a whole table at once after walking its tiers in the order of their lower
    ends. Decimals are rationals: the engine does not round. -/

namespace Gdx

open Lib

inductive PricingClass where
  | retail | contractor | wholesale
  deriving DecidableEq, Repr

/-- `VALID_CLASSES`. -/
def PricingClass.ofText? (cls : Text) : Option PricingClass :=
  if cls = "retail".toList then some .retail
  else if cls = "contractor".toList then some .contractor
  else if cls = "wholesale".toList then some .wholesale
  else none

/-! ### The engine -/

structure TierRow where
  costMin : ℚ
  /-- `none` is the open top. -/
  costMax : Option ℚ
  marginPct : ℚ
  deriving DecidableEq

structure VolumeTierRow where
  volumeMin12mo : ℚ
  volumeMax12mo : Option ℚ
  discountPct : ℚ
  deriving DecidableEq

/-- What the engine consumes, hydrated from the tables. -/
structure PricingSettingsView where
  tierSets : List ((Text × PricingClass) × List TierRow)
  volumeDiscountEnabled : Bool
  volumeTiers : List VolumeTierRow
  classVolumeEnabled : List (PricingClass × Bool)

structure CustomerView where
  pricingClass : Option Text
  marginOverridePct : Option ℚ
  cachedRollingVolume : ℚ := 0
  deriving DecidableEq

inductive PricingSource where
  | lineOverride | customerOverride | wholesaleTier | tier
  deriving DecidableEq, Repr

structure LinePrice where
  cost : ℚ
  marginPct : ℚ
  sell : ℚ
  profit : ℚ
  source : PricingSource
  deriving DecidableEq

/-- The `where` of a message. -/
inductive PricingPlace where
  | sellFromCost
  | lineMarginOverride
  | customerMarginOverride
  | tier (t : TierRow)
  | tierSet (category : Text) (cls : PricingClass)
  deriving DecidableEq

/-- `PricingConfigError`, by its message. -/
inductive PricingConfigError where
  | negativeMargin (place : PricingPlace) (marginPct : ℚ)
  | infinitePrice (place : PricingPlace) (marginPct : ℚ)
  | negativeCost (cost : ℚ)
  | unknownClass (cls : Text)
  | noTierMatches (place : PricingPlace) (cost : ℚ) (covers : List (ℚ × Option ℚ))
  | overlappingTiers (place : PricingPlace) (cost : ℚ) (matching : ℕ)
  | noTierSet (category : Text) (cls : PricingClass)
  | emptyTierSet (category : Text) (cls : PricingClass)
  | laborLine
  | overlappingVolumeTiers (volume : ℚ) (matching : ℕ)
  | discountOutOfRange (discountPct : ℚ)
  deriving DecidableEq

def validateMargin (marginPct : ℚ) (place : PricingPlace) : Except PricingConfigError Unit :=
  if marginPct < 0 then .error (.negativeMargin place marginPct)
  else if marginPct ≥ 1 then .error (.infinitePrice place marginPct)
  else .ok ()

def sellFromCost (cost marginPct : ℚ) : Except PricingConfigError ℚ := do
  validateMargin marginPct .sellFromCost
  if cost < 0 then throw (.negativeCost cost)
  return cost / (1 - marginPct)

/-- A customer without a class is `retail`. -/
def resolveClass (customer : CustomerView) : Except PricingConfigError PricingClass :=
  match customer.pricingClass with
  | none => .ok .retail
  | some cls =>
    match PricingClass.ofText? cls with
    | some cls => .ok cls
    | none => .error (.unknownClass cls)

/-- `lower ≤ value and (upper is None or value < upper)`. -/
def inRange (lower : ℚ) (upper : Option ℚ) (value : ℚ) : Bool :=
  decide (lower ≤ value) && upper.all (decide <| value < ·)

def tierMatches (tierSet : List TierRow) (cost : ℚ) : List TierRow :=
  tierSet.filter fun t => inRange t.costMin t.costMax cost

/-- The unique tier whose `[cost_min, cost_max)` contains the cost. -/
def findTier (tierSet : List TierRow) (cost : ℚ) (place : PricingPlace) : Except PricingConfigError TierRow :=
  match tierMatches tierSet cost with
  | [] => .error (.noTierMatches place cost (tierSet.map fun t => (t.costMin, t.costMax)))
  | [t] => .ok t
  | several => .error (.overlappingTiers place cost several.length)

def lookupTierSet (settings : PricingSettingsView) (category : Text) (cls : PricingClass) :
    Except PricingConfigError (List TierRow) :=
  match settings.tierSets.find? (·.1 = (category, cls)) with
  | none => .error (.noTierSet category cls)
  | some (_, []) => .error (.emptyTierSet category cls)
  | some (_, tierSet) => .ok tierSet

/-- Resolve the sell price, the profit and which input won. -/
def priceLine (cost : ℚ) (category : Text) (customer : CustomerView) (settings : PricingSettingsView)
    (lineMarginOverride : Option ℚ) : Except PricingConfigError LinePrice :=
  if category.map Char.toLower = "labor".toList then .error .laborLine
  else match lineMarginOverride, customer.marginOverridePct with
    | some m, _ => do
      validateMargin m .lineMarginOverride
      let sell ← sellFromCost cost m
      return ⟨cost, m, sell, sell - cost, .lineOverride⟩
    | none, some m => do
      validateMargin m .customerMarginOverride
      let sell ← sellFromCost cost m
      return ⟨cost, m, sell, sell - cost, .customerOverride⟩
    | none, none => do
      let cls ← resolveClass customer
      let tierSet ← lookupTierSet settings category cls
      let tier ← findTier tierSet cost (.tierSet category cls)
      validateMargin tier.marginPct (.tier tier)
      let sell ← sellFromCost cost tier.marginPct
      return ⟨cost, tier.marginPct, sell, sell - cost, if cls = .wholesale then .wholesaleTier else .tier⟩

def volumeMatches (tiers : List VolumeTierRow) (volume : ℚ) : List VolumeTierRow :=
  tiers.filter fun t => inRange t.volumeMin12mo t.volumeMax12mo volume

/-- The discount of the customer's rolling volume: zero when disabled or when no tier matches. -/
def findVolumeDiscount (settings : PricingSettingsView) (customer : CustomerView) : Except PricingConfigError ℚ :=
  if !settings.volumeDiscountEnabled then .ok 0
  else if settings.volumeTiers = [] then .ok 0
  else do
    let cls ← resolveClass customer
    if !((settings.classVolumeEnabled.find? (·.1 = cls)).any (·.2)) then return 0
    match volumeMatches settings.volumeTiers customer.cachedRollingVolume with
    | [] => return 0
    | [t] =>
      if t.discountPct < 0 ∨ t.discountPct ≥ 1 then throw (.discountOutOfRange t.discountPct)
      return t.discountPct
    | several => throw (.overlappingVolumeTiers customer.cachedRollingVolume several.length)

/-! ### The settings pages -/

/-- A tier as the request model admits it. -/
structure TierIn extends TierRow where
  costMin_nonneg : 0 ≤ costMin
  costMax_nonneg : ∀ m ∈ costMax, 0 ≤ m
  margin_nonneg : 0 ≤ marginPct
  margin_lt : marginPct < 1

structure TierSetReplaceIn where
  tiers : List TierIn
  minLength : tiers ≠ []
  maxLength : tiers.length ≤ 20

structure VolumeTierIn extends VolumeTierRow where
  volumeMin_nonneg : 0 ≤ volumeMin12mo
  volumeMax_nonneg : ∀ m ∈ volumeMax12mo, 0 ≤ m
  discount_nonneg : 0 ≤ discountPct
  discount_lt : discountPct < 1

structure VolumeTiersReplaceIn where
  tiers : List VolumeTierIn
  maxLength : tiers.length ≤ 20

/-- The 404 and the 422s of the two pages; tiers are named by their position in the sorted list. -/
inductive TierRefusal where
  | tierSetNotFound
  | maxNotAboveMin (i : ℕ) (range : ℚ × Option ℚ)
  | openEndedNotHighest (i : ℕ)
  | overlap (i : ℕ) (range next : ℚ × Option ℚ)
  deriving DecidableEq

/-- The walk over the sorted ranges, the same on both pages. -/
def walkRanges : ℕ → List (ℚ × Option ℚ) → Except TierRefusal Unit
  | _, [] => .ok ()
  | i, t :: rest =>
    if t.2.any (decide <| · ≤ t.1) then .error (.maxNotAboveMin i t)
    else match rest, t.2 with
      | [], _ => .ok ()
      | _ :: _, none => .error (.openEndedNotHighest i)
      | nxt :: more, some m =>
        if nxt.1 < m then .error (.overlap i t nxt) else walkRanges (i + 1) (nxt :: more)

/-- `sorted(tiers, key=lambda t: t.cost_min)`. -/
def sortedTiers (tiers : List TierIn) : List TierRow :=
  (tiers.map (·.toTierRow)).mergeSort fun t u => t.costMin ≤ u.costMin

def sortedVolumeTiers (tiers : List VolumeTierIn) : List VolumeTierRow :=
  (tiers.map (·.toVolumeTierRow)).mergeSort fun t u => t.volumeMin12mo ≤ u.volumeMin12mo

def TierRow.range (t : TierRow) : ℚ × Option ℚ := (t.costMin, t.costMax)

def VolumeTierRow.range (t : VolumeTierRow) : ℚ × Option ℚ := (t.volumeMin12mo, t.volumeMax12mo)

def validateTierCoverage (tiers : List TierIn) : Except TierRefusal Unit :=
  walkRanges 0 ((sortedTiers tiers).map (·.range))

def validateVolumeTiers (tiers : List VolumeTierIn) : Except TierRefusal Unit :=
  walkRanges 0 ((sortedVolumeTiers tiers).map (·.range))

structure PricingTierSet where
  id : ℕ
  category : Text
  cls : PricingClass
  active : Bool
  /-- In the order of `sort_order`. -/
  tiers : List TierRow
  deriving DecidableEq

/-- The pricing tables. A category and class have one tier set (`uq_pricing_tier_set_cat_class`). -/
structure PricingTables where
  tierSets : List PricingTierSet
  volumeDiscountEnabled : Bool
  volumeTiers : List VolumeTierRow
  classSettings : List (PricingClass × Bool)
  ids : (tierSets.map (·.id)).Nodup
  keyed : (tierSets.map fun ts => (ts.category, ts.cls)).Nodup

/-- The set with its tiers replaced. -/
def PricingTierSet.replaced (id : ℕ) (rows : List TierRow) (ts : PricingTierSet) : PricingTierSet :=
  if ts.id = id then { ts with tiers := rows } else ts

theorem PricingTierSet.replaced_id (id : ℕ) (rows : List TierRow) (ts : PricingTierSet) :
    (ts.replaced id rows).id = ts.id := by
  unfold replaced
  split <;> rfl

theorem PricingTierSet.replaced_key (id : ℕ) (rows : List TierRow) (ts : PricingTierSet) :
    ((ts.replaced id rows).category, (ts.replaced id rows).cls) = (ts.category, ts.cls) := by
  unfold replaced
  split <;> rfl

/-- Replace all tiers of a tier set, in the order of their lower ends. -/
def PricingTables.replaceTiers (s : PricingTables) (setId : ℕ) (payload : TierSetReplaceIn) :
    Except TierRefusal PricingTables :=
  if s.tierSets.all (·.id != setId) then .error .tierSetNotFound
  else do
    validateTierCoverage payload.tiers
    return { s with
      tierSets := s.tierSets.map (·.replaced setId (sortedTiers payload.tiers))
      ids := by simpa [List.map_map, Function.comp_def, PricingTierSet.replaced_id] using s.ids
      keyed := by simpa only [List.map_map, Function.comp_def, PricingTierSet.replaced_key] using s.keyed }

/-- Replace all volume tiers; an empty list clears them. -/
def PricingTables.replaceVolumeTiers (s : PricingTables) (payload : VolumeTiersReplaceIn) :
    Except TierRefusal PricingTables := do
  validateVolumeTiers payload.tiers
  return { s with volumeTiers := sortedVolumeTiers payload.tiers }

/-- `hydrate_settings_from_db`: only active sets. -/
def PricingTables.hydrate (s : PricingTables) : PricingSettingsView where
  tierSets := (s.tierSets.filter (·.active)).map fun ts => ((ts.category, ts.cls), ts.tiers)
  volumeDiscountEnabled := s.volumeDiscountEnabled
  volumeTiers := s.volumeTiers
  classVolumeEnabled := s.classSettings

end Gdx
