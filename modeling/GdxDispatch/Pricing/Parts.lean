import GdxDispatch.Pricing.Tables
import GdxDispatch.Forecasting.ObservedRecurring

/-! The sell price of a part a tech recorded on a job: `core/part_pricing.py`.

    Four lanes are asked in turn: the office's own priced request rows, bench inventory, the tenant's catalog and CHI's.
    A catalog lane believes a price above cost, else it marks the cost up. Prices and costs are cents, as their columns
    hold them. -/

namespace Gdx.PartPricing
open Lib

/-! ### The tables -/

/-- A row of `job_parts_needed`. -/
structure JobPart where
  jobId : String
  sku : Option Text
  source : String
  unitPrice : Option ℤ

/-- What pricing reads of a catalog row, the tenant's or CHI's. -/
structure PricedRow where
  price : Option ℤ
  cost : Option ℤ
  pricingCategory : Option Text

structure CatalogItem extends PricedRow where
  sku : Option Text
  active : Bool
  deleted : Bool

structure ChiPart extends PricedRow where
  sku : Text
  isActive : Bool

structure Customer where
  pricingClass : Text
  marginOverridePct : Option ℚ

/-- What the resolver reads. `skuKey` is `lower(trim(sku))` of the database, `settings` is `none` where hydrating them
    raises, and `inventory` is the unit price of a bench part. -/
structure Tables where
  requests : List JobPart
  inventory : ℕ → Option ℤ
  catalog : List CatalogItem
  chi : List ChiPart
  jobCustomer : String → Option ℕ
  customers : ℕ → Option Customer
  settings : Option PricingSettingsView
  skuKey : Text → Text

/-- What is asked for; `needle` is `_norm(sku)`. -/
structure Ask where
  jobId : Option String
  needle : Text
  partId : Option ℕ
  customerId : Option ℕ

/-- `PriceSource`, less the `office` tag that no lane gives. -/
inductive PriceSource where
  | jobQuote | inventory | catalog | catalogCost | chi | chiCost
  deriving DecidableEq

/-! ### The rules of every lane -/

/-- `_believable_sell`: a price above cost, or one without a cost. -/
def believableSell (item : PricedRow) : Option ℤ :=
  match item.price with
  | none => none
  | some price =>
    if price ≤ 0 then none
    else
      match item.cost with
      | none => some price
      | some cost => if cost ≤ 0 then some price else if cost < price then some price else none

/-- `_distinct`: one agreed price, or none. -/
def distinct (values : List ℤ) : Option ℤ :=
  match (values.filter fun v => 0 < v).dedup with
  | [v] => some v
  | _ => none

/-- A recorded price below cost. -/
def contradictory (item : PricedRow) : Bool :=
  item.price.any fun price => decide (0 < price) && item.cost.any fun cost => decide (price < cost)

def recordedCost (item : PricedRow) : Option ℤ := item.cost.filter fun cost => 0 < cost

def namedCategory (item : PricedRow) : Option Text := item.pricingCategory.filter fun category => category ≠ []

/-- `_money` of an exact amount, in cents. -/
def money (v : ℚ) : ℤ := roundHalfEven (v * 100)

/-- `_customer_view`: the customer asked for, else the job's; `retail` where there is none. -/
def customerView (db : Tables) (jobId : Option String) (customerId : Option ℕ) : CustomerView :=
  let cid := match customerId with
    | some cid => some cid
    | none => jobId.bind db.jobCustomer
  match cid.bind db.customers with
  | none => ⟨some "retail".toList, none, 0⟩
  | some cust => ⟨if (PricingClass.ofText? cust.pricingClass).isSome then some cust.pricingClass else none,
      cust.marginOverridePct, 0⟩

/-- `_engine_sell`: a cost through the margin tiers, none on any gap in the settings. -/
def engineSell (db : Tables) (cost : ℤ) (pricingCategory : Option Text) (jobId : Option String) (customerId : Option ℕ) :
    Option ℤ :=
  let category := ((pricingCategory.filter fun category => category ≠ []).getD "parts".toList).map Char.toLower
  if category = "labor".toList then none
  else
    match db.settings with
    | none => none
    | some settings =>
      match priceLine ((cost : ℚ) / 100) category (customerView db jobId customerId) settings none with
      | .ok result => some (money result.sell)
      | .error _ => none

/-! ### The lanes -/

inductive LaneOutcome where
  | sell (price : ℤ)
  | marked (price : ℤ)
  | stop
  | next
  deriving DecidableEq

/-- The category of a lane: the first row's that names one. -/
def laneCategory (rows : List PricedRow) : Text := (rows.findSome? namedCategory).getD "parts".toList

/-- A catalog lane: the one believable sell price; else nothing where a price stands below cost; else the one cost marked
    up. -/
def lane (engine : ℤ → Text → Option ℤ) (rows : List PricedRow) : LaneOutcome :=
  if rows.isEmpty then .next
  else
    match distinct (rows.filterMap believableSell) with
    | some agreed => .sell agreed
    | none =>
      if rows.any contradictory then .stop
      else
        match distinct (rows.filterMap recordedCost) with
        | none => .next
        | some agreedCost =>
          match engine agreedCost (laneCategory rows) with
          | some markedUp => .marked markedUp
          | none => .next

/-- The priced request rows of the job for the SKU: only what a human created. -/
def quotes (db : Tables) (q : Ask) : List ℤ :=
  match q.jobId with
  | none => []
  | some jobId =>
    if q.needle = [] then []
    else
      (db.requests.filter fun r => r.jobId = jobId ∧ r.source = "request" ∧ r.sku.map db.skuKey = some q.needle).filterMap
        fun r => r.unitPrice.filter fun v => 0 < v

def inventoryPrice (db : Tables) (q : Ask) : Option ℤ := (q.partId.bind db.inventory).filter fun v => 0 < v

/-- The tenant's catalog rows of the SKU. -/
def catalogRows (db : Tables) (q : Ask) : List PricedRow :=
  (db.catalog.filter fun it => it.active ∧ it.deleted = false ∧ it.sku.map db.skuKey = some q.needle).map
    CatalogItem.toPricedRow

/-- CHI's rows of the SKU. -/
def chiRows (db : Tables) (q : Ask) : List PricedRow :=
  (db.chi.filter fun c => c.isActive ∧ db.skuKey c.sku = q.needle).map ChiPart.toPricedRow

def laneEngine (db : Tables) (q : Ask) (cost : ℤ) (category : Text) : Option ℤ :=
  engineSell db cost (some category) q.jobId q.customerId

/-- `_resolve_sell_price`. -/
def resolveSellPrice (db : Tables) (q : Ask) : Option (ℤ × PriceSource) :=
  match distinct (quotes db q) with
  | some agreed => some (agreed, .jobQuote)
  | none =>
    match inventoryPrice db q with
    | some price => some (price, .inventory)
    | none =>
      if q.needle = [] then none
      else
        match lane (laneEngine db q) (catalogRows db q) with
        | .sell agreed => some (agreed, .catalog)
        | .stop => none
        | .marked markedUp => some (markedUp, .catalogCost)
        | .next =>
          match lane (laneEngine db q) (chiRows db q) with
          | .sell agreed => some (agreed, .chi)
          | .marked markedUp => some (markedUp, .chiCost)
          | .stop => none
          | .next => none

/-- `sell_price_for_row`. -/
def sellPriceForRow (db : Tables) (q : Ask) (row : PricedRow) : Option ℤ :=
  match believableSell row with
  | some believable => some believable
  | none =>
    if contradictory row then none
    else
      match row.cost with
      | none => none
      | some cost => if cost ≤ 0 then none else engineSell db cost row.pricingCategory q.jobId q.customerId

end Gdx.PartPricing
