import GdxDispatch.Billing.EstimateBill
import GdxDispatch.Forecasting.ObservedRecurring

/-! Good, better and best (`modules/proposals/service.py` and the public routes of `router.py`).

    An estimate offers tiers. A flat tier carries a price set by hand, a tier built from lines carries their sum, which
    every write of a line stores again. The office and the customer accept a tier, and the customer can decline; the
    price of the accepted tier becomes the estimate's total. Prices come in as decimals and are stored in cents. -/

namespace Gdx.Proposals

open Lib

structure ProposalTierLine where
  id : ℕ
  description : Text
  category : Option Text
  quantity : ℤ
  unitPrice : ℤ
  lineTotal : ℤ
  sortOrder : ℕ
  deriving DecidableEq, Repr

/-- A tier with its line rows; a line goes when its tier goes. -/
structure ProposalTier where
  id : ℕ
  tierName : TierName
  description : Option Text
  totalPrice : ℤ
  includesParts : Bool
  warrantyMonths : ℕ
  displayOrder : ℕ
  lines : List ProposalTierLine
  deriving DecidableEq

/-- One estimate and its tiers. -/
structure Proposal where
  status : EstimateStatus
  acceptedTierId : Option ℕ
  total : ℤ
  proposalMode : Bool
  sentAt : Option ℤ
  acceptedAt : Option ℤ
  declinedAt : Option ℤ
  declinedReason : Option Text
  deletedAt : Option ℤ
  tiers : List ProposalTier
  nextId : ℕ
  deriving DecidableEq

inductive TierRefusal where
  | finalized
  | tierNotFound
  | lineNotFound
  | tierExists (name : TierName)
  | acceptedTier
  | notPublic
  | notOpen
  | choosePackage
  | noPackages
  /-- An exception nothing catches. -/
  | serverError
  deriving DecidableEq

/-! ### Money -/

/-- `_money2`: two places, a half going to the even cent. -/
def money2 (v : ℚ) : ℤ := roundHalfEven (v * 100)

/-- The sum of a tier's line totals. -/
def ProposalTier.linesSum (tier : ProposalTier) : ℤ := (tier.lines.map (·.lineTotal)).sum

/-- What accepting the tier commits the customer to. Stored amounts have two places, so `_money2` leaves them. -/
def tierContractSubtotal (tier : ProposalTier) : ℤ := if tier.lines = [] then tier.totalPrice else tier.linesSum

/-- A tier without lines keeps its price. -/
def resyncTierPrice (tier : ProposalTier) : ProposalTier :=
  if tier.lines = [] then tier else { tier with totalPrice := tier.linesSum }

/-! ### Lookups -/

def TIER_ORDER : TierName → ℕ
  | .good => 0
  | .better => 1
  | .best => 2

/-- The gate of `_editable_estimate`: the customer has settled the estimate. -/
def Proposal.finalized (p : Proposal) : Bool := p.status = .accepted || p.status = .declined

def Proposal.tier (p : Proposal) (tierId : ℕ) : Option ProposalTier := rowOf ProposalTier.id p.tiers tierId

/-- `_tier_or_404` behind `_editable_estimate`. -/
def editableTier (p : Proposal) (tierId : ℕ) : Except TierRefusal ProposalTier :=
  if p.finalized then .error .finalized
  else
    match p.tier tierId with
    | none => .error .tierNotFound
    | some tier => .ok tier

def tierLineOr404 (tier : ProposalTier) (lineId : ℕ) : Except TierRefusal ProposalTierLine :=
  match rowOf ProposalTierLine.id tier.lines lineId with
  | none => .error .lineNotFound
  | some line => .ok line

/-- `scalar_one_or_none`. -/
def scalarOneOrNone {α : Type} : List α → Except TierRefusal (Option α)
  | [] => .ok none
  | [a] => .ok (some a)
  | _ => .error .serverError

/-- The written tier takes its place. -/
def Proposal.put (p : Proposal) (tier : ProposalTier) : Proposal :=
  { p with tiers := putRow ProposalTier.id p.tiers tier }

/-! ### Tiers -/

structure TierIn where
  tierName : TierName
  description : Option Text
  totalPrice : ℚ
  warrantyMonths : ℕ

/-- The fields sent; `some none` is a null. -/
structure TierPatch where
  tierName : Option (Option TierName)
  description : Option (Option Text)
  totalPrice : Option (Option ℚ)
  warrantyMonths : Option (Option ℕ)
  includesParts : Option (Option Bool)

/-- The row of a tier that is not there yet. -/
def TierIn.newTier (payload : TierIn) (id : ℕ) : ProposalTier where
  id := id
  tierName := payload.tierName
  description := payload.description
  totalPrice := moneyCents payload.totalPrice
  includesParts := false
  warrantyMonths := payload.warrantyMonths
  displayOrder := TIER_ORDER payload.tierName
  lines := []

/-- The row of a tier that is: its lines price it, else the request. -/
def TierIn.overwrite (payload : TierIn) (tier : ProposalTier) : ProposalTier :=
  let row := { tier with description := payload.description, warrantyMonths := payload.warrantyMonths }
  if tier.lines = [] then { row with totalPrice := moneyCents payload.totalPrice } else resyncTierPrice row

/-- There is one tier of each name: a second request edits it. -/
def addProposalTier (p : Proposal) (payload : TierIn) : Except TierRefusal Proposal :=
  if p.finalized then .error .finalized
  else do
    let row ← scalarOneOrNone (p.tiers.filter (·.tierName = payload.tierName))
    match row with
    | some tier => return p.put (payload.overwrite tier)
    | none => return { p with tiers := p.tiers ++ [payload.newTier p.nextId], nextId := p.nextId + 1 }

/-- The name sent, where it is not the tier's. -/
def TierPatch.newName (fields : TierPatch) (tier : ProposalTier) : Option TierName :=
  match fields.tierName with
  | some (some name) => if name = tier.tierName then none else some name
  | _ => none

/-- A rename does not take another tier's name. -/
def nameFree (p : Proposal) (tierId : ℕ) : Option TierName → Except TierRefusal Unit
  | none => .ok ()
  | some name => do
    let clash ← scalarOneOrNone (p.tiers.filter fun t => t.tierName = name && t.id ≠ tierId)
    if clash.isSome then .error (.tierExists name) else .ok ()

/-- The field as sent, else as stored; the column takes no null. -/
def notNull {α : Type} (stored : α) : Option (Option α) → Except TierRefusal α
  | none => .ok stored
  | some none => .error .serverError
  | some (some v) => .ok v

/-- The price of a tier built from lines is not set by hand: the field is dropped. -/
def TierPatch.settable (fields : TierPatch) (tier : ProposalTier) : TierPatch :=
  if tier.lines = [] then fields else { fields with totalPrice := none }

/-- The fields set on the tier. -/
def TierPatch.apply (fields : TierPatch) (tier : ProposalTier) : Except TierRefusal ProposalTier := do
  let tierName ← notNull tier.tierName fields.tierName
  let totalPrice ← notNull tier.totalPrice (fields.totalPrice.map (·.map moneyCents))
  let warrantyMonths ← notNull tier.warrantyMonths fields.warrantyMonths
  let includesParts ← notNull tier.includesParts fields.includesParts
  return { tier with
    tierName, totalPrice, warrantyMonths, includesParts
    description := fields.description.getD tier.description
    displayOrder := if fields.tierName.isSome then TIER_ORDER tierName else tier.displayOrder }

def updateProposalTier (p : Proposal) (tierId : ℕ) (fields : TierPatch) : Except TierRefusal Proposal := do
  let tier ← editableTier p tierId
  nameFree p tierId (fields.newName tier)
  let row ← (fields.settable tier).apply tier
  return p.put row

def deleteProposalTier (p : Proposal) (tierId : ℕ) : Except TierRefusal Proposal := do
  let tier ← editableTier p tierId
  if p.acceptedTierId = some tier.id then .error .acceptedTier
  else return { p with tiers := p.tiers.filter (·.id ≠ tier.id) }

/-- The office accepts: no look at the status. -/
def acceptTier (p : Proposal) (now : ℤ) (tierId : ℕ) : Except TierRefusal Proposal :=
  match p.tier tierId with
  | none => .error .tierNotFound
  | some tier =>
    .ok { p with
      status := .accepted
      acceptedAt := some now
      acceptedTierId := some tierId
      total := tierContractSubtotal tier }

/-! ### Lines of a tier -/

structure TierLineIn where
  description : Text
  quantity : ℤ
  unitPrice : ℚ
  category : Option Text

structure TierLinePatch where
  description : Option (Option Text)
  quantity : Option (Option ℤ)
  unitPrice : Option (Option ℚ)
  category : Option (Option Text)

/-- `max(1, int(quantity or 1))`. -/
def lineQuantity (quantity : Option ℤ) : ℤ := max 1 (quantity.getD 1)

/-- The row of a new line, after all lines of the tier. -/
def TierLineIn.newLine (payload : TierLineIn) (id : ℕ) (tier : ProposalTier) : ProposalTierLine where
  id := id
  description := payload.description
  category := payload.category
  quantity := lineQuantity (some payload.quantity)
  unitPrice := money2 payload.unitPrice
  lineTotal := money2 payload.unitPrice * lineQuantity (some payload.quantity)
  sortOrder := 1 + (tier.lines.map (·.sortOrder)).foldl max 0

def addTierLine (p : Proposal) (tierId : ℕ) (payload : TierLineIn) : Except TierRefusal Proposal := do
  let tier ← editableTier p tierId
  let row := payload.newLine p.nextId tier
  let p := { p with nextId := p.nextId + 1 }
  return p.put (resyncTierPrice { tier with lines := tier.lines ++ [row] })

/-- The fields set on the line; its total is reckoned again whatever was sent. -/
def TierLinePatch.apply (fields : TierLinePatch) (row : ProposalTierLine) : Except TierRefusal ProposalTierLine := do
  let description ← notNull row.description fields.description
  let quantity := (fields.quantity.map lineQuantity).getD row.quantity
  let unitPrice := (fields.unitPrice.map fun sent => money2 (sent.getD 0)).getD row.unitPrice
  return { row with
    description, quantity, unitPrice
    category := fields.category.getD row.category
    lineTotal := unitPrice * quantity }

def updateTierLine (p : Proposal) (tierId lineId : ℕ) (fields : TierLinePatch) : Except TierRefusal Proposal := do
  let tier ← editableTier p tierId
  let row ← tierLineOr404 tier lineId
  let row ← fields.apply row
  return p.put (resyncTierPrice { tier with lines := putRow ProposalTierLine.id tier.lines row })

def deleteTierLine (p : Proposal) (tierId lineId : ℕ) : Except TierRefusal Proposal := do
  let tier ← editableTier p tierId
  let row ← tierLineOr404 tier lineId
  return p.put (resyncTierPrice { tier with lines := tier.lines.filter (·.id ≠ row.id) })

/-! ### The public link -/

/-- `_get_public_estimate_or_404`: a link works once the estimate was sent, and until it is deleted. -/
def Proposal.isPublic (p : Proposal) : Bool := p.deletedAt.isNone && p.sentAt.isSome

/-- The package the customer picked; an estimate with packages needs one, one without takes none. -/
def publicTier (p : Proposal) (tierId : Option ℕ) : Except TierRefusal (Option ProposalTier) :=
  if p.proposalMode = true ∧ p.tiers ≠ [] then
    match tierId with
    | none => .error .choosePackage
    | some id =>
      match p.tier id with
      | none => .error .tierNotFound
      | some tier => .ok (some tier)
  else if tierId.isSome then .error .noPackages
  else .ok none

/-- A second click on accept answers as the first did. -/
def publicProposalAccept (p : Proposal) (now : ℤ) (tierId : Option ℕ) : Except TierRefusal Proposal :=
  if p.isPublic = false then .error .notPublic
  else if p.status = .accepted then .ok p
  else if p.status ≠ .sent ∧ p.status ≠ .rejected then .error .notOpen
  else do
    let tier ← publicTier p tierId
    let accepted := { p with status := .accepted, acceptedAt := some now }
    match tier with
    | some tier => return { accepted with acceptedTierId := some tier.id, total := tierContractSubtotal tier }
    | none => return accepted

def publicProposalDecline (p : Proposal) (now : ℤ) (reason : Option Text) : Except TierRefusal Proposal :=
  if p.isPublic = false then .error .notPublic
  else if p.status = .declined then .ok p
  else if p.status ≠ .sent ∧ p.status ≠ .rejected then .error .notOpen
  else .ok { p with status := .declined, declinedAt := some now, declinedReason := (reason.filter (· ≠ [])).map strip }

/-! ### Runs -/

inductive TierCall where
  | addTier (payload : TierIn)
  | updateTier (tierId : ℕ) (fields : TierPatch)
  | deleteTier (tierId : ℕ)
  | addLine (tierId : ℕ) (payload : TierLineIn)
  | updateLine (tierId lineId : ℕ) (fields : TierLinePatch)
  | deleteLine (tierId lineId : ℕ)
  | officeAccept (now : ℤ) (tierId : ℕ)
  | publicAccept (now : ℤ) (tierId : Option ℕ)
  | publicDecline (now : ℤ) (reason : Option Text)

def Proposal.call (p : Proposal) : TierCall → Except TierRefusal Proposal
  | .addTier payload => addProposalTier p payload
  | .updateTier tierId fields => updateProposalTier p tierId fields
  | .deleteTier tierId => deleteProposalTier p tierId
  | .addLine tierId payload => addTierLine p tierId payload
  | .updateLine tierId lineId fields => updateTierLine p tierId lineId fields
  | .deleteLine tierId lineId => deleteTierLine p tierId lineId
  | .officeAccept now tierId => acceptTier p now tierId
  | .publicAccept now tierId => publicProposalAccept p now tierId
  | .publicDecline now reason => publicProposalDecline p now reason

/-- A refused call is rolled back. -/
def Proposal.step (p : Proposal) (call : TierCall) : Proposal :=
  match p.call call with
  | .ok p' => p'
  | .error _ => p

def Proposal.run (p : Proposal) (calls : List TierCall) : Proposal := calls.foldl Proposal.step p

end Gdx.Proposals
