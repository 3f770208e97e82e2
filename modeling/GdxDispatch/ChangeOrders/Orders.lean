import GdxDispatch.Lib.Keyed
import GdxDispatch.Billing.LaborBook

/-! Change orders (`routers/change_orders.py`) and their part of invoice creation (`routers/invoices.py`).

    An order carries lines and an amount. The editor writes both from the request's lines, or the amount alone; the
    biller stamps approved orders with the invoice and copies their lines, or the amount of an order whose lines gave
    nothing. Prices are decimals, stored money is in cents. -/

namespace Gdx.OrderDesk

open Lib

inductive CoStatus where
  | draft | pendingApproval | approved | declined | completed
  deriving DecidableEq, Repr

/-- `_SIGNED_STATUSES`. -/
def CoStatus.signed : CoStatus → Bool
  | .approved => true
  | .completed => true
  | _ => false

structure ChangeOrderLine where
  description : Text
  qty : ℕ
  unitPrice : ℤ
  lineTotal : ℤ
  taxable : Bool
  deriving DecidableEq, Repr

/-- An order with its line rows. -/
structure ChangeOrder where
  id : ℕ
  coNumber : Text
  jobId : Option ℕ
  customerId : Option ℕ
  customerName : Option Text
  title : Text
  description : Option Text
  reason : Option Text
  status : CoStatus
  amount : ℤ
  approvedBy : Option Text
  approvedAt : Option ℤ
  createdBy : Text
  deletedAt : Option ℤ
  billedInvoiceId : Option ℕ
  taxRate : Option ℚ
  lines : List ChangeOrderLine
  deriving DecidableEq

/-- The sum of the line totals. -/
def ChangeOrder.linesSum (co : ChangeOrder) : ℤ := (co.lines.map (·.lineTotal)).sum

/-- The table, in the order the rows were created. -/
structure ChangeOrders where
  orders : List ChangeOrder
  nextId : ℕ

inductive CoRefusal where
  | notFound
  | titleRequired
  | billed (coNumber : Text)
  | notUuid (field : String)
  | signedAt (coNumber : Text) (status : CoStatus)
  | linesTotal (coNumber : Text) (count : ℕ) (sum : ℤ)
  | notBillable (labels : List Text)
  | zeroQuantity (coNumber description : Text) (lineTotal : ℤ)
  | unpriced (coNumber : Text)
  /-- An exception nothing catches. -/
  | serverError
  deriving DecidableEq, Repr

/-! ### Requests -/

structure ChangeOrderLineIn where
  description : Text
  quantity : ℕ
  unitPrice : ℚ
  taxable : Bool
  quantity_pos : 0 < quantity
  quantity_le : quantity ≤ 9999
  unitPrice_nonneg : 0 ≤ unitPrice
  unitPrice_le : unitPrice ≤ 99999999 / 100

/-- `job_id` and `customer_id` as sent: absent or null, empty, only spaces, no UUID, or a UUID. -/
inductive LinkIn where
  | notSent | empty | blank | malformed
  | uuid (id : ℕ)
  deriving DecidableEq, Repr

structure ChangeOrderIn where
  jobId : LinkIn
  customerId : LinkIn
  customerName : Option Text
  title : Text
  description : Option Text
  reason : Option Text
  amount : Option ℚ
  /-- `none` for a text that is no status. -/
  status : Option CoStatus
  lineItems : List ChangeOrderLineIn
  amount_nonneg : ∀ a ∈ amount, 0 ≤ a

/-- What a call reads of its surroundings. `rate` is what `_current_rate` answers, `none` when the read fails. -/
structure CoEnv where
  now : ℤ
  actor : Text
  rate : Option ℚ

def ChangeOrderLineIn.total (li : ChangeOrderLineIn) : ℚ := li.unitPrice * li.quantity

/-- The row of a line: price and total are rounded on their own. -/
def ChangeOrderLineIn.stored (li : ChangeOrderLineIn) : ChangeOrderLine where
  description := li.description
  qty := li.quantity
  unitPrice := moneyCents li.unitPrice
  lineTotal := moneyCents li.total
  taxable := li.taxable

/-- The stored amount of a list of lines. -/
def amountOf (items : List ChangeOrderLineIn) : ℤ := moneyCents (items.map (·.total)).sum

/-! ### The routes -/

/-- `CO-00001`. -/
def coNumberOf (n : ℕ) : Text := "CO-".toList ++ List.replicate (5 - (numeral n).length) '0' ++ numeral n

/-- A failed read keeps the prior stamp. -/
def stampTaxRate (env : CoEnv) (co : ChangeOrder) : ChangeOrder :=
  match env.rate with
  | some rate => { co with taxRate := some rate }
  | none => co

/-- `UUID(value) if value else None`. -/
def LinkIn.onCreate : LinkIn → Except CoRefusal (Option ℕ)
  | .notSent => .ok none
  | .empty => .ok none
  | .blank => .error .serverError
  | .malformed => .error .serverError
  | .uuid id => .ok (some id)

/-- The row of a create request. -/
def ChangeOrderIn.newOrder (payload : ChangeOrderIn) (env : CoEnv) (s : ChangeOrders) (jobId customerId : Option ℕ) :
    ChangeOrder where
  id := s.nextId
  coNumber := coNumberOf (s.orders.length + 1)
  jobId := jobId
  customerId := customerId
  customerName := payload.customerName
  title := payload.title
  description := payload.description
  reason := payload.reason
  status := payload.status.getD .draft
  amount := if payload.lineItems = [] then moneyCents (payload.amount.getD 0) else amountOf payload.lineItems
  approvedBy := none
  approvedAt := none
  createdBy := env.actor
  deletedAt := none
  billedInvoiceId := none
  taxRate := none
  lines := payload.lineItems.map (·.stored)

def createChangeOrder (env : CoEnv) (payload : ChangeOrderIn) (s : ChangeOrders) : Except CoRefusal ChangeOrders :=
  if payload.title.all Char.isWhitespace then .error .titleRequired
  else do
    let jobId ← payload.jobId.onCreate
    let customerId ← payload.customerId.onCreate
    let co := payload.newOrder env s jobId customerId
    return { s with orders := s.orders ++ [stampTaxRate env co], nextId := s.nextId + 1 }

/-- `db.get`, and 404 for a deleted order. -/
def ChangeOrders.live (s : ChangeOrders) (id : ℕ) : Except CoRefusal ChangeOrder :=
  match rowOf (·.id) s.orders id with
  | some co => if co.deletedAt.isSome then .error .notFound else .ok co
  | none => .error .notFound

def ChangeOrders.put (s : ChangeOrders) (co : ChangeOrder) : ChangeOrders :=
  { s with orders := putRow (·.id) s.orders co }

/-- `none` leaves the link as it is. -/
def LinkIn.onUpdate (field : String) : LinkIn → Except CoRefusal (Option (Option ℕ))
  | .notSent => .ok none
  | .empty => .ok (some none)
  | .blank => .ok (some none)
  | .malformed => .error (.notUuid field)
  | .uuid id => .ok (some (some id))

/-- The fields a save always applies. -/
def ChangeOrder.retitled (co : ChangeOrder) (payload : ChangeOrderIn) : ChangeOrder :=
  { co with
    title := payload.title
    description := payload.description.orElse fun _ => co.description
    reason := payload.reason.orElse fun _ => co.reason
    customerName := payload.customerName.orElse fun _ => co.customerName }

/-- Lines replace lines and amount; a bare amount may not differ from lines that carry money. -/
def ChangeOrder.repriced (co : ChangeOrder) (payload : ChangeOrderIn) : Except CoRefusal ChangeOrder :=
  if payload.lineItems ≠ [] then
    .ok { co with lines := payload.lineItems.map (·.stored), amount := amountOf payload.lineItems }
  else match payload.amount with
    | none => .ok co
    | some amount =>
      if co.lines ≠ [] ∧ co.linesSum ≠ 0 ∧ |(co.linesSum / 100 : ℚ) - amount| > 5 / 1000 then
        .error (.linesTotal co.coNumber co.lines.length co.linesSum)
      else .ok { co with amount := moneyCents amount }

def updateChangeOrder (env : CoEnv) (id : ℕ) (payload : ChangeOrderIn) (s : ChangeOrders) :
    Except CoRefusal ChangeOrders := do
  let co ← s.live id
  if co.billedInvoiceId.isSome then .error (.billed co.coNumber)
  else do
    let jobLink ← payload.jobId.onUpdate "job_id"
    let customerLink ← payload.customerId.onUpdate "customer_id"
    let moved := jobLink.any (· ≠ co.jobId) || customerLink.any (· ≠ co.customerId)
    if moved && co.status.signed then .error (.signedAt co.coNumber co.status)
    else do
      let linked := { co.retitled payload with
        jobId := jobLink.getD co.jobId
        customerId := customerLink.getD co.customerId }
      let priced ← linked.repriced payload
      let saved := { priced with status := payload.status.getD co.status }
      return s.put (if moved || (saved.status.signed && !co.status.signed) then stampTaxRate env saved else saved)

def approveChangeOrder (env : CoEnv) (id : ℕ) (s : ChangeOrders) : Except CoRefusal ChangeOrders := do
  let co ← s.live id
  let approved := { co with status := .approved, approvedBy := some env.actor, approvedAt := some env.now }
  return s.put (if co.status.signed then approved else stampTaxRate env approved)

def declineChangeOrder (id : ℕ) (s : ChangeOrders) : Except CoRefusal ChangeOrders := do
  let co ← s.live id
  return s.put { co with status := .declined }

def deleteChangeOrder (env : CoEnv) (id : ℕ) (s : ChangeOrders) : Except CoRefusal ChangeOrders := do
  let co ← s.live id
  if co.billedInvoiceId.isSome then .error (.billed co.coNumber)
  else return s.put { co with deletedAt := some env.now }

/-! ### Billing -/

inductive QuantityVerdict where
  | bill | skip | refuse
  deriving DecidableEq, Repr

/-- `zero_quantity_verdict`: a blank quantity reads as one. -/
def zeroQuantityVerdict (quantity : Option ℕ) (lineTotal : ℤ) : QuantityVerdict :=
  if quantity.getD 1 > 0 then .bill
  else if lineTotal = 0 then .skip
  else .refuse

/-- An invoice line made from a change order. -/
structure BilledLine where
  /-- The order it came from, which the source keeps only in the text. -/
  changeOrderId : ℕ
  description : Text
  quantity : ℕ
  unitPrice : ℤ
  lineTotal : ℤ
  taxable : Bool
  /-- `change_order` for a copied line, `co_amount` for a synthesised one. -/
  copied : Bool
  deriving DecidableEq, Repr

def ChangeOrder.copiedLine (co : ChangeOrder) (ln : ChangeOrderLine) : BilledLine where
  changeOrderId := co.id
  description := (co.coNumber ++ ": ".toList ++ ln.description).take 500
  quantity := ln.qty
  unitPrice := ln.unitPrice
  lineTotal := ln.lineTotal
  taxable := ln.taxable
  copied := true

/-- One line for the signed amount. -/
def ChangeOrder.amountLine (co : ChangeOrder) : BilledLine where
  changeOrderId := co.id
  description := (co.coNumber ++ ": ".toList ++ co.title).take 500
  quantity := 1
  unitPrice := co.amount
  lineTotal := co.amount
  taxable := true
  copied := false

def copyLines (co : ChangeOrder) : List ChangeOrderLine → Except CoRefusal (List BilledLine)
  | [] => .ok []
  | ln :: rest =>
    match zeroQuantityVerdict (some ln.qty) ln.lineTotal with
    | .refuse => .error (.zeroQuantity co.coNumber ln.description ln.lineTotal)
    | .skip => copyLines co rest
    | .bill => do
      let more ← copyLines co rest
      return co.copiedLine ln :: more

def copyOrders : List ChangeOrder → Except CoRefusal (List BilledLine)
  | [] => .ok []
  | co :: rest => do
    let copied ← copyLines co co.lines
    let more ← copyOrders rest
    return copied ++ more

/-- The orders that no copied line came from: their amount, if they have one. -/
def billAmounts (copied : List BilledLine) : List ChangeOrder → Except CoRefusal (List BilledLine)
  | [] => .ok []
  | co :: rest =>
    if copied.any (·.changeOrderId = co.id) then billAmounts copied rest
    else if co.amount ≤ 0 then
      if co.lines ≠ [] then billAmounts copied rest else .error (.unpriced co.coNumber)
    else do
      let more ← billAmounts copied rest
      return co.amountLine :: more

/-- What invoice creation reads for its change orders. -/
structure ChangeOrderBilling where
  invoiceId : ℕ
  jobId : Option ℕ
  customerId : Option ℕ
  fromChangeOrderIds : List ℕ
  deriving DecidableEq, Repr

/-- The condition of the stamping update. -/
def ChangeOrderBilling.claims (req : ChangeOrderBilling) (co : ChangeOrder) : Bool :=
  decide (co.id ∈ req.fromChangeOrderIds) && co.jobId = req.jobId &&
    (co.customerId.isNone || co.customerId = req.customerId) && co.status = .approved &&
    co.billedInvoiceId.isNone && co.deletedAt.isNone

def ChangeOrder.stamped (co : ChangeOrder) (req : ChangeOrderBilling) : ChangeOrder :=
  if req.claims co then { co with billedInvoiceId := some req.invoiceId } else co

/-- The requested ids that the stamp does not take. -/
def ChangeOrderBilling.unstamped (req : ChangeOrderBilling) (s : ChangeOrders) : List ℕ :=
  req.fromChangeOrderIds.filter fun id => (s.orders.filter req.claims).all (·.id ≠ id)

/-- The numbers of the orders left out, for the message. -/
def ChangeOrderBilling.labels (req : ChangeOrderBilling) (s : ChangeOrders) : List Text :=
  let numbers := (s.orders.filter fun co => decide (co.id ∈ req.unstamped s)).map (·.coNumber)
  (if numbers = [] then (req.unstamped s).map numeral else numbers).mergeSort (· ≤ ·)

/-- The stamp gates the copy: an order it does not take refuses the whole request. -/
def billChangeOrders (req : ChangeOrderBilling) (s : ChangeOrders) :
    Except CoRefusal (ChangeOrders × List BilledLine) :=
  if req.unstamped s ≠ [] then .error (.notBillable (req.labels s))
  else do
    let copied ← copyOrders (s.orders.filter req.claims)
    let amounts ← billAmounts copied (s.orders.filter req.claims)
    return ({ s with orders := s.orders.map (·.stamped req) }, copied ++ amounts)

/-- A deleted or voided invoice puts its orders back. -/
def releaseChangeOrders (invoiceId : ℕ) (s : ChangeOrders) : ChangeOrders :=
  { s with orders := s.orders.map fun co =>
      if co.billedInvoiceId = some invoiceId then { co with billedInvoiceId := none } else co }

/-! ### Runs -/

inductive CoCall where
  | create (env : CoEnv) (payload : ChangeOrderIn)
  | update (env : CoEnv) (id : ℕ) (payload : ChangeOrderIn)
  | approve (env : CoEnv) (id : ℕ)
  | decline (id : ℕ)
  | delete (env : CoEnv) (id : ℕ)
  | bill (req : ChangeOrderBilling)
  | release (invoiceId : ℕ)

/-- A refused call leaves the table as it was. -/
def ChangeOrders.step (s : ChangeOrders) (call : CoCall) : ChangeOrders :=
  match call with
  | .create env payload => (createChangeOrder env payload s).toOption.getD s
  | .update env id payload => (updateChangeOrder env id payload s).toOption.getD s
  | .approve env id => (approveChangeOrder env id s).toOption.getD s
  | .decline id => (declineChangeOrder id s).toOption.getD s
  | .delete env id => (deleteChangeOrder env id s).toOption.getD s
  | .bill req => ((billChangeOrders req s).toOption.map (·.1)).getD s
  | .release invoiceId => releaseChangeOrders invoiceId s

def ChangeOrders.empty : ChangeOrders := ⟨[], 0⟩

def ChangeOrders.run (calls : List CoCall) : ChangeOrders := calls.foldl ChangeOrders.step .empty

end Gdx.OrderDesk
