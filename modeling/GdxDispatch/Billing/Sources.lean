import GdxDispatch.Lib.Claims
import GdxDispatch.Billing.EstimateBill

/-! The four kinds of billable source, and the requests that claim them.

    A part, a change order, a day row and a closeout each carry `billed_invoice_id`. `create_invoice` of
    `routers/invoices.py` claims them for the invoice it makes, `build_closeout_lines` of
    `core/closeout_billing.py` for an autodraft, and `void_invoice` of `core/invoice_void.py` gives them
    back. A request is one transaction: a refusal leaves nothing of it. -/

namespace Gdx

open Lib

/-! ### Rows -/

inductive PartSource where
  | closeout | mobile | van | office
deriving DecidableEq

/-- A row of `job_parts_needed`. -/
structure PartRow where
  id : ℕ
  jobId : ℕ
  partName : Text
  sku : Option Text
  quantity : Option ℤ
  unitPrice : Option ℤ
  source : PartSource
  wontBill : Bool
  billedInvoiceId : Option ℕ
deriving DecidableEq

structure ChangeOrderLine where
  description : Text
  qty : ℤ
  unitPrice : ℤ
  lineTotal : ℤ
deriving DecidableEq

/-- A row of `change_orders`, with its lines. -/
structure ChangeOrder where
  id : ℕ
  coNumber : Text
  jobId : Option ℕ
  customerId : Option ℕ
  title : Text
  approved : Bool
  amount : ℤ
  deleted : Bool
  lines : List ChangeOrderLine
  billedInvoiceId : Option ℕ
deriving DecidableEq

/-- A row of `time_entries`. -/
structure TimeEntry where
  id : ℕ
  jobId : ℕ
  clockIn : ℤ
  minutes : ℕ
  dayClosed : Bool
  clockedOut : Bool
  deleted : Bool
  billedInvoiceId : Option ℕ
deriving DecidableEq

/-- A closeout and its job. -/
structure JobCloseout where
  jobId : ℕ
  row : CloseoutRow
deriving DecidableEq

instance : Claimable PartRow ℕ ℕ where
  key := PartRow.id
  holder := PartRow.billedInvoiceId
  stamp o p := { p with billedInvoiceId := o }
  key_stamp _ _ := rfl
  holder_stamp _ _ := rfl

instance : Claimable ChangeOrder ℕ ℕ where
  key := ChangeOrder.id
  holder := ChangeOrder.billedInvoiceId
  stamp o co := { co with billedInvoiceId := o }
  key_stamp _ _ := rfl
  holder_stamp _ _ := rfl

instance : Claimable TimeEntry ℕ ℕ where
  key := TimeEntry.id
  holder := TimeEntry.billedInvoiceId
  stamp o e := { e with billedInvoiceId := o }
  key_stamp _ _ := rfl
  holder_stamp _ _ := rfl

instance : Claimable JobCloseout ℕ ℕ where
  key c := c.row.id
  holder c := c.row.billedInvoiceId
  stamp o c := { c with row := { c.row with billedInvoiceId := o } }
  key_stamp _ _ := rfl
  holder_stamp _ _ := rfl

/-- An invoice line: what it says, and the sources it bills. -/
structure BillLine extends LaborLine where
  partId : Option ℕ := none
  changeOrderId : Option ℕ := none
  timeEntryIds : List ℕ := []
  closeoutId : Option ℕ := none
deriving DecidableEq

/-- An invoice, with the parts and change orders its request pulled in. -/
structure BillInvoice where
  id : ℕ
  number : String
  jobId : Option ℕ
  createdAt : Option ℤ
  void : Bool
  autodraft : Bool
  pulledParts : List ℕ
  pulledOrders : List ℕ
  lines : List BillLine
deriving DecidableEq

structure ShopJob where
  lane : PricingLane
  completed : Bool
  uncompletedAt : List ℤ
deriving DecidableEq

/-- The tables, closeouts newest first. `nextId` is the supply of fresh ids. -/
structure BillingDb where
  job : ℕ → ShopJob
  parts : List PartRow
  orders : List ChangeOrder
  entries : List TimeEntry
  closeouts : List JobCloseout
  invoices : List BillInvoice
  settings : Option PricingSettings
  nextId : ℕ

/-! ### What bills what -/

inductive Source where
  | part (id : ℕ)
  | order (id : ℕ)
  | dayRow (id : ℕ)
  | closeout (id : ℕ)
deriving DecidableEq

/-- The stamp of a source. -/
def BillingDb.stamp (db : BillingDb) : Source → Option ℕ
  | .part x => holderOf db.parts x
  | .order x => holderOf db.orders x
  | .dayRow x => holderOf db.entries x
  | .closeout x => holderOf db.closeouts x

def BillLine.sources (l : BillLine) : List Source :=
  l.partId.toList.map .part ++ l.changeOrderId.toList.map .order ++ l.timeEntryIds.map .dayRow ++
    l.closeoutId.toList.map .closeout

def BillInvoice.sources (i : BillInvoice) : List Source :=
  i.lines.flatMap BillLine.sources ++ i.pulledParts.map .part ++ i.pulledOrders.map .order

/-- The lines of the invoice for a part. -/
def BillInvoice.partLines (i : BillInvoice) (part : ℕ) : List BillLine :=
  i.lines.filter fun l => l.partId = some part

/-- The labor of a job as the closeout's claim reads it: its closeouts, which invoices are live, and its own
    invoices' lines. -/
def BillingDb.labor (db : BillingDb) (jobId : ℕ) : LaborBook where
  lane := (db.job jobId).lane
  completed := (db.job jobId).completed
  closeouts := (db.closeouts.filter fun c => c.jobId = jobId).map JobCloseout.row
  invoices := db.invoices.map fun i =>
    { id := i.id, createdAt := i.createdAt, status := if i.void then .void else .open, deleted := false
      lines := if i.jobId = some jobId then i.lines.map BillLine.toLaborLine else [] }
  uncompletedAt := (db.job jobId).uncompletedAt
  settings := db.settings
  nextCloseout := db.nextId
  nextInvoice := db.nextId

/-! ### Requests -/

/-- A line of the request. Its price is rounded to cents. -/
structure LineItem where
  description : Text
  quantity : ℚ
  unitPrice : ℕ
  partId : Option ℕ := none
  attested : Bool := false
  estimatedManHours : Option ℚ := none
  timeEntryIds : Option (List ℕ) := none
  closeoutId : Option ℕ := none

/-- What `create_invoice` is asked for. `estimate` is the lines the copy of an estimate saves. -/
structure CreateIn where
  number : String
  jobId : Option ℕ
  customerId : ℕ
  createdAt : Option ℤ
  estimate : Option (List LaborLine) := none
  discount : Option ℕ := none
  lineItems : List LineItem := []
  fromPartIds : List ℕ := []
  fromChangeOrderIds : List ℕ := []

/-- The checks of the request model. -/
def CreateIn.validate (req : CreateIn) : Except ApiError Unit := do
  refuse (req.discount.any (0 < ·) = true ∧ req.estimate.isSome = true) 422
    "discount cannot be combined with estimate_id — the copied estimate carries its own discount"
  refuse (req.estimate.isSome = true ∧ req.fromPartIds ≠ []) 422
    ("estimate_id and from_part_ids cannot be used together — estimate-derived invoices carry lines from " ++
      "the estimate, not from the parts checklist.")
  refuse (req.estimate.isSome = true ∧ req.jobId = none) 422
    "estimate_id requires job_id — estimates are tied to a job."
  refuse (req.fromPartIds ≠ [] ∧ req.jobId = none) 422
    "from_part_ids requires job_id — parts checklists are job-scoped."
  refuse (req.fromChangeOrderIds ≠ [] ∧ req.jobId = none) 422
    "from_change_order_ids requires job_id — change orders are job-scoped."
  refuse (req.jobId = none ∧ req.lineItems.any (fun l => l.partId.isSome) = true) 422
    "line_items[].part_id requires job_id — parts are job-scoped."

/-- `_refuse_labor_already_billed`. -/
def refuseLaborAlreadyBilled {α : Type} (db : BillingDb) (holder : Option ℕ) (what : String) :
    Except ApiError α :=
  let other := (holder.bind fun h => (db.invoices.find? fun i => i.id = h).map BillInvoice.number)
  .error (.http 409 (what ++ " is already billed on invoice " ++ other.getD "another invoice" ++
    " — reload the labor suggestion."))

/-- `_refuse_labor_already_on_invoice`. -/
def refuseLaborAlreadyOnInvoice {α : Type} (what : String) : Except ApiError α :=
  .error (.http 409 ("This invoice already has " ++ what ++ " — remove one of the labor lines."))

/-- `_refuse_labor_suggestion_stale`. -/
def refuseLaborSuggestionStale {α : Type} : Except ApiError α :=
  .error (.http 409
    ("The job's closeout changed since this labor line was suggested — reload the labor suggestion."))

/-- `day_row_clauses`. -/
def TimeEntry.isDayRow (e : TimeEntry) : Bool := e.dayClosed && decide (0 < e.minutes) && !e.deleted && e.clockedOut

/-- `claim_day_rows`: the free rows among the ids. -/
def BillingDb.claimDayRows (db : BillingDb) (invoiceId : ℕ) (ids : List ℕ) : BillingDb :=
  { db with entries := claimRows invoiceId (fun e => decide (e.id ∈ ids) && e.billedInvoiceId.isNone) db.entries }

/-- `_claim_labor_day_rows`. -/
def claimLaborDayRows (db : BillingDb) (invoiceId : ℕ) (jobId : Option ℕ) (ids : List ℕ) :
    Except ApiError BillingDb := do
  if ids = [] then return db
  refuse (¬ids.Nodup) 422 "time_entry_ids names a day row twice"
  let eligible := db.entries.filter fun e => decide (e.id ∈ ids) && decide (some e.jobId = jobId) && e.isDayRow
  refuse (eligible.length ≠ ids.length) 422 "time_entry_ids names rows that are not this job's closed day rows"
  let free := db.entries.filter fun e => decide (e.id ∈ ids) && e.billedInvoiceId.isNone
  if free.length = ids.length then return db.claimDayRows invoiceId ids
  else
    let holders := (db.entries.filter fun e => decide (e.id ∈ ids)).filterMap fun e =>
      e.billedInvoiceId.filter fun h => h ≠ invoiceId
    match holders with
    | h :: _ => refuseLaborAlreadyBilled db (some h) "These days' labor"
    | [] => refuseLaborAlreadyOnInvoice "these days' labor"

/-- The rows of some ids that an invoice holds, as the labor builder takes them. -/
def heldDayRows (db : BillingDb) (invoiceId : ℕ) (sel : TimeEntry → Bool) : List DayRow :=
  (db.entries.filter fun e => sel e && decide (e.billedInvoiceId = some invoiceId)).map fun e =>
    { id := e.id, clockIn := e.clockIn, minutes := e.minutes }

/-- `_refuse_restated_line_off_the_suggestion`: the man-hours on the line are not what the suggestion
    builds for it now. -/
def offTheSuggestion (zone : ShopZone) (db : BillingDb) (book : LaborBook) (invoiceId : ℕ) (c : CloseoutRow)
    (manHours : Option ℚ) (ids : List ℕ) : Bool :=
  let rows := heldDayRows db invoiceId fun e => decide (e.id ∈ ids)
  let now := (jobLaborLines zone book (some c) (some invoiceId) rows).filter fun l => l.closeoutId = some c.id
  match manHours, now.head?.bind BuiltLine.estimatedManHours with
  | some m, some built => decide (1 / 100 < |built - m|)
  | _, _ => true

/-- The stamp of a closeout, with the hours it bills. -/
def BillingDb.stampCloseout (db : BillingDb) (id invoiceId : ℕ) (hours : ℚ) : BillingDb :=
  { db with closeouts := db.closeouts.map fun c =>
      if c.row.id = id then
        { c with row := { c.row with billedInvoiceId := some invoiceId, manHoursBilled := some hours } }
      else c }

/-- `_claim_labor_closeout`. -/
def claimLaborCloseout (zone : ShopZone) (db : BillingDb) (invoiceId : ℕ) (jobId : Option ℕ)
    (closeoutId : Option ℕ) (manHours : Option ℚ) (ids : List ℕ) : Except ApiError BillingDb :=
  match closeoutId with
  | none => .ok db
  | some named =>
    match jobId.bind fun j => (db.labor j).current.map fun c => (j, c) with
    | none => refuseLaborSuggestionStale
    | some (j, c) =>
      let book := db.labor j
      if c.id ≠ named ∨ ¬0 < closeoutManHoursToBill book c then refuseLaborSuggestionStale
      else if (0 < closeoutHoursBilledBefore book c ∨ c.isRestatement = some true) ∧
          offTheSuggestion zone db book invoiceId c manHours ids = true then refuseLaborSuggestionStale
      else
        match closeoutHoursHolder book c with
        | some h =>
          if h = invoiceId then refuseLaborAlreadyOnInvoice "the closeout's labor"
          else refuseLaborAlreadyBilled db (some h) "The closeout's labor"
        | none =>
          if (claimCloseoutHours book invoiceId (some c)).2 then
            .ok (db.stampCloseout c.id invoiceId (closeoutManHoursToBill book c))
          else refuseLaborAlreadyBilled db (closeoutHoursHolder book c) "The closeout's labor"

/-- The line saved for a line of the request. -/
def LineItem.line (l : LineItem) : BillLine where
  description := l.description
  quantity := l.quantity
  unitPrice := l.unitPrice
  lineTotal := roundHalfUp (l.unitPrice * l.quantity)
  attested := l.timeEntryIds.isSome || l.closeoutId.isSome || l.attested
  deleted := false
  partId := l.partId
  timeEntryIds := l.timeEntryIds.getD []
  closeoutId := l.closeoutId

/-- The lines of the request, each claiming its labor in order. -/
def claimLineItems (zone : ShopZone) (invoiceId : ℕ) (jobId : Option ℕ) :
    List LineItem → BillingDb → Except ApiError BillingDb
  | [], db => .ok db
  | l :: rest, db => do
    let db ← claimLaborDayRows db invoiceId jobId (l.timeEntryIds.getD [])
    let db ← claimLaborCloseout zone db invoiceId jobId l.closeoutId l.estimatedManHours (l.timeEntryIds.getD [])
    claimLineItems zone invoiceId jobId rest db

/-- The labor of the request's own lines; a copied estimate ignores them. -/
def claimOwnLabor (zone : ShopZone) (db : BillingDb) (invoiceId : ℕ) (req : CreateIn) : Except ApiError BillingDb :=
  if req.estimate.isSome then .ok db else claimLineItems zone invoiceId req.jobId req.lineItems db

/-- The cap on a typed discount, and its line. -/
def operatorDiscount (req : CreateIn) : Except ApiError (List BillLine) :=
  let discount := req.discount.getD 0
  if 0 < discount ∧ req.estimate = none then do
    let goods := sumCents (fun l : LineItem => l.line.lineTotal) req.lineItems
    refuse (goods < discount) 422
      ("discount (" ++ String.ofList (printedHundredths discount) ++ ") exceeds the invoice's line total (" ++
        String.ofList (printedHundredths goods) ++ ") — a discount cannot make the invoice negative. " ++
        "Issue a credit memo instead.")
    return [{ description := "Discount".toList, quantity := 1, unitPrice := -discount, lineTotal := -discount
              attested := false, deleted := false }]
  else return []

/-! ### Change orders -/

/-- The rows the change-order stamp selects. -/
def billableOrder (req : CreateIn) (co : ChangeOrder) : Bool :=
  decide (co.id ∈ req.fromChangeOrderIds) && decide (co.jobId = req.jobId) &&
    (co.customerId.isNone || decide (co.customerId = some req.customerId)) && co.approved &&
    co.billedInvoiceId.isNone && !co.deleted

/-- A line copied from a change order. -/
def ChangeOrderLine.copied (co : ChangeOrder) (ln : ChangeOrderLine) : BillLine where
  description := (co.coNumber ++ ": ".toList ++ ln.description).take 500
  quantity := ln.qty
  unitPrice := ln.unitPrice
  lineTotal := ln.lineTotal
  attested := false
  deleted := false
  changeOrderId := some co.id

/-- The copy of one change order's lines. -/
def copyOrderLines (co : ChangeOrder) : List ChangeOrderLine → Except ApiError (List BillLine)
  | [] => .ok []
  | ln :: rest =>
    match zeroQuantityVerdict (some ln.qty) ln.lineTotal with
    | .refuse =>
      .error (.http 409 (String.ofList co.coNumber ++ " line \"" ++ String.ofList ln.description ++
        "\" records no quantity but carries $" ++ String.ofList (printedHundredths ln.lineTotal) ++
        " — correct the quantity on the change order before billing it."))
    | .skip => copyOrderLines co rest
    | .bill => do
      let copied ← copyOrderLines co rest
      return ln.copied co :: copied

/-- The signed amount of a change order that copied no line. -/
def lumpSum (co : ChangeOrder) : Except ApiError (List BillLine) :=
  if 0 < co.amount then
    .ok [{ description := (co.coNumber ++ ": ".toList ++ co.title).take 500, quantity := 1
           unitPrice := co.amount, lineTotal := co.amount, attested := false, deleted := false
           changeOrderId := some co.id }]
  else if co.lines ≠ [] then .ok []
  else
    .error (.http 409 ("change order " ++ String.ofList co.coNumber ++
      " has neither line items nor an amount — price it before billing."))

/-- A change order's copied lines, or its signed amount where none was copied. -/
def copiedOrLump (co : ChangeOrder) (copied : List BillLine) : Except ApiError (List BillLine) :=
  if copied = [] then lumpSum co else .ok copied

/-- The lines of the claimed change orders. -/
def orderLines : List ChangeOrder → Except ApiError (List BillLine)
  | [] => .ok []
  | co :: rest => do
    let copied ← copyOrderLines co co.lines
    let lines ← copiedOrLump co copied
    let others ← orderLines rest
    return lines ++ others

/-- Labels in order, for a refusal. -/
def sortedLabels (labels : List String) : String :=
  String.intercalate ", " (labels.mergeSort fun a b => decide (a ≤ b))

/-- The stamp gates the copy: every change order asked for is claimed, or the request is refused. -/
def claimChangeOrders (db : BillingDb) (invoiceId : ℕ) (req : CreateIn) :
    Except ApiError (BillingDb × List BillLine) := do
  let unstamped := req.fromChangeOrderIds.filter fun x =>
    !db.orders.any fun co => billableOrder req co && decide (co.id = x)
  let known := (db.orders.filter fun co => decide (co.id ∈ unstamped)).map fun co => String.ofList co.coNumber
  refuse (unstamped ≠ []) 409
    ("change order(s) not billable — already billed on another invoice, not approved, wrong job/customer, " ++
      "or deleted: " ++ sortedLabels (if known = [] then unstamped.map toString else known))
  let lines ← orderLines (db.orders.filter (billableOrder req))
  return ({ db with orders := claimRows invoiceId (billableOrder req) db.orders }, lines)

/-! ### Parts -/

/-- The parts named on the request's lines. -/
def CreateIn.lineParts (req : CreateIn) : List ℕ := req.lineItems.filterMap LineItem.partId

/-- The parts the request stamps: those on its lines, else the list beside them. -/
def CreateIn.allPartIds (req : CreateIn) : List ℕ := if req.lineParts ≠ [] then req.lineParts else req.fromPartIds

def billablePart (req : CreateIn) (p : PartRow) : Bool :=
  decide (p.id ∈ req.allPartIds) && decide (some p.jobId = req.jobId) && p.billedInvoiceId.isNone

def claimParts (db : BillingDb) (invoiceId : ℕ) (req : CreateIn) : Except ApiError BillingDb := do
  let missing := req.allPartIds.filter fun x => !db.parts.any fun p => billablePart req p && decide (p.id = x)
  refuse (missing ≠ []) 409
    ("part(s) not billable — already billed on another invoice or not on this job: " ++
      sortedLabels (missing.dedup.map toString))
  return { db with parts := claimRows invoiceId (billablePart req) db.parts }

/-! ### The create request -/

/-- A line copied from an estimate. -/
def plainLine (l : LaborLine) : BillLine := { l with }

/-- The lines the invoice gets from the request: the estimate's copy, else its own. -/
def CreateIn.ownLines (req : CreateIn) : List BillLine :=
  match req.estimate with
  | some copied => copied.map plainLine
  | none => req.lineItems.map LineItem.line

/-- The invoice row before its lines. -/
def CreateIn.row (req : CreateIn) (id : ℕ) : BillInvoice where
  id := id
  number := req.number
  jobId := req.jobId
  createdAt := req.createdAt
  void := false
  autodraft := false
  pulledParts := req.fromPartIds
  pulledOrders := req.fromChangeOrderIds
  lines := []

def BillingDb.addInvoice (db : BillingDb) (i : BillInvoice) : BillingDb :=
  { db with invoices := db.invoices ++ [i], nextId := db.nextId + 1 }

def BillingDb.setLines (db : BillingDb) (invoiceId : ℕ) (lines : List BillLine) : BillingDb :=
  { db with invoices := db.invoices.map fun i => if i.id = invoiceId then { i with lines := lines } else i }

/-- `create_invoice`, past the job lookup and the double-billing guard. -/
def createInvoiceRequest (zone : ShopZone) (db : BillingDb) (req : CreateIn) : Except ApiError BillingDb := do
  req.validate
  let id := db.nextId
  let db := db.addInvoice (req.row id)
  let db ← claimOwnLabor zone db id req
  let discount ← operatorDiscount req
  let (db, orders) ← claimChangeOrders db id req
  let db ← claimParts db id req
  return db.setLines id (req.ownLines ++ discount ++ orders)

/-! ### The autodraft -/

/-- A labor line as the autodraft saves it. -/
def BuiltLine.billed (b : BuiltLine) : BillLine :=
  { b.saved with timeEntryIds := b.timeEntryIds.getD [], closeoutId := b.closeoutId }

/-- The priced, unbilled parts of a job that a closeout bills. -/
def closeoutPart (jobId : ℕ) (p : PartRow) : Bool :=
  decide (p.jobId = jobId) && decide (p.source ≠ .office) && p.billedInvoiceId.isNone &&
    decide (0 < p.unitPrice.getD 0) && !p.wontBill &&
    decide (zeroQuantityVerdict p.quantity 0 ≠ .skip)

/-- The line of a part. -/
def PartRow.line (p : PartRow) : BillLine :=
  let unit := p.unitPrice.getD 0
  let qty := p.quantity.getD 1
  let name := if p.partName ≠ [] then p.partName else (p.sku.filter (· ≠ [])).getD "Part".toList
  { description := name.take 500, quantity := qty, unitPrice := unit, lineTotal := unit * qty
    attested := false, deleted := false, partId := some p.id }

/-- The labor part of `build_closeout_lines`: the free day rows and the closeout's hours are claimed, then
    priced. -/
def buildCloseoutLabor (zone : ShopZone) (db : BillingDb) (invoiceId jobId : ℕ) (c : CloseoutRow) :
    BillingDb × List BillLine :=
  if (db.job jobId).lane ≠ .service then (db, [])
  else
    let free := (db.entries.filter fun e =>
      decide (e.jobId = jobId) && e.isDayRow && e.billedInvoiceId.isNone).map TimeEntry.id
    let db := db.claimDayRows invoiceId free
    let rows := heldDayRows db invoiceId fun e => decide (e.jobId = jobId) && e.isDayRow
    let book := db.labor jobId
    let db := if (claimCloseoutHours book invoiceId (some c)).2 then
        db.stampCloseout c.id invoiceId (closeoutManHoursToBill book c) else db
    (db, (jobLaborLines zone (db.labor jobId) (some c) (some invoiceId) rows).map BuiltLine.billed)

/-- `build_closeout_lines`. The flat price of the install lane is the matrix row's. -/
def buildCloseoutLines (zone : ShopZone) (db : BillingDb) (invoiceId jobId : ℕ) (c : CloseoutRow)
    (matrix : Option LaborLine) : BillingDb × List BillLine :=
  let install := if (db.job jobId).lane = .install then matrix.toList.map plainLine else []
  let (db, labor) := buildCloseoutLabor zone db invoiceId jobId c
  let parts := (db.parts.filter (closeoutPart jobId)).map PartRow.line
  ({ db with parts := claimRows invoiceId (closeoutPart jobId) db.parts }, install ++ labor ++ parts)

/-- Every stamp that names the invoice is cleared. -/
def BillingDb.releaseLabor (db : BillingDb) (invoiceId : ℕ) : BillingDb :=
  { db with entries := releaseRows invoiceId db.entries, closeouts := releaseRows invoiceId db.closeouts }

def BillingDb.releaseParts (db : BillingDb) (invoiceId : ℕ) : BillingDb :=
  { db with parts := releaseRows invoiceId db.parts }

/-- `autodraft_invoice_for_closeout` on a job that has no live invoice. A draft without lines is deleted. -/
def autodraftNew (zone : ShopZone) (db : BillingDb) (jobId : ℕ) (number : String) (createdAt : Option ℤ)
    (matrix : Option LaborLine) : BillingDb :=
  match (db.labor jobId).current with
  | none => db
  | some c =>
    if db.invoices.any fun i => decide (i.jobId = some jobId) && !i.void then db
    else
      let id := db.nextId
      let draft : BillInvoice :=
        { id := id, number := number, jobId := some jobId, createdAt := createdAt, void := false
          autodraft := true, pulledParts := [], pulledOrders := [], lines := [] }
      let (db', lines) := buildCloseoutLines zone (db.addInvoice draft) id jobId c matrix
      if lines = [] then { db' with invoices := db.invoices } else db'.setLines id lines

/-- `release_untouched_autodraft` and the rebuild into the same invoice. -/
def autodraftRebuild (zone : ShopZone) (db : BillingDb) (jobId invoiceId : ℕ) (matrix : Option LaborLine) :
    BillingDb :=
  if db.invoices.any fun i =>
      decide (i.id = invoiceId) && decide (i.jobId = some jobId) && i.autodraft && !i.void then
    let emptied := ((db.releaseParts invoiceId).releaseLabor invoiceId).setLines invoiceId []
    match (emptied.labor jobId).current with
    | none => db
    | some c =>
      let (db', lines) := buildCloseoutLines zone emptied invoiceId jobId c matrix
      db'.setLines invoiceId lines
  else db

/-! ### Voids and runs -/

def BillingDb.setVoid (db : BillingDb) (invoiceId : ℕ) : BillingDb :=
  { db with invoices := db.invoices.map fun i => if i.id = invoiceId then { i with void := true } else i }

/-- `void_invoice` of an invoice that is live: parts, change orders, day rows and closeout hours go back. -/
def voidBilledInvoice (db : BillingDb) (invoiceId : ℕ) : BillingDb :=
  if db.invoices.any fun i => decide (i.id = invoiceId) && !i.void then
    let released := { db.releaseParts invoiceId with orders := releaseRows invoiceId db.orders }
    (released.releaseLabor invoiceId).setVoid invoiceId
  else db

/-- The closeout of a job: the current row is superseded. -/
def BillingDb.closeout (db : BillingDb) (jobId : ℕ) (hours : ℚ) (techs : Option ℤ) (now : ℤ) : BillingDb :=
  let prior := (db.labor jobId).current
  let row : CloseoutRow :=
    { id := db.nextId, hoursWorked := hours, techsOnSite := techs, closedAt := some now, superseded := false
      supersedesId := prior.map CloseoutRow.id
      isRestatement := some (prior.isSome && (db.job jobId).completed), billedInvoiceId := none
      manHoursBilled := none }
  { db with
    closeouts := { jobId := jobId, row := row } :: db.closeouts.map fun c =>
      if some c.row.id = prior.map CloseoutRow.id then { c with row := { c.row with superseded := true } }
      else c
    job := Function.update db.job jobId { db.job jobId with completed := true }
    nextId := db.nextId + 1 }

inductive BillingStep where
  | addPart (row : PartRow)
  | addOrder (row : ChangeOrder)
  | addEntry (row : TimeEntry)
  | closeout (jobId : ℕ) (hours : ℚ) (techs : Option ℤ) (now : ℤ)
  | uncomplete (jobId : ℕ) (now : ℤ)
  | saveSettings (settings : PricingSettings)
  | create (req : CreateIn)
  | autodraft (jobId : ℕ) (number : String) (createdAt : Option ℤ) (matrix : Option LaborLine)
  | rebuild (jobId invoiceId : ℕ) (matrix : Option LaborLine)
  | void (invoiceId : ℕ)

/-- One step. New rows get a fresh id and no stamp; a refused request leaves the tables alone. -/
def billingStep (zone : ShopZone) (db : BillingDb) : BillingStep → BillingDb
  | .addPart row =>
    { db with
      parts := db.parts ++ [{ row with id := db.nextId, billedInvoiceId := none }]
      nextId := db.nextId + 1 }
  | .addOrder row =>
    { db with
      orders := db.orders ++ [{ row with id := db.nextId, billedInvoiceId := none }]
      nextId := db.nextId + 1 }
  | .addEntry row =>
    { db with
      entries := db.entries ++ [{ row with id := db.nextId, billedInvoiceId := none }]
      nextId := db.nextId + 1 }
  | .closeout jobId hours techs now => db.closeout jobId hours techs now
  | .uncomplete jobId now =>
    let reopened : ShopJob :=
      { db.job jobId with completed := false, uncompletedAt := (db.job jobId).uncompletedAt ++ [now] }
    { db with job := Function.update db.job jobId reopened }
  | .saveSettings settings => { db with settings := some settings }
  | .create req =>
    match createInvoiceRequest zone db req with
    | .ok db' => db'
    | .error _ => db
  | .autodraft jobId number createdAt matrix => autodraftNew zone db jobId number createdAt matrix
  | .rebuild jobId invoiceId matrix => autodraftRebuild zone db jobId invoiceId matrix
  | .void invoiceId => voidBilledInvoice db invoiceId

/-- No rows yet. -/
def BillingDb.empty (job : ℕ → ShopJob) : BillingDb where
  job := job
  parts := []
  orders := []
  entries := []
  closeouts := []
  invoices := []
  settings := none
  nextId := 0

def runBilling (zone : ShopZone) (db : BillingDb) (steps : List BillingStep) : BillingDb :=
  steps.foldl (billingStep zone) db

end Gdx
