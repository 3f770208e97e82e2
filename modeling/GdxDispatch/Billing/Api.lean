import GdxDispatch.Ledger.Rules

/-! The invoice API: the requests that move invoices, payments and adjustments, with what each of them
    posts.

    A request reads and writes the tenant's database in one transaction. It is accepted, and then the
    database is what the handler left, or it is refused and nothing of it stays. Amounts arrive as
    whole cents, `_money` having rounded them. -/

namespace Gdx
open Lib

/-- The tenant's database, and the server's clock. -/
structure Db where
  rows : Rows
  ledger : Ledger
  now : ℤ

/-- What a handler answers instead of a result. -/
inductive ApiError where
  | http (status : ℕ) (detail : String)
  | ledger (e : LedgerError)
  deriving DecidableEq

/-- `if c: raise HTTPException(status, detail)`. -/
def refuse (c : Prop) [Decidable c] (status : ℕ) (detail : String) : Except ApiError Unit :=
  if c then .error (.http status detail) else .ok ()

/-- Run a posting rule in the request's transaction. -/
def Db.post (db : Db) (rule : LedgerM Unit) : Except ApiError Db :=
  match rule db.ledger with
  | .ok () L => .ok { db with ledger := L }
  | .error e _ => .error (.ledger e)

/-! ### Rows -/

def Rows.putInvoice (R : Rows) (invoice : Invoice) : Rows :=
  { R with invoices := R.invoices.map fun i => if i.id = invoice.id then invoice else i }

def Rows.putPayment (R : Rows) (p : Payment) : Rows :=
  { R with payments := R.payments.map fun q => if q.id = p.id then p else q }

def Rows.putLine (R : Rows) (line : InvoiceLine) : Rows :=
  { R with lines := R.lines.map fun l => if l.invoiceId = line.invoiceId ∧ l.id = line.id then line else l }

def Rows.addPayment (R : Rows) (p : Payment) : Rows :=
  { R with payments := R.payments ++ [p], nextId := R.nextId + 1 }

def Rows.addAdjustment (R : Rows) (a : InvoiceAdjustment) : Rows :=
  { R with adjustments := R.adjustments ++ [a], nextId := R.nextId + 1 }

def Db.putInvoice (db : Db) (invoice : Invoice) : Db := { db with rows := db.rows.putInvoice invoice }

/-- `_get_invoice_or_404`. -/
def Db.getInvoice (db : Db) (id : ℕ) : Except ApiError Invoice :=
  match db.rows.invoices.find? fun i => i.id == id && !i.deleted with
  | some invoice => .ok invoice
  | none => .error (.http 404 "Invoice not found")

/-! ### Totals -/

/-- `quantize(Decimal("0.01"), ROUND_HALF_UP)`, in cents. -/
def roundHalfUp (q : ℚ) : ℤ := if 0 ≤ q then ⌊q + 1 / 2⌋ else -⌊-q + 1 / 2⌋

/-- Tax follows the rate where there is one; else the stored amount stands. -/
def reckonTax (R : Rows) (invoice : Invoice) : ℤ :=
  match invoice.taxRate with
  | some rate =>
    if invoice.totalsLocked then invoice.taxAmount
    else roundHalfUp (max (sumCents (·.lineTotal) ((R.liveLines invoice).filter (·.taxable))) 0 * rate)
  | none => invoice.taxAmount

/-- The figures of an invoice from its lines, payments and credits. A void owes nothing. -/
def reckon (R : Rows) (invoice : Invoice) : Invoice :=
  let tax := reckonTax R invoice
  let subtotal := if invoice.totalsLocked then invoice.subtotal else sumCents (·.lineTotal) (R.liveLines invoice)
  let total := if invoice.totalsLocked then invoice.total else subtotal + tax
  { invoice with
    taxAmount := tax
    subtotal := subtotal
    total := total
    balanceDue := if invoice.status = .void then 0
      else max (total - paidCents R invoice - invoiceCreditedCents R invoice) 0 }

/-- `_remaining_receivable`: total − credit memos and applied credits − live payments. -/
def remainingReceivable (R : Rows) (invoice : Invoice) : ℤ :=
  invoice.total - invoiceCreditedCents R invoice - paidCents R invoice

/-- `_net_paid`: live payments less refunds. -/
def netPaid (R : Rows) (invoice : Invoice) : ℤ :=
  paidCents R invoice - sumCents (·.amount) ((R.adjustmentsOf invoice).filter (·.kind = .refund))

/-! ### Status -/

section Handlers
variable (H : ContentHash) (zone : ShopZone)

/-- The shop's clock while a request is served. -/
def Db.clock (db : Db) : ShopClock := ⟨zone, zone.day db.now⟩

/-- `_POSTING_RULES`. -/
def postingRule (R : Rows) (invoice : Invoice) (actor : Option Text) : InvoiceStatus → InvoiceStatus → LedgerM Unit
  | .draft, .sent => postInvoiceIssuance H R invoice actor
  | .draft, .paid => postInvoiceIssuance H R invoice actor
  | .sent, .void => reverseInvoiceIssuance invoice actor
  | .paid, .void => reverseInvoiceIssuance invoice actor
  | _, _ => pure ()

/-- The chokepoint every status change goes through. A void is terminal. -/
def transitionInvoiceStatus (db : Db) (invoice : Invoice) (status : InvoiceStatus) (actor : Option Text) :
    Except ApiError Db :=
  if status = invoice.status then .ok db
  else if invoice.status = .void then .ok db
  else
    let moved := { invoice with status := status }
    let db := db.putInvoice moved
    if !db.rows.ledgerPostingEnabled invoice.companyId then .ok db
    else db.post (postingRule H db.rows moved actor invoice.status status)

/-- Reckon the invoice again, repost its issuance, and flip it to paid when nothing is owed. -/
def recalculateInvoice (db : Db) (id : ℕ) (actor : Option Text) : Except ApiError Db := do
  let invoice ← db.getInvoice id
  let invoice := reckon db.rows invoice
  let db := db.putInvoice invoice
  let db ← db.post (repostInvoiceIssuance H db.rows invoice actor)
  if invoice.status ≠ .void ∧ invoice.balanceDue ≤ 0 ∧ 0 < invoice.total then
    transitionInvoiceStatus H db invoice .paid actor
  else return db

/-! ### Drafts -/

structure LineIn where
  description : String
  lineTotal : ℤ
  taxable : Bool
  category : Option Text
  deriving DecidableEq

/-- What a new draft is made from: its lines as the create path priced them. -/
structure InvoiceIn where
  number : String
  customerId : Option ℕ
  jobId : Option ℕ
  invoiceDate : Option ℤ
  taxRate : Option ℚ
  taxAmount : ℤ
  deposit : Bool
  lines : List LineIn
  deriving DecidableEq

def LineIn.row (line : LineIn) (id invoice : ℕ) : InvoiceLine where
  id := id
  invoiceId := invoice
  description := line.description
  lineTotal := line.lineTotal
  taxable := line.taxable
  category := line.category
  deleted := false

/-- Rows for new lines, ids counted up from the one given. -/
def newLines (invoice : ℕ) : ℕ → List LineIn → List InvoiceLine
  | _, [] => []
  | id, line :: lines => line.row id invoice :: newLines invoice (id + 1) lines

/-- The draft's row before its first figures. -/
def InvoiceIn.row (payload : InvoiceIn) (company id : ℕ) (now : ℤ) : Invoice where
  id := id
  number := payload.number
  companyId := company
  customerId := payload.customerId
  jobId := payload.jobId
  status := .draft
  invoiceDate := payload.invoiceDate
  sentAt := none
  createdAt := now
  subtotal := 0
  taxRate := payload.taxRate
  taxAmount := payload.taxAmount
  total := 0
  balanceDue := 0
  totalsLocked := false
  deleted := false
  deposit := payload.deposit

/-- A draft and its lines. -/
def Rows.addInvoice (R : Rows) (payload : InvoiceIn) (company : ℕ) (now : ℤ) : Rows :=
  { R with
    invoices := R.invoices ++ [payload.row company R.nextId now]
    lines := R.lines ++ newLines R.nextId (R.nextId + 1) payload.lines
    nextId := R.nextId + 1 + payload.lines.length }

def NOT_DRAFT : String := "cannot modify lines on a locked/non-draft invoice"

def addInvoiceLine (id : ℕ) (line : LineIn) (actor : Option Text) (db : Db) : Except ApiError Db := do
  let invoice ← db.getInvoice id
  refuse (invoice.locked = true ∨ invoice.status ≠ .draft) 409 NOT_DRAFT
  refuse (line.lineTotal < 0) 422 "Input should be greater than or equal to 0"
  let rows := { db.rows with
    lines := db.rows.lines ++ [line.row db.rows.nextId invoice.id]
    nextId := db.rows.nextId + 1 }
  recalculateInvoice H { db with rows := rows } id actor

/-- `_get_line_or_404`. -/
def Db.getLine (db : Db) (invoice : Invoice) (id : ℕ) : Except ApiError InvoiceLine :=
  match (db.rows.liveLines invoice).find? (·.id == id) with
  | some line => .ok line
  | none => .error (.http 404 "Line not found")

/-- The negative line that mirrors a deposit already paid. -/
def InvoiceLine.isDepositNetting (line : InvoiceLine) : Bool :=
  line.category == some "Deposit".toList && decide (line.lineTotal < 0)

/-- The fields a line edit sets; a total is the new quantity times the new price, a discount's below zero. -/
structure LinePatch where
  description : Option String
  lineTotal : Option ℤ
  taxable : Option Bool
  category : Option (Option Text)
  deriving DecidableEq

def LinePatch.apply (patch : LinePatch) (line : InvoiceLine) : InvoiceLine :=
  { line with
    description := patch.description.getD line.description
    lineTotal := patch.lineTotal.getD line.lineTotal
    taxable := patch.taxable.getD line.taxable
    category := patch.category.getD line.category }

/-- An edit of a draft's line: both edits go through the same guards. -/
def editInvoiceLine (id lineId : ℕ) (netting : String) (edit : InvoiceLine → InvoiceLine) (actor : Option Text)
    (db : Db) : Except ApiError Db := do
  let invoice ← db.getInvoice id
  refuse (invoice.locked = true ∨ invoice.status ≠ .draft) 409 NOT_DRAFT
  let line ← db.getLine invoice lineId
  refuse (line.isDepositNetting = true) 409 netting
  recalculateInvoice H { db with rows := db.rows.putLine (edit line) } id actor

def patchInvoiceLine (id lineId : ℕ) (patch : LinePatch) (actor : Option Text) (db : Db) : Except ApiError Db :=
  editInvoiceLine H id lineId
    ("this is the deposit netting line — it mirrors the deposit actually paid and can't be edited. " ++
      "Void the invoice and re-create it if the netting is wrong.") patch.apply actor db

def deleteInvoiceLine (id lineId : ℕ) (actor : Option Text) (db : Db) : Except ApiError Db :=
  editInvoiceLine H id lineId
    ("this is the deposit netting line — deleting it would re-bill an already-collected deposit. " ++
      "Void the invoice and re-create it instead.") (fun line => { line with deleted := true }) actor db

/-- The office's approval; the first stamp is kept. -/
def verifyInvoice (id : ℕ) (db : Db) : Except ApiError Db := do
  let invoice ← db.getInvoice id
  if invoice.verifiedAt.isSome then return db
  else return db.putInvoice { invoice with verifiedAt := some db.now }

def AWAITING_VERIFICATION_DETAIL : String :=
  "invoice is an unverified draft — review it and Verify before it can reach the customer"

/-- Paid stays paid. -/
def sendUnlessPaid (db : Db) (invoice : Invoice) (actor : Option Text) : Except ApiError Db :=
  if invoice.status = .paid then .ok db else transitionInvoiceStatus H db invoice .sent actor

/-- Issue: draft to sent. A paid invoice only gets the delivery stamp. -/
def markInvoiceSent (id : ℕ) (actor : Option Text) (db : Db) : Except ApiError Db := do
  let invoice ← db.getInvoice id
  refuse (invoice.status = .void) 409 "invoice is void — it cannot be sent"
  refuse (invoice.status = .draft ∧ invoice.verifiedAt = none) 409 AWAITING_VERIFICATION_DETAIL
  let db ← sendUnlessPaid H db invoice actor
  let invoice ← db.getInvoice id
  return db.putInvoice { invoice with sentAt := some db.now }

/-! ### Payments -/

structure PaymentCreateIn where
  amount : Option ℕ
  payRemaining : Bool
  method : Text
  date : Option ℤ
  allowOverpayment : Bool
  reference : Option Text
  deriving DecidableEq

def strip (s : Text) : Text :=
  ((s.dropWhile Char.isWhitespace).reverse.dropWhile Char.isWhitespace).reverse

/-- `(s or "").strip() or None`. -/
def stripOrNone (s : Option Text) : Option Text := some (strip (s.getD [])) |>.filter (· ≠ [])

/-- A deposit closed out by the final invoice takes no more money. -/
def supersededDeposit (R : Rows) (invoice : Invoice) : Bool :=
  invoice.deposit && decide (invoice.balanceDue ≤ 0) &&
    (((R.adjustmentsOf invoice).find? (·.kind = .creditMemo)).bind (·.reason)).any fun reason =>
      decide ("superseded".toList <:+: reason.map Char.toLower)

/-- What the request says to record; `pay_remaining` is derived here. -/
def requestedAmount (R : Rows) (invoice : Invoice) (payload : PaymentCreateIn) : Except ApiError ℤ :=
  match payload.payRemaining, payload.amount with
  | true, some _ => .error (.http 422 "send either amount or pay_remaining, not both")
  | false, none => .error (.http 422 "amount is required unless pay_remaining is true")
  | false, some amount => .ok amount
  | true, none => do
    refuse (invoice.balanceDue ≤ 0 ∨ remainingReceivable R invoice ≤ 0) 409 "nothing remains to pay on this invoice"
    return remainingReceivable R invoice

def CASHLIKE_DEDUPE_SECONDS : ℤ := 120

/-- The payment a reference was already recorded for. -/
def sameReference (R : Rows) (invoice : Invoice) (reference : Option Text) : Bool :=
  reference.isSome && (R.paymentsOf invoice).any fun p => p.reference == reference && p.voidedAt.isNone

/-- An identical payment without a reference, moments ago. -/
def recentTwin (R : Rows) (invoice : Invoice) (reference : Option Text) (amount : ℤ) (method : Text) (now : ℤ) :
    Bool :=
  reference.isNone && (R.paymentsOf invoice).any fun p =>
    p.reference.isNone && p.voidedAt.isNone && p.amount == amount && p.method.map Char.toLower == method &&
      decide (now - CASHLIKE_DEDUPE_SECONDS * 1000000 ≤ p.createdAt)

def recordPayment (id : ℕ) (payload : PaymentCreateIn) (actor : Option Text) (db : Db) : Except ApiError Db := do
  let invoice ← db.getInvoice id
  refuse (invoice.status = .void) 409 "invoice is void — un-void it before recording a payment"
  let shopToday := zone.day db.now
  let date := payload.date.getD shopToday
  refuse (shopToday < date) 422 "payment date cannot be in the future"
  refuse (supersededDeposit db.rows invoice = true) 409
    "this deposit was closed out — record the payment on the final invoice instead"
  let amount ← requestedAmount db.rows invoice payload
  refuse (db.rows.ledgerPostingEnabled invoice.companyId = true ∧ payload.allowOverpayment = false ∧
      remainingReceivable db.rows invoice < amount) 422
    ("payment exceeds the invoice's remaining balance — set allow_overpayment to credit the excess " ++
      "to the customer's account")
  let reference := stripOrNone payload.reference
  refuse (sameReference db.rows invoice reference = true) 409
    "a payment with this reference is already recorded on this invoice — void it first to replace it"
  let method := stripLower payload.method
  refuse (recentTwin db.rows invoice reference amount method db.now = true) 409
    ("an identical payment was recorded moments ago — this one was not added. " ++
      "Add a reference if it is a second, separate payment.")
  let payment : Payment := {
    id := db.rows.nextId, invoiceId := invoice.id, amount := amount, surcharge := 0, method := method,
    paymentDate := date, reference := reference, voidedAt := none, createdAt := db.now }
  let db ← recalculateInvoice H { db with rows := db.rows.addPayment payment } id actor
  let invoice ← db.getInvoice id
  db.post (postPaymentReceived H (db.clock zone) db.rows payment invoice actor)

/-- `apply_payment_void` and what the office's endpoint does after it. -/
def voidPayment (id paymentId : ℕ) (actor : Option Text) (db : Db) : Except ApiError Db := do
  let invoice ← db.getInvoice id
  match db.rows.payments.find? fun p => p.id == paymentId && p.invoiceId == invoice.id with
  | none => .error (.http 404 "Payment not found")
  | some payment =>
    if payment.voidedAt.isSome then return db
    else do
      let db := { db with rows := db.rows.putPayment { payment with voidedAt := some db.now } }
      let db ← db.post (resettleInvoicePayments H (db.clock zone) db.rows invoice actor none)
      let db ← recalculateInvoice H db id actor
      let invoice ← db.getInvoice id
      if invoice.status = .paid ∧ 0 < invoice.balanceDue then
        transitionInvoiceStatus H db invoice .sent actor
      else return db

/-! ### Adjustments -/

/-- `status in ("sent", "paid", "overdue")`. -/
def InvoiceStatus.isIssued : InvoiceStatus → Bool
  | .sent | .paid | .overdue => true
  | .draft | .void => false

/-- Record the adjustment row, post it, settle the payments again and recalculate. -/
def Db.adjust (db : Db) (invoice : Invoice) (a : InvoiceAdjustment)
    (rule : ShopClock → Rows → InvoiceAdjustment → Invoice → Option Text → LedgerM Unit) (actor : Option Text) :
    Except ApiError Db := do
  let db := { db with rows := db.rows.addAdjustment a }
  let db ← db.post (rule (db.clock zone) db.rows a invoice actor)
  let db ← db.post (resettleInvoicePayments H (db.clock zone) db.rows invoice actor none)
  recalculateInvoice H db invoice.id actor

def issueCreditMemo (id amount : ℕ) (reason : Text) (actor : Option Text) (db : Db) : Except ApiError Db := do
  let invoice ← db.getInvoice id
  refuse (invoice.status.isIssued = false) 409 "only issued invoices can be credited — edit the draft instead"
  let db ← recalculateInvoice H db id actor
  let invoice ← db.getInvoice id
  refuse (invoice.balanceDue < amount) 422 "credit memo exceeds the remaining balance"
  db.adjust H zone invoice ⟨db.rows.nextId, invoice.id, .creditMemo, amount, some (strip reason), none, db.now⟩
    (postCreditMemo H) actor

def applyCustomerCredit (id amount : ℕ) (actor : Option Text) (db : Db) : Except ApiError Db := do
  let invoice ← db.getInvoice id
  refuse (invoice.status.isIssued = false) 409 "only issued invoices can receive credit"
  refuse (db.rows.ledgerPostingEnabled invoice.companyId = false) 409
    "customer credits live on the ledger — enable ledger posting first"
  refuse (invoice.customerId = none) 422 "invoice has no customer"
  let db ← recalculateInvoice H db id actor
  let invoice ← db.getInvoice id
  match customerCreditBalanceCents db.ledger invoice.companyId invoice.customerId with
  | .error e => .error (.ledger e)
  | .ok available => do
    refuse (available < amount) 422 "amount exceeds the customer credit balance"
    refuse (invoice.balanceDue < amount) 422 "amount exceeds the remaining balance"
    db.adjust H zone invoice
      ⟨db.rows.nextId, invoice.id, .creditApplied, amount, some "customer credit applied".toList, none, db.now⟩
      (postCreditApplication H) actor

def processRefund (id amount : ℕ) (reason : Text) (refundMethod : Option Text) (actor : Option Text) (db : Db) :
    Except ApiError Db := do
  let invoice ← db.getInvoice id
  refuse (invoice.status.isIssued = false) 409 "only issued invoices can be refunded"
  refuse (netPaid db.rows invoice < amount) 422 "Refund exceeds net amount paid"
  refuse (db.rows.ledgerPostingEnabled invoice.companyId = true ∧ stripOrNone refundMethod = none) 422
    "refund_method is required while ledger posting is enabled"
  let a : InvoiceAdjustment := ⟨db.rows.nextId, invoice.id, .refund, amount, stripOrNone (some reason),
    (stripOrNone refundMethod).map (·.map Char.toLower), db.now⟩
  let db := { db with rows := db.rows.addAdjustment a }
  db.post (postRefund H (db.clock zone) db.rows a invoice actor)

/-! ### Void -/

def voidInvoice (id : ℕ) (actor : Option Text) (db : Db) : Except ApiError Db := do
  let invoice ← db.getInvoice id
  if invoice.status = .void then return db
  else do
    refuse ((db.rows.paymentsOf invoice).any (·.voidedAt.isNone) = true) 409
      "invoice has recorded payments — void or remove them first"
    let db ← transitionInvoiceStatus H db invoice .void actor
    let invoice ← db.getInvoice id
    let db ← db.post (reverseInvoiceAdjustments db.rows invoice actor)
    let db ← db.post (settleOpeningOnVoid H (db.clock zone) db.rows invoice actor)
    return db.putInvoice { invoice with balanceDue := 0 }

/-! ### Requests -/

/-- The requests about an invoice there is. -/
inductive Request where
  | addLine (id : ℕ) (line : LineIn)
  | patchLine (id line : ℕ) (patch : LinePatch)
  | deleteLine (id line : ℕ)
  | verify (id : ℕ)
  | markSent (id : ℕ)
  | recordPayment (id : ℕ) (payload : PaymentCreateIn)
  | voidPayment (id payment : ℕ)
  | creditMemo (id amount : ℕ) (reason : Text)
  | applyCredit (id amount : ℕ)
  | refund (id amount : ℕ) (reason : Text) (refundMethod : Option Text)
  | voidInvoice (id : ℕ)
  deriving DecidableEq

def Request.handle (actor : Option Text) : Request → Db → Except ApiError Db
  | .addLine id line => addInvoiceLine H id line actor
  | .patchLine id line patch => patchInvoiceLine H id line patch actor
  | .deleteLine id line => deleteInvoiceLine H id line actor
  | .verify id => verifyInvoice id
  | .markSent id => markInvoiceSent H id actor
  | .recordPayment id payload => Gdx.recordPayment H zone id payload actor
  | .voidPayment id payment => Gdx.voidPayment H zone id payment actor
  | .creditMemo id amount reason => issueCreditMemo H zone id amount reason actor
  | .applyCredit id amount => applyCustomerCredit H zone id amount actor
  | .refund id amount reason refundMethod => processRefund H zone id amount reason refundMethod actor
  | .voidInvoice id => Gdx.voidInvoice H zone id actor

/-- The invoice a request names. -/
def Request.invoice : Request → ℕ
  | .addLine id _ | .patchLine id _ _ | .deleteLine id _ | .verify id | .markSent id | .recordPayment id _
  | .voidPayment id _ | .creditMemo id _ _ | .applyCredit id _ | .refund id _ _ _ | .voidInvoice id => id

end Handlers

end Gdx
