import Mathlib.Logic.Function.Basic
import GdxDispatch.Billing.Requests

/-! Deposits: the invoices that collect them, and the final invoice that nets them.

    `create_deposit_invoice` and `apply_deposits_to_final` of `modules/deposits/service.py`, and the create
    request of `routers/invoices.py` that calls the second. A final subtracts what its job's deposits were
    paid, as one negative line, and closes out what they still owe. The audit rows, the double-billing
    question that `force` answers, and the columns no amount depends on are left out. -/

namespace Gdx

open Lib

/-- The database, the column `invoices.estimate_id` by invoice id, and the finals that got a netting line. -/
structure DepositDesk where
  db : Db
  estimateOf : ℕ → Option ℕ
  netted : List ℕ

/-! ### What is held -/

/-- Payments of some deposits that are not voided. -/
def depositPaid (R : Rows) (deposits : List Invoice) : ℤ := sumCents (paidCents R) deposits

/-- What was refunded of them. -/
def depositRefunded (R : Rows) (deposits : List Invoice) : ℤ :=
  sumCents (fun d => sumCents (·.amount) ((R.adjustmentsOf d).filter (·.kind = .refund))) deposits

/-- What `build_payment_lines` put on 2300 for a deposit: the excess of its live payments over its receivable. -/
def creditedExcess (R : Rows) (d : Invoice) : ℤ :=
  if R.ledgerPostingEnabled d.companyId then
    sumCents (fun p => p.amount - arPortion R d p) ((R.paymentsOf d).filter (·.voidedAt.isNone))
  else 0

def depositCredited (R : Rows) (deposits : List Invoice) : ℤ := sumCents (creditedExcess R) deposits

/-- The deposit money the shop still holds. -/
def depositHeld (R : Rows) (deposits : List Invoice) : ℤ :=
  depositPaid R deposits - depositRefunded R deposits - depositCredited R deposits

/-! ### Netting -/

/-- The deposit was taken for the final's job, or for its estimate. -/
def DepositDesk.sameWork (desk : DepositDesk) (invoice d : Invoice) : Bool :=
  (invoice.jobId.isSome && decide (d.jobId = invoice.jobId)) ||
    ((desk.estimateOf invoice.id).isSome && decide (desk.estimateOf d.id = desk.estimateOf invoice.id))

/-- The deposits a final settles, oldest first. -/
def depositsFor (desk : DepositDesk) (invoice : Invoice) : List Invoice :=
  (desk.db.rows.invoices.filter fun d =>
    desk.sameWork invoice d && d.deposit && decide (d.id ≠ invoice.id) && !d.deleted &&
      decide (d.status ≠ .void)).mergeSort fun a b => decide (a.createdAt ≤ b.createdAt)

/-- The invoice carries a netting line. -/
def Rows.carriesNetting (R : Rows) (i : Invoice) : Bool :=
  R.lines.any fun l => decide (l.invoiceId = i.id) && !l.deleted && l.isDepositNetting

/-- The double-application guard: another live final of the job that carries a netting line. -/
def priorNetting (R : Rows) (invoice : Invoice) : Option Invoice :=
  if invoice.jobId = none then none
  else R.invoices.find? fun i =>
    decide (i.jobId = invoice.jobId) && decide (i.id ≠ invoice.id) && !i.deposit && !i.deleted &&
      decide (i.status ≠ .void) && R.carriesNetting i

/-- What the loop over the deposits has done so far. -/
structure Settling where
  db : Db
  totalPaid : ℤ := 0
  paidSources : List String := []
  superseded : List String := []
  voided : List String := []

/-- What the create response says about the deposits. -/
structure DepositResult where
  depositPaidApplied : ℤ
  depositUnapplied : ℤ
  superseded : List String
  voided : List String
  sources : List String

inductive DepositOutcome where
  | nothing
  | skipped (detail : String)
  | settled (result : DepositResult)

def DepositOutcome.applied : DepositOutcome → ℤ
  | .settled result => result.depositPaidApplied
  | _ => 0

section Handlers

variable (H : ContentHash) (zone : ShopZone)

/-- A deposit that nothing was paid on is voided, as the void request does it. -/
def voidUnpaid (db : Db) (dep : Invoice) (actor : Option Text) : Except ApiError Db := do
  let db ← transitionInvoiceStatus H db dep .void actor
  let dep ← db.getInvoice dep.id
  let db ← db.post (reverseInvoiceAdjustments db.rows dep actor)
  let db ← db.post (settleOpeningOnVoid H (db.clock zone) db.rows dep actor)
  return db.putInvoice { dep with balanceDue := 0 }

/-- What a partly paid deposit still owes is credited. -/
def creditRemainder (db : Db) (dep final : Invoice) (actor : Option Text) : Except ApiError Db :=
  db.adjust H zone dep
    ⟨db.rows.nextId, dep.id, .creditMemo, dep.balanceDue,
      some (("Deposit superseded by " ++ final.number).toList.take 200), none, db.now⟩ (postCreditMemo H) actor

/-- Close out what a deposit still owes. A draft is left alone. -/
def closeOut (acc : Settling) (dep final : Invoice) (paid : ℤ) (actor : Option Text) : Except ApiError Settling :=
  if 0 < dep.balanceDue ∧ (dep.status = .sent ∨ dep.status = .overdue) then
    if paid ≤ 0 then do
      let db ← voidUnpaid H zone acc.db dep actor
      return { acc with db := db, voided := acc.voided ++ [dep.number] }
    else do
      let db ← creditRemainder H zone acc.db dep final actor
      return { acc with db := db, superseded := acc.superseded ++ [dep.number] }
  else .ok acc

/-- The money found on a deposit. -/
def Settling.find (acc : Settling) (dep : Invoice) (paid : ℤ) : Settling :=
  if 0 < paid then { acc with totalPaid := acc.totalPaid + paid, paidSources := acc.paidSources ++ [dep.number] }
  else acc

/-- One deposit of the loop. -/
def settleDeposit (final : Invoice) (actor : Option Text) (acc : Settling) (dep : Invoice) : Except ApiError Settling := do
  let db ← recalculateInvoice H acc.db dep.id actor
  let dep ← db.getInvoice dep.id
  let paid := paidCents db.rows dep
  closeOut H zone ({ acc with db := db }.find dep paid) dep final paid actor

def settleDeposits (final : Invoice) (actor : Option Text) : List Invoice → Settling → Except ApiError Settling
  | [], acc => .ok acc
  | dep :: rest, acc => do
    let acc ← settleDeposit H zone final actor acc dep
    settleDeposits final actor rest acc

/-- The netting line. -/
def nettingLine (id : ℕ) (final : Invoice) (applied : ℤ) (sources : List String) : InvoiceLine where
  id := id
  invoiceId := final.id
  description := String.ofList (("Less deposit paid — " ++ String.intercalate ", " sources).toList.take 500)
  lineTotal := -applied
  taxable := false
  category := some "Deposit".toList
  deleted := false

def Rows.addLine (R : Rows) (line : InvoiceLine) : Rows :=
  { R with lines := R.lines ++ [line], nextId := R.nextId + 1 }

/-- The response for what was found, with the amount that goes on the line. -/
def Settling.result (acc : Settling) (applied unapplied : ℤ) : DepositResult where
  depositPaidApplied := applied
  depositUnapplied := unapplied
  superseded := acc.superseded
  voided := acc.voided
  sources := acc.paidSources

/-- The line for what was found, capped by the final's own lines. -/
def netFound (acc : Settling) (final : Invoice) : Db × DepositResult :=
  if acc.totalPaid ≤ 0 then (acc.db, acc.result 0 0)
  else
    let lineSum := sumCents (·.lineTotal) (acc.db.rows.liveLines final)
    let applied := min acc.totalPaid (max lineSum 0)
    let result := acc.result applied (acc.totalPaid - applied)
    if 0 < applied then
      let line := nettingLine acc.db.rows.nextId final applied acc.paidSources
      ({ acc.db with rows := acc.db.rows.addLine line }, result)
    else (acc.db, result)

/-- The deposits there are: settle them and net what was found. -/
def settleAndNet (desk : DepositDesk) (final : Invoice) (deposits : List Invoice) (actor : Option Text) :
    Except ApiError (Db × DepositOutcome) := do
  let acc ← settleDeposits H zone final actor deposits { db := desk.db }
  let (db, result) := netFound acc final
  return (db, .settled result)

/-- `apply_deposits_to_final`. -/
def applyDepositsToFinal (desk : DepositDesk) (invoice : Invoice) (actor : Option Text) :
    Except ApiError (Db × DepositOutcome) :=
  if invoice.deposit then .ok (desk.db, .nothing)
  else if depositsFor desk invoice = [] then .ok (desk.db, .nothing)
  else
    match priorNetting desk.db.rows invoice with
    | some prior => .ok (desk.db, .skipped ("deposit already applied on " ++ prior.number))
    | none => settleAndNet H zone desk invoice (depositsFor desk invoice) actor

/-! ### Requests -/

/-- What an invoice is created from. -/
structure FinalIn extends InvoiceIn where
  estimateId : Option ℕ

/-- The desk with the new invoice and its own lines. -/
def DepositDesk.opened (desk : DepositDesk) (company : ℕ) (payload : FinalIn) : DepositDesk :=
  { desk with
    db := { desk.db with rows := desk.db.rows.addInvoice payload.toInvoiceIn company desk.db.now }
    estimateOf := Function.update desk.estimateOf desk.db.rows.nextId payload.estimateId }

/-- The create request: the invoice and its lines, the netting, then the figures. -/
def createWithDeposits (company : ℕ) (payload : FinalIn) (actor : Option Text) (desk : DepositDesk) :
    Except ApiError (DepositDesk × DepositOutcome) := do
  refuse (payload.estimateId ≠ none ∧ payload.jobId = none) 422
    "estimate_id requires job_id — estimates are tied to a job."
  let id := desk.db.rows.nextId
  let opened := desk.opened company payload
  let (db, outcome) ← applyDepositsToFinal H zone opened (payload.row company id desk.db.now) actor
  let db ← recalculateInvoice H db id actor
  let netted := if 0 < outcome.applied then id :: desk.netted else desk.netted
  return ({ opened with db := db, netted := netted }, outcome)

/-- What a deposit is asked for on. -/
structure EstimateRef where
  id : ℕ
  number : String
  jobId : Option ℕ
  customerId : Option ℕ
  total : ℤ

/-- `create_deposit_invoice`: one live deposit for an estimate, issued at once. -/
def createDepositInvoice (company : ℕ) (number : String) (estimate : EstimateRef) (amount : ℤ) (actor : Option Text)
    (desk : DepositDesk) : Except ApiError DepositDesk :=
  if desk.db.rows.invoices.any fun i =>
      decide (desk.estimateOf i.id = some estimate.id) && i.deposit && !i.deleted && decide (i.status ≠ .void) then
    .ok desk
  else do
    refuse (estimate.customerId = none) 422 "estimate has no customer — a deposit invoice needs one"
    refuse (amount ≤ 0) 422 "deposit amount must be greater than zero"
    refuse (0 < estimate.total ∧ estimate.total < amount) 422 "deposit exceeds the estimate total"
    let id := desk.db.rows.nextId
    let payload : FinalIn :=
      { number := number, customerId := estimate.customerId, jobId := estimate.jobId
        invoiceDate := some (zone.day desk.db.now), taxRate := none, taxAmount := 0, deposit := true
        lines := [{ description := String.ofList (("Deposit — Estimate " ++ estimate.number).toList.take 500)
                    lineTotal := amount, taxable := false, category := some "Deposit".toList }]
        estimateId := some estimate.id }
    let opened := desk.opened company payload
    let db ← recalculateInvoice H opened.db id actor
    let invoice ← db.getInvoice id
    let db ← transitionInvoiceStatus H db invoice .sent actor
    return { opened with db := db }

/-! ### Runs -/

inductive InvoicingStep where
  | create (payload : FinalIn)
  | deposit (number : String) (estimate : EstimateRef) (amount : ℤ)
  | request (request : Request)

/-- A step, who makes it, and how many microseconds after the last one. -/
structure InvoicingCall where
  actor : Text
  wait : ℕ
  step : InvoicingStep

def DepositDesk.tick (desk : DepositDesk) (wait : ℕ) : DepositDesk :=
  { desk with db := { desk.db with now := desk.db.now + 1 + wait } }

def DepositDesk.step (company : ℕ) (actor : Option Text) (desk : DepositDesk) :
    InvoicingStep → Except ApiError DepositDesk
  | .create payload => do
    let (desk, _) ← createWithDeposits H zone company payload actor desk
    return desk
  | .deposit number estimate amount => createDepositInvoice H zone company number estimate amount actor desk
  | .request request => do
    let db ← request.handle H zone actor desk.db
    return { desk with db := db }

/-- Serve one call: a refused request leaves the desk alone. -/
def DepositDesk.serve (company : ℕ) (desk : DepositDesk) (call : InvoicingCall) : DepositDesk :=
  match (desk.tick call.wait).step H zone company (some call.actor) call.step with
  | .ok desk' => desk'
  | .error _ => desk.tick call.wait

/-- Any calls, one after another. -/
def DepositDesk.bill (company : ℕ) (desk : DepositDesk) (calls : List InvoicingCall) : DepositDesk :=
  calls.foldl (DepositDesk.serve H zone company) desk

/-- The step edits no line. -/
def InvoicingStep.keepsLines : InvoicingStep → Bool
  | .request (.addLine _ _) | .request (.patchLine _ _ _) | .request (.deleteLine _ _) => false
  | _ => true

/-- A call that edits no line. -/
structure DepositCall extends InvoicingCall where
  keeps : step.keepsLines = true

def DepositDesk.run (company : ℕ) (desk : DepositDesk) (calls : List DepositCall) : DepositDesk :=
  desk.bill H zone company (calls.map (·.toInvoicingCall))

end Handlers

end Gdx
