import GdxDispatch.Lib.Changes
import GdxDispatch.Ledger.Money
import GdxDispatch.Ledger.Reports
import GdxDispatch.Ledger.Rules

/-! Cash-basis revenue, derived at report time.

    The books are accrual. The cash report walks each invoice's cash events in the order of their dates, recognises the
    running total between zero and the invoice's total, and prorates what each event changes over the credit legs that
    P1 posts for the invoice. An invoice whose lines do not reconcile is left out and named. -/

namespace Gdx

open Lib

variable (clock : ShopClock) (R : Rows) (L : Ledger)

/-- One credit-side slice of an invoice: a revenue line, the tax mirror, or the rounding residual. -/
structure RevenueComponent where
  cents : ℤ
  role : Option Role
  accountId : Option ℕ
  memo : Option String
  deriving DecidableEq, Repr

/-- What a report may raise. -/
inductive ReportError where
  | ledger (e : LedgerError)
  | money (e : MoneyError)
  deriving DecidableEq, Repr

/-- The credit legs of a line set, as positive weights. -/
def creditComponents (lines : List PostingLine) : List RevenueComponent :=
  (lines.filter (·.amountCents < 0)).map fun line => ⟨-line.amountCents, line.role, line.accountId, line.memo⟩

/-- `invoice_components`: the split P1 posts with. -/
def invoiceComponents (invoice : Invoice) : Except LedgerError (List RevenueComponent) :=
  (buildIssuanceLines R L invoice).map creditComponents

/-- `prorate_event_cents`: at most the invoice's total, in either direction. -/
def prorateEventCents (components : List ℤ) (eventCents invoiceTotalCents : ℤ) : Except MoneyError (List ℤ) :=
  if invoiceTotalCents ≤ 0 ∨ components = [] then .ok (components.map fun _ => 0)
  else
    let recognized :=
      if eventCents ≥ 0 then min eventCents invoiceTotalCents else max eventCents (-invoiceTotalCents)
    if recognized = 0 then .ok (components.map fun _ => 0)
    else allocate recognized (components.map fun c : ℤ => (c : ℚ))

/-- The event name of an adjustment. -/
def AdjustmentKind.text : AdjustmentKind → Text
  | .creditMemo => "credit_memo".toList
  | .refund => "refund".toList
  | .creditApplied => "credit_applied".toList

/-- A plain credit memo moves no cash. -/
def AdjustmentKind.movesCash : AdjustmentKind → Bool
  | .creditMemo => false
  | .refund => true
  | .creditApplied => true

/-- `_cash_events`: payments, refunds and applied credits, dated and signed, in the order of their dates. -/
def cashEvents (invoice : Invoice) : List (ℤ × ℤ) :=
  let paid := ((R.paymentsOf invoice).filter (·.voidedAt.isNone)).map fun p => (p.paymentDate, p.amount)
  let adjusted := ((R.adjustmentsOf invoice).filter (·.kind.movesCash)).map fun a =>
    (shopEffectiveAt clock L "adjustment".toList (str a.id) a.kind.text a.createdAt,
      if a.kind = .refund then -a.amount else a.amount)
  (paid ++ adjusted).insertionSort fun e e' => e.1 ≤ e'.1

/-- The running total, kept between zero and the invoice's total. -/
def recognizedCents (totalCents cumulative : ℤ) : ℤ := min (max cumulative 0) totalCents

/-- What the walk of one invoice recognises, and whether the invoice was skipped. -/
structure CashWalk where
  parts : List (RevenueComponent × ℤ)
  skipped : Bool
  deriving DecidableEq, Repr

/-- The walk over the events. The components are built when the first change falls inside the window; lines that do not
    reconcile end the walk. -/
def walkEvents (build : Except LedgerError (List RevenueComponent)) (totalCents start stop : ℤ) :
    ℤ → ℤ → List (ℤ × ℤ) → Except ReportError CashWalk
  | _, _, [] => .ok ⟨[], false⟩
  | cumulative, recognizedPrev, (when', amount) :: events =>
    let recognizedNow := recognizedCents totalCents (cumulative + amount)
    let delta := recognizedNow - recognizedPrev
    if delta = 0 ∨ when' < start ∨ when' > stop then
      walkEvents build totalCents start stop (cumulative + amount) recognizedNow events
    else match build with
      | .error (.issuanceComposition _ _) => .ok ⟨[], true⟩
      | .error e => .error (.ledger e)
      | .ok [] => .ok ⟨[], false⟩
      | .ok components =>
        match prorateEventCents (components.map (·.cents)) delta totalCents with
        | .error e => .error (.money e)
        | .ok parts =>
          match walkEvents build totalCents start stop (cumulative + amount) recognizedNow events with
          | .error e => .error e
          | .ok walk => .ok ⟨components.zip parts ++ walk.parts, walk.skipped⟩

/-- The walk of one invoice. -/
def invoiceWalk (start stop : ℤ) (invoice : Invoice) : Except ReportError CashWalk :=
  if invoice.total ≤ 0 then .ok ⟨[], false⟩
  else walkEvents (invoiceComponents R L invoice) invoice.total start stop 0 0 (cashEvents clock R L invoice)

/-- The account a component is recognised on. -/
def componentAccount (company : ℕ) (c : RevenueComponent) : Except LedgerError (Option GlAccount) :=
  match c.accountId, c.role with
  | some id, _ => .ok (L.accountById id)
  | none, some role => (resolveRoleAccount L company role).map some
  | none, none => .error (.ledgerConfig "unknown ledger account role")

/-- The bucket rows of a walk, credits negative; a part of zero cents has none. -/
def bucketRows (company : ℕ) : List (RevenueComponent × ℤ) → Except ReportError (List (GlAccount × ℤ))
  | [] => .ok []
  | (c, part) :: parts =>
    if part = 0 then bucketRows company parts
    else match componentAccount L company c with
      | .error e => .error (.ledger e)
      | .ok account =>
        match bucketRows company parts with
        | .error e => .error e
        | .ok rows => .ok (account.toList.map (fun a => (a, -part)) ++ rows)

def SKIP_REASON : String :=
  "total doesn't reconcile with live lines + tax beyond rounding — excluded from cash-basis revenue"

/-- An invoice the report leaves out. -/
structure SkippedInvoice where
  invoiceNumber : String
  reason : String
  deriving DecidableEq, Repr

structure CashRevenue where
  buckets : List (GlAccount × ℤ)
  skipped : List SkippedInvoice
  deriving DecidableEq

/-- The company's invoices that are neither deleted, void nor draft. -/
def reportedInvoices (company : ℕ) : List Invoice :=
  R.invoices.filter fun i => i.companyId == company && !i.deleted && i.status != .void && i.status != .draft

/-- The rows of one invoice after another. -/
def cashRows (company : ℕ) (start stop : ℤ) :
    List Invoice → Except ReportError (List (GlAccount × ℤ) × List SkippedInvoice)
  | [] => .ok ([], [])
  | invoice :: invoices =>
    match invoiceWalk clock R L start stop invoice with
    | .error e => .error e
    | .ok walk =>
      match bucketRows L company walk.parts with
      | .error e => .error e
      | .ok rows =>
        match cashRows company start stop invoices with
        | .error e => .error e
        | .ok (rest, skipped) =>
          .ok (rows ++ rest, (if walk.skipped then [⟨invoice.number, SKIP_REASON⟩] else []) ++ skipped)

/-- `cash_revenue_by_account`. -/
def cashRevenueByAccount (company : ℕ) (start stop : ℤ) : Except ReportError CashRevenue :=
  (cashRows clock R L company start stop (reportedInvoices R company)).map fun (rows, skipped) =>
    ⟨sumByAccount rows, skipped⟩

/-- What the buckets recognise on an account, credit positive. -/
def recognizedOn (buckets : List (GlAccount × ℤ)) (accountId : ℕ) : ℤ :=
  weighted (fun a => if a.id = accountId then -1 else 0) buckets

/-- Everything a walk recognises. -/
def recognizedTotal (walk : CashWalk) : ℤ := sumCents (·.2) walk.parts

end Gdx
