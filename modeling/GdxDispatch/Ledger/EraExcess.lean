import GdxDispatch.Ledger.Backfill

/-! What the anchor does not cover: `era_settlement_excess` and `era_settlement_shortfalls` of `modules/ledger/backfill.py`.

    The late-learned payments of an era invoice consume its opening amount in order. What a payment has beyond its part is
    its excess; the refunds that did not come out of the customer's credits return excess in the same order. -/

namespace Gdx

/-- The lines of an entry on an account that owns a role, customer credits apart. -/
def Ledger.offCreditLines (L : Ledger) (e : GlJournalEntry) : List GlJournalLine :=
  (e.lines.filter fun l => decide (0 < l.amountCents)).flatMap fun l =>
    (L.accounts.filter fun a => a.id == l.accountId && a.role.any (· ≠ .customerCredits)).map fun _ => l

/-- `_refunded_off_credit_cents`: what the invoice's live refunds paid out beyond customer credits. -/
def refundedOffCreditCents (R : Rows) (L : Ledger) (invoice : Invoice) : ℤ :=
  let refunds := (R.adjustmentsOf invoice).filter (·.kind = .refund)
  sumCents (·.amountCents) ((L.entries.filter fun e =>
    e.sourceType == "adjustment".toList && refunds.any (e.sourceId == str ·.id) && e.isPosted &&
      e.reversesEntryId.isNone).flatMap L.offCreditLines)

/-- A row of `era_settlement_excess`. -/
structure EraExcess where
  invoiceId : ℕ
  invoiceNumber : String
  paymentId : ℕ
  paymentDate : ℤ
  amountCents : ℤ
  allocatedCents : ℤ
  refundedCents : ℤ
  uncoveredCents : ℤ
  deriving DecidableEq, Repr

/-- The excess of each payment in allocation order; the refunds are handed out along the way. -/
def excessRows (invoice : Invoice) (payments : List Payment) : ℤ → List (ℕ × ℤ) → List EraExcess
  | _, [] => []
  | refundPool, (pid, allocated) :: rest =>
    match payments.find? (·.id == pid) with
    | none => excessRows invoice payments refundPool rest
    | some p =>
      if p.voidedAt.isSome ∨ p.amount - allocated ≤ 0 then excessRows invoice payments refundPool rest
      else
        let excess := p.amount - allocated
        let refunded := min excess refundPool
        { invoiceId := invoice.id
          invoiceNumber := invoice.number
          paymentId := pid
          paymentDate := p.paymentDate
          amountCents := p.amount
          allocatedCents := allocated
          refundedCents := refunded
          uncoveredCents := excess - refunded } :: excessRows invoice payments (refundPool - refunded) rest

/-- A payment that could be late: dated before the cutover, recorded no earlier than the day before it. -/
def eraCandidate (cutover : ℤ) (p : Payment) : Bool :=
  decide (p.paymentDate < cutover) && decide ((cutover - 1) * DAY ≤ p.createdAt)

/-- The rows of one invoice. -/
def invoiceExcess (R : Rows) (L : Ledger) (cutover : ℤ) (invoice : Invoice) : List EraExcess :=
  if !(R.payments.any fun p => eraCandidate cutover p && p.invoiceId == invoice.id) ∨
      invoice.status ∉ ISSUED_STATUSES ∨ preCutoverEra R invoice = false then []
  else
    excessRows invoice (R.paymentsOf invoice) (refundedOffCreditCents R L invoice) (lateEraAllocation R invoice cutover)

/-- `era_settlement_excess`. -/
def eraSettlementExcess (R : Rows) (L : Ledger) (company : ℕ) : List EraExcess :=
  match R.cutoverDate company with
  | none => []
  | some cutover => (companyInvoices R company).flatMap (invoiceExcess R L cutover)

/-- `era_settlement_shortfalls`. -/
def eraSettlementShortfalls (R : Rows) (L : Ledger) (company : ℕ) : List EraExcess :=
  (eraSettlementExcess R L company).filter fun r => decide (0 < r.uncoveredCents)

end Gdx
