import Mathlib.Data.List.Sort
import GdxDispatch.Ledger.Rules

/-! Customer statements: `services/customer_statements.py`.

    How much of an invoice is settled is its total less its balance. Payments, credit memos and applied credits only
    say when: they are counted in date order up to the settled amount, less what the ledger holds of a payment as
    credit on account, and a shortfall becomes one entry without detail. The statement slices invoices and entries by
    day into what came before the range and what is in it.

    Left out: the customer's name and address, job titles, pay links and the card notice, and the labels of the rows. -/

namespace Gdx

open Lib

/-! ### Ranges -/

structure StatementRange where
  start : ℤ
  finish : ℤ

inductive StatementPreset where
  | last30
  | last60
  | last90
  | ytd
  | year (year : ℤ)
  | unknown (key : String)

/-- The day number of January 1st. -/
def newYear (year : ℤ) : ℤ := 365 * (year - 1970) + (year - 1) / 4 - (year - 1) / 100 + (year - 1) / 400 - 477

example : (civil (newYear 2026)) = (2026, 1, 1) ∧ civil (newYear 2024 + 365) = (2024, 12, 31) := by decide +kernel

/-- January 1st 2026. -/
def STATEMENT_EARLIEST : ℤ := newYear 2026

def rangeOfPreset (today : ℤ) : StatementPreset → Except String StatementRange
  | .last30 => .ok ⟨max (today - 29) STATEMENT_EARLIEST, today⟩
  | .last60 => .ok ⟨max (today - 59) STATEMENT_EARLIEST, today⟩
  | .last90 => .ok ⟨max (today - 89) STATEMENT_EARLIEST, today⟩
  | .ytd => .ok ⟨max (newYear (civil today).1) STATEMENT_EARLIEST, today⟩
  | .year year =>
    if year < 2026 ∨ (civil today).1 ≤ year then .error "year presets are completed years from 2026"
    else .ok ⟨newYear year, newYear (year + 1) - 1⟩
  | .unknown key => .error ("unknown preset '" ++ key ++ "'")

/-- `resolve_range`: an explicit range is checked, a preset is cut to the floor and today. -/
def resolveRange (today : ℤ) (preset : Option StatementPreset) (start finish : Option ℤ) : Except String StatementRange :=
  match start, finish with
  | none, none => rangeOfPreset today (preset.getD .last90)
  | some start, some finish =>
    if start < STATEMENT_EARLIEST then .error ("statements start on " ++ isoformat STATEMENT_EARLIEST ++ " or later")
    else if today < finish then .error "a statement cannot end after today"
    else if finish < start then .error "the end date is before the start date"
    else .ok ⟨start, finish⟩
  | _, _ => .error "a custom range needs both a start and an end"

/-! ### Rows -/

/-- An invoice with the two columns only a statement reads. -/
structure StatementInvoice extends Invoice where
  dueDate : Option ℤ
  paidAt : Option ℤ

/-- What a statement is built from: the company of the customer, the shop's rows, its ledger, zone and day. -/
structure StatementBook where
  company : ℕ
  invoices : List StatementInvoice
  payments : List Payment
  adjustments : List InvoiceAdjustment
  postingEnabled : Bool
  ledger : Ledger
  zone : ShopZone
  today : ℤ

/-- `_day_of_stamp`: a stamp at midnight UTC is a date, any other is read on the shop's calendar. -/
def dayOfStamp (zone : ShopZone) (stamp : ℤ) : ℤ := if stamp % DAY = 0 then utcDay stamp else zone.day stamp

/-- `_aging_bucket`. -/
inductive AgingBucket where
  | current
  | days1To30
  | days31To60
  | days61To90
  | over90
  deriving DecidableEq

def agingBucket : Option ℤ → AgingBucket
  | none => .current
  | some days =>
    if days ≤ 0 then .current
    else if days ≤ 30 then .days1To30
    else if days ≤ 60 then .days31To60
    else if days ≤ 90 then .days61To90
    else .over90

/-- What a counted entry was. -/
inductive SettlementKind where
  | payment
  | creditMemo
  | creditApplied
  | unrecorded
  deriving DecidableEq

/-- A settlement record of an invoice. -/
structure SettlementRecord where
  day : ℤ
  createdAt : ℤ
  id : ℕ
  amount : ℤ
  kind : SettlementKind
  method : Option Text

/-- `_Entry`. The note says what was received and what of it is held as credit. -/
structure StatementEntry where
  day : ℤ
  amount : ℤ
  kind : SettlementKind
  invoiceNumber : String
  method : Option Text := none
  note : Option String := none

/-- `_InvoiceState`. -/
structure InvoiceState where
  invoice : StatementInvoice
  day : ℤ
  settled : ℤ
  records : List SettlementRecord
  counted : List StatementEntry
  remainder : Option StatementEntry
  anomalous : Bool

/-! ### Ledger reads -/

/-- The lines on one account of the entries sourced from a payment, whatever their status. -/
def creditLines (L : Ledger) (account : ℕ) (payment : ℕ) : List GlJournalLine :=
  (L.entries.filter fun e => e.hasSource "payment".toList (str payment)).flatMap fun e =>
    e.lines.filter fun l => l.accountId == account

/-- `_recognised_overpayments`, per payment: 2300 is credit-normal, so what is held is stored negative. -/
def heldByPayment (L : Ledger) (company payment : ℕ) : ℤ :=
  match resolveRoleAccount L company .customerCredits with
  | .error _ => 0
  | .ok account => -sumCents (·.amountCents) (creditLines L account.id payment)

/-- `_recognised_overpayments`, per invoice: over all its payments, voided ones included. -/
def recognised (L : Ledger) (company : ℕ) (payments : List Payment) : ℤ :=
  sumCents (fun p => heldByPayment L company p.id) payments

/-- `_credit_on_account`. -/
def creditOnAccount (book : StatementBook) (customer : ℕ) : ℤ :=
  if book.postingEnabled then
    match customerCreditBalanceCents book.ledger book.company (some customer) with
    | .error _ => 0
    | .ok cents => if 0 < cents then cents else 0
  else 0

/-! ### Settlement -/

/-- Thousands separated by commas, from the right. -/
def commas (digits : List Char) : List Char :=
  (digits.reverse.zipIdx.map fun (c, i) => if i % 3 = 0 ∧ i ≠ 0 then [',', c] else [c]).flatten.reverse

/-- `format_money`, of cents. -/
def formatMoney (cents : ℤ) : String :=
  let body := String.ofList (commas (numeral (cents.natAbs / 100))) ++ "." ++ padded 2 (cents.natAbs % 100 : ℕ)
  if cents < 0 then "-$" ++ body else "$" ++ body

example : formatMoney 123456789 = "$1,234,567.89" ∧ formatMoney (-505) = "-$5.05" := by decide +kernel

/-- The records of an invoice: its live payments, credit memos and applied credits, none after today. -/
def StatementBook.records (book : StatementBook) (inv : StatementInvoice) : List SettlementRecord :=
  ((book.payments.filter fun p => p.invoiceId == inv.id && p.voidedAt.isNone).map fun p =>
    ⟨min p.paymentDate book.today, p.createdAt, p.id, p.amount, .payment, some p.method⟩) ++
  (book.adjustments.filter fun a => a.invoiceId == inv.id).filterMap fun a =>
    let day := min (dayOfStamp book.zone a.createdAt) book.today
    match a.kind with
    | .refund => none
    | .creditMemo => some ⟨day, a.createdAt, a.id, a.amount, .creditMemo, none⟩
    | .creditApplied => some ⟨day, a.createdAt, a.id, a.amount, .creditApplied, none⟩

/-- The order records are counted in. The texts of UUIDs are ordered as their numbers. -/
def SettlementRecord.before (r r' : SettlementRecord) : Bool :=
  decide (r.day < r'.day) || (decide (r.day = r'.day) &&
    (decide (r.createdAt < r'.createdAt) || (decide (r.createdAt = r'.createdAt) && decide (r.id ≤ r'.id))))

/-- What the ledger holds of a record as credit on account. -/
def SettlementRecord.held (holds : ℕ → ℤ) (r : SettlementRecord) : ℤ :=
  if r.kind = .payment then max (min (holds r.id) r.amount) 0 else 0

/-- The running count over the records of an invoice. -/
structure Counting where
  remaining : ℤ
  counted : List StatementEntry := []
  latestNonzero : Option ℤ := none

/-- One record is counted, up to what remains. -/
def Counting.record (holds : ℕ → ℤ) (number : String) (c : Counting) (r : SettlementRecord) : Counting :=
  let held := r.held holds
  let take := if 0 < c.remaining then min (r.amount - held) c.remaining else 0
  let latest := if r.amount ≠ 0 then some r.day else c.latestNonzero
  let note := if 0 < held then
    some (formatMoney r.amount ++ " received; " ++ formatMoney held ++ " held as credit on account") else none
  if 0 < take ∨ 0 < held then
    ⟨c.remaining - take, c.counted ++ [⟨r.day, take, r.kind, number, r.method, note⟩], latest⟩
  else { c with latestNonzero := latest }

/-- Half a cent, so that an amount in cents is above it when it is positive. -/
def aboveTolerance (cents : ℤ) : Bool := 1 < 2 * cents

/-- The state of an invoice. -/
def StatementBook.state (book : StatementBook) (inv : StatementInvoice) : InvoiceState :=
  let day := min (inv.invoiceDate.getD (dayOfStamp book.zone inv.createdAt)) book.today
  let settled := max (inv.total - inv.balanceDue) 0
  let records := (book.records inv).mergeSort SettlementRecord.before
  let holds := heldByPayment book.ledger book.company
  let final := records.foldl (Counting.record holds inv.number) { remaining := settled }
  let remainder : Option StatementEntry :=
    if aboveTolerance final.remaining then
      let paid := (inv.paidAt.map (dayOfStamp book.zone)).or final.latestNonzero
      some { day := min (paid.getD day) book.today, amount := final.remaining, kind := .unrecorded, invoiceNumber := inv.number }
    else none
  let excess := sumCents (·.amount) records - settled -
    recognised book.ledger book.company (book.payments.filter fun p => p.invoiceId == inv.id)
  { invoice := inv
    day := day
    settled := settled
    records := records
    counted := final.counted ++ remainder.toList
    remainder := remainder
    anomalous := aboveTolerance |excess| || records.any fun r => decide (r.amount < 0) }

/-! ### The statement -/

structure OpenRow where
  invoiceId : ℕ
  invoiceNumber : String
  day : ℤ
  total : ℤ
  balance : ℤ
  daysPastDue : Option ℤ

structure PeriodRow where
  invoiceId : ℕ
  invoiceNumber : String
  day : ℤ
  total : ℤ
  paid : ℤ
  balance : ℤ

structure RefundRow where
  day : ℤ
  invoiceNumber : String
  amount : ℤ
  method : Option Text

inductive StatementWarning where
  | recordsDontAddUp (invoiceId : ℕ) (invoiceNumber : String)
  | paymentOnDraft (invoiceId : ℕ) (invoiceNumber : String)

structure CustomerStatement where
  range : StatementRange
  endsToday : Bool
  totalUnpaid : ℤ
  aging : AgingBucket → ℤ
  creditOnAccount : ℤ
  openInvoices : List OpenRow
  previousBalance : ℤ
  invoices : List PeriodRow
  invoiced : ℤ
  paymentsAndCredits : List StatementEntry
  paymentsAndCreditsTotal : ℤ
  refunds : List RefundRow
  endingBalance : ℤ
  warnings : List StatementWarning

/-- The invoices a statement of the customer shows. -/
def StatementBook.shown (book : StatementBook) (customer : ℕ) : List StatementInvoice :=
  book.invoices.filter fun inv =>
    inv.customerId == some customer && !inv.deleted && inv.status != .draft && inv.status != .void

def StatementBook.states (book : StatementBook) (customer : ℕ) : List InvoiceState :=
  (book.shown customer).map book.state

/-- By day, then by invoice number. -/
def byDayAndNumber {α : Type} (day : α → ℤ) (number : α → String) (rows : List α) : List α :=
  rows.mergeSort fun a b => decide (day a < day b) || (decide (day a = day b) && decide (number a ≤ number b))

def InvoiceState.daysPastDue (today : ℤ) (st : InvoiceState) : Option ℤ := st.invoice.dueDate.map (today - ·)

/-- The totals of the open invoices, one invoice at a time. -/
def countOpen (today : ℤ) (acc : ℤ × (AgingBucket → ℤ)) (st : InvoiceState) : ℤ × (AgingBucket → ℤ) :=
  let balance := st.invoice.balanceDue
  let bucket := agingBucket (st.daysPastDue today)
  if balance ≤ 0 then acc
  else (acc.1 + balance, fun b => if b = bucket then acc.2 b + balance else acc.2 b)

def InvoiceState.openRow (today : ℤ) (st : InvoiceState) : Option OpenRow :=
  if st.invoice.balanceDue ≤ 0 then none
  else some ⟨st.invoice.id, st.invoice.number, st.day, st.invoice.total, st.invoice.balanceDue,
    (st.daysPastDue today).map (max · 0)⟩

/-- An anomalous invoice that can move a figure of the range. -/
def InvoiceState.reaches (start : ℤ) (st : InvoiceState) : Bool :=
  decide (start ≤ st.day) || (st.records.any fun r => decide (start ≤ r.day) && decide (r.amount ≠ 0)) ||
    st.remainder.any fun e => decide (start ≤ e.day)

/-- The draft invoices of the customer that carry a live payment. -/
def StatementBook.paidDrafts (book : StatementBook) (customer : ℕ) : List StatementInvoice :=
  book.invoices.filter fun inv =>
    inv.customerId == some customer && !inv.deleted && inv.status == .draft && !inv.deposit &&
      book.payments.any fun p => p.invoiceId == inv.id && p.voidedAt.isNone

/-- `build_statement`. -/
def buildStatement (book : StatementBook) (customer : ℕ) (rng : StatementRange) : CustomerStatement :=
  let states := book.states customer
  let entries := states.flatMap (·.counted)
  let dated := byDayAndNumber (·.day) (·.invoiceNumber) entries
  let ordered := byDayAndNumber (·.day) (·.invoice.number) states
  let (totalUnpaid, aging) := ordered.foldl (countOpen book.today) (0, fun _ => 0)
  let inside := states.filter fun st => !decide (st.day < rng.start) && decide (st.day ≤ rng.finish)
  let invoicedBefore := sumCents (·.invoice.total) (states.filter fun st => decide (st.day < rng.start))
  let paidBefore := sumCents (·.amount) (dated.filter fun e => decide (e.day < rng.start))
  let paidInside := dated.filter fun e => !decide (e.day < rng.start) && decide (e.day ≤ rng.finish)
  let invoiced := sumCents (·.invoice.total) inside
  let inPeriod := sumCents (·.amount) paidInside
  let refunds := (book.adjustments.filter fun a =>
      a.kind == .refund && (book.shown customer).any fun inv => inv.id == a.invoiceId).filterMap fun a =>
    let day := min (dayOfStamp book.zone a.createdAt) book.today
    if rng.start ≤ day ∧ day ≤ rng.finish then
      some ⟨day, (((book.shown customer).find? fun inv => inv.id == a.invoiceId).map (·.number)).getD "", a.amount, a.refundMethod⟩
    else none
  { range := rng
    endsToday := rng.finish == book.today
    totalUnpaid := totalUnpaid
    aging := aging
    creditOnAccount := Gdx.creditOnAccount book customer
    openInvoices := ordered.filterMap (·.openRow book.today)
    previousBalance := invoicedBefore - paidBefore
    invoices := byDayAndNumber (·.day) (·.invoiceNumber) (inside.map fun st =>
      ⟨st.invoice.id, st.invoice.number, st.day, st.invoice.total, st.settled, st.invoice.balanceDue⟩)
    invoiced := invoiced
    paymentsAndCredits := paidInside
    paymentsAndCreditsTotal := inPeriod
    refunds := refunds.mergeSort fun a b => decide (a.day ≤ b.day)
    endingBalance := invoicedBefore - paidBefore + invoiced - inPeriod
    warnings :=
      ((byDayAndNumber (fun _ => 0) (·.number) (book.paidDrafts customer)).map
        fun inv => .paymentOnDraft inv.id inv.number) ++
      (byDayAndNumber (fun _ => 0) (·.invoice.number) (states.filter fun st => st.anomalous && st.reaches rng.start)).map
        fun st => .recordsDontAddUp st.invoice.id st.invoice.number }

end Gdx
