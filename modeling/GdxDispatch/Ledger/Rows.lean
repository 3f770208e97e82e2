import GdxDispatch.Core.ShopCalendar
import GdxDispatch.Ledger.Engine

/-! The operational rows the posting rules read: settings, invoices, lines, payments, adjustments,
    expenses.

    Money columns hold two decimals, so every amount is whole cents. Stamps are instants, dates are
    day numbers. A column that is not nullable is not optional here. -/

namespace Gdx
open Lib

/-- The accounting settings of a company. -/
structure GlSettings where
  companyId : ℕ
  ledgerPostingEnabled : Bool
  cutoverMonth : Option ℤ
  paymentMethodRoleMap : List (Text × Role)
  creditReasonRoleMap : List (Text × Role)
  expenseCategoryAccountMap : List (Text × ℕ)
  revenueCategoryAccountMap : List (Text × ℕ)
  deriving DecidableEq, Repr

inductive InvoiceStatus where
  | draft | sent | paid | overdue | void
  deriving DecidableEq, Repr

structure Invoice where
  id : ℕ
  number : String
  companyId : ℕ
  customerId : Option ℕ
  jobId : Option ℕ
  status : InvoiceStatus
  invoiceDate : Option ℤ
  sentAt : Option ℤ
  createdAt : ℤ
  subtotal : ℤ
  taxRate : Option ℚ
  taxAmount : ℤ
  total : ℤ
  balanceDue : ℤ
  totalsLocked : Bool
  deleted : Bool
  locked : Bool := false
  deposit : Bool := false
  verifiedAt : Option ℤ := none
  deriving DecidableEq

structure InvoiceLine where
  id : ℕ
  invoiceId : ℕ
  description : String
  lineTotal : ℤ
  taxable : Bool
  category : Option Text
  deleted : Bool
  deriving DecidableEq, Repr

structure Payment where
  id : ℕ
  invoiceId : ℕ
  amount : ℤ
  surcharge : ℤ
  method : Text
  paymentDate : ℤ
  reference : Option Text
  voidedAt : Option ℤ
  createdAt : ℤ
  deriving DecidableEq, Repr

inductive AdjustmentKind where
  | creditMemo | refund | creditApplied
  deriving DecidableEq, Repr

structure InvoiceAdjustment where
  id : ℕ
  invoiceId : ℕ
  kind : AdjustmentKind
  amount : ℤ
  reason : Option Text
  refundMethod : Option Text
  createdAt : ℤ
  deriving DecidableEq, Repr

structure Expense where
  id : ℕ
  companyId : ℕ
  vendor : String
  amount : ℤ
  date : ℤ
  category : Text
  jobId : Option ℕ
  lines : List ℤ
  deleted : Bool
  deriving DecidableEq, Repr

/-- The operational tables. -/
structure Rows where
  settings : List GlSettings
  invoices : List Invoice
  lines : List InvoiceLine
  payments : List Payment
  adjustments : List InvoiceAdjustment
  expenses : List Expense
  nextId : ℕ
  deriving DecidableEq

/-- `get_gl_settings`. -/
def Rows.glSettings (R : Rows) (company : ℕ) : Option GlSettings :=
  R.settings.find? (·.companyId == company)

def Rows.ledgerPostingEnabled (R : Rows) (company : ℕ) : Bool :=
  (R.glSettings company).any (·.ledgerPostingEnabled)

def Rows.cutoverDate (R : Rows) (company : ℕ) : Option ℤ :=
  (R.glSettings company).bind (·.cutoverMonth)

/-- The invoice's payments, voided ones included, in table order. -/
def Rows.paymentsOf (R : Rows) (invoice : Invoice) : List Payment :=
  R.payments.filter (·.invoiceId == invoice.id)

def Rows.adjustmentsOf (R : Rows) (invoice : Invoice) : List InvoiceAdjustment :=
  R.adjustments.filter (·.invoiceId == invoice.id)

/-- `_live_invoice_lines`: not soft-deleted. -/
def Rows.liveLines (R : Rows) (invoice : Invoice) : List InvoiceLine :=
  R.lines.filter fun l => l.invoiceId == invoice.id && !l.deleted

def ISSUED_STATUSES : List InvoiceStatus := [.sent, .paid]

/-- `(s or "").strip().lower()`. -/
def stripLower (s : Text) : Text :=
  (((s.dropWhile Char.isWhitespace).reverse.dropWhile Char.isWhitespace).reverse).map Char.toLower

/-- `mapping.get(key)`. -/
def lookup {α : Type} (mapping : List (Text × α)) (key : Text) : Option α :=
  (mapping.find? (·.1 == key)).map (·.2)

def normalizePaymentMethod (method : Option Text) : Text :=
  let m := stripLower (method.getD [])
  if m = [] then "other".toList else m

def resolvePaymentMethodRole (settings : GlSettings) (method : Option Text) : Except LedgerError Role :=
  match lookup settings.paymentMethodRoleMap (normalizePaymentMethod method) with
  | some role => .ok role
  | none =>
    match lookup settings.paymentMethodRoleMap "other".toList with
    | some role => .ok role
    | none => .error (.ledgerConfig "payment_method_role_map has no \"other\" fallback entry")

/-- `_reason_role`: unmapped reasons go to refunds. -/
def reasonRole (settings : Option GlSettings) (reason : Option Text) : Role :=
  ((settings.map (·.creditReasonRoleMap)).bind fun m => lookup m (stripLower (reason.getD []))).getD .refunds

/-! ### Dates -/

/-- The issuance's economic date. -/
def Invoice.effectiveAt (invoice : Invoice) : ℤ :=
  match invoice.invoiceDate, invoice.sentAt with
  | some day, _ => day
  | none, some sentAt => utcDay sentAt
  | none, none => utcDay invoice.createdAt

/-- Opening-balance membership: the row existed on the cutover day. -/
def existedAtCutover (createdAt cutover : ℤ) : Bool := utcDay createdAt < cutover

def Payment.voidedBeforeCutover (p : Payment) (cutover : ℤ) : Bool :=
  p.voidedAt.any (utcDay · < cutover)

/-- Era membership is by date. -/
def preCutoverEra (R : Rows) (invoice : Invoice) : Bool :=
  (R.cutoverDate invoice.companyId).any (invoice.effectiveAt < ·)

/-- An era invoice's payment dated before the cutover but recorded after it. -/
def isLateEraSettlement (p : Payment) (invoiceIsEra : Bool) (cutover : Option ℤ) : Bool :=
  invoiceIsEra && cutover.any fun c => p.paymentDate < c && !existedAtCutover p.createdAt c

/-! ### Sums over rows -/

def sumCents {α : Type} (f : α → ℤ) (rows : List α) : ℤ := (rows.map f).sum

theorem sumCents_append {α : Type} (f : α → ℤ) (xs ys : List α) :
    sumCents f (xs ++ ys) = sumCents f xs + sumCents f ys := by
  simp [sumCents]

theorem sumCents_cons {α : Type} (f : α → ℤ) (x : α) (xs : List α) :
    sumCents f (x :: xs) = f x + sumCents f xs := by
  simp [sumCents]

theorem sumCents_perm {α : Type} {f : α → ℤ} {rows rows' : List α} (h : rows.Perm rows') :
    sumCents f rows = sumCents f rows' := (h.map f).sum_eq

theorem sumCents_flatMap {α β : Type} (g : α → List β) (f : β → ℤ) (rows : List α) :
    sumCents f (rows.flatMap g) = sumCents (fun x => sumCents f (g x)) rows := by
  induction rows with
  | nil => rfl
  | cons x rows ih => rw [List.flatMap_cons, sumCents_append, sumCents_cons, ih]

theorem sumCents_congr {α : Type} {f g : α → ℤ} {rows : List α} (h : ∀ x ∈ rows, f x = g x) :
    sumCents f rows = sumCents g rows := by
  unfold sumCents
  rw [List.map_congr_left h]

theorem sumCents_eq_zero {α : Type} {f : α → ℤ} {rows : List α} (h : ∀ x ∈ rows, f x = 0) :
    sumCents f rows = 0 := by
  refine List.sum_eq_zero fun x hx => ?_
  obtain ⟨y, hy, rfl⟩ := List.mem_map.mp hx
  exact h y hy

/-- The order payments were recorded in: `(created_at, str(id))`. -/
def Payment.before (q p : Payment) : Bool :=
  q.createdAt < p.createdAt || (q.createdAt == p.createdAt && decide (str q.id < str p.id))

/-- Non-voided payments recorded before this one. -/
def priorNonvoidedPaidCents (R : Rows) (invoice : Invoice) (p : Payment) : ℤ :=
  sumCents (·.amount) ((R.paymentsOf invoice).filter fun q =>
    q.voidedAt.isNone && q.id != p.id && q.before p)

/-- Balance-reducing adjustments. -/
def AdjustmentKind.reducesBalance : AdjustmentKind → Bool
  | .creditMemo => true
  | .creditApplied => true
  | .refund => false

def invoiceCreditedCents (R : Rows) (invoice : Invoice) : ℤ :=
  sumCents (·.amount) ((R.adjustmentsOf invoice).filter (·.kind.reducesBalance))

/-- The sum of the invoice's non-voided payments. -/
def paidCents (R : Rows) (invoice : Invoice) : ℤ :=
  sumCents (·.amount) ((R.paymentsOf invoice).filter (·.voidedAt.isNone))

/-- Total, less payments existing and not yet voided at the cutover, less credits existing then. -/
def openingBalanceCents (R : Rows) (invoice : Invoice) (cutover : ℤ) : ℤ :=
  invoice.total -
    sumCents (·.amount) ((R.paymentsOf invoice).filter fun p =>
      existedAtCutover p.createdAt cutover && !p.voidedBeforeCutover cutover) -
    sumCents (·.amount) ((R.adjustmentsOf invoice).filter fun a =>
      a.kind.reducesBalance && existedAtCutover a.createdAt cutover)

/-- How much of this invoice's money is overpayment. -/
def refundOverpaymentCents (R : Rows) (invoice : Invoice) : ℤ :=
  if invoice.status = .void then max (paidCents R invoice) 0
  else max (paidCents R invoice - invoice.total - invoiceCreditedCents R invoice) 0

end Gdx
