import GdxDispatch.Ledger.Rules

/-! The backfill's replay: every money event after the cutover driven through the rules again.

    Issuances first, then adjustments, then payments (one resettlement for each invoice), then
    expenses. A refusal of the period lock, or rows that do not reconcile, is caught, reported, and
    the replay goes on with the session as the raise left it. -/

namespace Gdx
open Lib

variable (H : ContentHash) (clock : ShopClock) (R : Rows)

/-- What the replay re-drives one at a time. -/
inductive ReplayItem where
  | invoice (i : Invoice)
  | adjustment (a : InvoiceAdjustment) (i : Invoice)
  | payments (i : Invoice)
  | expense (x : Expense)
  deriving DecidableEq

/-- Why an item stands in the report. -/
inductive RefusalCause where
  | raised (e : LedgerError)
  | voidHoldsPayment
  deriving DecidableEq

structure ReplayRefusal where
  item : ReplayItem
  cause : RefusalCause
  deriving DecidableEq

structure PhaseResult where
  posted : ℕ
  skipped : ℕ
  entriesCreated : ℕ
  locked : List ReplayRefusal
  refused : List ReplayRefusal
  deriving DecidableEq

def LedgerError.isPeriodLocked : LedgerError → Bool
  | .periodLocked _ _ => true
  | _ => false

/-- The errors the replay of an item catches. -/
def ReplayItem.catches : ReplayItem → LedgerError → Bool
  | _, .periodLocked _ _ => true
  | .invoice _, .issuanceComposition _ _ => true
  | .expense _, .expenseComposition _ _ => true
  | _, _ => false

def ACTOR : Option Text := some "gl_backfill".toList

/-- The rule an item is replayed through. -/
def ReplayItem.run : ReplayItem → LedgerM Unit
  | .invoice i => repostInvoiceIssuance H R i ACTOR
  | .adjustment a i =>
    match a.kind with
    | .creditMemo => postCreditMemo H clock R a i ACTOR
    | .refund => postRefund H clock R a i ACTOR
    | .creditApplied => postCreditApplication H clock R a i ACTOR
  | .payments i => resettleInvoicePayments H clock R i ACTOR none
  | .expense x => repostExpense H R x ACTOR

/-- The payments' loop does not count. -/
def ReplayItem.counted : ReplayItem → Bool
  | .payments _ => false
  | _ => true

def PhaseResult.done (r : PhaseResult) (item : ReplayItem) : PhaseResult :=
  if item.counted then { r with posted := r.posted + 1 } else r

def PhaseResult.caught (r : PhaseResult) (item : ReplayItem) (e : LedgerError) : PhaseResult :=
  if e.isPeriodLocked then { r with locked := r.locked ++ [⟨item, .raised e⟩] }
  else { r with refused := r.refused ++ [⟨item, .raised e⟩] }

/-- One item after another, each under its own `try`. No savepoint: a caught raise keeps what the
    item had written. -/
def replayEach : List ReplayItem → PhaseResult → LedgerM PhaseResult
  | [], r => return r
  | item :: items, r => fun L =>
    match item.run H clock R L with
    | .ok () L' => replayEach items (r.done item) L'
    | .error e L' =>
      if item.catches e then replayEach items (r.caught item e) L'
      else .error e L'

/-- `_company_invoices`. -/
def companyInvoices (company : ℕ) : List Invoice :=
  R.invoices.filter fun i => i.companyId == company && !i.deleted

def replayInvoices (company : ℕ) : List Invoice := (companyInvoices R company).filter (·.status ≠ .void)

/-- The adjustments of the replayed invoices with their invoice, in table order. -/
def replayAdjustments (company : ℕ) : List (InvoiceAdjustment × Invoice) :=
  R.adjustments.filterMap fun a =>
    ((replayInvoices R company).find? (·.id == a.invoiceId)).map fun i => (a, i)

/-- Inside the opening amount, so off the ledger. -/
def insideOpening (cutover : ℤ) (a : InvoiceAdjustment × Invoice) : Bool :=
  preCutoverEra R a.2 && existedAtCutover a.1.createdAt cutover

/-- Void invoices that still hold a payment that counts. -/
def voidsWithLivePayment (company : ℕ) : List Invoice :=
  (companyInvoices R company).filter fun i =>
    i.status == .void && (R.paymentsOf i).any (·.voidedAt.isNone)

def replayPayments (company : ℕ) : List Invoice :=
  replayInvoices R company ++ (voidsWithLivePayment R company).filter (!preCutoverEra R ·)

def replayExpenses (company : ℕ) (cutover : ℤ) : List Expense :=
  R.expenses.filter fun x => x.companyId == company && !decide (x.date < cutover)

def replayIssued (company : ℕ) : List Invoice :=
  (replayInvoices R company).filter fun i => decide (i.status ∈ ISSUED_STATUSES)

/-- Every item in the order the replay takes them. -/
def replayItems (company : ℕ) (cutover : ℤ) : List ReplayItem :=
  (replayIssued R company).map .invoice ++
    ((replayAdjustments R company).filter (!insideOpening R cutover ·)).map (fun a => .adjustment a.1 a.2) ++
    (replayPayments R company).map .payments ++
    (replayExpenses R company cutover).map .expense

/-- Era voids that hold a live payment are named for review and not replayed. -/
def eraVoidRefusals (company : ℕ) : List ReplayRefusal :=
  ((voidsWithLivePayment R company).filter (preCutoverEra R ·)).map fun i => ⟨.payments i, .voidHoldsPayment⟩

def entryCount (L : Ledger) (company : ℕ) : ℕ := (L.entries.filter (·.companyId == company)).length

/-- The four loops, over rows read before they start. -/
def replayPhases (company : ℕ) (cutover : ℤ) : LedgerM PhaseResult := do
  let r ← replayEach H clock R ((replayIssued R company).map .invoice) ⟨0, 0, 0, [], []⟩
  let r ← replayEach H clock R
    (((replayAdjustments R company).filter (!insideOpening R cutover ·)).map fun a => .adjustment a.1 a.2)
    { r with skipped := r.skipped + ((replayAdjustments R company).filter (insideOpening R cutover)).length }
  let r ← replayEach H clock R ((replayPayments R company).map .payments)
    { r with refused := r.refused ++ eraVoidRefusals R company }
  replayEach H clock R ((replayExpenses R company cutover).map .expense)
    { r with skipped := r.skipped + (R.expenses.filter fun x => x.companyId == company && x.date < cutover).length }

/-- Phase 2 of the backfill. -/
def runReplay (company : ℕ) : LedgerM PhaseResult := fun L =>
  if !R.ledgerPostingEnabled company then
    .error (.ledgerConfig "ledger_posting_enabled is off — replay re-drives the flag-gated posting rules") L
  else match R.cutoverDate company with
    | none => .error (.ledgerConfig "cutover_month is not set") L
    | some cutover => (do
        let r ← replayPhases H clock R company cutover
        let L' ← get
        return { r with entriesCreated := entryCount L' company - entryCount L company }) L

end Gdx
