import GdxDispatch.Lib.Words
import GdxDispatch.Ledger.Rules
import GdxDispatch.Vendors.Models

/-! Vendor bills after intake: `modules/vendor_invoices/confirm.py` and `payments.py`.

    Confirming a line routes it: to a job (an expense and, for an item, a part on the job's checklist), to stock, to
    overhead, or nowhere. Reversing takes the line's own effects back. Payments settle a bill, and a settled bill's
    expenses are dated by its last payment: recording and voiding payments re-dates them and reposts them.

    A call reads and writes in one transaction; a call that raises leaves nothing. Left out: the document of a bill,
    the stamps of who confirmed and when, review marks, and the texts of stock adjustments. One company owns the
    books. -/

namespace Gdx
open Lib

/-! ### Rows -/

inductive LineKind where
  | item
  | freight
  | tax
  deriving DecidableEq

inductive Disposition where
  | pending
  | job
  | stock
  | overhead
  | skip
  deriving DecidableEq

/-- A line of a bill. The quantity is in hundredths and the unit cost in hundredths of a cent. -/
structure VendorInvoiceLine where
  id : ℕ
  vendorInvoiceId : ℕ
  lineNo : Option ℕ
  kind : LineKind
  description : String
  quantity : ℤ
  unitCost : ℤ
  lineTotal : ℤ
  disposition : Disposition
  skipReason : Option Text
  jobId : Option ℕ
  inventoryItemId : Option ℕ
  expenseId : Option ℕ
  jobPartNeededId : Option ℕ
  stockAdjustmentId : Option ℕ
  confirmed : Bool
  deriving DecidableEq

inductive PaymentSource where
  | manual
  | statementMatch
  | statementDiff
  | other
  deriving DecidableEq

structure VendorBillPayment where
  id : ℕ
  vendorInvoiceId : ℕ
  amount : ℤ
  paidDate : Option ℤ
  source : PaymentSource
  matchId : Option ℕ
  voided : Bool
  deriving DecidableEq

/-- An expense row with its source column. -/
structure BillExpense extends Expense where
  source : Text
  deriving DecidableEq

structure JobRow where
  id : ℕ
  deleted : Bool
  deriving DecidableEq

structure JobPartNeeded where
  id : ℕ
  jobId : ℕ
  partName : String
  quantity : ℤ
  supplier : Text
  source : Text
  notes : Option Text
  billedInvoiceId : Option ℕ
  deriving DecidableEq

structure InventoryItem where
  id : ℕ
  quantity : Option ℤ
  unitCost : ℤ
  deriving DecidableEq

structure StockAdjustment where
  id : ℕ
  itemId : ℕ
  quantityDelta : ℤ
  deriving DecidableEq

/-- The tables behind the bills of one company. `nextId` is the supply of fresh ids. -/
structure BillDesk where
  company : ℕ
  settings : Rows
  bills : List VendorInvoice
  lines : List VendorInvoiceLine
  payments : List VendorBillPayment
  expenses : List BillExpense
  ledger : Ledger
  jobs : List JobRow
  parts : List JobPartNeeded
  items : List InventoryItem
  adjustments : List StockAdjustment
  nextId : ℕ

inductive BillError where
  | notFound
  | confirm (message : String)
  | wholeUnits (quantity : ℤ)
  | lineBilled (lineNo : Option ℕ)
  | payment (code : String)
  | ledger (e : LedgerError)
  deriving DecidableEq

/-- A ledger call inside a request: what it raises is raised on. -/
def viaLedger {α : Type} (x : LedgerM α) (L : Ledger) : Except BillError (α × Ledger) :=
  match x L with
  | .ok a L' => .ok (a, L')
  | .error e _ => .error (.ledger e)

def BillDesk.bill (desk : BillDesk) (id : ℕ) : Option VendorInvoice := desk.bills.find? (·.id == id)

/-- A line of the bill, by id. -/
def BillDesk.lineOf (desk : BillDesk) (bill line : ℕ) : Option VendorInvoiceLine :=
  desk.lines.find? fun l => l.vendorInvoiceId == bill && l.id == line

def BillDesk.expense (desk : BillDesk) (id : ℕ) : Option BillExpense := desk.expenses.find? (·.id == id)

def BillDesk.setLine (desk : BillDesk) (id : ℕ) (f : VendorInvoiceLine → VendorInvoiceLine) : BillDesk :=
  { desk with lines := desk.lines.map fun l => if l.id = id then f l else l }

def BillDesk.setPart (desk : BillDesk) (id : ℕ) (f : JobPartNeeded → JobPartNeeded) : BillDesk :=
  { desk with parts := desk.parts.map fun p => if p.id = id then f p else p }

/-! ### Settlement -/

/-- `live_payments`. -/
def BillDesk.livePayments (desk : BillDesk) (bill : ℕ) : List VendorBillPayment :=
  desk.payments.filter fun p => p.vendorInvoiceId == bill && !p.voided

/-- `paid_total`. -/
def BillDesk.paidTotal (desk : BillDesk) (bill : ℕ) : ℤ := sumCents (·.amount) (desk.livePayments bill)

/-- `open_balance`. -/
def BillDesk.openBalance (desk : BillDesk) (bill : VendorInvoice) : ℤ := bill.total - desk.paidTotal bill.id

/-- The status `recompute_status` derives: void is sticky. -/
def BillDesk.derivedStatus (desk : BillDesk) (bill : VendorInvoice) : BillStatus :=
  if bill.status = .void then .void
  else if 0 < bill.total ∧ bill.total ≤ desk.paidTotal bill.id then .paid
  else .opened

/-- `recompute_status`. -/
def BillDesk.recomputeStatus (desk : BillDesk) (id : ℕ) : BillDesk :=
  { desk with bills := desk.bills.map fun b => if b.id = id then { b with status := desk.derivedStatus b } else b }

/-- `settled_date`: the latest payment date of a bill that is covered, when every live payment is dated. -/
def BillDesk.settledDate (desk : BillDesk) (bill : VendorInvoice) : Option ℤ :=
  let payments := desk.livePayments bill.id
  if bill.total ≤ 0 ∨ sumCents (·.amount) payments < bill.total then none
  else
    let dated := payments.filterMap (·.paidDate)
    if dated.length ≠ payments.length then none else dated.max?

/-- `effective_expense_date`. -/
def BillDesk.effectiveExpenseDate (desk : BillDesk) (today : ℤ) (bill : VendorInvoice) : ℤ :=
  (desk.settledDate bill).getD (bill.invoiceDate.getD today)

/-! ### Expenses on the books -/

def EXPENSE_SOURCE : Text := "vendor_invoice".toList

section Posting
variable (H : ContentHash)

/-- P5: `post_expense_recorded`. -/
def postExpenseRecorded (R : Rows) (expense : Expense) : LedgerM Unit := fun L =>
  if !R.ledgerPostingEnabled expense.companyId then .ok () L
  else match buildExpenseLines R L expense with
    | .error e => .error e L
    | .ok [] => .ok () L
    | .ok lines => (do let _ ← postForEvent H (expenseEvent expense lines none) false) L

/-- A date before the cutover belongs to the books before these. -/
def beforeCutover (R : Rows) (company : ℕ) (date : ℤ) : Bool := (R.cutoverDate company).any (date < ·)

/-- `_post_expense_to_ledger`. -/
def postExpenseToLedger (R : Rows) (expense : Expense) : LedgerM Unit := fun L =>
  if beforeCutover R expense.companyId expense.date then .ok () L else postExpenseRecorded H R expense L

/-- `_posted_entries`: reversals are posted too, and are not among these. -/
def postedEntries (L : Ledger) (expense : Expense) : List GlJournalEntry :=
  L.entries.filter fun e => e.companyId == expense.companyId && e.hasSource "expense".toList (str expense.id) &&
    e.isPosted && e.reversesEntryId.isNone

/-- A reversal at the entry's own date, or today when that period is locked. -/
def reverseLockTolerant (today : ℤ) (actor : Option Text) (entry : GlJournalEntry) : LedgerM Unit := fun L =>
  match reverseEntry entry.id none actor false L with
  | .ok _ L' => .ok () L'
  | .error (.periodLocked _ _) L' => (do let _ ← reverseEntry entry.id (some today) actor false) L'
  | .error e L' => .error e L'

/-- The ledger side of re-dating one expense, whose date is already the target. -/
def repostRedated (R : Rows) (today : ℤ) (prior : List GlJournalEntry) (expense : Expense) : LedgerM Unit := fun L =>
  if beforeCutover R expense.companyId expense.date then each (reverseLockTolerant today none) prior L
  else match repostExpense H R expense none L with
    | .error (.periodLocked lockDate effectiveAt) L' =>
      -- The new entry may have landed before the reversal of the old one was refused.
      let fresh := (postedEntries L' expense).filter fun e =>
        decide (e.effectiveAt = expense.date) && prior.all fun p => e.id != p.id
      if fresh.isEmpty then .error (.periodLocked lockDate effectiveAt) L'
      else each (fun p => do
        let L ← get
        if (L.entryById p.id).any (·.isPosted) then
          let _ ← reverseEntry p.id (some expense.date) none false) prior L'
    | result => result

/-- One expense of the bill is re-dated and reposted. -/
def BillDesk.syncExpense (today target : ℤ) (desk : BillDesk) (id : ℕ) : Except BillError BillDesk :=
  match desk.expense id with
  | none => .ok desk
  | some x =>
    if x.deleted then .ok desk
    else if x.source ≠ EXPENSE_SOURCE ∨ x.date = target then .ok desk
    else do
      let (_, L) ← viaLedger (repostRedated H desk.settings today (postedEntries desk.ledger x.toExpense)
        { x.toExpense with date := target }) desk.ledger
      return { desk with
        ledger := L
        expenses := desk.expenses.map fun y => if y.id = id then { y with date := target } else y }

/-- `sync_expense_dates`. -/
def BillDesk.syncExpenseDates (today : ℤ) (bill : VendorInvoice) (desk : BillDesk) : Except BillError BillDesk :=
  ((desk.lines.filter fun l => l.vendorInvoiceId == bill.id).filterMap (·.expenseId)).foldlM
    (BillDesk.syncExpense H today (desk.effectiveExpenseDate today bill)) desk

/-! ### Payments -/

structure PaymentRequest where
  billId : ℕ
  amount : ℤ
  paidDate : Option ℤ
  source : PaymentSource
  matchId : Option ℕ
  deriving DecidableEq

/-- `record_payment`. -/
def recordBillPayment (today : ℤ) (req : PaymentRequest) (desk : BillDesk) : Except BillError BillDesk :=
  match desk.bill req.billId with
  | none => .error .notFound
  | some bill =>
    if req.source = .other then .error (.payment "invalid_source")
    else if bill.status = .void then .error (.payment "bill_void")
    else if req.amount ≤ 0 then .error (.payment "amount_not_positive")
    else if desk.openBalance bill < req.amount then .error (.payment "over_open_balance")
    else
      let payment : VendorBillPayment := ⟨desk.nextId, bill.id, req.amount, req.paidDate, req.source, req.matchId, false⟩
      ({ desk with payments := desk.payments ++ [payment], nextId := desk.nextId + 1 }.recomputeStatus bill.id
        ).syncExpenseDates H today bill

/-- `void_payment`. A payment of a confirmed match is voided by unconfirming the match. -/
def voidBillPayment (today : ℤ) (matchConfirmed : ℕ → Bool) (viaUnconfirm : Bool) (id : ℕ) (desk : BillDesk) :
    Except BillError BillDesk :=
  match desk.payments.find? (·.id == id) with
  | none => .error .notFound
  | some payment =>
    if payment.voided then .ok desk
    else if payment.matchId.any matchConfirmed && !viaUnconfirm then .error (.payment "match_void_ceremony")
    else
      let desk : BillDesk :=
        { desk with payments := desk.payments.map fun p => if p.id = id then { p with voided := true } else p }
      match desk.bill payment.vendorInvoiceId with
      | none => .ok desk
      | some bill => (desk.recomputeStatus bill.id).syncExpenseDates H today bill

/-! ### Confirming -/

/-- Python's white space. -/
def isPySpace (c : Char) : Bool :=
  let n := c.toNat
  decide (9 ≤ n ∧ n ≤ 13) || decide (28 ≤ n ∧ n ≤ 32) || n == 0x85 || n == 0xA0 || n == 0x1680 ||
    decide (0x2000 ≤ n ∧ n ≤ 0x200A) || n == 0x2028 || n == 0x2029 || n == 0x202F || n == 0x205F || n == 0x3000

structure ConfirmRequest where
  billId : ℕ
  lineId : ℕ
  disposition : Disposition
  jobId : Option ℕ
  inventoryItemId : Option ℕ
  skipReason : Option Text
  updateCatalogCost : Bool
  fulfilsPartId : Option ℕ
  deriving DecidableEq

/-- `_job_part_qty`: whole units, rounded away from zero. -/
def jobPartQty (quantity : ℤ) : ℤ := if 0 ≤ quantity then (quantity + 99) / 100 else -((-quantity + 99) / 100)

example : jobPartQty 50 = 1 ∧ jobPartQty (-50) = -1 ∧ jobPartQty 300 = 3 := by decide

/-- Hundredths in decimal, without trailing zeros. -/
def decimalText (hundredths : ℤ) : Text :=
  let n := hundredths.natAbs
  (if hundredths < 0 then ['-'] else []) ++ numeral (n / 100) ++
    (if n % 100 = 0 then [] else if n % 10 = 0 then '.' :: numeral (n % 100 / 10)
      else ['.'] ++ numeral (n % 100 / 10) ++ numeral (n % 10))

example : decimalText 250 = "2.5".toList ∧ decimalText (-5) = "-0.05".toList ∧ decimalText 300 = "3".toList := by
  decide +kernel

/-- `_stock_units`. -/
def stockUnits (quantity : ℤ) : Except BillError ℤ :=
  if quantity % 100 ≠ 0 then .error (.wholeUnits quantity) else .ok (quantity / 100)

/-- `apply_stock_delta`, allowing a negative result. -/
def BillDesk.applyStockDelta (desk : BillDesk) (item : ℕ) (delta : ℤ) : BillDesk :=
  { desk with
    items := desk.items.map fun i => if i.id = item then { i with quantity := some (i.quantity.getD 0 + delta) } else i
    adjustments := desk.adjustments ++ [⟨desk.nextId, item, delta⟩]
    nextId := desk.nextId + 1 }

/-- `Billed on vendor invoice …`, as it stands in a linked part's notes. -/
def billedMarker (bill : VendorInvoice) : Text := "Billed on vendor invoice ".toList ++ bill.invoiceNumber

/-- `" | "`. -/
def NOTE_GAP : Text := " | ".toList

/-- The notes of a linked part, with the marker behind them. -/
def withMarker (notes : Option Text) (marker : Text) : Text :=
  match notes with
  | none => marker
  | some [] => marker
  | some text => text ++ NOTE_GAP ++ marker

/-- A new expense of the bill, posted. -/
def BillDesk.recordExpense (today : ℤ) (bill : VendorInvoice) (line : VendorInvoiceLine) (category : Text)
    (job : Option ℕ) (desk : BillDesk) : Except BillError BillDesk := do
  let x : Expense := {
    id := desk.nextId
    companyId := desk.company
    vendor := String.ofList bill.vendorNameRaw
    amount := line.lineTotal
    date := desk.effectiveExpenseDate today bill
    category := category
    jobId := job
    lines := []
    deleted := false }
  let (_, L) ← viaLedger (postExpenseToLedger H desk.settings x) desk.ledger
  return { desk with
    expenses := desk.expenses ++ [{ x with source := EXPENSE_SOURCE }]
    ledger := L
    nextId := desk.nextId + 1 }

/-- The checklist row of an item line: the part the office named, else a new one. -/
def BillDesk.billPart (bill : VendorInvoice) (line : VendorInvoiceLine) (job : ℕ) (fulfils : Option ℕ)
    (desk : BillDesk) : Except BillError (BillDesk × ℕ) :=
  match fulfils with
  | some id =>
    match desk.parts.find? fun p => p.id == id && p.jobId == job with
    | none => .error (.confirm "fulfils_part_id does not name a part on this job")
    | some part =>
      if part.source = EXPENSE_SOURCE then
        .error (.confirm "that part was created by another vendor bill; link to the part the tech recorded instead")
      else .ok (desk.setPart part.id fun p => { p with notes := some (withMarker p.notes (billedMarker bill)) }, part.id)
  | none =>
    let quantity := jobPartQty line.quantity
    let rounded := if quantity * 100 = line.quantity then []
      else " (vendor qty ".toList ++ decimalText line.quantity ++ ", rounded to ".toList ++ decimalText (quantity * 100) ++
        ")".toList
    let part : JobPartNeeded := {
      id := desk.nextId
      jobId := job
      partName := String.ofList (line.description.toList.take 200)
      quantity := quantity
      supplier := bill.vendorNameRaw
      source := EXPENSE_SOURCE
      notes := some ("From vendor invoice ".toList ++ bill.invoiceNumber ++ rounded)
      billedInvoiceId := none }
    .ok ({ desk with parts := desk.parts ++ [part], nextId := desk.nextId + 1 }, part.id)

def BillDesk.confirmJob (today : ℤ) (req : ConfirmRequest) (bill : VendorInvoice) (line : VendorInvoiceLine)
    (desk : BillDesk) : Except BillError BillDesk :=
  match req.jobId.or bill.matchedJobId with
  | none => .error (.confirm "job disposition requires a job_id (none matched)")
  | some job =>
    if desk.jobs.any fun j => j.id == job && !j.deleted then do
      let expenseId := desk.nextId
      let desk ← desk.recordExpense H today bill line "materials".toList (some job)
      if line.kind = .item then
        let (desk, part) ← desk.billPart bill line job req.fulfilsPartId
        return desk.setLine line.id fun l => { l with
          expenseId := some expenseId, jobPartNeededId := some part, jobId := some job, disposition := .job, confirmed := true }
      else
        return desk.setLine line.id fun l => { l with
          expenseId := some expenseId, jobId := some job, disposition := .job, confirmed := true }
    else .error (.confirm "job not found")

def BillDesk.confirmStock (req : ConfirmRequest) (line : VendorInvoiceLine) (desk : BillDesk) :
    Except BillError BillDesk :=
  if line.kind ≠ .item then .error (.confirm "only item lines can be received into stock")
  else match req.inventoryItemId with
    | none => .error (.confirm "stock disposition requires an inventory_item_id")
    | some item =>
      if desk.items.any (·.id == item) then do
        let delta ← stockUnits line.quantity
        let adjustment := desk.nextId
        let desk := desk.applyStockDelta item delta
        let desk := if req.updateCatalogCost then
          { desk with items := desk.items.map fun i => if i.id = item then { i with unitCost := line.unitCost } else i }
          else desk
        return desk.setLine line.id fun l => { l with
          inventoryItemId := some item, stockAdjustmentId := some adjustment, disposition := .stock, confirmed := true }
      else .error (.confirm "inventory item not found")

def BillDesk.confirmOverhead (today : ℤ) (bill : VendorInvoice) (line : VendorInvoiceLine) (desk : BillDesk) :
    Except BillError BillDesk := do
  let expenseId := desk.nextId
  let desk ← desk.recordExpense H today bill line "supplies".toList none
  return desk.setLine line.id fun l => { l with expenseId := some expenseId, disposition := .overhead, confirmed := true }

def BillDesk.confirmSkip (req : ConfirmRequest) (line : VendorInvoiceLine) (desk : BillDesk) : Except BillError BillDesk :=
  let reason := trim isPySpace (req.skipReason.getD [])
  if reason.isEmpty then .error (.confirm "skip disposition requires a reason")
  else .ok (desk.setLine line.id fun l => { l with skipReason := some reason, disposition := .skip, confirmed := true })

/-- `confirm_line`: a confirmed line is left as it is. -/
def confirmLine (today : ℤ) (req : ConfirmRequest) (desk : BillDesk) : Except BillError BillDesk :=
  match desk.bill req.billId, desk.lineOf req.billId req.lineId with
  | some bill, some line =>
    if req.disposition = .pending then .error (.confirm "invalid disposition")
    else if line.confirmed then .ok desk
    else match req.disposition with
      | .job => desk.confirmJob H today req bill line
      | .stock => desk.confirmStock req line
      | .overhead => desk.confirmOverhead H today bill line
      | _ => desk.confirmSkip req line
  | _, _ => .error .notFound

/-! ### Reversing -/

/-- The expense of the line is deleted, and its live entry reversed. -/
def BillDesk.dropExpense (today : ℤ) (actor : Option Text) (line : VendorInvoiceLine) (desk : BillDesk) :
    Except BillError BillDesk :=
  match line.expenseId.bind desk.expense with
  | none => .ok desk
  | some x =>
    if x.deleted then .ok desk
    else do
      let (_, L) ← viaLedger (each (reverseLockTolerant today actor) (liveExpenseEntry desk.ledger x.toExpense).toList)
        desk.ledger
      return { desk with
        ledger := L
        expenses := desk.expenses.map fun y => if y.id = x.id then { y with deleted := true } else y }

/-- Stock gives back what the adjustment recorded. -/
def BillDesk.dropStock (line : VendorInvoiceLine) (desk : BillDesk) : BillDesk :=
  match line.stockAdjustmentId, line.inventoryItemId with
  | some adjustment, some item =>
    if desk.items.any (·.id == item) then
      let delta := match desk.adjustments.find? (·.id == adjustment) with
        | some adj => -adj.quantityDelta
        | none => -(line.quantity.tdiv 100)
      desk.applyStockDelta item delta
    else desk
  | _, _ => desk

/-- `notes.split("|")`, each piece stripped. -/
def notePieces (notes : Text) : List Text := (notes.splitOn '|').map (trim isPySpace)

/-- `" | ".join(pieces)`. -/
def joinPieces : List Text → Text
  | [] => []
  | [piece] => piece
  | piece :: pieces => piece ++ NOTE_GAP ++ joinPieces pieces

/-- The notes without the bill's marker: every piece that is the marker goes, and so does every empty one. -/
def withoutMarker (notes : Option Text) (marker : Text) : Option Text :=
  match notes with
  | none => none
  | some [] => some []
  | some text =>
    let kept := (notePieces text).filter fun piece => piece ≠ [] && piece ≠ marker
    some (joinPieces kept) |>.filter (· ≠ [])

/-- A part the confirm made is removed; a part it was linked to keeps its row. -/
def BillDesk.dropPart (bill : VendorInvoice) (line : VendorInvoiceLine) (desk : BillDesk) : Except BillError BillDesk :=
  match line.jobPartNeededId.bind fun id => desk.parts.find? (·.id == id) with
  | none => .ok desk
  | some part =>
    if part.billedInvoiceId.isSome then .error (.lineBilled line.lineNo)
    else if part.source = EXPENSE_SOURCE then .ok { desk with parts := desk.parts.filter (·.id != part.id) }
    else .ok (desk.setPart part.id fun p => { p with notes := withoutMarker p.notes (billedMarker bill) })

/-- The line as it was before it was confirmed. -/
def VendorInvoiceLine.reset (l : VendorInvoiceLine) : VendorInvoiceLine :=
  { l with
    disposition := .pending, skipReason := none, jobId := none, inventoryItemId := none, expenseId := none,
    jobPartNeededId := none, stockAdjustmentId := none, confirmed := false }

/-- `reverse_confirmed_line`. -/
def reverseConfirmedLine (today : ℤ) (actor : Option Text) (billId lineId : ℕ) (desk : BillDesk) :
    Except BillError BillDesk :=
  match desk.bill billId, desk.lineOf billId lineId with
  | some bill, some line => do
    let desk ← desk.dropExpense today actor line
    let desk ← (desk.dropStock line).dropPart bill line
    return desk.setLine line.id VendorInvoiceLine.reset
  | _, _ => .error .notFound

/-! ### Runs -/

/-- A call on the bills, or a period lock of the books. -/
inductive BillEvent where
  | confirm (today : ℤ) (req : ConfirmRequest)
  | reverse (today : ℤ) (actor : Option Text) (billId lineId : ℕ)
  | record (today : ℤ) (req : PaymentRequest)
  | void (today : ℤ) (matchConfirmed : ℕ → Bool) (viaUnconfirm : Bool) (paymentId : ℕ)
  | lock (date : ℤ)

def BillEvent.call : BillEvent → BillDesk → Except BillError BillDesk
  | .confirm today req, desk => confirmLine H today req desk
  | .reverse today actor billId lineId, desk => reverseConfirmedLine today actor billId lineId desk
  | .record today req, desk => recordBillPayment H today req desk
  | .void today matchConfirmed viaUnconfirm id, desk => voidBillPayment H today matchConfirmed viaUnconfirm id desk
  | .lock date, desk => .ok { desk with ledger := { desk.ledger with locks := desk.ledger.locks ++ [⟨date, desk.company⟩] } }

/-- A call that raises is rolled back. -/
def BillDesk.step (desk : BillDesk) (e : BillEvent) : BillDesk :=
  match e.call H desk with
  | .ok desk' => desk'
  | .error _ => desk

def BillDesk.run (desk : BillDesk) (events : List BillEvent) : BillDesk := events.foldl (BillDesk.step H) desk

end Posting

end Gdx
