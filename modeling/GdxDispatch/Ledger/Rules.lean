import GdxDispatch.Ledger.Rows

/-! Posting rules: what each money event of the operational system posts.

    P1 issuance, P3 payments and their resettlement, credit memos, refunds and credit applications,
    P5 expenses, P8 opening balances and the entries that correct them. A rule reads rows and ledger,
    builds a line set from them and drives the engine. P1, P3, the era settlement and P5 are reposted:
    new content is posted first and the stale entry reversed. The others are one-shot: a live entry is
    returned as it is, whatever its content. -/

namespace Gdx
open Lib

variable (H : ContentHash) (clock : ShopClock) (R : Rows)

/-! ### Lines -/

/-- A leg on a role account with the invoice's dimensions. -/
def Invoice.leg (invoice : Invoice) (amountCents : ℤ) (role : Role) (memo : String) : PostingLine where
  amountCents := amountCents
  role := some role
  accountId := none
  memo := some memo
  jobId := invoice.jobId
  customerId := invoice.customerId

/-- The account a category map names, when it is a live account of the company. -/
def mappedAccountId (L : Ledger) (company : ℕ) (acctId : Option ℕ) : Option ℕ :=
  ((acctId.bind L.accountById).filter fun a => a.companyId == company && a.active).map (·.id)

def revenueAccountIdFor (L : Ledger) (settings : Option GlSettings) (company : ℕ) (category : Option Text) :
    Option ℕ :=
  mappedAccountId L company
    ((category.filter (· ≠ [])).bind fun c => settings.bind fun s => lookup s.revenueCategoryAccountMap c)

def MAX_RESIDUAL_CENTS : ℤ := 100

/-- The revenue credit of one invoice line; an unmapped category goes to the fallback account. -/
def issuanceLine (L : Ledger) (settings : Option GlSettings) (invoice : Invoice) (il : InvoiceLine) :
    PostingLine :=
  let memo := String.ofList (il.description.toList.take 200)
  match revenueAccountIdFor L settings invoice.companyId il.category with
  | none =>
    let flag := match il.category.filter (· ≠ []) with
      | some c => "[unmapped category: " ++ String.ofList c ++ "] "
      | none => ""
    invoice.leg (-il.lineTotal) .salesFallback (flag ++ memo)
  | some accountId => { invoice.leg (-il.lineTotal) .salesFallback memo with role := none, accountId := some accountId }

/-- The P1 line set for the invoice's current content. -/
def buildIssuanceLines (L : Ledger) (invoice : Invoice) : Except LedgerError (List PostingLine) :=
  if invoice.total = 0 then .ok []
  else
    let priced := (R.liveLines invoice).filter (·.lineTotal ≠ 0)
    let credited := sumCents (·.lineTotal) priced + invoice.taxAmount
    let residual := invoice.total - credited
    if residual.natAbs > MAX_RESIDUAL_CENTS then .error (.issuanceComposition invoice.total credited)
    else .ok (
      [invoice.leg invoice.total .ar ("invoice " ++ invoice.number ++ " issued")] ++
      priced.map (issuanceLine L (R.glSettings invoice.companyId) invoice) ++
      (if invoice.taxAmount = 0 then []
        else [invoice.leg (-invoice.taxAmount) .salesTaxPayable "sales tax (mirrored from invoice)"]) ++
      (if residual = 0 then []
        else [invoice.leg (-residual) .rounding
          s!"[P1 residual] total − (lines + tax) = {residual} cents"]))

/-- The receivable still open for this payment: nothing on a void invoice. -/
def remainingAr (invoice : Invoice) (p : Payment) : ℤ :=
  if invoice.status = .void then 0
  else max (invoice.total - priorNonvoidedPaidCents R invoice p - invoiceCreditedCents R invoice) 0

/-- The part of a payment that relieves the receivable. -/
def arPortion (invoice : Invoice) (p : Payment) : ℤ := min p.amount (remainingAr R invoice p)

/-- P3: the method's account against the receivable, with any excess to customer credits. -/
def buildPaymentLines (p : Payment) (invoice : Invoice) : Except LedgerError (List PostingLine) :=
  if p.amount = 0 ∧ p.surcharge = 0 then .ok []
  else match R.glSettings invoice.companyId with
    | none => .error (.ledgerConfig "gl_settings missing — accounting not initialized")
    | some settings => do
      let methodRole ← resolvePaymentMethodRole settings (some p.method)
      let ar := arPortion R invoice p
      let excess := p.amount - ar
      return (
        [invoice.leg (p.amount + p.surcharge) methodRole
          ("payment on " ++ invoice.number ++ " (" ++ String.ofList p.method ++ ")")] ++
        (if p.surcharge = 0 then []
          else [invoice.leg (-p.surcharge) .surchargeIncome ("card surcharge on " ++ invoice.number)]) ++
        (if ar = 0 then []
          else [invoice.leg (-ar) .ar ("payment applied to " ++ invoice.number)]) ++
        (if excess = 0 then []
          else [invoice.leg (-excess) .customerCredits
            (if invoice.status = .void then
              "payment on voided invoice " ++ invoice.number ++ " → customer credit"
            else "overpayment on " ++ invoice.number ++ " → customer credit")]))

def buildOpeningLines (invoice : Invoice) (openingCents : ℤ) : List PostingLine :=
  if openingCents ≤ 0 then []
  else
    let memo := "P8 opening balance — invoice " ++ invoice.number
    [invoice.leg openingCents .ar memo,
      { invoice.leg (-openingCents) .openingEquity memo with jobId := none }]

/-- `mapping.get(canonical or category or "")`, the synonyms of old rows resolved first. -/
def LEGACY_EXPENSE_CATEGORY_MAP : List (Text × Text) :=
  [("materials", "Parts/Supplies"), ("supplies", "Parts/Supplies"), ("parts", "Parts/Supplies"),
    ("equipment", "Tools/Equipment"), ("tools", "Tools/Equipment"), ("travel", "Other"),
    ("meals", "Other"), ("fuel", "Fuel"), ("gas", "Fuel"), ("vehicle", "Vehicle Maintenance"),
    ("sub", "Subcontractor"), ("subcontractors", "Subcontractor")].map fun (k, v) => (k.toList, v.toList)

def EXPENSE_CATEGORIES : List Text :=
  ["Fuel", "Parts/Supplies", "Tools/Equipment", "Advertising", "Insurance", "Vehicle Maintenance",
    "Subcontractor", "Other"].map (·.toList)

def canonicalizeExpenseCategory (raw : Text) : Option Text :=
  let key := stripLower raw
  if key = [] then none
  else match EXPENSE_CATEGORIES.find? (stripLower · == key) with
    | some category => some category
    | none => lookup LEGACY_EXPENSE_CATEGORY_MAP key

def expenseAccountId (L : Ledger) (settings : Option GlSettings) (company : ℕ) (category : Text) : Option ℕ :=
  mappedAccountId L company (settings.bind fun s =>
    lookup s.expenseCategoryAccountMap ((canonicalizeExpenseCategory category).getD category))

/-- P5: the category's expense account against the operating bank. -/
def buildExpenseLines (L : Ledger) (expense : Expense) : Except LedgerError (List PostingLine) :=
  if expense.amount = 0 then .ok []
  else if expense.lines ≠ [] ∧ expense.lines.sum > expense.amount then
    .error (.expenseComposition expense.lines.sum expense.amount)
  else
    let memo := expense.vendor ++ ": " ++ String.ofList expense.category
    let debit : PostingLine :=
      match expenseAccountId L (R.glSettings expense.companyId) expense.companyId expense.category with
      | none => ⟨expense.amount, some .expenseFallback, none,
          some ("[unmapped category: " ++ String.ofList expense.category ++ "] " ++ memo), expense.jobId, none⟩
      | some accountId => ⟨expense.amount, none, some accountId, some memo, expense.jobId, none⟩
    .ok [debit, ⟨-expense.amount, some .operatingBank, none,
      some ("paid " ++ expense.vendor ++ " on " ++ isoformat expense.date), expense.jobId, none⟩]

/-! ### Reading the ledger -/

/-- `source_type:source_id:event:%` as the queries write it. -/
def eventPattern (st sid ev : Text) : Text := sepCons ':' st (sepCons ':' sid (sepCons ':' ev ['%']))

/-- The company's posted entries of one source whose key is `LIKE` the event's pattern. -/
def liveLike (L : Ledger) (company : ℕ) (st sid ev : Text) : List GlJournalEntry :=
  L.entries.filter fun e =>
    e.companyId == company && e.hasSource st sid && e.isPosted && like (eventPattern st sid ev) e.idempotencyKey

/-- The earliest live entry of one source and event, whatever its content. -/
def liveEventEntry (L : Ledger) (st sid ev : Text) : Option GlJournalEntry :=
  L.entries.find? fun e => e.hasSource st sid && e.isPosted &&
    likeEscapedPrefix (sepCons ':' st (sepCons ':' sid (sepCons ':' ev []))) e.idempotencyKey

/-- The shop's day of a stamp, unless the event is already live under another date. -/
def shopEffectiveAt (L : Ledger) (st sid ev : Text) (stamp : ℤ) : ℤ :=
  match liveEventEntry L st sid ev with
  | some posted => posted.effectiveAt
  | none => clock.zone.day stamp

def liveIssuanceEntry (L : Ledger) (invoice : Invoice) : Option GlJournalEntry :=
  (liveLike L invoice.companyId "invoice".toList (str invoice.id) "issued".toList).head?

def livePaymentEntries (L : Ledger) (p : Payment) (company : ℕ) : List GlJournalEntry :=
  liveLike L company "payment".toList (str p.id) "received".toList

def liveEraSettlementEntries (L : Ledger) (p : Payment) (company : ℕ) : List GlJournalEntry :=
  liveLike L company "payment".toList (str p.id) "era_settlement".toList

def liveExpenseEntry (L : Ledger) (expense : Expense) : Option GlJournalEntry :=
  (liveLike L expense.companyId "expense".toList (str expense.id) "recorded".toList).head?

def hasOpeningAnchor (L : Ledger) (invoice : Invoice) : Bool :=
  liveLike L invoice.companyId "invoice".toList (str invoice.id) "opening".toList ≠ []

/-- The customer's balance on customer credits, over entries of every status. -/
def customerCreditBalanceCents (L : Ledger) (company : ℕ) (customer : Option ℕ) : Except LedgerError ℤ := do
  let acct ← resolveRoleAccountOrNone L company .customerCredits
  match acct with
  | none => return 0
  | some a =>
    let rows := (L.entries.filter (·.companyId == company)).flatMap fun e =>
      e.lines.filter fun l => l.accountId == a.id && l.customerId == customer
    return -sumCents (·.amountCents) rows

/-- The entries attributed to an invoice: its own, its payments' and its adjustments'. -/
def attributed (invoice : Invoice) (e : GlJournalEntry) : Bool :=
  e.hasSource "invoice".toList (str invoice.id) ||
    (e.sourceType == "payment".toList && (R.paymentsOf invoice).any (e.sourceId == str ·.id)) ||
    (e.sourceType == "adjustment".toList && (R.adjustmentsOf invoice).any (e.sourceId == str ·.id))

/-- The invoice's receivable on the ledger: the lines on any account with the AR role. -/
def invoiceArBalanceCents (L : Ledger) (invoice : Invoice) : ℤ :=
  sumCents (·.amountCents) ((L.entries.filter (attributed R invoice)).flatMap fun e =>
    e.lines.flatMap fun l =>
      (L.accounts.filter fun a => a.id == l.accountId && a.role == some .ar).map fun _ => l)

/-! ### Issuance and opening balances -/

/-- An event of the rules. No rule passes extra content. -/
def ruleEvent (company : ℕ) (st sid ev : Text) (effectiveAt : ℤ) (lines : List PostingLine)
    (actor : Option Text) : PostingEvent where
  companyId := company
  sourceType := st
  sourceId := sid
  event := ev
  effectiveAt := effectiveAt
  lines := lines
  createdBy := actor
  extraContent := []

def issuanceEvent (invoice : Invoice) (lines : List PostingLine) (actor : Option Text) : PostingEvent :=
  ruleEvent invoice.companyId "invoice".toList (str invoice.id) "issued".toList invoice.effectiveAt lines actor

/-- The P8 anchor of one era invoice, posted once. -/
def postOpeningBalance (invoice : Invoice) (actor : Option Text) : LedgerM Unit := fun L =>
  match R.cutoverDate invoice.companyId with
  | none => .error (.ledgerConfig "cutover_month is not set") L
  | some cutover =>
    if invoice.status ∉ ISSUED_STATUSES ∨ invoice.deleted then .ok () L
    else if invoice.effectiveAt ≥ cutover then .ok () L
    else if (liveEventEntry L "invoice".toList (str invoice.id) "opening".toList).isSome then .ok () L
    else
      let lines := buildOpeningLines invoice (openingBalanceCents R invoice cutover)
      if lines = [] then .ok () L
      else (do
        let _ ← postForEvent H (ruleEvent invoice.companyId "invoice".toList (str invoice.id)
          "opening".toList cutover lines actor) false) L

/-- P1, on the way out of draft. -/
def postInvoiceIssuance (invoice : Invoice) (actor : Option Text) : LedgerM Unit := fun L =>
  if preCutoverEra R invoice then postOpeningBalance H R invoice actor L
  else match buildIssuanceLines R L invoice with
    | .error e => .error e L
    | .ok [] => .ok () L
    | .ok lines => (do let _ ← postForEvent H (issuanceEvent invoice lines actor) false) L

/-- Post the content and reverse the entry that was live before, if the content is not its own. -/
def repostOver (event : PostingEvent) (live : GlJournalEntry) (actor : Option Text) : LedgerM Unit := do
  let posted ← postForEvent H event false
  if posted.id ≠ live.id then
    let _ ← reverseEntry live.id none actor false

def reverseLive (live : Option GlJournalEntry) (actor : Option Text) : LedgerM Unit :=
  match live with
  | none => pure ()
  | some e => do let _ ← reverseEntry e.id none actor false

/-- A content edit after issuance: reverse the live P1 and repost at current content. -/
def repostInvoiceIssuance (invoice : Invoice) (actor : Option Text) : LedgerM Unit := fun L =>
  if invoice.status ∉ ISSUED_STATUSES then .ok () L
  else if !R.ledgerPostingEnabled invoice.companyId then .ok () L
  else
    let live := liveIssuanceEntry L invoice
    if live.isNone ∧ preCutoverEra R invoice then postOpeningBalance H R invoice actor L
    else match buildIssuanceLines R L invoice with
      | .error e => .error e L
      | .ok [] => reverseLive live actor L
      | .ok lines =>
        match live with
        | none => postInvoiceIssuance H R invoice actor L
        | some e => repostOver H (issuanceEvent invoice lines actor) e actor L

/-- Void: reverse the live P1. -/
def reverseInvoiceIssuance (invoice : Invoice) (actor : Option Text) : LedgerM Unit := fun L =>
  reverseLive (liveIssuanceEntry L invoice) actor L

/-! ### Payments -/

/-- Late-learned era payments in `(payment_date, created_at, str(id))` order. -/
def lateEraLe (p q : Payment) : Prop :=
  p.paymentDate < q.paymentDate ∨ (p.paymentDate = q.paymentDate ∧
    (p.createdAt < q.createdAt ∨ (p.createdAt = q.createdAt ∧ str p.id ≤ str q.id)))

instance (p q : Payment) : Decidable (lateEraLe p q) := inferInstanceAs (Decidable (_ ∨ _))

/-- Give each payment in turn what the pool still holds; a voided one gets nothing. -/
def allocatePool : ℤ → List Payment → List (ℕ × ℤ)
  | _, [] => []
  | pool, p :: ps =>
    let cents := if p.voidedAt.isSome then 0 else min p.amount pool
    (p.id, cents) :: allocatePool (pool - cents) ps

def lateEraAllocation (invoice : Invoice) (cutover : ℤ) : List (ℕ × ℤ) :=
  let pool := max 0 (openingBalanceCents R invoice cutover)
  let late := (R.paymentsOf invoice).filter (isLateEraSettlement · true (some cutover))
  allocatePool pool (late.insertionSort lateEraLe)

/-- `allocation.get(payment.id, 0)`. -/
def allocated (allocation : List (ℕ × ℤ)) (id : ℕ) : ℤ :=
  ((allocation.find? (·.1 == id)).map (·.2)).getD 0

def paymentEvent (invoice : Invoice) (p : Payment) (effectiveAt : ℤ) (lines : List PostingLine)
    (actor : Option Text) : PostingEvent :=
  ruleEvent invoice.companyId "payment".toList (str p.id) "received".toList effectiveAt lines actor

def eraSettlementLines (invoice : Invoice) (p : Payment) (cents : ℤ) : List PostingLine :=
  let memo := "era settlement of " ++ invoice.number ++ ": payment dated " ++ isoformat p.paymentDate ++
    ", recorded after cutover — posted at first open day"
  [{ invoice.leg cents .openingEquity memo with jobId := none }, invoice.leg (-cents) .ar memo]

/-- The late-learned era settlement at the cutover date; nothing for a zero allocation. -/
def postEraSettlement (p : Payment) (invoice : Invoice) (cutover cents : ℤ) (actor : Option Text) :
    LedgerM (Option GlJournalEntry) :=
  if !R.ledgerPostingEnabled invoice.companyId ∨ cents ≤ 0 then pure none
  else do
    let e ← postForEvent H (ruleEvent invoice.companyId "payment".toList (str p.id)
      "era_settlement".toList cutover (eraSettlementLines invoice p cents) actor) false
    return some e

/-- An opening-era payment voided after the cutover posts its own compensator, once. -/
def postOpeningPaymentVoid (p : Payment) (invoice : Invoice) (voidedAt : ℤ) (actor : Option Text) :
    LedgerM Unit := fun L =>
  match R.glSettings invoice.companyId with
  | none => .error (.ledgerConfig "gl_settings missing — accounting not initialized") L
  | some settings =>
    match resolvePaymentMethodRole settings (some p.method) with
    | .error e => .error e L
    | .ok methodRole =>
      if p.amount = 0 then .ok () L
      else if (liveEventEntry L "payment".toList (str p.id) "opening_payment_void".toList).isSome then .ok () L
      else
        let memo := "void of opening-era payment on " ++ invoice.number
        (do
          let _ ← postForEvent H (ruleEvent invoice.companyId "payment".toList (str p.id)
            "opening_payment_void".toList
            (shopEffectiveAt clock L "payment".toList (str p.id) "opening_payment_void".toList voidedAt)
            [invoice.leg p.amount .ar memo, invoice.leg (-p.amount) methodRole memo] actor) false) L

/-- Run a write at its own date; only if a period lock refuses it, run it at the fallback day. -/
def withFallback {α : Type} (natural : LedgerM α) (fallback : Option ℤ) (at' : ℤ → LedgerM α) : LedgerM α :=
  fun L =>
    match natural L with
    | .error (.periodLocked lockDate effectiveAt) L' =>
      match fallback with
      | none => .error (.periodLocked lockDate effectiveAt) L'
      | some day => at' day L'
    | r => r

/-- Reverse at the entry's own date, or at the fallback day if that is locked. -/
def reverseSettled (actor : Option Text) (fallback : Option ℤ) (live : GlJournalEntry) : LedgerM Unit := do
  let _ ← withFallback (reverseEntry live.id none actor false) fallback
    fun day => reverseEntry live.id (some day) actor false

/-- Repost a payment's P3 at its own date, or at the fallback day if that is locked. -/
def repostPayment (invoice : Invoice) (p : Payment) (lines : List PostingLine) (actor : Option Text)
    (fallback : Option ℤ) : LedgerM GlJournalEntry :=
  withFallback (postForEvent H (paymentEvent invoice p p.paymentDate lines actor) false) fallback
    fun day => postForEvent H (paymentEvent invoice p day lines actor) false

/-- Reverse the listed entries other than the one kept. -/
def reverseAllBut (kept : Option GlJournalEntry) (actor : Option Text) (fallback : Option ℤ)
    (lives : List GlJournalEntry) : LedgerM Unit :=
  each (reverseSettled actor fallback) (lives.filter fun live => kept.all (live.id != ·.id))

/-- The payment's row existed at the cutover of an era invoice. -/
def inOpening (era : Bool) (cutover : Option ℤ) (p : Payment) : Bool :=
  era && cutover.any (existedAtCutover p.createdAt)

/-- A voided payment: its live entries are reversed, an opening-era one is compensated. -/
def settleVoided (invoice : Invoice) (p : Payment) (voidedAt : ℤ) (compensate : Bool) (actor : Option Text)
    (fallback : Option ℤ) : LedgerM Unit := do
  let L ← get
  reverseAllBut none actor fallback (livePaymentEntries L p invoice.companyId)
  let L ← get
  reverseAllBut none actor fallback (liveEraSettlementEntries L p invoice.companyId)
  if compensate then postOpeningPaymentVoid H clock R p invoice voidedAt actor

/-- A late-learned era payment: post its share of the anchor, reverse what is stale. -/
def settleLateEra (invoice : Invoice) (p : Payment) (cutover cents : ℤ) (actor : Option Text)
    (fallback : Option ℤ) : LedgerM Unit := do
  let posted ← postEraSettlement H R p invoice cutover cents actor
  let L ← get
  reverseAllBut posted actor fallback (liveEraSettlementEntries L p invoice.companyId)

/-- A P3 payment: repost it at its current split, reverse what is stale. -/
def settleReceived (invoice : Invoice) (p : Payment) (actor : Option Text) (fallback : Option ℤ) :
    LedgerM Unit := do
  let lines ← raising (buildPaymentLines R p invoice)
  if lines ≠ [] then
    let posted ← repostPayment H invoice p lines actor fallback
    let L ← get
    reverseAllBut (some posted) actor fallback (livePaymentEntries L p invoice.companyId)

/-- One pass of the resettlement loop. -/
def settlePayment (invoice : Invoice) (actor : Option Text) (fallback : Option ℤ) (p : Payment) :
    LedgerM Unit :=
  let era := preCutoverEra R invoice
  let cutover := if era then R.cutoverDate invoice.companyId else none
  match p.voidedAt with
  | some voidedAt =>
    settleVoided H clock R invoice p voidedAt
      (inOpening era cutover p && !cutover.any p.voidedBeforeCutover) actor fallback
  | none =>
    match cutover.filter fun c => isLateEraSettlement p era (some c) with
    | some c => settleLateEra H R invoice p c (allocated (lateEraAllocation R invoice c) p.id) actor fallback
    | none =>
      if inOpening era cutover p then pure ()
      else settleReceived H R invoice p actor fallback

/-- Reverse the voided payments' live entries and repost every payment whose split changed. -/
def resettleInvoicePayments (invoice : Invoice) (actor : Option Text) (fallback : Option ℤ) : LedgerM Unit :=
  if !R.ledgerPostingEnabled invoice.companyId then pure ()
  else each (settlePayment H clock R invoice actor fallback) (R.paymentsOf invoice)

/-- P3, from every path that records a payment. -/
def postPaymentReceived (p : Payment) (invoice : Invoice) (actor : Option Text) : LedgerM Unit :=
  if !R.ledgerPostingEnabled invoice.companyId then pure ()
  else if preCutoverEra R invoice && isLateEraSettlement p true (R.cutoverDate invoice.companyId) then
    resettleInvoicePayments H clock R invoice actor none
  else do
    let lines ← raising (buildPaymentLines R p invoice)
    if lines ≠ [] then
      let _ ← postForEvent H (paymentEvent invoice p p.paymentDate lines actor) false

/-! ### Adjustments -/

/-- Post a one-shot adjustment event unless it is live already. -/
def postAdjustment (a : InvoiceAdjustment) (invoice : Invoice) (ev : Text)
    (build : Ledger → Except LedgerError (List PostingLine)) (actor : Option Text) : LedgerM Unit := fun L =>
  if !R.ledgerPostingEnabled invoice.companyId then .ok () L
  else if a.amount = 0 then .ok () L
  else if (liveEventEntry L "adjustment".toList (str a.id) ev).isSome then .ok () L
  else match build L with
    | .error e => .error e L
    | .ok lines => (do
        let _ ← postForEvent H (ruleEvent invoice.companyId "adjustment".toList (str a.id) ev
          (shopEffectiveAt clock L "adjustment".toList (str a.id) ev a.createdAt) lines actor) false) L

/-- `reason or 'unspecified'`. -/
def reasonText (reason : Option Text) : String :=
  match reason.filter (· ≠ []) with
  | some r => String.ofList r
  | none => "unspecified"

def creditMemoLines (invoice : Invoice) (a : InvoiceAdjustment) : List PostingLine :=
  [invoice.leg a.amount (reasonRole (R.glSettings invoice.companyId) a.reason)
      ("credit memo on " ++ invoice.number ++ ": " ++ reasonText a.reason),
    invoice.leg (-a.amount) .ar ("credit memo applied to " ++ invoice.number)]

/-- Credit memo: contra-revenue against the receivable. -/
def postCreditMemo (a : InvoiceAdjustment) (invoice : Invoice) (actor : Option Text) : LedgerM Unit :=
  postAdjustment H clock R a invoice "credit_memo".toList (fun _ => .ok (creditMemoLines R invoice a)) actor

/-- What a refund takes out of customer credits: never more than this invoice's overpayment, nor than
    the customer's balance. -/
def refundFromCredit (invoice : Invoice) (a : InvoiceAdjustment) (onLedger : ℤ) : ℤ :=
  max (min (min a.amount (refundOverpaymentCents R invoice)) (max onLedger 0)) 0

def refundLines (invoice : Invoice) (a : InvoiceAdjustment) (L : Ledger) :
    Except LedgerError (List PostingLine) :=
  match R.glSettings invoice.companyId with
  | none => .error (.ledgerConfig "gl_settings missing — accounting not initialized")
  | some settings => do
    let cashRole ← resolvePaymentMethodRole settings a.refundMethod
    let onLedger ← customerCreditBalanceCents L invoice.companyId invoice.customerId
    let fromCredit := refundFromCredit R invoice a onLedger
    let fromRevenue := a.amount - fromCredit
    return (
      (if fromCredit = 0 then []
        else [invoice.leg fromCredit .customerCredits ("overpayment returned on " ++ invoice.number)]) ++
      (if fromRevenue = 0 then []
        else [invoice.leg fromRevenue (reasonRole (some settings) a.reason)
          ("refund on " ++ invoice.number ++ ": " ++ reasonText a.reason)]) ++
      [invoice.leg (-a.amount) cashRole
        ("refund paid out via " ++ String.ofList (a.refundMethod.getD "None".toList))])

/-- Refund: the overpayment first, then the sale, out of the cash account. -/
def postRefund (a : InvoiceAdjustment) (invoice : Invoice) (actor : Option Text) : LedgerM Unit :=
  postAdjustment H clock R a invoice "refund".toList (refundLines R invoice a) actor

def creditApplicationLines (invoice : Invoice) (a : InvoiceAdjustment) : List PostingLine :=
  [invoice.leg a.amount .customerCredits ("customer credit applied to " ++ invoice.number),
    invoice.leg (-a.amount) .ar ("credit applied to " ++ invoice.number)]

/-- P9: customer credits against the receivable. -/
def postCreditApplication (a : InvoiceAdjustment) (invoice : Invoice) (actor : Option Text) : LedgerM Unit :=
  postAdjustment H clock R a invoice "credit_applied".toList (fun _ => .ok (creditApplicationLines invoice a)) actor

/-- On invoice void: reverse every posted entry of the invoice's adjustments. -/
def reverseInvoiceAdjustments (invoice : Invoice) (actor : Option Text) : LedgerM Unit :=
  if !R.ledgerPostingEnabled invoice.companyId then pure ()
  else each (fun a => do
    let L ← get
    each (fun e => do let _ ← reverseEntry e.id none actor false)
      (L.entries.filter fun e => e.companyId == invoice.companyId &&
        e.hasSource "adjustment".toList (str a.id) && e.isPosted)) (R.adjustmentsOf invoice)

/-- Void of an anchored invoice: one entry clears whatever receivable it still holds. -/
def settleOpeningOnVoid (invoice : Invoice) (actor : Option Text) : LedgerM Unit := fun L =>
  if !R.ledgerPostingEnabled invoice.companyId then .ok () L
  else if !preCutoverEra R invoice && !hasOpeningAnchor L invoice then .ok () L
  else if liveLike L invoice.companyId "invoice".toList (str invoice.id) "opening_void".toList ≠ [] then .ok () L
  else
    let remaining := invoiceArBalanceCents R L invoice
    if remaining ≤ 0 then .ok () L
    else
      let memo := "void of pre-cutover invoice " ++ invoice.number
      (do
        let _ ← postForEvent H (ruleEvent invoice.companyId "invoice".toList (str invoice.id)
          "opening_void".toList clock.today
          [{ invoice.leg remaining .openingEquity memo with jobId := none }, invoice.leg (-remaining) .ar memo]
          actor) false) L

/-! ### Expenses -/

def expenseEvent (expense : Expense) (lines : List PostingLine) (actor : Option Text) : PostingEvent :=
  ruleEvent expense.companyId "expense".toList (str expense.id) "recorded".toList expense.date lines actor

/-- P6: every mutation reverses the live entry and reposts; a deleted expense reverses outright. -/
def repostExpense (expense : Expense) (actor : Option Text) : LedgerM Unit := fun L =>
  if !R.ledgerPostingEnabled expense.companyId then .ok () L
  else
    let live := liveExpenseEntry L expense
    if expense.deleted then reverseLive live actor L
    else match buildExpenseLines R L expense with
      | .error e => .error e L
      | .ok [] => reverseLive live actor L
      | .ok lines =>
        match live with
        | none => (do let _ ← postForEvent H (expenseEvent expense lines actor) false) L
        | some e => repostOver H (expenseEvent expense lines actor) e actor L

end Gdx
