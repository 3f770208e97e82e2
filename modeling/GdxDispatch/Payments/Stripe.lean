import GdxDispatch.Ledger.Backfill
import GdxDispatch.Billing.Api

/-! Processor money: the signed webhook, `/confirm`, the pay page's recovery and the office's void.

    Five entry points write the payment rows of one PaymentIntent. Stripe is outside: each step carries what
    its live reads answered, whatever that was. An intent's `metadata.invoice_id` is set when it is minted
    and never changed, so it is a function `minted` of the intent's id. A handler that raises is answered
    500 and leaves nothing. The trail rows, the bells, the receipts and the mint after a recovery write no
    payment and are left out. -/

namespace Gdx

open Lib

/-! ### Rows -/

/-- What stands in `voided_reason`. -/
inductive VoidReason where
  | chargeFailed | paymentFailed | chargeRefunded | disputeCreated | fundsWithdrawn | officeVoid
  deriving DecidableEq

/-- The database with the column `payments.voided_reason`, by payment id, and the event ids handled so far. -/
structure PaymentDesk where
  db : Db
  voidedReason : ℕ → Option VoidReason
  handled : List Text

def PaymentDesk.payments (desk : PaymentDesk) : List Payment := desk.db.rows.payments

/-- `_FAILURE_VOID_REASONS`. -/
def FAILURE_VOID_REASONS : List VoidReason := [.chargeFailed, .paymentFailed]

/-- `_DISPUTE_VOID_REASONS`. -/
def DISPUTE_VOID_REASONS : List VoidReason := [.disputeCreated, .fundsWithdrawn]

/-- `_recorded_payment`: the live row. -/
def recordedPayment (desk : PaymentDesk) (invoice : ℕ) (reference : Text) : Option Payment :=
  desk.payments.find? fun p =>
    decide (p.invoiceId = invoice) && decide (p.reference = some reference) && p.voidedAt.isNone

/-- The void of a row is no failure event's. -/
def PaymentDesk.deliberate (desk : PaymentDesk) (p : Payment) : Bool :=
  p.voidedAt.isSome && !(desk.voidedReason p.id).any fun r => decide (r ∈ FAILURE_VOID_REASONS)

/-- `_deliberately_voided`: the reason that blocks, which may be unrecorded. -/
def deliberatelyVoided (desk : PaymentDesk) (invoice : ℕ) (reference : Text) : Option (Option VoidReason) :=
  (desk.payments.find? fun p =>
    decide (p.invoiceId = invoice) && decide (p.reference = some reference) && desk.deliberate p).map
    fun p => desk.voidedReason p.id

/-- `_reference_ever_recorded`: voids included. -/
def referenceEverRecorded (desk : PaymentDesk) (invoice : ℕ) (reference : Text) : Bool :=
  desk.payments.any fun p => decide (p.invoiceId = invoice) && decide (p.reference = some reference)

/-- `uq_payments_invoice_reference`: another live row of the invoice has the reference. -/
def indexRefuses (R : Rows) (p : Payment) : Bool :=
  R.payments.any fun q => decide (q.id ≠ p.id) && decide (q.invoiceId = p.invoiceId) &&
    decide (q.reference = p.reference) && p.reference.isSome && q.voidedAt.isNone

/-- `db.get(Invoice, id)`. -/
def Db.invoiceRow (db : Db) (id : ℕ) : Option Invoice := db.rows.invoices.find? (·.id == id)

section Handlers

variable (H : ContentHash) (zone : ShopZone)

/-- `_recalculate_invoice` of a row that may be soft-deleted. -/
def recalculateRow (db : Db) (invoice : Invoice) (actor : Option Text) : Except ApiError Db := do
  let invoice := reckon db.rows invoice
  let db := db.putInvoice invoice
  let db ← db.post (repostInvoiceIssuance H db.rows invoice actor)
  if invoice.status ≠ .void ∧ invoice.balanceDue ≤ 0 ∧ 0 < invoice.total then
    transitionInvoiceStatus H db invoice .paid actor
  else return db

/-- `_recalculate_invoice` of the invoice of a payment, where there is one. -/
def recalculateOf (db : Db) (invoice : ℕ) (actor : Option Text) : Except ApiError Db :=
  match db.invoiceRow invoice with
  | none => .ok db
  | some row => recalculateRow H db row actor

/-! ### Recording -/

/-- The row is in the table: reckon the invoice and post it. -/
def settleRecorded (db : Db) (invoice : ℕ) (p : Payment) (actor : Option Text) : Except ApiError Db := do
  let db ← recalculateOf H db invoice actor
  match db.invoiceRow invoice with
  | none => return db
  | some row => db.post (postPaymentReceived H (db.clock zone) db.rows p row actor)

/-- `_mark_invoice_paid`. Losing the race on the index is the no-op it always was. -/
def markInvoicePaid (desk : PaymentDesk) (invoice : Invoice) (reference method : Text) (amount surcharge : ℤ)
    (source : Text) : Except ApiError Db :=
  if reference ≠ [] ∧ (recordedPayment desk invoice.id reference).isSome = true then .ok desk.db
  else if reference ≠ [] ∧ (deliberatelyVoided desk invoice.id reference).isSome = true then .ok desk.db
  else
    let remaining := invoice.total - paidCents desk.db.rows invoice
    let payAmount := if amount ≠ 0 then amount else max remaining 0
    if payAmount ≤ 0 then recalculateOf H desk.db invoice.id (some source)
    else
      let payment : Payment := {
        id := desk.db.rows.nextId, invoiceId := invoice.id, amount := payAmount, surcharge := max surcharge 0,
        method := method, paymentDate := zone.day desk.db.now, reference := some reference, voidedAt := none,
        createdAt := desk.db.now }
      if indexRefuses desk.db.rows payment then .ok desk.db
      else settleRecorded H zone { desk.db with rows := desk.db.rows.addPayment payment } invoice.id payment (some source)

/-! ### The void flag -/

/-- What to do when the period is locked: a person is told, or the webhook walks its ladder. -/
inductive OnPeriodLock where
  | raise | retryThenDefer
  deriving DecidableEq

/-- The flag and the reason of a row, both set or both cleared. -/
def PaymentDesk.flag (desk : PaymentDesk) (p : Payment) (mark : Option VoidReason) : PaymentDesk :=
  { desk with
    db := { desk.db with rows := desk.db.rows.putPayment { p with voidedAt := mark.map fun _ => desk.db.now } }
    voidedReason := Function.update desk.voidedReason p.id mark }

/-- The resettlement of the payment's invoice, where there is one. -/
def resettleOf (db : Db) (invoice : ℕ) (actor : Option Text) (fallback : Option ℤ) : Except ApiError Db :=
  match db.invoiceRow invoice with
  | none => .ok db
  | some row => db.post (resettleInvoicePayments H (db.clock zone) db.rows row actor fallback)

def ApiError.isPeriodLocked : ApiError → Bool
  | .ledger e => e.isPeriodLocked
  | .http _ _ => false

/-- `_apply_payment_void_state`: natural dates, then the open day, then without the ledger. -/
def applyPaymentVoidState (desk : PaymentDesk) (p : Payment) (mark : Option VoidReason) (actor : Option Text)
    (onLock : OnPeriodLock) : Except ApiError PaymentDesk :=
  let flagged := desk.flag p mark
  match resettleOf H zone flagged.db p.invoiceId actor none with
  | .ok db => .ok { flagged with db := db }
  | .error first =>
    if first.isPeriodLocked = false ∨ onLock = .raise then .error first
    else
      match resettleOf H zone flagged.db p.invoiceId actor (some (zone.day desk.db.now)) with
      | .ok db => .ok { flagged with db := db }
      | .error second => if second.isPeriodLocked then .ok flagged else .error second

/-- An invoice that reads paid and owes again is sent again. -/
def reopenIfOwing (db : Db) (invoice : ℕ) (actor : Option Text) : Except ApiError Db :=
  match db.invoiceRow invoice with
  | none => .ok db
  | some row =>
    if row.status = .paid ∧ 0 < row.balanceDue then transitionInvoiceStatus H db row .sent actor else .ok db

/-! ### Events -/

/-- The statuses the handler answers. -/
inductive Outcome where
  | noInvoiceId | notAch | achProcessingNoted | notAchVerification | achVerificationNoted
  | currencyMismatch | noInvoice | alreadyReversed (reason : Option VoidReason) | paid
  | noReference | noPaymentToReverse | partialRefundNotRecorded | reversed | disputeInquiryNoted
  | noPaymentToReinstate | reinstateNeedsReview | reinstated | ignoredStaleFailure
  | failed (reversal : Outcome) | ignored
  deriving DecidableEq

def webhookActor : Option Text := some "stripe-webhook".toList

/-- `_reverse_recorded_payment`. -/
def reverseRecordedPayment (desk : PaymentDesk) (reference : Text) (reason : VoidReason) :
    Except ApiError (PaymentDesk × Outcome) :=
  if reference = [] then .ok (desk, .noReference)
  else
    match desk.payments.find? fun p => decide (p.reference = some reference) && p.voidedAt.isNone with
    | none => .ok (desk, .noPaymentToReverse)
    | some p => do
      let desk ← applyPaymentVoidState H zone desk p (some reason) webhookActor .retryThenDefer
      let db ← recalculateOf H desk.db p.invoiceId webhookActor
      let db ← reopenIfOwing H db p.invoiceId webhookActor
      return ({ desk with db := db }, .reversed)

/-- Putting the one voided row of a dispute back. The index may refuse a second live row. -/
def unvoidDisputed (desk : PaymentDesk) (p : Payment) : Except ApiError (PaymentDesk × Outcome) :=
  if (desk.voidedReason p.id).any fun r => decide (r ∈ DISPUTE_VOID_REASONS) then
    if indexRefuses desk.db.rows p then .error (.http 500 "handler error")
    else do
      let desk ← applyPaymentVoidState H zone desk p none webhookActor .retryThenDefer
      let db ← recalculateOf H desk.db p.invoiceId webhookActor
      return ({ desk with db := db }, .reinstated)
  else .ok (desk, .reinstateNeedsReview)

/-- `_reinstate_reversed_payment`. -/
def reinstateReversedPayment (desk : PaymentDesk) (reference : Text) : Except ApiError (PaymentDesk × Outcome) :=
  if reference = [] then .ok (desk, .noReference)
  else
    match desk.payments.filter fun p => decide (p.reference = some reference) && p.voidedAt.isSome with
    | [] => .ok (desk, .noPaymentToReinstate)
    | [p] => unvoidDisputed H zone desk p
    | _ :: _ :: _ => .ok (desk, .reinstateNeedsReview)

/-- A PaymentIntent as an event or a read shows it. Amounts are in cents. -/
structure IntentObject where
  id : Text
  succeeded : Bool
  currency : Option Text
  amount : ℕ
  amountReceived : ℕ
  surchargeStamp : ℕ
  latestCharge : Text

inductive Rail where
  | card | ach
  deriving DecidableEq

def Rail.label : Rail → Text
  | .card => "card".toList
  | .ach => "ach".toList

/-- What Stripe answered while a step ran: the rail that paid, the fee collected, the intent's current charge.
    `none` is an answer that could not be read. -/
structure LiveReads where
  rail : Option Rail
  surcharge : Option ℕ
  latestCharge : Option Text

/-- `_split_surcharge`. -/
def splitSurcharge (pi : IntentObject) (received : ℕ) (reads : LiveReads) : ℕ :=
  if pi.surchargeStamp = 0 then 0
  else
    let fee := if pi.id = [] then pi.surchargeStamp else reads.surcharge.getD pi.surchargeStamp
    if received < fee then 0 else fee

/-- `_failure_event_is_superseded`: none is an unknown. -/
def failureEventIsSuperseded (intent failedCharge : Text) (reads : LiveReads) : Option Bool :=
  if intent = [] ∨ failedCharge = [] then none
  else (reads.latestCharge.filter (· ≠ [])).map fun latest => decide (latest ≠ failedCharge)

/-- `_reverse_unless_superseded`. -/
def reverseUnlessSuperseded (desk : PaymentDesk) (reference : Text) (reason : VoidReason) (failedCharge : Text)
    (reads : LiveReads) : Except ApiError (PaymentDesk × Outcome) :=
  if failureEventIsSuperseded reference failedCharge reads = some true then .ok (desk, .ignoredStaleFailure)
  else reverseRecordedPayment H zone desk reference reason

/-- Less than the charge was given back. An amount that is absent is not zero. -/
def partlyRefunded (charged refunded : Option ℤ) : Bool :=
  match charged, refunded with
  | some c, some r => decide (r < c)
  | _, _ => false

/-- `_apply_charge_refund`: a partial refund leaves the payment alone. -/
def applyChargeRefund (desk : PaymentDesk) (reference : Text) (charged refunded : Option ℤ) :
    Except ApiError (PaymentDesk × Outcome) :=
  if reference = [] then .ok (desk, .noReference)
  else if partlyRefunded charged refunded then
    .ok (desk, if desk.payments.any fun p => decide (p.reference = some reference) && p.voidedAt.isNone
      then .partialRefundNotRecorded else .noPaymentToReverse)
  else reverseRecordedPayment H zone desk reference .chargeRefunded

/-- The events the handler knows, with what it reads of `data.object`. -/
inductive StripeEvent where
  | processing (pi : IntentObject)
  | requiresAction (pi : IntentObject) (microdeposits : Bool)
  | succeeded (pi : IntentObject)
  | chargeRefunded (reference : Text) (charged refunded : Option ℤ)
  | disputeCreated (reference : Text) (status : Text)
  | fundsWithdrawn (reference : Text)
  | fundsReinstated (reference : Text)
  | chargeFailed (reference charge : Text)
  | paymentFailed (pi : IntentObject)
  | other

def CURRENCY : Text := "usd".toList

variable (minted : Text → Option ℕ)

/-- `payment_intent.succeeded`. -/
def intentSucceeded (desk : PaymentDesk) (pi : IntentObject) (reads : LiveReads) :
    Except ApiError (PaymentDesk × Outcome) :=
  match minted pi.id with
  | none => .ok (desk, .noInvoiceId)
  | some id =>
    if (pi.currency.getD CURRENCY).map Char.toLower ≠ CURRENCY then .ok (desk, .currencyMismatch)
    else
      match reads.rail, (desk.db.invoiceRow id).filter fun i => !i.deleted with
      | none, _ => .error (.http 500 "handler error")
      | some _, none => .ok (desk, .noInvoice)
      | some rail, some invoice =>
        match deliberatelyVoided desk id pi.id with
        | some reason => .ok (desk, .alreadyReversed reason)
        | none => do
          let fee := splitSurcharge pi pi.amountReceived reads
          let db ← markInvoicePaid H zone desk invoice pi.id rail.label (pi.amountReceived - fee : ℤ) fee
            "stripe-webhook".toList
          return ({ desk with db := db }, .paid)

/-- A note on the invoice's trail for a bank debit. -/
def noteBankDebit (desk : PaymentDesk) (pi : IntentObject) (isDebit : Bool) (noted skipped : Outcome) :
    PaymentDesk × Outcome :=
  match minted pi.id with
  | none => (desk, .noInvoiceId)
  | some _ => (desk, if isDebit then noted else skipped)

/-- `handle_payment_webhook`. -/
def handlePaymentWebhook (desk : PaymentDesk) (reads : LiveReads) :
    StripeEvent → Except ApiError (PaymentDesk × Outcome)
  | .processing pi =>
    .ok (noteBankDebit minted desk pi (decide (reads.rail = some .ach)) .achProcessingNoted .notAch)
  | .requiresAction pi microdeposits =>
    .ok (noteBankDebit minted desk pi (microdeposits && decide (reads.rail = some .ach)) .achVerificationNoted
      .notAchVerification)
  | .succeeded pi => intentSucceeded H zone minted desk pi reads
  | .chargeRefunded reference charged refunded => applyChargeRefund H zone desk reference charged refunded
  | .disputeCreated reference status =>
    if "warning_".toList.isPrefixOf status then .ok (desk, .disputeInquiryNoted)
    else reverseRecordedPayment H zone desk reference .disputeCreated
  | .fundsWithdrawn reference => reverseRecordedPayment H zone desk reference .fundsWithdrawn
  | .fundsReinstated reference => reinstateReversedPayment H zone desk reference
  | .chargeFailed reference charge => reverseUnlessSuperseded H zone desk reference .chargeFailed charge reads
  | .paymentFailed pi => do
    let (desk, reversal) ← reverseUnlessSuperseded H zone desk pi.id .paymentFailed pi.latestCharge reads
    return (desk, .failed reversal)
  | .other => .ok (desk, .ignored)

/-! ### The event log -/

/-- `_FINAL`. -/
def FINAL : List Outcome :=
  [.reversed, .reinstated, .disputeInquiryNoted, .achProcessingNoted, .achVerificationNoted]

/-- The reversals of an event's own kind, and its intent. -/
def StripeEvent.kind : StripeEvent → List VoidReason × Text
  | .chargeRefunded reference _ _ => ([.chargeRefunded], reference)
  | .disputeCreated reference _ | .fundsWithdrawn reference => (DISPUTE_VOID_REASONS, reference)
  | .chargeFailed reference _ => (FAILURE_VOID_REASONS, reference)
  | .paymentFailed pi => (FAILURE_VOID_REASONS, pi.id)
  | .processing pi | .requiresAction pi _ | .succeeded pi => ([], pi.id)
  | .fundsReinstated reference => ([], reference)
  | .other => ([], [])

/-- `_voided_by_its_own_kind`. -/
def voidedByItsOwnKind (desk : PaymentDesk) (event : StripeEvent) : Bool :=
  let (kinds, reference) := event.kind
  decide (reference ≠ []) && desk.payments.any fun p =>
    decide (p.reference = some reference) && p.voidedAt.isSome &&
      (desk.voidedReason p.id).any fun r => decide (r ∈ kinds)

/-- A delivery: the event, its id, what Stripe answered, and whether the event log could be read and written. -/
structure Delivery where
  eventId : Text
  event : StripeEvent
  reads : LiveReads
  logRead : Bool
  logWritten : Bool

/-- A failure nests its reversal. -/
def Outcome.status : Outcome → Outcome
  | .failed reversal => reversal
  | other => other

/-- `_record_handled`. -/
def recordHandled (desk : PaymentDesk) (d : Delivery) (outcome : Outcome) : PaymentDesk :=
  let status := outcome.status
  let final := decide (status ∈ FINAL) || (decide (status = .noPaymentToReverse) && voidedByItsOwnKind desk d.event)
  if decide (d.eventId ≠ []) && d.logWritten && final then { desk with handled := d.eventId :: desk.handled } else desk

/-- `stripe_webhook`, past the signature. -/
def stripeWebhook (desk : PaymentDesk) (d : Delivery) : PaymentDesk :=
  if d.eventId ≠ [] ∧ d.logRead = true ∧ d.eventId ∈ desk.handled then desk
  else
    match handlePaymentWebhook H zone minted desk d.reads d.event with
    | .ok (desk', outcome) => recordHandled desk' d outcome
    | .error _ => desk

/-! ### The pay page and the office -/

/-- `_resolve_public_invoice`, past the token. -/
def resolvePublicInvoice (db : Db) (id : ℕ) (requireBalance : Bool) : Except ApiError Invoice := do
  let invoice ← db.getInvoice id
  refuse (invoice.status = .void) 409 "This invoice has been cancelled."
  refuse (invoice.status = .draft) 404 "Invoice not found"
  refuse (requireBalance = true ∧ invoice.balanceDue ≤ 0) 409 "This invoice has no balance due."
  return invoice

/-- What was received: `amount_received`, else `amount`. -/
def IntentObject.received (pi : IntentObject) : ℕ := if pi.amountReceived ≠ 0 then pi.amountReceived else pi.amount

/-- Record a settled intent that was read from Stripe. -/
def recordSettled (desk : PaymentDesk) (invoice : Invoice) (pi : IntentObject) (reads : LiveReads) (source : Text) :
    Except ApiError PaymentDesk :=
  match reads.rail with
  | none => .error (.http 500 "RailUndeterminable")
  | some rail => do
    let fee := splitSurcharge pi pi.received reads
    let db ← markInvoicePaid H zone desk invoice pi.id rail.label (pi.received - fee : ℤ) fee source
    return { desk with db := db }

/-- `confirm_payment`. The intent as retrieved, or what Stripe said instead. -/
def confirmPayment (desk : PaymentDesk) (id : ℕ) (retrieved : Except String IntentObject) (reads : LiveReads) :
    Except ApiError PaymentDesk := do
  let invoice ← resolvePublicInvoice desk.db id false
  match retrieved with
  | .error detail => .error (.http 402 detail)
  | .ok pi =>
    if minted pi.id ≠ some invoice.id then .error (.http 409 "This payment does not belong to this invoice.")
    else if pi.succeeded then recordSettled H zone desk invoice pi reads "stripe-confirm".toList
    else .ok desk

/-- One intent of `_settle_unrecorded_intents`. A failure leaves it for the webhook. -/
def settleUnrecorded (id : ℕ) (desk : PaymentDesk) (read : IntentObject × LiveReads) : PaymentDesk :=
  let (pi, reads) := read
  if pi.succeeded = false ∨ pi.id = [] ∨ referenceEverRecorded desk id pi.id = true ∨ pi.received = 0 then desk
  else
    match (desk.db.invoiceRow id).map fun invoice =>
      recordSettled H zone desk invoice pi reads "stripe-recovered".toList with
    | some (.ok desk') => desk'
    | _ => desk

/-- A bank debit already moving on the invoice, as Stripe's register shows it. -/
inductive AchStage where
  | verifying | processing
  deriving DecidableEq

def AchStage.detail : AchStage → String
  | .verifying => "A bank transfer for this invoice is waiting for you to confirm a small test deposit. " ++
      "Stripe emailed you the link; your payment starts once you confirm it — you don't need to pay again."
  | .processing => "A bank transfer for this invoice is already processing. " ++
      "Bank transfers take up to 4 business days to clear — you don't need to pay again."

/-- `_refuse_if_ach_processing`. -/
def refuseIfAchProcessing : Option AchStage → Except ApiError Unit
  | none => .ok ()
  | some stage => .error (.http 409 stage.detail)

/-- The recovery of `create_intent`: the snapshot of Stripe's register, read once. -/
def recoverSettledIntents (desk : PaymentDesk) (id : ℕ) (pending : Option AchStage)
    (snapshot : List (IntentObject × LiveReads)) : Except ApiError PaymentDesk := do
  let invoice ← resolvePublicInvoice desk.db id true
  refuseIfAchProcessing pending
  return (snapshot.filter fun read => decide (minted read.1.id = some invoice.id)).foldl
    (settleUnrecorded H zone invoice.id) desk

/-- `void_payment` of the office. -/
def officeVoid (desk : PaymentDesk) (id payment : ℕ) (actor : Text) : Except ApiError PaymentDesk := do
  let db ← voidPayment H zone id payment (some actor) desk.db
  let live := desk.payments.any fun p => decide (p.id = payment) && p.voidedAt.isNone
  return { desk with
    db := db
    voidedReason := if live then Function.update desk.voidedReason payment (some .officeVoid) else desk.voidedReason }

/-! ### Runs -/

inductive PaymentStep where
  | webhook (d : Delivery)
  | confirm (invoice : ℕ) (retrieved : Except String IntentObject) (reads : LiveReads)
  | recover (invoice : ℕ) (pending : Option AchStage) (snapshot : List (IntentObject × LiveReads))
  | officeVoid (invoice payment : ℕ) (actor : Text)

/-- A step, and how many microseconds after the last one. -/
structure PaymentCall where
  wait : ℕ
  step : PaymentStep

/-- The answer of a request: a refusal leaves the desk alone. -/
def PaymentDesk.orElse (desk : PaymentDesk) : Except ApiError PaymentDesk → PaymentDesk
  | .ok desk' => desk'
  | .error _ => desk

def PaymentDesk.tick (desk : PaymentDesk) (wait : ℕ) : PaymentDesk :=
  { desk with db := { desk.db with now := desk.db.now + 1 + wait } }

def PaymentDesk.step (desk : PaymentDesk) : PaymentStep → PaymentDesk
  | .webhook d => stripeWebhook H zone minted desk d
  | .confirm id retrieved reads => desk.orElse (confirmPayment H zone minted desk id retrieved reads)
  | .recover id pending snapshot => desk.orElse (recoverSettledIntents H zone minted desk id pending snapshot)
  | .officeVoid id payment actor => desk.orElse (Gdx.officeVoid H zone desk id payment actor)

def PaymentDesk.serve (desk : PaymentDesk) (call : PaymentCall) : PaymentDesk :=
  (desk.tick call.wait).step H zone minted call.step

def PaymentDesk.run (desk : PaymentDesk) (calls : List PaymentCall) : PaymentDesk :=
  calls.foldl (PaymentDesk.serve H zone minted) desk

end Handlers

end Gdx
