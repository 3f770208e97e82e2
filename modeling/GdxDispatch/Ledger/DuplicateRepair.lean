import GdxDispatch.Lib.Keyed
import GdxDispatch.Ledger.Rules
import GdxDispatch.Ledger.JournalRun

/-! Repairing duplicate one-shot postings: `duplicate_one_shot_entries` and its reversal in `modules/ledger/backfill.py`.

    An opening, a void of an opening payment and an adjustment are posted once. Where the journal holds several live entries
    of one of them, the earliest is kept and the others are a group of duplicates. A group may be reversed as far as the
    drift of its invoice still holds what the duplicates hold, the groups ahead having claimed theirs. -/

namespace Gdx
open Lib

/-! ### The scan -/

/-- `ONE_SHOT_EVENTS`. -/
def ONE_SHOT_EVENTS : List (Text × Text) :=
  [("invoice", "opening"), ("payment", "opening_payment_void"), ("adjustment", "credit_memo"), ("adjustment", "refund"),
    ("adjustment", "credit_applied")].map fun (st, ev) => (st.toList, ev.toList)

/-- `RECEIVABLE_STATUSES`. -/
def RECEIVABLE_STATUSES : List InvoiceStatus := ISSUED_STATUSES ++ [.overdue]

/-- A source and an event. -/
structure OneShot where
  sourceType : Text
  sourceId : Text
  event : Text
  deriving DecidableEq

/-- The one-shot posting that an entry's key names, if its own source agrees. -/
def GlJournalEntry.oneShot (e : GlJournalEntry) : Option OneShot :=
  match e.idempotencyKey.splitOn ':' with
  | [st, sid, ev, _, _] =>
    if st = e.sourceType ∧ sid = e.sourceId ∧ (st, ev) ∈ ONE_SHOT_EVENTS then some ⟨st, sid, ev⟩ else none
  | _ => none

/-- The live one-shot entries, in the order they were posted. -/
def Ledger.liveOneShots (L : Ledger) : List GlJournalEntry := L.entries.filter fun e => e.isPosted && e.oneShot.isSome

/-- The live entries of one posting. -/
def Ledger.groupOf (L : Ledger) (shot : OneShot) : List GlJournalEntry :=
  L.liveOneShots.filter fun e => e.oneShot = some shot

/-- The AR that an entry holds, over every account of the role. -/
def Ledger.arOf (L : Ledger) (e : GlJournalEntry) : ℤ :=
  sumCents (·.amountCents) (e.lines.flatMap fun l =>
    (L.accounts.filter fun a => a.id == l.accountId && a.role == some .ar).map fun _ => l)

/-- What the row owes. -/
def Invoice.owedCents (invoice : Invoice) : ℤ :=
  if invoice.status ∈ RECEIVABLE_STATUSES ∧ invoice.deleted = false then invoice.balanceDue else 0

/-- The ledger's AR of an invoice less what the row owes. -/
def driftCents (R : Rows) (L : Ledger) (invoice : Invoice) : ℤ := invoiceArBalanceCents R L invoice - invoice.owedCents

/-- A group of duplicates. -/
structure DuplicateGroup where
  shot : OneShot
  invoiceId : Option ℕ
  invoiceNumber : Option String
  keeperEntryId : ℕ
  keeperEntryNo : ℕ
  duplicateEntryIds : List ℕ
  duplicateEntryNos : List ℕ
  arCents : ℤ
  laterEntryMatches : Bool
  deriving DecidableEq

/-- A row of the report. -/
structure RepairRow extends DuplicateGroup where
  reversible : Bool
  holdReason : Option String
  invoiceDriftCents : Option ℤ
  deriving DecidableEq

section Scan
variable (uuid : Text → Option ℕ) (R : Rows) (L : Ledger) (company : ℕ)

/-- `session.get(Invoice, id)`. -/
def Rows.invoice? (id : ℕ) : Option Invoice := rowOf Invoice.id R.invoices id

/-- `_invoice_id`. -/
def shotInvoiceId (shot : OneShot) : Option ℕ :=
  (uuid shot.sourceId).bind fun sid =>
    if shot.sourceType = "invoice".toList then some sid
    else if shot.sourceType = "payment".toList then (rowOf Payment.id R.payments sid).map Payment.invoiceId
    else (rowOf InvoiceAdjustment.id R.adjustments sid).map InvoiceAdjustment.invoiceId

/-- A later anchor, not the kept one, matches the opening balance as it is computed now. -/
def laterMatches (shot : OneShot) (keeper : GlJournalEntry) (duplicates : List GlJournalEntry) : Bool :=
  shot.event = "opening".toList &&
    match (uuid shot.sourceId).bind R.invoice?, R.cutoverDate company with
    | some invoice, some cutover =>
      L.arOf keeper ≠ openingBalanceCents R invoice cutover &&
        duplicates.any fun d => L.arOf d = openingBalanceCents R invoice cutover
    | _, _ => false

/-- The group of a posting that is live more than once. -/
def duplicateGroup (shot : OneShot) : Option DuplicateGroup :=
  match L.groupOf shot with
  | keeper :: d :: ds =>
    some {
      shot := shot
      invoiceId := shotInvoiceId uuid R shot
      invoiceNumber := ((shotInvoiceId uuid R shot).bind R.invoice?).map Invoice.number
      keeperEntryId := keeper.id
      keeperEntryNo := keeper.entryNo
      duplicateEntryIds := (d :: ds).map GlJournalEntry.id
      duplicateEntryNos := (d :: ds).map GlJournalEntry.entryNo
      arCents := sumCents L.arOf (d :: ds)
      laterEntryMatches := laterMatches uuid R L company shot keeper (d :: ds) }
  | _ => none

/-- `(-abs(ar_cents), invoice_number or "")`. -/
def DuplicateGroup.ahead (g g' : DuplicateGroup) : Bool :=
  |g'.arCents| < |g.arCents| || (|g.arCents| = |g'.arCents| && decide (g.invoiceNumber.getD "" ≤ g'.invoiceNumber.getD ""))

/-- The groups, those that hold the most AR first. -/
def duplicateGroups : List DuplicateGroup :=
  ((L.liveOneShots.filterMap GlJournalEntry.oneShot).eraseDups.filterMap (duplicateGroup uuid R L company)).insertionSort
    fun g g' => g.ahead g' = true

/-- The drift that an invoice has before any group claims of it. -/
def invoiceDrift (id : ℕ) : ℤ := ((R.invoice? id).map (driftCents R L)).getD 0

def DuplicateGroup.held (g : DuplicateGroup) (reason : String) (drift : Option ℤ) : RepairRow :=
  { g with reversible := false, holdReason := some reason, invoiceDriftCents := drift }

/-- The groups claim of the drift of their invoices, one after another. -/
def claimDrift (unclaimed : ℕ → Option ℤ) : List DuplicateGroup → List RepairRow
  | [] => []
  | g :: gs =>
    if g.arCents = 0 then
      g.held "holds no AR; its cash or credit effect needs review by hand" none :: claimDrift unclaimed gs
    else
      match g.invoiceId with
      | none => g.held "no invoice to measure its drift against" none :: claimDrift unclaimed gs
      | some id =>
        if g.laterEntryMatches then
          g.held ("a later anchor, not the kept one, matches the opening balance " ++
            "the invoice computes now; choose by hand") none :: claimDrift unclaimed gs
        else
          let drift := (unclaimed id).getD (invoiceDrift R L id)
          if decide (0 < drift) ≠ decide (0 < g.arCents) ∨ |drift| < |g.arCents| then
            g.held ("the invoice's ledger drift (" ++ toString drift ++ " cents) does not still hold " ++
              "this AR; a later entry may have absorbed it") (some drift) ::
                claimDrift (Function.update unclaimed id (some drift)) gs
          else
            { g with reversible := true, holdReason := none, invoiceDriftCents := some drift } ::
              claimDrift (Function.update unclaimed id (some (drift - g.arCents))) gs

/-- An anchor's source is no id, or the invoice to measure against is gone. -/
def scanRaises : Bool :=
  (duplicateGroups uuid R L company).any fun g =>
    (g.shot.event = "opening".toList && (uuid g.shot.sourceId).isNone) ||
      (g.arCents ≠ 0 && !g.laterEntryMatches && g.invoiceId.any fun id => (R.invoice? id).isNone)

/-- `duplicate_one_shot_entries`; `none` is a raise. -/
def duplicateOneShotEntries : Option (List RepairRow) :=
  if scanRaises uuid R L company then none
  else some (claimDrift R L (fun _ => none) (duplicateGroups uuid R L company))

end Scan

/-! ### The reversal -/

/-- Each duplicate of each group is reversed. -/
def reverseGroups (effectiveAt : Option ℤ) (actor : Text) (rows : List RepairRow) : LedgerM Unit :=
  each (fun row => each (fun id => do
    let _ ← reverseEntry id effectiveAt (some actor) false) row.duplicateEntryIds) rows

/-- A duplicate of the group, or the date given, is in a locked period. -/
def RepairRow.blocked (L : Ledger) (effectiveAt : Option ℤ) (row : RepairRow) : Bool :=
  match (L.locks.map GlPeriodLock.lockDate).max? with
  | none => false
  | some lockDate => row.duplicateEntryIds.any fun id =>
      (L.entryById id).any fun e => decide (effectiveAt.getD e.effectiveAt ≤ lockDate)

/-- `reverse_duplicate_one_shot_entries`: the groups that were reversed. -/
def reverseDuplicateOneShotEntries (uuid : Text → Option ℕ) (R : Rows) (company : ℕ) (actor : Text)
    (effectiveAt : Option ℤ) : LedgerM (List RepairRow) := fun L =>
  if actor.all Char.isWhitespace then
    .error (.ledgerConfig "an acting user is required to reverse ledger entries") L
  else
    match duplicateOneShotEntries uuid R L company with
    | none => .error (.ledgerConfig "duplicate_one_shot_entries raised") L
    | some rows =>
      let picked := rows.filter fun row => row.reversible && !row.blocked L effectiveAt
      match reverseGroups effectiveAt actor picked L with
      | .ok () L' => .ok picked L'
      | .error e L' => .error e L'

end Gdx
