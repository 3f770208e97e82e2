import GdxDispatch.Ledger.EraExcess
import GdxDispatch.Ledger.RepairBounds

/-! The AR control tie: `ar_control` of `modules/ledger/reports.py`.

    The report reads every line on an AR account, files it under an invoice through dictionaries of payments and
    adjustments, and compares what each invoice then has with the open balance of its row. What no invoice can claim is
    totalled apart. -/

namespace Gdx
open Lib

/-- A row of `ar_role_lines`. -/
structure ArLine where
  sourceType : Text
  sourceId : Text
  amountCents : ℤ
  deriving DecidableEq

/-- `ar_role_lines`: every line on an account that owns the AR role. -/
def Ledger.arRoleLines (L : Ledger) : List ArLine :=
  L.entries.flatMap fun e => e.lines.flatMap fun l =>
    (L.accounts.filter fun a => a.id == l.accountId && a.role == some .ar).map fun _ =>
      ⟨e.sourceType, e.sourceId, l.amountCents⟩

/-- `gl_ar_balance_cents`. -/
def glArBalanceCents (L : Ledger) : ℤ := sumCents (·.amountCents) L.arRoleLines

section Claimant
variable (R : Rows)

/-- `payment_invoice.get(source_id)`; of two rows under one key the dictionary keeps the last. -/
def Rows.paymentInvoice (sourceId : Text) : Option Text :=
  (rowOf (fun p : Payment => str p.id) R.payments.reverse sourceId).map fun p => str p.invoiceId

/-- `adjustment_invoice.get(source_id)`. -/
def Rows.adjustmentInvoice (sourceId : Text) : Option Text :=
  (rowOf (fun a : InvoiceAdjustment => str a.id) R.adjustments.reverse sourceId).map fun a => str a.invoiceId

/-- The invoice that can claim what a source posted. -/
def claimant (sourceType sourceId : Text) : Option Text :=
  if sourceType = "invoice".toList then some sourceId
  else if sourceType = "payment".toList then R.paymentInvoice sourceId
  else if sourceType = "adjustment".toList then R.adjustmentInvoice sourceId
  else none

/-- What the report adds up as it reads the lines. -/
structure ArTally where
  control : ℤ
  ledgerByInvoice : List (Text × ℤ)
  paymentArByInvoice : List (Text × ℤ)
  unattributed : List (Text × ℤ)

/-- One line. -/
def ArTally.add (t : ArTally) (line : ArLine) : ArTally :=
  match claimant R line.sourceType line.sourceId with
  | none =>
    { t with
      control := t.control + line.amountCents
      unattributed :=
        bump id (if line.sourceType = [] then "manual".toList else line.sourceType) line.amountCents t.unattributed }
  | some invoice =>
    { t with
      control := t.control + line.amountCents
      ledgerByInvoice := bump id invoice line.amountCents t.ledgerByInvoice
      paymentArByInvoice :=
        if line.sourceType = "payment".toList then bump id invoice line.amountCents t.paymentArByInvoice
        else t.paymentArByInvoice }

def arTally (L : Ledger) : ArTally := L.arRoleLines.foldl (ArTally.add R) ⟨0, [], [], []⟩

/-- An invoice whose ledger AR is not its open balance. -/
structure ArDrift where
  invoiceId : Text
  invoiceNumber : String
  status : InvoiceStatus
  deleted : Bool
  openBalanceCents : ℤ
  ledgerArCents : ℤ
  driftCents : ℤ
  balanceDueCents : Option ℤ
  reason : Option String
  deriving DecidableEq

/-- The row of one invoice, if it is off. -/
def ArTally.drift (t : ArTally) (invoice : Invoice) : Option ArDrift :=
  let live := decide (invoice.status ∈ RECEIVABLE_STATUSES) && !invoice.deleted
  let expected := invoice.owedCents
  let ledger := amountAt t.ledgerByInvoice (str invoice.id)
  if ledger = expected then none
  else some {
    invoiceId := str invoice.id
    invoiceNumber := invoice.number
    status := invoice.status
    deleted := invoice.deleted
    openBalanceCents := expected
    ledgerArCents := ledger
    driftCents := ledger - expected
    balanceDueCents := if live then none else some invoice.balanceDue
    reason :=
      if !live ∧ invoice.status = .draft ∧ invoice.deleted = false ∧
        amountAt t.paymentArByInvoice (str invoice.id) ≠ 0 then some "payment_on_draft" else none }

/-- AR filed under an invoice id that no row has goes to `missing_invoice`. -/
def ArTally.unclaimed (t : ArTally) : List (Text × ℤ) :=
  (t.ledgerByInvoice.filter fun s => s.1 ∉ R.invoices.map (fun i => str i.id) ∧ s.2 ≠ 0).foldl
    (fun slots s => bump id "missing_invoice".toList s.2 slots) t.unattributed

end Claimant

/-- `(-abs(drift_cents), invoice_number or "")`. -/
def ArDrift.before (r s : ArDrift) : Bool :=
  decide (|s.driftCents| < |r.driftCents|) ||
    decide (|r.driftCents| = |s.driftCents|) && decide (r.invoiceNumber.toList ≤ s.invoiceNumber.toList)

/-- `(-uncovered_cents, invoice_number or "", payment_id)`. -/
def EraExcess.before (r s : EraExcess) : Bool :=
  decide (s.uncoveredCents < r.uncoveredCents) || decide (r.uncoveredCents = s.uncoveredCents) &&
    (decide (r.invoiceNumber.toList < s.invoiceNumber.toList) ||
      decide (r.invoiceNumber.toList = s.invoiceNumber.toList) && decide (str r.paymentId ≤ str s.paymentId))

def AR_DRIFT_ROW_LIMIT : ℕ := 200

def AR_SHORTFALL_ROW_LIMIT : ℕ := 200

structure ArControl where
  ledgerPostingEnabled : Bool
  cutoverMonth : Option ℤ
  controlCents : ℤ
  subledgerCents : ℤ
  differenceCents : ℤ
  tied : Bool
  eraSettlementShortfallCents : ℤ
  eraSettlementRefundedCents : ℤ
  eraSettlementShortfallCount : ℕ
  eraSettlementShortfalls : List EraExcess
  driftInvoiceCount : ℕ
  drift : List ArDrift
  unattributedCents : ℤ
  unattributedBySource : List (Text × ℤ)

/-- `ar_control`. -/
def arControl (R : Rows) (L : Ledger) (company : ℕ) : ArControl :=
  let tally := arTally R L
  let subledger := sumCents Invoice.owedCents R.invoices
  let drift := R.invoices.filterMap tally.drift
  let unattributed := tally.unclaimed R
  let unattributedCents := sumCents (·.2) unattributed
  let excess := eraSettlementExcess R L company
  let shortfalls := eraSettlementShortfalls R L company
  let shortfallCents := sumCents (·.uncoveredCents) shortfalls
  { ledgerPostingEnabled := (R.glSettings company).any (·.ledgerPostingEnabled)
    cutoverMonth := (R.glSettings company).bind (·.cutoverMonth)
    controlCents := tally.control
    subledgerCents := subledger
    differenceCents := tally.control - subledger
    tied := decide (tally.control = subledger ∧ drift = [] ∧ unattributedCents = 0 ∧ shortfallCents = 0)
    eraSettlementShortfallCents := shortfallCents
    eraSettlementRefundedCents := sumCents (·.refundedCents) excess
    eraSettlementShortfallCount := shortfalls.length
    eraSettlementShortfalls := (shortfalls.mergeSort EraExcess.before).take AR_SHORTFALL_ROW_LIMIT
    driftInvoiceCount := drift.length
    drift := (drift.mergeSort ArDrift.before).take AR_DRIFT_ROW_LIMIT
    unattributedCents := unattributedCents
    unattributedBySource :=
      (unattributed.mergeSort fun s s' => decide (s.1 ≤ s'.1)).filter fun s => decide (s.2 ≠ 0) }

/-! ### The dictionaries -/

variable {R : Rows} {L : Ledger} {company : ℕ} {invoice : Invoice}

/-- Amounts under the invoice that claims them. -/
def claimedSums (R : Rows) (lines : List ArLine) : List (Text × ℤ) :=
  lines.filterMap fun l => (claimant R l.sourceType l.sourceId).map fun invoice => (invoice, l.amountCents)

/-- Amounts that no invoice claims, under their source type. -/
def leftOver (R : Rows) (lines : List ArLine) : List (Text × ℤ) :=
  (lines.filter fun l => claimant R l.sourceType l.sourceId = none).map fun l =>
    (if l.sourceType = [] then "manual".toList else l.sourceType, l.amountCents)

section Cons
variable {line : ArLine} {lines : List ArLine}

theorem claimedSums_cons_none (h : claimant R line.sourceType line.sourceId = none) :
    claimedSums R (line :: lines) = claimedSums R lines := List.filterMap_cons_none (by rw [h]; rfl)

theorem claimedSums_cons_some {key : Text} (h : claimant R line.sourceType line.sourceId = some key) :
    claimedSums R (line :: lines) = (key, line.amountCents) :: claimedSums R lines := List.filterMap_cons_some (by rw [h]; rfl)

theorem leftOver_cons_none (h : claimant R line.sourceType line.sourceId = none) :
    leftOver R (line :: lines) =
      (if line.sourceType = [] then "manual".toList else line.sourceType, line.amountCents) :: leftOver R lines := by
  rw [leftOver, List.filter_cons, if_pos (decide_eq_true h)]
  rfl

theorem leftOver_cons_some {key : Text} (h : claimant R line.sourceType line.sourceId = some key) :
    leftOver R (line :: lines) = leftOver R lines := by
  have hclaimed : ¬claimant R line.sourceType line.sourceId = none := by rw [h]; exact Option.some_ne_none key
  rw [leftOver, List.filter_cons, if_neg (by rwa [decide_eq_true_iff])]
  rfl

end Cons

theorem foldl_add (R : Rows) (lines : List ArLine) (t : ArTally) :
    (lines.foldl (ArTally.add R) t).control = t.control + sumCents (·.amountCents) lines ∧
      (lines.foldl (ArTally.add R) t).ledgerByInvoice =
        (claimedSums R lines).foldl (fun slots row => bump id row.1 row.2 slots) t.ledgerByInvoice ∧
      (lines.foldl (ArTally.add R) t).unattributed =
        (leftOver R lines).foldl (fun slots row => bump id row.1 row.2 slots) t.unattributed := by
  induction lines generalizing t with
  | nil => exact ⟨(add_zero _).symm, rfl, rfl⟩
  | cons line lines ih =>
    obtain ⟨hcontrol, hledger, hleft⟩ := ih (t.add R line)
    rw [List.foldl_cons, hcontrol, hledger, hleft, sumCents_cons, ← add_assoc]
    cases hclaim : claimant R line.sourceType line.sourceId with
    | none =>
      rw [ArTally.add, hclaim, claimedSums_cons_none hclaim, leftOver_cons_none hclaim]
      exact ⟨rfl, rfl, rfl⟩
    | some invoice =>
      rw [ArTally.add, hclaim, claimedSums_cons_some hclaim, leftOver_cons_some hclaim]
      exact ⟨rfl, rfl, rfl⟩

/-- Of rows under distinct keys it does not matter which one the dictionary keeps. -/
theorem rowOf_reverse {α : Type} {key : α → ℕ} {rows : List α} (hkeys : (rows.map key).Nodup) {a : α} {sid : Text} :
    rowOf (fun a => str (key a)) rows.reverse sid = some a ↔ a ∈ rows ∧ str (key a) = sid := by
  have htexts : (rows.reverse.map fun a => str (key a)).Nodup := by
    have hmap : rows.map (fun a => str (key a)) = (rows.map key).map str := by rw [List.map_map]; rfl
    rw [List.map_reverse, List.nodup_reverse, hmap]
    exact hkeys.map fun m n h => str_inj.mp h
  rw [rowOf_eq_some_iff htexts, List.mem_reverse]

theorem paymentInvoice_iff (hkeyed : R.BillsKeyed) (sid : Text) :
    R.paymentInvoice sid = some (str invoice.id) ↔ ∃ p ∈ R.paymentsOf invoice, sid = str p.id := by
  simp only [Rows.paymentInvoice, Option.map_eq_some_iff, rowOf_reverse hkeyed.payments, str_inj, Rows.paymentsOf,
    List.mem_filter, beq_iff_eq]
  constructor
  · rintro ⟨p, ⟨hp, hid⟩, howner⟩
    exact ⟨p, ⟨hp, howner⟩, hid.symm⟩
  · rintro ⟨p, ⟨hp, howner⟩, hid⟩
    exact ⟨p, ⟨hp, hid.symm⟩, howner⟩

theorem adjustmentInvoice_iff (hkeyed : R.BillsKeyed) (sid : Text) :
    R.adjustmentInvoice sid = some (str invoice.id) ↔ ∃ a ∈ R.adjustmentsOf invoice, sid = str a.id := by
  simp only [Rows.adjustmentInvoice, Option.map_eq_some_iff, rowOf_reverse hkeyed.adjustments, str_inj, Rows.adjustmentsOf,
    List.mem_filter, beq_iff_eq]
  constructor
  · rintro ⟨a, ⟨ha, hid⟩, howner⟩
    exact ⟨a, ⟨ha, howner⟩, hid.symm⟩
  · rintro ⟨a, ⟨ha, howner⟩, hid⟩
    exact ⟨a, ⟨ha, hid.symm⟩, howner⟩

/-- Both paths file a source under the same invoice. -/
theorem claimant_eq_some_iff (hkeyed : R.BillsKeyed) (e : GlJournalEntry) :
    claimant R e.sourceType e.sourceId = some (str invoice.id) ↔ attributed R invoice e = true := by
  have hpay : "payment".toList ≠ "invoice".toList := by decide
  have hadj : "adjustment".toList ≠ "invoice".toList := by decide
  have hadj' : "adjustment".toList ≠ "payment".toList := by decide
  simp only [attributed, GlJournalEntry.hasSource, Bool.or_eq_true, Bool.and_eq_true, beq_iff_eq, List.any_eq_true]
  unfold claimant
  split_ifs with h₁ h₂ h₃
  · rw [h₁, Option.some_inj]
    simp only [hpay.symm, hadj.symm, false_and, or_false, true_and]
  · rw [h₂, paymentInvoice_iff hkeyed]
    simp only [hpay, hadj'.symm, false_and, or_false, false_or, true_and]
  · rw [h₃, adjustmentInvoice_iff hkeyed]
    simp only [hadj, hadj', false_and, false_or, true_and]
  · simp only [h₁, h₂, h₃, false_and, or_false]

/-! ### One invoice's AR -/

/-- Lines chosen by their source, over the entries of that choice. -/
theorem sum_arRoleLines (Q : Text → Text → Bool) :
    sumCents (·.amountCents) (L.arRoleLines.filter fun l => Q l.sourceType l.sourceId) =
      sumCents L.arOf (L.entries.filter fun e => Q e.sourceType e.sourceId) := by
  rw [sumCents_filter_ite, sumCents_filter_ite, Ledger.arRoleLines, sumCents_flatMap]
  refine sumCents_congr fun e _ => ?_
  rw [Ledger.arOf, sumCents_flatMap, sumCents_flatMap]
  by_cases hQ : Q e.sourceType e.sourceId = true
  · rw [if_pos hQ]
    refine sumCents_congr fun l _ => ?_
    simp [sumCents, hQ]
  · rw [if_neg hQ]
    simp [sumCents, hQ]

theorem sum_claimed (key : Text) (lines : List ArLine) :
    (((claimedSums R lines).filter (·.1 = key)).map (·.2)).sum =
      sumCents (·.amountCents) (lines.filter fun l => claimant R l.sourceType l.sourceId = some key) := by
  induction lines with
  | nil => rfl
  | cons line lines ih =>
    cases hclaim : claimant R line.sourceType line.sourceId with
    | none =>
      rw [claimedSums_cons_none hclaim, ih]
      simp [hclaim]
    | some invoice =>
      rw [claimedSums_cons_some hclaim]
      by_cases hkey : invoice = key
      · simp [hclaim, hkey, sumCents_cons, ih]
      · simp [hclaim, hkey, ih]

/-- What the report files under an invoice is the invoice's receivable on the ledger. -/
theorem ledgerByInvoice_eq (hkeyed : R.BillsKeyed) (invoice : Invoice) :
    amountAt (arTally R L).ledgerByInvoice (str invoice.id) = invoiceArBalanceCents R L invoice := by
  have hslots : amountAt (arTally R L).ledgerByInvoice (str invoice.id) =
      sumCents (·.amountCents) (L.arRoleLines.filter fun l => claimant R l.sourceType l.sourceId = some (str invoice.id)) := by
    rw [arTally, (foldl_add R L.arRoleLines _).2.1, amountAt_foldl_bump, sum_claimed]
    exact zero_add _
  have hbalance : invoiceArBalanceCents R L invoice = sumCents L.arOf (L.entries.filter (attributed R invoice)) := by
    rw [invoiceArBalanceCents, sumCents_flatMap]
    rfl
  rw [hslots, hbalance, sum_arRoleLines fun st sid => claimant R st sid = some (str invoice.id)]
  congr 1
  refine List.filter_congr fun e _ => ?_
  rw [Bool.eq_iff_iff, decide_eq_true_iff, claimant_eq_some_iff hkeyed]

/-! ### The totals -/

theorem sum_leftOver_claimed (lines : List ArLine) :
    ((leftOver R lines).map (·.2)).sum + ((claimedSums R lines).map (·.2)).sum = sumCents (·.amountCents) lines := by
  induction lines with
  | nil => rfl
  | cons line lines ih =>
    rw [sumCents_cons, ← ih]
    cases hclaim : claimant R line.sourceType line.sourceId with
    | none => rw [claimedSums_cons_none hclaim, leftOver_cons_none hclaim, List.map_cons, List.sum_cons, add_assoc]
    | some invoice => rw [claimedSums_cons_some hclaim, leftOver_cons_some hclaim, List.map_cons, List.sum_cons, add_left_comm]

theorem weighted_one (rows : List (Text × ℤ)) : weighted (fun _ => 1) rows = sumCents (·.2) rows := by
  simp [weighted, sumCents]

/-- Dropping the zero slots and renaming the rest to `missing_invoice` changes no total. -/
theorem sum_unclaimed (R : Rows) (L : Ledger) :
    sumCents (·.2) ((arTally R L).unclaimed R) = sumCents (·.2) (leftOver R L.arRoleLines) +
      sumCents (·.2) ((claimedSums R L.arRoleLines).filter fun s => s.1 ∉ R.invoices.map fun i => str i.id) := by
  have hunattributed : (arTally R L).unattributed = tally id (leftOver R L.arRoleLines) := (foldl_add R L.arRoleLines _).2.2
  have hledger : (arTally R L).ledgerByInvoice = tally id (claimedSums R L.arRoleLines) := (foldl_add R L.arRoleLines _).2.1
  set seen := R.invoices.map fun i => str i.id with hseen
  -- a key weighs one if no invoice has it
  set w : Text → ℤ := fun key => if decide (key ∉ seen) then 1 else 0 with hw
  have hmissing : ∀ slots : List (Text × ℤ), sumCents (·.2) (slots.filter fun s => s.1 ∉ seen) = weighted w slots := by
    intro slots
    rw [hw, ← sum_filter_eq_weighted (fun key => decide (key ∉ seen)) 1 slots]
    simp [sumCents]
  have hrename : (arTally R L).unclaimed R = (((arTally R L).ledgerByInvoice.filter fun s => s.1 ∉ seen ∧ s.2 ≠ 0).map
      fun s => ("missing_invoice".toList, s.2)).foldl (fun slots row => bump id row.1 row.2 slots)
        (arTally R L).unattributed := by
    rw [List.foldl_map]
    rfl
  rw [hrename, ← weighted_one, weighted_foldl_bump _ _ fun _ _ _ _ _ => rfl, hunattributed,
    weighted_tally fun _ _ _ _ _ => rfl, weighted_one, hmissing, hledger]
  congr 1
  have htally : weighted w (tally id (claimedSums R L.arRoleLines)) = weighted w (claimedSums R L.arRoleLines) :=
    weighted_tally fun _ _ _ _ h => congrArg w h
  rw [← htally, ← weighted_filter_nonzero w, ← hmissing, List.filter_filter,
    weighted_one, sumCents, List.map_map]
  show sumCents (fun s : Text × ℤ => s.2) _ = _
  congr 1
  exact List.filter_congr fun s _ => by rw [Bool.decide_and]

theorem ar_control_identity (R : Rows) (L : Ledger) (company : ℕ) (hkeyed : R.BillsKeyed) :
    (arControl R L company).controlCents = glArBalanceCents L ∧
      (arControl R L company).differenceCents =
        (R.invoices.map (driftCents R L)).sum + (arControl R L company).unattributedCents := by
  have hcontrol : (arTally R L).control = glArBalanceCents L := by
    rw [arTally, (foldl_add R L.arRoleLines _).1, glArBalanceCents]
    exact zero_add _
  have hids : (R.invoices.map fun i => str i.id).Nodup := by
    have hmap : R.invoices.map (fun i => str i.id) = (R.invoices.map Invoice.id).map str := by rw [List.map_map]; rfl
    rw [hmap]
    exact hkeyed.invoices.map fun m n h => str_inj.mp h
  have hclaimed : sumCents (invoiceArBalanceCents R L) R.invoices =
      (((claimedSums R L.arRoleLines).filter (·.1 ∈ R.invoices.map fun i => str i.id)).map (·.2)).sum := by
    rw [← sum_under_keys hids fun key => decide_eq_true_iff, List.map_map]
    refine sumCents_congr fun invoice _ => ?_
    rw [← ledgerByInvoice_eq hkeyed, arTally, (foldl_add R L.arRoleLines _).2.1, amountAt_foldl_bump]
    exact zero_add _
  have hsplit : sumCents (·.2) (claimedSums R L.arRoleLines) =
      (((claimedSums R L.arRoleLines).filter (·.1 ∈ R.invoices.map fun i => str i.id)).map (·.2)).sum +
        sumCents (·.2) ((claimedSums R L.arRoleLines).filter fun s => s.1 ∉ R.invoices.map fun i => str i.id) := by
    rw [← sumCents, sumCents_filter_ite, sumCents_filter_ite]
    unfold sumCents
    rw [← List.sum_map_add]
    refine sumCents_congr fun row _ => ?_
    by_cases hmem : row.1 ∈ R.invoices.map fun i => str i.id <;> simp [hmem]
  have htotal : sumCents (·.2) (leftOver R L.arRoleLines) + sumCents (·.2) (claimedSums R L.arRoleLines) = glArBalanceCents L :=
    sum_leftOver_claimed L.arRoleLines
  have hdrift : (R.invoices.map (driftCents R L)).sum =
      sumCents (invoiceArBalanceCents R L) R.invoices - sumCents Invoice.owedCents R.invoices := by
    rw [eq_sub_iff_add_eq, sumCents, ← List.sum_map_add]
    exact sumCents_congr fun invoice _ => sub_add_cancel _ _
  refine ⟨hcontrol, ?_⟩
  show (arTally R L).control - sumCents Invoice.owedCents R.invoices = _ + sumCents (·.2) ((arTally R L).unclaimed R)
  rw [hcontrol, hdrift, hclaimed, sum_unclaimed, ← htotal, hsplit]
  ring

/-- The control is the AR on the ledger, and what it has beyond the open balances is the drift of the invoices and the AR
    that no invoice can claim. -/
theorem ar_control_difference (R : Rows) (L : Ledger) (company : ℕ) (hkeyed : R.BillsKeyed) :
    (arControl R L company).controlCents = glArBalanceCents L ∧
      (arControl R L company).differenceCents =
        (R.invoices.map (driftCents R L)).sum + (arControl R L company).unattributedCents ∧
      ∀ invoice ∈ R.invoices, amountAt (arTally R L).ledgerByInvoice (str invoice.id) = invoiceArBalanceCents R L invoice := by
  obtain ⟨hcontrol, hdifference⟩ := ar_control_identity R L company hkeyed
  exact ⟨hcontrol, hdifference, fun invoice _ => ledgerByInvoice_eq hkeyed invoice⟩

theorem memoRows_keyed : memoRows.BillsKeyed := ⟨by decide, by decide, by decide⟩

/-- The memo posted twice is the whole difference. -/
theorem ar_control_difference_memo : (arControl memoRows memoLedger 0).controlCents = 1500 ∧
    (arControl memoRows memoLedger 0).differenceCents =
      (memoRows.invoices.map (driftCents memoRows memoLedger)).sum + (arControl memoRows memoLedger 0).unattributedCents ∧
    (memoRows.invoices.map (driftCents memoRows memoLedger)).sum = -1500 := by
  obtain ⟨hcontrol, hdifference, -⟩ := ar_control_difference memoRows memoLedger 0 memoRows_keyed
  have hledger : glArBalanceCents memoLedger = 1500 := by decide +kernel
  exact ⟨hcontrol.trans hledger, hdifference, by decide +kernel⟩

/-! ### Tied -/

theorem shortfallCents_eq_zero (R : Rows) (L : Ledger) (company : ℕ) :
    sumCents (·.uncoveredCents) (eraSettlementShortfalls R L company) = 0 ↔ eraSettlementShortfalls R L company = [] := by
  have hpos : ∀ row ∈ eraSettlementShortfalls R L company, 0 < row.uncoveredCents := fun row hrow =>
    of_decide_eq_true (List.mem_filter.mp hrow).2
  cases hrows : eraSettlementShortfalls R L company with
  | nil => simp [sumCents]
  | cons row rows =>
    rw [hrows] at hpos
    have hrest : 0 ≤ sumCents (·.uncoveredCents) rows :=
      List.sum_nonneg (by simpa using fun r hr => (hpos r (List.mem_cons_of_mem _ hr)).le)
    have hrow := hpos row List.mem_cons_self
    rw [sumCents_cons]
    exact ⟨fun h => absurd h (by omega), fun h => by cases h⟩

/-- The books are tied exactly when every invoice's receivable on the ledger is its open balance, the AR that no invoice can
    claim nets to nothing, and no era settlement is short. -/
theorem ar_control_tied_iff (R : Rows) (L : Ledger) (company : ℕ) (hkeyed : R.BillsKeyed) :
    (arControl R L company).tied = true ↔
      (∀ invoice ∈ R.invoices, invoiceArBalanceCents R L invoice = invoice.owedCents) ∧
        (arControl R L company).unattributedCents = 0 ∧ eraSettlementShortfalls R L company = [] := by
  have hdrift : R.invoices.filterMap (arTally R L).drift = [] ↔
      ∀ invoice ∈ R.invoices, invoiceArBalanceCents R L invoice = invoice.owedCents := by
    simp [List.filterMap_eq_nil_iff, ArTally.drift, ledgerByInvoice_eq hkeyed]
  have htied : (arControl R L company).tied = true ↔ (arControl R L company).differenceCents = 0 ∧
      R.invoices.filterMap (arTally R L).drift = [] ∧ (arControl R L company).unattributedCents = 0 ∧
        sumCents (·.uncoveredCents) (eraSettlementShortfalls R L company) = 0 := by
    rw [show (arControl R L company).differenceCents = (arTally R L).control - sumCents Invoice.owedCents R.invoices from rfl,
      sub_eq_zero]
    exact decide_eq_true_iff
  rw [htied, hdrift, shortfallCents_eq_zero]
  refine and_iff_right_of_imp ?_
  rintro ⟨hall, hleft, -⟩
  rw [(ar_control_identity R L company hkeyed).2, hleft, add_zero]
  refine List.sum_eq_zero fun cents hcents => ?_
  obtain ⟨invoice, hinvoice, rfl⟩ := List.mem_map.mp hcents
  exact sub_eq_zero.mpr (hall invoice hinvoice)

/-- 70.00 is open on the first invoice and 50.00 on the second. -/
def offsetRows : Rows :=
  { eraRows with
    invoices := [{ eraInvoice with balanceDue := 7000 }, { eraInvoice with id := 2, number := "INV-2", balanceDue := 5000 }]
    payments := [⟨3, 1, 3000, 0, "cash".toList, 110, none, none, 110 * DAY⟩] }

/-- The payment of 30.00 was posted at 20.00, and the second invoice opened 10.00 short. -/
def offsetLedger : Ledger :=
  ((Book.mk Ledger.seeded []).run plainHash
    [.post (memoEvent "opening" "invoice" 1 10000) false, .post (memoEvent "payment" "payment" 3 (-2000)) false,
      .post (memoEvent "opening" "invoice" 2 4000) false]).ledger

/-- The totals agree and the invoices do not. -/
theorem ar_control_tied_iff_offset : (arControl offsetRows offsetLedger 0).differenceCents = 0 ∧
    offsetRows.invoices.map (driftCents offsetRows offsetLedger) = [1000, -1000] ∧
    (arControl offsetRows offsetLedger 0).tied = false := by
  refine ⟨by decide +kernel, by decide +kernel, ?_⟩
  have hkeyed : offsetRows.BillsKeyed := ⟨by decide, by decide, by decide⟩
  rw [← Bool.not_eq_true, ar_control_tied_iff offsetRows offsetLedger 0 hkeyed]
  rintro ⟨htied, -⟩
  have hoff : ∃ invoice ∈ offsetRows.invoices,
      invoiceArBalanceCents offsetRows offsetLedger invoice ≠ invoice.owedCents := by decide +kernel
  obtain ⟨invoice, hinvoice, hne⟩ := hoff
  exact hne (htied invoice hinvoice)

end Gdx
