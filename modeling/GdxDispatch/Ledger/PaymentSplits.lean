import GdxDispatch.Ledger.IssuanceLegs
import GdxDispatch.Ledger.OverpaymentHalves

/-! Where the payments of an invoice go.

    Each payment is split by itself, at what is left of the receivable when it is recorded. Together the payments
    relieve the receivable by what they have, up to the total less the credits, and the rest is the customer's: in
    whatever order they are stored or recorded. With P1's debit and the credits' own entries, what is left of the
    receivable is what is still owed. -/

namespace Gdx

open Lib

variable {R R' : Rows} {L : Ledger} {invoice : Invoice} {p : Payment} {lines : List PostingLine}
  {posted posted' : Payment → List PostingLine}

/-- What the legs behind the first one credit to the receivable. -/
def relievedAr (lines : List PostingLine) : ℤ := -roleCents .ar lines.tail

/-- What a balance-reducing adjustment posts. -/
def adjustmentLines (R : Rows) (invoice : Invoice) (a : InvoiceAdjustment) : List PostingLine :=
  match a.kind with
  | .creditMemo => creditMemoLines R invoice a
  | .creditApplied => creditApplicationLines invoice a
  | .refund => []

/-- The payments of an invoice that is not void, each with the lines it posts. -/
structure SplitPayments (R : Rows) (invoice : Invoice) (posted : Payment → List PostingLine) : Prop where
  not_void : invoice.status ≠ .void
  ids : (R.payments.map (·.id)).Nodup
  positive : ∀ p ∈ R.livePayments invoice, 0 < p.amount
  built : ∀ p ∈ R.livePayments invoice, buildPaymentLines R p invoice = .ok (posted p)

theorem relievedAr_payment (h : buildPaymentLines R p invoice = .ok lines) :
    relievedAr lines = arPortion R invoice p := by
  have har : roleCents .ar lines.tail = -arPortion R invoice p := (payment_roleCents .ar h).trans (by simp)
  rw [relievedAr, har, neg_neg]

/-- Nothing of a payment is lost between the receivable and customer credits. -/
theorem relieved_add_routed (h : buildPaymentLines R p invoice = .ok lines) :
    relievedAr lines + routedToCredits lines = p.amount := by
  rw [relievedAr_payment h, routedToCredits_eq h]
  ring

theorem SplitPayments.routed (h : SplitPayments R invoice posted) :
    sumCents (fun p => routedToCredits (posted p)) (R.livePayments invoice) =
      paidCents R invoice -
        min (paidCents R invoice) (max (invoice.total - invoiceCreditedCents R invoice) 0) := by
  rw [routed_total h.not_void h.ids h.positive posted h.built]
  omega

theorem SplitPayments.relieved (h : SplitPayments R invoice posted) :
    sumCents (fun p => relievedAr (posted p)) (R.livePayments invoice) =
      min (paidCents R invoice) (max (invoice.total - invoiceCreditedCents R invoice) 0) := by
  have hwhole : sumCents (fun p => relievedAr (posted p)) (R.livePayments invoice) +
      sumCents (fun p => routedToCredits (posted p)) (R.livePayments invoice) = paidCents R invoice := by
    rw [sumCents, sumCents, ← List.sum_map_add, paidCents, sumCents]
    exact congrArg List.sum (List.map_congr_left fun p hp => relieved_add_routed (h.built p hp))
  rw [h.routed] at hwhole
  omega

/-! ### What is left of the receivable -/

theorem relievedAr_adjustment {a : InvoiceAdjustment} (h : a.kind.reducesBalance = true) :
    relievedAr (adjustmentLines R invoice a) = a.amount := by
  unfold adjustmentLines
  cases hkind : a.kind with
  | creditMemo => simp [relievedAr, roleCents, creditMemoLines, sumCents, Invoice.leg]
  | creditApplied => simp [relievedAr, roleCents, creditApplicationLines, sumCents, Invoice.leg]
  | refund =>
    rw [hkind] at h
    cases h

theorem relieved_adjustments (R : Rows) (invoice : Invoice) :
    sumCents (fun a => relievedAr (adjustmentLines R invoice a))
      ((R.adjustmentsOf invoice).filter (·.kind.reducesBalance)) = invoiceCreditedCents R invoice :=
  congrArg List.sum (List.map_congr_left fun _ ha => relievedAr_adjustment (List.mem_filter.mp ha).2)

/-- P1 debits the receivable with the total, and no other leg of it names the receivable. -/
theorem issuance_ar (h : buildIssuanceLines R L invoice = .ok lines) : roleCents .ar lines = invoice.total := by
  obtain ⟨hzero, rfl⟩ | ⟨-, rfl⟩ := buildIssuanceLines_ok h
  · exact hzero.symm
  · have hmapped : roleCents .ar ((pricedLines R invoice).map
        (issuanceLine L (R.glSettings invoice.companyId) invoice)) = 0 := by
      refine roleCents_of_none fun line hline => ?_
      obtain ⟨il, -, rfl⟩ := List.mem_map.mp hline
      unfold issuanceLine
      split <;> simp [Invoice.leg]
    rw [← List.singleton_append, roleCents_append, issuanceTail, issuanceRest, roleCents_append, roleCents_append,
      hmapped, roleCents_leg, roleCents_leg]
    simp [roleCents, sumCents, issuanceDebit, Invoice.leg]

/-- The payments of an invoice together relieve the receivable by what they have, up to the total less the credits,
    and route the rest to customer credits, whatever the order they were stored or recorded in; and while the credits
    stay within the total, what P1, the credits and the payments leave of the receivable is what is still owed. -/
theorem payment_splits_conserve (R : Rows) (invoice : Invoice) (posted : Payment → List PostingLine)
    (h : SplitPayments R invoice posted) :
    sumCents (fun p => relievedAr (posted p)) (R.livePayments invoice) =
        min (paidCents R invoice) (max (invoice.total - invoiceCreditedCents R invoice) 0) ∧
      sumCents (fun p => routedToCredits (posted p)) (R.livePayments invoice) =
        paidCents R invoice -
          min (paidCents R invoice) (max (invoice.total - invoiceCreditedCents R invoice) 0) ∧
      (∀ (R' : Rows) (posted' : Payment → List PostingLine), SplitPayments R' invoice posted' →
        ((R'.livePayments invoice).map (·.amount)).Perm ((R.livePayments invoice).map (·.amount)) →
        invoiceCreditedCents R' invoice = invoiceCreditedCents R invoice →
        sumCents (fun p => relievedAr (posted' p)) (R'.livePayments invoice) =
            sumCents (fun p => relievedAr (posted p)) (R.livePayments invoice) ∧
          sumCents (fun p => routedToCredits (posted' p)) (R'.livePayments invoice) =
            sumCents (fun p => routedToCredits (posted p)) (R.livePayments invoice)) ∧
      ∀ (L : Ledger) (lines : List PostingLine), invoiceCreditedCents R invoice ≤ invoice.total →
        buildIssuanceLines R L invoice = .ok lines →
        roleCents .ar lines -
            sumCents (fun a => relievedAr (adjustmentLines R invoice a))
              ((R.adjustmentsOf invoice).filter (·.kind.reducesBalance)) -
            sumCents (fun p => relievedAr (posted p)) (R.livePayments invoice) =
          max (invoice.total - invoiceCreditedCents R invoice - paidCents R invoice) 0 := by
  refine ⟨h.relieved, h.routed, ?_, ?_⟩
  · intro R' posted' h' hamounts hcredited
    have hpaid : paidCents R' invoice = paidCents R invoice := hamounts.sum_eq
    rw [h'.relieved, h'.routed, h.relieved, h.routed, hpaid, hcredited]
    exact ⟨rfl, rfl⟩
  · intro L lines hwithin hlines
    rw [issuance_ar hlines, relieved_adjustments, h.relieved]
    omega

/-- 60.00 twice on the invoice with a credit memo of 20.00, the second one stored first. -/
def recordedTwice : Rows :=
  { overpaid 2000 with
    payments := [⟨4, 1, 6000, 0, "check".toList, 0, none, none, 8⟩, ⟨3, 1, 6000, 0, "check".toList, 0, none, none, 5⟩] }

def recordedTwiceLines (p : Payment) : List PostingLine :=
  match buildPaymentLines recordedTwice p creditedInvoice with
  | .ok lines => lines
  | .error _ => []

theorem payment_splits_conserve_recordedTwice :
    sumCents (fun p => relievedAr (recordedTwiceLines p)) (recordedTwice.livePayments creditedInvoice) = 8000 ∧
      sumCents (fun p => routedToCredits (recordedTwiceLines p)) (recordedTwice.livePayments creditedInvoice) = 4000 := by
  obtain ⟨hrelieved, hrouted, -⟩ := payment_splits_conserve recordedTwice creditedInvoice recordedTwiceLines
    ⟨by decide, by decide, by decide, by decide⟩
  exact ⟨hrelieved.trans (by decide), hrouted.trans (by decide)⟩

end Gdx
