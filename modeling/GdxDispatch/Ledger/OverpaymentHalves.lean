import Mathlib
import GdxDispatch.Lib.Waterfall
import GdxDispatch.Ledger.Rules

/-! The two halves of an overpayment.

    `build_payment_lines` splits each payment at what is left of the receivable when it is recorded and sends the rest
    to customer credits; `_refund_overpayment_cents` computes the overpayment of the whole invoice at once. The first
    half is a cap filled in order, the cap being the total less the credits. The second subtracts the credits from the
    payments, where they should be subtracted from the total, so that a credit memo makes the halves disagree. -/

namespace Gdx

open Lib

variable {R : Rows} {invoice : Invoice} {p : Payment} {lines : List PostingLine}

/-- The 2300 legs of an entry, in cents. -/
def customerCreditCents (lines : List PostingLine) : ℤ :=
  sumCents (·.amountCents) (lines.filter (·.role == some .customerCredits))

/-- What a payment's lines credit to 2300; the cash leg leads. -/
def routedToCredits (lines : List PostingLine) : ℤ := -customerCreditCents lines.tail

/-- The invoice's non-voided payments. -/
def Rows.livePayments (R : Rows) (invoice : Invoice) : List Payment :=
  (R.paymentsOf invoice).filter (·.voidedAt.isNone)

/-- The order of `_key`. -/
def Payment.recorded (p : Payment) : ℤ ×ₗ Text := toLex (p.createdAt, str p.id)

theorem Payment.before_iff {q p : Payment} : q.before p = true ↔ q.recorded < p.recorded := by
  simp [Payment.before, Payment.recorded, Prod.Lex.toLex_lt_toLex]

theorem recorded_injective : ∀ {q p : Payment}, q.recorded = p.recorded → q.id = p.id := by
  intro q p h
  have h2 := congrArg (fun k => (ofLex k).2) h
  exact str_injective h2

theorem recorded_nodup (hids : (R.payments.map (·.id)).Nodup) :
    ((R.livePayments invoice).map (·.recorded)).Nodup := by
  have hsub : (R.livePayments invoice).Sublist R.payments := List.filter_sublist.trans List.filter_sublist
  have hlive : ((R.livePayments invoice).map (·.id)).Nodup := (hsub.map _).nodup hids
  rw [List.Nodup, List.pairwise_map] at hlive ⊢
  exact hlive.imp fun hne h => hne (recorded_injective h)

/-- Nothing recorded before a payment carries its id. -/
theorem prior_eq_poured (R : Rows) (invoice : Invoice) (p : Payment) (hp : p ∈ R.livePayments invoice)
    (hids : (R.payments.map (·.id)).Nodup) :
    priorNonvoidedPaidCents R invoice p = poured (·.recorded) (·.amount) (R.livePayments invoice) p := by
  have hmem : ∀ q ∈ R.paymentsOf invoice, q ∈ R.payments := fun q hq => (List.mem_filter.mp hq).1
  have hpid : p ∈ R.payments := hmem p (List.mem_filter.mp hp).1
  rw [priorNonvoidedPaidCents, sumCents, poured, Rows.livePayments, List.filter_filter]
  congr 2
  refine List.filter_congr fun q hq => ?_
  rw [Bool.eq_iff_iff]
  simp only [Bool.and_eq_true, Payment.before_iff, bne_iff_ne, decide_eq_true_eq]
  constructor
  · rintro ⟨⟨hlive, -⟩, hlt⟩
    exact ⟨hlt, hlive⟩
  · rintro ⟨hlt, hlive⟩
    refine ⟨⟨hlive, fun hid => ?_⟩, hlt⟩
    have heq : q = p := List.inj_on_of_nodup_map hids (hmem q hq) hpid hid
    exact absurd hlt (heq ▸ lt_irrefl _)

/-- The legs of a role, in cents. -/
def roleCents (role : Role) (lines : List PostingLine) : ℤ :=
  sumCents (·.amountCents) (lines.filter (·.role == some role))

theorem roleCents_append (role : Role) (xs ys : List PostingLine) :
    roleCents role (xs ++ ys) = roleCents role xs + roleCents role ys := by
  simp [roleCents, sumCents]

theorem roleCents_of_none {role : Role} (h : ∀ line ∈ lines, line.role ≠ some role) : roleCents role lines = 0 := by
  have hnone : lines.filter (·.role == some role) = [] :=
    List.filter_eq_nil_iff.mpr fun line hline => by simpa using h line hline
  rw [roleCents, hnone]
  rfl

/-- A leg that is left out when it is zero. -/
theorem roleCents_leg (role : Role) (invoice : Invoice) (cents : ℤ) (legRole : Role) (memo : String) :
    roleCents role (if cents = 0 then [] else [invoice.leg (-cents) legRole memo]) =
      if legRole = role then -cents else 0 := by
  by_cases hzero : cents = 0 <;> by_cases hrole : legRole = role <;>
    simp [roleCents, sumCents, Invoice.leg, hzero, hrole]

theorem remainingAr_nonneg (R : Rows) (invoice : Invoice) (p : Payment) : 0 ≤ remainingAr R invoice p := by
  unfold remainingAr
  split <;> omega

/-- What a built payment credits behind its cash leg: the surcharge, the receivable portion and the rest. -/
theorem payment_roleCents (role : Role) (h : buildPaymentLines R p invoice = .ok lines) :
    roleCents role lines.tail =
      (if Role.surchargeIncome = role then -p.surcharge else 0) +
        (if Role.ar = role then -arPortion R invoice p else 0) +
        (if Role.customerCredits = role then -(p.amount - arPortion R invoice p) else 0) := by
  unfold buildPaymentLines at h
  split at h
  · rename_i hzero
    cases h
    have har : arPortion R invoice p = 0 := by
      rw [arPortion, hzero.1, min_eq_left (remainingAr_nonneg R invoice p)]
    rw [har, hzero.1, hzero.2]
    simp [roleCents, sumCents]
  · split at h
    · cases h
    · cases hrole : resolvePaymentMethodRole _ (some p.method) with
      | error e =>
        rw [hrole] at h
        cases h
      | ok methodRole =>
        rw [hrole] at h
        cases h
        rw [List.append_assoc, List.append_assoc, List.singleton_append, List.tail_cons, roleCents_append,
          roleCents_append, roleCents_leg, roleCents_leg, roleCents_leg, add_assoc]

/-- A built payment credits 2300 with what its receivable portion leaves. -/
theorem routedToCredits_eq (h : buildPaymentLines R p invoice = .ok lines) :
    routedToCredits lines = p.amount - arPortion R invoice p := by
  have hcredits : customerCreditCents lines.tail = -(p.amount - arPortion R invoice p) :=
    (payment_roleCents .customerCredits h).trans (by simp)
  rw [routedToCredits, hcredits, neg_neg]

/-- The receivable portion is what the payment fills of the total less the credits. -/
theorem excess_eq_spill (hvoid : invoice.status ≠ .void) (hids : (R.payments.map (·.id)).Nodup)
    (hp : p ∈ R.livePayments invoice) :
    p.amount - arPortion R invoice p = spill (·.recorded) (·.amount)
      (invoice.total - invoiceCreditedCents R invoice) (R.livePayments invoice) p := by
  rw [spill, arPortion, remainingAr, if_neg hvoid, prior_eq_poured R invoice p hp hids]
  congr 3
  ring

/-- The payments together route to 2300 what they have beyond the total less the credits. -/
theorem routed_total (hvoid : invoice.status ≠ .void) (hids : (R.payments.map (·.id)).Nodup)
    (hpos : ∀ p ∈ R.livePayments invoice, 0 < p.amount) (posted : Payment → List PostingLine)
    (hposted : ∀ p ∈ R.livePayments invoice, buildPaymentLines R p invoice = .ok (posted p)) :
    sumCents (fun p => routedToCredits (posted p)) (R.livePayments invoice) =
      max (paidCents R invoice - max (invoice.total - invoiceCreditedCents R invoice) 0) 0 := by
  have hspill : (R.livePayments invoice).map (fun p => routedToCredits (posted p)) =
      (R.livePayments invoice).map (spill (·.recorded) (·.amount)
        (invoice.total - invoiceCreditedCents R invoice) (R.livePayments invoice)) :=
    List.map_congr_left fun p hp => by rw [routedToCredits_eq (hposted p hp), excess_eq_spill hvoid hids hp]
  rw [sumCents, hspill, sum_spill (recorded_nodup hids) fun p hp => (hpos p hp).le]
  rfl

/-- The halves of an overpayment agree exactly when the invoice has no credits and asks for something, when the
    payments stay within what the credits leave of the total, or when a negative total is met by its credits. -/
theorem overpayment_halves_agree_iff (R : Rows) (invoice : Invoice) (hvoid : invoice.status ≠ .void)
    (hids : (R.payments.map (·.id)).Nodup) (hpos : ∀ p ∈ R.livePayments invoice, 0 < p.amount)
    (posted : Payment → List PostingLine)
    (hposted : ∀ p ∈ R.livePayments invoice, buildPaymentLines R p invoice = .ok (posted p)) :
    refundOverpaymentCents R invoice = sumCents (fun p => routedToCredits (posted p)) (R.livePayments invoice) ↔
      (invoiceCreditedCents R invoice = 0 ∧ 0 ≤ invoice.total) ∨
      (0 < invoiceCreditedCents R invoice ∧ invoice.total = -invoiceCreditedCents R invoice) ∨
      (paidCents R invoice ≤ max (invoice.total - invoiceCreditedCents R invoice) 0 ∧
        paidCents R invoice ≤ invoice.total + invoiceCreditedCents R invoice) := by
  rw [routed_total hvoid hids hpos posted hposted, refundOverpaymentCents, if_neg hvoid]
  omega

/-- 100.00 invoiced and 150.00 paid, with a credit memo of 20.00. -/
def creditedInvoice : Invoice where
  id := 1
  number := "INV-1"
  companyId := 1
  customerId := some 1
  jobId := none
  status := .paid
  invoiceDate := none
  sentAt := none
  createdAt := 0
  subtotal := 10000
  taxRate := none
  taxAmount := 0
  total := 10000
  balanceDue := 0
  totalsLocked := false
  deleted := false

def overpaid (credit : ℤ) : Rows where
  settings := [⟨1, true, some 0, [("other".toList, .undeposited)], [], [], []⟩]
  invoices := [creditedInvoice]
  lines := []
  payments := [⟨1, 1, 15000, 0, "check".toList, 0, none, none, 0⟩]
  adjustments := [⟨2, 1, .creditMemo, credit, none, none, 1⟩]
  expenses := []
  nextId := 3

/-- What the overpayment posts. -/
def overpaidLines (credit : ℤ) (p : Payment) : List PostingLine :=
  match buildPaymentLines (overpaid credit) p creditedInvoice with
  | .ok lines => lines
  | .error _ => []

theorem overpayment_halves_agree_uncredited :
    refundOverpaymentCents (overpaid 0) creditedInvoice =
      sumCents (fun p => routedToCredits (overpaidLines 0 p)) ((overpaid 0).livePayments creditedInvoice) := by
  refine (overpayment_halves_agree_iff (overpaid 0) creditedInvoice (by decide) (by decide) (by decide)
    (overpaidLines 0) ?_).mpr (.inl (by decide))
  decide

/-- A credit memo of 20.00 leaves 80.00 to be paid: 70.00 go to customer credits, the refund sees 30.00. -/
theorem overpayment_halves_disagree :
    ¬ ∀ (R : Rows) (invoice : Invoice), invoice.status ≠ .void → (R.payments.map (·.id)).Nodup →
      (∀ p ∈ R.livePayments invoice, 0 < p.amount) → ∀ posted : Payment → List PostingLine,
      (∀ p ∈ R.livePayments invoice, buildPaymentLines R p invoice = .ok (posted p)) →
      refundOverpaymentCents R invoice =
        sumCents (fun p => routedToCredits (posted p)) (R.livePayments invoice) := by
  intro h
  have heq := h (overpaid 2000) creditedInvoice (by decide) (by decide) (by decide) (overpaidLines 2000) (by decide)
  have hrefund : refundOverpaymentCents (overpaid 2000) creditedInvoice = 3000 := by decide
  have hrouted : sumCents (fun p => routedToCredits (overpaidLines 2000 p))
      ((overpaid 2000).livePayments creditedInvoice) = 7000 := by decide
  rw [hrefund, hrouted] at heq
  exact absurd heq (by decide)

end Gdx
