import GdxDispatch.Ledger.CashTelescopes
import GdxDispatch.Ledger.Settlement

/-! Cash basis against accrual, once an invoice is paid.

    One payment of the whole total is recognised in proportion to the credit legs of P1. Without a debit leg these add
    up to the total and each is recognised in full, as P1 posted it. A negative line, tax or residual is a debit leg:
    it is no component, and the walk takes it off all credit legs in proportion instead of off its own account. -/

namespace Gdx

open Lib

variable {clock : ShopClock} {R : Rows} {L : Ledger} {invoice : Invoice} {lines legs : List PostingLine}
  {acct : Role → ℕ} {start stop day : ℤ} {accountId : ℕ}

/-- The net credit the legs post to an account. -/
def creditedOn (acct : Role → ℕ) (legs : List PostingLine) (accountId : ℕ) : ℤ :=
  -sumCents (·.amountCents) (legs.filter (·.postedTo acct == accountId))

def creditLegs (legs : List PostingLine) : List PostingLine := legs.filter (·.amountCents < 0)

def debitLegs (legs : List PostingLine) : List PostingLine := legs.filter (0 < ·.amountCents)

/-- What a list of shares, one for each leg, puts on an account. -/
def sharedOn (acct : Role → ℕ) (legs : List PostingLine) (shares : List ℤ) (accountId : ℕ) : ℤ :=
  sumCents (·.2) ((legs.zip shares).filter (·.1.postedTo acct == accountId))

/-- The debit legs lie where prorating them over the credit legs would put them: on every account they come to its
    credit legs' largest-remainder share of all debits, equal remainders going to the later leg. -/
def DebitsProrated (acct : Role → ℕ) (legs : List PostingLine) : Prop :=
  ∃ shares, allocate (sumCents (·.amountCents) (debitLegs legs))
      ((creditLegs legs).reverse.map fun l => ((-l.amountCents : ℤ) : ℚ)) = .ok shares ∧
    ∀ accountId, sumCents (·.amountCents) ((debitLegs legs).filter (·.postedTo acct == accountId)) =
      sharedOn acct (creditLegs legs) shares.reverse accountId

/-! ### Legs by account -/

theorem sumCents_filter_sign (legs : List PostingLine) (p : PostingLine → Bool) :
    sumCents (·.amountCents) (legs.filter p) =
      sumCents (·.amountCents) ((debitLegs legs).filter p) + sumCents (·.amountCents) ((creditLegs legs).filter p) := by
  induction legs with
  | nil => rfl
  | cons l legs ih =>
    rw [debitLegs, creditLegs, List.filter_cons, List.filter_cons, List.filter_cons, ← debitLegs, ← creditLegs]
    rcases lt_trichotomy l.amountCents 0 with h | h | h
    · have hnot : ¬ 0 < l.amountCents := by omega
      cases hp : p l
      · simpa [h, hnot, hp] using ih
      · simp [h, hnot, hp, sumCents_cons, ih]
        ring
    · cases p l <;> simp [h, sumCents_cons, ih]
    · have hnot : ¬ l.amountCents < 0 := by omega
      cases hp : p l
      · simpa [h, hnot, hp] using ih
      · simp [h, hnot, hp, sumCents_cons, ih]
        ring

theorem sharedOn_sub {legs : List PostingLine} {xs ys : List ℤ} (hx : xs.length = legs.length)
    (hy : ys.length = legs.length) :
    sharedOn acct legs (List.zipWith (· - ·) xs ys) accountId =
      sharedOn acct legs xs accountId - sharedOn acct legs ys accountId := by
  induction legs generalizing xs ys with
  | nil =>
    rw [List.length_nil, List.length_eq_zero_iff] at hx hy
    subst hx hy
    rfl
  | cons l legs ih =>
    cases xs with
    | nil => cases hx
    | cons x xs =>
      cases ys with
      | nil => cases hy
      | cons y ys =>
        have ih := ih (Nat.succ.inj hx) (Nat.succ.inj hy)
        simp only [sharedOn, List.zipWith_cons_cons, List.zip_cons_cons, List.filter_cons] at ih ⊢
        split
        · rw [sumCents_cons, sumCents_cons, sumCents_cons, ih]
          ring
        · exact ih

theorem sharedOn_amounts (legs : List PostingLine) :
    sharedOn acct legs (legs.map fun l => -l.amountCents) accountId =
      -sumCents (·.amountCents) (legs.filter (·.postedTo acct == accountId)) := by
  induction legs with
  | nil => rfl
  | cons l legs ih =>
    simp only [sharedOn, List.map_cons, List.zip_cons_cons, List.filter_cons] at ih ⊢
    split
    · rw [sumCents_cons, sumCents_cons, ih]
      ring
    · exact ih

/-- Taking shares off the credit legs leaves on every account its net credit exactly when the shares are the debits. -/
theorem shared_eq_credited_iff {shares : List ℤ} (hlen : shares.length = (creditLegs legs).length) :
    sharedOn acct (creditLegs legs) (List.zipWith (· - ·) ((creditLegs legs).map fun l => -l.amountCents) shares)
        accountId = creditedOn acct legs accountId ↔
      sumCents (·.amountCents) ((debitLegs legs).filter (·.postedTo acct == accountId)) =
        sharedOn acct (creditLegs legs) shares accountId := by
  rw [sharedOn_sub (by rw [List.length_map]) hlen, sharedOn_amounts, creditedOn, sumCents_filter_sign legs]
  omega

/-! ### What the report puts on an account -/

/-- The component of a credit leg. -/
def PostingLine.component (line : PostingLine) : RevenueComponent :=
  ⟨-line.amountCents, line.role, line.accountId, line.memo⟩

/-- Every role the legs name resolves to its account. -/
def RolesResolve (L : Ledger) (company : ℕ) (acct : Role → ℕ) (legs : List PostingLine) : Prop :=
  ∀ line ∈ legs, ∀ role, line.role = some role → ∃ a, resolveRoleAccount L company role = .ok a ∧ a.id = acct role

theorem componentAccount_placed {company : ℕ} {line : PostingLine} (h : Placed L company line)
    (hroles : RolesResolve L company acct legs) (hmem : line ∈ legs) :
    ∃ a, componentAccount L company line.component = .ok (some a) ∧ a.id = line.postedTo acct := by
  cases h with
  | role r hrole hnone =>
    obtain ⟨a, hresolve, hid⟩ := hroles line hmem r hrole
    refine ⟨a, ?_, ?_⟩
    · simp only [componentAccount, PostingLine.component, hnone, hrole, hresolve]
      rfl
    · simp only [PostingLine.postedTo, PostingLine.content, hrole, hid]
  | account a hnone haccount hfind =>
    refine ⟨a, ?_, ?_⟩
    · simp only [componentAccount, PostingLine.component, haccount, hfind]
    · simp only [PostingLine.postedTo, PostingLine.content, hnone, haccount]
      rfl

theorem recognizedOn_cons (a : GlAccount) (part : ℤ) (rows : List (GlAccount × ℤ)) :
    recognizedOn ((a, -part) :: rows) accountId =
      (if a.id = accountId then part else 0) + recognizedOn rows accountId := by
  rw [recognizedOn, weighted_cons]
  split <;> simp [recognizedOn]

theorem sharedOn_cons (line : PostingLine) (part : ℤ) (legs : List PostingLine) (parts : List ℤ) :
    sharedOn acct (line :: legs) (part :: parts) accountId =
      (if line.postedTo acct = accountId then part else 0) + sharedOn acct legs parts accountId := by
  simp only [sharedOn, List.zip_cons_cons, List.filter_cons, beq_iff_eq]
  split
  · rw [sumCents_cons]
  · rw [zero_add]

/-- The parts of the credit legs are recognised on the accounts the legs are posted to. -/
theorem bucketRows_shared {company : ℕ} {parts : List ℤ} (hplaced : ∀ line ∈ legs, Placed L company line)
    (hroles : RolesResolve L company acct legs) (hlen : parts.length = legs.length) :
    ∃ rows, bucketRows L company ((legs.map PostingLine.component).zip parts) = .ok rows ∧
      ∀ accountId, recognizedOn rows accountId = sharedOn acct legs parts accountId := by
  induction legs generalizing parts with
  | nil => exact ⟨[], rfl, fun accountId => rfl⟩
  | cons line legs ih =>
    cases parts with
    | nil => cases hlen
    | cons part parts =>
      obtain ⟨rows, hrows, hshared⟩ := ih (fun l hl => hplaced l (List.mem_cons_of_mem _ hl))
        (fun l hl => hroles l (List.mem_cons_of_mem _ hl)) (Nat.succ.inj hlen)
      rw [List.map_cons, List.zip_cons_cons, bucketRows]
      by_cases hzero : part = 0
      · refine ⟨rows, by rw [if_pos hzero, hrows], fun accountId => ?_⟩
        rw [sharedOn_cons, hzero, ite_self, zero_add, hshared]
      · obtain ⟨a, haccount, hid⟩ :=
          componentAccount_placed (hplaced line List.mem_cons_self) hroles List.mem_cons_self
        refine ⟨(a, -part) :: rows, by rw [if_neg hzero, haccount, hrows]; rfl, fun accountId => ?_⟩
        rw [recognizedOn_cons, sharedOn_cons, hid, hshared]

/-! ### One payment of the total -/

/-- What the report recognises for one invoice. -/
def invoiceRecognized (clock : ShopClock) (R : Rows) (L : Ledger) (start stop : ℤ) (invoice : Invoice) :
    Except ReportError (List (GlAccount × ℤ)) :=
  match invoiceWalk clock R L start stop invoice with
  | .error e => .error e
  | .ok walk => bucketRows L invoice.companyId walk.parts

theorem creditComponents_tail (htotal : 0 < invoice.total) (rest : List PostingLine) :
    creditComponents (issuanceDebit invoice :: rest) = (creditLegs rest).map PostingLine.component := by
  have hdebit : ¬ (issuanceDebit invoice).amountCents < 0 := not_lt.mpr htotal.le
  rw [creditComponents, List.filter_cons_of_neg (by simpa using hdebit)]
  rfl

theorem creditLegs_sum (R : Rows) (L : Ledger) (invoice : Invoice) :
    invoice.total + sumCents (·.amountCents) (debitLegs (issuanceTail R L invoice)) =
      ((creditLegs (issuanceTail R L invoice)).map fun l => -l.amountCents).sum := by
  have hsplit := sumCents_filter_sign (issuanceTail R L invoice) fun _ => true
  rw [List.filter_true, List.filter_true, List.filter_true, sum_issuanceTail] at hsplit
  rw [show ((creditLegs (issuanceTail R L invoice)).map fun l => -l.amountCents) =
    ((creditLegs (issuanceTail R L invoice)).map (·.amountCents)).map (-·) by rw [List.map_map]; rfl, sum_map_neg]
  unfold sumCents at hsplit ⊢
  omega

/-- What one payment of the whole total inside the window recognises. -/
theorem settled_parts (hlines : buildIssuanceLines R L invoice = .ok lines) (htotal : 0 < invoice.total)
    (hsettled : cashEvents clock R L invoice = [(day, invoice.total)]) (hstart : start ≤ day) (hstop : day ≤ stop) :
    ∃ walk, invoiceWalk clock R L start stop invoice = .ok walk ∧
      walk.parts = (creditComponents lines).zip (prorated (creditComponents lines) invoice.total invoice.total) := by
  obtain ⟨walk, hwalk, hparts, -⟩ := invoiceWalk_spec clock R L start stop htotal
  refine ⟨walk, hwalk, ?_⟩
  have hrecognized : recognizedCents invoice.total (0 + invoice.total) - recognizedCents invoice.total 0 =
      invoice.total := by
    unfold recognizedCents
    omega
  have hin : inSpan start stop day = true := by simpa [inSpan] using ⟨hstart, hstop⟩
  have hchanged : changes (recognizedCents invoice.total) 0 [(day, invoice.total)] = [(day, invoice.total)] := by
    rw [changes, changes, hrecognized]
  have hwithin : [(day, invoice.total)].filter (fun c => inSpan start stop c.1) = [(day, invoice.total)] := by
    simp [hin]
  rw [hparts, hsettled, invoiceComponents, hlines, hchanged, spanParts, hwithin, List.flatMap_singleton]
  exact if_neg htotal.ne'

theorem creditLegs_nonneg (legs : List PostingLine) : ∀ c ∈ (creditLegs legs).map (fun l => -l.amountCents), 0 ≤ c := by
  intro c hc
  obtain ⟨l, hl, rfl⟩ := List.mem_map.mp hc
  have hneg : l.amountCents < 0 := by simpa using (List.mem_filter.mp hl).2
  omega

theorem debitLegs_nonneg (legs : List PostingLine) : 0 ≤ sumCents (·.amountCents) (debitLegs legs) := by
  refine List.sum_nonneg fun c hc => ?_
  obtain ⟨l, hl, rfl⟩ := List.mem_map.mp hc
  have hpos : 0 < l.amountCents := by simpa using (List.mem_filter.mp hl).2
  exact hpos.le

/-- The whole total is split into the credit legs less their shares of the debits. -/
theorem prorated_whole {legs : List PostingLine} {totalCents : ℤ} (htotal : 0 < totalCents)
    (hsum : totalCents + sumCents (·.amountCents) (debitLegs legs) =
      ((creditLegs legs).map fun l => -l.amountCents).sum) :
    ∃ offs, allocate (sumCents (·.amountCents) (debitLegs legs))
        ((creditLegs legs).reverse.map fun l => ((-l.amountCents : ℤ) : ℚ)) = .ok offs ∧
      offs.reverse.length = (creditLegs legs).length ∧
      prorated ((creditLegs legs).map PostingLine.component) totalCents totalCents =
        List.zipWith (· - ·) ((creditLegs legs).map fun l => -l.amountCents) offs.reverse := by
  have hdebits := debitLegs_nonneg legs
  obtain ⟨parts, offs, hparts, hoffs, hlength, hcomplement⟩ :=
    allocate_complement (creditLegs_nonneg legs) htotal.le hdebits hsum (by omega)
  rw [← List.map_reverse, List.map_map] at hoffs
  rw [List.length_map] at hlength
  refine ⟨offs, hoffs, by rw [List.length_reverse, hlength], ?_⟩
  have hne : (creditLegs legs).map PostingLine.component ≠ [] := by
    intro hnil
    rw [List.map_eq_nil_iff] at hnil
    rw [hnil, List.map_nil, List.sum_nil] at hsum
    omega
  have hpieces : ((creditLegs legs).map PostingLine.component).map (·.cents) =
      (creditLegs legs).map fun l => -l.amountCents := by
    rw [List.map_map]
    rfl
  have hprorate : prorateEventCents (((creditLegs legs).map PostingLine.component).map (·.cents)) totalCents
      totalCents = .ok parts := by
    rw [prorateEventCents, if_neg (by simpa [htotal] using hne), hpieces, if_pos htotal.le, min_self]
    exact (if_neg htotal.ne').trans hparts
  rw [prorated, hprorate, ← hcomplement]
  rfl

/-- One payment of the whole total inside the window recognises on every account the credit legs posted there less
    their shares of the debits. -/
theorem settled_recognized (hlines : buildIssuanceLines R L invoice = .ok lines) (htotal : 0 < invoice.total)
    (hroles : RolesResolve L invoice.companyId acct lines.tail)
    (hsettled : cashEvents clock R L invoice = [(day, invoice.total)]) (hstart : start ≤ day) (hstop : day ≤ stop) :
    ∃ rows offs, invoiceRecognized clock R L start stop invoice = .ok rows ∧
      allocate (sumCents (·.amountCents) (debitLegs lines.tail))
        ((creditLegs lines.tail).reverse.map fun l => ((-l.amountCents : ℤ) : ℚ)) = .ok offs ∧
      offs.reverse.length = (creditLegs lines.tail).length ∧
      ∀ accountId, recognizedOn rows accountId = sharedOn acct (creditLegs lines.tail)
        (List.zipWith (· - ·) ((creditLegs lines.tail).map fun l => -l.amountCents) offs.reverse) accountId := by
  obtain ⟨walk, hwalk, hparts⟩ := settled_parts hlines htotal hsettled hstart hstop
  obtain ⟨hzero, -⟩ | ⟨-, rfl⟩ := buildIssuanceLines_ok hlines
  · exact absurd hzero htotal.ne'
  rw [List.tail_cons] at hroles ⊢
  obtain ⟨offs, hoffs, hlength, hprorated⟩ := prorated_whole htotal (creditLegs_sum R L invoice)
  rw [creditComponents_tail htotal, hprorated] at hparts
  have hcredit : ∀ l ∈ creditLegs (issuanceTail R L invoice), l ∈ issuanceTail R L invoice :=
    fun l hl => (List.mem_filter.mp hl).1
  obtain ⟨rows, hrows, hshared⟩ := @bucketRows_shared L (creditLegs (issuanceTail R L invoice)) acct invoice.companyId
    (List.zipWith (· - ·) ((creditLegs (issuanceTail R L invoice)).map fun l => -l.amountCents) offs.reverse)
    (fun l hl => issuanceTail_placed (hcredit l hl)) (fun l hl => hroles l (hcredit l hl))
    (by rw [List.length_zipWith, List.length_map, hlength, min_self])
  refine ⟨rows, offs, ?_, hoffs, hlength, hshared⟩
  simp only [invoiceRecognized, hwalk, hparts, hrows]

theorem sharedOn_zero {shares : List ℤ} (h : ∀ x ∈ shares, x = 0) : sharedOn acct legs shares accountId = 0 := by
  refine List.sum_eq_zero fun x hx => ?_
  obtain ⟨q, hq, rfl⟩ := List.mem_map.mp hx
  exact h _ (List.of_mem_zip (List.mem_filter.mp hq).1).2

/-- Without a debit leg nothing is prorated away. -/
theorem debitsProrated_of_no_debits (h : ∀ line ∈ legs, line.amountCents ≤ 0) (hcredit : creditLegs legs ≠ []) :
    DebitsProrated acct legs := by
  have hnone : debitLegs legs = [] := by
    rw [debitLegs, List.filter_eq_nil_iff]
    simpa using h
  have hweights : ∀ w ∈ (creditLegs legs).reverse.map fun l => ((-l.amountCents : ℤ) : ℚ), 0 < w := by
    intro w hw
    obtain ⟨l, hl, rfl⟩ := List.mem_map.mp hw
    have hneg : l.amountCents < 0 := by simpa using (List.mem_filter.mp (List.mem_reverse.mp hl)).2
    exact_mod_cast neg_pos.mpr hneg
  obtain ⟨shares, hshares, hquota, -⟩ := exists_quota 0 _ (fun w hw => (hweights w hw).le)
    (List.sum_pos _ hweights (by simpa using hcredit))
  have hzero : ∀ x ∈ shares, x = 0 := by
    intro x hx
    obtain ⟨i, hi⟩ := List.mem_iff_getElem?.mp hx
    have hlt : i < _ := hquota.length_eq ▸ (List.getElem?_eq_some_iff.mp hi).1
    exact int_eq_zero_of_near (by simpa using hquota.near i _ x (List.getElem?_eq_getElem hlt) hi)
  refine ⟨shares, by rw [hnone]; exact hshares, fun accountId => ?_⟩
  rw [hnone, sharedOn_zero fun x hx => hzero x (List.mem_reverse.mp hx)]
  rfl

/-- Paying an invoice's whole total inside the window recognises on every account the net credit P1 posts there, exactly
    when the debit legs of P1 lie where prorating them over its credit legs would put them. -/
theorem cash_equals_accrual_iff (hlines : buildIssuanceLines R L invoice = .ok lines) (htotal : 0 < invoice.total)
    (hroles : RolesResolve L invoice.companyId acct lines.tail)
    (hsettled : cashEvents clock R L invoice = [(day, invoice.total)]) (hstart : start ≤ day) (hstop : day ≤ stop) :
    (∃ rows, invoiceRecognized clock R L start stop invoice = .ok rows ∧
      ∀ accountId, recognizedOn rows accountId = creditedOn acct lines.tail accountId) ↔
    DebitsProrated acct lines.tail := by
  obtain ⟨rows, offs, hrows, hoffs, hlength, hshared⟩ := settled_recognized hlines htotal hroles hsettled hstart hstop
  have haccount : ∀ accountId, recognizedOn rows accountId = creditedOn acct lines.tail accountId ↔
      sumCents (·.amountCents) ((debitLegs lines.tail).filter (·.postedTo acct == accountId)) =
        sharedOn acct (creditLegs lines.tail) offs.reverse accountId := by
    intro accountId
    rw [hshared, shared_eq_credited_iff hlength]
  constructor
  · rintro ⟨rows', hrows', hall⟩
    rw [hrows] at hrows'
    cases hrows'
    exact ⟨offs, hoffs, fun accountId => (haccount accountId).mp (hall accountId)⟩
  · rintro ⟨shares, hshares, hall⟩
    rw [hoffs] at hshares
    cases hshares
    exact ⟨rows, hrows, fun accountId => (haccount accountId).mpr (hall accountId)⟩

/-- The rows of `cashInvoiceRows`, but for this invoice and one payment of its total on day 10. -/
def settledRows (invoice : Invoice) (lines : List InvoiceLine) : Rows :=
  { cashInvoiceRows lines with
    invoices := [invoice]
    payments := [⟨2, 1, invoice.total, 0, "check".toList, 10, none, none, 0⟩] }

theorem cash_equals_accrual_iff_oneLine :
    ∃ rows lines, invoiceRecognized ⟨utcZone, 50⟩ (settledRows cashInvoice oneLine) Ledger.seeded 0 30 cashInvoice =
        .ok rows ∧ buildIssuanceLines (settledRows cashInvoice oneLine) Ledger.seeded cashInvoice = .ok lines ∧
      ∀ accountId, recognizedOn rows accountId = creditedOn seededAcct lines.tail accountId := by
  obtain ⟨lines, hlines⟩ : ∃ lines, buildIssuanceLines (settledRows cashInvoice oneLine) Ledger.seeded cashInvoice =
    .ok lines := ⟨_, rfl⟩
  have hevents : cashEvents ⟨utcZone, 50⟩ (settledRows cashInvoice oneLine) Ledger.seeded cashInvoice =
      [(10, cashInvoice.total)] := by decide +kernel
  have hprorated : DebitsProrated seededAcct lines.tail := by
    cases hlines
    exact debitsProrated_of_no_debits (by decide) (by decide)
  obtain ⟨rows, hrows, hall⟩ := (cash_equals_accrual_iff hlines (by decide) (fun _ _ role _ => seeded_seededAcct role)
    hevents (by decide : (0 : ℤ) ≤ 10) (by decide : (10 : ℤ) ≤ 30)).mpr hprorated
  exact ⟨rows, lines, hrows, hlines, hall⟩

/-- 100.00 of work less a discount of 50.00, and 5.00 of tax. -/
def discountedInvoice : Invoice := { cashInvoice with subtotal := 5000, taxAmount := 500, total := 5500 }

def discountLines : List InvoiceLine :=
  [⟨4, 1, "labor", 10000, false, none, false⟩, ⟨5, 1, "discount", -5000, false, none, false⟩]

/-- 52.38 is recognised as sales, and 2.62 as tax, where P1 posted 50.00 and 5.00. -/
theorem cash_spreads_the_discount :
    ¬ ∀ (clock : ShopClock) (R : Rows) (L : Ledger) (invoice : Invoice) (lines : List PostingLine) (acct : Role → ℕ)
      (start stop day : ℤ), buildIssuanceLines R L invoice = .ok lines → 0 < invoice.total →
      RolesResolve L invoice.companyId acct lines.tail → cashEvents clock R L invoice = [(day, invoice.total)] →
      start ≤ day → day ≤ stop → ∃ rows, invoiceRecognized clock R L start stop invoice = .ok rows ∧
        ∀ accountId, recognizedOn rows accountId = creditedOn acct lines.tail accountId := by
  intro h
  obtain ⟨lines, hlines⟩ : ∃ lines, buildIssuanceLines (settledRows discountedInvoice discountLines) Ledger.seeded
    discountedInvoice = .ok lines := ⟨_, rfl⟩
  have hevents : cashEvents ⟨utcZone, 50⟩ (settledRows discountedInvoice discountLines) Ledger.seeded
      discountedInvoice = [(10, discountedInvoice.total)] := by decide +kernel
  obtain ⟨rows, hrows, hall⟩ := h _ _ _ _ lines seededAcct 0 30 10 hlines (by decide)
    (fun _ _ role _ => seeded_seededAcct role) hevents (by decide) (by decide)
  have hcash : (invoiceRecognized ⟨utcZone, 50⟩ (settledRows discountedInvoice discountLines) Ledger.seeded 0 30
      discountedInvoice).toOption.map (recognizedOn · 9) = some 5238 := by decide +kernel
  rw [hrows] at hcash
  have haccrual : creditedOn seededAcct lines.tail 9 = 5000 := by
    cases hlines
    decide +kernel
  have hsales : recognizedOn rows 9 = 5238 := Option.some.inj hcash
  rw [hall 9, haccrual] at hsales
  exact absurd hsales (by decide)

end Gdx
