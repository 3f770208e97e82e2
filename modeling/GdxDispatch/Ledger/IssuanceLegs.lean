import GdxDispatch.Ledger.Live
import GdxDispatch.Ledger.Rules

/-! The legs of P1.

    An issued invoice debits the receivable with its total and credits its priced lines, its tax and what rounding
    leaves. The legs balance, none of them is zero, and each names a role or a live account of the company. -/

namespace Gdx

open Lib

variable {R : Rows} {L : Ledger} {invoice : Invoice} {lines : List PostingLine}

/-- The live lines that carry an amount. -/
def pricedLines (R : Rows) (invoice : Invoice) : List InvoiceLine :=
  (R.liveLines invoice).filter (·.lineTotal ≠ 0)

/-- What the lines and the tax leave of the total. -/
def issuanceResidual (R : Rows) (invoice : Invoice) : ℤ :=
  invoice.total - (sumCents (·.lineTotal) (pricedLines R invoice) + invoice.taxAmount)

/-- The tax and what rounding leaves. -/
def issuanceRest (R : Rows) (invoice : Invoice) : List PostingLine :=
  (if invoice.taxAmount = 0 then []
    else [invoice.leg (-invoice.taxAmount) .salesTaxPayable "sales tax (mirrored from invoice)"]) ++
  (if issuanceResidual R invoice = 0 then []
    else [invoice.leg (-issuanceResidual R invoice) .rounding
      s!"[P1 residual] total − (lines + tax) = {issuanceResidual R invoice} cents"])

/-- The legs behind the receivable's. -/
def issuanceTail (R : Rows) (L : Ledger) (invoice : Invoice) : List PostingLine :=
  (pricedLines R invoice).map (issuanceLine L (R.glSettings invoice.companyId) invoice) ++ issuanceRest R invoice

def issuanceDebit (invoice : Invoice) : PostingLine :=
  invoice.leg invoice.total .ar ("invoice " ++ invoice.number ++ " issued")

theorem buildIssuanceLines_eq (L : Ledger) (htotal : invoice.total ≠ 0) : buildIssuanceLines R L invoice =
    if (issuanceResidual R invoice).natAbs > MAX_RESIDUAL_CENTS then
      .error (.issuanceComposition invoice.total
        (sumCents (·.lineTotal) (pricedLines R invoice) + invoice.taxAmount))
    else .ok (issuanceDebit invoice :: issuanceTail R L invoice) := by
  unfold buildIssuanceLines
  rw [if_neg htotal]
  simp only [List.append_assoc, List.singleton_append]
  rfl

/-- P1 of an invoice whose lines reconcile with its total. -/
theorem buildIssuanceLines_ok (h : buildIssuanceLines R L invoice = .ok lines) :
    (invoice.total = 0 ∧ lines = []) ∨
      (invoice.total ≠ 0 ∧ lines = issuanceDebit invoice :: issuanceTail R L invoice) := by
  by_cases hzero : invoice.total = 0
  · rw [buildIssuanceLines, if_pos hzero] at h
    cases h
    exact .inl ⟨hzero, rfl⟩
  · rw [buildIssuanceLines_eq L hzero] at h
    split at h
    · cases h
    · cases h
      exact .inr ⟨hzero, rfl⟩

theorem issuanceLine_amount (L : Ledger) (settings : Option GlSettings) (invoice : Invoice) (il : InvoiceLine) :
    (issuanceLine L settings invoice il).amountCents = -il.lineTotal := by
  unfold issuanceLine
  split <;> rfl

/-! ### Where a leg goes -/

/-- The account a leg is posted to. -/
def PostingLine.postedTo (acct : Role → ℕ) (line : PostingLine) : ℕ := (line.content acct).accountId

/-- A leg names a role or a live account of the company, and not both. -/
inductive Placed (L : Ledger) (company : ℕ) (line : PostingLine) : Prop where
  | role (r : Role) (hrole : line.role = some r) (hnone : line.accountId = none)
  | account (a : GlAccount) (hnone : line.role = none) (haccount : line.accountId = some a.id)
    (hmem : L.accountById a.id = some a) (hcompany : a.companyId = company) (hactive : a.active = true)

theorem mappedAccountId_some {company id : ℕ} {acctId : Option ℕ} (h : mappedAccountId L company acctId = some id) :
    ∃ a, a.id = id ∧ L.accountById id = some a ∧ a.companyId = company ∧ a.active = true := by
  obtain ⟨a, hfilter, rfl⟩ := Option.map_eq_some_iff.mp h
  obtain ⟨hbind, hlive⟩ := Option.filter_eq_some_iff.mp hfilter
  obtain ⟨i, -, hfind⟩ := Option.bind_eq_some_iff.mp hbind
  obtain ⟨-, rfl⟩ := accountById_mem hfind
  rw [Bool.and_eq_true, beq_iff_eq] at hlive
  exact ⟨a, rfl, hfind, hlive.1, hlive.2⟩

theorem issuanceLine_placed (L : Ledger) (settings : Option GlSettings) (invoice : Invoice) (il : InvoiceLine) :
    Placed L invoice.companyId (issuanceLine L settings invoice il) := by
  unfold issuanceLine
  split
  · exact .role .salesFallback rfl rfl
  · rename_i id hid
    obtain ⟨a, rfl, hfind, hcompany, hactive⟩ := mappedAccountId_some hid
    exact .account a rfl rfl hfind hcompany hactive

theorem mem_issuanceTail {line : PostingLine} (h : line ∈ issuanceTail R L invoice) :
    (∃ il ∈ pricedLines R invoice, line = issuanceLine L (R.glSettings invoice.companyId) invoice il) ∨
      ∃ cents role memo, cents ≠ 0 ∧ line = invoice.leg (-cents) role memo := by
  rcases List.mem_append.mp h with hpriced | hrest
  · obtain ⟨il, hil, rfl⟩ := List.mem_map.mp hpriced
    exact .inl ⟨il, hil, rfl⟩
  · rcases List.mem_append.mp hrest with htax | hresidual
    · split at htax
      · cases htax
      · rename_i hne
        exact .inr ⟨_, _, _, hne, List.mem_singleton.mp htax⟩
    · split at hresidual
      · cases hresidual
      · rename_i hne
        exact .inr ⟨_, _, _, hne, List.mem_singleton.mp hresidual⟩

theorem issuanceTail_placed {line : PostingLine} (h : line ∈ issuanceTail R L invoice) :
    Placed L invoice.companyId line := by
  rcases mem_issuanceTail h with ⟨il, -, rfl⟩ | ⟨cents, role, memo, -, rfl⟩
  · exact issuanceLine_placed L _ invoice il
  · exact .role role rfl rfl

/-! ### The legs are a valid entry -/

theorem issuanceTail_ne_zero {line : PostingLine} (h : line ∈ issuanceTail R L invoice) : line.amountCents ≠ 0 := by
  rcases mem_issuanceTail h with ⟨il, hil, rfl⟩ | ⟨cents, role, memo, hne, rfl⟩
  · have hne : il.lineTotal ≠ 0 := by simpa using (List.mem_filter.mp hil).2
    rw [issuanceLine_amount]
    exact neg_ne_zero.mpr hne
  · exact neg_ne_zero.mpr hne

theorem sum_issuanceTail (R : Rows) (L : Ledger) (invoice : Invoice) :
    sumCents (·.amountCents) (issuanceTail R L invoice) = -invoice.total := by
  have hleg : ∀ (cents : ℤ) (role : Role) (memo : String), sumCents (·.amountCents)
      (if cents = 0 then [] else [invoice.leg (-cents) role memo]) = -cents := by
    intro cents role memo
    split
    · rename_i hzero
      rw [hzero]
      rfl
    · simp [sumCents, Invoice.leg]
  have hmapped : sumCents (·.amountCents)
      ((pricedLines R invoice).map (issuanceLine L (R.glSettings invoice.companyId) invoice)) =
        -sumCents (·.lineTotal) (pricedLines R invoice) := by
    rw [sumCents, sumCents, List.map_map, List.sum_neg, List.map_map]
    exact congrArg List.sum (List.map_congr_left fun il _ => issuanceLine_amount L _ invoice il)
  rw [issuanceTail, issuanceRest, sumCents_append, sumCents_append, hmapped, hleg, hleg, issuanceResidual]
  ring

/-- Amounts that come to nothing, none of them zero, lie on both sides. -/
theorem exists_pos_of_sum_zero {xs : List ℤ} (hne : xs ≠ []) (hzero : ∀ x ∈ xs, x ≠ 0) (hsum : xs.sum = 0) :
    (∃ x ∈ xs, 0 < x) ∧ ∃ x ∈ xs, x < 0 := by
  constructor
  · by_contra hnone
    have hneg : (xs.map (-·)).sum = -xs.sum := by rw [List.sum_neg]
    have hpos : 0 < (xs.map (-·)).sum := List.sum_pos _ (fun y hy => by
      obtain ⟨x, hx, rfl⟩ := List.mem_map.mp hy
      have hle : ¬ 0 < x := fun h => hnone ⟨x, hx, h⟩
      have hx0 := hzero x hx
      omega) (by simpa using hne)
    omega
  · by_contra hnone
    have hpos : 0 < xs.sum := List.sum_pos _ (fun x hx => by
      have hge : ¬ x < 0 := fun h => hnone ⟨x, hx, h⟩
      have hx0 := hzero x hx
      omega) hne
    omega

/-- What P1 builds passes the engine's checks. -/
theorem issuance_valid (htotal : invoice.total ≠ 0) :
    validateBalance (issuanceDebit invoice :: issuanceTail R L invoice) = .ok () := by
  have hsum := sum_issuanceTail R L invoice
  have htail : issuanceTail R L invoice ≠ [] := by
    intro hnil
    rw [hnil] at hsum
    exact htotal (neg_eq_zero.mp hsum.symm)
  have hnonzero : ∀ line ∈ issuanceDebit invoice :: issuanceTail R L invoice, line.amountCents ≠ 0 := by
    intro line hline
    rcases List.mem_cons.mp hline with rfl | hline
    · exact htotal
    · exact issuanceTail_ne_zero hline
  have hall : ((issuanceDebit invoice :: issuanceTail R L invoice).map (·.amountCents)).sum = 0 := by
    rw [List.map_cons, List.sum_cons]
    exact (congrArg (invoice.total + ·) hsum).trans (add_neg_cancel _)
  obtain ⟨⟨x, hx, hpos⟩, ⟨y, hy, hneg⟩⟩ := exists_pos_of_sum_zero (by simp)
    (List.forall_mem_map.mpr hnonzero) hall
  have hone : ∀ line ∈ issuanceDebit invoice :: issuanceTail R L invoice,
      (line.role.isNone == line.accountId.isNone) = false := by
    intro line hline
    rcases List.mem_cons.mp hline with rfl | hline
    · rfl
    · cases issuanceTail_placed hline with
      | role r hrole hnone => rw [hrole, hnone]; rfl
      | account a hnone haccount => rw [hnone, haccount]; rfl
  obtain ⟨l, hl, rfl⟩ := List.mem_map.mp hx
  obtain ⟨m, hm, rfl⟩ := List.mem_map.mp hy
  have hlength : 2 ≤ (issuanceDebit invoice :: issuanceTail R L invoice).length := by
    have := List.length_pos_iff.mpr htail
    simp only [List.length_cons]
    omega
  have hdebit : (issuanceDebit invoice :: issuanceTail R L invoice).any (·.amountCents > 0) = true :=
    List.any_eq_true.mpr ⟨l, hl, by simpa using hpos⟩
  have hcredit : (issuanceDebit invoice :: issuanceTail R L invoice).any (·.amountCents < 0) = true :=
    List.any_eq_true.mpr ⟨m, hm, by simpa using hneg⟩
  have hnozero : ¬ (issuanceDebit invoice :: issuanceTail R L invoice).any (·.amountCents == 0) = true := by
    rw [List.any_eq_true]
    rintro ⟨z, hz, hzero⟩
    exact hnonzero z hz (by simpa using hzero)
  have hboth : ¬ (issuanceDebit invoice :: issuanceTail R L invoice).any
      (fun l => l.role.isNone == l.accountId.isNone) = true := by
    rw [List.any_eq_true]
    rintro ⟨z, hz, hsame⟩
    rw [hone z hz] at hsame
    cases hsame
  unfold validateBalance
  simp only
  rw [if_neg (not_lt.mpr hlength), if_neg (not_not_intro hall), if_neg (by rw [hdebit, hcredit]; simp), if_neg hnozero,
    if_neg hboth]

end Gdx
