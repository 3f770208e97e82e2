import GdxDispatch.Billing.LaborBook
import GdxDispatch.Deposits.NettedOnce

/-! An accepted estimate and the invoice made from it.

    The estimate's totals come from `modules/proposals/totals.py`: a stored subtotal, the labor excluded
    from tax, a discount, each difference held at zero. The invoice comes from the copy of
    `create_invoice`: the estimate's lines with their taxable flags, a negative line for the discount, and
    the sums of `_recalculate_invoice`. -/

namespace Gdx

open Lib

/-! ### The estimate -/

/-- A row of `estimate_lines` or of `proposal_tier_lines`. -/
structure EstimateLine where
  description : String
  category : Option Text
  quantity : Option ℤ
  unitPrice : ℤ
  lineTotal : ℤ
deriving DecidableEq

inductive TierName where
  | good | better | best
deriving DecidableEq

/-- A good, better or best tier; a flat one has no lines of its own. -/
structure ProposalTier where
  tierName : TierName
  description : Option String
  totalPrice : ℤ
  lines : List EstimateLine
deriving DecidableEq

inductive EstimateStatus where
  | draft | sent | accepted | declined | rejected | expired
deriving DecidableEq

/-- The estimate, with the tier its customer accepted. The API takes no negative discount. -/
structure Estimate where
  status : EstimateStatus
  customerId : Option ℕ
  taxRate : Option ℚ
  discount : Option ℕ
  total : ℤ
  acceptedTier : Option ProposalTier
  lines : List EstimateLine
deriving DecidableEq

/-- What the tenant's tax and catalog settings say, and whether the estimate's job is an installation for
    tax. -/
structure TaxWorld where
  taxLabor : Bool
  defaultRate : Option ℚ
  exempt : Option ℕ → Bool
  installLane : Bool
  blockZeroPrice : Bool

/-! ### Rates -/

/-- `resolve_rate`. -/
def resolveRate (world : TaxWorld) (customerId : Option ℕ) : ℚ :=
  if world.exempt customerId then 0 else world.defaultRate.getD 0

/-- `resolve_rate_for_job`. -/
def resolveRateForJob (world : TaxWorld) (customerId : Option ℕ) (quotedRate : Option ℚ) : ℚ :=
  if world.installLane then 0
  else
    match quotedRate with
    | none => resolveRate world customerId
    | some rate => if world.exempt customerId then 0 else rate

/-- The rate the estimate is shown with: its own, else the lane's, else the tenant's. -/
def effectiveRate (world : TaxWorld) (estimate : Estimate) : ℚ :=
  match estimate.taxRate with
  | some rate => rate
  | none => if world.installLane then 0 else resolveRate world estimate.customerId

/-! ### The estimate's totals -/

/-- `_is_labor_line`. -/
def EstimateLine.isLabor (line : EstimateLine) : Bool :=
  decide (stripLower (line.category.getD []) = "labor".toList)

/-- `tier_contract_subtotal`. -/
def tierContractSubtotal (tier : ProposalTier) : ℤ :=
  if tier.lines = [] then tier.totalPrice else sumCents (·.lineTotal) tier.lines

structure EstimateTotals where
  subtotal : ℤ
  discount : ℤ
  laborSubtotal : ℤ
  taxableSubtotal : ℤ
  tax : ℤ
  taxRate : ℚ
  taxLabor : Bool
  total : ℤ
deriving DecidableEq

/-- `_load_lines`: the accepted tier's lines, else the estimate's. -/
def loadLines (estimate : Estimate) : List EstimateLine :=
  match estimate.acceptedTier with
  | some tier => tier.lines
  | none => estimate.lines

/-- `compute_estimate_totals`. -/
def computeEstimateTotals (world : TaxWorld) (estimate : Estimate) : EstimateTotals :=
  let subtotal :=
    match estimate.acceptedTier with
    | some tier => tierContractSubtotal tier
    | none => estimate.total
  let discount : ℤ := estimate.discount.getD 0
  let rate := effectiveRate world estimate
  let laborSubtotal :=
    if world.taxLabor then 0 else sumCents (·.lineTotal) ((loadLines estimate).filter (·.isLabor))
  let taxablePreDiscount := max (subtotal - laborSubtotal) 0
  let taxable := max (taxablePreDiscount - discount) 0
  let tax := roundHalfUp (taxable * rate)
  { subtotal := subtotal
    discount := discount
    laborSubtotal := laborSubtotal
    taxableSubtotal := taxable
    tax := tax
    taxRate := rate
    taxLabor := world.taxLabor
    total := max (subtotal - discount) 0 + tax }

/-! ### The invoice made from it -/

inductive Verdict where
  | bill | skip | refuse
deriving DecidableEq

/-- `zero_quantity_verdict`. -/
def zeroQuantityVerdict (quantity : Option ℤ) (lineTotal : ℤ) : Verdict :=
  if 0 < quantity.getD 1 then .bill else if lineTotal = 0 then .skip else .refuse

def TierName.label : TierName → String
  | .good => "Good"
  | .better => "Better"
  | .best => "Best"

/-- The one line of a flat tier. -/
def packageLine (tier : ProposalTier) : EstimateLine :=
  let desc := (tier.tierName.label ++ " package").toList
  let desc :=
    match tier.description with
    | some text => if text = "" then desc else desc ++ " — ".toList ++ text.toList
    | none => desc
  { description := String.ofList (desc.take 500)
    category := none
    quantity := some 1
    unitPrice := tier.totalPrice
    lineTotal := tier.totalPrice }

/-- The lines the copy bills. -/
def billedLines (estimate : Estimate) : List EstimateLine :=
  match estimate.acceptedTier with
  | some tier => if tier.lines = [] then [packageLine tier] else tier.lines
  | none => estimate.lines

/-- The copy of the lines: an empty one is left out, an amount without a quantity refuses the request. -/
def copyLines (taxLabor : Bool) : List EstimateLine → Except ApiError (List LineIn)
  | [] => .ok []
  | line :: lines =>
    match zeroQuantityVerdict line.quantity line.lineTotal with
    | .refuse =>
      .error (.http 409 ("estimate line \"" ++ line.description ++ "\" records no quantity but carries $" ++
        String.ofList (printedHundredths line.lineTotal) ++
        " — correct the quantity on the estimate before invoicing it."))
    | .skip => copyLines taxLabor lines
    | .bill => do
      let copied ← copyLines taxLabor lines
      return { description := line.description
               lineTotal := line.lineTotal
               taxable := taxLabor || !line.isLabor
               category := line.category } :: copied

/-- The discount as a negative, taxable line. -/
def discountLine (discount : ℕ) : List LineIn :=
  if 0 < discount then
    [{ description := "Discount", lineTotal := -discount, taxable := true, category := some "discount".toList }]
  else []

/-- What the request sends beside the estimate's id. -/
structure EstimateInvoiceIn where
  number : String
  jobId : ℕ
  customerId : ℕ
  invoiceDate : Option ℤ
  taxRate : Option ℚ
  taxAmount : ℕ
deriving DecidableEq

/-- The rate of the invoice, unset where nothing says to tax by a rate. -/
def resolvedRate (world : TaxWorld) (payload : EstimateInvoiceIn) (estimate : Estimate) : Option ℚ :=
  match payload.taxRate with
  | some rate => some rate
  | none =>
    let candidate := resolveRateForJob world (some payload.customerId) estimate.taxRate
    if 0 < candidate ∨ world.installLane = true ∨ estimate.taxRate.isSome = true then some candidate else none

def EstimateStatus.text : EstimateStatus → String
  | .draft => "draft"
  | .sent => "sent"
  | .accepted => "accepted"
  | .declined => "declined"
  | .rejected => "rejected"
  | .expired => "expired"

/-- `create_invoice` with an `estimate_id`, up to the draft it saves. -/
def invoiceFromEstimate (world : TaxWorld) (payload : EstimateInvoiceIn) (estimate : Estimate) :
    Except ApiError InvoiceIn := do
  refuse (estimate.status ≠ .accepted) 409
    ("estimate must be 'accepted' to invoice; current: " ++ estimate.status.text)
  refuse (world.blockZeroPrice = true ∧ estimate.lines.any (fun line => line.unitPrice ≤ 0) = true) 422
    "this catalog item has no price set — price it before invoicing."
  let rate := resolvedRate world payload estimate
  let copied ← copyLines world.taxLabor (billedLines estimate)
  return { number := payload.number
           customerId := some payload.customerId
           jobId := some payload.jobId
           invoiceDate := payload.invoiceDate
           taxRate := rate
           taxAmount := if rate.any (0 < ·) then 0 else payload.taxAmount
           deposit := false
           lines := copied ++ discountLine (estimate.discount.getD 0) }

/-! ### The draft's figures -/

structure Figures where
  subtotal : ℤ
  tax : ℤ
  total : ℤ
deriving DecidableEq

/-- The sums of `_recalculate_invoice` over a new draft's lines. -/
def InvoiceIn.figures (draft : InvoiceIn) : Figures :=
  let subtotal := sumCents (·.lineTotal) draft.lines
  let tax :=
    match draft.taxRate with
    | some rate => roundHalfUp (max (sumCents (·.lineTotal) (draft.lines.filter (·.taxable))) 0 * rate)
    | none => draft.taxAmount
  { subtotal := subtotal, tax := tax, total := subtotal + tax }

/-- A new invoice on which nothing was netted is saved with its draft's figures. -/
theorem createWithDeposits_figures {H : ContentHash} {zone : ShopZone} {company : ℕ} {actor : Option Text}
    {desk desk' : DepositDesk} {payload : FinalIn} {outcome : DepositOutcome} (hok : NettingOk desk)
    (h : createWithDeposits H zone company payload actor desk = .ok (desk', outcome))
    (hplain : ∀ result, outcome ≠ .settled result) :
    ∃ inv ∈ desk'.db.rows.invoices, inv.id = desk.db.rows.nextId ∧ inv.subtotal = payload.figures.subtotal ∧
      inv.taxAmount = payload.figures.tax ∧ inv.total = payload.figures.total := by
  obtain ⟨db₁, db₂, hcalc, rfl, ⟨rfl, -, -⟩ | ⟨acc, -, -, hsettled⟩⟩ := createWithDeposits_ok h
  swap
  · exact absurd hsettled (hplain _)
  obtain ⟨inv, hinv, hid, -, hrows⟩ := recalculate_rows hcalc
  obtain rfl : inv = desk.final company payload := by
    rcases List.mem_append.mp hinv with hold | hnew
    · exact absurd hid (hok.invoicesLt inv hold).ne
    · exact List.mem_singleton.mp hnew
  have hlines := opened_liveLines hok (Carried.refl (desk.opened company payload).db)
  obtain ⟨hsum, htaxed, -⟩ := newLines_sums desk.db.rows.nextId (desk.db.rows.nextId + 1) payload.lines
  set R := (desk.opened company payload).db.rows with hR
  set final := desk.final company payload with hfinal
  have hsubtotal : (reckon R final).subtotal = payload.figures.subtotal := by
    change sumCents (·.lineTotal) (R.liveLines final) = _
    rw [hlines, hsum]
    rfl
  have htax : (reckon R final).taxAmount = payload.figures.tax := by
    change reckonTax R final = _
    unfold reckonTax InvoiceIn.figures
    rw [hlines, htaxed, show final.taxRate = payload.taxRate from rfl]
    cases payload.taxRate <;> rfl
  have htotal : (reckon R final).total = payload.figures.total := by
    change (reckon R final).subtotal + (reckon R final).taxAmount = _
    rw [hsubtotal, htax]
    rfl
  refine ⟨reckoned R final, ?_, (reckoned_recast R final).id, ?_⟩
  · show _ ∈ db₂.rows.invoices
    rw [hrows]
    exact mem_putInvoice.mpr (.inr ⟨rfl, final, hinv, (reckoned_recast R final).id.symm⟩)
  · rw [← hsubtotal, ← htax, ← htotal]
    unfold reckoned
    split_ifs <;> exact ⟨rfl, rfl, rfl⟩

/-! ### The two sides -/

/-- The labor of some lines that the tenant does not tax. -/
def untaxedLabor (taxLabor : Bool) (lines : List EstimateLine) : ℤ :=
  if taxLabor then 0 else sumCents (·.lineTotal) (lines.filter (·.isLabor))

/-- A copied line keeps its amount, and labor the tenant does not tax leaves the taxable base. -/
theorem copyLines_sums (taxLabor : Bool) : ∀ {lines : List EstimateLine} {copied : List LineIn},
    copyLines taxLabor lines = .ok copied →
    sumCents (·.lineTotal) copied = sumCents (·.lineTotal) lines ∧
      sumCents (·.lineTotal) (copied.filter (·.taxable)) =
        sumCents (·.lineTotal) lines - untaxedLabor taxLabor lines := by
  intro lines
  induction lines with
  | nil =>
    intro copied h
    cases h
    cases taxLabor <;> exact ⟨rfl, rfl⟩
  | cons line lines ih =>
    intro copied h
    rw [copyLines] at h
    cases hv : zeroQuantityVerdict line.quantity line.lineTotal with
    | refuse => simp [hv] at h
    | skip =>
      have hzero : line.lineTotal = 0 := by
        unfold zeroQuantityVerdict at hv
        split_ifs at hv with _ hz
        exact hz
      simp only [hv] at h
      obtain ⟨hsum, htaxed⟩ := ih h
      rw [sumCents_cons, hzero, zero_add, htaxed]
      refine ⟨hsum, ?_⟩
      unfold untaxedLabor
      rw [List.filter_cons]
      split_ifs <;> simp [sumCents_cons, hzero]
    | bill =>
      simp only [hv] at h
      rw [except_bind_ok] at h
      obtain ⟨rest, hrest, h⟩ := h
      obtain ⟨hsum, htaxed⟩ := ih hrest
      cases h
      rw [sumCents_cons, sumCents_cons, hsum]
      refine ⟨rfl, ?_⟩
      unfold untaxedLabor at htaxed ⊢
      rw [List.filter_cons, List.filter_cons]
      cases taxLabor with
      | true => simp [sumCents_cons, htaxed]
      | false =>
        cases hl : line.isLabor with
        | true => simp [htaxed, sumCents_cons]
        | false =>
          simp only [Bool.not_false, Bool.or_true, if_true, Bool.false_eq_true, if_false, sumCents_cons, htaxed]
          ring

theorem packageLine_lineTotal (tier : ProposalTier) : (packageLine tier).lineTotal = tier.totalPrice := rfl

theorem packageLine_isLabor (tier : ProposalTier) : (packageLine tier).isLabor = false := by
  have hcategory : (packageLine tier).category = none := rfl
  unfold EstimateLine.isLabor
  rw [hcategory]
  decide

/-- The estimate's subtotal is what the copy bills. -/
theorem computeEstimateTotals_subtotal (world : TaxWorld) {estimate : Estimate}
    (hstored : estimate.total = sumCents (·.lineTotal) (billedLines estimate)) :
    (computeEstimateTotals world estimate).subtotal = sumCents (·.lineTotal) (billedLines estimate) := by
  change (match estimate.acceptedTier with
    | some tier => tierContractSubtotal tier
    | none => estimate.total) = _
  unfold billedLines at hstored ⊢
  cases htier : estimate.acceptedTier with
  | none =>
    rw [htier] at hstored
    exact hstored
  | some tier =>
    simp only [tierContractSubtotal]
    split_ifs
    · rw [sumCents_cons, packageLine_lineTotal]
      exact (add_zero _).symm
    · rfl

/-- The labor the estimate excludes is the labor among the lines billed; a package is none. -/
theorem untaxedLabor_billed (taxLabor : Bool) (estimate : Estimate) :
    untaxedLabor taxLabor (billedLines estimate) = untaxedLabor taxLabor (loadLines estimate) := by
  unfold billedLines loadLines
  cases estimate.acceptedTier with
  | none => rfl
  | some tier =>
    simp only
    split_ifs with hflat
    · rw [untaxedLabor, untaxedLabor, hflat, List.filter_cons, packageLine_isLabor]
      rfl
    · rfl

/-- What the copy saves, when it is not refused. -/
theorem invoiceFromEstimate_ok {world : TaxWorld} {payload : EstimateInvoiceIn} {estimate : Estimate}
    {draft : InvoiceIn} (h : invoiceFromEstimate world payload estimate = .ok draft) :
    ∃ copied, copyLines world.taxLabor (billedLines estimate) = .ok copied ∧
      draft.taxRate = resolvedRate world payload estimate ∧
      draft.taxAmount =
        (if (resolvedRate world payload estimate).any (0 < ·) then 0 else (payload.taxAmount : ℤ)) ∧
      draft.lines = copied ++ discountLine (estimate.discount.getD 0) := by
  unfold invoiceFromEstimate at h
  rw [except_bind_ok] at h
  obtain ⟨-, -, h⟩ := h
  rw [except_bind_ok] at h
  obtain ⟨-, -, h⟩ := h
  rw [except_bind_ok] at h
  obtain ⟨copied, hcopied, h⟩ := h
  cases h
  exact ⟨copied, hcopied, rfl, rfl, rfl⟩

theorem discountLine_sums (discount : ℕ) :
    sumCents (·.lineTotal) (discountLine discount) = -discount ∧
      sumCents (·.lineTotal) ((discountLine discount).filter (·.taxable)) = -discount := by
  unfold discountLine
  split_ifs with hpos
  · simp [sumCents]
  · have hzero : discount = 0 := by omega
    simp [sumCents, hzero]

theorem roundHalfUp_zero : roundHalfUp 0 = 0 := by
  norm_num [roundHalfUp]

/-- Excluding labor and then taking off the discount, each held at zero, is one difference held at zero. -/
theorem taxable_base_eq (subtotal labor : ℤ) (discount : ℕ) :
    max (max (subtotal - labor) 0 - (discount : ℤ)) 0 = max (subtotal - labor + -discount) 0 := by
  omega

/-- The invoice made from an accepted estimate carries the estimate's totals exactly when the discount is
    at most the subtotal and, where no rate resolves for the job, the request sends no flat tax. -/
theorem estimate_billed_as_accepted (world : TaxWorld) (payload : EstimateInvoiceIn) (estimate : Estimate)
    (draft : InvoiceIn) (hstored : estimate.total = sumCents (·.lineTotal) (billedLines estimate))
    (hrate : (resolvedRate world payload estimate).getD 0 = effectiveRate world estimate)
    (hbuilt : invoiceFromEstimate world payload estimate = .ok draft) :
    let totals := computeEstimateTotals world estimate
    (draft.figures.total = totals.total ∧ draft.figures.subtotal = totals.subtotal - totals.discount ∧
        draft.figures.tax = totals.tax) ↔
      (estimate.discount.getD 0 : ℤ) ≤ sumCents (·.lineTotal) (billedLines estimate) ∧
        (resolvedRate world payload estimate = none → payload.taxAmount = 0) := by
  obtain ⟨copied, hcopied, hdraftRate, hdraftTax, hlines⟩ := invoiceFromEstimate_ok hbuilt
  obtain ⟨hsum, htaxed⟩ := copyLines_sums world.taxLabor hcopied
  obtain ⟨hdiscount, hdiscountTaxed⟩ := discountLine_sums (estimate.discount.getD 0)
  have hsub := computeEstimateTotals_subtotal world hstored
  have hsubtotal : draft.figures.subtotal =
      sumCents (·.lineTotal) (billedLines estimate) - (estimate.discount.getD 0 : ℕ) := by
    change sumCents (·.lineTotal) draft.lines = _
    rw [hlines, sumCents_append, hsum, hdiscount]
    ring
  have htotals : (computeEstimateTotals world estimate).total =
      max (sumCents (·.lineTotal) (billedLines estimate) - (estimate.discount.getD 0 : ℕ)) 0 +
        (computeEstimateTotals world estimate).tax := by
    rw [← hsub]
    rfl
  have htaxes : (computeEstimateTotals world estimate).tax =
      roundHalfUp (max (sumCents (·.lineTotal) (draft.lines.filter (·.taxable))) 0 *
        effectiveRate world estimate) := by
    rw [hlines, List.filter_append, sumCents_append, htaxed, hdiscountTaxed, ← taxable_base_eq,
      untaxedLabor_billed, ← hsub]
    rfl
  have hfigures : draft.figures.total = draft.figures.subtotal + draft.figures.tax := rfl
  have htaxEq : draft.figures.tax = (computeEstimateTotals world estimate).tax ↔
      (resolvedRate world payload estimate = none → payload.taxAmount = 0) := by
    have hmatch : draft.figures.tax = match draft.taxRate with
        | some rate => roundHalfUp (max (sumCents (·.lineTotal) (draft.lines.filter (·.taxable))) 0 * rate)
        | none => draft.taxAmount := rfl
    rw [htaxes, ← hrate, hmatch, hdraftRate, hdraftTax]
    cases resolvedRate world payload estimate with
    | some rate => simp
    | none => simp [roundHalfUp_zero]
  have hdisc : (computeEstimateTotals world estimate).discount = (estimate.discount.getD 0 : ℕ) := rfl
  simp only [hfigures, hsubtotal, htotals, hsub, hdisc, ← htaxEq]
  constructor
  · rintro ⟨htotal, -, htax⟩
    refine ⟨?_, htax⟩
    rw [htax] at htotal
    omega
  · rintro ⟨hle, htax⟩
    rw [htax]
    exact ⟨by omega, trivial, rfl⟩

/-- A door of 1,000.00 with 200.00 of labor that is not taxed, 50.00 off, at 7.375%. -/
def doorEstimate : Estimate where
  status := .accepted
  customerId := some 1
  taxRate := some (7375 / 100000)
  discount := some 5000
  total := 120000
  acceptedTier := none
  lines :=
    [{ description := "Door", category := none, quantity := some 1, unitPrice := 100000, lineTotal := 100000 },
      { description := "Install", category := some "Labor".toList, quantity := some 1, unitPrice := 20000
        lineTotal := 20000 },
      { description := "Spare", category := none, quantity := some 0, unitPrice := 0, lineTotal := 0 }]

/-- A service job of a taxed customer. -/
def serviceJob : TaxWorld where
  taxLabor := false
  defaultRate := some (7 / 100)
  exempt := fun _ => false
  installLane := false
  blockZeroPrice := false

/-- The request with nothing but the estimate. -/
def billEstimate : EstimateInvoiceIn where
  number := "INV-1"
  jobId := 7
  customerId := 1
  invoiceDate := none
  taxRate := none
  taxAmount := 0

theorem estimate_billed_as_accepted_door :
    ∃ draft, invoiceFromEstimate serviceJob billEstimate doorEstimate = .ok draft ∧
      (computeEstimateTotals serviceJob doorEstimate).total = 122006 ∧
      draft.figures.total = (computeEstimateTotals serviceJob doorEstimate).total := by
  refine ⟨_, rfl, by decide +kernel, ?_⟩
  exact ((estimate_billed_as_accepted serviceJob billEstimate doorEstimate _ (by decide +kernel)
    (by decide +kernel) rfl).mpr ⟨by decide +kernel, by decide +kernel⟩).1

/-- A discount of 1,500.00 on the 1,200.00 estimate: the customer accepts 0.00 and the invoice is made
    for −300.00. -/
theorem overdiscounted_estimate_billed_negative :
    ∃ estimate draft, estimate.total = sumCents (·.lineTotal) (billedLines estimate) ∧
      (resolvedRate serviceJob billEstimate estimate).getD 0 = effectiveRate serviceJob estimate ∧
      invoiceFromEstimate serviceJob billEstimate estimate = .ok draft ∧
      (computeEstimateTotals serviceJob estimate).total = 0 ∧ draft.figures.total = -30000 := by
  refine ⟨{ doorEstimate with discount := some 150000 }, _, by decide +kernel, by decide +kernel, rfl,
    by decide +kernel, by decide +kernel⟩

end Gdx
