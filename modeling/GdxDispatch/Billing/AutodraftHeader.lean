import GdxDispatch.Forecasting.ObservedRecurring
import GdxDispatch.Billing.FirstHour
import GdxDispatch.Billing.Sources
import GdxDispatch.Billing.CreditTax

/-! The header of an autodraft: the end of `autodraft_invoice_for_closeout`, beside `_recalculate_invoice`.

    The autodraft totals the lines it just built and rounds the tax with the helper of `closeout_billing.py`, whose
    quantize breaks ties to even. The recalculation totals the stored lines and breaks ties up. The two headers differ on
    one kind of amount: a tax of exactly half a cent over an even number of cents. -/

namespace Gdx
open Lib

/-- `_resolve_draft_rate`; the tax tables may fail to be read. -/
def resolveDraftRate (world : TaxWorld) (customerId : Option ℕ) (readable : Bool) : Option ℚ :=
  if world.installLane then some 0
  else if readable && decide (0 < resolveRateForJob world customerId none) then
    some (resolveRateForJob world customerId none)
  else none

/-- The taxable flag of a line `build_closeout_lines` writes: parts and labor each have theirs, and an installation is
    never taxed. -/
def closeoutTaxable (world : TaxWorld) (l : BillLine) : Bool :=
  if l.partId.isSome then !world.installLane else world.taxLabor && !world.installLane

/-- A built line as the draft stores it. -/
def BillLine.stored (world : TaxWorld) (invoiceId id : ℕ) (l : BillLine) : InvoiceLine where
  id := id
  invoiceId := invoiceId
  description := String.ofList l.description
  lineTotal := l.lineTotal
  taxable := closeoutTaxable world l
  category := some (if l.partId.isSome then "Parts".toList else "Labor".toList)
  deleted := false

/-- The draft's lines, added to the tables. -/
def Rows.addBuilt (R : Rows) (world : TaxWorld) (draft : Invoice) (lines : List BillLine) : Rows :=
  { R with lines := R.lines ++ lines.zipIdx.map fun l => l.1.stored world draft.id (R.nextId + l.2) }

/-- The header `autodraft_invoice_for_closeout` writes. A draft whose lines come to nothing keeps its figures. -/
def autodraftHeader (world : TaxWorld) (readable : Bool) (draft : Invoice) (lines : List BillLine) : Invoice :=
  let rate := resolveDraftRate world draft.customerId readable
  let linesTotal := sumCents (·.lineTotal) lines
  let taxableTotal := sumCents (·.lineTotal) (lines.filter (closeoutTaxable world))
  let rated := { draft with taxRate := rate }
  if 0 < linesTotal then
    let tax := if rate.getD 0 ≠ 0 then roundHalfEven (taxableTotal * rate.getD 0) else 0
    { rated with
      subtotal := linesTotal
      taxAmount := tax
      total := linesTotal + tax
      balanceDue := linesTotal + tax }
  else rated

/-- A draft with a rate, the sum of its lines and its tax; nothing is paid or credited on it. -/
def Invoice.figured (draft : Invoice) (rate : Option ℚ) (subtotal tax : ℤ) : Invoice :=
  { draft with
    taxRate := rate
    subtotal := subtotal
    taxAmount := tax
    total := subtotal + tax
    balanceDue := subtotal + tax }

/-- A draft `autodraft_invoice_for_closeout` fills: new, or emptied by `release_untouched_autodraft`. Nothing is stored
    under it: its lines are deleted, it takes no credit before it is issued, and every payment on it is voided. -/
structure EmptyDraft (R : Rows) (draft : Invoice) : Prop where
  status : draft.status = .draft
  unlocked : draft.totalsLocked = false
  subtotal : draft.subtotal = 0
  taxAmount : draft.taxAmount = 0
  total : draft.total = 0
  balanceDue : draft.balanceDue = 0
  lines : ∀ l ∈ R.lines, l.invoiceId ≠ draft.id
  payments : ∀ p ∈ R.payments, p.invoiceId = draft.id → p.voidedAt ≠ none
  adjustments : ∀ a ∈ R.adjustments, a.invoiceId ≠ draft.id

/-! ### Two roundings -/

theorem floor_add_half (n : ℤ) : ⌊(n : ℚ) + 1 / 2⌋ = n := by
  rw [Int.floor_eq_iff]
  constructor <;> linarith

/-- Half up and half to even differ on the ties over an even number, and nowhere else. -/
theorem roundHalfEven_eq_roundHalfUp {x : ℚ} (h : 0 ≤ x) :
    roundHalfEven x = roundHalfUp x ↔ ∀ n : ℤ, Even n → x ≠ n + 1 / 2 := by
  have hle := Int.floor_le x
  have hlt := Int.lt_floor_add_one x
  have hup : ∀ k : ℤ, (k : ℚ) - 1 / 2 ≤ x → x < k + 1 / 2 → roundHalfUp x = k := by
    intro k hlow hhigh
    unfold roundHalfUp
    rw [if_pos h, Int.floor_eq_iff]
    constructor <;> linarith
  unfold roundHalfEven
  rcases lt_trichotomy (x - ⌊x⌋) (1 / 2) with hbelow | hhalf | habove
  · rw [if_pos hbelow, hup ⌊x⌋ (by linarith) (by linarith)]
    refine ⟨fun _ n _ heq => ?_, fun _ => rfl⟩
    rw [heq, floor_add_half] at hbelow
    linarith
  · rw [if_neg (by linarith), if_neg (by linarith), hup (⌊x⌋ + 1) (by push_cast; linarith) (by push_cast; linarith)]
    constructor
    · intro hsame n heven heq
      have hn : ⌊x⌋ = n := heq ▸ floor_add_half n
      rw [hn, if_pos (Int.even_iff.mp heven)] at hsame
      omega
    · intro htie
      by_cases heven : ⌊x⌋ % 2 = 0
      · exact absurd (by linarith) (htie ⌊x⌋ (Int.even_iff.mpr heven))
      · rw [if_neg heven]
  · rw [if_neg (by linarith), if_pos habove, hup (⌊x⌋ + 1) (by push_cast; linarith) (by push_cast; linarith)]
    refine ⟨fun _ n _ heq => ?_, fun _ => rfl⟩
    rw [heq, floor_add_half] at habove
    linarith

theorem roundHalfEven_intCast (n : ℤ) : roundHalfEven (n : ℚ) = n := by
  unfold roundHalfEven
  rw [Int.floor_intCast, sub_self, if_pos (by norm_num)]

/-! ### The built lines -/

theorem quantizeHours_nonneg {x : ℚ} (h : 0 ≤ x) : 0 ≤ quantizeHours x := by
  have hfloor : (0 : ℚ) ≤ ⌊x * 100⌋ := by exact_mod_cast Int.floor_nonneg.mpr (by linarith)
  unfold quantizeHours
  simp only
  split_ifs <;> positivity

/-- The prices a closeout is billed at are not negative: the settings and the matrix refuse such prices. -/
structure PricesNonneg (settings : Option PricingSettings) (matrix : Option LaborLine) : Prop where
  first : ∀ s ∈ settings, ∀ x ∈ s.firstHourPrice, 0 ≤ x
  hourly : ∀ s ∈ settings, ∀ x ∈ s.hourlyRate, 0 ≤ x
  flat : ∀ l ∈ matrix, 0 ≤ l.lineTotal

theorem moneyCents_nonneg {x : ℚ} (h : 0 ≤ x) : 0 ≤ moneyCents x := roundHalfUp_nonneg (by linarith)

theorem PricesNonneg.serviceRates {settings : Option PricingSettings} {matrix : Option LaborLine}
    (h : PricesNonneg settings matrix) : 0 ≤ (Gdx.serviceRates settings).1 ∧ 0 ≤ (Gdx.serviceRates settings).2 := by
  have hdefault : ∀ o : Option ℚ, (∀ x ∈ o, 0 ≤ x) → 0 ≤ moneyCents (o.getD 100) := by
    intro o ho
    cases o with
    | none => exact moneyCents_nonneg (by norm_num)
    | some x => exact moneyCents_nonneg (ho x rfl)
  constructor
  · refine hdefault _ fun x hx => ?_
    obtain ⟨s, hs, hx⟩ := Option.bind_eq_some_iff.mp hx
    exact h.first s hs x hx
  · refine hdefault _ fun x hx => ?_
    obtain ⟨s, hs, hx⟩ := Option.bind_eq_some_iff.mp hx
    exact h.hourly s hs x hx

theorem roundHalfUp_mul_nonneg {qty : ℚ} {unit : ℤ} (hq : 0 ≤ qty) (hu : 0 ≤ unit) : 0 ≤ roundHalfUp (qty * unit) := by
  have hunit : (0 : ℚ) ≤ unit := by exact_mod_cast hu
  exact roundHalfUp_nonneg (mul_nonneg hq hunit)

theorem jobLaborLines_nonneg {matrix : Option LaborLine} (zone : ShopZone) (s : LaborBook)
    (h : PricesNonneg s.settings matrix) (closeout : Option CloseoutRow) (k : Option ℕ) (dayRows : List DayRow) :
    ∀ b ∈ jobLaborLines zone s closeout k dayRows, 0 ≤ b.lineTotal := by
  obtain ⟨hfirst, hhourly⟩ := h.serviceRates
  unfold jobLaborLines
  by_cases hlane : s.lane ≠ .service
  · simp [hlane]
  rw [if_neg hlane]
  dsimp only
  rw [← attestedMan]
  by_cases hpos : attestedMan s closeout k dayRows ≤ 0
  · simp [hpos]
  rw [if_neg hpos, ← billedMan]
  have hman : 0 ≤ billedMan s closeout k dayRows := by
    refine quantizeHours_nonneg ((not_le.mp hpos).le.trans ?_)
    unfold flooredMan
    split
    · exact le_rfl
    · exact le_max_right _ _
  generalize billedMan s closeout k dayRows = man at hman
  have hmin : 0 ≤ min 1 man := le_min zero_le_one hman
  intro b hb
  split at hb
  · rw [List.mem_singleton.mp hb]
    exact roundHalfUp_mul_nonneg hman hhourly
  · split at hb
    · next hrest =>
      rcases List.mem_pair.mp hb with rfl | rfl
      · exact roundHalfUp_mul_nonneg hmin hfirst
      · exact roundHalfUp_mul_nonneg hrest.le hhourly
    · rw [List.mem_singleton.mp hb]
      exact roundHalfUp_mul_nonneg hmin hfirst

/-- No line of a closeout is priced below nothing. -/
theorem buildCloseoutLines_nonneg (zone : ShopZone) (db : BillingDb) (k jobId : ℕ) (c : CloseoutRow)
    (matrix : Option LaborLine) (h : PricesNonneg db.settings matrix) :
    ∀ l ∈ (buildCloseoutLines zone db k jobId c matrix).2, 0 ≤ l.lineTotal := by
  intro l hl
  simp only [buildCloseoutLines, List.mem_append] at hl
  rcases hl with (hl | hl) | hl
  · split at hl
    · obtain ⟨m, hm, rfl⟩ := List.mem_map.mp hl
      exact h.flat m (Option.mem_toList.mp hm)
    · exact absurd hl List.not_mem_nil
  · unfold buildCloseoutLabor at hl
    split at hl
    · exact absurd hl List.not_mem_nil
    · obtain ⟨b, hb, rfl⟩ := List.mem_map.mp hl
      refine @jobLaborLines_nonneg matrix zone _ ?_ _ _ _ b hb
      split
      · exact h
      · exact h
  · obtain ⟨q, hq, rfl⟩ := List.mem_map.mp hl
    have hpart := (List.mem_filter.mp hq).2
    simp only [closeoutPart, Bool.and_eq_true, decide_eq_true_eq] at hpart
    obtain ⟨⟨⟨⟨⟨-, -⟩, -⟩, hprice⟩, -⟩, hquantity⟩ := hpart
    have hqty : 0 < q.quantity.getD 1 := by
      by_contra hzero
      exact hquantity (by simp [zeroQuantityVerdict, hzero])
    exact mul_nonneg hprice.le hqty.le

/-! ### The two headers -/

theorem sumCents_nonneg {α : Type} {f : α → ℤ} {xs : List α} (h : ∀ x ∈ xs, 0 ≤ f x) : 0 ≤ sumCents f xs := by
  refine List.sum_nonneg fun y hy => ?_
  obtain ⟨x, hx, rfl⟩ := List.mem_map.mp hy
  exact h x hx

theorem sumCents_filter_le {α : Type} {f : α → ℤ} {xs : List α} (h : ∀ x ∈ xs, 0 ≤ f x) (p : α → Bool) :
    sumCents f (xs.filter p) ≤ sumCents f xs := by
  refine List.Sublist.sum_le_sum (List.filter_sublist.map f) fun y hy => ?_
  obtain ⟨x, hx, rfl⟩ := List.mem_map.mp hy
  exact h x hx

/-- The draft's live lines are the ones built for it: the totals and the taxable flags are theirs. -/
theorem liveLines_addBuilt {R : Rows} {draft : Invoice} (h : EmptyDraft R draft) (world : TaxWorld)
    (lines : List BillLine) :
    ((R.addBuilt world draft lines).liveLines draft).map (fun l => (l.lineTotal, l.taxable)) =
      lines.map fun l => (l.lineTotal, closeoutTaxable world l) := by
  have hold : (R.lines.filter fun l => l.invoiceId == draft.id && !l.deleted) = [] := by
    rw [List.filter_eq_nil_iff]
    intro l hl
    simp [h.lines l hl]
  have hnew : ((lines.zipIdx.map fun l => l.1.stored world draft.id (R.nextId + l.2)).filter
        fun l => l.invoiceId == draft.id && !l.deleted) =
      lines.zipIdx.map fun l => l.1.stored world draft.id (R.nextId + l.2) := by
    rw [List.filter_eq_self]
    intro l hl
    obtain ⟨b, -, rfl⟩ := List.mem_map.mp hl
    simp [BillLine.stored]
  rw [Rows.liveLines, Rows.addBuilt, List.filter_append, hold, hnew, List.nil_append, List.map_map]
  calc lines.zipIdx.map _ = (lines.zipIdx.map Prod.fst).map fun l => (l.lineTotal, closeoutTaxable world l) := by
        rw [List.map_map]
        rfl
    _ = _ := by rw [List.zipIdx_map_fst]

theorem sumCents_of_pairs {α β : Type} {f : α → ℤ} {p : α → Bool} {g : β → ℤ} {q : β → Bool} {xs : List α} {ys : List β}
    (h : xs.map (fun x => (f x, p x)) = ys.map fun y => (g y, q y)) :
    sumCents f xs = sumCents g ys ∧ sumCents f (xs.filter p) = sumCents g (ys.filter q) := by
  have hall : ∀ {γ : Type} (a : γ → ℤ) (b : γ → Bool) (zs : List γ),
      sumCents a zs = ((zs.map fun z => (a z, b z)).map Prod.fst).sum ∧
        sumCents a (zs.filter b) = (((zs.map fun z => (a z, b z)).filter Prod.snd).map Prod.fst).sum := by
    intro γ a b zs
    constructor
    · rw [List.map_map]
      rfl
    · rw [List.filter_map, List.map_map]
      rfl
  obtain ⟨hsum, hfiltered⟩ := hall f p xs
  obtain ⟨hsum', hfiltered'⟩ := hall g q ys
  rw [hsum, hfiltered, hsum', hfiltered', h]
  exact ⟨rfl, rfl⟩

theorem resolveDraftRate_nonneg (world : TaxWorld) (customerId : Option ℕ) (readable : Bool) :
    0 ≤ (resolveDraftRate world customerId readable).getD 0 := by
  unfold resolveDraftRate
  split_ifs with hinstall hrate
  · exact le_rfl
  · simp only [Bool.and_eq_true, decide_eq_true_eq] at hrate
    exact hrate.2.le
  · exact le_rfl

theorem EmptyDraft.rated {R : Rows} {draft : Invoice} (h : EmptyDraft R draft) (rate : Option ℚ) :
    { draft with taxRate := rate } = draft.figured rate 0 0 := by
  simp [Invoice.figured, h.subtotal, h.taxAmount, h.total, h.balanceDue]

/-- The autodraft's header: the tax is rounded half to even. -/
theorem autodraftHeader_eq {R : Rows} {draft : Invoice} (h : EmptyDraft R draft) (world : TaxWorld) (readable : Bool)
    {lines : List BillLine} (hlines : ∀ l ∈ lines, 0 ≤ l.lineTotal) :
    let taxableTotal := sumCents (·.lineTotal) (lines.filter (closeoutTaxable world))
    let rate := resolveDraftRate world draft.customerId readable
    autodraftHeader world readable draft lines =
      draft.figured rate (sumCents (·.lineTotal) lines) (roundHalfEven (taxableTotal * rate.getD 0)) := by
  intro taxableTotal rate
  have hzero : roundHalfEven 0 = 0 := roundHalfEven_intCast 0
  unfold autodraftHeader
  simp only
  rcases (sumCents_nonneg hlines).lt_or_eq with hpos | hnothing
  · have htax : (if rate.getD 0 ≠ 0 then roundHalfEven (taxableTotal * rate.getD 0) else 0) =
        roundHalfEven (taxableTotal * rate.getD 0) := by
      split_ifs with hne
      · rfl
      · rw [not_not.mp hne, mul_zero, hzero]
    rw [if_pos hpos]
    simp only [rate, taxableTotal] at htax
    rw [htax]
    rfl
  · have huntaxed : taxableTotal = 0 := by
      refine le_antisymm ?_ (sumCents_nonneg fun l hl => hlines l (List.mem_of_mem_filter hl))
      rw [hnothing]
      exact sumCents_filter_le hlines _
    rw [if_neg hnothing.not_lt, ← hnothing, huntaxed, Int.cast_zero, zero_mul, hzero]
    exact h.rated rate

/-- The recalculation of the filled draft: the tax is rounded half up. -/
theorem reckon_autodraft {R : Rows} {draft : Invoice} (h : EmptyDraft R draft) (world : TaxWorld)
    {lines : List BillLine} (hlines : ∀ l ∈ lines, 0 ≤ l.lineTotal) (rate : Option ℚ) (hrate : 0 ≤ rate.getD 0)
    (tax : ℤ) (huntaxed : rate = none → tax = 0) :
    let taxableTotal := sumCents (·.lineTotal) (lines.filter (closeoutTaxable world))
    reckon (R.addBuilt world draft lines) (draft.figured rate (sumCents (·.lineTotal) lines) tax) =
      draft.figured rate (sumCents (·.lineTotal) lines) (roundHalfUp (taxableTotal * rate.getD 0)) := by
  intro taxableTotal
  set written := draft.figured rate (sumCents (·.lineTotal) lines) tax
  have hlive : (R.addBuilt world draft lines).liveLines written = (R.addBuilt world draft lines).liveLines draft := rfl
  obtain ⟨hsum, htaxed⟩ := sumCents_of_pairs (liveLines_addBuilt h world lines)
  have hpaid : paidCents (R.addBuilt world draft lines) written = 0 := by
    have hnone : ((R.addBuilt world draft lines).paymentsOf written).filter (·.voidedAt.isNone) = [] := by
      refine List.filter_eq_nil_iff.mpr fun q hq => ?_
      obtain ⟨hq, hdraft⟩ := List.mem_filter.mp hq
      rw [Option.isNone_iff_eq_none]
      exact h.payments q hq (beq_iff_eq.mp hdraft)
    unfold paidCents
    rw [hnone]
    rfl
  have hcredited : invoiceCreditedCents (R.addBuilt world draft lines) written = 0 := by
    have hnone : (R.addBuilt world draft lines).adjustmentsOf written = [] :=
      List.filter_eq_nil_iff.mpr fun q hq => by simpa [written, Invoice.figured] using h.adjustments q hq
    unfold invoiceCreditedCents
    rw [hnone]
    rfl
  have htotal : 0 ≤ sumCents (·.lineTotal) lines := sumCents_nonneg hlines
  have htaxable : 0 ≤ taxableTotal := sumCents_nonneg fun l hl => hlines l (List.mem_of_mem_filter hl)
  have htax : reckonTax (R.addBuilt world draft lines) written = roundHalfUp (taxableTotal * rate.getD 0) := by
    unfold reckonTax
    rw [show written.totalsLocked = false from h.unlocked, hlive, htaxed]
    cases rate with
    | none =>
      rw [Option.getD_none, mul_zero]
      exact (huntaxed rfl).trans (roundHalfUp_intCast le_rfl).symm
    | some r =>
      simp only [written, Invoice.figured, Option.getD_some, Bool.false_eq_true, if_false]
      rw [max_eq_left htaxable]
  have htaxpos : 0 ≤ roundHalfUp (taxableTotal * rate.getD 0) :=
    roundHalfUp_nonneg (mul_nonneg (by exact_mod_cast htaxable) hrate)
  unfold reckon
  rw [htax, hpaid, hcredited, hlive, hsum, show written.totalsLocked = false from h.unlocked,
    show written.status = .draft from h.status]
  simp only [Bool.false_eq_true, if_false, reduceCtorEq, sub_zero]
  rw [max_eq_left (add_nonneg htotal htaxpos)]
  simp only [written, Invoice.figured, ← h.status, ← h.unlocked]

theorem figured_inj (draft : Invoice) (rate : Option ℚ) (subtotal tax tax' : ℤ) :
    draft.figured rate subtotal tax' = draft.figured rate subtotal tax ↔ tax = tax' :=
  ⟨fun h => (congrArg Invoice.taxAmount h).symm, fun h => h ▸ rfl⟩

/-- The autodraft's header against the recalculation's. For any closeout of any lane, its labor, parts, flags and rate, the
    figures the autodraft writes are the ones a recalculation makes of the stored lines and rate exactly when the tax
    before rounding is not half a cent over an even number of cents. -/
theorem autodraft_header_iff (zone : ShopZone) (db : BillingDb) (k jobId : ℕ) (c : CloseoutRow)
    (matrix : Option LaborLine) (hprices : PricesNonneg db.settings matrix) (world : TaxWorld) (readable : Bool)
    (R : Rows) (draft : Invoice) (h : EmptyDraft R draft) :
    let lines := (buildCloseoutLines zone db k jobId c matrix).2
    let written := autodraftHeader world readable draft lines
    let taxableTotal := sumCents (·.lineTotal) (lines.filter (closeoutTaxable world))
    let rate := (resolveDraftRate world draft.customerId readable).getD 0
    reckon (R.addBuilt world draft lines) written = written ↔
      ∀ n : ℤ, Even n → (taxableTotal * rate : ℚ) ≠ n + 1 / 2 := by
  intro lines written taxableTotal rate
  have hlines : ∀ l ∈ lines, 0 ≤ l.lineTotal := buildCloseoutLines_nonneg zone db k jobId c matrix hprices
  have hrate : 0 ≤ rate := resolveDraftRate_nonneg world draft.customerId readable
  have htaxable : 0 ≤ taxableTotal := sumCents_nonneg fun l hl => hlines l (List.mem_of_mem_filter hl)
  have hshare : (0 : ℚ) ≤ taxableTotal * rate := mul_nonneg (by exact_mod_cast htaxable) hrate
  have huntaxed : resolveDraftRate world draft.customerId readable = none → roundHalfEven (taxableTotal * rate) = 0 := by
    intro hnone
    rw [show rate = 0 by simp [rate, hnone], mul_zero]
    exact roundHalfEven_intCast 0
  rw [show written = _ from autodraftHeader_eq h world readable hlines,
    reckon_autodraft h world hlines _ hrate _ huntaxed, figured_inj]
  exact roundHalfEven_eq_roundHalfUp hshare

/-- One part of ten dollars on an office-priced job. -/
def tenDollarPart : BillingDb :=
  { BillingDb.empty fun _ => { lane := .office, completed := true, uncompletedAt := [] } with
    parts := [{ id := 1, jobId := 7, partName := "Spring".toList, sku := none, quantity := some 1
                unitPrice := some 1000, source := .closeout, wontBill := false, billedInvoiceId := none }] }

/-- Its closeout, with no hours. -/
def noHours : CloseoutRow where
  id := 2
  hoursWorked := 0
  techsOnSite := none
  closedAt := none
  superseded := false
  supersedesId := none
  isRestatement := none
  billedInvoiceId := none
  manHoursBilled := none

/-- A shop that taxes parts at the rate. -/
def taxedAt (rate : ℚ) : TaxWorld where
  taxLabor := false
  defaultRate := some rate
  exempt _ := false
  installLane := false
  blockZeroPrice := false

def newDraft : Invoice where
  id := 3
  number := "INV-000001"
  companyId := 0
  customerId := some 4
  jobId := some 7
  status := .draft
  invoiceDate := none
  sentAt := none
  createdAt := 0
  subtotal := 0
  taxRate := none
  taxAmount := 0
  total := 0
  balanceDue := 0
  totalsLocked := false
  deleted := false

def noRows : Rows := ⟨[], [], [], [], [], [], 0⟩

theorem newDraft_empty : EmptyDraft noRows newDraft := by
  constructor <;> simp [newDraft, noRows]

theorem tenDollarPart_prices : PricesNonneg tenDollarPart.settings none := by
  constructor <;> simp [tenDollarPart, BillingDb.empty]

theorem autodraft_header_iff_minnesota :
    let lines := (buildCloseoutLines utcZone tenDollarPart 3 7 noHours none).2
    let written := autodraftHeader (taxedAt (7375 / 100000)) true newDraft lines
    written.total = 1074 ∧ reckon (noRows.addBuilt (taxedAt (7375 / 100000)) newDraft lines) written = written := by
  refine ⟨by decide +kernel, ?_⟩
  refine (autodraft_header_iff utcZone tenDollarPart 3 7 noHours none tenDollarPart_prices (taxedAt (7375 / 100000)) true
    noRows newDraft newDraft_empty).mpr ?_
  have hbase : sumCents (·.lineTotal) (((buildCloseoutLines utcZone tenDollarPart 3 7 noHours none).2).filter
      (closeoutTaxable (taxedAt (7375 / 100000)))) = 1000 := by decide +kernel
  have hrate : (resolveDraftRate (taxedAt (7375 / 100000)) newDraft.customerId true).getD 0 = 7375 / 100000 := by
    decide +kernel
  intro n _ heq
  rw [hbase, hrate] at heq
  have hcents : (4 * n : ℚ) = 293 := by
    push_cast at heq
    linarith
  have : 4 * n = 293 := by exact_mod_cast hcents
  omega

/-- Ten dollars of parts at seven and a quarter percent: the draft says 10.72, any recalculation 10.73. -/
theorem autodraft_header_off_a_cent :
    let lines := (buildCloseoutLines utcZone tenDollarPart 3 7 noHours none).2
    let written := autodraftHeader (taxedAt (725 / 10000)) true newDraft lines
    let recalculated := reckon (noRows.addBuilt (taxedAt (725 / 10000)) newDraft lines) written
    written.total = 1072 ∧ recalculated.total = 1073 ∧ recalculated ≠ written := by
  decide +kernel

end Gdx
