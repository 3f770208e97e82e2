import GdxDispatch.Ledger.CashBasis
import GdxDispatch.Ledger.IssuanceLegs

/-! What the cash report recognises over a window.

    The walk recognises the changes of the clamped running total, each prorated without a cent lost. So over a window
    it recognises the clamped total at its end less the one before its start, and over two adjacent windows, account
    by account, what it recognises over both. An invoice whose lines do not reconcile recognises nothing. -/

namespace Gdx

open Lib

variable {clock : ShopClock} {R : Rows} {L : Ledger} {invoice : Invoice} {lines : List PostingLine}
  {components : List RevenueComponent} {build : Except LedgerError (List RevenueComponent)}
  {totalCents delta start mid stop cumulative : ℤ} {events : List (ℤ × ℤ)} {company : ℕ}

/-! ### Components -/

theorem creditComponents_pos (lines : List PostingLine) : ∀ c ∈ creditComponents lines, 0 < c.cents := by
  intro c hc
  obtain ⟨line, hline, rfl⟩ := List.mem_map.mp hc
  have hneg : line.amountCents < 0 := by simpa using (List.mem_filter.mp hline).2
  exact neg_pos.mpr hneg

/-- An invoice with a positive total has a credit leg. -/
theorem creditComponents_ne_nil (h : buildIssuanceLines R L invoice = .ok lines) (htotal : 0 < invoice.total) :
    creditComponents lines ≠ [] := by
  intro hnil
  have hnonneg : ∀ line ∈ lines, 0 ≤ line.amountCents := by
    intro line hline
    by_contra hneg
    have hmem : line ∈ lines.filter (·.amountCents < 0) := by simpa using ⟨hline, not_le.mp hneg⟩
    rw [creditComponents, List.map_eq_nil_iff] at hnil
    rw [hnil] at hmem
    cases hmem
  obtain ⟨hzero, -⟩ | ⟨-, rfl⟩ := buildIssuanceLines_ok h
  · exact htotal.ne' hzero
  · have htail : 0 ≤ sumCents (·.amountCents) (issuanceTail R L invoice) :=
      List.sum_nonneg (by simpa using fun line hline => hnonneg line (List.mem_cons_of_mem _ hline))
    rw [sum_issuanceTail] at htail
    omega

/-! ### Proration -/

/-- The parts of one change. -/
def prorated (components : List RevenueComponent) (totalCents delta : ℤ) : List ℤ :=
  ((prorateEventCents (components.map (·.cents)) delta totalCents).toOption).getD []

/-- Proration never raises on positive weights, and loses no cent. -/
theorem prorate_ok (hpos : ∀ c ∈ components, 0 < c.cents) (hne : components ≠ []) (htotal : 0 < totalCents)
    (hlow : -totalCents ≤ delta) (hhigh : delta ≤ totalCents) :
    prorateEventCents (components.map (·.cents)) delta totalCents = .ok (prorated components totalCents delta) ∧
      (prorated components totalCents delta).length = components.length ∧
      (prorated components totalCents delta).sum = delta := by
  obtain ⟨parts, hok, hlength, hsum⟩ : ∃ parts, prorateEventCents (components.map (·.cents)) delta totalCents =
      .ok parts ∧ parts.length = components.length ∧ parts.sum = delta := by
    have hmap : components.map (·.cents) ≠ [] := by simpa using hne
    have hrecognized : (if delta ≥ 0 then min delta totalCents else max delta (-totalCents)) = delta := by
      split <;> omega
    rw [prorateEventCents, if_neg (by simp [hmap, htotal]), hrecognized]
    simp only
    by_cases hzero : delta = 0
    · refine ⟨_, if_pos hzero, by simp, ?_⟩
      rw [hzero]
      exact List.sum_eq_zero (by simp)
    · have hweights : ∀ w ∈ (components.map (·.cents)).map fun c : ℤ => (c : ℚ), 0 < w := by
        simpa using fun c hc => hpos c hc
      have hweightsNe : ((components.map (·.cents)).map fun c : ℤ => (c : ℚ)) ≠ [] := by simpa using hne
      obtain ⟨parts, hok, hquota, -⟩ := exists_quota delta _ (fun w hw => (hweights w hw).le)
        (List.sum_pos _ hweights hweightsNe)
      exact ⟨parts, by rw [if_neg hzero, hok], by simpa using hquota.length_eq, hquota.sum_eq⟩
  have hprorated : prorated components totalCents delta = parts := by
    rw [prorated, hok]
    rfl
  rw [hprorated]
  exact ⟨hok, hlength, hsum⟩

theorem recognizedCents_bounds (htotal : 0 ≤ totalCents) (cum : ℤ) :
    0 ≤ recognizedCents totalCents cum ∧ recognizedCents totalCents cum ≤ totalCents := by
  unfold recognizedCents
  omega

/-! ### The walk -/

/-- Building fails only on lines that do not reconcile, and gives positive weights. -/
structure Buildable (build : Except LedgerError (List RevenueComponent)) : Prop where
  composition : ∀ e, build = .error e → ∃ total credited, e = .issuanceComposition total credited
  positive : ∀ components, build = .ok components → ∀ c ∈ components, 0 < c.cents

theorem invoiceComponents_buildable (R : Rows) (L : Ledger) (invoice : Invoice) :
    Buildable (invoiceComponents R L invoice) where
  composition := by
    intro e h
    unfold invoiceComponents buildIssuanceLines at h
    split at h
    · cases h
    · simp only at h
      split at h
      · cases h
        exact ⟨_, _, rfl⟩
      · cases h
  positive := by
    intro components h
    unfold invoiceComponents at h
    cases hlines : buildIssuanceLines R L invoice with
    | error e =>
      rw [hlines] at h
      cases h
    | ok lines =>
      rw [hlines] at h
      cases h
      exact creditComponents_pos lines

/-- What a change inside the window is split into. -/
def changeParts (build : Except LedgerError (List RevenueComponent)) (totalCents : ℤ) (change : ℤ × ℤ) :
    List (RevenueComponent × ℤ) :=
  match build with
  | .error _ => []
  | .ok components => if change.2 = 0 then [] else components.zip (prorated components totalCents change.2)

/-- What the changes inside a window are split into. -/
def spanParts (build : Except LedgerError (List RevenueComponent)) (totalCents start stop : ℤ)
    (changed : List (ℤ × ℤ)) : List (RevenueComponent × ℤ) :=
  (changed.filter fun c => inSpan start stop c.1).flatMap (changeParts build totalCents)

/-- The walk never raises and recognises the changes inside the window. -/
theorem walkEvents_spec (hbuild : Buildable build) (htotal : 0 < totalCents) :
    ∃ walk, walkEvents build totalCents start stop cumulative (recognizedCents totalCents cumulative) events = .ok walk ∧
      walk.parts = spanParts build totalCents start stop (changes (recognizedCents totalCents) cumulative events) ∧
      (∀ components, build = .ok components → walk.skipped = false) := by
  induction events generalizing cumulative with
  | nil => exact ⟨_, rfl, rfl, fun _ _ => rfl⟩
  | cons event events ih =>
    obtain ⟨when', amount⟩ := event
    obtain ⟨walk, hwalk, hparts, hskipped⟩ := @ih (cumulative + amount)
    have hprev := recognizedCents_bounds htotal.le cumulative
    have hnow := recognizedCents_bounds htotal.le (cumulative + amount)
    have hhere : inSpan start stop when' = true ↔ ¬ (when' < start ∨ when' > stop) := by
      simp only [inSpan, Bool.and_eq_true, decide_eq_true_eq]
      omega
    unfold walkEvents
    simp only [changes]
    generalize hdelta : recognizedCents totalCents (cumulative + amount) - recognizedCents totalCents cumulative = delta
    rw [spanParts, List.filter_cons]
    by_cases hzero : delta = 0
    · have hnothing : changeParts build totalCents (when', delta) = [] := by
        cases build with
        | error e => rfl
        | ok components => exact if_pos hzero
      refine ⟨walk, by rw [if_pos (.inl hzero), hwalk], ?_, hskipped⟩
      rw [hparts, spanParts]
      split
      · rw [List.flatMap_cons, hnothing, List.nil_append]
      · rfl
    · by_cases hspan : inSpan start stop when' = true
      · have hin := hhere.mp hspan
        simp only [hzero, hin, false_or, if_false, hspan, if_true, List.flatMap_cons]
        cases build with
        | error e =>
          obtain ⟨total, credited, rfl⟩ := hbuild.composition e rfl
          refine ⟨_, rfl, ?_, fun _ h => by cases h⟩
          simp [changeParts]
        | ok components =>
          cases components with
          | nil =>
            refine ⟨_, rfl, ?_, fun _ _ => rfl⟩
            simp [changeParts]
          | cons c components =>
            obtain ⟨hok, -, -⟩ := prorate_ok (hbuild.positive _ rfl) (List.cons_ne_nil c components) htotal
              (by omega : -totalCents ≤ delta) (by omega : delta ≤ totalCents)
            refine ⟨⟨(c :: components).zip (prorated (c :: components) totalCents delta) ++ walk.parts,
              walk.skipped⟩, by simp only [hok, hwalk], ?_, hskipped⟩
            simp only [hparts, changeParts, if_neg hzero]
            rfl
      · have hout : when' < start ∨ when' > stop := by
          by_contra h
          exact hspan (hhere.mpr h)
        refine ⟨walk, by rw [if_pos (.inr hout), hwalk], ?_, hskipped⟩
        rw [hparts, spanParts, if_neg hspan]

theorem cashEvents_sorted (clock : ShopClock) (R : Rows) (L : Ledger) (invoice : Invoice) :
    (cashEvents clock R L invoice).Pairwise fun e e' => e.1 ≤ e'.1 := by
  have : Std.Total fun e e' : ℤ × ℤ => e.1 ≤ e'.1 := ⟨fun e e' => le_total e.1 e'.1⟩
  have : IsTrans (ℤ × ℤ) fun e e' => e.1 ≤ e'.1 := ⟨fun _ _ _ h h' => h.trans h'⟩
  exact List.pairwise_insertionSort _ _

/-- The walk of an invoice recognises the changes of its clamped running total inside the window. -/
theorem invoiceWalk_spec (clock : ShopClock) (R : Rows) (L : Ledger) (start stop : ℤ) (htotal : 0 < invoice.total) :
    ∃ walk, invoiceWalk clock R L start stop invoice = .ok walk ∧
      walk.parts = spanParts (invoiceComponents R L invoice) invoice.total start stop
        (changes (recognizedCents invoice.total) 0 (cashEvents clock R L invoice)) ∧
      (∀ lines, buildIssuanceLines R L invoice = .ok lines → walk.skipped = false) := by
  obtain ⟨walk, hwalk, hparts, hskipped⟩ := @walkEvents_spec _ invoice.total start stop 0
    (cashEvents clock R L invoice) (invoiceComponents_buildable R L invoice) htotal
  have hzero : recognizedCents invoice.total 0 = 0 := by
    unfold recognizedCents
    omega
  rw [hzero] at hwalk
  refine ⟨walk, by rw [invoiceWalk, if_neg (not_le.mpr htotal), hwalk], hparts, fun lines hlines => ?_⟩
  exact hskipped (creditComponents lines) (by rw [invoiceComponents, hlines]; rfl)

/-! ### What a window comes to -/

theorem sum_zip_snd {cs : List RevenueComponent} {parts : List ℤ} (h : parts.length = cs.length) :
    sumCents (·.2) (cs.zip parts) = parts.sum := by
  rw [sumCents, List.map_snd_zip h.le]

theorem sum_spanParts (hpos : ∀ c ∈ components, 0 < c.cents) (hne : components ≠ []) (htotal : 0 < totalCents)
    {changed : List (ℤ × ℤ)} (hbounds : ∀ c ∈ changed, -totalCents ≤ c.2 ∧ c.2 ≤ totalCents) :
    sumCents (·.2) (spanParts (.ok components) totalCents start stop changed) =
      totalWhere (inSpan start stop) changed := by
  induction changed with
  | nil => rfl
  | cons c changed ih =>
    have ih := ih fun d hd => hbounds d (List.mem_cons_of_mem _ hd)
    obtain ⟨hlow, hhigh⟩ := hbounds c List.mem_cons_self
    obtain ⟨-, hlength, hsum⟩ := prorate_ok hpos hne htotal hlow hhigh
    rw [totalWhere_cons, ← ih, spanParts, List.filter_cons]
    split
    · have hhere : sumCents (·.2) (changeParts (.ok components) totalCents c) = c.2 := by
        rw [changeParts]
        split
        · rename_i hzero
          rw [hzero]
          rfl
        · rw [sum_zip_snd hlength, hsum]
      rw [List.flatMap_cons, sumCents_append, hhere]
      rfl
    · rw [zero_add]
      rfl

/-- The running total of the events that meet a condition on their date. -/
def cumulativeWhere (p : ℤ → Bool) (clock : ShopClock) (R : Rows) (L : Ledger) (invoice : Invoice) : ℤ :=
  totalWhere p (cashEvents clock R L invoice)

/-- Over a window: the clamped total at its end less the one before its start. -/
theorem recognizedTotal_window {walk : CashWalk} (hlines : buildIssuanceLines R L invoice = .ok lines)
    (htotal : 0 < invoice.total) (hle : start ≤ stop) (hwalk : invoiceWalk clock R L start stop invoice = .ok walk) :
    recognizedTotal walk =
      recognizedCents invoice.total (cumulativeWhere (fun d => d ≤ stop) clock R L invoice) -
        recognizedCents invoice.total (cumulativeWhere (fun d => d < start) clock R L invoice) := by
  obtain ⟨walk', hwalk', hparts, -⟩ := invoiceWalk_spec clock R L start stop htotal
  rw [hwalk] at hwalk'
  cases hwalk'
  have hcomponents : invoiceComponents R L invoice = .ok (creditComponents lines) := by
    rw [invoiceComponents, hlines]
    rfl
  have hbounds : ∀ c ∈ changes (recognizedCents invoice.total) 0 (cashEvents clock R L invoice),
      -invoice.total ≤ c.2 ∧ c.2 ≤ invoice.total := by
    intro c hc
    obtain ⟨a, b, heq⟩ := exists_of_mem_changes hc
    have ha := recognizedCents_bounds htotal.le a
    have hb := recognizedCents_bounds htotal.le b
    omega
  rw [recognizedTotal, hparts, hcomponents, sum_spanParts (creditComponents_pos lines)
    (creditComponents_ne_nil hlines htotal) htotal hbounds,
    changes_inSpan (cashEvents_sorted clock R L invoice) hle, zero_add, zero_add]
  rfl

/-- What is recognised by the end of a window that starts before every event lies between zero and the total. -/
theorem recognizedTotal_bounds {walk : CashWalk} (hlines : buildIssuanceLines R L invoice = .ok lines)
    (htotal : 0 < invoice.total) (hle : start ≤ stop) (hwalk : invoiceWalk clock R L start stop invoice = .ok walk)
    (hall : ∀ e ∈ cashEvents clock R L invoice, start ≤ e.1) :
    0 ≤ recognizedTotal walk ∧ recognizedTotal walk ≤ invoice.total := by
  have hbefore : cumulativeWhere (fun d => d < start) clock R L invoice = 0 :=
    totalWhere_eq_zero fun e he => by simpa using hall e he
  have hzero : recognizedCents invoice.total 0 = 0 := by
    unfold recognizedCents
    omega
  have hbounds := recognizedCents_bounds htotal.le (cumulativeWhere (fun d => d ≤ stop) clock R L invoice)
  rw [recognizedTotal_window hlines htotal hle hwalk, hbefore, hzero, sub_zero]
  exact hbounds

/-! ### Adjacent windows -/

/-- The walk over two adjacent windows is the walk over one and then the walk over the other. -/
theorem invoiceWalk_split (clock : ShopClock) (R : Rows) (L : Ledger) (invoice : Invoice) (hstart : start ≤ mid)
    (hstop : mid < stop) :
    ∃ whole first second, invoiceWalk clock R L start stop invoice = .ok whole ∧
      invoiceWalk clock R L start mid invoice = .ok first ∧ invoiceWalk clock R L (mid + 1) stop invoice = .ok second ∧
      whole.parts = first.parts ++ second.parts := by
  by_cases htotal : 0 < invoice.total
  · obtain ⟨whole, hwhole, hparts, -⟩ := invoiceWalk_spec clock R L start stop htotal
    obtain ⟨first, hfirst, hparts1, -⟩ := invoiceWalk_spec clock R L start mid htotal
    obtain ⟨second, hsecond, hparts2, -⟩ := invoiceWalk_spec clock R L (mid + 1) stop htotal
    refine ⟨whole, first, second, hwhole, hfirst, hsecond, ?_⟩
    rw [hparts, hparts1, hparts2, spanParts, spanParts, spanParts, ← List.flatMap_append,
      ← filter_inSpan_split (changes_sorted (cashEvents_sorted clock R L invoice)) hstart hstop]
  · have hnone : ∀ a b, invoiceWalk clock R L a b invoice = .ok ⟨[], false⟩ := fun a b => if_pos (not_lt.mp htotal)
    exact ⟨_, _, _, hnone _ _, hnone _ _, hnone _ _, rfl⟩

theorem bucketRows_append {xs ys : List (RevenueComponent × ℤ)} {rows rows' : List (GlAccount × ℤ)}
    (h : bucketRows L company xs = .ok rows) (h' : bucketRows L company ys = .ok rows') :
    bucketRows L company (xs ++ ys) = .ok (rows ++ rows') := by
  induction xs generalizing rows with
  | nil =>
    cases h
    exact h'
  | cons x xs ih =>
    obtain ⟨c, part⟩ := x
    rw [List.cons_append]
    unfold bucketRows at h ⊢
    by_cases hzero : part = 0
    · rw [if_pos hzero] at h ⊢
      exact ih h
    · rw [if_neg hzero] at h ⊢
      cases hacct : componentAccount L company c with
      | error e =>
        rw [hacct] at h
        cases h
      | ok account =>
        rw [hacct] at h
        simp only at h ⊢
        cases hrest : bucketRows L company xs with
        | error e =>
          rw [hrest] at h
          cases h
        | ok rest =>
          rw [hrest] at h
          cases h
          rw [ih hrest]
          simp

/-- One invoice at the head of the rows. -/
theorem cashRows_cons {invoices : List Invoice} {rows : List (GlAccount × ℤ)} {skipped : List SkippedInvoice} :
    cashRows clock R L company start stop (invoice :: invoices) = .ok (rows, skipped) ↔
      ∃ walk own rest skippedRest, invoiceWalk clock R L start stop invoice = .ok walk ∧
        bucketRows L company walk.parts = .ok own ∧
        cashRows clock R L company start stop invoices = .ok (rest, skippedRest) ∧ rows = own ++ rest ∧
        skipped = (if walk.skipped then [⟨invoice.number, SKIP_REASON⟩] else []) ++ skippedRest := by
  rw [cashRows]
  cases hwalk : invoiceWalk clock R L start stop invoice with
  | error e => simp
  | ok walk =>
    cases hown : bucketRows L company walk.parts with
    | error e => simp [hown]
    | ok own =>
      cases hrest : cashRows clock R L company start stop invoices with
      | error e => simp [hown]
      | ok rest =>
        obtain ⟨rest, skippedRest⟩ := rest
        simp only [hown]
        constructor
        · intro h
          cases h
          exact ⟨walk, own, rest, skippedRest, rfl, hown, rfl, rfl, rfl⟩
        · rintro ⟨walk', own', rest', skippedRest', hw, ho, hr, rfl, rfl⟩
          cases hw
          rw [hown] at ho
          cases ho
          cases hr
          rfl

theorem cashRows_split {invoices : List Invoice} (hstart : start ≤ mid) (hstop : mid < stop)
    {first second : List (GlAccount × ℤ)} {skipped skipped' : List SkippedInvoice}
    (h : cashRows clock R L company start mid invoices = .ok (first, skipped))
    (h' : cashRows clock R L company (mid + 1) stop invoices = .ok (second, skipped')) :
    ∃ whole skippedWhole, cashRows clock R L company start stop invoices = .ok (whole, skippedWhole) ∧
      ∀ w, weighted w whole = weighted w first + weighted w second := by
  induction invoices generalizing first second skipped skipped' with
  | nil =>
    cases h
    cases h'
    exact ⟨[], [], rfl, fun w => rfl⟩
  | cons invoice invoices ih =>
    obtain ⟨walk1, own1, rest1, skippedRest1, hwalk1, hown1, hrest1, rfl, -⟩ := cashRows_cons.mp h
    obtain ⟨walk2, own2, rest2, skippedRest2, hwalk2, hown2, hrest2, rfl, -⟩ := cashRows_cons.mp h'
    obtain ⟨whole, one, two, hwhole, hone, htwo, hparts⟩ := invoiceWalk_split clock R L invoice hstart hstop
    rw [hwalk1] at hone
    cases hone
    rw [hwalk2] at htwo
    cases htwo
    obtain ⟨rest, skippedRest, hrest, hsum⟩ := ih hrest1 hrest2
    have hown := bucketRows_append hown1 hown2
    rw [← hparts] at hown
    refine ⟨_, _, cashRows_cons.mpr ⟨whole, _, rest, skippedRest, hwhole, hown, hrest, rfl, rfl⟩, fun w => ?_⟩
    rw [weighted_append, weighted_append, weighted_append, weighted_append, hsum w]
    ring

theorem recognizedOn_sumByAccount (rows : List (GlAccount × ℤ)) (accountId : ℕ) :
    recognizedOn (sumByAccount rows) accountId = recognizedOn rows accountId := by
  rw [recognizedOn, sumByAccount, weighted_tally]
  · rfl
  · intro r _ r' _ hid
    rw [hid]

/-- Over two adjacent windows the report recognises on every account what it recognises over each. -/
theorem cashRevenue_split {first second : CashRevenue} (hstart : start ≤ mid) (hstop : mid < stop)
    (h : cashRevenueByAccount clock R L company start mid = .ok first)
    (h' : cashRevenueByAccount clock R L company (mid + 1) stop = .ok second) :
    ∃ whole, cashRevenueByAccount clock R L company start stop = .ok whole ∧ ∀ accountId,
      recognizedOn whole.buckets accountId =
        recognizedOn first.buckets accountId + recognizedOn second.buckets accountId := by
  unfold cashRevenueByAccount at h h' ⊢
  cases h1 : cashRows clock R L company start mid (reportedInvoices R company) with
  | error e =>
    rw [h1] at h
    cases h
  | ok one =>
    cases h2 : cashRows clock R L company (mid + 1) stop (reportedInvoices R company) with
    | error e =>
      rw [h2] at h'
      cases h'
    | ok two =>
      rw [h1] at h
      rw [h2] at h'
      cases h
      cases h'
      obtain ⟨whole, skipped, hwhole, hsum⟩ := cashRows_split hstart hstop h1 h2
      rw [hwhole]
      refine ⟨_, rfl, fun accountId => ?_⟩
      rw [recognizedOn_sumByAccount, recognizedOn_sumByAccount, recognizedOn_sumByAccount]
      exact hsum _

/-- The walk of an invoice whose lines reconcile recognises over a window the change of its clamped running total, and
    never anything outside of its total; over adjacent windows the report adds up account by account. -/
theorem cash_recognition_telescopes (clock : ShopClock) (R : Rows) (L : Ledger) (company : ℕ) :
    (∀ (invoice : Invoice) (lines : List PostingLine), 0 < invoice.total → buildIssuanceLines R L invoice = .ok lines →
      ∀ start stop, start ≤ stop → ∃ walk, invoiceWalk clock R L start stop invoice = .ok walk ∧ walk.skipped = false ∧
        recognizedTotal walk =
          recognizedCents invoice.total (cumulativeWhere (fun d => d ≤ stop) clock R L invoice) -
            recognizedCents invoice.total (cumulativeWhere (fun d => d < start) clock R L invoice) ∧
        ((∀ e ∈ cashEvents clock R L invoice, start ≤ e.1) →
          0 ≤ recognizedTotal walk ∧ recognizedTotal walk ≤ invoice.total)) ∧
      ∀ start mid stop first second, start ≤ mid → mid < stop →
        cashRevenueByAccount clock R L company start mid = .ok first →
        cashRevenueByAccount clock R L company (mid + 1) stop = .ok second →
        ∃ whole, cashRevenueByAccount clock R L company start stop = .ok whole ∧ ∀ accountId,
          recognizedOn whole.buckets accountId =
            recognizedOn first.buckets accountId + recognizedOn second.buckets accountId := by
  constructor
  · intro invoice lines htotal hlines start stop hle
    obtain ⟨walk, hwalk, -, hskipped⟩ := invoiceWalk_spec clock R L start stop htotal
    exact ⟨walk, hwalk, hskipped lines hlines, recognizedTotal_window hlines htotal hle hwalk,
      recognizedTotal_bounds hlines htotal hle hwalk⟩
  · intro start mid stop first second hstart hstop h h'
    exact cashRevenue_split hstart hstop h h'

/-- 100.00 of work, sent on day 5. -/
def cashInvoice : Invoice where
  id := 1
  number := "INV-1"
  companyId := 0
  customerId := some 1
  jobId := none
  status := .sent
  invoiceDate := some 5
  sentAt := none
  createdAt := 0
  subtotal := 10000
  taxRate := none
  taxAmount := 0
  total := 10000
  balanceDue := 0
  totalsLocked := false
  deleted := false

/-- The invoice with these lines, paid 60.00 on day 10 and on day 40. -/
def cashInvoiceRows (lines : List InvoiceLine) : Rows where
  settings := []
  invoices := [cashInvoice]
  lines := lines
  payments := [⟨2, 1, 6000, 0, "check".toList, 10, none, none, 0⟩, ⟨3, 1, 6000, 0, "check".toList, 40, none, none, 0⟩]
  adjustments := []
  expenses := []
  nextId := 5

/-- The whole amount on one line. -/
def oneLine : List InvoiceLine := [⟨4, 1, "labor", 10000, false, none, false⟩]

theorem cash_recognition_telescopes_twoPayments :
    ∃ walk, invoiceWalk ⟨utcZone, 50⟩ (cashInvoiceRows oneLine) Ledger.seeded 30 60 cashInvoice = .ok walk ∧
      recognizedTotal walk = 4000 := by
  have hlines : ∃ lines, buildIssuanceLines (cashInvoiceRows oneLine) Ledger.seeded cashInvoice = .ok lines := ⟨_, rfl⟩
  obtain ⟨lines, hlines⟩ := hlines
  obtain ⟨walk, hwalk, -, htotal, -⟩ := (cash_recognition_telescopes ⟨utcZone, 50⟩ (cashInvoiceRows oneLine)
    Ledger.seeded 0).1 cashInvoice lines (by decide) hlines 30 60 (by decide)
  exact ⟨walk, hwalk, htotal.trans (by decide +kernel)⟩

/-- Without a line the invoice does not reconcile, and its payments are not recognised. -/
theorem cash_recognition_skips :
    ¬ ∀ (clock : ShopClock) (R : Rows) (L : Ledger) (company : ℕ), ∀ invoice ∈ reportedInvoices R company,
      0 < invoice.total → ∀ start stop, start ≤ stop →
      ∃ walk, invoiceWalk clock R L start stop invoice = .ok walk ∧
        recognizedTotal walk =
          recognizedCents invoice.total (cumulativeWhere (fun d => d ≤ stop) clock R L invoice) -
            recognizedCents invoice.total (cumulativeWhere (fun d => d < start) clock R L invoice) := by
  intro h
  obtain ⟨walk, hwalk, htotal⟩ := h ⟨utcZone, 50⟩ (cashInvoiceRows []) Ledger.seeded 0 cashInvoice (by decide)
    (by decide) 0 60 (by decide)
  have hskipped : invoiceWalk ⟨utcZone, 50⟩ (cashInvoiceRows []) Ledger.seeded 0 60 cashInvoice = .ok ⟨[], true⟩ := by
    decide +kernel
  rw [hskipped] at hwalk
  cases hwalk
  exact absurd htotal (by decide +kernel)

end Gdx
