import Mathlib.Tactic.Ring
import GdxDispatch.Billing.CustomerStatement

/-! Customer statements foot and chain.

    Counting keeps one balance: what is counted and what remains add up to the settled amount. Every figure of a
    statement is then a sum over invoices and entries sliced by day, and two slices that meet at a day add up. -/

namespace Gdx

open Lib

/-! ### Sums sliced by day -/

section Slices
variable {α : Type} {f : α → ℤ} {day : α → ℤ} {rows : List α}

theorem sumCents_sub (f g : α → ℤ) (rows : List α) :
    sumCents (fun x => f x - g x) rows = sumCents f rows - sumCents g rows := by
  induction rows with
  | nil => rfl
  | cons x rows ih =>
    rw [sumCents_cons, sumCents_cons, sumCents_cons, ih]
    ring

/-- What comes before a range and what is in it is what comes up to its end. -/
theorem sumCents_slices {start finish : ℤ} (h : ∀ x ∈ rows, day x < start → day x ≤ finish) :
    sumCents f (rows.filter fun x => decide (day x < start)) +
      sumCents f (rows.filter fun x => !decide (day x < start) && decide (day x ≤ finish)) =
    sumCents f (rows.filter fun x => decide (day x ≤ finish)) := by
  induction rows with
  | nil => rfl
  | cons x rows ih =>
    have ih := ih fun y hy => h y (List.mem_cons_of_mem _ hy)
    have hx := h x List.mem_cons_self
    by_cases hs : day x < start
    · have hf := hx hs
      simp only [List.filter_cons, hs, hf, decide_true, if_true, Bool.not_true, Bool.false_and, Bool.false_eq_true,
        if_false, sumCents_cons]
      omega
    · by_cases hf : day x ≤ finish
      · simp only [List.filter_cons, hs, hf, decide_true, decide_false, if_true, Bool.not_false, Bool.true_and,
          Bool.false_eq_true, if_false, sumCents_cons]
        omega
      · simp only [List.filter_cons, hs, hf, decide_false, Bool.not_false, Bool.and_false, Bool.false_eq_true, if_false]
        omega

end Slices

/-! ### Counting -/

section Counting
variable {holds : ℕ → ℤ} {number : String} {c : Counting} {r : SettlementRecord}

theorem aboveTolerance_iff {cents : ℤ} : aboveTolerance cents = true ↔ 0 < cents := by
  unfold aboveTolerance
  rw [decide_eq_true_iff]
  omega

theorem SettlementRecord.held_nonneg (holds : ℕ → ℤ) (r : SettlementRecord) : 0 ≤ r.held holds := by
  unfold SettlementRecord.held
  split <;> omega

/-- What is held of a record is no more than the record, when it is anything. -/
theorem SettlementRecord.held_le (h : 0 < r.held holds) : r.held holds ≤ r.amount := by
  unfold SettlementRecord.held at h ⊢
  split at h <;> omega

/-- What remains and what was counted is the settled amount, and no entry is negative or after today. -/
structure Counting.Ok (settled today : ℤ) (c : Counting) : Prop where
  remaining : 0 ≤ c.remaining
  total : sumCents (·.amount) c.counted + c.remaining = settled
  entries : ∀ e ∈ c.counted, 0 ≤ e.amount ∧ e.day ≤ today
  latest : ∀ day, c.latestNonzero = some day → day ≤ today

theorem Counting.Ok.record {settled today : ℤ} (h : c.Ok settled today) (hr : r.day ≤ today) :
    (c.record holds number r).Ok settled today := by
  have hheld := r.held_nonneg holds
  have hlatest : ∀ day, (if r.amount ≠ 0 then some r.day else c.latestNonzero) = some day → day ≤ today := by
    intro day hday
    split at hday
    · rw [Option.some.injEq] at hday
      exact hday ▸ hr
    · exact h.latest day hday
  unfold Counting.record
  dsimp only
  generalize htake : (if 0 < c.remaining then min (r.amount - r.held holds) c.remaining else 0) = take
  split
  · rename_i hcounted
    have hnonneg : 0 ≤ take ∧ take ≤ c.remaining := by
      have hrem := h.remaining
      have hle : 0 < r.held holds → r.held holds ≤ r.amount := SettlementRecord.held_le
      split at htake <;> omega
    refine ⟨by simpa using hnonneg.2, ?_, ?_, hlatest⟩
    · have := h.total
      rw [sumCents_append, sumCents_cons]
      simp only [sumCents, List.map_nil, List.sum_nil] at this ⊢
      omega
    · intro e he
      rcases List.mem_append.mp he with he | he
      · exact h.entries e he
      · rw [List.mem_singleton] at he
        subst he
        exact ⟨hnonneg.1, hr⟩
  · exact ⟨h.remaining, h.total, h.entries, hlatest⟩

theorem Counting.Ok.foldl {settled today : ℤ} {records : List SettlementRecord} (h : c.Ok settled today)
    (hr : ∀ r ∈ records, r.day ≤ today) : (records.foldl (Counting.record holds number) c).Ok settled today := by
  induction records generalizing c with
  | nil => exact h
  | cons r records ih =>
    exact ih (h.record (hr r List.mem_cons_self)) fun r' hr' => hr r' (List.mem_cons_of_mem _ hr')

/-- The entry of a record counted in full, less a part held as credit. -/
def SettlementRecord.inFull (holds : ℕ → ℤ) (number : String) (r : SettlementRecord) : StatementEntry :=
  let held := if r.kind = .payment then holds r.id else 0
  { day := r.day
    amount := r.amount - held
    kind := r.kind
    invoiceNumber := number
    method := r.method
    note := if 0 < held then
      some (formatMoney r.amount ++ " received; " ++ formatMoney held ++ " held as credit on account") else none }

/-- A ledger that holds no more of a payment than it was. -/
def SettlementRecord.sane (holds : ℕ → ℤ) (r : SettlementRecord) : Prop :=
  0 ≤ r.amount ∧ (r.kind = .payment → 0 ≤ holds r.id ∧ holds r.id ≤ r.amount)

theorem SettlementRecord.sane.held_eq (h : r.sane holds) : r.held holds = if r.kind = .payment then holds r.id else 0 := by
  unfold SettlementRecord.held
  split
  · rename_i hkind
    have := h.2 hkind
    omega
  · rfl

/-- When what applies of the records is what remains, every record counts in full and nothing remains. -/
theorem counting_exact {records : List SettlementRecord} (hsane : ∀ r ∈ records, r.sane holds)
    (hrem : c.remaining = sumCents (fun r => r.amount - r.held holds) records) :
    (records.foldl (Counting.record holds number) c).remaining = 0 ∧
      (records.foldl (Counting.record holds number) c).counted =
        c.counted ++ (records.filter fun r => decide (0 < r.amount)).map (SettlementRecord.inFull holds number) := by
  induction records generalizing c with
  | nil =>
    refine ⟨?_, by simp⟩
    simpa [sumCents] using hrem
  | cons r records ih =>
    have hr := hsane r List.mem_cons_self
    have hrest : ∀ r' ∈ records, r'.sane holds := fun r' hr' => hsane r' (List.mem_cons_of_mem _ hr')
    have happlies : ∀ r' : SettlementRecord, r'.sane holds → 0 ≤ r'.amount - r'.held holds ∧ 0 ≤ r'.held holds ∧
        (0 < r'.amount ↔ 0 < r'.amount - r'.held holds ∨ 0 < r'.held holds) := by
      intro r' h'
      have heq := h'.held_eq
      have h1 := h'.1
      have h2 := h'.2
      split at heq
      · rename_i hkind
        have := h2 hkind
        omega
      · omega
    have hlater : 0 ≤ sumCents (fun r => r.amount - r.held holds) records := by
      unfold sumCents
      refine List.sum_nonneg ?_
      intro x hx
      obtain ⟨r', hr', rfl⟩ := List.mem_map.mp hx
      exact (happlies r' (hrest r' hr')).1
    rw [sumCents_cons] at hrem
    obtain ⟨happly, hheld, hpos⟩ := happlies r hr
    have htake : (if 0 < c.remaining then min (r.amount - r.held holds) c.remaining else 0) = r.amount - r.held holds := by
      split <;> omega
    have hstep : (c.record holds number r).remaining = sumCents (fun r => r.amount - r.held holds) records ∧
        (c.record holds number r).counted =
          c.counted ++ ([r].filter fun r => decide (0 < r.amount)).map (SettlementRecord.inFull holds number) := by
      unfold Counting.record
      dsimp only
      rw [htake]
      by_cases hamount : 0 < r.amount
      · rw [if_pos (hpos.mp hamount)]
        refine ⟨by simp only; omega, ?_⟩
        simp [hamount, SettlementRecord.inFull, hr.held_eq]
      · rw [if_neg fun h => hamount (hpos.mpr h)]
        refine ⟨by simp only; omega, by simp [hamount]⟩
    rw [List.foldl_cons]
    obtain ⟨hzero, hcounted⟩ := ih hrest hstep.1
    refine ⟨hzero, ?_⟩
    rw [hcounted, hstep.2, List.append_assoc, ← List.map_append, ← List.filter_append]
    rfl

end Counting

/-! ### The state of an invoice -/

section State
variable {book : StatementBook} {inv : StatementInvoice}

theorem records_day_le : ∀ r ∈ book.records inv, r.day ≤ book.today := by
  intro r hr
  rcases List.mem_append.mp hr with hr | hr
  · obtain ⟨p, -, rfl⟩ := List.mem_map.mp hr
    exact min_le_right ..
  · obtain ⟨a, -, ha⟩ := List.mem_filterMap.mp hr
    cases hkind : a.kind <;> rw [hkind] at ha <;> cases ha <;> exact min_le_right ..

/-- The count that the state of an invoice is built from. -/
def StatementBook.count (book : StatementBook) (inv : StatementInvoice) : Counting :=
  ((book.records inv).mergeSort SettlementRecord.before).foldl
    (Counting.record (heldByPayment book.ledger book.company) inv.number)
    { remaining := max (inv.total - inv.balanceDue) 0 }

theorem count_ok (book : StatementBook) (inv : StatementInvoice) :
    (book.count inv).Ok (max (inv.total - inv.balanceDue) 0) book.today := by
  refine Counting.Ok.foldl ⟨le_max_right .., by simp [sumCents], by simp, by simp⟩ ?_
  intro r hr
  exact records_day_le r (List.mem_mergeSort.mp hr)

theorem state_remainder : (book.state inv).remainder =
    if aboveTolerance (book.count inv).remaining then
      some {
        day := min (((inv.paidAt.map (dayOfStamp book.zone)).or (book.count inv).latestNonzero).getD (book.state inv).day)
          book.today
        amount := (book.count inv).remaining
        kind := .unrecorded
        invoiceNumber := inv.number }
    else none := rfl

theorem state_counted_eq :
    (book.state inv).counted = (book.count inv).counted ++ (book.state inv).remainder.toList := rfl

/-- The remainder is what remains, when anything does. -/
theorem remainder_sum (book : StatementBook) (inv : StatementInvoice) :
    (∀ e ∈ (book.state inv).remainder.toList, 0 ≤ e.amount ∧ e.day ≤ book.today) ∧
      sumCents (·.amount) (book.state inv).remainder.toList = (book.count inv).remaining := by
  have hrem := (count_ok book inv).remaining
  rw [state_remainder]
  split
  · constructor
    · intro e he
      rw [Option.toList_some, List.mem_singleton] at he
      subst he
      exact ⟨hrem, min_le_right ..⟩
    · simp [sumCents]
  · rename_i hbelow
    have hzero : (book.count inv).remaining = 0 := by
      rw [aboveTolerance_iff] at hbelow
      omega
    rw [hzero]
    exact ⟨by simp, rfl⟩

/-- The counted entries of an invoice are not negative and sum to its settled amount. -/
theorem state_counted (book : StatementBook) (inv : StatementInvoice) :
    (∀ e ∈ (book.state inv).counted, 0 ≤ e.amount ∧ e.day ≤ book.today) ∧
      sumCents (·.amount) (book.state inv).counted = (book.state inv).settled := by
  have hok := count_ok book inv
  obtain ⟨hentries, hsum⟩ := remainder_sum book inv
  rw [state_counted_eq]
  constructor
  · intro e he
    rcases List.mem_append.mp he with he | he
    · exact hok.entries e he
    · exact hentries e he
  · rw [sumCents_append, hsum]
    exact hok.total

theorem state_day_le : (book.state inv).day ≤ book.today := min_le_right ..

/-! ### Records that add up -/

/-- The ledger holds between nothing and all of each live payment of the invoice, and nothing of a voided one. -/
def StatementBook.HoldsSane (book : StatementBook) (inv : StatementInvoice) : Prop :=
  ∀ p ∈ book.payments, p.invoiceId = inv.id →
    (p.voidedAt = none → 0 ≤ heldByPayment book.ledger book.company p.id ∧
      heldByPayment book.ledger book.company p.id ≤ p.amount) ∧
    (p.voidedAt ≠ none → heldByPayment book.ledger book.company p.id = 0)

/-- The record of an adjustment, as `records` makes it. -/
def adjustmentRecord (book : StatementBook) (a : InvoiceAdjustment) : Option SettlementRecord :=
  match a.kind with
  | .refund => none
  | .creditMemo => some ⟨min (dayOfStamp book.zone a.createdAt) book.today, a.createdAt, a.id, a.amount, .creditMemo, none⟩
  | .creditApplied =>
    some ⟨min (dayOfStamp book.zone a.createdAt) book.today, a.createdAt, a.id, a.amount, .creditApplied, none⟩

/-- What the ledger holds of the records is what it holds of the payments, voided ones included. -/
theorem held_records (hsane : book.HoldsSane inv) :
    sumCents (·.held (heldByPayment book.ledger book.company)) (book.records inv) =
      recognised book.ledger book.company (book.payments.filter fun p => p.invoiceId == inv.id) := by
  unfold StatementBook.records
  rw [sumCents_append]
  have hadjust : ∀ r ∈ (book.adjustments.filter fun a => a.invoiceId == inv.id).filterMap
      (adjustmentRecord book), r.held (heldByPayment book.ledger book.company) = 0 := by
    intro r hr
    obtain ⟨a, -, ha⟩ := List.mem_filterMap.mp hr
    unfold adjustmentRecord at ha
    cases hkind : a.kind <;> rw [hkind] at ha <;> cases ha <;> rfl
  refine (congrArg₂ (· + ·) ?_ (sumCents_eq_zero hadjust)).trans (add_zero _)
  unfold recognised StatementBook.HoldsSane at *
  generalize book.payments = payments at hsane
  induction payments with
  | nil => rfl
  | cons p payments ih =>
    have ih := ih fun q hq => hsane q (List.mem_cons_of_mem _ hq)
    have hp := hsane p List.mem_cons_self
    by_cases hmine : p.invoiceId = inv.id
    · obtain ⟨hlive, hvoid⟩ := hp hmine
      cases hv : p.voidedAt with
      | none =>
        have hheld : SettlementRecord.held (heldByPayment book.ledger book.company)
            ⟨min p.paymentDate book.today, p.createdAt, p.id, p.amount, .payment, some p.method⟩ =
              heldByPayment book.ledger book.company p.id := by
          have := hlive hv
          unfold SettlementRecord.held
          simp only [if_true]
          omega
        simp only [List.filter_cons, hmine, hv, BEq.rfl, Option.isNone_none, Bool.and_self, if_true, List.map_cons,
          sumCents_cons, ih, hheld]
      | some at' =>
        have hzero := hvoid (by simp [hv])
        simp only [List.filter_cons, hmine, hv, BEq.rfl, Option.isNone_some, Bool.and_false, Bool.false_eq_true,
          if_true, if_false, sumCents_cons, ih, hzero, zero_add]
    · have hother : (p.invoiceId == inv.id) = false := by simpa using hmine
      simp only [List.filter_cons, hother, Bool.false_and, Bool.false_eq_true, if_false, ih]

/-- An invoice that is not marked counts each of its records in full, less what is held as credit. -/
theorem state_in_full (hsane : book.HoldsSane inv) (hplain : (book.state inv).anomalous = false) :
    (book.state inv).remainder = none ∧
      (book.state inv).counted = ((book.state inv).records.filter fun r => decide (0 < r.amount)).map
        (SettlementRecord.inFull (heldByPayment book.ledger book.company) inv.number) := by
  have hperm := List.mergeSort_perm (book.records inv) SettlementRecord.before
  have hmarks : aboveTolerance |sumCents (·.amount) (book.state inv).records - (book.state inv).settled -
      recognised book.ledger book.company (book.payments.filter fun p => p.invoiceId == inv.id)| = false ∧
      ((book.state inv).records.any fun r => decide (r.amount < 0)) = false := Bool.or_eq_false_iff.mp hplain
  obtain ⟨hexcess, hneg⟩ := hmarks
  have hbalance : (book.state inv).settled = sumCents (·.amount) (book.state inv).records -
      recognised book.ledger book.company (book.payments.filter fun p => p.invoiceId == inv.id) := by
    have hzero : ¬ 0 < |sumCents (·.amount) (book.state inv).records - (book.state inv).settled -
        recognised book.ledger book.company (book.payments.filter fun p => p.invoiceId == inv.id)| := by
      rw [← aboveTolerance_iff, hexcess]
      exact Bool.false_ne_true
    have := abs_nonpos_iff.mp (not_lt.mp hzero)
    omega
  have hrem : (book.state inv).settled =
      sumCents (fun r => r.amount - r.held (heldByPayment book.ledger book.company)) (book.state inv).records := by
    rw [sumCents_sub, hbalance, ← held_records hsane]
    congr 1
    exact (sumCents_perm hperm).symm
  have hrecords : ∀ r ∈ (book.state inv).records, r.sane (heldByPayment book.ledger book.company) := by
    intro r hr
    refine ⟨?_, ?_⟩
    · have := List.any_eq_false.mp hneg r hr
      simpa using this
    · intro hkind
      rcases List.mem_append.mp (List.mem_mergeSort.mp hr) with hr | hr
      · obtain ⟨p, hp, rfl⟩ := List.mem_map.mp hr
        simp only [List.mem_filter, Bool.and_eq_true, beq_iff_eq, Option.isNone_iff_eq_none] at hp
        exact (hsane p hp.1 hp.2.1).1 hp.2.2
      · obtain ⟨a, -, ha⟩ := List.mem_filterMap.mp hr
        cases hk : a.kind <;> rw [hk] at ha <;> cases ha <;> cases hkind
  obtain ⟨hzero, hcounted⟩ := counting_exact (c := { remaining := (book.state inv).settled })
    hrecords hrem
  have hnone : (book.state inv).remainder = none := by
    rw [state_remainder, if_neg]
    rw [aboveTolerance_iff]
    exact (hzero ▸ lt_irrefl _ : ¬ 0 < (book.count inv).remaining)
  refine ⟨hnone, ?_⟩
  rw [state_counted_eq, hnone, Option.toList_none, List.append_nil]
  exact hcounted

end State

/-! ### The statement -/

section Statement
variable {book : StatementBook} {customer : ℕ} {rng first second : StatementRange}

/-- A range the program offers on a day. -/
def StatementRange.Offered (today : ℤ) (rng : StatementRange) : Prop :=
  ∃ preset start finish, resolveRange today preset start finish = .ok rng

theorem newYear_le (year : ℤ) : newYear year ≤ newYear (year + 1) - 1 := by
  unfold newYear
  omega

theorem rangeOfPreset_finish {today : ℤ} {preset : StatementPreset} (h : rangeOfPreset today preset = .ok rng) :
    rng.start ≤ rng.finish ∨ rng.finish = today := by
  cases preset with
  | year year =>
    rw [rangeOfPreset] at h
    split at h
    · cases h
    · cases h
      exact .inl (newYear_le year)
  | unknown key => cases h
  | _ =>
    cases h
    exact .inr rfl

/-- An offered range is in order, or ends today. -/
theorem StatementRange.Offered.finish {today : ℤ} (h : rng.Offered today) :
    rng.start ≤ rng.finish ∨ rng.finish = today := by
  obtain ⟨preset, start, finish, h⟩ := h
  unfold resolveRange at h
  split at h
  · exact rangeOfPreset_finish h
  · split_ifs at h with hearly hlate horder
    cases h
    exact .inl (not_lt.mp horder)
  · cases h

/-- What the customer owed at the end of a day, by the statement's rows. -/
def StatementBook.balanceAt (book : StatementBook) (customer : ℕ) (day : ℤ) : ℤ :=
  sumCents (·.invoice.total) ((book.states customer).filter fun st => decide (st.day ≤ day)) -
    sumCents (·.amount) (((book.states customer).flatMap (·.counted)).filter fun e => decide (e.day ≤ day))

theorem mem_states {st : InvoiceState} (h : st ∈ book.states customer) : ∃ inv ∈ book.shown customer, st = book.state inv := by
  obtain ⟨inv, hinv, rfl⟩ := List.mem_map.mp h
  exact ⟨inv, hinv, rfl⟩

theorem states_day_le {st : InvoiceState} (h : st ∈ book.states customer) : st.day ≤ book.today := by
  obtain ⟨inv, -, rfl⟩ := mem_states h
  exact state_day_le

theorem entries_day_le {e : StatementEntry} (h : e ∈ (book.states customer).flatMap (·.counted)) : e.day ≤ book.today := by
  obtain ⟨st, hst, he⟩ := List.mem_flatMap.mp h
  obtain ⟨inv, -, rfl⟩ := mem_states hst
  exact ((state_counted book inv).1 e he).2

theorem byDayAndNumber_perm {α : Type} (day : α → ℤ) (number : α → String) (rows : List α) :
    (byDayAndNumber day number rows).Perm rows := List.mergeSort_perm ..

theorem previousBalance_eq :
    (buildStatement book customer rng).previousBalance = book.balanceAt customer (rng.start - 1) := by
  have hbefore : ∀ day : ℤ, decide (day < rng.start) = decide (day ≤ rng.start - 1) := by
    intro day
    rw [decide_eq_decide]
    omega
  unfold StatementBook.balanceAt
  simp only [← hbefore]
  show _ - _ = _
  congr 1
  exact sumCents_perm ((byDayAndNumber_perm ..).filter _)

/-- A range that is in order, or ends no earlier than today, ends at the balance of its last day. -/
theorem endingBalance_eq (h : rng.start ≤ rng.finish ∨ book.today ≤ rng.finish) :
    (buildStatement book customer rng).endingBalance = book.balanceAt customer rng.finish := by
  have hslices : ∀ day : ℤ, day ≤ book.today → day < rng.start → day ≤ rng.finish := by omega
  have hinvoices := sumCents_slices (f := fun st => st.invoice.total)
    fun st (hst : st ∈ book.states customer) => hslices st.day (states_day_le hst)
  have hentries := sumCents_slices (f := fun e => e.amount)
    fun e (he : e ∈ (book.states customer).flatMap (·.counted)) => hslices e.day (entries_day_le he)
  have hperm := byDayAndNumber_perm (·.day) (·.invoiceNumber) ((book.states customer).flatMap (·.counted))
  rw [← sumCents_perm (hperm.filter _), ← sumCents_perm (hperm.filter _)] at hentries
  unfold StatementBook.balanceAt
  rw [← hinvoices, ← hentries]
  show _ - _ + _ - _ = _
  ring

/-- The five buckets together. -/
def agingTotal (aging : AgingBucket → ℤ) : ℤ :=
  aging .current + aging .days1To30 + aging .days31To60 + aging .days61To90 + aging .over90

/-- What is open of an invoice. -/
def InvoiceState.unpaid (st : InvoiceState) : ℤ := max st.invoice.balanceDue 0

theorem countOpen_step (today : ℤ) (acc : ℤ × (AgingBucket → ℤ)) (st : InvoiceState) :
    (countOpen today acc st).1 = acc.1 + st.unpaid ∧
      agingTotal (countOpen today acc st).2 = agingTotal acc.2 + st.unpaid := by
  unfold countOpen InvoiceState.unpaid
  dsimp only
  split
  · omega
  · refine ⟨by simp only; omega, ?_⟩
    unfold agingTotal
    cases agingBucket (st.daysPastDue today) <;> simp only [reduceCtorEq, if_true, if_false] <;> omega

theorem countOpen_foldl (today : ℤ) (states : List InvoiceState) (acc : ℤ × (AgingBucket → ℤ)) :
    (states.foldl (countOpen today) acc).1 = acc.1 + sumCents (·.unpaid) states ∧
      agingTotal (states.foldl (countOpen today) acc).2 = agingTotal acc.2 + sumCents (·.unpaid) states := by
  induction states generalizing acc with
  | nil => exact ⟨(add_zero _).symm, (add_zero _).symm⟩
  | cons st states ih =>
    obtain ⟨htotal, haging⟩ := countOpen_step today acc st
    obtain ⟨htotal', haging'⟩ := ih (countOpen today acc st)
    rw [List.foldl_cons, htotal', haging', htotal, haging, sumCents_cons]
    constructor <;> ring

theorem totalUnpaid_eq : (buildStatement book customer rng).totalUnpaid = sumCents (·.unpaid) (book.states customer) := by
  refine ((countOpen_foldl ..).1.trans (zero_add _)).trans ?_
  exact sumCents_perm (byDayAndNumber_perm ..)

theorem aging_eq :
    agingTotal (buildStatement book customer rng).aging = (buildStatement book customer rng).totalUnpaid := by
  refine ((countOpen_foldl ..).2.trans (zero_add _)).trans ?_
  rw [totalUnpaid_eq]
  exact sumCents_perm (byDayAndNumber_perm ..)

/-- With every balance between nothing and the total, what is owed today is what is open. -/
theorem balanceAt_today (h : ∀ inv ∈ book.shown customer, 0 ≤ inv.balanceDue ∧ inv.balanceDue ≤ inv.total) :
    book.balanceAt customer book.today = sumCents (·.unpaid) (book.states customer) := by
  have hinvoices : (book.states customer).filter (fun st => decide (st.day ≤ book.today)) = book.states customer :=
    List.filter_eq_self.mpr fun st hst => decide_eq_true (states_day_le hst)
  have hentries : ((book.states customer).flatMap (·.counted)).filter (fun e => decide (e.day ≤ book.today)) =
      (book.states customer).flatMap (·.counted) :=
    List.filter_eq_self.mpr fun e he => decide_eq_true (entries_day_le he)
  unfold StatementBook.balanceAt
  rw [hinvoices, hentries, sumCents_flatMap, ← sumCents_sub]
  refine sumCents_congr fun st hst => ?_
  obtain ⟨inv, hinv, rfl⟩ := mem_states hst
  rw [(state_counted book inv).2]
  show inv.total - max (inv.total - inv.balanceDue) 0 = max inv.balanceDue 0
  have := h inv hinv
  omega

/-- Statements foot and chain: the entries of an invoice sum to its settled amount, the balances of a range are what its
    rows leave owed, so that its end is the start of the next, the buckets are what is unpaid, a statement up to today
    ends at what is unpaid, and an invoice that is not marked shows each record in full. -/
theorem statement_foots (book : StatementBook) (customer : ℕ) :
    (∀ st ∈ book.states customer,
      (∀ e ∈ st.counted, 0 ≤ e.amount) ∧ sumCents (·.amount) st.counted = st.settled) ∧
    (∀ rng : StatementRange, rng.start ≤ rng.finish ∨ rng.Offered book.today →
      (buildStatement book customer rng).previousBalance = book.balanceAt customer (rng.start - 1) ∧
      (buildStatement book customer rng).endingBalance = book.balanceAt customer rng.finish ∧
      (buildStatement book customer rng).totalUnpaid = sumCents (·.unpaid) (book.states customer)) ∧
    (∀ first second : StatementRange, first.start ≤ first.finish ∨ first.Offered book.today →
      second.start = first.finish + 1 →
      (buildStatement book customer first).endingBalance = (buildStatement book customer second).previousBalance) ∧
    (∀ rng, agingTotal (buildStatement book customer rng).aging = (buildStatement book customer rng).totalUnpaid) ∧
    (∀ rng : StatementRange, rng.finish = book.today →
      (∀ inv ∈ book.shown customer, 0 ≤ inv.balanceDue ∧ inv.balanceDue ≤ inv.total) →
      (buildStatement book customer rng).endingBalance = (buildStatement book customer rng).totalUnpaid) ∧
    (∀ inv ∈ book.shown customer, book.HoldsSane inv → (book.state inv).anomalous = false →
      (book.state inv).remainder = none ∧
      (book.state inv).counted = ((book.state inv).records.filter fun r => decide (0 < r.amount)).map
        (SettlementRecord.inFull (heldByPayment book.ledger book.company) inv.number)) := by
  have hfinish : ∀ rng : StatementRange, rng.start ≤ rng.finish ∨ rng.Offered book.today →
      rng.start ≤ rng.finish ∨ book.today ≤ rng.finish := fun rng hrng =>
    hrng.elim .inl fun hoffered => hoffered.finish.imp_right Eq.ge
  refine ⟨?_, fun rng hrng => ⟨previousBalance_eq, endingBalance_eq (hfinish rng hrng), totalUnpaid_eq⟩, ?_,
    fun _ => aging_eq, ?_, fun inv _ => state_in_full⟩
  · intro st hst
    obtain ⟨inv, -, rfl⟩ := mem_states hst
    exact ⟨fun e he => ((state_counted book inv).1 e he).1, (state_counted book inv).2⟩
  · intro first second hfirst hadjacent
    rw [endingBalance_eq (hfinish first hfirst), previousBalance_eq, hadjacent, add_sub_cancel_right]
  · intro rng htoday hbalances
    rw [endingBalance_eq (.inr htoday.ge), totalUnpaid_eq, htoday, balanceAt_today hbalances]

/-- An invoice of 100.00 paid by 150.00. -/
def overpaidInvoice : StatementInvoice where
  id := 3
  number := "INV-3"
  companyId := 1
  customerId := some 4
  jobId := none
  status := .paid
  invoiceDate := some (newYear 2026 + 10)
  sentAt := none
  createdAt := 0
  subtotal := 10000
  taxRate := none
  taxAmount := 0
  total := 10000
  balanceDue := 0
  totalsLocked := false
  deleted := false
  dueDate := none
  paidAt := none

/-- A shop whose ledger holds 50.00 of the payment as credit. -/
def overpaidBook : StatementBook where
  company := 1
  invoices := [overpaidInvoice]
  payments := [⟨7, 3, 15000, 0, "check".toList, newYear 2026 + 40, none, none, 0⟩]
  adjustments := []
  postingEnabled := true
  ledger := ⟨[⟨1, "2300".toList, "Customer Credits".toList, .liability, some .customerCredits, true, true, 1⟩],
    [⟨2, 1, newYear 2026 + 40, .posted, "payment".toList, str 7, [], none, none, none, 1, [⟨1, -5000, none, none, none⟩]⟩],
    [], [], 3⟩
  zone := utcZone
  today := newYear 2026 + 58

/-- The payment is counted at 100.00, and January ends where February starts. -/
theorem statement_foots_overpaid :
    (buildStatement overpaidBook 4 ⟨newYear 2026, newYear 2026 + 30⟩).endingBalance =
      (buildStatement overpaidBook 4 ⟨newYear 2026 + 31, newYear 2026 + 58⟩).previousBalance ∧
    (buildStatement overpaidBook 4 ⟨newYear 2026 + 31, newYear 2026 + 58⟩).endingBalance =
      (buildStatement overpaidBook 4 ⟨newYear 2026 + 31, newYear 2026 + 58⟩).totalUnpaid ∧
    (overpaidBook.state overpaidInvoice).remainder = none ∧
    (overpaidBook.state overpaidInvoice).counted.map (·.amount) = [10000] := by
  obtain ⟨-, -, hchain, -, htoday, hfull⟩ := statement_foots overpaidBook 4
  have hshown : overpaidBook.shown 4 = [overpaidInvoice] := rfl
  have hjanuary : StatementRange.Offered overpaidBook.today ⟨newYear 2026, newYear 2026 + 30⟩ := by
    refine ⟨none, some (newYear 2026), some (newYear 2026 + 30), ?_⟩
    have h1 : ¬ newYear 2026 < STATEMENT_EARLIEST := by decide
    have h2 : ¬ overpaidBook.today < newYear 2026 + 30 := by decide
    have h3 : ¬ newYear 2026 + 30 < newYear 2026 := by decide
    rw [resolveRange, if_neg h1, if_neg h2, if_neg h3]
  refine ⟨hchain _ _ (.inr hjanuary) (by decide +kernel), htoday _ rfl ?_, ?_⟩
  · rw [hshown]
    intro inv hinv
    rw [List.mem_singleton.mp hinv]
    decide
  · have hmem : overpaidInvoice ∈ overpaidBook.shown 4 := hshown ▸ List.mem_singleton_self _
    have hsane : overpaidBook.HoldsSane overpaidInvoice := by
      intro p hp _
      rw [List.mem_singleton.mp hp]
      exact ⟨fun _ => by decide +kernel, fun h => absurd rfl h⟩
    obtain ⟨hnone, hcounted⟩ := hfull overpaidInvoice hmem hsane (by decide +kernel)
    refine ⟨hnone, ?_⟩
    rw [hcounted]
    decide +kernel

end Statement

end Gdx
