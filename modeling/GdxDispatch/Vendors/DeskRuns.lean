import GdxDispatch.Vendors.ExpenseDates

/-! Every run of the bills' desk.

    From a desk whose lines are not yet confirmed, whatever calls come and whichever of them are refused, each line owns
    its expense, the journal reflects it, and a bill's expenses are dated by its settlement. -/

namespace Gdx
open Lib

variable {H : ContentHash} {base : ℕ} {desk desk' : BillDesk}

/-! ### Frames of the calls -/

/-- What names an expense. -/
def BillExpense.label (x : BillExpense) : ℕ × Text := (x.id, x.source)

/-- Re-dating changes the ledger and the dates of expenses alone. -/
theorem syncExpense_frame {today target : ℤ} {id : ℕ} (h : desk.syncExpense H today target id = .ok desk') :
    ∃ L xs, xs.map (·.label) = desk.expenses.map (·.label) ∧ desk' = { desk with ledger := L, expenses := xs } := by
  unfold BillDesk.syncExpense at h
  split at h
  · cases h
    exact ⟨_, _, rfl, rfl⟩
  · split_ifs at h
    · cases h
      exact ⟨_, _, rfl, rfl⟩
    · cases h
      exact ⟨_, _, rfl, rfl⟩
    · obtain ⟨⟨u, L⟩, -, h⟩ := except_bind_ok.mp h
      cases h
      refine ⟨_, _, ?_, rfl⟩
      rw [List.map_map]
      refine List.map_congr_left fun y _ => ?_
      show (if y.id = id then { y with date := target } else y).label = y.label
      split <;> rfl

theorem syncAll_frame {today target : ℤ} {ids : List ℕ}
    (h : ids.foldlM (BillDesk.syncExpense H today target) desk = .ok desk') :
    ∃ L xs, xs.map (·.label) = desk.expenses.map (·.label) ∧ desk' = { desk with ledger := L, expenses := xs } := by
  induction ids generalizing desk with
  | nil =>
    obtain rfl : desk = desk' := Except.ok.inj h
    exact ⟨_, _, rfl, rfl⟩
  | cons id ids ih =>
    rw [List.foldlM_cons] at h
    obtain ⟨mid, hmid, h⟩ := except_bind_ok.mp h
    obtain ⟨L, xs, hxs, rfl⟩ := syncExpense_frame hmid
    obtain ⟨L', xs', hxs', rfl⟩ := ih h
    exact ⟨L', xs', hxs'.trans hxs, rfl⟩

/-- A payment that is recorded is the newest row. -/
theorem recordBillPayment_frame {today : ℤ} {req : PaymentRequest} (h : recordBillPayment H today req desk = .ok desk') :
    ∃ bill L xs, desk.bill req.billId = some bill ∧ bill.status ≠ .void ∧ 0 < req.amount ∧
      req.amount ≤ desk.openBalance bill ∧ xs.map (·.label) = desk.expenses.map (·.label) ∧
      desk' = { BillDesk.recomputeStatus
        { desk with
          payments := desk.payments ++ [⟨desk.nextId, bill.id, req.amount, req.paidDate, req.source, req.matchId, false⟩]
          nextId := desk.nextId + 1 } bill.id with ledger := L, expenses := xs } := by
  unfold recordBillPayment at h
  split at h
  · cases h
  · rename_i bill hbill
    split_ifs at h with hsource hvoid hamount hcap
    obtain ⟨L, xs, hxs, rfl⟩ := syncAll_frame h
    exact ⟨bill, L, xs, hbill, hvoid, not_le.mp hamount, not_lt.mp hcap, hxs, rfl⟩

/-- What voiding a payment leaves in the table. -/
def voidById (id : ℕ) (payments : List VendorBillPayment) : List VendorBillPayment :=
  payments.map fun p => if p.id = id then { p with voided := true } else p

/-- A void finds the payment voided already, or voids it and settles its bill anew. -/
theorem voidBillPayment_frame {today : ℤ} {matchConfirmed : ℕ → Bool} {viaUnconfirm : Bool} {id : ℕ}
    (h : voidBillPayment H today matchConfirmed viaUnconfirm id desk = .ok desk') :
    ∃ payment ∈ desk.payments, payment.id = id ∧
      ((payment.voided = true ∧ desk' = desk) ∨ (payment.voided = false ∧
        (payment.matchId.any matchConfirmed = true → viaUnconfirm = true) ∧
        ((desk.bill payment.vendorInvoiceId = none ∧ desk' = { desk with payments := voidById id desk.payments }) ∨
          ∃ bill L xs, desk.bill payment.vendorInvoiceId = some bill ∧
            xs.map (·.label) = desk.expenses.map (·.label) ∧ desk' =
            { BillDesk.recomputeStatus { desk with payments := voidById id desk.payments } bill.id with
              ledger := L, expenses := xs }))) := by
  unfold voidBillPayment at h
  split at h
  · cases h
  · rename_i payment hpayment
    refine ⟨payment, List.mem_of_find?_eq_some hpayment, by simpa using List.find?_some hpayment, ?_⟩
    split_ifs at h with hvoided hceremony
    · cases h
      exact .inl ⟨hvoided, rfl⟩
    · refine .inr ⟨by simpa using hvoided, by simpa using hceremony, ?_⟩
      dsimp only at h
      split at h
      · rename_i hnone
        cases h
        exact .inl ⟨hnone, rfl⟩
      · rename_i bill hbill
        obtain ⟨L, xs, hxs, rfl⟩ := syncAll_frame h
        exact .inr ⟨bill, L, xs, hbill, hxs, rfl⟩

theorem voidById_ids (id : ℕ) (payments : List VendorBillPayment) :
    (voidById id payments).map (·.id) = payments.map (·.id) := by
  unfold voidById
  rw [List.map_map]
  refine List.map_congr_left fun p _ => ?_
  show (if p.id = id then { p with voided := true } else p).id = p.id
  split <;> rfl

theorem PaymentIds.voided (h : PaymentIds desk) (id : ℕ) (hpayments : desk'.payments = voidById id desk.payments)
    (hnext : desk'.nextId = desk.nextId) : PaymentIds desk' := by
  constructor
  · rw [hpayments, voidById_ids]
    exact h.nodup
  · intro p hp
    rw [hpayments] at hp
    have hid : p.id ∈ desk.payments.map (·.id) := by
      rw [← voidById_ids id]
      exact List.mem_map_of_mem hp
    obtain ⟨q, hq, hqid⟩ := List.mem_map.mp hid
    rw [hnext, ← hqid]
    exact h.lt q hq

/-! ### The steps -/

theorem BillsOk.record {today : ℤ} {req : PaymentRequest} (h : BillsOk H base desk) (hfree : H.CollisionFree)
    (hrun : recordBillPayment H today req desk = .ok desk') : BillsOk H base desk' := by
  obtain ⟨hexpenses, hlines⟩ := recordBillPayment_ok hfree h.expenses h.lines hrun
  refine ⟨hexpenses, hlines, ?_⟩
  obtain ⟨bill, L, xs, -, -, -, -, -, rfl⟩ := recordBillPayment_frame hrun
  constructor
  · show ((desk.payments ++ [_]).map _).Nodup
    rw [List.map_append]
    refine List.nodup_append.mpr ⟨h.payments.nodup, List.nodup_singleton _, ?_⟩
    intro i hi j hj
    obtain ⟨p, hp, rfl⟩ := List.mem_map.mp hi
    rw [List.map_singleton, List.mem_singleton] at hj
    rw [hj]
    exact Nat.ne_of_lt (h.payments.lt p hp)
  · intro p hp
    rcases List.mem_append.mp hp with hp | hp
    · exact Nat.lt_succ_of_lt (h.payments.lt p hp)
    · rw [List.mem_singleton.mp hp]
      exact Nat.lt_succ_self _

theorem BillsOk.void {today : ℤ} {matchConfirmed : ℕ → Bool} {viaUnconfirm : Bool} {id : ℕ} (h : BillsOk H base desk)
    (hfree : H.CollisionFree) (hrun : voidBillPayment H today matchConfirmed viaUnconfirm id desk = .ok desk') :
    BillsOk H base desk' := by
  obtain ⟨hexpenses, hlines⟩ := voidBillPayment_ok hfree h.expenses h.lines h.payments.nodup hrun
  refine ⟨hexpenses, hlines, ?_⟩
  obtain ⟨payment, -, -, ⟨-, rfl⟩ | ⟨-, -, ⟨-, rfl⟩ | ⟨bill, L, xs, -, -, rfl⟩⟩⟩ := voidBillPayment_frame hrun
  · exact h.payments
  · exact h.payments.voided id rfl rfl
  · exact h.payments.voided id rfl rfl

theorem dropStock_same (line : VendorInvoiceLine) (desk : BillDesk) :
    SameBooks desk (desk.dropStock line) ∧ (desk.dropStock line).lines = desk.lines := by
  unfold BillDesk.dropStock
  split
  · split
    · exact ⟨⟨rfl, rfl, rfl, rfl, rfl, rfl, Nat.le_succ _⟩, rfl⟩
    · exact ⟨.refl desk, rfl⟩
  · exact ⟨.refl desk, rfl⟩

theorem dropPart_same {bill : VendorInvoice} {line : VendorInvoiceLine} (h : desk.dropPart bill line = .ok desk') :
    SameBooks desk desk' ∧ desk'.lines = desk.lines := by
  unfold BillDesk.dropPart at h
  split at h
  · cases h
    exact ⟨.refl desk, rfl⟩
  · split_ifs at h
    · cases h
      exact ⟨⟨rfl, rfl, rfl, rfl, rfl, rfl, le_rfl⟩, rfl⟩
    · cases h
      exact ⟨⟨rfl, rfl, rfl, rfl, rfl, rfl, le_rfl⟩, rfl⟩

/-- The parts of a reversal, in order. -/
theorem reverseConfirmedLine_cases {today : ℤ} {actor : Option Text} {billId lineId : ℕ}
    (h : reverseConfirmedLine today actor billId lineId desk = .ok desk') :
    ∃ bill line mid mid', desk.bill billId = some bill ∧ line ∈ desk.lines ∧ line.vendorInvoiceId = billId ∧
      line.id = lineId ∧ desk.dropExpense today actor line = .ok mid ∧ (mid.dropStock line).dropPart bill line = .ok mid' ∧
      desk' = mid'.setLine line.id VendorInvoiceLine.reset := by
  unfold reverseConfirmedLine at h
  split at h
  · rename_i bill line hbill hline
    have hmatch := List.find?_some hline
    simp only [Bool.and_eq_true, beq_iff_eq] at hmatch
    obtain ⟨mid, hmid, h⟩ := except_bind_ok.mp h
    obtain ⟨mid', hmid', h⟩ := except_bind_ok.mp h
    cases h
    exact ⟨bill, line, mid, mid', hbill, List.mem_of_find?_eq_some hline, hmatch.1, hmatch.2, hmid, hmid', rfl⟩
  · cases h

theorem BillsOk.reverse {today : ℤ} {actor : Option Text} {billId lineId : ℕ} (h : BillsOk H base desk)
    (hrun : reverseConfirmedLine today actor billId lineId desk = .ok desk') : BillsOk H base desk' := by
  obtain ⟨bill, line, mid, mid', -, hline, -, -, hmid, hmid', rfl⟩ := reverseConfirmedLine_cases hrun
  have hbase : ∀ id, line.expenseId = some id → base ≤ id := fun id hid => (h.lines.expense line hline id hid).1
  obtain ⟨hok, L, rfl⟩ := dropExpense_ok h.expenses hbase hmid
  obtain ⟨hstock, hstocklines⟩ := dropStock_same line
    { desk with ledger := L, expenses := desk.expenses.map (dropExpenseIf line.expenseId) }
  obtain ⟨hpart, hpartlines⟩ := dropPart_same hmid'
  have hlines : mid'.lines = desk.lines := hpartlines.trans hstocklines
  refine ⟨?_, ?_, ?_⟩
  · have hsame : SameBooks mid' (mid'.setLine line.id VendorInvoiceLine.reset) :=
      ⟨rfl, rfl, rfl, rfl, rfl, rfl, le_rfl⟩
    exact hsame.expensesOk (hpart.expensesOk (hstock.expensesOk hok))
  · refine h.lines.dropped hline (g := VendorInvoiceLine.reset) ⟨fun _ => rfl, fun _ => rfl⟩ ?_ ?_ rfl ?_
    · exact ⟨hpart.bills.trans hstock.bills, hpart.payments.trans hstock.payments⟩
    · show mid'.lines.map _ = _
      rw [hlines]
    · exact hpart.expenses.trans hstock.expenses
  · exact h.payments.mono (hpart.payments.trans hstock.payments) (Nat.le_trans hstock.nextId hpart.nextId)

/-- A period lock leaves every entry. -/
theorem BillsOk.lock (h : BillsOk H base desk) (lock : GlPeriodLock) :
    BillsOk H base { desk with ledger := { desk.ledger with locks := desk.ledger.locks ++ [lock] } } := by
  have htracked := h.expenses.tracked
  have hlines := h.lines
  refine ⟨⟨?_, h.expenses.nodup, h.expenses.ids, h.expenses.base_le, h.expenses.fresh, ?_⟩,
    ⟨hlines.nodup, hlines.expense, hlines.unconfirmed, hlines.owner, hlines.reached, hlines.dates⟩,
    ⟨h.payments.nodup, h.payments.lt⟩⟩
  · exact htracked.of_entries (htracked.inv.congr rfl rfl rfl) rfl
  · intro x hx hb
    obtain ⟨hlines, hcompany, hreflects⟩ := h.expenses.rows x hx hb
    exact ⟨hlines, hcompany, hreflects.congr rfl⟩

theorem BillsOk.confirm {today : ℤ} {req : ConfirmRequest} (h : BillsOk H base desk) (hfree : H.CollisionFree)
    (hrun : confirmLine H today req desk = .ok desk') : BillsOk H base desk' := by
  rcases confirmLine_cases hrun with rfl | ⟨bill, line, hbill, hline, hown, hopen, hconfirmed⟩
  · exact h
  · exact hconfirmed.billsOk h hfree hline hopen (hown ▸ hbill)

theorem BillsOk.step (h : BillsOk H base desk) (hfree : H.CollisionFree) (e : BillEvent) : BillsOk H base (desk.step H e) := by
  unfold BillDesk.step
  split
  · rename_i desk' hcall
    cases e with
    | confirm today req => exact h.confirm hfree hcall
    | reverse today actor billId lineId => exact h.reverse hcall
    | record today req => exact h.record hfree hcall
    | void today matchConfirmed viaUnconfirm id => exact h.void hfree hcall
    | lock date =>
      cases hcall
      exact h.lock _
  · exact h

/-- What holds of a desk holds after every run. -/
theorem BillsOk.run (h : BillsOk H base desk) (hfree : H.CollisionFree) (events : List BillEvent) :
    BillsOk H base (desk.run H events) := by
  unfold BillDesk.run
  induction events generalizing desk with
  | nil => exact h
  | cons e events ih => exact ih (h.step hfree e)

/-! ### What no call touches -/

/-- The company and its settings. -/
structure SameShop (desk desk' : BillDesk) : Prop where
  company : desk'.company = desk.company
  settings : desk'.settings = desk.settings

theorem SameShop.trans {mid : BillDesk} (h : SameShop desk mid) (h' : SameShop mid desk') : SameShop desk desk' :=
  ⟨h'.company.trans h.company, h'.settings.trans h.settings⟩

theorem SameBooks.shop (h : SameBooks desk desk') : SameShop desk desk' := ⟨h.company, h.settings⟩

theorem recordExpense_shop {today : ℤ} {bill : VendorInvoice} {line : VendorInvoiceLine} {category : Text}
    {job : Option ℕ} (h : desk.recordExpense H today bill line category job = .ok desk') : SameShop desk desk' := by
  unfold BillDesk.recordExpense at h
  obtain ⟨⟨u, L⟩, -, h⟩ := except_bind_ok.mp h
  cases h
  exact ⟨rfl, rfl⟩

theorem dropExpense_shop {today : ℤ} {actor : Option Text} {line : VendorInvoiceLine}
    (h : desk.dropExpense today actor line = .ok desk') : SameShop desk desk' := by
  unfold BillDesk.dropExpense at h
  split at h
  · cases h
    exact ⟨rfl, rfl⟩
  · split_ifs at h
    · cases h
      exact ⟨rfl, rfl⟩
    · obtain ⟨⟨u, L⟩, -, h⟩ := except_bind_ok.mp h
      cases h
      exact ⟨rfl, rfl⟩

theorem Confirmed.shop {today : ℤ} {bill : VendorInvoice} {line : VendorInvoiceLine}
    (h : Confirmed H today desk bill line desk') : SameShop desk desk' := by
  cases h with
  | linked recorded | minted recorded | costOnly recorded | overhead recorded =>
    exact (recordExpense_shop recorded).trans ⟨rfl, rfl⟩
  | stocked | skipped => exact ⟨rfl, rfl⟩

theorem step_shop (desk : BillDesk) (e : BillEvent) : SameShop desk (desk.step H e) := by
  unfold BillDesk.step
  split
  · rename_i desk' hcall
    cases e with
    | confirm today req =>
      rcases confirmLine_cases hcall with rfl | ⟨bill, line, -, -, -, -, hconfirmed⟩
      · exact ⟨rfl, rfl⟩
      · exact hconfirmed.shop
    | reverse today actor billId lineId =>
      obtain ⟨bill, line, mid, mid', -, -, -, -, hmid, hmid', rfl⟩ := reverseConfirmedLine_cases hcall
      have hshop := (dropExpense_shop hmid).trans ((dropStock_same line mid).1.shop.trans (dropPart_same hmid').1.shop)
      exact hshop.trans ⟨rfl, rfl⟩
    | record today req =>
      obtain ⟨bill, L, xs, -, -, -, -, -, rfl⟩ := recordBillPayment_frame hcall
      exact ⟨rfl, rfl⟩
    | void today matchConfirmed viaUnconfirm id =>
      obtain ⟨payment, -, -, ⟨-, rfl⟩ | ⟨-, -, ⟨-, rfl⟩ | ⟨bill, L, xs, -, -, rfl⟩⟩⟩ := voidBillPayment_frame hcall
      · exact ⟨rfl, rfl⟩
      · exact ⟨rfl, rfl⟩
      · exact ⟨rfl, rfl⟩
    | lock date =>
      cases hcall
      exact ⟨rfl, rfl⟩
  · exact ⟨rfl, rfl⟩

theorem run_shop (desk : BillDesk) (events : List BillEvent) : SameShop desk (desk.run H events) := by
  unfold BillDesk.run
  induction events generalizing desk with
  | nil => exact ⟨rfl, rfl⟩
  | cons e events ih => exact (step_shop desk e).trans (ih _)

/-! ### The books a run starts from -/

/-- A desk before its lines are confirmed: rows under their keys, and no entry yet of an expense to come. -/
structure BillDesk.Opening (H : ContentHash) (desk : BillDesk) : Prop where
  journal : JournalInv H desk.ledger
  unposted : ∀ e ∈ desk.ledger.entries, e.sourceType = "expense".toList → ∀ id, e.sourceId = str id → id < desk.nextId
  expenses : (desk.expenses.map (·.id)).Nodup
  expense_ids : ∀ x ∈ desk.expenses, x.id < desk.nextId
  lines : (desk.lines.map (·.id)).Nodup
  unconfirmed : ∀ l ∈ desk.lines, l.confirmed = false ∧ l.expenseId = none
  payments : (desk.payments.map (·.id)).Nodup
  payment_ids : ∀ p ∈ desk.payments, p.id < desk.nextId

theorem BillDesk.Opening.billsOk (h : desk.Opening H) : BillsOk H desk.nextId desk := by
  have hnone : ∀ e ∈ desk.ledger.entries, ¬ MadeSince desk.nextId e.sourceType e.sourceId := by
    rintro e he ⟨htype, id, hid, hsource⟩
    have := h.unposted e he htype id hsource
    omega
  refine ⟨⟨.of_none h.journal hnone, h.expenses, h.expense_ids, le_rfl, ?_, ?_⟩, ⟨h.lines, ?_, ?_, ?_, ?_, ?_⟩,
    ⟨h.payments, h.payment_ids⟩⟩
  · intro id hid
    refine Finset.eq_empty_of_forall_notMem fun p hp => ?_
    obtain ⟨e, hst, rfl⟩ := exists_stands hp
    obtain ⟨-, htype, hsource⟩ := mem_expenseLive.mp hp
    exact hnone e hst.mem ⟨htype, id, hid, hsource⟩
  · intro x hx hbase
    have := h.expense_ids x hx
    omega
  · intro l hl id hid
    rw [(h.unconfirmed l hl).2] at hid
    cases hid
  · exact fun l hl _ => (h.unconfirmed l hl).2
  · intro l hl l' hl' id hid
    rw [(h.unconfirmed l hl).2] at hid
    cases hid
  · intro x hx hbase
    have := h.expense_ids x hx
    omega
  · intro l hl x hx hlx
    rw [(h.unconfirmed l hl).2] at hlx
    cases hlx

/-! ### What the journal says of an expense -/

/-- The entries of the expense that are posted and no reversals. -/
def Ledger.expenseEntries (L : Ledger) (id : ℕ) : List GlJournalEntry :=
  L.entries.filter fun e => e.hasSource "expense".toList (str id) && e.isLive

/-- What the entries of the expense, of every status, sum to on the account. -/
def Ledger.expenseNet (L : Ledger) (id account : ℕ) : ℤ :=
  L.total fun s => s.sourceType == "expense".toList && s.sourceId == str id && s.accountId == account

/-- What the entry has on the account. -/
def GlJournalEntry.onAccount (e : GlJournalEntry) (account : ℕ) : ℤ :=
  ((e.lines.filter (·.accountId == account)).map (·.amountCents)).sum

section Net
variable {S : Text → Text → Prop} {L : Ledger} {id : ℕ}

/-- The slots of an expense on an account, as weights. -/
def expenseSlot (id account : ℕ) (s : Slot) : ℤ :=
  if s.sourceType == "expense".toList && s.sourceId == str id && s.accountId == account then 1 else 0

/-- The expense's entries net to its live postings. -/
theorem expenseNet_eq (ht : Tracked H S L) (hs : S "expense".toList (str id)) (account : ℕ) :
    L.expenseNet id account = ∑ p ∈ L.expenseLive id, p.value (expenseSlot id account) := by
  have hw : ∀ s : Slot, expenseSlot id account s ≠ 0 → S s.sourceType s.sourceId := by
    intro s hne
    unfold expenseSlot at hne
    split at hne
    · rename_i hslot
      simp only [Bool.and_eq_true, beq_iff_eq] at hslot
      rw [hslot.1.1, hslot.1.2]
      exact hs
    · exact absurd rfl hne
  unfold Ledger.expenseNet
  rw [total_eq_net]
  refine (ht.net_live (expenseSlot id account) hw).trans ?_
  refine (Finset.sum_subset (Finset.filter_subset _ _) ?_).symm
  intro p hp hout
  refine Posting.value_eq_zero (S := fun st sid => st = "expense".toList ∧ sid = str id) ?_ ?_
  · intro s hne
    unfold expenseSlot at hne
    split at hne
    · rename_i hslot
      simp only [Bool.and_eq_true, beq_iff_eq] at hslot
      exact hslot.1
    · exact absurd rfl hne
  · intro hsource
    exact hout (mem_expenseLive.mpr ⟨hp, hsource⟩)

/-- An entry of the expense weighs what it has on the account. -/
theorem value_onAccount {e : GlJournalEntry} (account : ℕ) (htype : e.sourceType = "expense".toList)
    (hid : e.sourceId = str id) : e.posting.value (expenseSlot id account) = e.onAccount account := by
  have hslot : ∀ l : GlJournalLine, expenseSlot id account
      ⟨e.companyId, e.sourceType, e.sourceId, l.content.accountId, l.content.jobId, l.content.customerId⟩ =
        if l.accountId == account then 1 else 0 := by
    intro l
    unfold expenseSlot
    rw [htype, hid]
    simp only [beq_self_eq_true, Bool.true_and]
    rfl
  unfold Posting.value Posting.amounts GlJournalEntry.posting GlJournalEntry.onAccount weighted
  simp only [List.map_map]
  induction e.lines with
  | nil => rfl
  | cons l lines ih =>
    rw [List.map_cons, List.sum_cons, ih, List.filter_cons, Function.comp_apply, Function.comp_apply]
    dsimp only
    rw [hslot]
    cases l.accountId == account with
    | false => rw [if_neg (by decide), if_neg (by decide), zero_mul, zero_add]
    | true =>
      rw [if_pos rfl, if_pos rfl, one_mul, List.map_cons, List.sum_cons]
      rfl

end Net

/-- The journal holds one entry for the expense, at its date, and its entries net to that one alone. -/
def BookedOnce (L : Ledger) (x : BillExpense) : Prop :=
  ∃ e, L.expenseEntries x.id = [e] ∧ e.effectiveAt = x.date ∧ ∀ account, L.expenseNet x.id account = e.onAccount account

/-- The journal holds no entry for the expense, and its entries net to nothing. -/
def NotBooked (L : Ledger) (id : ℕ) : Prop := L.expenseEntries id = [] ∧ ∀ account, L.expenseNet id account = 0

theorem mem_expenseEntries {L : Ledger} {id : ℕ} {e : GlJournalEntry} :
    e ∈ L.expenseEntries id ↔ Stands L e ∧ e.posting ∈ L.expenseLive id := by
  unfold Ledger.expenseEntries GlJournalEntry.isLive
  simp only [List.mem_filter, Bool.and_eq_true, hasSource_iff, isPosted_iff, Option.isNone_iff_eq_none]
  constructor
  · rintro ⟨hmem, hsource, hposted, hrev⟩
    have hst : Stands L e := ⟨hmem, hposted, hrev⟩
    exact ⟨hst, mem_expenseLive.mpr ⟨hst.mem_live, hsource⟩⟩
  · rintro ⟨hst, hlive⟩
    exact ⟨hst.mem, (mem_expenseLive.mp hlive).2, hst.posted, hst.not_reversal⟩

theorem BookedAt.once {S : Text → Text → Prop} {L : Ledger} {x : BillExpense} (ht : Tracked H S L)
    (hs : S "expense".toList (str x.id)) (h : BookedAt L x.toExpense x.date) : BookedOnce L x := by
  obtain ⟨p, hp, -, -, hdate⟩ := h
  obtain ⟨e, hentries, hst, rfl⟩ : ∃ e, L.expenseEntries x.id = [e] ∧ Stands L e ∧ e.posting = p := by
    refine query_singleton ht hs hp ?_ ?_
    · intro e he hq
      exact mem_expenseEntries.mp (List.mem_filter.mpr ⟨he, hq⟩)
    · intro e hst hposting
      have hmem : e ∈ L.expenseEntries x.id := by
        refine mem_expenseEntries.mpr ⟨hst, ?_⟩
        rw [hposting, hp]
        exact Finset.mem_singleton_self p
      exact (List.mem_filter.mp hmem).2
  have hsource : e.posting ∈ L.expenseLive x.id := by
    rw [hp]
    exact Finset.mem_singleton_self _
  obtain ⟨-, htype, hid⟩ := mem_expenseLive.mp hsource
  refine ⟨e, hentries, hdate, fun account => ?_⟩
  rw [expenseNet_eq ht hs, hp, Finset.sum_singleton]
  exact value_onAccount account htype hid

theorem notBooked_of_empty {S : Text → Text → Prop} {L : Ledger} {id : ℕ} (ht : Tracked H S L)
    (hs : S "expense".toList (str id)) (h : L.expenseLive id = ∅) : NotBooked L id := by
  constructor
  · refine List.eq_nil_iff_forall_not_mem.mpr fun e he => ?_
    have hlive := (mem_expenseEntries.mp he).2
    rw [h] at hlive
    exact absurd hlive (Finset.notMem_empty _)
  · intro account
    rw [expenseNet_eq ht hs, h, Finset.sum_empty]

/-! ### A bill's expenses follow its settlement -/

/-- A live expense of the bill. -/
def BillDesk.ExpenseOf (desk : BillDesk) (bill : VendorInvoice) (x : BillExpense) : Prop :=
  x ∈ desk.expenses ∧ x.deleted = false ∧ x.source = EXPENSE_SOURCE ∧
    ∃ l ∈ desk.lines, l.vendorInvoiceId = bill.id ∧ l.expenseId = some x.id

theorem expenses_follow_settlement (hfree : H.CollisionFree) (hopening : desk.Opening H) (events : List BillEvent) :
    ∀ bill, (desk.run H events).bill bill.id = some bill → bill.invoiceDate.isSome →
      desk.settings.ledgerPostingEnabled desk.company = true → ∀ x, (desk.run H events).ExpenseOf bill x →
      (∀ today, x.date = (desk.run H events).effectiveExpenseDate today bill) ∧
      (x.amount ≠ 0 → beforeCutover desk.settings desk.company x.date = false → BookedOnce (desk.run H events).ledger x) ∧
      (x.amount = 0 ∨ beforeCutover desk.settings desk.company x.date = true →
        NotBooked (desk.run H events).ledger x.id) := by
  rintro bill hbill hdated hon x ⟨hx, hlive, -, l, hl, hown, hlx⟩
  have hok := hopening.billsOk.run hfree events
  have hshop := run_shop (H := H) desk events
  have hbase := (hok.lines.expense l hl x.id hlx).1
  have hs := MadeSince.of_le hbase
  obtain ⟨-, hcompany, hreflects⟩ := hok.expenses.rows x hx hbase
  rw [hshop.company] at hcompany
  rw [hshop.settings] at hreflects
  refine ⟨hok.lines.dates l hl x hx hlx bill (hown ▸ hbill) hdated, ?_, ?_⟩
  · intro hamount hafter
    have hbooks : OnBooks desk.settings x.toExpense := ⟨hcompany ▸ hon, hlive, hamount, hcompany ▸ hafter⟩
    exact (hreflects.booked hbooks).once hok.expenses.tracked hs
  · intro hoff
    refine notBooked_of_empty hok.expenses.tracked hs (hreflects.unbooked ?_)
    rintro ⟨-, -, hamount, hafter⟩
    rw [hcompany] at hafter
    rcases hoff with hzero | hbefore
    · exact hamount hzero
    · rw [hafter] at hbefore
      cases hbefore

/-- Posting is on, and the books start on day 30. -/
def supplySettings : Rows := ⟨[⟨0, true, some 30, [], [], [], []⟩], [], [], [], [], [], 0⟩

def supplyBill (day total : ℤ) (status : BillStatus) : VendorInvoice :=
  ⟨1, none, .name "acme".toList, "Acme".toList, "A-1".toList, some day, total, status, none, none, false⟩

def supplyLine (total : ℤ) : VendorInvoiceLine :=
  ⟨2, 1, some 1, .item, "hinges", 100, 1000000, total, .pending, none, none, none, none, none, none, false⟩

/-- One bill of one line. -/
def supplyDesk (day total : ℤ) : BillDesk :=
  ⟨0, supplySettings, [supplyBill day total .opened], [supplyLine total], [], [], Ledger.seeded, [], [], [], [], 10⟩

def toOverhead : ConfirmRequest := ⟨1, 2, .overhead, none, none, none, false, none⟩

def supplyExpense (date total : ℤ) : BillExpense :=
  ⟨⟨10, 0, "Acme", total, date, "supplies".toList, none, [], false⟩, EXPENSE_SOURCE⟩

theorem seeded_journalInv (H : ContentHash) : JournalInv H Ledger.seeded :=
  .of_empty rfl ⟨by decide +kernel, by decide +kernel⟩

theorem supplyDesk_opening (day total : ℤ) : (supplyDesk day total).Opening plainHash where
  journal := seeded_journalInv plainHash
  unposted := fun e he => absurd he List.not_mem_nil
  expenses := List.nodup_nil
  expense_ids := fun x hx => absurd hx List.not_mem_nil
  lines := List.nodup_singleton _
  unconfirmed := fun l hl => by
    rw [List.mem_singleton.mp hl]
    exact ⟨rfl, rfl⟩
  payments := List.nodup_nil
  payment_ids := fun p hp => absurd hp List.not_mem_nil

/-- The line is confirmed, and the bill is paid on day 40. -/
def paidSupply : List BillEvent := [.confirm 12 toOverhead, .record 40 ⟨1, 10000, some 40, .manual, none⟩]

/-- A bill dated before the cutover and paid after it: the expense moves to the payment's date, and onto the books. -/
theorem expenses_follow_settlement_paid :
    let desk := (supplyDesk 10 10000).run plainHash paidSupply
    desk.bill 1 = some (supplyBill 10 10000 .paid) ∧
      (∀ today, 40 = desk.effectiveExpenseDate today (supplyBill 10 10000 .paid)) ∧
      BookedOnce desk.ledger (supplyExpense 40 10000) := by
  intro desk
  have hbill : desk.bill 1 = some (supplyBill 10 10000 .paid) := by decide +kernel
  have hexpenses : desk.expenses = [supplyExpense 40 10000] := by decide +kernel
  have hlines : desk.lines.any (fun l => l.vendorInvoiceId == 1 && l.expenseId == some 10) = true := by decide +kernel
  obtain ⟨l, hl, hown⟩ := List.any_eq_true.mp hlines
  rw [Bool.and_eq_true, beq_iff_eq, beq_iff_eq] at hown
  have hof : desk.ExpenseOf (supplyBill 10 10000 .paid) (supplyExpense 40 10000) := by
    refine ⟨?_, rfl, rfl, l, hl, hown.1, hown.2⟩
    rw [hexpenses]
    exact List.mem_singleton_self _
  obtain ⟨hdate, hbooked, -⟩ := expenses_follow_settlement plainHash_collisionFree (supplyDesk_opening 10 10000) paidSupply
    (supplyBill 10 10000 .paid) hbill rfl (by decide) (supplyExpense 40 10000) hof
  exact ⟨hbill, hdate, hbooked (by decide) (by decide)⟩

/-- A line of nothing is confirmed: its expense is dated within the books and has no entry. -/
theorem zero_expense_not_booked :
    let desk := (supplyDesk 35 0).run plainHash [.confirm 36 toOverhead]
    desk.bill 1 = some (supplyBill 35 0 .opened) ∧ desk.settings.ledgerPostingEnabled desk.company = true ∧
      desk.ExpenseOf (supplyBill 35 0 .opened) (supplyExpense 35 0) ∧
      beforeCutover desk.settings desk.company (supplyExpense 35 0).date = false ∧
      desk.ledger.expenseEntries (supplyExpense 35 0).id = [] := by
  intro desk
  have hexpenses : desk.expenses = [supplyExpense 35 0] := by decide +kernel
  have hlines : desk.lines.any (fun l => l.vendorInvoiceId == 1 && l.expenseId == some 10) = true := by decide +kernel
  obtain ⟨l, hl, hown⟩ := List.any_eq_true.mp hlines
  rw [Bool.and_eq_true, beq_iff_eq, beq_iff_eq] at hown
  refine ⟨by decide +kernel, by decide +kernel, ⟨?_, rfl, rfl, l, hl, hown.1, hown.2⟩, by decide +kernel, by decide +kernel⟩
  rw [hexpenses]
  exact List.mem_singleton_self _

end Gdx
