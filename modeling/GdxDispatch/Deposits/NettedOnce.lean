import GdxDispatch.Deposits.Netting

/-! Deposit money is netted once, and while it is held.

    Requests keep every line, and what a netting line sits on keeps its job, so the guard sees every final
    that was netted before: one live final of a job at most. What a netting line takes off is what the
    deposits were paid, capped by the final's own lines. That is no more than what is held exactly when
    nothing was refunded or credited to the customer, or the lines are small enough. -/

namespace Gdx

open Lib

/-! ### What requests keep -/

/-- What a request does to the rows that netting reads: lines stay, an invoice keeps its job and kind, a void
    stays void, and no payment is negative. -/
structure Carried (db db' : Db) : Prop where
  lines : db'.rows.lines = db.rows.lines
  next : db.rows.nextId ≤ db'.rows.nextId
  invoices : ∀ i' ∈ db'.rows.invoices, ∃ i ∈ db.rows.invoices, i'.id = i.id ∧ i'.jobId = i.jobId ∧
    i'.deposit = i.deposit ∧ i'.deleted = i.deleted ∧ (i'.status ≠ .void → i.status ≠ .void)
  payments : (∀ p ∈ db.rows.payments, 0 ≤ p.amount) → ∀ p ∈ db'.rows.payments, 0 ≤ p.amount

section Carried

variable {H : ContentHash} {zone : ShopZone} {db db₁ db' : Db} {actor : Option Text} {id : ℕ}

theorem Carried.of_rows (h : db'.rows = db.rows) : Carried db db' := by
  refine ⟨by rw [h], by rw [h], fun i hi => ⟨i, h ▸ hi, rfl, rfl, rfl, rfl, fun hv => hv⟩, fun hp => h ▸ hp⟩

theorem Carried.refl (db : Db) : Carried db db := Carried.of_rows rfl

theorem Carried.trans (h : Carried db db₁) (h' : Carried db₁ db') : Carried db db' := by
  refine ⟨h'.lines.trans h.lines, h.next.trans h'.next, fun i' hi' => ?_, fun hp => h'.payments (h.payments hp)⟩
  obtain ⟨i₁, hi₁, hid₁, hjob₁, hdep₁, hdel₁, hvoid₁⟩ := h'.invoices i' hi'
  obtain ⟨i, hi, hid, hjob, hdep, hdel, hvoid⟩ := h.invoices i₁ hi₁
  exact ⟨i, hi, hid₁.trans hid, hjob₁.trans hjob, hdep₁.trans hdep, hdel₁.trans hdel, fun hv => hvoid (hvoid₁ hv)⟩

theorem Carried.post {rule : LedgerM Unit} (h : db.post rule = .ok db') : Carried db db' := by
  obtain ⟨L, -, rfl⟩ := post_ok.mp h
  exact Carried.of_rows rfl

theorem Carried.putInvoice {i i' : Invoice} (hi : i ∈ db.rows.invoices) (hid : i'.id = i.id) (hjob : i'.jobId = i.jobId)
    (hdep : i'.deposit = i.deposit) (hdel : i'.deleted = i.deleted) (hvoid : i'.status ≠ .void → i.status ≠ .void) :
    Carried db (db.putInvoice i') := by
  refine ⟨rfl, le_refl _, fun j hj => ?_, fun h => h⟩
  rcases mem_putInvoice.mp hj with ⟨hj, -⟩ | ⟨rfl, -⟩
  · exact ⟨j, hj, rfl, rfl, rfl, rfl, fun h => h⟩
  · exact ⟨i, hi, hid, hjob, hdep, hdel, hvoid⟩

theorem Carried.transition {i : Invoice} {status : InvoiceStatus} (hi : i ∈ db.rows.invoices)
    (h : transitionInvoiceStatus H db i status actor = .ok db') : Carried db db' := by
  unfold transitionInvoiceStatus at h
  split at h
  · cases h
    exact Carried.refl db
  · split at h
    · cases h
      exact Carried.refl db
    · rename_i hvoid
      have hmoved : Carried db (db.putInvoice { i with status := status }) :=
        Carried.putInvoice hi rfl rfl rfl rfl fun _ => hvoid
      dsimp only at h
      split at h
      · cases h
        exact hmoved
      · exact hmoved.trans (Carried.post h)

theorem Carried.recalculate (h : recalculateInvoice H db id actor = .ok db') : Carried db db' := by
  obtain ⟨i, hi, rfl, -, M, -, h⟩ := recalculate_ok h
  have hput : Carried db (db.putInvoice (reckon db.rows i)) := Carried.putInvoice hi rfl rfl rfl rfl fun h => h
  have hpost : Carried db { db.putInvoice (reckon db.rows i) with ledger := M } :=
    hput.trans (Carried.of_rows rfl)
  split at h
  · refine hpost.trans (Carried.transition (mem_putInvoice.mpr (Or.inr ⟨rfl, i, hi, rfl⟩)) h)
  · exact h ▸ hpost

theorem Carried.addPayment {p : Payment} (hp : 0 ≤ p.amount) : Carried db { db with rows := db.rows.addPayment p } := by
  refine ⟨rfl, Nat.le_succ _, fun i hi => ⟨i, hi, rfl, rfl, rfl, rfl, fun h => h⟩, fun h q hq => ?_⟩
  rcases List.mem_append.mp hq with hq | hq
  · exact h q hq
  · rw [List.mem_singleton.mp hq]
    exact hp

theorem Carried.putPayment {p : Payment} {v : Option ℤ} (hp : p ∈ db.rows.payments) :
    Carried db { db with rows := db.rows.putPayment { p with voidedAt := v } } := by
  refine ⟨rfl, le_refl _, fun i hi => ⟨i, hi, rfl, rfl, rfl, rfl, fun h => h⟩, fun h q hq => ?_⟩
  obtain ⟨q₀, hq₀, rfl⟩ := List.mem_map.mp hq
  split
  · exact h p hp
  · exact h q₀ hq₀

theorem Carried.addAdjustment (a : InvoiceAdjustment) : Carried db { db with rows := db.rows.addAdjustment a } :=
  ⟨rfl, Nat.le_succ _, fun i hi => ⟨i, hi, rfl, rfl, rfl, rfl, fun h => h⟩, fun h => h⟩

theorem Carried.adjust {i : Invoice} {a : InvoiceAdjustment}
    {rule : ShopClock → Rows → InvoiceAdjustment → Invoice → Option Text → LedgerM Unit}
    (h : db.adjust H zone i a rule actor = .ok db') : Carried db db' := by
  unfold Db.adjust at h
  simp only [except_bind_ok] at h
  obtain ⟨db₁, hrule, db₂, hsettle, h⟩ := h
  exact (((Carried.addAdjustment a).trans (Carried.post hrule)).trans (Carried.post hsettle)).trans
    (Carried.recalculate h)

theorem Carried.recordPayment {payload : PaymentCreateIn} (h : recordPayment H zone id payload actor db = .ok db') :
    Carried db db' := by
  obtain ⟨i, -, -, -, p, hp, db₁, hcalc, j, -, -, L', -, rfl⟩ := recordPayment_ok h
  exact (Carried.addPayment hp.amount).trans ((Carried.recalculate hcalc).trans (Carried.of_rows rfl))

theorem Carried.voidPayment {pid : ℕ} (h : voidPayment H zone id pid actor db = .ok db') : Carried db db' := by
  unfold Gdx.voidPayment at h
  rw [except_bind_ok] at h
  obtain ⟨invoice, -, h⟩ := h
  split at h
  · cases h
  · rename_i p hfind
    split at h
    · cases h
      exact Carried.refl db
    · dsimp only at h
      simp only [except_bind_ok] at h
      obtain ⟨db₁, hpost, db₂, hcalc, i, hget, h⟩ := h
      have hcarried := ((Carried.putPayment (List.mem_of_find?_eq_some hfind)).trans (Carried.post hpost)).trans
        (Carried.recalculate hcalc)
      split at h
      · exact hcarried.trans (Carried.transition (getInvoice_ok hget).1 h)
      · cases h
        exact hcarried

theorem Carried.creditMemo {amount : ℕ} {reason : Text} (h : issueCreditMemo H zone id amount reason actor db = .ok db') :
    Carried db db' := by
  unfold issueCreditMemo at h
  simp only [except_bind_ok] at h
  obtain ⟨i, -, -, -, db₁, hcalc, j, -, -, -, h⟩ := h
  exact (Carried.recalculate hcalc).trans (Carried.adjust h)

theorem Carried.applyCredit {amount : ℕ} (h : applyCustomerCredit H zone id amount actor db = .ok db') :
    Carried db db' := by
  unfold applyCustomerCredit at h
  simp only [except_bind_ok] at h
  obtain ⟨i, -, -, -, -, -, -, -, db₁, hcalc, j, -, h⟩ := h
  refine (Carried.recalculate hcalc).trans ?_
  split at h
  · cases h
  · simp only [except_bind_ok] at h
    obtain ⟨-, -, -, -, h⟩ := h
    exact Carried.adjust h

theorem Carried.refund {amount : ℕ} {reason : Text} {method : Option Text}
    (h : processRefund H zone id amount reason method actor db = .ok db') : Carried db db' := by
  unfold processRefund at h
  simp only [except_bind_ok] at h
  obtain ⟨i, -, -, -, -, -, -, -, h⟩ := h
  exact (Carried.addAdjustment _).trans (Carried.post h)

/-- The tail of a void: two postings, and nothing is owed. -/
theorem Carried.closeVoid {i : Invoice} {rule rule' : LedgerM Unit} (hi : i ∈ db.rows.invoices)
    (h : db.post rule = .ok db₁) (h' : db₁.post rule' = .ok db') :
    Carried db (db'.putInvoice { i with balanceDue := 0 }) := by
  obtain ⟨L, -, rfl⟩ := post_ok.mp h
  obtain ⟨L', -, rfl⟩ := post_ok.mp h'
  have hsame : Carried db { db with ledger := L' } := Carried.of_rows rfl
  exact hsame.trans (Carried.putInvoice (i := i) hi rfl rfl rfl rfl fun hv => hv)

theorem Carried.voidInvoice (h : voidInvoice H zone id actor db = .ok db') : Carried db db' := by
  unfold Gdx.voidInvoice at h
  rw [except_bind_ok] at h
  obtain ⟨i, hget, h⟩ := h
  split at h
  · cases h
    exact Carried.refl db
  · simp only [except_bind_ok] at h
    obtain ⟨-, -, db₁, hmove, j, hget', db₂, hrev, db₃, hopen, h⟩ := h
    cases h
    exact (Carried.transition (getInvoice_ok hget).1 hmove).trans (Carried.closeVoid (getInvoice_ok hget').1 hrev hopen)

theorem Carried.markSent (h : markInvoiceSent H id actor db = .ok db') : Carried db db' := by
  obtain ⟨i, hi, -, -, db₁, hmove, j, hj, -, rfl⟩ := markInvoiceSent_ok h
  have hsent : Carried db db₁ := by
    split at hmove
    · exact hmove ▸ Carried.refl db
    · exact Carried.transition hi hmove
  exact hsent.trans (Carried.putInvoice hj rfl rfl rfl rfl fun h => h)

theorem Carried.verify (h : verifyInvoice id db = .ok db') : Carried db db' := by
  unfold verifyInvoice at h
  rw [except_bind_ok] at h
  obtain ⟨i, hget, h⟩ := h
  split at h
  · cases h
    exact Carried.refl db
  · cases h
    exact Carried.putInvoice (getInvoice_ok hget).1 rfl rfl rfl rfl fun h => h

/-- Every request but the ones that edit lines. -/
theorem Carried.request {request : Request} (hkeeps : (InvoicingStep.request request).keepsLines = true)
    (h : request.handle H zone actor db = .ok db') : Carried db db' := by
  cases request with
  | addLine id line => cases hkeeps
  | patchLine id line patch => cases hkeeps
  | deleteLine id line => cases hkeeps
  | verify id => exact Carried.verify h
  | markSent id => exact Carried.markSent h
  | recordPayment id payload => exact Carried.recordPayment h
  | voidPayment id payment => exact Carried.voidPayment h
  | creditMemo id amount reason => exact Carried.creditMemo h
  | applyCredit id amount => exact Carried.applyCredit h
  | refund id amount reason method => exact Carried.refund h
  | voidInvoice id => exact Carried.voidInvoice h

end Carried

/-! ### The loop over the deposits -/

section Loop

variable {H : ContentHash} {zone : ShopZone} {db db' : Db} {actor : Option Text} {final dep : Invoice} {acc acc' : Settling}

theorem paidCents_congr {R R' : Rows} {i j : Invoice} (hpayments : R'.payments = R.payments) (hid : j.id = i.id) :
    paidCents R' j = paidCents R i := by
  unfold paidCents Rows.paymentsOf
  rw [hpayments, hid]

theorem voidUnpaid_carried (hdep : dep ∈ db.rows.invoices) (h : voidUnpaid H zone db dep actor = .ok db') :
    Carried db db' ∧ db'.rows.payments = db.rows.payments := by
  unfold voidUnpaid at h
  simp only [except_bind_ok] at h
  obtain ⟨db₁, hmove, j, hget, db₂, hrev, db₃, hopen, h⟩ := h
  cases h
  refine ⟨(Carried.transition hdep hmove).trans (Carried.closeVoid (getInvoice_ok hget).1 hrev hopen), ?_⟩
  exact ((post_same hopen).payments.trans (post_same hrev).payments).trans (transition_same hmove).payments

theorem adjust_payments {i : Invoice} {a : InvoiceAdjustment}
    {rule : ShopClock → Rows → InvoiceAdjustment → Invoice → Option Text → LedgerM Unit}
    (h : db.adjust H zone i a rule actor = .ok db') : db'.rows.payments = db.rows.payments := by
  unfold Db.adjust at h
  simp only [except_bind_ok] at h
  obtain ⟨db₁, hrule, db₂, hsettle, h⟩ := h
  exact ((recalculateInvoice_same h).payments.trans (post_same hsettle).payments).trans (post_same hrule).payments

/-- Closing out a deposit finds no money. -/
theorem closeOut_carried {paid : ℤ} (hdep : dep ∈ acc.db.rows.invoices)
    (h : closeOut H zone acc dep final paid actor = .ok acc') :
    Carried acc.db acc'.db ∧ acc'.db.rows.payments = acc.db.rows.payments ∧ acc'.totalPaid = acc.totalPaid := by
  unfold closeOut at h
  split at h
  · split at h
    · simp only [except_bind_ok] at h
      obtain ⟨db₁, hvoid, h⟩ := h
      cases h
      obtain ⟨hcarried, hpayments⟩ := voidUnpaid_carried hdep hvoid
      exact ⟨hcarried, hpayments, rfl⟩
    · simp only [except_bind_ok] at h
      obtain ⟨db₁, hcredit, h⟩ := h
      cases h
      exact ⟨Carried.adjust hcredit, adjust_payments hcredit, rfl⟩
  · cases h
    exact ⟨Carried.refl _, rfl, rfl⟩

theorem find_db (acc : Settling) (dep : Invoice) (paid : ℤ) : (acc.find dep paid).db = acc.db := by
  unfold Settling.find
  split <;> rfl

theorem find_totalPaid (acc : Settling) (dep : Invoice) (paid : ℤ) :
    (acc.find dep paid).totalPaid = acc.totalPaid + max paid 0 := by
  unfold Settling.find
  split
  · rename_i hpos
    rw [max_eq_left hpos.le]
  · rename_i hneg
    rw [max_eq_right (not_lt.mp hneg), add_zero]

/-- One deposit adds what it was paid. -/
theorem settleDeposit_carried (h : settleDeposit H zone final actor acc dep = .ok acc') :
    Carried acc.db acc'.db ∧ acc'.db.rows.payments = acc.db.rows.payments ∧
      acc'.totalPaid = acc.totalPaid + max (paidCents acc.db.rows dep) 0 := by
  unfold settleDeposit at h
  simp only [except_bind_ok] at h
  obtain ⟨db₁, hcalc, d, hget, h⟩ := h
  obtain ⟨hd, hid, -⟩ := getInvoice_ok hget
  have hpayments : db₁.rows.payments = acc.db.rows.payments := (recalculateInvoice_same hcalc).payments
  obtain ⟨hclose, hsame, htotal⟩ := closeOut_carried (by rw [find_db]; exact hd) h
  rw [find_db] at hclose hsame
  refine ⟨(Carried.recalculate hcalc).trans hclose, hsame.trans hpayments, ?_⟩
  rw [htotal, find_totalPaid, paidCents_congr hpayments hid]

/-- The loop adds what the deposits were paid. -/
theorem settleDeposits_carried {deposits : List Invoice} (h : settleDeposits H zone final actor deposits acc = .ok acc') :
    Carried acc.db acc'.db ∧ acc'.db.rows.payments = acc.db.rows.payments ∧
      acc'.totalPaid = acc.totalPaid + sumCents (fun d => max (paidCents acc.db.rows d) 0) deposits := by
  induction deposits generalizing acc with
  | nil =>
    cases h
    exact ⟨Carried.refl _, rfl, by simp [sumCents]⟩
  | cons d rest ih =>
    unfold settleDeposits at h
    rw [except_bind_ok] at h
    obtain ⟨acc₁, hone, h⟩ := h
    obtain ⟨hc₁, hp₁, ht₁⟩ := settleDeposit_carried hone
    obtain ⟨hc₂, hp₂, ht₂⟩ := ih h
    refine ⟨hc₁.trans hc₂, hp₂.trans hp₁, ?_⟩
    have hrest : sumCents (fun d => max (paidCents acc₁.db.rows d) 0) rest =
        sumCents (fun d => max (paidCents acc.db.rows d) 0) rest := by
      unfold sumCents
      refine congrArg List.sum (List.map_congr_left fun d _ => ?_)
      rw [paidCents_congr hp₁ rfl]
    rw [ht₂, ht₁, hrest, sumCents_cons]
    ring

end Loop

/-! ### The invariant -/

/-- A row that still counts. -/
def Invoice.isLive (i : Invoice) : Prop := i.deleted = false ∧ i.status ≠ .void

/-- A netted final is a job's, keeps its netting line, and is the only live one of its job. -/
structure NettingOk (desk : DepositDesk) : Prop where
  invoicesLt : ∀ i ∈ desk.db.rows.invoices, i.id < desk.db.rows.nextId
  linesLt : ∀ l ∈ desk.db.rows.lines, l.invoiceId < desk.db.rows.nextId
  nettedLt : ∀ k ∈ desk.netted, k < desk.db.rows.nextId
  paid : ∀ p ∈ desk.db.rows.payments, 0 ≤ p.amount
  netting : ∀ k ∈ desk.netted, ∃ l ∈ desk.db.rows.lines,
    l.invoiceId = k ∧ l.deleted = false ∧ l.isDepositNetting = true
  final : ∀ i ∈ desk.db.rows.invoices, i.id ∈ desk.netted → i.deposit = false ∧ i.jobId ≠ none
  once : ∀ i ∈ desk.db.rows.invoices, ∀ j ∈ desk.db.rows.invoices, i.id ∈ desk.netted → j.id ∈ desk.netted →
    i.jobId = j.jobId → i.isLive → j.isLive → i.id = j.id

section Invariant

variable {H : ContentHash} {zone : ShopZone} {company : ℕ} {actor : Option Text} {desk desk' : DepositDesk} {db' : Db}

/-- What a request carries over. -/
theorem NettingOk.carried (h : NettingOk desk) (hc : Carried desk.db db') : NettingOk { desk with db := db' } := by
  refine ⟨?_, ?_, ?_, hc.payments h.paid, ?_, ?_, ?_⟩
  · intro i' hi'
    obtain ⟨i, hi, hid, -⟩ := hc.invoices i' hi'
    exact hid ▸ (h.invoicesLt i hi).trans_le hc.next
  · intro l hl
    exact (h.linesLt l (hc.lines ▸ hl)).trans_le hc.next
  · exact fun k hk => (h.nettedLt k hk).trans_le hc.next
  · intro k hk
    obtain ⟨l, hl, hrest⟩ := h.netting k hk
    exact ⟨l, hc.lines.symm ▸ hl, hrest⟩
  · intro i' hi' hnet
    obtain ⟨i, hi, hid, hjob, hdep, -⟩ := hc.invoices i' hi'
    rw [hjob, hdep]
    exact h.final i hi (hid ▸ hnet)
  · intro i' hi' j' hj' hin hjn hjob hil hjl
    obtain ⟨i, hi, hid, hijob, -, hidel, hivoid⟩ := hc.invoices i' hi'
    obtain ⟨j, hj, hjd, hjjob, -, hjdel, hjvoid⟩ := hc.invoices j' hj'
    rw [hid, hjd]
    refine h.once i hi j hj (hid ▸ hin) (hjd ▸ hjn) (hijob.symm.trans (hjob.trans hjjob)) ?_ ?_
    · exact ⟨hidel ▸ hil.1, hivoid hil.2⟩
    · exact ⟨hjdel ▸ hjl.1, hjvoid hjl.2⟩

/-- A new invoice is not netted yet. -/
theorem NettingOk.opened (h : NettingOk desk) (payload : FinalIn) : NettingOk (desk.opened company payload) := by
  have hrows : ∀ i ∈ (desk.opened company payload).db.rows.invoices, i ∈ desk.db.rows.invoices ∨
      i = payload.row company desk.db.rows.nextId desk.db.now := by
    intro i hi
    simpa [DepositDesk.opened, Rows.addInvoice] using hi
  have hold : ∀ i ∈ (desk.opened company payload).db.rows.invoices, i.id ∈ desk.netted → i ∈ desk.db.rows.invoices := by
    intro i hi hnet
    rcases hrows i hi with hi | rfl
    · exact hi
    · exact absurd (h.nettedLt _ hnet) (lt_irrefl _)
  have hnext : desk.db.rows.nextId < (desk.opened company payload).db.rows.nextId := by
    change _ < desk.db.rows.nextId + 1 + payload.lines.length
    omega
  refine ⟨?_, ?_, fun k hk => (h.nettedLt k hk).trans hnext, h.paid, ?_, ?_, ?_⟩
  · intro i hi
    rcases hrows i hi with hi | rfl
    · exact (h.invoicesLt i hi).trans hnext
    · exact hnext
  · intro l hl
    rcases List.mem_append.mp hl with hl | hl
    · exact (h.linesLt l hl).trans hnext
    · rw [newLines_invoice _ _ _ l hl]
      exact hnext
  · intro k hk
    obtain ⟨l, hl, hrest⟩ := h.netting k hk
    exact ⟨l, List.mem_append_left _ hl, hrest⟩
  · exact fun i hi hnet => h.final i (hold i hi hnet) hnet
  · exact fun i hi j hj hin hjn => h.once i (hold i hi hin) j (hold j hj hjn) hin hjn

/-- The guard found no netted final of the job that is live. -/
theorem priorNetting_none {R : Rows} {final i : Invoice} (h : priorNetting R final = none) (hjob : final.jobId ≠ none)
    (hi : i ∈ R.invoices) (hsame : i.jobId = final.jobId) (hne : i.id ≠ final.id) (hdep : i.deposit = false)
    (hlive : i.isLive) : R.carriesNetting i = false := by
  unfold priorNetting at h
  rw [if_neg hjob, List.find?_eq_none] at h
  have hnot := h i hi
  simpa [hsame, hne, hdep, hlive.1, hlive.2] using hnot

theorem carriesNetting_of {R : Rows} {i : Invoice} {l : InvoiceLine} (hl : l ∈ R.lines) (hid : l.invoiceId = i.id)
    (hdel : l.deleted = false) (hnet : l.isDepositNetting = true) : R.carriesNetting i = true :=
  List.any_eq_true.mpr ⟨l, hl, by simp [hid, hdel, hnet]⟩

/-- The netting line goes on a final whose job has no other live netted final. -/
theorem NettingOk.net (h : NettingOk desk) {final : Invoice} (line : InvoiceLine) (hc : Carried desk.db db')
    (hprior : priorNetting desk.db.rows final = none) (hjob : final.jobId ≠ none) (hdep : final.deposit = false)
    (hfinal : ∀ i ∈ desk.db.rows.invoices, i.id = final.id → i.jobId = final.jobId ∧ i.deposit = final.deposit)
    (hlt : final.id < desk.db.rows.nextId) (hline : line.invoiceId = final.id) (hdel : line.deleted = false)
    (hnet : line.isDepositNetting = true) :
    NettingOk { desk with db := { db' with rows := db'.rows.addLine line }, netted := final.id :: desk.netted } := by
  have hkept := h.carried hc
  -- a live netted final of the job would have stopped the netting
  have hsole : ∀ i ∈ db'.rows.invoices, i.id ∈ desk.netted → i.id ≠ final.id → i.jobId = final.jobId → ¬i.isLive := by
    intro i' hi' hin hne hsame hlive
    obtain ⟨i, hi, hid, hijob, -, hidel, hivoid⟩ := hc.invoices i' hi'
    have hin' : i.id ∈ desk.netted := hid ▸ hin
    have hnone := priorNetting_none hprior hjob hi (hijob.symm.trans hsame) (hid ▸ hne) (h.final i hi hin').1
      ⟨hidel ▸ hlive.1, hivoid hlive.2⟩
    obtain ⟨l, hl, hlid, hldel, hlnet⟩ := h.netting i.id hin'
    rw [carriesNetting_of hl hlid hldel hlnet] at hnone
    exact absurd hnone (by simp)
  have hnew : ∀ i ∈ db'.rows.invoices, i.id = final.id → i.jobId = final.jobId ∧ i.deposit = final.deposit := by
    intro i' hi' hid'
    obtain ⟨i, hi, hid, hijob, hidep, -⟩ := hc.invoices i' hi'
    obtain ⟨hj, hd⟩ := hfinal i hi (hid.symm.trans hid')
    exact ⟨hijob.trans hj, hidep.trans hd⟩
  have hnext : db'.rows.nextId < db'.rows.nextId + 1 := Nat.lt_succ_self _
  refine ⟨fun i hi => (hkept.invoicesLt i hi).trans hnext, ?_, ?_, hkept.paid, ?_, ?_, ?_⟩
  · intro l hl
    rcases List.mem_append.mp hl with hl | hl
    · exact (hkept.linesLt l hl).trans hnext
    · rw [List.mem_singleton.mp hl, hline]
      exact (hlt.trans_le hc.next).trans hnext
  · intro k hk
    rcases List.mem_cons.mp hk with rfl | hk
    · exact (hlt.trans_le hc.next).trans hnext
    · exact (hkept.nettedLt k hk).trans hnext
  · intro k hk
    rcases List.mem_cons.mp hk with rfl | hk
    · exact ⟨line, List.mem_append_right _ (List.mem_singleton_self line), hline, hdel, hnet⟩
    · obtain ⟨l, hl, hrest⟩ := hkept.netting k hk
      exact ⟨l, List.mem_append_left _ hl, hrest⟩
  · intro i hi hin
    rcases List.mem_cons.mp hin with hid | hin
    · obtain ⟨hj, hd⟩ := hnew i hi hid
      exact ⟨hd.trans hdep, hj ▸ hjob⟩
    · exact hkept.final i hi hin
  · intro i hi j hj hin hjn hsame hil hjl
    by_cases hid : i.id = final.id <;> by_cases hjd : j.id = final.id
    · exact hid.trans hjd.symm
    · have hjold : j.id ∈ desk.netted := (List.mem_cons.mp hjn).resolve_left hjd
      exact absurd hjl (hsole j hj hjold hjd (hsame.symm.trans (hnew i hi hid).1))
    · have hiold : i.id ∈ desk.netted := (List.mem_cons.mp hin).resolve_left hid
      exact absurd hil (hsole i hi hiold hid (hsame.trans (hnew j hj hjd).1))
    · exact hkept.once i hi j hj ((List.mem_cons.mp hin).resolve_left hid) ((List.mem_cons.mp hjn).resolve_left hjd)
        hsame hil hjl

end Invariant

/-! ### What a creation does -/

/-- What the new final's own lines come to. -/
def FinalIn.lineSum (payload : FinalIn) : ℤ := sumCents (·.lineTotal) payload.lines

/-- The final's row as the create request makes it. -/
def DepositDesk.final (desk : DepositDesk) (company : ℕ) (payload : FinalIn) : Invoice :=
  payload.row company desk.db.rows.nextId desk.db.now

/-- The deposits a creation finds. -/
def DepositDesk.deposits (desk : DepositDesk) (company : ℕ) (payload : FinalIn) : List Invoice :=
  depositsFor (desk.opened company payload) (desk.final company payload)

section Creation

variable {H : ContentHash} {zone : ShopZone} {company : ℕ} {actor : Option Text} {desk desk' : DepositDesk}
  {payload : FinalIn} {outcome : DepositOutcome}

/-- The capped amount, and what it leaves. -/
theorem netFound_amounts (acc : Settling) (final : Invoice) (hpaid : 0 ≤ acc.totalPaid) :
    (netFound acc final).2.depositPaidApplied =
        min acc.totalPaid (max (sumCents (·.lineTotal) (acc.db.rows.liveLines final)) 0) ∧
      (netFound acc final).2.depositPaidApplied + (netFound acc final).2.depositUnapplied = acc.totalPaid := by
  unfold netFound
  split
  · rename_i hnone
    have hzero : acc.totalPaid = 0 := le_antisymm hnone hpaid
    rw [hzero]
    exact ⟨(min_eq_left (le_max_right _ _)).symm, rfl⟩
  · dsimp only
    split <;> exact ⟨rfl, by simp [Settling.result]⟩

/-- The netting line, where an amount was applied. -/
theorem netFound_db (acc : Settling) (final : Invoice) :
    (netFound acc final).1 = if 0 < (netFound acc final).2.depositPaidApplied then
      { acc.db with rows := acc.db.rows.addLine (nettingLine acc.db.rows.nextId final
        (netFound acc final).2.depositPaidApplied acc.paidSources) } else acc.db := by
  unfold netFound
  split
  · rfl
  · dsimp only
    split
    · rename_i hpos
      rw [if_pos (by exact hpos)]
      rfl
    · rename_i hneg
      rw [if_neg (by exact hneg)]

theorem nettingLine_isNetting {id : ℕ} {final : Invoice} {applied : ℤ} {sources : List String} (h : 0 < applied) :
    (nettingLine id final applied sources).isDepositNetting = true := by
  simp [nettingLine, InvoiceLine.isDepositNetting, h]

/-- A creation that settled deposits: no live final of the job was netted before, and the loop found money. -/
structure SettledDeposits (H : ContentHash) (zone : ShopZone) (company : ℕ) (actor : Option Text) (desk : DepositDesk)
    (payload : FinalIn) (acc : Settling) : Prop where
  prior : priorNetting (desk.opened company payload).db.rows (desk.final company payload) = none
  job : payload.jobId ≠ none
  deposit : payload.deposit = false
  loop : settleDeposits H zone (desk.final company payload) actor (desk.deposits company payload)
    { db := (desk.opened company payload).db } = .ok acc

/-- An estimate of the final comes with its job, so a match is on a job. -/
theorem job_of_deposits (hest : ¬(payload.estimateId ≠ none ∧ payload.jobId = none))
    (hsome : desk.deposits company payload ≠ []) : payload.jobId ≠ none := by
  intro hjob
  obtain ⟨d, hd⟩ := List.exists_mem_of_ne_nil _ hsome
  have hmem := (List.mergeSort_perm _ _).mem_iff.mp hd
  have hsel := (List.mem_filter.mp hmem).2
  have hwork : (desk.opened company payload).sameWork (desk.final company payload) d = true := by
    simp only [Bool.and_eq_true] at hsel
    exact hsel.1.1.1.1
  have hnone : payload.estimateId = none := by
    by_contra h
    exact hest ⟨h, hjob⟩
  simp [DepositDesk.sameWork, DepositDesk.final, InvoiceIn.row, hjob, DepositDesk.opened, hnone] at hwork

theorem createWithDeposits_ok (h : createWithDeposits H zone company payload actor desk = .ok (desk', outcome)) :
    ∃ db₁ db₂, recalculateInvoice H db₁ desk.db.rows.nextId actor = .ok db₂ ∧
      desk' = { desk.opened company payload with
        db := db₂, netted := if 0 < outcome.applied then desk.db.rows.nextId :: desk.netted else desk.netted } ∧
      ((db₁ = (desk.opened company payload).db ∧ outcome.applied = 0 ∧ ∀ r, outcome ≠ .settled r) ∨
        ∃ acc, SettledDeposits H zone company actor desk payload acc ∧
          db₁ = (netFound acc (desk.final company payload)).1 ∧
          outcome = .settled (netFound acc (desk.final company payload)).2) := by
  unfold createWithDeposits at h
  simp only [except_bind_ok] at h
  obtain ⟨u, hest, ⟨db₁, o⟩, happly, db₂, hcalc, h⟩ := h
  have hest' := refuse_ok.mp hest
  simp only [pure, Except.pure, Except.ok.injEq, Prod.mk.injEq] at h
  obtain ⟨rfl, rfl⟩ := h
  refine ⟨db₁, db₂, hcalc, rfl, ?_⟩
  unfold applyDepositsToFinal at happly
  split at happly
  · cases happly
    exact Or.inl ⟨rfl, rfl, fun r hr => by cases hr⟩
  · rename_i hdep
    split at happly
    · cases happly
      exact Or.inl ⟨rfl, rfl, fun r hr => by cases hr⟩
    · rename_i hsome
      split at happly
      · cases happly
        exact Or.inl ⟨rfl, rfl, fun r hr => by cases hr⟩
      · rename_i hprior
        unfold settleAndNet at happly
        simp only [except_bind_ok] at happly
        obtain ⟨acc, hloop, happly⟩ := happly
        cases happly
        refine Or.inr ⟨acc, ⟨hprior, job_of_deposits hest' hsome, ?_, hloop⟩, rfl, rfl⟩
        simpa [InvoiceIn.row] using hdep

theorem NettingOk.create (h : NettingOk desk)
    (hok : createWithDeposits H zone company payload actor desk = .ok (desk', outcome)) : NettingOk desk' := by
  obtain ⟨db₁, db₂, hcalc, rfl, hcase⟩ := createWithDeposits_ok hok
  have hopened : NettingOk (desk.opened company payload) := h.opened payload
  rcases hcase with ⟨rfl, happlied, -⟩ | ⟨acc, hs, rfl, rfl⟩
  · rw [happlied, if_neg (lt_irrefl 0)]
    exact hopened.carried (Carried.recalculate hcalc)
  · obtain ⟨hcarried, -, -⟩ := settleDeposits_carried hs.loop
    have hline := netFound_db acc (desk.final company payload)
    by_cases hpos : 0 < (netFound acc (desk.final company payload)).2.depositPaidApplied
    · rw [if_pos hpos] at hline
      rw [if_pos (show 0 < (DepositOutcome.settled _).applied from hpos)]
      rw [hline] at hcalc
      have hfinal : ∀ i ∈ (desk.opened company payload).db.rows.invoices, i.id = (desk.final company payload).id →
          i.jobId = (desk.final company payload).jobId ∧ i.deposit = (desk.final company payload).deposit := by
        intro i hi hid
        have hi' : i ∈ desk.db.rows.invoices ∨ i = desk.final company payload := by
          simpa [DepositDesk.opened, Rows.addInvoice, DepositDesk.final] using hi
        rcases hi' with hi' | rfl
        · exact absurd hid (h.invoicesLt i hi').ne
        · exact ⟨rfl, rfl⟩
      have hlt : (desk.final company payload).id < (desk.opened company payload).db.rows.nextId := by
        change desk.db.rows.nextId < desk.db.rows.nextId + 1 + payload.lines.length
        omega
      have hnet := hopened.net (nettingLine acc.db.rows.nextId (desk.final company payload) _ acc.paidSources)
        hcarried hs.prior hs.job hs.deposit hfinal hlt rfl rfl (nettingLine_isNetting hpos)
      exact hnet.carried (Carried.recalculate hcalc)
    · rw [if_neg hpos] at hline
      rw [if_neg (show ¬0 < (DepositOutcome.settled _).applied from hpos)]
      rw [hline] at hcalc
      exact (hopened.carried hcarried).carried (Carried.recalculate hcalc)

/-- No money was found that was not paid. -/
theorem sum_max_paid {R : Rows} (hpaid : ∀ p ∈ R.payments, 0 ≤ p.amount) (deposits : List Invoice) :
    sumCents (fun d => max (paidCents R d) 0) deposits = depositPaid R deposits := by
  have hone : ∀ d : Invoice, 0 ≤ paidCents R d := by
    intro d
    refine List.sum_nonneg fun x hx => ?_
    obtain ⟨p, hp, rfl⟩ := List.mem_map.mp hx
    exact hpaid p (List.mem_of_mem_filter (List.mem_of_mem_filter hp))
  unfold depositPaid sumCents
  refine congrArg List.sum (List.map_congr_left fun d _ => ?_)
  exact max_eq_left (hone d)

theorem depositPaid_nonneg {R : Rows} (hpaid : ∀ p ∈ R.payments, 0 ≤ p.amount) (deposits : List Invoice) :
    0 ≤ depositPaid R deposits := by
  rw [← sum_max_paid hpaid]
  refine List.sum_nonneg fun x hx => ?_
  obtain ⟨d, -, rfl⟩ := List.mem_map.mp hx
  exact le_max_right _ _

/-- The new final's live lines are the ones it was created with. -/
theorem opened_liveLines (h : NettingOk desk) {db' : Db} (hc : Carried (desk.opened company payload).db db') :
    db'.rows.liveLines (desk.final company payload) =
      newLines desk.db.rows.nextId (desk.db.rows.nextId + 1) payload.lines := by
  have hlines : db'.rows.lines =
      desk.db.rows.lines ++ newLines desk.db.rows.nextId (desk.db.rows.nextId + 1) payload.lines := hc.lines
  obtain ⟨-, -, hlive⟩ := newLines_sums desk.db.rows.nextId (desk.db.rows.nextId + 1) payload.lines
  have hold : desk.db.rows.lines.filter (fun l => l.invoiceId == desk.db.rows.nextId && !l.deleted) = [] := by
    rw [List.filter_eq_nil_iff]
    intro l hl
    simp [(h.linesLt l hl).ne]
  have hnew : (newLines desk.db.rows.nextId (desk.db.rows.nextId + 1) payload.lines).filter
      (fun l => l.invoiceId == desk.db.rows.nextId && !l.deleted) =
      newLines desk.db.rows.nextId (desk.db.rows.nextId + 1) payload.lines := by
    rw [List.filter_eq_self]
    intro l hl
    simp [newLines_invoice _ _ _ l hl, hlive l hl]
  change (db'.rows.lines.filter fun l => l.invoiceId == desk.db.rows.nextId && !l.deleted) = _
  rw [hlines, List.filter_append, hold, hnew, List.nil_append]

/-- When a netting line takes off no more than what is held: nothing was paid, the final comes to nothing, no
    deposit money went back to the customer, or the final is small enough. -/
def NettingFits (R : Rows) (deposits : List Invoice) (payload : FinalIn) : Prop :=
  depositPaid R deposits = 0 ∨ payload.lineSum ≤ 0 ∨ depositRefunded R deposits + depositCredited R deposits ≤ 0 ∨
    payload.lineSum ≤ depositHeld R deposits

/-- What a creation that settled deposits says and writes. -/
theorem settled_spec (h : NettingOk desk) {result : DepositResult}
    (hok : createWithDeposits H zone company payload actor desk = .ok (desk', .settled result)) :
    result.depositPaidApplied =
        min (depositPaid desk.db.rows (desk.deposits company payload)) (max payload.lineSum 0) ∧
      result.depositPaidApplied + result.depositUnapplied =
        depositPaid desk.db.rows (desk.deposits company payload) ∧
      ∃ id sources, desk'.db.rows.lines =
        desk.db.rows.lines ++ newLines desk.db.rows.nextId (desk.db.rows.nextId + 1) payload.lines ++
          if 0 < result.depositPaidApplied then
            [nettingLine id (desk.final company payload) result.depositPaidApplied sources]
          else [] := by
  obtain ⟨db₁, db₂, hcalc, rfl, hcase⟩ := createWithDeposits_ok hok
  rcases hcase with ⟨-, -, hnot⟩ | ⟨acc, hs, rfl, hout⟩
  · exact absurd rfl (hnot result)
  obtain rfl : result = (netFound acc (desk.final company payload)).2 := by injection hout
  obtain ⟨hcarried, -, htotal⟩ := settleDeposits_carried hs.loop
  have hpaid : acc.totalPaid = depositPaid desk.db.rows (desk.deposits company payload) := by
    rw [htotal, ← sum_max_paid h.paid]
    exact zero_add _
  have hnonneg : 0 ≤ acc.totalPaid := hpaid ▸ depositPaid_nonneg h.paid _
  obtain ⟨happlied, hrest⟩ := netFound_amounts acc (desk.final company payload) hnonneg
  rw [opened_liveLines h hcarried, (newLines_sums ..).1] at happlied
  refine ⟨hpaid ▸ happlied, hpaid ▸ hrest, acc.db.rows.nextId, acc.paidSources, ?_⟩
  have hlines : acc.db.rows.lines =
      desk.db.rows.lines ++ newLines desk.db.rows.nextId (desk.db.rows.nextId + 1) payload.lines := hcarried.lines
  have hline := netFound_db acc (desk.final company payload)
  rw [(Carried.recalculate hcalc).lines, ← hlines]
  by_cases hpos : 0 < (netFound acc (desk.final company payload)).2.depositPaidApplied
  · rw [if_pos hpos] at hline
    rw [hline, if_pos hpos]
    rfl
  · rw [if_neg hpos] at hline
    rw [hline, if_neg hpos, List.append_nil]

/-- The netting line stays within what is held exactly when it fits. -/
theorem applied_held_iff {R : Rows} {deposits : List Invoice} {applied : ℤ} (hpaid : 0 ≤ depositPaid R deposits)
    (happlied : applied = min (depositPaid R deposits) (max payload.lineSum 0)) :
    (0 < applied → applied ≤ depositHeld R deposits) ↔ NettingFits R deposits payload := by
  unfold NettingFits depositHeld
  subst happlied
  rcases min_choice (depositPaid R deposits) (max payload.lineSum 0) with hmin | hmin <;>
    rcases max_choice payload.lineSum 0 with hmax | hmax <;> rw [hmax] at hmin ⊢ <;> omega

end Creation

/-! ### Runs -/

section Runs

variable {H : ContentHash} {zone : ShopZone} {company : ℕ} {actor : Option Text} {desk desk' : DepositDesk}

theorem NettingOk.createDeposit (h : NettingOk desk) {number : String} {estimate : EstimateRef} {amount : ℤ}
    (hok : createDepositInvoice H zone company number estimate amount actor desk = .ok desk') : NettingOk desk' := by
  unfold createDepositInvoice at hok
  split at hok
  · cases hok
    exact h
  · simp only [except_bind_ok] at hok
    obtain ⟨-, -, -, -, -, -, db₁, hcalc, i, hget, db₂, hsent, hok⟩ := hok
    cases hok
    exact (h.opened _).carried ((Carried.recalculate hcalc).trans (Carried.transition (getInvoice_ok hget).1 hsent))

theorem NettingOk.step (h : NettingOk desk) {step : InvoicingStep} (hkeeps : step.keepsLines = true)
    (hok : desk.step H zone company actor step = .ok desk') : NettingOk desk' := by
  cases step with
  | create payload =>
    simp only [DepositDesk.step, except_bind_ok] at hok
    obtain ⟨⟨desk₁, outcome⟩, hcreate, hok⟩ := hok
    cases hok
    exact h.create hcreate
  | deposit number estimate amount => exact h.createDeposit hok
  | request request =>
    simp only [DepositDesk.step, except_bind_ok] at hok
    obtain ⟨db', hreq, hok⟩ := hok
    cases hok
    exact h.carried (Carried.request hkeeps hreq)

theorem NettingOk.tick (h : NettingOk desk) (wait : ℕ) : NettingOk (desk.tick wait) :=
  h.carried (Carried.of_rows rfl)

theorem NettingOk.serve (h : NettingOk desk) (call : DepositCall) :
    NettingOk (desk.serve H zone company call.toInvoicingCall) := by
  unfold DepositDesk.serve
  split
  · rename_i desk' hok
    exact (h.tick call.wait).step call.keeps hok
  · exact h.tick call.wait

theorem NettingOk.run (h : NettingOk desk) (calls : List DepositCall) : NettingOk (desk.run H zone company calls) := by
  induction calls generalizing desk with
  | nil => exact h
  | cons call rest ih => exact ih (h.serve call)

end Runs

/-- In every state a run reaches, one live final of a job at most carries the job's deposits. A creation there that
    settles deposits says where all the money found went and writes what it applied, and the amount is within
    what the shop still holds exactly when it fits. -/
theorem deposits_netted_once (H : ContentHash) (zone : ShopZone) (company : ℕ) (start : DepositDesk)
    (hstart : NettingOk start) (calls : List DepositCall) :
    let desk := start.run H zone company calls
    (∀ i ∈ desk.db.rows.invoices, ∀ j ∈ desk.db.rows.invoices, i.id ∈ desk.netted → j.id ∈ desk.netted →
      i.jobId = j.jobId → i.isLive → j.isLive → i.id = j.id) ∧
    ∀ (wait : ℕ) (payload : FinalIn) (actor : Option Text) (desk' : DepositDesk) (result : DepositResult),
      createWithDeposits H zone company payload actor (desk.tick wait) = .ok (desk', .settled result) →
      let deposits := (desk.tick wait).deposits company payload
      result.depositPaidApplied + result.depositUnapplied = depositPaid desk.db.rows deposits ∧
      (∃ id sources, desk'.db.rows.lines =
        desk.db.rows.lines ++ newLines desk.db.rows.nextId (desk.db.rows.nextId + 1) payload.lines ++
          if 0 < result.depositPaidApplied then
            [nettingLine id ((desk.tick wait).final company payload) result.depositPaidApplied sources]
          else []) ∧
      ((0 < result.depositPaidApplied → result.depositPaidApplied ≤ depositHeld desk.db.rows deposits) ↔
        NettingFits desk.db.rows deposits payload) := by
  intro desk
  have hdesk : NettingOk desk := hstart.run calls
  refine ⟨hdesk.once, ?_⟩
  intro wait payload actor desk' result hok deposits
  obtain ⟨happlied, hrest, hlines⟩ := settled_spec (hdesk.tick wait) hok
  exact ⟨hrest, hlines, applied_held_iff (depositPaid_nonneg hdesk.paid _) happlied⟩

/-! ### A deposit of 100.00 on a job of 500.00 -/

section Door

/-- An empty shop whose ledger posts. -/
def blankDesk : DepositDesk where
  db := {
    rows := {
      settings := [
        { companyId := 0, ledgerPostingEnabled := true, cutoverMonth := some 0
          paymentMethodRoleMap := [("other".toList, .operatingBank)]
          creditReasonRoleMap := [], expenseCategoryAccountMap := [], revenueCategoryAccountMap := [] }]
      invoices := [], lines := [], payments := [], adjustments := [], expenses := [], nextId := 1 }
    ledger := Ledger.seeded
    now := 0 }
  estimateOf := fun _ => none
  netted := []

theorem blankDesk_ok : NettingOk blankDesk := by
  constructor <;> simp [blankDesk]

def doorDeposit : DepositCall :=
  ⟨⟨"office".toList, 0, .deposit "DEP-1" ⟨5, "EST-5", some 9, some 7, 50000⟩ 10000⟩, rfl⟩

def payDeposit : DepositCall :=
  ⟨⟨"office".toList, 0, .request (.recordPayment 1 ⟨some 10000, false, "cash".toList, none, false, none⟩)⟩, rfl⟩

def refundDeposit : DepositCall :=
  ⟨⟨"office".toList, 0, .request (.refund 1 10000 "changed mind".toList (some "cash".toList))⟩, rfl⟩

def doorFinal : FinalIn where
  number := "INV-2"
  customerId := some 7
  jobId := some 9
  invoiceDate := some 0
  taxRate := none
  taxAmount := 0
  deposit := false
  lines := [⟨"door", 50000, false, none⟩]
  estimateId := none

/-- What a creation after some calls reports, with what was paid and is held then. -/
def netAfter (calls : List DepositCall) : Option (ℤ × ℤ × ℤ × ℤ) :=
  let desk := blankDesk.run plainHash utcZone 0 calls
  let deposits := (desk.tick 0).deposits 0 doorFinal
  match createWithDeposits plainHash utcZone 0 doorFinal none (desk.tick 0) with
  | .ok (_, .settled result) => some (result.depositPaidApplied, result.depositUnapplied,
      depositPaid desk.db.rows deposits, depositHeld desk.db.rows deposits)
  | _ => none

theorem netAfter_some {calls : List DepositCall} {applied unapplied paid held : ℤ}
    (h : netAfter calls = some (applied, unapplied, paid, held)) :
    let desk := blankDesk.run plainHash utcZone 0 calls
    ∃ desk' result, createWithDeposits plainHash utcZone 0 doorFinal none (desk.tick 0) = .ok (desk', .settled result) ∧
      result.depositPaidApplied = applied ∧ depositHeld desk.db.rows ((desk.tick 0).deposits 0 doorFinal) = held := by
  unfold netAfter at h
  dsimp only at h
  split at h
  · rename_i desk' result hok
    simp only [Option.some.injEq, Prod.mk.injEq] at h
    exact ⟨desk', result, hok, h.1, h.2.2.2⟩
  · cases h

/-- The deposit was paid and is still held: the final nets it. -/
theorem deposits_netted_once_paid :
    let desk := blankDesk.run plainHash utcZone 0 [doorDeposit, payDeposit]
    ∃ desk' result, createWithDeposits plainHash utcZone 0 doorFinal none (desk.tick 0) = .ok (desk', .settled result) ∧
      result.depositPaidApplied = 10000 ∧
      result.depositPaidApplied ≤ depositHeld desk.db.rows ((desk.tick 0).deposits 0 doorFinal) := by
  have hnet : netAfter [doorDeposit, payDeposit] = some (10000, 0, 10000, 10000) := by decide +kernel
  obtain ⟨desk', result, hok, happlied, -⟩ := netAfter_some hnet
  have hnetted := deposits_netted_once plainHash utcZone 0 blankDesk blankDesk_ok [doorDeposit, payDeposit]
  obtain ⟨-, -, hiff⟩ := hnetted.2 0 doorFinal none desk' result hok
  refine ⟨desk', result, hok, happlied, hiff.mpr ?_ (by rw [happlied]; decide)⟩
  exact Or.inr (Or.inr (Or.inl (by decide +kernel)))

/-- The deposit was paid and refunded in full, and the final still nets it. -/
theorem refunded_deposit_netted :
    let desk := blankDesk.run plainHash utcZone 0 [doorDeposit, payDeposit, refundDeposit]
    ∃ desk' result, createWithDeposits plainHash utcZone 0 doorFinal none (desk.tick 0) = .ok (desk', .settled result) ∧
      result.depositPaidApplied = 10000 ∧ depositHeld desk.db.rows ((desk.tick 0).deposits 0 doorFinal) = 0 :=
  netAfter_some (show netAfter _ = some (10000, 0, 10000, 0) by decide +kernel)

end Door

end Gdx
