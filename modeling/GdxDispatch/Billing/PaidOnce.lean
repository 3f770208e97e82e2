import GdxDispatch.Billing.IssuedOnce

/-! A payment is on the books once until it is voided, and not at all after.

    In a shop without a cutover, whatever requests came in whatever order, the live postings under a payment's source are
    its one receipt: the amount and its surcharge to the account of its method, against the surcharge income, the
    receivable and the customer's credit. A voided payment has none, and the journal, reversals included, nets to them. -/

namespace Gdx
open Lib

variable {H : ContentHash} {acct : Role → ℕ} {company : ℕ} {R : Rows} {L L' : Ledger} {db db' db₁ : Db} {p : Payment}
  {actor : Option Text} {clock : ShopClock} {inv : Invoice} {lines : List PostingLine} {B : Finset Posting} {x y : ℕ}

/-- The sources of payments themselves. -/
def receiptSource (st sid : Text) : Prop := st = "payment".toList ∧ ∃ id : ℕ, sid = str id

/-- The receipt of a payment: its legs, those of no amount left out. -/
structure Receipt (acct : Role → ℕ) (R : Rows) (company : ℕ) (p : Payment) (q : Posting) : Prop where
  companyId : q.companyId = company
  event : q.event = "received".toList
  day : q.effectiveAt = p.paymentDate
  legs : ∃ settings role, R.glSettings company = some settings ∧
    resolvePaymentMethodRole settings (some p.method) = .ok role ∧ ∃ ar credit : ℤ, ar + credit = p.amount ∧
      q.lines.map (fun l => (l.accountId, l.amountCents)) = (acct role, p.amount + p.surcharge) ::
        [(acct .surchargeIncome, -p.surcharge), (acct .ar, -ar), (acct .customerCredits, -credit)].filter (·.2 ≠ 0)

/-- The receipt of a live payment, and nothing of a voided one. -/
def ReceiptStands (acct : Role → ℕ) (R : Rows) (company : ℕ) (p : Payment) (B : Finset Posting) : Prop :=
  if p.voidedAt.isSome ∨ p.amount = 0 ∧ p.surcharge = 0 then B = ∅ else ∃ q, B = {q} ∧ Receipt acct R company p q

theorem build_receipt (h : buildPaymentLines R p inv = .ok lines) (hcompany : inv.companyId = company)
    (hlive : p.voidedAt = none) : ReceiptStands acct R company p (receivedBook acct inv p lines) := by
  subst hcompany
  unfold buildPaymentLines at h
  by_cases hzero : p.amount = 0 ∧ p.surcharge = 0
  · rw [if_pos hzero] at h
    cases h
    rw [ReceiptStands, if_pos (.inr hzero), receivedBook, if_pos rfl]
  rw [if_neg hzero] at h
  cases hsettings : R.glSettings inv.companyId with
  | none =>
    rw [hsettings] at h
    cases h
  | some settings =>
    rw [hsettings] at h
    simp only [except_bind_ok] at h
    obtain ⟨role, hrole, h⟩ := h
    cases h
    rw [ReceiptStands, if_neg (by simpa [hlive] using hzero), receivedBook, if_neg (by simp)]
    refine ⟨_, rfl, rfl, rfl, rfl, settings, role, hsettings, hrole, arPortion R inv p, p.amount - arPortion R inv p,
      add_sub_cancel _ _, ?_⟩
    generalize p.amount - arPortion R inv p = credit
    generalize arPortion R inv p = ar
    simp only [Payment.posting, PostingEvent.posting, ruleEvent, List.map_map, List.map_append, List.map_cons]
    by_cases hfee : p.surcharge = 0 <;> by_cases har : ar = 0 <;> by_cases hcredit : credit = 0 <;>
      simp [PostingLine.content, Invoice.leg, hfee, har, hcredit]

theorem not_opening (huncut : R.cutoverDate company = none) (hcompany : inv.companyId = company) :
    isOpening R inv p = false ∧ lateCutover R inv p = none := by
  have hera := not_era huncut hcompany
  simp [isOpening, lateCutover, eraCutover, hera, inOpening]

/-- What stands is of the payment's own kind, also after its row was voided. -/
theorem ReceiptStands.filed {R' : Rows} (h : ReceiptStands acct R company p B) (p' : Payment)
    (hamount : p'.amount = p.amount) (hsurcharge : p'.surcharge = p.surcharge) (huncut : R'.cutoverDate company = none) (hcompany : inv.companyId = company) :
    Filed acct R' inv p' B := by
  obtain ⟨hopening, hlate⟩ := not_opening (p := p') huncut hcompany
  unfold ReceiptStands at h
  split_ifs at h with hnone
  · exact h ▸ .empty inv p'
  · obtain ⟨q, rfl, hq⟩ := h
    refine ⟨?_, by simp [hopening], by simp [hlate], fun _ _ => ⟨?_, fun hzero => ?_⟩⟩
    · simpa [hcompany] using hq.companyId
    · simpa using hq.event
    · exact fun hfee => absurd (.inr ⟨hamount ▸ hzero, hsurcharge ▸ hfee⟩) hnone

theorem settled_receipt (huncut : R.cutoverDate company = none) (hcompany : inv.companyId = company)
    (h : Settled acct R inv p B) : ReceiptStands acct R company p B := by
  obtain ⟨hopening, hlate⟩ := not_opening (p := p) huncut hcompany
  simp only [Settled, needsCompensator, hopening, hlate, Bool.false_and, Bool.false_eq_true, if_false, false_or] at h
  cases hvoid : p.voidedAt with
  | some at' =>
    rw [hvoid, Option.isSome_some, if_pos rfl] at h
    rw [ReceiptStands, if_pos (.inl (by rw [hvoid]; rfl)), h]
  | none =>
    rw [hvoid, if_neg (by simp)] at h
    obtain ⟨lines, hbuild, rfl⟩ := h
    exact build_receipt hbuild hcompany hvoid

theorem ReceiptStands.congr {R' : Rows} (h : ReceiptStands acct R company p B) (hsettings : R'.settings = R.settings) :
    ReceiptStands acct R' company p B := by
  have hsame : R'.glSettings company = R.glSettings company := by rw [Rows.glSettings, hsettings, Rows.glSettings]
  unfold ReceiptStands at h ⊢
  split_ifs at h ⊢
  · exact h
  · obtain ⟨q, hB, hq⟩ := h
    exact ⟨q, hB, hq.companyId, hq.event, hq.day, hsame ▸ hq.legs⟩

/-- What the books hold of the payments of invoice `y`. -/
structure InCash (H : ContentHash) (acct : Role → ℕ) (company y : ℕ) (db : Db) : Prop where
  tracked : Tracked H receiptSource db.ledger
  uncut : db.rows.cutoverDate company = none
  row : ∀ p ∈ db.rows.payments, p.invoiceId = y →
    ReceiptStands acct db.rows company p (db.ledger.liveOf "payment".toList (str p.id))

theorem InCash.keep {P : Text → Text → Prop} (h : InCash H acct company y db)
    (hpayments : ∀ p ∈ db'.rows.payments, p.invoiceId = y → p ∈ db.rows.payments)
    (hsettings : db'.rows.settings = db.rows.settings) (hwithin : Within H P db.ledger db'.ledger)
    (htracked : Tracked H receiptSource db'.ledger)
    (hP : ∀ p ∈ db'.rows.payments, p.invoiceId = y → ¬ P "payment".toList (str p.id)) : InCash H acct company y db' := by
  refine ⟨htracked, ?_, fun p hp hid => ?_⟩
  · have huncut := h.uncut
    unfold Rows.cutoverDate Rows.glSettings at huncut ⊢
    rwa [hsettings]
  · rw [hwithin.liveOf_eq (hP p hp hid)]
    exact (h.row p (hpayments p hp hid) hid).congr hsettings

/-- Postings of other kinds. -/
theorem InCash.apart {P : Text → Text → Prop} (h : InCash H acct company y db)
    (hpayments : db'.rows.payments = db.rows.payments) (hsettings : db'.rows.settings = db.rows.settings)
    (hwithin : Within H P db.ledger db'.ledger) (hP : ∀ st sid, P st sid → st ≠ "payment".toList) :
    InCash H acct company y db' :=
  h.keep (fun _ hp _ => hpayments ▸ hp) hsettings hwithin
    (hwithin.tracked h.tracked fun st sid hp hsource => hP st sid hp hsource.1) fun _ _ _ hp => hP _ _ hp rfl

/-! ### Changes -/

theorem transition_within {status : InvoiceStatus} (hs : Sound H acct company db) (hinv : inv ∈ db.rows.invoices)
    (h : transitionInvoiceStatus H db inv status actor = .ok db') :
    Within H (fun st _ => st = "invoice".toList) db.ledger db'.ledger ∧ db'.rows.settings = db.rows.settings := by
  obtain ⟨-, rfl⟩ | ⟨-, -, M, hrule, rfl⟩ := transition_ok hs hinv h
  · exact ⟨.refl hs.inv, rfl⟩
  · have hseed : Seeded db.ledger ({ inv with status := status } : Invoice).companyId acct :=
      hs.seededFor (i := inv) hinv
    exact ⟨postingRule_within hs.inv hseed rfl hrule, rfl⟩

theorem recalculate_within (hs : Sound H acct company db) (h : recalculateInvoice H db y actor = .ok db') :
    Within H (fun st _ => st = "invoice".toList) db.ledger db'.ledger ∧ db'.rows.settings = db.rows.settings := by
  obtain ⟨inv, hinv, -, M, L', hrepost, rfl, hflip⟩ := recalculate_spec hs h
  have hseed : Seeded db.ledger (reckon db.rows inv).companyId acct := hs.seededFor (i := inv) hinv
  have hwithin : Within H (fun st _ => st = "invoice".toList) db.ledger M :=
    repostInvoiceIssuance_within hs.inv hseed rfl hrepost
  refine ⟨?_, rfl⟩
  split_ifs at hflip
  · have hseed' : Seeded M (reckoned db.rows inv).companyId acct :=
      (reckoned_recast db.rows inv).companyId ▸ hseed.congr hwithin.accounts
    exact hwithin.trans (postInvoiceIssuance_within hwithin.inv hseed' rfl hflip)
  · exact hflip ▸ hwithin

/-- Off an era, a payment's receipt is posted where nothing stood. -/
theorem postPaymentReceived_updates {S : Text → Text → Prop} (hfree : H.CollisionFree) (ht : Tracked H S L)
    (hseed : Seeded L inv.companyId acct) (hS : S "payment".toList (str p.id))
    (hon : R.ledgerPostingEnabled inv.companyId = true) (hera : preCutoverEra R inv = false)
    (hnone : L.liveOf "payment".toList (str p.id) = ∅)
    (h : postPaymentReceived H clock R p inv actor L = .ok () L') :
    ∃ lines, buildPaymentLines R p inv = .ok lines ∧
      Updates H S L L' "payment".toList (str p.id) (receivedBook acct inv p lines) := by
  unfold postPaymentReceived at h
  simp only [hon, hera, Bool.not_true, Bool.false_and, Bool.false_eq_true, if_false, bind_ok] at h
  obtain ⟨lines, M, hbuild, h⟩ := h
  obtain ⟨hlines, rfl⟩ := raising_ok.mp hbuild
  refine ⟨lines, hlines, ?_⟩
  split_ifs at h with hposts
  · rw [bind_ok] at h
    obtain ⟨e, M, hpost, h⟩ := h
    cases h
    refine (post_updates hfree ht hseed rfl hS hpost).1.of_eq ?_
    rw [receivedBook, if_neg hposts]
    exact (congrArg _ hnone).trans rfl
  · cases h
    rw [receivedBook, if_pos (not_not.mp hposts), ← hnone]
    exact .refl ht _ _

/-- A payment is recorded: its receipt is posted, the others stay. -/
theorem receive_inCash {inv₁ : Invoice} (hfree : H.CollisionFree) (hs : Sound H acct company db)
    (hcash : InCash H acct company y db) (hp : Recorded db y p)
    (hadded : Sound H acct company { db with rows := db.rows.addPayment p })
    (hcalc : recalculateInvoice H { db with rows := db.rows.addPayment p } y actor = .ok db₁)
    (hinv₁ : inv₁ ∈ db₁.rows.invoices) (hs₁ : Sound H acct company db₁)
    (h : postPaymentReceived H clock db₁.rows p inv₁ actor db₁.ledger = .ok () L) :
    InCash H acct company y { db₁ with ledger := L } := by
  obtain ⟨hwithin, hsettings⟩ := recalculate_within hadded hcalc
  have hpayments : db₁.rows.payments = db.rows.payments ++ [p] := (recalculateInvoice_same hcalc).payments
  have hcompany := hs₁.kept.plain inv₁ hinv₁
  have huncut : db₁.rows.cutoverDate company = none := by
    have hbefore := hcash.uncut
    unfold Rows.cutoverDate Rows.glSettings at hbefore ⊢
    rwa [hsettings]
  have ht : Tracked H receiptSource db₁.ledger :=
    hwithin.tracked hcash.tracked fun st sid hst hsource => absurd (hst.symm.trans hsource.1) (by decide)
  have hfirst : ∀ sid, db₁.ledger.liveOf "payment".toList sid = db.ledger.liveOf "payment".toList sid :=
    fun sid => hwithin.liveOf_eq (by decide)
  have hnone : db₁.ledger.liveOf "payment".toList (str p.id) = ∅ := by
    rw [hfirst, Finset.eq_empty_iff_forall_notMem]
    intro q hq
    obtain ⟨hlive, -, hsource⟩ := mem_liveOf.mp hq
    obtain ⟨e, he, -, -, rfl⟩ := mem_live.mp hlive
    exact hs.known e he p.id hp.id.ge hsource
  have hon : db₁.rows.ledgerPostingEnabled inv₁.companyId = true := by
    rw [hcompany]
    exact hs₁.kept.on
  obtain ⟨lines, hbuild, hup⟩ := postPaymentReceived_updates hfree ht (hs₁.seededFor hinv₁) ⟨rfl, p.id, rfl⟩ hon
    (not_era huncut hcompany) hnone h
  refine ⟨hup.tracked, huncut, fun q hq hid => ?_⟩
  obtain hold | hnew := List.mem_append.mp (hpayments ▸ hq)
  · have hne : q.id ≠ p.id := hp.id ▸ (hs.kept.payment_lt q hold).1.ne
    rw [hup.elsewhere _ _ fun hsame => hne (str_injective hsame.2), hfirst]
    exact (hcash.row q hold hid).congr hsettings
  · rw [List.mem_singleton.mp hnew, hup.here]
    exact build_receipt hbuild hcompany hp.voidedAt

/-- Settling the payments of an invoice again leaves each its receipt. -/
theorem resettle_inCash {now : ℤ} (hfree : H.CollisionFree) (hs : Sound H acct company ⟨R, L, now⟩)
    (ht : Tracked H receiptSource L) (huncut : R.cutoverDate company = none) (hinv : inv ∈ R.invoices)
    (hfiled : ∀ p ∈ R.paymentsOf inv, Filed acct R inv p (L.liveOf "payment".toList (str p.id)))
    (h : resettleInvoicePayments H clock R inv actor none L = .ok () L') :
    InCash H acct company inv.id ⟨R, L', now⟩ := by
  have hcompany : inv.companyId = company := hs.kept.plain inv hinv
  have hon : R.ledgerPostingEnabled inv.companyId = true := by
    rw [hcompany]
    exact hs.kept.on
  have hall := resettle_resettled hfree ht (hs.seededFor hinv) hon (fun p _ => ⟨rfl, p.id, rfl⟩) hs.kept.payment_ids
    hfiled h
  refine ⟨hall.tracked, huncut, fun p hp hid => ?_⟩
  have hmem : p ∈ R.paymentsOf inv := List.mem_filter.mpr ⟨hp, beq_iff_eq.mpr hid⟩
  exact settled_receipt huncut hcompany (hall.settled p hmem)

theorem Change.inCash (hfree : H.CollisionFree) (hchange : Change H acct company y db db') (hs : Sound H acct company db)
    (hcash : InCash H acct company y db) : InCash H acct company y db' := by
  have hidle : Within H (fun _ _ => False) db.ledger db.ledger := .refl hs.inv
  have hbills : ∀ st _ : Text, st = "invoice".toList → st ≠ "payment".toList := by
    rintro st - rfl
    decide
  cases hchange with
  | addInvoice payload hy => exact hcash.apart rfl rfl hidle fun _ _ => False.elim
  | putLines lines hinv hid hdraft hnext hown hothers => exact hcash.apart rfl rfl hidle fun _ _ => False.elim
  | @receive inv inv₁ p clock actor db₁ L hinv hid hp hlate hcalc hinv₁ hid₁ h =>
    subst hid
    obtain ⟨-, hadded⟩ := hp.touches hs hinv hlate
    exact receive_inCash hfree hs hcash hp hadded hcalc hinv₁ (recalculate_touches hadded hcalc).2 h
  | @voidPayment inv p clock actor L at' hinv hid hp hpinv h =>
    subst hid
    obtain ⟨-, hput⟩ := Touches.putPayment (v := some at') hs hp
    refine resettle_inCash hfree hput hcash.tracked hcash.uncut hinv (fun q hq => ?_) h
    obtain ⟨hq, hid⟩ := List.mem_filter.mp hq
    obtain ⟨r, hr, rfl⟩ := List.mem_map.mp hq
    -- a voided row still has its receipt here: the pass is what reverses it
    have huncut : (db.rows.putPayment { p with voidedAt := some at' }).cutoverDate company = none := hcash.uncut
    split_ifs at hid ⊢ with hsame
    · have hstands := hcash.row p hp hpinv
      exact hstands.filed { p with voidedAt := some at' } rfl rfl huncut (hs.kept.plain inv hinv)
    · exact (hcash.row r hr (beq_iff_eq.mp hid)).filed _ rfl rfl huncut (hs.kept.plain inv hinv)
  | resettle hinv hid h =>
    subst hid
    refine resettle_inCash hfree hs hcash.tracked hcash.uncut hinv (fun q hq => ?_) h
    obtain ⟨hq, hid⟩ := List.mem_filter.mp hq
    exact (hcash.row q hq (beq_iff_eq.mp hid)).filed _ rfl rfl hcash.uncut (hs.kept.plain _ hinv)
  | addAdjustment hinv hid ha hnew hamount => exact hcash.apart rfl rfl hidle fun _ _ => False.elim
  | stamp hinv hid hrow hsame => exact hcash.apart rfl rfl hidle fun _ _ => False.elim
  | transition hinv hid hstatus h =>
    obtain ⟨hwithin, hsettings⟩ := transition_within hs hinv h
    exact hcash.apart (transition_same h).payments hsettings hwithin hbills
  | recalculate h =>
    obtain ⟨hwithin, hsettings⟩ := recalculate_within hs h
    exact hcash.apart (recalculateInvoice_same h).payments hsettings hwithin hbills
  | adjust hinv hid h => exact hcash.apart rfl rfl (h hs) fun st sid hown => hown.1 ▸ by decide
  | settleOpening hinv hid h =>
    have hwithin := settleOpeningOnVoid_within (P := fun st _ => st = "invoice".toList) hs.inv (hs.seededFor hinv) rfl h
    exact hcash.apart rfl rfl hwithin hbills

/-- The payments of the invoices a request does not name. -/
theorem Serves.inCash (h : Serves H acct company x db db') (hne : y ≠ x) (htracked : Tracked H receiptSource db'.ledger)
    (hcash : InCash H acct company y db) : InCash H acct company y db' := by
  have hsame := h.others y hne
  have hmem : ∀ p ∈ db'.rows.payments, p.invoiceId = y → p ∈ db.rows.payments.filter (·.invoiceId == y) := fun p hp hid =>
    hsame.payments ▸ List.mem_filter.mpr ⟨hp, beq_iff_eq.mpr hid⟩
  refine hcash.keep (fun p hp hid => List.mem_of_mem_filter (hmem p hp hid)) hsame.settings h.within htracked
    fun p hp hid => h.sound.kept.owned_disjoint hne ?_
  exact .inr (.inl ⟨rfl, p, hp, hid, rfl⟩)

/-- After any calls each payment that was not voided is on the books once, at its amount and surcharge and on the account
    of its method, and a voided one not at all; and that is what the journal nets to. -/
theorem payments_stand_once (hfree : H.CollisionFree) (zone : ShopZone) (calls : List InvoicingCall) (desk : DepositDesk)
    (hs : Sound H acct company desk.db) (hcash : ∀ y, InCash H acct company y desk.db) :
    let db' := (desk.bill H zone company calls).db
    ∀ p ∈ db'.rows.payments,
      ReceiptStands acct db'.rows company p (db'.ledger.liveOf "payment".toList (str p.id)) ∧
      ∀ w : Slot → ℤ, (∀ s, w s ≠ 0 → s.sourceType = "payment".toList ∧ s.sourceId = str p.id) →
        db'.ledger.net w = ∑ q ∈ db'.ledger.liveOf "payment".toList (str p.id), q.value w := by
  intro db' p hp
  have hrun : ∀ y, InCash H acct company y db' :=
    (bill_keeps (fun _ h => ⟨h.tracked, h.uncut, h.row⟩) (fun hchange hs h => hchange.inCash hfree hs h)
      (fun hserves hne hx h => hserves.inCash hne hx.tracked h) zone calls hs hcash).2
  exact ⟨(hrun p.invoiceId).row p hp rfl, fun w hw => net_source (hrun p.invoiceId).tracked ⟨rfl, p.id, rfl⟩ hw⟩

theorem emptyDesk_inCash (y : ℕ) : InCash plainHash seededAcct 0 y emptyDesk.db where
  tracked := .of_none (.of_empty rfl chartOk_seeded) fun e he => absurd he List.not_mem_nil
  uncut := by decide
  row := fun p hp => absurd hp List.not_mem_nil

/-- The second invoice is paid beyond its balance. -/
def overpaidBooks : Db := (emptyDesk.bill plainHash utcZone 0 (officeCalls (twoIssued ++ onSecond.take 1))).db

theorem payments_stand_once_overpaid : ∃ p ∈ overpaidBooks.rows.payments, p.amount = 5000 ∧
    ∃ q, overpaidBooks.ledger.liveOf "payment".toList (str p.id) = {q} ∧ Receipt seededAcct overpaidBooks.rows 0 p q := by
  have hpaid : ∃ p ∈ overpaidBooks.rows.payments, p.amount = 5000 ∧
      ¬(p.voidedAt.isSome ∨ p.amount = 0 ∧ p.surcharge = 0) := by
    decide +kernel
  obtain ⟨p, hp, hamount, hlive⟩ := hpaid
  obtain ⟨hstands, -⟩ := payments_stand_once plainHash_collisionFree utcZone (officeCalls (twoIssued ++ onSecond.take 1))
    emptyDesk emptyDesk_sound emptyDesk_inCash p hp
  rw [ReceiptStands, if_neg hlive] at hstands
  exact ⟨p, hp, hamount, hstands⟩

end Gdx
