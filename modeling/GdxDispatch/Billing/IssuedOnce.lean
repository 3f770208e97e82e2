import GdxDispatch.Billing.Isolation
import GdxDispatch.Ledger.PaymentSplits

/-! An invoice is on the books once while it is issued, and not at all before and after.

    In a shop without a cutover, whatever requests came in whatever order, the live postings under an invoice's own
    source are those of its current lines if it is sent or paid, and none if it is a draft or void; and the journal,
    reversals included, nets to them. -/

namespace Gdx
open Lib

variable {H : ContentHash} {zone : ShopZone} {acct : Role → ℕ} {company : ℕ} {R R' : Rows} {L L' : Ledger}
  {db db' db₁ : Db} {actor : Option Text} {inv inv' : Invoice} {x y : ℕ}

/-- The sources of invoices themselves. -/
def invoiceSource (st sid : Text) : Prop := st = "invoice".toList ∧ ∃ id : ℕ, sid = str id

/-- The books hold the invoice's current lines, once, if it is issued; else nothing of it. -/
def IssuanceStands (acct : Role → ℕ) (R : Rows) (L : Ledger) (inv : Invoice) : Prop :=
  if inv.status ∈ ISSUED_STATUSES then
    ∃ lines day, buildIssuanceLines R L inv = .ok lines ∧
      L.liveOf "invoice".toList (str inv.id) = issuedBook acct inv day lines
  else L.liveOf "invoice".toList (str inv.id) = ∅

theorem stands_issued_iff (hstatus : inv.status ∈ ISSUED_STATUSES) : IssuanceStands acct R L inv ↔
    ∃ lines day, buildIssuanceLines R L inv = .ok lines ∧
      L.liveOf "invoice".toList (str inv.id) = issuedBook acct inv day lines := by
  rw [IssuanceStands, if_pos hstatus]

theorem stands_unissued_iff (hstatus : inv.status ∉ ISSUED_STATUSES) : IssuanceStands acct R L inv ↔
    L.liveOf "invoice".toList (str inv.id) = ∅ := by
  rw [IssuanceStands, if_neg hstatus]

theorem draft_unissued : InvoiceStatus.draft ∉ ISSUED_STATUSES := by decide

theorem sent_issued : InvoiceStatus.sent ∈ ISSUED_STATUSES := by decide

theorem paid_issued : InvoiceStatus.paid ∈ ISSUED_STATUSES := by decide

theorem void_unissued : InvoiceStatus.void ∉ ISSUED_STATUSES := by decide

theorem IssuanceStands.one (h : IssuanceStands acct R L inv) :
    OneIssuance inv (L.liveOf "invoice".toList (str inv.id)) := by
  unfold IssuanceStands at h
  split_ifs at h
  · obtain ⟨lines, day, -, hbook⟩ := h
    exact hbook ▸ oneIssuance_issuedBook acct inv day lines
  · exact h ▸ .empty inv

/-- It depends on the lines, the settings, the chart, and the live postings of the invoice. -/
theorem IssuanceStands.congr (h : IssuanceStands acct R L inv)
    (hlines : inv.status ∈ ISSUED_STATUSES → R'.liveLines inv = R.liveLines inv)
    (hsettings : R'.settings = R.settings) (haccounts : L'.accounts = L.accounts)
    (hlive : L'.liveOf "invoice".toList (str inv.id) = L.liveOf "invoice".toList (str inv.id)) :
    IssuanceStands acct R' L' inv := by
  by_cases hstatus : inv.status ∈ ISSUED_STATUSES
  · have hbuild : buildIssuanceLines R' L' inv = buildIssuanceLines R L inv := by
      rw [buildIssuanceLines_congr haccounts]
      unfold buildIssuanceLines Rows.glSettings
      rw [hlines hstatus, hsettings]
    rw [stands_issued_iff hstatus] at h ⊢
    rwa [hbuild, hlive]
  · rw [stands_unissued_iff hstatus] at h ⊢
    rwa [hlive]

theorem issuedBook_congr (hid : inv'.id = inv.id) (hcompany : inv'.companyId = inv.companyId) :
    issuedBook acct inv' = issuedBook acct inv := by
  funext day lines
  unfold issuedBook
  rw [hid, hcompany]

theorem IssuanceStands.stamp (h : IssuanceStands acct R L inv) (hrow : Recast inv inv') (hsame : SameBill inv inv') :
    IssuanceStands acct R L inv' := by
  unfold IssuanceStands at h ⊢
  rwa [hsame.status, hsame.lines, hrow.id, issuedBook_congr hrow.id hrow.companyId]

/-- What the books hold of invoice `y`. -/
structure InBooks (H : ContentHash) (acct : Role → ℕ) (company y : ℕ) (db : Db) : Prop where
  tracked : Tracked H invoiceSource db.ledger
  uncut : db.rows.cutoverDate company = none
  row : ∀ inv ∈ db.rows.invoices, inv.id = y → inv.status ≠ .overdue ∧ IssuanceStands acct db.rows db.ledger inv

/-! ### Changes -/

theorem InBooks.rows (h : InBooks H acct company y db) (hinvoices : R'.invoices = db.rows.invoices)
    (hsettings : R'.settings = db.rows.settings)
    (hlines : ∀ inv ∈ db.rows.invoices, inv.id = y → inv.status ∈ ISSUED_STATUSES →
      R'.liveLines inv = db.rows.liveLines inv) : InBooks H acct company y { db with rows := R' } := by
  refine ⟨h.tracked, ?_, fun inv hinv hid => ?_⟩
  · have huncut := h.uncut
    unfold Rows.cutoverDate Rows.glSettings at huncut ⊢
    rwa [hsettings]
  · have hold : inv ∈ db.rows.invoices := hinvoices ▸ hinv
    obtain ⟨hopen, hstands⟩ := h.row inv hold hid
    exact ⟨hopen, hstands.congr (hlines inv hold hid) hsettings rfl rfl⟩

/-- Postings of other sources change nothing here. -/
theorem InBooks.post {P : Text → Text → Prop} (h : InBooks H acct company y db) (hwithin : Within H P db.ledger L')
    (hP : ∀ st sid, P st sid → st ≠ "invoice".toList) : InBooks H acct company y { db with ledger := L' } := by
  refine ⟨hwithin.tracked h.tracked fun st sid hp hsource => hP st sid hp hsource.1, h.uncut, fun inv hinv hid => ?_⟩
  obtain ⟨hopen, hstands⟩ := h.row inv hinv hid
  exact ⟨hopen, hstands.congr (fun _ => rfl) rfl hwithin.accounts (hwithin.liveOf_eq fun hp => hP _ _ hp rfl)⟩

/-- The row is replaced, and the books follow it. -/
theorem InBooks.put (h : InBooks H acct company y db) (hid : inv'.id = y) (htracked : Tracked H invoiceSource L')
    (hopen : inv'.status ≠ .overdue) (hstands : IssuanceStands acct db.rows L' inv') :
    InBooks H acct company y { db with rows := db.rows.putInvoice inv', ledger := L' } := by
  refine ⟨htracked, h.uncut, fun other hother hother_id => ?_⟩
  obtain ⟨-, hne⟩ | ⟨rfl, -⟩ := mem_putInvoice.mp hother
  · exact absurd (hother_id.trans hid.symm) hne
  · exact ⟨hopen, hstands⟩

theorem not_era (huncut : R.cutoverDate company = none) (hcompany : inv.companyId = company) :
    preCutoverEra R inv = false := by
  rw [preCutoverEra, hcompany, huncut]
  rfl

/-- A change of status posts the issuance or takes it back. -/
theorem transition_booked {status : InvoiceStatus} (hfree : H.CollisionFree) (hs : Sound H acct company db)
    (hbooked : InBooks H acct company inv.id db) (hinv : inv ∈ db.rows.invoices)
    (hstatus : status = .sent ∨ status = .void)
    (h : transitionInvoiceStatus H db inv status actor = .ok db') : InBooks H acct company inv.id db' := by
  obtain ⟨-, rfl⟩ | ⟨hne, hlive, M, hrule, rfl⟩ := transition_ok hs hinv h
  · exact hbooked
  obtain ⟨hopen, hstands⟩ := hbooked.row inv hinv rfl
  have hS : invoiceSource "invoice".toList (str inv.id) := ⟨rfl, inv.id, rfl⟩
  have hseed := hs.seededFor hinv
  have hone := hstands.one
  set moved : Invoice := { inv with status := status } with hmoved
  have hera : preCutoverEra (db.rows.putInvoice moved) moved = false :=
    not_era hbooked.uncut (hs.kept.plain inv hinv)
  have hput : ∀ {L'}, Tracked H invoiceSource L' → IssuanceStands acct db.rows L' moved →
      InBooks H acct company inv.id { db with rows := db.rows.putInvoice moved, ledger := L' } := fun ht hrow =>
    hbooked.put rfl ht (by rcases hstatus with rfl | rfl <;> simp [hmoved]) hrow
  have hvoided : reverseInvoiceIssuance moved actor db.ledger = .ok () M → status = .void →
      InBooks H acct company inv.id { db with rows := db.rows.putInvoice moved, ledger := M } := by
    intro hreverse hvoid
    have hup := reverseInvoiceIssuance_updates hbooked.tracked hS hone hreverse
    exact hput hup.tracked ((stands_unissued_iff (by rw [hmoved, hvoid]; exact void_unissued)).mpr hup.here)
  -- the old status decides whether something stands, the new one what must
  cases hold : inv.status with
  | overdue => exact absurd hold hopen
  | void => exact absurd hold hlive
  | draft =>
    have hnone := (stands_unissued_iff (by rw [hold]; exact draft_unissued)).mp hstands
    rw [hold] at hrule
    obtain rfl | rfl := hstatus
    · have hposted : ∃ lines, buildIssuanceLines (db.rows.putInvoice moved) db.ledger moved = .ok lines ∧
          Updates H invoiceSource db.ledger M "invoice".toList (str moved.id)
            (issuedBook acct moved moved.effectiveAt lines) :=
        postInvoiceIssuance_updates hfree hbooked.tracked hseed hS hera hnone hrule
      obtain ⟨lines, hbuild, hup⟩ := hposted
      exact hput hup.tracked ((stands_issued_iff sent_issued).mpr
        ⟨lines, moved.effectiveAt, (buildIssuanceLines_congr hup.accounts).trans hbuild, hup.here⟩)
    · cases hrule
      exact hput hbooked.tracked ((stands_unissued_iff void_unissued).mpr hnone)
  | sent =>
    rw [hold] at hrule
    obtain rfl | rfl := hstatus
    · exact absurd hold.symm hne
    · exact hvoided hrule rfl
  | paid =>
    rw [hold] at hrule
    obtain rfl | rfl := hstatus
    · cases hrule
      have hbook := (stands_issued_iff (by rw [hold]; exact paid_issued)).mp hstands
      exact hput hbooked.tracked ((stands_issued_iff sent_issued).mpr hbook)
    · exact hvoided hrule rfl

theorem reckoned_issued (hstatus : inv.status ∈ ISSUED_STATUSES) : (reckoned R inv).status ∈ ISSUED_STATUSES := by
  unfold reckoned
  split_ifs
  · exact paid_issued
  · exact hstatus

/-- The issuance does not read the status. -/
theorem issuance_reckoned : buildIssuanceLines R L (reckoned R inv) =
    buildIssuanceLines (R.putInvoice (reckon R inv)) L (reckon R inv) := by
  unfold reckoned
  split_ifs <;> rfl

/-- An issued invoice is posted again as reckoned. -/
theorem repost_booked (hfree : H.CollisionFree) (hs : Sound H acct company db)
    (hbooked : InBooks H acct company inv.id db)
    (hinv : inv ∈ db.rows.invoices) (hstatus : inv.status ∈ ISSUED_STATUSES)
    (h : repostInvoiceIssuance H (db.rows.putInvoice (reckon db.rows inv)) (reckon db.rows inv) actor db.ledger =
      .ok () L') :
    InBooks H acct company inv.id { db with rows := db.rows.putInvoice (reckoned db.rows inv), ledger := L' } := by
  have hrow := reckoned_recast db.rows inv
  have hcompany := hs.kept.plain inv hinv
  have hseed := hs.seededFor hinv
  have hone := (hbooked.row inv hinv rfl).2.one
  have hon : (db.rows.putInvoice (reckon db.rows inv)).ledgerPostingEnabled inv.companyId = true := by
    rw [hcompany]
    exact hs.kept.on
  have hposted : ∃ lines, buildIssuanceLines (db.rows.putInvoice (reckon db.rows inv)) db.ledger (reckon db.rows inv) =
      .ok lines ∧ Updates H invoiceSource db.ledger L' "invoice".toList (str inv.id)
        (issuedBook acct (reckon db.rows inv) inv.effectiveAt lines) := by
    refine repostInvoiceIssuance_updates hfree hbooked.tracked hseed ⟨rfl, inv.id, rfl⟩ hon ?_ hstatus ?_ h
    · exact not_era hbooked.uncut hcompany
    · exact ⟨hone.company, hone.event, hone.single⟩
  obtain ⟨lines, hbuild, hup⟩ := hposted
  have hissued : (reckoned db.rows inv).status ∈ ISSUED_STATUSES := reckoned_issued hstatus
  refine hbooked.put hrow.id hup.tracked (fun hover => ?_)
    ((stands_issued_iff hissued).mpr ⟨lines, inv.effectiveAt, ?_, ?_⟩)
  · rw [hover] at hissued
    revert hissued
    decide
  · rw [buildIssuanceLines_congr hup.accounts, issuance_reckoned, hbuild]
  · rw [hrow.id, issuedBook_congr hrow.id hrow.companyId]
    exact hup.here

/-- A draft that owes nothing is posted as it is paid. -/
theorem firstPosting_booked (hfree : H.CollisionFree) (hs : Sound H acct company db)
    (hbooked : InBooks H acct company inv.id db)
    (hinv : inv ∈ db.rows.invoices) (hstatus : inv.status ∉ ISSUED_STATUSES) (hflips : (reckon db.rows inv).flipsToPaid)
    (h : postInvoiceIssuance H (db.rows.putInvoice (reckoned db.rows inv)) (reckoned db.rows inv) actor db.ledger =
      .ok () L') :
    InBooks H acct company inv.id { db with rows := db.rows.putInvoice (reckoned db.rows inv), ledger := L' } := by
  have hrow := reckoned_recast db.rows inv
  have hpaid : (reckoned db.rows inv).status = .paid := by rw [reckoned, if_pos hflips]
  have hnone := (stands_unissued_iff hstatus).mp (hbooked.row inv hinv rfl).2
  have hposted : ∃ lines,
      buildIssuanceLines (db.rows.putInvoice (reckoned db.rows inv)) db.ledger (reckoned db.rows inv) = .ok lines ∧
      Updates H invoiceSource db.ledger L' "invoice".toList (str (reckoned db.rows inv).id)
        (issuedBook acct (reckoned db.rows inv) (reckoned db.rows inv).effectiveAt lines) := by
    refine postInvoiceIssuance_updates hfree hbooked.tracked ?_ ⟨rfl, _, rfl⟩ ?_ ?_ h
    · rw [hrow.companyId]
      exact hs.seededFor hinv
    · exact not_era hbooked.uncut (hrow.companyId.trans (hs.kept.plain inv hinv))
    · rw [hrow.id]
      exact hnone
  obtain ⟨lines, hbuild, hup⟩ := hposted
  refine hbooked.put hrow.id hup.tracked (by rw [hpaid]; decide)
    ((stands_issued_iff (by rw [hpaid]; exact paid_issued)).mpr ⟨lines, _, ?_, hup.here⟩)
  exact (buildIssuanceLines_congr hup.accounts).trans hbuild

/-- The figures are reckoned and the posting made again; a draft that is paid this way is posted. -/
theorem recalculate_booked (hfree : H.CollisionFree) (hs : Sound H acct company db)
    (hbooked : InBooks H acct company y db)
    (h : recalculateInvoice H db y actor = .ok db') : InBooks H acct company y db' := by
  obtain ⟨inv, hinv, rfl, M, L', hrepost, rfl, hflip⟩ := recalculate_spec hs h
  obtain ⟨hopen, hstands⟩ := hbooked.row inv hinv rfl
  by_cases hissued : inv.status ∈ ISSUED_STATUSES
  · have hsame : ¬ ((reckon db.rows inv).flipsToPaid ∧ inv.status = .draft) := by
      rintro ⟨-, hdraft⟩
      exact draft_unissued (hdraft ▸ hissued)
    rw [if_neg hsame] at hflip
    rw [hflip]
    exact repost_booked hfree hs hbooked hinv hissued hrepost
  have hidle : M = db.ledger := by
    have hstatus : (reckon db.rows inv).status ∉ ISSUED_STATUSES := hissued
    rw [repostInvoiceIssuance, if_pos hstatus] at hrepost
    cases hrepost
    rfl
  rw [hidle] at hflip
  split_ifs at hflip with hdraft
  · exact firstPosting_booked hfree hs hbooked hinv hissued hdraft.1 hflip
  have hstatus : (reckoned db.rows inv).status = inv.status := by
    unfold reckoned
    split_ifs with hflips
    · exfalso
      cases hold : inv.status with
      | draft => exact hdraft ⟨hflips, hold⟩
      | sent => exact hissued (hold ▸ sent_issued)
      | paid => exact hissued (hold ▸ paid_issued)
      | overdue => exact hopen hold
      | void => exact hflips.1 hold
    · rfl
  rw [hflip]
  refine hbooked.put (reckoned_recast db.rows inv).id hbooked.tracked (by rwa [hstatus])
    ((stands_unissued_iff (by rwa [hstatus])).mpr ?_)
  rw [(reckoned_recast db.rows inv).id]
  exact (stands_unissued_iff hissued).mp hstands

/-- Without an anchor there is no opening balance to void. -/
theorem settleOpening_idle {clock : ShopClock} (hbooked : InBooks H acct company inv.id db)
    (hinv : inv ∈ db.rows.invoices)
    (hcompany : inv.companyId = company) (h : settleOpeningOnVoid H clock db.rows inv actor db.ledger = .ok () L) :
    L = db.ledger := by
  obtain ⟨-, hstands⟩ := hbooked.row inv hinv rfl
  have hone := hstands.one
  have hanchor : hasOpeningAnchor db.ledger inv = false := by
    rw [hasOpeningAnchor, decide_eq_false_iff_not, not_not, List.eq_nil_iff_forall_not_mem]
    intro e he
    have hfor := (hbooked.tracked.mem_liveLike_plain (plainSource_invoice inv.id) ⟨rfl, inv.id, rfl⟩ (by decide)
      (by decide)).mp he
    have hissued := hone.event e.posting (mem_liveOf.mpr ⟨hfor.stands.mem_live, hfor.type_eq, hfor.id_eq⟩)
    rw [hfor.event_eq] at hissued
    revert hissued
    decide
  unfold settleOpeningOnVoid at h
  rw [not_era hbooked.uncut hcompany, hanchor] at h
  split_ifs at h <;> first | (cases h; rfl) | simp_all

theorem Change.booked (hfree : H.CollisionFree) (hchange : Change H acct company y db db')
    (hs : Sound H acct company db)
    (hbooked : InBooks H acct company y db) : InBooks H acct company y db' := by
  cases hchange with
  | addInvoice payload hy =>
    subst hy
    refine ⟨hbooked.tracked, hbooked.uncut, fun inv hinv hid => ?_⟩
    obtain hold | hnew := List.mem_append.mp hinv
    · exact absurd hid (hs.kept.invoice_lt inv hold).ne
    · rw [List.mem_singleton.mp hnew]
      refine ⟨by simp [InvoiceIn.row], (stands_unissued_iff (draft_unissued)).mpr ?_⟩
      rw [Finset.eq_empty_iff_forall_notMem]
      intro q hq
      obtain ⟨hlive, -, hsource⟩ := mem_liveOf.mp hq
      obtain ⟨e, he, -, -, rfl⟩ := mem_live.mp hlive
      exact hs.known e he _ (le_refl _) hsource
  | putLines lines hinv hid hdraft hnext hown hothers =>
    subst hid
    refine hbooked.rows rfl rfl fun i hi hid hissued => ?_
    rw [hs.kept.eq_of_id hi hinv hid, hdraft] at hissued
    exact absurd hissued draft_unissued
  | @receive inv inv₁ p clock actor db₁ L hinv hid hp hlate hcalc hinv₁ hid₁ h =>
    subst hid
    obtain ⟨-, hs₁⟩ := hp.touches hs hinv hlate
    have hadded : InBooks H acct company inv.id { db with rows := db.rows.addPayment p } :=
      hbooked.rows rfl rfl fun _ _ _ _ => rfl
    have hreckoned := recalculate_booked hfree hs₁ hadded hcalc
    exact hreckoned.post (hp.within (recalculate_touches hs₁ hcalc).2 hcalc hinv₁ hid₁ h) fun st sid hown =>
      hown.1 ▸ by decide
  | @voidPayment inv p clock actor L at' hinv hid hp hpinv h =>
    subst hid
    obtain ⟨-, hs₁⟩ := Touches.putPayment (v := some at') hs hp
    have hput : InBooks H acct company inv.id { db with rows := db.rows.putPayment { p with voidedAt := some at' } } :=
      hbooked.rows rfl rfl fun _ _ _ _ => rfl
    exact hput.post (resettle_within hs₁ hinv h) fun st sid hown => hown.1 ▸ by decide
  | resettle hinv hid h =>
    subst hid
    exact hbooked.post (resettle_within hs hinv h) fun st sid hown => hown.1 ▸ by decide
  | addAdjustment hinv hid ha hnew hamount => exact hbooked.rows rfl rfl fun _ _ _ _ => rfl
  | stamp hinv hid hrow hsame =>
    obtain ⟨hopen, hstands⟩ := hbooked.row _ hinv hid
    exact hbooked.put (hrow.id.trans hid) hbooked.tracked (by rwa [hsame.status])
      (hstands.stamp hrow hsame)
  | transition hinv hid hstatus h =>
    subst hid
    exact transition_booked hfree hs hbooked hinv hstatus h
  | recalculate h => exact recalculate_booked hfree hs hbooked h
  | adjust hinv hid h => exact hbooked.post (h hs) fun st sid hown => hown.1 ▸ by decide
  | settleOpening hinv hid h =>
    subst hid
    rw [settleOpening_idle hbooked hinv (hs.kept.plain _ hinv) h]
    exact hbooked

/-- The books of the invoices a request does not name. -/
theorem Serves.booked (h : Serves H acct company x db db') (hne : y ≠ x) (htracked : Tracked H invoiceSource db'.ledger)
    (hbooked : InBooks H acct company y db) : InBooks H acct company y db' := by
  have hsame := h.others y hne
  refine ⟨htracked, ?_, fun inv hinv hid => ?_⟩
  · have huncut := hbooked.uncut
    unfold Rows.cutoverDate Rows.glSettings at huncut ⊢
    rwa [hsame.settings]
  · subst hid
    obtain ⟨hopen, hstands⟩ := hbooked.row inv ((hsame.invoice inv rfl).mp hinv) rfl
    refine ⟨hopen, hstands.congr (fun _ => hsame.liveLines) hsame.settings h.within.accounts
      (h.within.liveOf_eq ?_)⟩
    rintro (⟨-, hid⟩ | ⟨hst, -⟩ | ⟨hst, -⟩)
    · exact hne (str_injective hid)
    all_goals
      revert hst
      decide

theorem bill_booked (hfree : H.CollisionFree) (zone : ShopZone) (calls : List InvoicingCall) {desk : DepositDesk}
    (hs : Sound H acct company desk.db) (hbooked : ∀ y, InBooks H acct company y desk.db) :
    ∀ y, InBooks H acct company y (desk.bill H zone company calls).db :=
  (bill_keeps (fun _ h => ⟨h.tracked, h.uncut, h.row⟩) (fun hchange hs h => hchange.booked hfree hs h)
    (fun hserves hne hx h => hserves.booked hne hx.tracked h) zone calls hs hbooked).2

/-- What a source nets to is what stands under it. -/
theorem net_source {S : Text → Text → Prop} {st sid : Text} {w : Slot → ℤ} (ht : Tracked H S L) (hS : S st sid)
    (hw : ∀ s, w s ≠ 0 → s.sourceType = st ∧ s.sourceId = sid) : L.net w = ∑ q ∈ L.liveOf st sid, q.value w := by
  have hsource : ∀ s, w s ≠ 0 → S s.sourceType s.sourceId := by
    intro s hs
    obtain ⟨rfl, rfl⟩ := hw s hs
    exact hS
  rw [ht.net_live w hsource]
  refine (Finset.sum_subset (Finset.filter_subset _ _) fun q hq hout => ?_).symm
  exact Posting.value_eq_zero (S := fun st' sid' => st' = st ∧ sid' = sid) hw fun hq' => hout (mem_liveOf.mpr ⟨hq, hq'⟩)

/-- After any calls a sent or paid invoice is on the books once, with its current lines, and a draft or void one not
    at all; and that is what the journal nets to. -/
theorem issuance_follows_status (hfree : H.CollisionFree) (zone : ShopZone) (calls : List InvoicingCall)
    (desk : DepositDesk) (hs : Sound H acct company desk.db) (hbooked : ∀ y, InBooks H acct company y desk.db) :
    let db' := (desk.bill H zone company calls).db
    ∀ inv ∈ db'.rows.invoices,
      (inv.status = .sent ∨ inv.status = .paid → ∃ lines day, buildIssuanceLines db'.rows db'.ledger inv = .ok lines ∧
        roleCents .ar lines = inv.total ∧
        db'.ledger.liveOf "invoice".toList (str inv.id) = issuedBook acct inv day lines) ∧
      (inv.status = .draft ∨ inv.status = .void → db'.ledger.liveOf "invoice".toList (str inv.id) = ∅) ∧
      (inv.status ≠ .overdue) ∧
      ∀ w : Slot → ℤ, (∀ s, w s ≠ 0 → s.sourceType = "invoice".toList ∧ s.sourceId = str inv.id) →
        db'.ledger.net w = ∑ q ∈ db'.ledger.liveOf "invoice".toList (str inv.id), q.value w := by
  intro db' inv hinv
  have hbook := bill_booked hfree zone calls hs hbooked inv.id
  obtain ⟨hopen, hstands⟩ := hbook.row inv hinv rfl
  refine ⟨fun hstatus => ?_, fun hstatus => ?_, hopen, fun w hw => net_source hbook.tracked ⟨rfl, inv.id, rfl⟩ hw⟩
  · have hissued : inv.status ∈ ISSUED_STATUSES := by simpa [ISSUED_STATUSES] using hstatus
    obtain ⟨lines, day, hbuild, hlive⟩ := (stands_issued_iff hissued).mp hstands
    exact ⟨lines, day, hbuild, issuance_ar hbuild, hlive⟩
  · refine (stands_unissued_iff ?_).mp hstands
    obtain hdraft | hvoid := hstatus
    · exact hdraft ▸ draft_unissued
    · exact hvoid ▸ void_unissued

theorem emptyDesk_booked (y : ℕ) : InBooks plainHash seededAcct 0 y emptyDesk.db where
  tracked := .of_none (.of_empty rfl chartOk_seeded) fun e he => absurd he List.not_mem_nil
  uncut := by decide
  row := fun inv hinv => absurd hinv List.not_mem_nil

/-- The second invoice, sent, paid, its payment voided, and credited, stands once. -/
theorem issuance_follows_status_credited :
    ∃ inv ∈ creditedBooks.rows.invoices, inv.status = .sent ∧ inv.balanceDue = 2500 ∧
    ∃ lines day, buildIssuanceLines creditedBooks.rows creditedBooks.ledger inv = .ok lines ∧
      roleCents .ar lines = inv.total ∧
      creditedBooks.ledger.liveOf "invoice".toList (str inv.id) = issuedBook seededAcct inv day lines := by
  have hsecond : ∃ inv ∈ creditedBooks.rows.invoices, inv.status = .sent ∧ inv.balanceDue = 2500 := by decide +kernel
  obtain ⟨inv, hinv, hsent, hbalance⟩ := hsecond
  obtain ⟨hstands, -⟩ := issuance_follows_status plainHash_collisionFree utcZone
    (officeCalls (twoIssued ++ onSecond ++ onJob)) emptyDesk emptyDesk_sound emptyDesk_booked inv hinv
  exact ⟨inv, hinv, hsent, hbalance, hstands (.inl hsent)⟩

end Gdx
