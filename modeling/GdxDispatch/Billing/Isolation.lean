import GdxDispatch.Deposits.NettedOnce

/-! Invoices do not disturb each other.

    A request names one invoice; a new final settles the deposits of its job or estimate beside itself. After any calls
    that do not reach it, the rows of an invoice, the entries of its sources and its receivable on the ledger are what
    they were. No entry is ever without a row: each is filed under an invoice of the tables, or a payment or an
    adjustment of one. -/

namespace Gdx
open Lib

variable {H : ContentHash} {zone : ShopZone} {acct : Role → ℕ} {company : ℕ} {R R' : Rows} {L L' : Ledger}
  {db db' db₁ : Db} {actor : Option Text} {inv : Invoice} {x y : ℕ}

/-! ### Changes -/

/-- The sources of one type among those of an invoice. -/
def Rows.ownedAs (R : Rows) (type : String) (y : ℕ) (st sid : Text) : Prop := st = type.toList ∧ R.owned y st sid

/-- What the issuance of an invoice reads of its row is the same. -/
structure SameBill (inv inv' : Invoice) : Prop where
  status : inv'.status = inv.status
  lines : ∀ (R : Rows) (L : Ledger), buildIssuanceLines R L inv' = buildIssuanceLines R L inv

/-- One change of a handler to invoice `y`. -/
inductive Change (H : ContentHash) (acct : Role → ℕ) (company y : ℕ) (db : Db) : Db → Prop
  | addInvoice (payload : InvoiceIn) (hy : db.rows.nextId = y) :
    Change H acct company y db { db with rows := db.rows.addInvoice payload company db.now }
  | putLines {inv : Invoice} (lines : List InvoiceLine) {nextId : ℕ} (hinv : inv ∈ db.rows.invoices) (hid : inv.id = y)
      (hdraft : inv.status = .draft) (hnext : db.rows.nextId ≤ nextId)
      (hown : ∀ l ∈ lines, l ∈ db.rows.lines ∨ l.invoiceId = y)
      (hothers : ∀ x ≠ y, lines.filter (·.invoiceId == x) = db.rows.lines.filter (·.invoiceId == x)) :
    Change H acct company y db { db with rows := { db.rows with lines := lines, nextId := nextId } }
  | receive {inv inv₁ : Invoice} {p : Payment} {clock : ShopClock} {actor : Option Text} {db₁ : Db} {L : Ledger}
      (hinv : inv ∈ db.rows.invoices) (hid : inv.id = y) (hp : Recorded db y p) (hlate : db.Ticked)
      (hcalc : recalculateInvoice H { db with rows := db.rows.addPayment p } y actor = .ok db₁)
      (hinv₁ : inv₁ ∈ db₁.rows.invoices) (hid₁ : inv₁.id = y)
      (h : postPaymentReceived H clock db₁.rows p inv₁ actor db₁.ledger = .ok () L) :
    Change H acct company y db { db₁ with ledger := L }
  | voidPayment {inv : Invoice} {p : Payment} {clock : ShopClock} {actor : Option Text} {L : Ledger} (at' : ℤ)
      (hinv : inv ∈ db.rows.invoices) (hid : inv.id = y) (hp : p ∈ db.rows.payments) (hpinv : p.invoiceId = y)
      (h : resettleInvoicePayments H clock (db.rows.putPayment { p with voidedAt := some at' }) inv actor none
        db.ledger = .ok () L) :
    Change H acct company y db { db with rows := db.rows.putPayment { p with voidedAt := some at' }, ledger := L }
  | resettle {inv : Invoice} {clock : ShopClock} {actor : Option Text} {L : Ledger} (hinv : inv ∈ db.rows.invoices)
      (hid : inv.id = y) (h : resettleInvoicePayments H clock db.rows inv actor none db.ledger = .ok () L) :
    Change H acct company y db { db with ledger := L }
  | addAdjustment {inv : Invoice} {a : InvoiceAdjustment} (hinv : inv ∈ db.rows.invoices) (hid : inv.id = y)
      (ha : a.invoiceId = y) (hnew : a.id = db.rows.nextId) (hamount : 0 ≤ a.amount) :
    Change H acct company y db { db with rows := db.rows.addAdjustment a }
  | stamp {inv inv' : Invoice} (hinv : inv ∈ db.rows.invoices) (hid : inv.id = y) (hrow : Recast inv inv')
      (hsame : SameBill inv inv') : Change H acct company y db (db.putInvoice inv')
  | transition {inv : Invoice} {status : InvoiceStatus} {actor : Option Text} {db' : Db} (hinv : inv ∈ db.rows.invoices)
      (hid : inv.id = y) (hstatus : status = .sent ∨ status = .void)
      (h : transitionInvoiceStatus H db inv status actor = .ok db') : Change H acct company y db db'
  | recalculate {actor : Option Text} {db' : Db} (h : recalculateInvoice H db y actor = .ok db') :
    Change H acct company y db db'
  | adjust {inv : Invoice} {L : Ledger} (hinv : inv ∈ db.rows.invoices) (hid : inv.id = y)
      (h : Sound H acct company db → Within H (db.rows.ownedAs "adjustment" y) db.ledger L) :
    Change H acct company y db { db with ledger := L }
  | settleOpening {inv : Invoice} {clock : ShopClock} {actor : Option Text} {L : Ledger} (hinv : inv ∈ db.rows.invoices)
      (hid : inv.id = y) (h : settleOpeningOnVoid H clock db.rows inv actor db.ledger = .ok () L) :
    Change H acct company y db { db with ledger := L }

/-- A request about invoice `y` was served: it touched nothing else, the tables are in order, and the invoice stands. -/
structure Serves (H : ContentHash) (acct : Role → ℕ) (company y : ℕ) (db db' : Db) :
    Prop extends Touches H y db db' where
  sound : Sound H acct company db'
  listed : y ∈ db'.rows.invoices.map Invoice.id

theorem Touches.of_eq (h : Touches H y db db') (hxy : y = x) : Touches H x db db' := hxy ▸ h

theorem serves_of (h : Touches H y db db' ∧ Sound H acct company db') (hy : y ∈ db'.rows.invoices.map Invoice.id) :
    Serves H acct company y db db' := ⟨h.1, h.2, hy⟩

/-- Settling the payments again writes on their sources alone. -/
theorem resettle_within {clock : ShopClock} {now : ℤ} (hs : Sound H acct company ⟨R, L, now⟩) (hinv : inv ∈ R.invoices)
    (h : resettleInvoicePayments H clock R inv actor none L = .ok () L') : Within H (R.ownedAs "payment" inv.id) L L' :=
  resettleInvoicePayments_within hs.inv (hs.seededFor hinv) hs.kept.payment_ids (fun _ hq => ⟨rfl, owned_payment hq⟩) h

/-- A new payment is of its invoice. -/
theorem Recorded.touches {p : Payment} (hp : Recorded db inv.id p) (hs : Sound H acct company db)
    (hinv : inv ∈ db.rows.invoices) (hlate : db.Ticked) :
    Touches H inv.id db { db with rows := db.rows.addPayment p } ∧
      Sound H acct company { db with rows := db.rows.addPayment p } := by
  obtain ⟨ht, hs'⟩ := Touches.addPayment hs hlate (hp.invoiceId ▸ hs.kept.invoice_lt _ hinv) hp.id hp.createdAt
    hp.amount
  exact ⟨ht.of_eq hp.invoiceId, hs'⟩

/-- Its receipt is posted on the sources of the invoice's payments. -/
theorem Recorded.within {p : Payment} {clock : ShopClock} {inv₁ : Invoice} (hp : Recorded db y p)
    (hs : Sound H acct company db₁)
    (hcalc : recalculateInvoice H { db with rows := db.rows.addPayment p } y actor = .ok db₁)
    (hinv₁ : inv₁ ∈ db₁.rows.invoices) (hid₁ : inv₁.id = y)
    (h : postPaymentReceived H clock db₁.rows p inv₁ actor db₁.ledger = .ok () L) :
    Within H (db₁.rows.ownedAs "payment" y) db₁.ledger L := by
  have hmem : p ∈ db₁.rows.paymentsOf inv₁ := by
    rw [Rows.paymentsOf, (recalculateInvoice_same hcalc).payments]
    exact List.mem_filter.mpr ⟨List.mem_append_right _ (List.mem_singleton_self p), by rw [hp.invoiceId, hid₁,
      beq_self_eq_true]⟩
  exact postPaymentReceived_within hs.inv (hs.seededFor hinv₁) hs.kept.payment_ids hmem
    (fun q hq => ⟨rfl, hid₁ ▸ owned_payment hq⟩) h

theorem Change.serves (h : Change H acct company y db db') (hs : Sound H acct company db) :
    Serves H acct company y db db' := by
  cases h with
  | addInvoice payload hy =>
    subst hy
    refine serves_of (Touches.addInvoice hs payload) ?_
    exact List.mem_map_of_mem (List.mem_append_right _ (List.mem_singleton_self _))
  | putLines lines hinv hid hdraft hnext hown hothers =>
    subst hid
    refine serves_of (Touches.putLines lines hs hnext (fun l hl => ?_) hothers) (List.mem_map_of_mem hinv)
    rcases hown l hl with hold | hnew
    · exact (hs.kept.line_lt l hold).trans_le hnext
    · exact hnew ▸ (hs.kept.invoice_lt _ hinv).trans_le hnext
  | @receive inv inv₁ p clock actor db₁ L hinv hid hp hlate hcalc hinv₁ hid₁ h =>
    subst hid
    obtain ⟨hadd, hs₁⟩ := hp.touches hs hinv hlate
    obtain ⟨hreckon, hs₂⟩ := recalculate_touches hs₁ hcalc
    obtain ⟨hpost, hs₃⟩ := Touches.post hs₂ (hid₁ ▸ hs₂.kept.invoice_lt _ hinv₁)
      ((hp.within hs₂ hcalc hinv₁ hid₁ h).mono fun st sid hown => hown.2)
    exact ⟨(hadd.trans hreckon).trans hpost, hs₃, hid₁ ▸ List.mem_map_of_mem hinv₁⟩
  | voidPayment at' hinv hid hp hpinv h =>
    subst hid
    obtain ⟨hput, hs₁⟩ := Touches.putPayment (v := some at') hs hp
    obtain ⟨hpost, hs₂⟩ := Touches.post hs₁ (hs.kept.invoice_lt _ hinv)
      ((resettle_within hs₁ hinv h).mono fun st sid hown => hown.2)
    exact ⟨(hput.of_eq hpinv).trans hpost, hs₂, List.mem_map_of_mem hinv⟩
  | resettle hinv hid h =>
    subst hid
    have hwithin := (resettle_within hs hinv h).mono fun st sid hown => hown.2
    exact serves_of (Touches.post hs (hs.kept.invoice_lt _ hinv) hwithin) (List.mem_map_of_mem hinv)
  | addAdjustment hinv hid ha hnew hamount =>
    subst hid
    obtain ⟨ht, hs'⟩ := Touches.addAdjustment hs (ha ▸ hs.kept.invoice_lt _ hinv) hnew hamount
    exact ⟨ht.of_eq ha, hs', List.mem_map_of_mem hinv⟩
  | @stamp inv inv' hinv hid hrow hsame =>
    subst hid
    refine serves_of (Touches.putInvoice inv' hs hinv hrow) ?_
    show inv.id ∈ (db.rows.putInvoice inv').invoices.map Invoice.id
    rw [putInvoice_ids]
    exact List.mem_map_of_mem hinv
  | transition hinv hid hstatus h =>
    subst hid
    refine serves_of (transition_touches hs hinv h) ?_
    rw [transition_rows h]
    split_ifs
    · exact List.mem_map_of_mem hinv
    · rw [putInvoice_ids]
      exact List.mem_map_of_mem hinv
  | recalculate h =>
    obtain ⟨inv, hinv, hid, -, hrows⟩ := recalculate_rows h
    refine serves_of (recalculate_touches hs h) ?_
    rw [hrows, putInvoice_ids]
    exact hid ▸ List.mem_map_of_mem hinv
  | adjust hinv hid h =>
    subst hid
    have hwithin := (h hs).mono fun st sid hown => hown.2
    exact serves_of (Touches.post hs (hs.kept.invoice_lt _ hinv) hwithin) (List.mem_map_of_mem hinv)
  | settleOpening hinv hid h =>
    subst hid
    refine serves_of (Touches.post hs (hs.kept.invoice_lt _ hinv) ?_) (List.mem_map_of_mem hinv)
    exact settleOpeningOnVoid_within hs.inv (hs.seededFor hinv) (.inl ⟨rfl, rfl⟩) h

/-- Changes to one invoice, one after another. -/
def Changes (H : ContentHash) (acct : Role → ℕ) (company y : ℕ) : Db → Db → Prop :=
  Relation.ReflTransGen (Change H acct company y)

theorem Changes.then (h : Change H acct company y db db₁) (h' : Changes H acct company y db₁ db') :
    Changes H acct company y db db' :=
  Relation.ReflTransGen.head h h'

theorem Changes.one (h : Change H acct company y db db') : Changes H acct company y db db' :=
  Relation.ReflTransGen.single h

/-- Changes to the invoices of a set. -/
def Moved (H : ContentHash) (acct : Role → ℕ) (company : ℕ) (S : ℕ → Prop) : Db → Db → Prop :=
  Relation.ReflTransGen fun db db' => ∃ y, S y ∧ Change H acct company y db db'

theorem Changes.moves (h : Changes H acct company y db db') (hy : S y) : Moved H acct company S db db' :=
  Relation.ReflTransGen.mono (fun _ _ hchange => ⟨y, hy, hchange⟩) _ _ h

theorem Moved.mono {T : ℕ → Prop} (h : Moved H acct company S db db') (hST : ∀ y, S y → T y) :
    Moved H acct company T db db' :=
  Relation.ReflTransGen.mono (fun _ _ hlink => hlink.imp fun y => And.imp_left (hST y)) _ _ h

/-- What each change keeps of its invoice, and the serving of the others too, all of them keep of every invoice. -/
theorem Moved.keeps {P : ℕ → Db → Prop}
    (hchange : ∀ {y db db'}, Change H acct company y db db' → Sound H acct company db → P y db → P y db')
    (hother : ∀ {x y db db'}, Serves H acct company x db db' → y ≠ x → P x db' → P y db → P y db')
    (h : Moved H acct company S db db') (hs : Sound H acct company db) (hold : ∀ y, P y db) :
    Sound H acct company db' ∧ ∀ y, P y db' := by
  induction h with
  | refl => exact ⟨hs, hold⟩
  | tail _ hlink ih =>
    obtain ⟨x, -, hone⟩ := hlink
    obtain ⟨hs₁, hall⟩ := ih
    have hmoved := hchange hone hs₁ (hall x)
    refine ⟨(hone.serves hs₁).sound, fun y => ?_⟩
    by_cases hy : y = x
    · exact hy ▸ hmoved
    · exact hother (hone.serves hs₁) hy hmoved (hall y)

theorem Moved.sound (h : Moved H acct company S db db') (hs : Sound H acct company db) : Sound H acct company db' :=
  (h.keeps (P := fun _ _ => True) (fun _ _ h => h) (fun _ _ _ h => h) hs fun _ => trivial).1

theorem Changes.sound (h : Changes H acct company y db db') (hs : Sound H acct company db) : Sound H acct company db' :=
  (h.moves (S := fun _ => True) trivial).sound hs

theorem Moved.sameRows (h : Moved H acct company S db db') (hs : Sound H acct company db) (hx : ¬S x) :
    SameRows x db.rows db'.rows := by
  induction h with
  | refl => exact .refl x db.rows
  | tail hfirst hlink ih =>
    obtain ⟨y, hy, hone⟩ := hlink
    exact ih.trans ((hone.serves (Moved.sound hfirst hs)).others x fun hxy => hx (hxy ▸ hy))

/-! ### Handlers -/

theorem addInvoiceLine_changes {line : LineIn} (h : addInvoiceLine H y line actor db = .ok db') :
    Changes H acct company y db db' := by
  unfold addInvoiceLine at h
  simp only [except_bind_ok] at h
  obtain ⟨inv, hget, u, hdraft, -, -, h⟩ := h
  obtain ⟨hinv, rfl, -⟩ := getInvoice_ok hget
  have hnew : ∀ l ∈ [line.row db.rows.nextId inv.id], l.invoiceId = inv.id := fun l hl => by
    rw [List.mem_singleton.mp hl]
    rfl
  refine Changes.then (.putLines _ hinv rfl ?_ (Nat.le_succ _) (fun l hl => ?_) fun x hx => ?_) (.one (.recalculate h))
  · have hopen := refuse_ok.mp hdraft
    tauto
  · exact (List.mem_append.mp hl).imp_right (hnew l)
  · exact filter_append_other InvoiceLine.invoiceId hnew hx

theorem editInvoiceLine_changes {lineId : ℕ} {netting : String} {edit : InvoiceLine → InvoiceLine}
    (hedit : ∀ l, (edit l).invoiceId = l.invoiceId) (h : editInvoiceLine H y lineId netting edit actor db = .ok db') :
    Changes H acct company y db db' := by
  obtain ⟨inv, hinv, rfl, hdraft, line, -, hline, h⟩ := editInvoiceLine_ok h
  have hown : (edit line).invoiceId = inv.id := (hedit line).trans hline
  refine Changes.then (.putLines _ hinv rfl hdraft (le_refl _) (fun l hl => ?_) fun x hx => ?_) (.one (.recalculate h))
  · obtain ⟨k, hk, rfl⟩ := List.mem_map.mp hl
    split_ifs
    · exact .inr hown
    · exact .inl hk
  · exact filter_putLine (by rwa [hown])

theorem verifyInvoice_changes (h : verifyInvoice y db = .ok db') : Changes H acct company y db db' := by
  obtain ⟨inv, hinv, rfl, rfl | rfl⟩ := verifyInvoice_ok h
  · exact .refl
  · exact .one (.stamp hinv rfl ⟨rfl, rfl, rfl, rfl, rfl, .inl rfl⟩ ⟨rfl, fun _ _ => rfl⟩)

theorem markInvoiceSent_changes (hs : Sound H acct company db) (h : markInvoiceSent H y actor db = .ok db') :
    Changes H acct company y db db' := by
  obtain ⟨inv, hinv, rfl, -, db₁, hchange, inv₁, hinv₁, hid₁, rfl⟩ := markInvoiceSent_ok h
  have hfirst : Changes H acct company inv.id db db₁ := by
    split_ifs at hchange
    · rw [hchange]
      exact .refl
    · exact .one (.transition hinv rfl (.inl rfl) hchange)
  have hstamps := ((hfirst.sound hs).kept.stamps inv₁ hinv₁).1
  exact hfirst.trans (Changes.one (.stamp hinv₁ hid₁ ⟨rfl, rfl, rfl, rfl, rfl, .inr ⟨db₁.now, rfl, hstamps⟩⟩
    ⟨rfl, fun _ _ => rfl⟩))

theorem recordPayment_changes {payload : PaymentCreateIn} (htick : db.Ticked)
    (h : recordPayment H zone y payload actor db = .ok db') : Changes H acct company y db db' := by
  obtain ⟨inv, hinv, rfl, -, p, hp, db₁, hcalc, inv₁, hinv₁, hid₁, L, hpost, rfl⟩ := recordPayment_ok h
  exact .one (.receive hinv rfl hp htick hcalc hinv₁ hid₁ hpost)

theorem voidPayment_changes {paymentId : ℕ} (h : voidPayment H zone y paymentId actor db = .ok db') :
    Changes H acct company y db db' := by
  unfold voidPayment at h
  rw [except_bind_ok] at h
  obtain ⟨inv, hget, h⟩ := h
  obtain ⟨hinv, rfl, -⟩ := getInvoice_ok hget
  split at h
  · cases h
  · rename_i p hfind
    have hpinv : p.invoiceId = inv.id := by
      have hfound := List.find?_some hfind
      simp only [Bool.and_eq_true, beq_iff_eq] at hfound
      exact hfound.2
    split at h
    · cases h
      exact .refl
    · simp only [except_bind_ok] at h
      obtain ⟨db₁, hpost, db₂, hcalc, inv₂, hget₂, h⟩ := h
      obtain ⟨L, hrule, rfl⟩ := post_ok.mp hpost
      obtain ⟨hinv₂, hid₂, -⟩ := getInvoice_ok hget₂
      refine Changes.then (.voidPayment db.now hinv rfl (List.mem_of_find?_eq_some hfind) hpinv hrule) ?_
      split at h
      · exact Changes.then (.recalculate hcalc) (.one (.transition hinv₂ hid₂ (.inl rfl) h))
      · cases h
        exact .one (.recalculate hcalc)

/-- The row, its rule, the payments and the figures: all the invoice's own. -/
theorem adjust_changes {a : InvoiceAdjustment}
    {rule : ShopClock → Rows → InvoiceAdjustment → Invoice → Option Text → LedgerM Unit}
    (hrule : ∀ {P : Text → Text → Prop} {clock : ShopClock} {R : Rows} {L L' : Ledger}, JournalInv H L →
      Seeded L inv.companyId acct → P "adjustment".toList (str a.id) → rule clock R a inv actor L = .ok () L' →
      Within H P L L')
    (hinv : inv ∈ db.rows.invoices) (ha : a.invoiceId = inv.id) (hid : a.id = db.rows.nextId) (hamount : 0 ≤ a.amount)
    (h : db.adjust H zone inv a rule actor = .ok db') : Changes H acct company inv.id db db' := by
  unfold Db.adjust at h
  simp only [except_bind_ok] at h
  obtain ⟨db₁, hpost, db₂, hsettle, h⟩ := h
  obtain ⟨L, hposted, rfl⟩ := post_ok.mp hpost
  obtain ⟨L', hsettled, rfl⟩ := post_ok.mp hsettle
  have hmem : a ∈ (db.rows.addAdjustment a).adjustmentsOf inv :=
    List.mem_filter.mpr ⟨List.mem_append_right _ (List.mem_singleton_self a), by rw [ha, beq_self_eq_true]⟩
  have hpost : Change H acct company inv.id ⟨db.rows.addAdjustment a, db.ledger, db.now⟩
      ⟨db.rows.addAdjustment a, L, db.now⟩ :=
    .adjust hinv rfl fun hs => hrule hs.inv (hs.seededFor hinv) ⟨rfl, owned_adjustment hmem⟩ hposted
  have hsettle : Change H acct company inv.id ⟨db.rows.addAdjustment a, L, db.now⟩
      ⟨db.rows.addAdjustment a, L', db.now⟩ :=
    .resettle hinv rfl hsettled
  exact Changes.then (.addAdjustment hinv rfl ha hid hamount)
    (Changes.then hpost (Changes.then hsettle (.one (.recalculate h))))

theorem issueCreditMemo_changes {amount : ℕ} {reason : Text}
    (h : issueCreditMemo H zone y amount reason actor db = .ok db') : Changes H acct company y db db' := by
  unfold issueCreditMemo at h
  simp only [except_bind_ok] at h
  obtain ⟨-, -, -, -, db₁, hcalc, inv, hget, -, -, h⟩ := h
  obtain ⟨hinv, rfl, -⟩ := getInvoice_ok hget
  exact Changes.then (.recalculate hcalc) (adjust_changes postCreditMemo_within hinv rfl rfl (Int.natCast_nonneg _) h)

theorem applyCustomerCredit_changes {amount : ℕ} (h : applyCustomerCredit H zone y amount actor db = .ok db') :
    Changes H acct company y db db' := by
  unfold applyCustomerCredit at h
  simp only [except_bind_ok] at h
  obtain ⟨-, -, -, -, -, -, -, -, db₁, hcalc, inv, hget, h⟩ := h
  obtain ⟨hinv, rfl, -⟩ := getInvoice_ok hget
  split at h
  · cases h
  · simp only [except_bind_ok] at h
    obtain ⟨-, -, -, -, h⟩ := h
    exact Changes.then (.recalculate hcalc)
      (adjust_changes postCreditApplication_within hinv rfl rfl (Int.natCast_nonneg _) h)

theorem processRefund_changes {amount : ℕ} {reason : Text} {refundMethod : Option Text}
    (h : processRefund H zone y amount reason refundMethod actor db = .ok db') : Changes H acct company y db db' := by
  unfold processRefund at h
  simp only [except_bind_ok] at h
  obtain ⟨inv, hget, -, -, -, -, -, -, h⟩ := h
  obtain ⟨hinv, rfl, -⟩ := getInvoice_ok hget
  obtain ⟨L, hrule, rfl⟩ := post_ok.mp h
  set a : InvoiceAdjustment := ⟨db.rows.nextId, inv.id, .refund, amount, stripOrNone (some reason),
    (stripOrNone refundMethod).map (·.map Char.toLower), db.now⟩
  have howned : (db.rows.addAdjustment a).owned inv.id "adjustment".toList (str a.id) :=
    .inr (.inr ⟨rfl, a, List.mem_append_right _ (List.mem_singleton_self a), rfl, rfl⟩)
  have hpost : Change H acct company inv.id ⟨db.rows.addAdjustment a, db.ledger, db.now⟩
      ⟨db.rows.addAdjustment a, L, db.now⟩ :=
    .adjust hinv rfl fun hs => postRefund_within hs.inv (hs.seededFor hinv) ⟨rfl, howned⟩ hrule
  exact Changes.then (.addAdjustment hinv rfl rfl rfl (Int.natCast_nonneg _)) (.one hpost)

/-- A void: the status, the adjustments' and the opening's postings, and nothing is owed. -/
theorem voidUnpaid_changes (hinv : inv ∈ db.rows.invoices) (h : voidUnpaid H zone db inv actor = .ok db') :
    Changes H acct company inv.id db db' := by
  unfold voidUnpaid at h
  simp only [except_bind_ok] at h
  obtain ⟨db₁, hchange, inv₁, hget₁, db₂, hrev, db₃, hsettle, h⟩ := h
  cases h
  obtain ⟨L, hswept, rfl⟩ := post_ok.mp hrev
  obtain ⟨L', hsettled, rfl⟩ := post_ok.mp hsettle
  obtain ⟨hinv₁, hid₁, -⟩ := getInvoice_ok hget₁
  have hsweep : Change H acct company inv.id db₁ ⟨db₁.rows, L, db₁.now⟩ := .adjust hinv₁ hid₁ fun hs =>
    reverseInvoiceAdjustments_within hs.inv (fun a ha => ⟨rfl, hid₁ ▸ owned_adjustment ha⟩) hswept
  have hsettle : Change H acct company inv.id ⟨db₁.rows, L, db₁.now⟩ ⟨db₁.rows, L', db₁.now⟩ :=
    .settleOpening hinv₁ hid₁ hsettled
  exact Changes.then (.transition hinv rfl (.inr rfl) hchange) (Changes.then hsweep (Changes.then hsettle
    (.one (.stamp hinv₁ hid₁ ⟨rfl, rfl, rfl, rfl, rfl, .inl rfl⟩ ⟨rfl, fun _ _ => rfl⟩))))

/-- A request that voids does it as the netting does. -/
theorem voidInvoice_ok (h : voidInvoice H zone y actor db = .ok db') :
    ∃ inv ∈ db.rows.invoices, inv.id = y ∧ inv.deleted = false ∧
      (db' = db ∨ inv.status ≠ .void ∧ voidUnpaid H zone db inv actor = .ok db') := by
  unfold voidInvoice at h
  rw [except_bind_ok] at h
  obtain ⟨inv, hget, h⟩ := h
  obtain ⟨hinv, rfl, hlive⟩ := getInvoice_ok hget
  refine ⟨inv, hinv, rfl, hlive, ?_⟩
  split at h
  · cases h
    exact .inl rfl
  · rename_i hopen
    rw [except_bind_ok] at h
    obtain ⟨-, -, h⟩ := h
    exact .inr ⟨hopen, h⟩

theorem voidInvoice_changes (h : voidInvoice H zone y actor db = .ok db') : Changes H acct company y db db' := by
  obtain ⟨inv, hinv, rfl, -, rfl | ⟨-, h⟩⟩ := voidInvoice_ok h
  · exact .refl
  · exact voidUnpaid_changes hinv h

/-- An accepted request moves the invoice it names. -/
theorem handle_changes {request : Request} (hs : Sound H acct company db) (htick : db.Ticked)
    (h : request.handle H zone actor db = .ok db') : Changes H acct company request.invoice db db' := by
  cases request with
  | addLine id line => exact addInvoiceLine_changes h
  | patchLine id line patch =>
    unfold Request.handle patchInvoiceLine at h
    have hedit : ∀ l, (patch.apply l).invoiceId = l.invoiceId := fun _ => rfl
    exact editInvoiceLine_changes hedit h
  | deleteLine id line =>
    unfold Request.handle deleteInvoiceLine at h
    have hedit : ∀ l : InvoiceLine, ({ l with deleted := true } : InvoiceLine).invoiceId = l.invoiceId := fun _ => rfl
    exact editInvoiceLine_changes hedit h
  | verify id => exact verifyInvoice_changes h
  | markSent id => exact markInvoiceSent_changes hs h
  | recordPayment id payload => exact recordPayment_changes htick h
  | voidPayment id payment => exact voidPayment_changes h
  | creditMemo id amount reason => exact issueCreditMemo_changes h
  | applyCredit id amount => exact applyCustomerCredit_changes h
  | refund id amount reason refundMethod => exact processRefund_changes h
  | voidInvoice id => exact voidInvoice_changes h

/-! ### New invoices -/

/-- A deposit is reckoned, and voided or credited where it still owes something. -/
theorem settleDeposit_changes {final dep : Invoice} {acc acc' : Settling}
    (h : settleDeposit H zone final actor acc dep = .ok acc') : Changes H acct company dep.id acc.db acc'.db := by
  unfold settleDeposit at h
  simp only [except_bind_ok] at h
  obtain ⟨db₁, hcalc, inv, hget, h⟩ := h
  obtain ⟨hinv, hid, -⟩ := getInvoice_ok hget
  refine Changes.then (.recalculate hcalc) (hid ▸ ?_)
  unfold closeOut at h
  split_ifs at h with howes hunpaid
  · rw [except_bind_ok] at h
    obtain ⟨db₂, hvoid, h⟩ := h
    cases h
    rw [find_db] at hvoid
    exact voidUnpaid_changes hinv hvoid
  · rw [except_bind_ok] at h
    obtain ⟨db₂, hcredit, h⟩ := h
    cases h
    rw [find_db] at hcredit
    exact adjust_changes postCreditMemo_within hinv rfl rfl howes.1.le hcredit
  · cases h
    rw [find_db]
    exact .refl

theorem settleDeposits_moves {final : Invoice} {deposits : List Invoice} {acc acc' : Settling}
    (h : settleDeposits H zone final actor deposits acc = .ok acc') :
    Moved H acct company (fun y => ∃ d ∈ deposits, d.id = y) acc.db acc'.db := by
  induction deposits generalizing acc with
  | nil =>
    cases h
    exact .refl
  | cons dep rest ih =>
    unfold settleDeposits at h
    rw [except_bind_ok] at h
    obtain ⟨acc₁, hone, h⟩ := h
    have hfirst : Moved H acct company (fun y => ∃ d ∈ dep :: rest, d.id = y) acc.db acc₁.db :=
      (settleDeposit_changes hone).moves ⟨dep, List.mem_cons_self, rfl⟩
    refine hfirst.trans ((ih h).mono fun y hy => ?_)
    obtain ⟨d, hd, rfl⟩ := hy
    exact ⟨d, List.mem_cons_of_mem dep hd, rfl⟩

/-- The invoices a step moves. -/
def InvoicingStep.moved (company : ℕ) (desk : DepositDesk) : InvoicingStep → ℕ → Prop
  | .create payload, y => y = desk.db.rows.nextId ∨ ∃ d ∈ desk.deposits company payload, d.id = y
  | .deposit _ _ _, y => y = desk.db.rows.nextId
  | .request named, y => y = named.invoice

theorem mem_deposits {desk : DepositDesk} {payload : FinalIn} {d : Invoice} (h : d ∈ desk.deposits company payload) :
    (desk.opened company payload).sameWork (desk.final company payload) d = true ∧ d.deposit = true ∧
      d ∈ desk.db.rows.invoices ∧ d.id ≠ desk.db.rows.nextId := by
  obtain ⟨hmem, hsel⟩ := List.mem_filter.mp ((List.mergeSort_perm _ _).mem_iff.mp h)
  simp only [Bool.and_eq_true, decide_eq_true_eq] at hsel
  obtain ⟨⟨⟨⟨hwork, hdeposit⟩, hne⟩, -⟩, -⟩ := hsel
  refine ⟨hwork, hdeposit, (List.mem_append.mp hmem).resolve_right fun hnew => hne ?_, hne⟩
  rw [List.mem_singleton.mp hnew]
  rfl

/-- The deposits are settled, and the draft gets its netting line. -/
theorem netted_moves {desk : DepositDesk} {payload : FinalIn} {acc : Settling} (hs : Sound H acct company desk.db)
    (h : settleDeposits H zone (desk.final company payload) actor (desk.deposits company payload)
      { db := (desk.opened company payload).db } = .ok acc) :
    Moved H acct company ((InvoicingStep.create payload).moved company desk) (desk.opened company payload).db
      (netFound acc (desk.final company payload)).1 := by
  have hs₁ : Sound H acct company (desk.opened company payload).db :=
    (Touches.addInvoice hs payload.toInvoiceIn).2
  have hloop : Moved H acct company (fun y => ∃ d ∈ desk.deposits company payload, d.id = y)
      (desk.opened company payload).db acc.db :=
    settleDeposits_moves h
  have hsettled : Moved H acct company ((InvoicingStep.create payload).moved company desk)
      (desk.opened company payload).db acc.db :=
    hloop.mono fun y hy => .inr hy
  rw [netFound_db]
  split_ifs
  · -- No deposit is the new draft, so it is a draft still.
    have hkept : SameRows desk.db.rows.nextId (desk.opened company payload).db.rows acc.db.rows :=
      hloop.sameRows hs₁ fun hdeposit => by
        obtain ⟨d, hd, hid⟩ := hdeposit
        exact (mem_deposits hd).2.2.2 hid
    have hfinal : desk.final company payload ∈ acc.db.rows.invoices :=
      (hkept.invoice _ rfl).mpr (List.mem_append_right _ (List.mem_singleton_self _))
    refine hsettled.trans ((Changes.one (.putLines _ hfinal rfl rfl (Nat.le_succ _) (fun l hl => ?_) fun x hx => ?_)).moves
      (.inl rfl))
    · exact (List.mem_append.mp hl).imp_right fun hline => by rw [List.mem_singleton.mp hline]; rfl
    · exact filter_append_other InvoiceLine.invoiceId (fun l hl => by rw [List.mem_singleton.mp hl]; rfl) hx
  · exact hsettled

theorem createWithDeposits_moves {desk desk' : DepositDesk} {payload : FinalIn} {outcome : DepositOutcome}
    (hs : Sound H acct company desk.db)
    (h : createWithDeposits H zone company payload actor desk = .ok (desk', outcome)) :
    Moved H acct company ((InvoicingStep.create payload).moved company desk) desk.db desk'.db := by
  obtain ⟨db₁, db₂, hcalc, rfl, hcase⟩ := createWithDeposits_ok h
  have hopened : Moved H acct company ((InvoicingStep.create payload).moved company desk) desk.db
      (desk.opened company payload).db :=
    (Changes.one (.addInvoice payload.toInvoiceIn rfl)).moves (.inl rfl)
  have hlast : Moved H acct company ((InvoicingStep.create payload).moved company desk) db₁ db₂ :=
    (Changes.one (.recalculate hcalc)).moves (.inl rfl)
  obtain ⟨rfl, -, -⟩ | ⟨acc, hsettled, rfl, -⟩ := hcase
  · exact hopened.trans hlast
  · exact (hopened.trans (netted_moves hs hsettled.loop)).trans hlast

theorem createDepositInvoice_moves {desk desk' : DepositDesk} {number : String} {estimate : EstimateRef} {amount : ℤ}
    (h : createDepositInvoice H zone company number estimate amount actor desk = .ok desk') :
    Moved H acct company (· = desk.db.rows.nextId) desk.db desk'.db := by
  unfold createDepositInvoice at h
  split at h
  · cases h
    exact .refl
  · simp only [except_bind_ok] at h
    obtain ⟨-, -, -, -, -, -, db₁, hcalc, inv, hget, db₂, hsent, h⟩ := h
    cases h
    obtain ⟨hinv, hid, -⟩ := getInvoice_ok hget
    exact (Changes.then (.addInvoice _ rfl) (Changes.then (.recalculate hcalc)
      (.one (.transition hinv hid (.inl rfl) hsent)))).moves rfl

/-! ### Calls -/

theorem step_moves {desk desk' : DepositDesk} {step : InvoicingStep} (hs : Sound H acct company desk.db)
    (htick : desk.db.Ticked) (h : desk.step H zone company actor step = .ok desk') :
    Moved H acct company (step.moved company desk) desk.db desk'.db := by
  cases step with
  | create payload =>
    simp only [DepositDesk.step, except_bind_ok] at h
    obtain ⟨⟨desk₁, outcome⟩, hcreate, h⟩ := h
    cases h
    exact createWithDeposits_moves hs hcreate
  | deposit number estimate amount => exact createDepositInvoice_moves h
  | request request =>
    simp only [DepositDesk.step, except_bind_ok] at h
    obtain ⟨db', hrequest, h⟩ := h
    cases h
    exact (handle_changes hs htick hrequest).moves rfl

theorem Sound.tick {desk : DepositDesk} (hs : Sound H acct company desk.db) (wait : ℕ) :
    Sound H acct company (desk.tick wait).db ∧ (desk.tick wait).db.Ticked := by
  have hk := hs.kept
  have hle : desk.db.now < (desk.tick wait).db.now := by
    show desk.db.now < desk.db.now + 1 + wait
    omega
  refine ⟨⟨hs.inv, hs.seeded, ⟨hk.on, hk.invoice_ids, hk.payment_ids, hk.adjustment_ids, hk.invoice_lt, hk.payment_lt,
    hk.adjustment_lt, hk.line_lt, hk.plain, fun i hi => ?_, hk.order, fun p hp => ?_, hk.paid, hk.adjusted⟩, hs.known⟩,
    fun p hp => ?_⟩
  · exact ⟨(hk.stamps i hi).1.trans hle.le, (hk.stamps i hi).2⟩
  · exact (hk.recorded p hp).trans hle.le
  · exact (hk.recorded p hp).trans_lt hle

/-- A call leaves the desk as the tick found it, or its step was taken. -/
theorem serve_ok (H : ContentHash) (zone : ShopZone) (company : ℕ) (desk : DepositDesk) (call : InvoicingCall) :
    desk.serve H zone company call = desk.tick call.wait ∨
      (desk.tick call.wait).step H zone company (some call.actor) call.step =
        .ok (desk.serve H zone company call) := by
  unfold DepositDesk.serve
  cases (desk.tick call.wait).step H zone company (some call.actor) call.step with
  | error e => exact .inl rfl
  | ok desk' => exact .inr rfl

/-- What every change keeps, every run keeps. -/
theorem bill_keeps {P : ℕ → Db → Prop}
    (htick : ∀ {y} {desk : DepositDesk} (wait : ℕ), P y desk.db → P y (desk.tick wait).db)
    (hchange : ∀ {y db db'}, Change H acct company y db db' → Sound H acct company db → P y db → P y db')
    (hother : ∀ {x y db db'}, Serves H acct company x db db' → y ≠ x → P x db' → P y db → P y db')
    (zone : ShopZone) (calls : List InvoicingCall) {desk : DepositDesk} (hs : Sound H acct company desk.db)
    (h : ∀ y, P y desk.db) :
    Sound H acct company (desk.bill H zone company calls).db ∧ ∀ y, P y (desk.bill H zone company calls).db := by
  induction calls generalizing desk with
  | nil => exact ⟨hs, h⟩
  | cons call calls ih =>
    obtain ⟨hs₁, hlate⟩ := hs.tick call.wait
    have hticked : ∀ y, P y (desk.tick call.wait).db := fun y => htick call.wait (h y)
    obtain hrefused | hok := serve_ok H zone company desk call
    · exact ih (hrefused ▸ hs₁) (hrefused ▸ hticked)
    · obtain ⟨hs₂, hmoved⟩ := (step_moves hs₁ hlate hok).keeps hchange hother hs₁ hticked
      exact ih hs₂ hmoved

/-! ### Every entry has its row -/

/-- Each entry is filed under an invoice of the tables, or under a payment or an adjustment of one. -/
def Db.Filed (db : Db) : Prop :=
  ∀ e ∈ db.ledger.entries, ∃ inv ∈ db.rows.invoices, db.rows.owned inv.id e.sourceType e.sourceId

theorem Serves.filed (h : Serves H acct company y db db') (hfiled : db.Filed) : db'.Filed := by
  intro e he
  by_cases hown : db'.rows.owned y e.sourceType e.sourceId
  · obtain ⟨inv, hinv, hid⟩ := List.mem_map.mp h.listed
    exact ⟨inv, hinv, hid ▸ hown⟩
  · obtain ⟨inv, hinv, hold⟩ := hfiled e ((h.within.mem_iff hown).mp he)
    have hne : inv.id ≠ y := fun hid => hown (h.grows _ _ (hid ▸ hold))
    have hsame := h.others inv.id hne
    exact ⟨inv, (hsame.invoice inv rfl).mpr hinv, hsame.owned ▸ hold⟩

theorem bill_filed (zone : ShopZone) (calls : List InvoicingCall) {desk : DepositDesk}
    (hs : Sound H acct company desk.db) (hfiled : desk.db.Filed) :
    Sound H acct company (desk.bill H zone company calls).db ∧ (desk.bill H zone company calls).db.Filed := by
  have hkept := bill_keeps (P := fun _ db => db.Filed) (fun _ h => h) (fun hchange hs h => (hchange.serves hs).filed h)
    (fun _ _ h _ => h) zone calls hs fun _ => hfiled
  exact ⟨hkept.1, hkept.2 0⟩

/-- After any calls the journal is in order, and each entry is filed under exactly one invoice of the tables. -/
theorem every_entry_has_one_invoice (zone : ShopZone) (calls : List InvoicingCall) (desk : DepositDesk)
    (hs : Sound H acct company desk.db) (hfiled : desk.db.Filed) :
    let db := (desk.bill H zone company calls).db
    JournalInv H db.ledger ∧
      ∀ e ∈ db.ledger.entries, ∃! inv, inv ∈ db.rows.invoices ∧ db.rows.owned inv.id e.sourceType e.sourceId := by
  obtain ⟨hsound, hrows⟩ := bill_filed zone calls hs hfiled
  refine ⟨hsound.inv, fun e he => ?_⟩
  obtain ⟨inv, hinv, hown⟩ := hrows e he
  refine ⟨inv, ⟨hinv, hown⟩, fun other hother => ?_⟩
  by_cases hid : other.id = inv.id
  · exact hsound.kept.eq_of_id hother.1 hinv hid
  · exact absurd hown (hsound.kept.owned_disjoint hid hother.2)

/-- Posting is on, and nothing has been billed yet. -/
def emptyDesk : DepositDesk where
  db := ⟨⟨[⟨0, true, none, [("other".toList, .operatingBank)], [], [], []⟩], [], [], [], [], [], 0⟩, Ledger.seeded, 0⟩
  estimateOf := fun _ => none
  netted := []

def officeCalls (steps : List InvoicingStep) : List InvoicingCall := steps.map (⟨"pat".toList, 0, ·⟩)

def doorDraft (number : String) (jobId : Option ℕ) (cents : ℤ) : InvoicingStep :=
  .create ⟨⟨number, some 7, jobId, some 0, none, 0, false, [⟨"door", cents, false, none⟩]⟩, none⟩

/-- A deposit of 100.00 for a job, and an invoice of 40.00 beside it, verified and sent. -/
def twoIssued : List InvoicingStep :=
  [.deposit "DEP" ⟨5, "EST-5", some 9, some 7, 50000⟩ 10000, doorDraft "B" none 4000, .request (.verify 2),
    .request (.markSent 2)]

/-- The invoice is paid beyond its balance, refunded in part, the payment voided and the invoice credited. -/
def onSecond : List InvoicingStep :=
  [.request (.recordPayment 2 ⟨some 5000, false, "cash".toList, none, true, none⟩),
    .request (.refund 2 1000 "over".toList (some "cash".toList)), .request (.voidPayment 2 4),
    .request (.creditMemo 2 1500 "late".toList)]

/-- The deposit is paid in part, and the job's final nets it and credits the rest. -/
def onJob : List InvoicingStep :=
  [.request (.recordPayment 0 ⟨some 6000, false, "cash".toList, none, false, none⟩), doorDraft "C" (some 9) 50000]

/-- Where those calls lead. -/
def creditedBooks : Db := (emptyDesk.bill plainHash utcZone 0 (officeCalls (twoIssued ++ onSecond ++ onJob))).db

theorem emptyDesk_sound : Sound plainHash seededAcct 0 emptyDesk.db where
  inv := .of_empty rfl chartOk_seeded
  seeded := seeded_seededAcct
  kept := by constructor <;> simp [emptyDesk, Rows.ledgerPostingEnabled, Rows.glSettings]
  known := fun e he => absurd he List.not_mem_nil

theorem emptyDesk_filed : emptyDesk.db.Filed := fun _ he => absurd he List.not_mem_nil

theorem every_entry_has_one_invoice_netted :
    creditedBooks.ledger.entries.length = 8 ∧ JournalInv plainHash creditedBooks.ledger ∧
      ∀ e ∈ creditedBooks.ledger.entries, ∃! inv, inv ∈ creditedBooks.rows.invoices ∧
        creditedBooks.rows.owned inv.id e.sourceType e.sourceId :=
  ⟨by decide +kernel, every_entry_has_one_invoice utcZone (officeCalls (twoIssued ++ onSecond ++ onJob)) emptyDesk
    emptyDesk_sound emptyDesk_filed⟩

/-! ### The others -/

/-- What is recorded of an invoice: its rows, and the entries attributed to it. -/
structure Undisturbed (inv : Invoice) (db db' : Db) : Prop where
  rows : SameRows inv.id db.rows db'.rows
  entries : db'.ledger.entries.filter (attributed db'.rows inv) = db.ledger.entries.filter (attributed db.rows inv)
  accounts : db'.ledger.accounts = db.ledger.accounts

theorem Undisturbed.trans {db'' : Db} (h : Undisturbed inv db db') (h' : Undisturbed inv db' db'') :
    Undisturbed inv db db'' :=
  ⟨h.rows.trans h'.rows, h'.entries.trans h.entries, h'.accounts.trans h.accounts⟩

/-- The step names the invoice, or makes a final that it is a deposit of. -/
def InvoicingStep.reaches (inv : Invoice) (estimate : Option ℕ) : InvoicingStep → Prop
  | .create payload => inv.deposit = true ∧ ((payload.jobId ≠ none ∧ inv.jobId = payload.jobId) ∨
      (payload.estimateId ≠ none ∧ estimate = payload.estimateId))
  | .deposit _ _ _ => False
  | .request named => named.invoice = inv.id

end Gdx
