import GdxDispatch.Billing.Api
import GdxDispatch.Ledger.RuleFrames
import GdxDispatch.Lib.Keyed

/-! What a change to one invoice can touch.

    It writes rows of that invoice and posts under its sources. The rows of the other invoices stay, and so does every
    entry of theirs. Beside that, the tables stay in order: keys are unique, ids come from one counter, stamps do not
    run ahead of the clock. -/

namespace Gdx
open Lib

variable {H : ContentHash} {zone : ShopZone} {acct : Role → ℕ} {company : ℕ} {R R' : Rows} {L L' : Ledger}
  {db db' db₁ : Db} {actor : Option Text} {x y : ℕ}

/-! ### Peeling handlers -/

theorem refuse_ok {c : Prop} [Decidable c] {status : ℕ} {detail : String} {u : Unit} :
    refuse c status detail = .ok u ↔ ¬ c := by
  unfold refuse
  by_cases hc : c
  · simp [hc]
  · simp [hc]

theorem post_ok {rule : LedgerM Unit} :
    db.post rule = .ok db' ↔ ∃ L, rule db.ledger = .ok () L ∧ db' = { db with ledger := L } := by
  unfold Db.post
  cases h : rule db.ledger with
  | ok u L => simp [eq_comm]
  | error e L => simp

theorem getInvoice_ok {invoice : Invoice} (h : db.getInvoice x = .ok invoice) :
    invoice ∈ db.rows.invoices ∧ invoice.id = x ∧ invoice.deleted = false := by
  unfold Db.getInvoice at h
  cases hf : db.rows.invoices.find? fun i => i.id == x && !i.deleted with
  | none => rw [hf] at h; cases h
  | some i =>
    rw [hf] at h
    cases h
    have hp := List.find?_some hf
    simp only [Bool.and_eq_true, beq_iff_eq, Bool.not_eq_true'] at hp
    exact ⟨List.mem_of_find?_eq_some hf, hp⟩

/-! ### One invoice's rows -/

/-- The sources an invoice's entries are filed under: its own, its payments', its adjustments'. -/
def Rows.owned (R : Rows) (x : ℕ) (st sid : Text) : Prop :=
  (st = "invoice".toList ∧ sid = str x) ∨
  (st = "payment".toList ∧ ∃ p ∈ R.payments, p.invoiceId = x ∧ sid = str p.id) ∨
  (st = "adjustment".toList ∧ ∃ a ∈ R.adjustments, a.invoiceId = x ∧ sid = str a.id)

/-- Nothing of invoice `x` differs between the two. -/
structure SameRows (x : ℕ) (R R' : Rows) : Prop where
  settings : R'.settings = R.settings
  invoice : ∀ i : Invoice, i.id = x → (i ∈ R'.invoices ↔ i ∈ R.invoices)
  payments : R'.payments.filter (·.invoiceId == x) = R.payments.filter (·.invoiceId == x)
  adjustments : R'.adjustments.filter (·.invoiceId == x) = R.adjustments.filter (·.invoiceId == x)
  lines : R'.lines.filter (·.invoiceId == x) = R.lines.filter (·.invoiceId == x)

theorem SameRows.refl (x : ℕ) (R : Rows) : SameRows x R R := ⟨rfl, fun _ _ => Iff.rfl, rfl, rfl, rfl⟩

theorem SameRows.trans {R'' : Rows} (h : SameRows x R R') (h' : SameRows x R' R'') : SameRows x R R'' :=
  ⟨h'.settings.trans h.settings, fun i hi => (h'.invoice i hi).trans (h.invoice i hi),
    h'.payments.trans h.payments, h'.adjustments.trans h.adjustments, h'.lines.trans h.lines⟩

theorem SameRows.paymentsOf {i : Invoice} (h : SameRows i.id R R') : R'.paymentsOf i = R.paymentsOf i := h.payments

theorem SameRows.adjustmentsOf {i : Invoice} (h : SameRows i.id R R') :
    R'.adjustmentsOf i = R.adjustmentsOf i := h.adjustments

theorem SameRows.liveLines {i : Invoice} (h : SameRows i.id R R') : R'.liveLines i = R.liveLines i := by
  have hsplit : ∀ T : Rows, T.liveLines i = (T.lines.filter (·.invoiceId == i.id)).filter (!·.deleted) := by
    intro T
    rw [Rows.liveLines, List.filter_filter]
    exact List.filter_congr fun l _ => Bool.and_comm _ _
  rw [hsplit, hsplit, h.lines]

theorem SameRows.owned (h : SameRows x R R') : R'.owned x = R.owned x := by
  have hpay : ∀ T : Rows, ∀ sid, (∃ p ∈ T.payments, p.invoiceId = x ∧ sid = str p.id) ↔
      ∃ p ∈ T.payments.filter (·.invoiceId == x), sid = str p.id := by
    intro T sid
    simp [List.mem_filter, and_assoc]
  have hadj : ∀ T : Rows, ∀ sid, (∃ a ∈ T.adjustments, a.invoiceId = x ∧ sid = str a.id) ↔
      ∃ a ∈ T.adjustments.filter (·.invoiceId == x), sid = str a.id := by
    intro T sid
    simp [List.mem_filter, and_assoc]
  funext st sid
  unfold Rows.owned
  rw [hpay, hpay, hadj, hadj, h.payments, h.adjustments]

/-! ### Tables in order -/

/-- The tables as the API keeps them. -/
structure Rows.Kept (company : ℕ) (now : ℤ) (R : Rows) : Prop where
  on : R.ledgerPostingEnabled company = true
  invoice_ids : (R.invoices.map (·.id)).Nodup
  payment_ids : (R.payments.map (·.id)).Nodup
  adjustment_ids : (R.adjustments.map (·.id)).Nodup
  invoice_lt : ∀ i ∈ R.invoices, i.id < R.nextId
  payment_lt : ∀ p ∈ R.payments, p.id < R.nextId ∧ p.invoiceId < R.nextId
  adjustment_lt : ∀ a ∈ R.adjustments, a.id < R.nextId ∧ a.invoiceId < R.nextId
  line_lt : ∀ l ∈ R.lines, l.invoiceId < R.nextId
  plain : ∀ i ∈ R.invoices, i.companyId = company
  stamps : ∀ i ∈ R.invoices, i.createdAt ≤ now ∧ ∀ t ∈ i.sentAt, i.createdAt ≤ t
  order : R.payments.Pairwise fun p q => p.createdAt < q.createdAt
  recorded : ∀ p ∈ R.payments, p.createdAt ≤ now
  paid : ∀ p ∈ R.payments, 0 ≤ p.amount
  adjusted : ∀ a ∈ R.adjustments, 0 ≤ a.amount

/-- The database between requests: the journal in order, the chart seeded, the tables kept, and no
    entry of a source that does not exist yet. -/
structure Sound (H : ContentHash) (acct : Role → ℕ) (company : ℕ) (db : Db) : Prop where
  inv : JournalInv H db.ledger
  seeded : Seeded db.ledger company acct
  kept : db.rows.Kept company db.now
  known : ∀ e ∈ db.ledger.entries, ∀ id, db.rows.nextId ≤ id → e.sourceId ≠ str id

theorem Sound.seededFor {i : Invoice} (hs : Sound H acct company db) (hi : i ∈ db.rows.invoices) :
    Seeded db.ledger i.companyId acct := by
  rw [hs.kept.plain i hi]
  exact hs.seeded

/-- A request about invoice `y` took `db` to `db'`. -/
structure Touches (H : ContentHash) (y : ℕ) (db db' : Db) : Prop where
  within : Within H (db'.rows.owned y) db.ledger db'.ledger
  grows : ∀ st sid, db.rows.owned y st sid → db'.rows.owned y st sid
  nextId : db.rows.nextId ≤ db'.rows.nextId
  now : db'.now = db.now
  others : ∀ x ≠ y, SameRows x db.rows db'.rows

theorem Touches.trans (h : Touches H y db db₁) (h' : Touches H y db₁ db') : Touches H y db db' :=
  ⟨(h.within.mono h'.grows).trans h'.within, fun st sid ho => h'.grows st sid (h.grows st sid ho),
    h.nextId.trans h'.nextId, h'.now.trans h.now, fun x hx => (h.others x hx).trans (h'.others x hx)⟩

/-- Sources of different invoices are different. -/
theorem Rows.Kept.owned_disjoint {now : ℤ} (hk : R.Kept company now) (hne : x ≠ y) {st sid : Text}
    (hx : R.owned x st sid) : ¬ R.owned y st sid := by
  intro hy
  rcases hx with ⟨rfl, rfl⟩ | ⟨rfl, p, hp, hpx, rfl⟩ | ⟨rfl, a, ha, hax, rfl⟩
  · rcases hy with ⟨-, hid⟩ | ⟨hst, -⟩ | ⟨hst, -⟩
    · exact hne (str_inj.mp hid)
    · exact absurd hst (by decide)
    · exact absurd hst (by decide)
  · rcases hy with ⟨hst, -⟩ | ⟨-, q, hq, hqy, hid⟩ | ⟨hst, -⟩
    · exact absurd hst (by decide)
    · have heq := List.inj_on_of_nodup_map hk.payment_ids hp hq (str_inj.mp hid)
      rw [← hpx, ← hqy, heq] at hne
      exact hne rfl
    · exact absurd hst (by decide)
  · rcases hy with ⟨hst, -⟩ | ⟨hst, -⟩ | ⟨-, b, hb, hby, hid⟩
    · exact absurd hst (by decide)
    · exact absurd hst (by decide)
    · have heq := List.inj_on_of_nodup_map hk.adjustment_ids ha hb (str_inj.mp hid)
      rw [← hax, ← hby, heq] at hne
      exact hne rfl

/-- The ids of an invoice's sources have been handed out. -/
theorem Rows.Kept.owned_lt {now : ℤ} (hk : R.Kept company now) (hy : y < R.nextId) {st : Text} {id : ℕ}
    (h : R.owned y st (str id)) : id < R.nextId := by
  rcases h with ⟨-, hid⟩ | ⟨-, p, hp, -, hid⟩ | ⟨-, a, ha, -, hid⟩
  · rw [str_inj.mp hid]; exact hy
  · rw [str_inj.mp hid]; exact (hk.payment_lt p hp).1
  · rw [str_inj.mp hid]; exact (hk.adjustment_lt a ha).1

/-- A posting rule run in the request. -/
theorem Touches.post (hs : Sound H acct company db) (hy : y < db.rows.nextId)
    (hw : Within H (db.rows.owned y) db.ledger L) :
    Touches H y db { db with ledger := L } ∧ Sound H acct company { db with ledger := L } := by
  refine ⟨⟨hw, fun _ _ h => h, le_refl _, rfl, fun x _ => .refl x _⟩,
    ⟨hw.inv, hs.seeded.congr hw.accounts, hs.kept, ?_⟩⟩
  intro e he id hid hsid
  have hno : ¬ db.rows.owned y e.sourceType e.sourceId := by
    rw [hsid]
    exact fun ho => absurd (hs.kept.owned_lt hy ho) (Nat.not_lt.mpr hid)
  exact hs.known e ((hw.mem_iff hno).mp he) id hid hsid

/-- An edit of the invoice's rows. -/
theorem Touches.edit (hs : Sound H acct company db) (hk : R'.Kept company db.now)
    (hgrows : ∀ st sid, db.rows.owned y st sid → R'.owned y st sid) (hnext : db.rows.nextId ≤ R'.nextId)
    (hothers : ∀ x ≠ y, SameRows x db.rows R') :
    Touches H y db { db with rows := R' } ∧ Sound H acct company { db with rows := R' } :=
  ⟨⟨.refl hs.inv, hgrows, hnext, rfl, hothers⟩,
    ⟨hs.inv, hs.seeded, hk, fun e he id hid => hs.known e he id (hnext.trans hid)⟩⟩

/-! ### Edits of rows -/

theorem mem_putInvoice {i j : Invoice} : j ∈ (R.putInvoice i).invoices ↔
    (j ∈ R.invoices ∧ j.id ≠ i.id) ∨ (j = i ∧ ∃ k ∈ R.invoices, k.id = i.id) := by
  simp only [Rows.putInvoice, List.mem_map]
  constructor
  · rintro ⟨k, hk, rfl⟩
    by_cases hid : k.id = i.id
    · rw [if_pos hid]; exact Or.inr ⟨rfl, k, hk, hid⟩
    · rw [if_neg hid]; exact Or.inl ⟨hk, hid⟩
  · rintro (⟨hj, hid⟩ | ⟨rfl, k, hk, hid⟩)
    · exact ⟨j, hj, by rw [if_neg hid]⟩
    · exact ⟨k, hk, by rw [if_pos hid]⟩

theorem putInvoice_putInvoice {i i' : Invoice} (hid : i'.id = i.id) :
    (R.putInvoice i).putInvoice i' = R.putInvoice i' := by
  unfold Rows.putInvoice
  congr 1
  simp only [List.map_map]
  refine List.map_congr_left fun j _ => ?_
  simp only [Function.comp_apply]
  by_cases hj : j.id = i.id
  · rw [if_pos hj, if_pos hid.symm, if_pos (hj.trans hid.symm)]
  · rw [if_neg hj]

/-- What an edit of an invoice row leaves alone. -/
structure Recast (i i' : Invoice) : Prop where
  id : i'.id = i.id
  companyId : i'.companyId = i.companyId
  deleted : i'.deleted = i.deleted
  totalsLocked : i'.totalsLocked = i.totalsLocked
  createdAt : i'.createdAt = i.createdAt
  sentAt : i'.sentAt = i.sentAt ∨ ∃ t, i'.sentAt = some t ∧ i.createdAt ≤ t

theorem Rows.Kept.putInvoice {now : ℤ} {i i' : Invoice} (hk : R.Kept company now) (hi : i ∈ R.invoices)
    (hr : Recast i i') : (R.putInvoice i').Kept company now := by
  have hmem : ∀ j ∈ (R.putInvoice i').invoices, j ∈ R.invoices ∨ j = i' := by
    intro j hj
    rcases mem_putInvoice.mp hj with ⟨hj, -⟩ | ⟨hj, -⟩
    · exact Or.inl hj
    · exact Or.inr hj
  have hids : (R.putInvoice i').invoices.map (·.id) = R.invoices.map (·.id) := by
    simp only [Rows.putInvoice, List.map_map]
    refine List.map_congr_left fun j _ => ?_
    simp only [Function.comp_apply]
    split_ifs with hid
    · exact hid.symm
    · rfl
  refine ⟨hk.on, hids ▸ hk.invoice_ids, hk.payment_ids, hk.adjustment_ids, ?_, hk.payment_lt, hk.adjustment_lt,
    hk.line_lt, ?_, ?_, hk.order, hk.recorded, hk.paid, hk.adjusted⟩
  · intro j hj
    rcases hmem j hj with hj | rfl
    · exact hk.invoice_lt j hj
    · rw [hr.id]; exact hk.invoice_lt i hi
  · intro j hj
    rcases hmem j hj with hj | rfl
    · exact hk.plain j hj
    · rw [hr.companyId]; exact hk.plain i hi
  · intro j hj
    rcases hmem j hj with hj | rfl
    · exact hk.stamps j hj
    · rw [hr.createdAt]
      refine ⟨(hk.stamps i hi).1, fun t ht => ?_⟩
      rcases hr.sentAt with hsame | ⟨u, hu, hle⟩
      · rw [hsame] at ht
        exact (hk.stamps i hi).2 t ht
      · rw [hu, Option.mem_some_iff] at ht
        rw [← ht]
        exact hle

theorem sameRows_putInvoice {i : Invoice} (hne : x ≠ i.id) : SameRows x R (R.putInvoice i) := by
  refine ⟨rfl, fun j hj => ?_, rfl, rfl, rfl⟩
  rw [mem_putInvoice]
  constructor
  · rintro (⟨hmem, -⟩ | ⟨rfl, -⟩)
    · exact hmem
    · exact absurd hj.symm hne
  · intro hmem
    exact Or.inl ⟨hmem, fun hid => hne (hj.symm.trans hid)⟩

theorem Touches.putInvoice {i : Invoice} (i' : Invoice) (hs : Sound H acct company db) (hi : i ∈ db.rows.invoices)
    (hr : Recast i i') :
    Touches H i.id db (db.putInvoice i') ∧ Sound H acct company (db.putInvoice i') :=
  Touches.edit hs (hs.kept.putInvoice hi hr) (fun _ _ h => h) (le_refl _)
    fun x hx => sameRows_putInvoice (by rw [hr.id]; exact hx)

/-- A new payment of an invoice, later than every other. -/
theorem Touches.addPayment {p : Payment} (hs : Sound H acct company db)
    (hlate : ∀ q ∈ db.rows.payments, q.createdAt < db.now) (hy : p.invoiceId < db.rows.nextId)
    (hid : p.id = db.rows.nextId) (hnow : p.createdAt = db.now) (hpaid : 0 ≤ p.amount) :
    Touches H p.invoiceId db { db with rows := db.rows.addPayment p } ∧
      Sound H acct company { db with rows := db.rows.addPayment p } := by
  have hk := hs.kept
  have hsplit : ∀ q ∈ (db.rows.addPayment p).payments, q ∈ db.rows.payments ∨ q = p := fun q hq => by
    simpa [Rows.addPayment] using hq
  refine Touches.edit hs ⟨hk.on, hk.invoice_ids, ?_, hk.adjustment_ids, ?_, ?_, ?_, ?_, hk.plain, hk.stamps, ?_, ?_,
    ?_, hk.adjusted⟩ ?_ (Nat.le_succ _) ?_
  · simp only [Rows.addPayment, List.map_append, List.map_cons, List.map_nil]
    rw [List.nodup_append]
    refine ⟨hk.payment_ids, List.nodup_singleton _, fun a ha b hb hab => ?_⟩
    obtain ⟨q, hq, rfl⟩ := List.mem_map.mp ha
    rw [List.mem_singleton.mp hb, hid] at hab
    exact absurd (hk.payment_lt q hq).1 (by omega)
  · exact fun i hi => Nat.lt_succ_of_lt (hk.invoice_lt i hi)
  · intro q hq
    rcases hsplit q hq with hq | rfl
    · exact ⟨Nat.lt_succ_of_lt (hk.payment_lt q hq).1, Nat.lt_succ_of_lt (hk.payment_lt q hq).2⟩
    · exact ⟨by rw [hid]; exact Nat.lt_succ_self _, Nat.lt_succ_of_lt hy⟩
  · exact fun a ha => ⟨Nat.lt_succ_of_lt (hk.adjustment_lt a ha).1, Nat.lt_succ_of_lt (hk.adjustment_lt a ha).2⟩
  · exact fun l hl => Nat.lt_succ_of_lt (hk.line_lt l hl)
  · simp only [Rows.addPayment]
    refine List.pairwise_append.mpr ⟨hk.order, List.pairwise_singleton _ _, fun q hq r hr => ?_⟩
    rw [List.mem_singleton.mp hr, hnow]
    exact hlate q hq
  · intro q hq
    rcases hsplit q hq with hq | rfl
    · exact hk.recorded q hq
    · rw [hnow]
  · intro q hq
    rcases hsplit q hq with hq | rfl
    · exact hk.paid q hq
    · exact hpaid
  · rintro st sid (h | ⟨hst, q, hq, hqy, hsid⟩ | h)
    · exact Or.inl h
    · exact Or.inr (Or.inl ⟨hst, q, List.mem_append_left _ hq, hqy, hsid⟩)
    · exact Or.inr (Or.inr h)
  · intro x hx
    refine ⟨rfl, fun _ _ => Iff.rfl, ?_, rfl, rfl⟩
    simp [Rows.addPayment, List.filter_append, hx.symm]

/-- A new adjustment of an invoice. -/
theorem Touches.addAdjustment {a : InvoiceAdjustment} (hs : Sound H acct company db)
    (hy : a.invoiceId < db.rows.nextId) (hid : a.id = db.rows.nextId) (hamount : 0 ≤ a.amount) :
    Touches H a.invoiceId db { db with rows := db.rows.addAdjustment a } ∧
      Sound H acct company { db with rows := db.rows.addAdjustment a } := by
  have hk := hs.kept
  have hsplit : ∀ b ∈ (db.rows.addAdjustment a).adjustments, b ∈ db.rows.adjustments ∨ b = a := fun b hb => by
    simpa [Rows.addAdjustment] using hb
  refine Touches.edit hs ⟨hk.on, hk.invoice_ids, hk.payment_ids, ?_, ?_, ?_, ?_, ?_, hk.plain, hk.stamps, hk.order,
    hk.recorded, hk.paid, ?_⟩ ?_ (Nat.le_succ _) ?_
  · simp only [Rows.addAdjustment, List.map_append, List.map_cons, List.map_nil]
    rw [List.nodup_append]
    refine ⟨hk.adjustment_ids, List.nodup_singleton _, fun c hc d hd hcd => ?_⟩
    obtain ⟨b, hb, rfl⟩ := List.mem_map.mp hc
    rw [List.mem_singleton.mp hd, hid] at hcd
    exact absurd (hk.adjustment_lt b hb).1 (by omega)
  · exact fun i hi => Nat.lt_succ_of_lt (hk.invoice_lt i hi)
  · exact fun q hq => ⟨Nat.lt_succ_of_lt (hk.payment_lt q hq).1, Nat.lt_succ_of_lt (hk.payment_lt q hq).2⟩
  · intro b hb
    rcases hsplit b hb with hb | rfl
    · exact ⟨Nat.lt_succ_of_lt (hk.adjustment_lt b hb).1, Nat.lt_succ_of_lt (hk.adjustment_lt b hb).2⟩
    · exact ⟨by rw [hid]; exact Nat.lt_succ_self _, Nat.lt_succ_of_lt hy⟩
  · exact fun l hl => Nat.lt_succ_of_lt (hk.line_lt l hl)
  · intro b hb
    rcases hsplit b hb with hb | rfl
    · exact hk.adjusted b hb
    · exact hamount
  · rintro st sid (h | h | ⟨hst, b, hb, hby, hsid⟩)
    · exact Or.inl h
    · exact Or.inr (Or.inl h)
    · exact Or.inr (Or.inr ⟨hst, b, List.mem_append_left _ hb, hby, hsid⟩)
  · intro x hx
    refine ⟨rfl, fun _ _ => Iff.rfl, rfl, ?_, rfl⟩
    simp [Rows.addAdjustment, List.filter_append, hx.symm]

/-- Voiding stamps the row; on unique keys it is the flip of one payment. -/
theorem putPayment_eq_map {now : ℤ} {p : Payment} {v : Option ℤ} (hk : R.Kept company now) (hp : p ∈ R.payments) :
    (R.putPayment { p with voidedAt := v }).payments =
      R.payments.map fun q => if q.id = p.id then { q with voidedAt := v } else q := by
  simp only [Rows.putPayment]
  refine List.map_congr_left fun q hq => ?_
  by_cases hid : q.id = p.id
  · rw [if_pos hid, if_pos hid, List.inj_on_of_nodup_map hk.payment_ids hq hp hid]
  · rw [if_neg hid, if_neg hid]

theorem Touches.putPayment {p : Payment} {v : Option ℤ} (hs : Sound H acct company db) (hp : p ∈ db.rows.payments) :
    Touches H p.invoiceId db { db with rows := db.rows.putPayment { p with voidedAt := v } } ∧
      Sound H acct company { db with rows := db.rows.putPayment { p with voidedAt := v } } := by
  have hk := hs.kept
  have hmap := putPayment_eq_map (v := v) hk hp
  have hkeep : ∀ q ∈ (db.rows.putPayment { p with voidedAt := v }).payments, ∃ r ∈ db.rows.payments,
      q.id = r.id ∧ q.invoiceId = r.invoiceId ∧ q.createdAt = r.createdAt ∧ q.amount = r.amount := by
    intro q hq
    rw [hmap] at hq
    obtain ⟨r, hr, rfl⟩ := List.mem_map.mp hq
    refine ⟨r, hr, ?_⟩
    split_ifs <;> exact ⟨rfl, rfl, rfl, rfl⟩
  refine Touches.edit hs ⟨hk.on, hk.invoice_ids, ?_, hk.adjustment_ids, hk.invoice_lt, ?_, hk.adjustment_lt,
    hk.line_lt, hk.plain, hk.stamps, ?_, ?_, ?_, hk.adjusted⟩ ?_ (le_refl _) ?_
  · rw [hmap, List.map_map]
    have hsame : db.rows.payments.map ((·.id) ∘ fun q => if q.id = p.id then { q with voidedAt := v } else q) =
        db.rows.payments.map (·.id) := List.map_congr_left fun q _ => by
      simp only [Function.comp_apply]; split_ifs <;> rfl
    rw [hsame]
    exact hk.payment_ids
  · intro q hq
    obtain ⟨r, hr, h1, h2, -⟩ := hkeep q hq
    rw [h1, h2]
    exact hk.payment_lt r hr
  · rw [hmap, List.pairwise_map]
    refine hk.order.imp ?_
    intro q r hqr
    split_ifs <;> exact hqr
  · intro q hq
    obtain ⟨r, hr, -, -, h3, -⟩ := hkeep q hq
    rw [h3]
    exact hk.recorded r hr
  · intro q hq
    obtain ⟨r, hr, -, -, -, h4⟩ := hkeep q hq
    rw [h4]
    exact hk.paid r hr
  · rintro st sid (h | ⟨hst, q, hq, hqy, hsid⟩ | h)
    · exact Or.inl h
    · refine Or.inr (Or.inl ⟨hst, if q.id = p.id then { q with voidedAt := v } else q, ?_, ?_, ?_⟩)
      · rw [hmap]
        exact List.mem_map_of_mem (f := fun q : Payment => if q.id = p.id then { q with voidedAt := v } else q) hq
      · split_ifs <;> exact hqy
      · split_ifs <;> exact hsid
    · exact Or.inr (Or.inr h)
  · intro x hx
    refine ⟨rfl, fun _ _ => Iff.rfl, ?_, rfl, rfl⟩
    rw [hmap, List.filter_map]
    have hfilter : db.rows.payments.filter ((·.invoiceId == x) ∘ fun q =>
        if q.id = p.id then { q with voidedAt := v } else q) = db.rows.payments.filter (·.invoiceId == x) :=
      List.filter_congr fun q _ => by simp only [Function.comp_apply]; split_ifs <;> rfl
    rw [hfilter]
    conv_rhs => rw [← List.map_id (db.rows.payments.filter (·.invoiceId == x))]
    refine List.map_congr_left fun q hq => ?_
    obtain ⟨hq, hqx⟩ := List.mem_filter.mp hq
    rw [if_neg, id]
    intro hid
    rw [List.inj_on_of_nodup_map hk.payment_ids hq hp hid, beq_iff_eq] at hqx
    exact hx hqx.symm

/-- Lines of one invoice added, edited or removed. -/
theorem Touches.putLines (lines : List InvoiceLine) {nextId : ℕ} (hs : Sound H acct company db)
    (hnext : db.rows.nextId ≤ nextId) (hlt : ∀ l ∈ lines, l.invoiceId < nextId)
    (hothers : ∀ x ≠ y, lines.filter (·.invoiceId == x) = db.rows.lines.filter (·.invoiceId == x)) :
    Touches H y db { db with rows := { db.rows with lines := lines, nextId := nextId } } ∧
      Sound H acct company { db with rows := { db.rows with lines := lines, nextId := nextId } } := by
  have hk := hs.kept
  refine Touches.edit hs ⟨hk.on, hk.invoice_ids, hk.payment_ids, hk.adjustment_ids, ?_, ?_, ?_, hlt, hk.plain,
    hk.stamps, hk.order, hk.recorded, hk.paid, hk.adjusted⟩ (fun _ _ h => h) hnext ?_
  · exact fun i hi => Nat.lt_of_lt_of_le (hk.invoice_lt i hi) hnext
  · exact fun q hq => ⟨Nat.lt_of_lt_of_le (hk.payment_lt q hq).1 hnext, Nat.lt_of_lt_of_le (hk.payment_lt q hq).2 hnext⟩
  · exact fun a ha => ⟨Nat.lt_of_lt_of_le (hk.adjustment_lt a ha).1 hnext,
      Nat.lt_of_lt_of_le (hk.adjustment_lt a ha).2 hnext⟩
  · exact fun x hx => ⟨rfl, fun _ _ => Iff.rfl, rfl, rfl, hothers x hx⟩

/-! ### Handlers -/

theorem Rows.Kept.eq_of_id {now : ℤ} (hk : R.Kept company now) {i j : Invoice} (hi : i ∈ R.invoices)
    (hj : j ∈ R.invoices) (hid : i.id = j.id) : i = j :=
  List.inj_on_of_nodup_map hk.invoice_ids hi hj hid

/-- A status change: refused moves leave the database, others set the row and run the rule. -/
theorem transition_ok {i : Invoice} {status : InvoiceStatus} (hs : Sound H acct company db)
    (hi : i ∈ db.rows.invoices) (h : transitionInvoiceStatus H db i status actor = .ok db') :
    ((status = i.status ∨ i.status = .void) ∧ db' = db) ∨
    (status ≠ i.status ∧ i.status ≠ .void ∧ ∃ M, postingRule H (db.rows.putInvoice { i with status := status })
      { i with status := status } actor i.status status db.ledger = .ok () M ∧
      db' = { db.putInvoice { i with status := status } with ledger := M }) := by
  unfold transitionInvoiceStatus at h
  by_cases h1 : status = i.status
  · rw [if_pos h1] at h; cases h; exact Or.inl ⟨Or.inl h1, rfl⟩
  by_cases h2 : i.status = .void
  · rw [if_neg h1, if_pos h2] at h; cases h; exact Or.inl ⟨Or.inr h2, rfl⟩
  have hon : (db.putInvoice { i with status := status }).rows.ledgerPostingEnabled i.companyId = true := by
    rw [hs.kept.plain i hi]; exact hs.kept.on
  rw [if_neg h1, if_neg h2] at h
  simp only [hon, Bool.not_true, Bool.false_eq_true, if_false] at h
  obtain ⟨M, hrule, rfl⟩ := post_ok.mp h
  exact Or.inr ⟨h1, h2, M, hrule, rfl⟩

theorem postingRule_within {i : Invoice} {old new : InvoiceStatus} {P : Text → Text → Prop} (hinv : JournalInv H L)
    (hseed : Seeded L i.companyId acct) (hP : P "invoice".toList (str i.id))
    (h : postingRule H R i actor old new L = .ok () L') : Within H P L L' := by
  unfold postingRule at h
  split at h
  · exact postInvoiceIssuance_within hinv hseed hP h
  · exact postInvoiceIssuance_within hinv hseed hP h
  · exact reverseInvoiceIssuance_within hinv hP h
  · exact reverseInvoiceIssuance_within hinv hP h
  · cases h; exact .refl hinv

theorem Touches.refl (hs : Sound H acct company db) (y : ℕ) : Touches H y db db ∧ Sound H acct company db :=
  ⟨⟨.refl hs.inv, fun _ _ h => h, le_refl _, rfl, fun x _ => .refl x _⟩, hs⟩

/-- One step of a handler after another. -/
theorem Touches.andThen (h : Touches H y db db₁) (h' : Touches H y db₁ db' ∧ Sound H acct company db') :
    Touches H y db db' ∧ Sound H acct company db' := ⟨h.trans h'.1, h'.2⟩

theorem transition_touches {i : Invoice} {status : InvoiceStatus} (hs : Sound H acct company db)
    (hi : i ∈ db.rows.invoices) (h : transitionInvoiceStatus H db i status actor = .ok db') :
    Touches H i.id db db' ∧ Sound H acct company db' := by
  rcases transition_ok hs hi h with ⟨-, rfl⟩ | ⟨-, -, M, hrule, rfl⟩
  · exact Touches.refl hs i.id
  · obtain ⟨ht, hs'⟩ := Touches.putInvoice { i with status := status } hs hi ⟨rfl, rfl, rfl, rfl, rfl, Or.inl rfl⟩
    have hseed : Seeded db.ledger ({ i with status := status } : Invoice).companyId acct := hs.seededFor (i := i) hi
    refine ht.andThen (Touches.post hs' (hs.kept.invoice_lt i hi) ?_)
    exact postingRule_within hs.inv hseed (Or.inl ⟨rfl, rfl⟩) hrule

theorem reckon_recast (R : Rows) (i : Invoice) : Recast i (reckon R i) := ⟨rfl, rfl, rfl, rfl, rfl, Or.inl rfl⟩

/-- Nothing is owed on it, and something was. -/
def Invoice.flipsToPaid (i : Invoice) : Prop := i.status ≠ .void ∧ i.balanceDue ≤ 0 ∧ 0 < i.total

instance (i : Invoice) : Decidable i.flipsToPaid := inferInstanceAs (Decidable (_ ∧ _))

theorem recalculate_ok (h : recalculateInvoice H db y actor = .ok db') :
    ∃ i ∈ db.rows.invoices, i.id = y ∧ i.deleted = false ∧ ∃ M,
      repostInvoiceIssuance H (db.rows.putInvoice (reckon db.rows i)) (reckon db.rows i) actor db.ledger = .ok () M ∧
      if (reckon db.rows i).flipsToPaid then
        transitionInvoiceStatus H { db.putInvoice (reckon db.rows i) with ledger := M } (reckon db.rows i) .paid
          actor = .ok db'
      else db' = { db.putInvoice (reckon db.rows i) with ledger := M } := by
  unfold recalculateInvoice at h
  simp only [except_bind_ok] at h
  obtain ⟨i, hget, db₂, hpost, h⟩ := h
  obtain ⟨hi, hid, hlive⟩ := getInvoice_ok hget
  obtain ⟨M, hrule, rfl⟩ := post_ok.mp hpost
  refine ⟨i, hi, hid, hlive, M, hrule, ?_⟩
  change (if (reckon db.rows i).flipsToPaid then _ else _) = _ at h
  split_ifs at h ⊢
  · exact h
  · cases h
    rfl

/-- A recalculation up to its repost. -/
theorem reposted_touches (hs : Sound H acct company db) (hi : inv ∈ db.rows.invoices) {M : Ledger}
    (hrepost : repostInvoiceIssuance H (db.rows.putInvoice (reckon db.rows inv)) (reckon db.rows inv) actor db.ledger =
      .ok () M) :
    Touches H inv.id db { db.putInvoice (reckon db.rows inv) with ledger := M } ∧
      Sound H acct company { db.putInvoice (reckon db.rows inv) with ledger := M } := by
  obtain ⟨ht, hs₁⟩ := Touches.putInvoice _ hs hi (reckon_recast db.rows inv)
  have hseed : Seeded db.ledger (reckon db.rows inv).companyId acct := hs.seededFor (i := inv) hi
  have hw : Within H (db.rows.owned inv.id) db.ledger M :=
    repostInvoiceIssuance_within hs.inv hseed (Or.inl ⟨rfl, rfl⟩) hrepost
  exact ht.andThen (Touches.post hs₁ (hs.kept.invoice_lt inv hi) hw)

theorem recalculate_touches (hs : Sound H acct company db) (h : recalculateInvoice H db y actor = .ok db') :
    Touches H y db db' ∧ Sound H acct company db' := by
  obtain ⟨i, hi, rfl, -, M, hrepost, h⟩ := recalculate_ok h
  obtain ⟨ht, hs₁⟩ := reposted_touches hs hi hrepost
  split_ifs at h
  · have hmem : reckon db.rows i ∈ (db.putInvoice (reckon db.rows i)).rows.invoices :=
      mem_putInvoice.mpr (Or.inr ⟨rfl, i, hi, rfl⟩)
    exact ht.andThen (transition_touches (i := reckon db.rows i) hs₁ hmem h)
  · exact h ▸ ⟨ht, hs₁⟩

theorem newLines_invoice (invoice : ℕ) : ∀ (id : ℕ) (lines : List LineIn),
    ∀ l ∈ newLines invoice id lines, l.invoiceId = invoice
  | _, [], l, hl => by cases hl
  | id, line :: lines, l, hl => by
    rcases List.mem_cons.mp hl with rfl | hl
    · rfl
    · exact newLines_invoice invoice (id + 1) lines l hl

/-- Rows for new lines carry the lines' amounts, none of them deleted. -/
theorem newLines_sums (invoice : ℕ) : ∀ (id : ℕ) (lines : List LineIn),
    sumCents (·.lineTotal) (newLines invoice id lines) = sumCents (·.lineTotal) lines ∧
      sumCents (·.lineTotal) ((newLines invoice id lines).filter (·.taxable)) =
        sumCents (·.lineTotal) (lines.filter (·.taxable)) ∧
      ∀ l ∈ newLines invoice id lines, l.deleted = false := by
  intro id lines
  induction lines generalizing id with
  | nil => exact ⟨rfl, rfl, by simp [newLines]⟩
  | cons line lines ih =>
    obtain ⟨hsum, htaxed, hkept⟩ := ih (id + 1)
    refine ⟨?_, ?_, ?_⟩
    · rw [newLines, sumCents_cons, sumCents_cons, hsum]
      rfl
    · rw [newLines, List.filter_cons, List.filter_cons]
      cases hl : line.taxable with
      | true =>
        have hrow : (line.row id invoice).taxable = true := hl
        rw [if_pos hrow, if_pos rfl, sumCents_cons, sumCents_cons, htaxed]
        rfl
      | false => rw [if_neg (by simp [LineIn.row, hl]), if_neg (by simp), htaxed]
    · rw [newLines]
      exact List.forall_mem_cons.mpr ⟨rfl, hkept⟩

theorem filter_append_other {α : Type} (owner : α → ℕ) {rows new : List α} (hnew : ∀ a ∈ new, owner a = y)
    (hne : x ≠ y) : (rows ++ new).filter (owner · == x) = rows.filter (owner · == x) := by
  have hnone : new.filter (owner · == x) = [] := by
    refine List.filter_eq_nil_iff.mpr fun a ha => ?_
    rw [hnew a ha, beq_iff_eq]
    exact hne.symm
  rw [List.filter_append, hnone, List.append_nil]

theorem Touches.addInvoice (hs : Sound H acct company db) (payload : InvoiceIn) :
    Touches H db.rows.nextId db { db with rows := db.rows.addInvoice payload company db.now } ∧
      Sound H acct company { db with rows := db.rows.addInvoice payload company db.now } := by
  have hk := hs.kept
  have hlt : ∀ {n : ℕ}, n < db.rows.nextId → n < db.rows.nextId + 1 + payload.lines.length := fun h => by omega
  have hsplit : ∀ i ∈ (db.rows.addInvoice payload company db.now).invoices,
      i ∈ db.rows.invoices ∨ i = payload.row company db.rows.nextId db.now := fun i hi => by
    simpa [Rows.addInvoice] using hi
  refine Touches.edit hs ⟨hk.on, ?_, hk.payment_ids, hk.adjustment_ids, ?_, ?_, ?_, ?_, ?_, ?_, hk.order, hk.recorded,
    hk.paid, hk.adjusted⟩ (fun _ _ h => h) ?_ ?_
  · simp only [Rows.addInvoice, List.map_append, List.map_cons, List.map_nil]
    rw [List.nodup_append]
    refine ⟨hk.invoice_ids, List.nodup_singleton _, fun a ha b hb hab => ?_⟩
    obtain ⟨i, hi, rfl⟩ := List.mem_map.mp ha
    rw [List.mem_singleton.mp hb] at hab
    exact absurd (hk.invoice_lt i hi) (by rw [hab]; exact Nat.lt_irrefl _)
  · intro i hi
    rcases hsplit i hi with hi | rfl
    · exact hlt (hk.invoice_lt i hi)
    · show db.rows.nextId < db.rows.nextId + 1 + payload.lines.length
      omega
  · exact fun q hq => ⟨hlt (hk.payment_lt q hq).1, hlt (hk.payment_lt q hq).2⟩
  · exact fun a ha => ⟨hlt (hk.adjustment_lt a ha).1, hlt (hk.adjustment_lt a ha).2⟩
  · intro l hl
    rcases List.mem_append.mp hl with hl | hl
    · exact hlt (hk.line_lt l hl)
    · rw [newLines_invoice _ _ _ l hl]
      show db.rows.nextId < db.rows.nextId + 1 + payload.lines.length
      omega
  · intro i hi
    rcases hsplit i hi with hi | rfl
    · exact hk.plain i hi
    · rfl
  · intro i hi
    rcases hsplit i hi with hi | rfl
    · exact hk.stamps i hi
    · exact ⟨le_refl _, fun t ht => by cases ht⟩
  · show db.rows.nextId ≤ db.rows.nextId + 1 + payload.lines.length
    omega
  · intro x hx
    refine ⟨rfl, fun i hid => ?_, rfl, rfl, ?_⟩
    · constructor
      · intro hi
        rcases hsplit i hi with hi | rfl
        · exact hi
        · exact absurd hid.symm hx
      · exact fun hi => List.mem_append_left _ hi
    · exact filter_append_other InvoiceLine.invoiceId (newLines_invoice _ _ _) hx

/-- The tables have no row as late as the clock while a request is served. -/
def Db.Ticked (db : Db) : Prop := ∀ p ∈ db.rows.payments, p.createdAt < db.now

theorem getLine_ok {i : Invoice} {id : ℕ} {line : InvoiceLine} (h : db.getLine i id = .ok line) :
    line ∈ db.rows.lines ∧ line.invoiceId = i.id ∧ line.deleted = false := by
  unfold Db.getLine at h
  cases hf : (db.rows.liveLines i).find? (·.id == id) with
  | none => rw [hf] at h; cases h
  | some l =>
    rw [hf] at h
    cases h
    have hmem := List.mem_of_find?_eq_some hf
    simp only [Rows.liveLines, List.mem_filter, Bool.and_eq_true, beq_iff_eq, Bool.not_eq_true'] at hmem
    exact hmem

theorem filter_putLine {line : InvoiceLine} (hne : x ≠ line.invoiceId) :
    (R.putLine line).lines.filter (·.invoiceId == x) = R.lines.filter (·.invoiceId == x) := by
  simp only [Rows.putLine]
  induction R.lines with
  | nil => rfl
  | cons l ls ih =>
    rw [List.map_cons, List.filter_cons, List.filter_cons, ih]
    by_cases hl : l.invoiceId = line.invoiceId ∧ l.id = line.id
    · rw [if_pos hl, if_neg (by rw [beq_iff_eq]; exact hne.symm),
        if_neg (by rw [beq_iff_eq, hl.1]; exact hne.symm)]
    · rw [if_neg hl]

/-- What an accepted edit of a line does: the line's row is replaced and the invoice recalculated. -/
theorem editInvoiceLine_ok {lineId : ℕ} {netting : String} {edit : InvoiceLine → InvoiceLine}
    (h : editInvoiceLine H y lineId netting edit actor db = .ok db') :
    ∃ i ∈ db.rows.invoices, i.id = y ∧ i.status = .draft ∧ ∃ line ∈ db.rows.lines, line.invoiceId = y ∧
      recalculateInvoice H { db with rows := db.rows.putLine (edit line) } y actor = .ok db' := by
  unfold editInvoiceLine at h
  rw [except_bind_ok] at h
  obtain ⟨i, hget, h⟩ := h
  obtain ⟨hi, rfl, -⟩ := getInvoice_ok hget
  rw [except_bind_ok] at h
  obtain ⟨u, hdraft, h⟩ := h
  rw [except_bind_ok] at h
  obtain ⟨line, hline, h⟩ := h
  rw [except_bind_ok] at h
  obtain ⟨-, -, h⟩ := h
  obtain ⟨hmem, hinv, -⟩ := getLine_ok hline
  have hstatus := refuse_ok.mp hdraft
  exact ⟨i, hi, rfl, by tauto, line, hmem, hinv, h⟩

theorem verifyInvoice_ok (h : verifyInvoice y db = .ok db') :
    ∃ i ∈ db.rows.invoices, i.id = y ∧ (db' = db ∨ db' = db.putInvoice { i with verifiedAt := some db.now }) := by
  unfold verifyInvoice at h
  rw [except_bind_ok] at h
  obtain ⟨i, hget, h⟩ := h
  obtain ⟨hi, hid, -⟩ := getInvoice_ok hget
  refine ⟨i, hi, hid, ?_⟩
  split_ifs at h
  · cases h; exact Or.inl rfl
  · cases h; exact Or.inr rfl

/-- Issuing moves a draft to sent (others keep their status) and stamps the row. -/
theorem markInvoiceSent_ok (h : markInvoiceSent H y actor db = .ok db') :
    ∃ i ∈ db.rows.invoices, i.id = y ∧ i.status ≠ .void ∧ ∃ db₁,
      (if i.status = .paid then db₁ = db else transitionInvoiceStatus H db i .sent actor = .ok db₁) ∧
      ∃ j ∈ db₁.rows.invoices, j.id = y ∧ db' = db₁.putInvoice { j with sentAt := some db₁.now } := by
  unfold markInvoiceSent at h
  rw [except_bind_ok] at h
  obtain ⟨i, hget, h⟩ := h
  obtain ⟨hi, hid, -⟩ := getInvoice_ok hget
  rw [except_bind_ok] at h
  obtain ⟨u, hvoid, h⟩ := h
  rw [except_bind_ok] at h
  obtain ⟨-, -, h⟩ := h
  rw [except_bind_ok] at h
  obtain ⟨db₁, hmove, h⟩ := h
  rw [except_bind_ok] at h
  obtain ⟨j, hget', h⟩ := h
  obtain ⟨hj, hjid, -⟩ := getInvoice_ok hget'
  cases h
  refine ⟨i, hi, hid, refuse_ok.mp hvoid, db₁, ?_, j, hj, hjid, rfl⟩
  unfold sendUnlessPaid at hmove
  split_ifs at hmove ⊢ with hp
  · cases hmove; rfl
  · exact hmove

/-- The row a recalculation leaves: figures reckoned, and paid when nothing is owed. -/
def reckoned (R : Rows) (i : Invoice) : Invoice :=
  if (reckon R i).flipsToPaid then { reckon R i with status := .paid } else reckon R i

theorem reckoned_recast (R : Rows) (i : Invoice) : Recast i (reckoned R i) := by
  unfold reckoned
  split_ifs
  · exact ⟨rfl, rfl, rfl, rfl, rfl, Or.inl rfl⟩
  · exact reckon_recast R i

/-- A recalculation: the row is reckoned, its issuance reposted, and a draft with nothing owed issued. -/
theorem recalculate_spec (hs : Sound H acct company db) (h : recalculateInvoice H db y actor = .ok db') :
    ∃ i ∈ db.rows.invoices, i.id = y ∧ ∃ M L',
      repostInvoiceIssuance H (db.rows.putInvoice (reckon db.rows i)) (reckon db.rows i) actor db.ledger = .ok () M ∧
      db' = { db with rows := db.rows.putInvoice (reckoned db.rows i), ledger := L' } ∧
      if (reckon db.rows i).flipsToPaid ∧ i.status = .draft then
        postInvoiceIssuance H (db.rows.putInvoice (reckoned db.rows i)) (reckoned db.rows i) actor M = .ok () L'
      else L' = M := by
  obtain ⟨i, hi, hid, -, M, hrepost, h⟩ := recalculate_ok h
  refine ⟨i, hi, hid, M, ?_⟩
  by_cases hf : (reckon db.rows i).flipsToPaid
  · rw [if_pos hf] at h
    have hmem : reckon db.rows i ∈ (db.putInvoice (reckon db.rows i)).rows.invoices :=
      mem_putInvoice.mpr (Or.inr ⟨rfl, i, hi, rfl⟩)
    have hs₁ := (reposted_touches hs hi hrepost).2
    have hrow : reckoned db.rows i = { reckon db.rows i with status := .paid } := by rw [reckoned, if_pos hf]
    rcases transition_ok hs₁ hmem h with ⟨hsame | hvoid, rfl⟩ | ⟨hne, -, N, hrule, rfl⟩
    · have hpaid : i.status = .paid := hsame.symm
      refine ⟨M, hrepost, ?_, ?_⟩
      · have hrow' : reckoned db.rows i = reckon db.rows i := by
          rw [hrow]
          show ({ reckon db.rows i with status := .paid } : Invoice) = reckon db.rows i
          rw [hsame]
        rw [hrow']
        rfl
      · rw [if_neg]
        rw [hpaid]
        simp
    · exact absurd hvoid hf.1
    · have hput : (db.putInvoice (reckon db.rows i)).rows.putInvoice { reckon db.rows i with status := .paid } =
          db.rows.putInvoice (reckoned db.rows i) := by
        rw [hrow]
        exact putInvoice_putInvoice rfl
      refine ⟨N, hrepost, ?_, ?_⟩
      · rw [← hput]
        rfl
      · simp only [hput] at hrule
        by_cases hd : i.status = .draft
        · rw [if_pos ⟨hf, hd⟩]
          rw [show (reckon db.rows i).status = .draft from hd, ← hrow] at hrule
          exact hrule
        · rw [if_neg fun hboth => hd hboth.2]
          -- every other way to paid posts nothing
          have hnone : ∀ old : InvoiceStatus, old ≠ .draft → ∀ L,
              postingRule H (db.rows.putInvoice (reckoned db.rows i)) { reckon db.rows i with status := .paid } actor
                old .paid L = .ok () L := by
            intro old hold L
            cases old with
            | draft => exact absurd rfl hold
            | _ => rfl
          rw [hnone (reckon db.rows i).status hd] at hrule
          cases hrule
          rfl
  · rw [if_neg hf] at h
    refine ⟨M, hrepost, ?_, ?_⟩
    · rw [h, reckoned, if_neg hf]
      rfl
    · rw [if_neg fun hboth => hf hboth.1]

theorem putInvoice_ids (R : Rows) (inv : Invoice) : (R.putInvoice inv).invoices.map Invoice.id = R.invoices.map Invoice.id :=
  keys_putRow

theorem transition_rows {status : InvoiceStatus} (h : transitionInvoiceStatus H db inv status actor = .ok db') :
    db'.rows = if status = inv.status ∨ inv.status = .void then db.rows
      else db.rows.putInvoice { inv with status := status } := by
  unfold transitionInvoiceStatus at h
  split at h
  · rename_i hsame
    cases h
    rw [if_pos (.inl hsame)]
  · split at h
    · rename_i hvoid
      cases h
      rw [if_pos (.inr hvoid)]
    · rename_i hne hlive
      rw [if_neg (not_or.mpr ⟨hne, hlive⟩)]
      dsimp only at h
      split at h
      · cases h
        rfl
      · obtain ⟨L, -, rfl⟩ := post_ok.mp h
        rfl

/-- A recalculation writes the invoice's row, and nothing else of the tables. -/
theorem recalculate_rows (h : recalculateInvoice H db y actor = .ok db') :
    ∃ inv ∈ db.rows.invoices, inv.id = y ∧ inv.deleted = false ∧
      db'.rows = db.rows.putInvoice (reckoned db.rows inv) := by
  obtain ⟨inv, hinv, hid, hlive, M, -, h⟩ := recalculate_ok h
  refine ⟨inv, hinv, hid, hlive, ?_⟩
  unfold reckoned
  split_ifs at h ⊢ with hflip
  · rw [transition_rows h]
    split_ifs with hsame
    · obtain hpaid | hvoid := hsame
      · show db.rows.putInvoice (reckon db.rows inv) = _
        rw [hpaid]
      · exact absurd hvoid hflip.1
    · exact putInvoice_putInvoice rfl
  · rw [h]
    rfl

/-! ### Figures -/

/-- Ids are keys, and the figures of an invoice are what its lines, payments and adjustments make of them. -/
structure Rows.Figured (R : Rows) : Prop where
  keyed : (R.invoices.map Invoice.id).Nodup
  reckoned : ∀ inv ∈ R.invoices, inv.deleted = false → reckon R inv = inv

theorem Rows.Figured.same (h : R.Figured) (hinv : inv ∈ R.invoices) (hinv' : inv' ∈ R.invoices) (hid : inv.id = inv'.id) :
    inv = inv' := List.inj_on_of_nodup_map h.keyed hinv hinv' hid

theorem Rows.Figured.putInvoice_self (h : R.Figured) (hinv : inv ∈ R.invoices) : R.putInvoice inv = R := by
  have hsame : R.invoices.map (fun i => if i.id = inv.id then inv else i) = R.invoices := by
    conv_rhs => rw [← List.map_id R.invoices]
    refine List.map_congr_left fun i hi => ?_
    split_ifs with hid
    · exact h.same hinv hi hid.symm
    · rfl
  rw [Rows.putInvoice, hsame]

theorem reckon_congr (hlines : R'.liveLines inv = R.liveLines inv) (hpayments : R'.paymentsOf inv = R.paymentsOf inv)
    (hadjustments : R'.adjustmentsOf inv = R.adjustmentsOf inv) : reckon R' inv = reckon R inv := by
  unfold reckon reckonTax paidCents invoiceCreditedCents
  rw [hlines, hpayments, hadjustments]

/-- Reckoning again changes nothing. -/
theorem reckon_reckoned (R : Rows) (inv : Invoice) : reckon R (reckoned R inv) = reckoned R inv := by
  have hagain : ∀ status, (inv.status = .void ↔ status = .void) →
      reckon R { reckon R inv with status := status } = { reckon R inv with status := status } := by
    intro status hvoid
    unfold reckon reckonTax
    cases inv.taxRate <;> cases inv.totalsLocked <;>
      simp [hvoid, Rows.liveLines, paidCents, invoiceCreditedCents, Rows.paymentsOf, Rows.adjustmentsOf]
  unfold reckoned
  split_ifs with hflip
  · exact hagain .paid ⟨fun h => absurd h hflip.1, by rintro ⟨⟩⟩
  · exact hagain inv.status Iff.rfl

/-! ### What leaves the payments alone -/

/-- The payment table and the supply of ids are the same. -/
structure SameTable (db db' : Db) : Prop where
  payments : db'.rows.payments = db.rows.payments
  nextId : db'.rows.nextId = db.rows.nextId

theorem SameTable.refl (db : Db) : SameTable db db := ⟨rfl, rfl⟩

theorem SameTable.trans (h : SameTable db db₁) (h' : SameTable db₁ db') : SameTable db db' :=
  ⟨h'.payments.trans h.payments, h'.nextId.trans h.nextId⟩

theorem putInvoice_same (db : Db) (i : Invoice) : SameTable db (db.putInvoice i) := ⟨rfl, rfl⟩

theorem post_same {rule : LedgerM Unit} (h : db.post rule = .ok db') : SameTable db db' := by
  obtain ⟨L, -, rfl⟩ := post_ok.mp h
  exact ⟨rfl, rfl⟩

theorem transition_same {i : Invoice} {status : InvoiceStatus}
    (h : transitionInvoiceStatus H db i status actor = .ok db') : SameTable db db' := by
  unfold transitionInvoiceStatus at h
  split at h
  · cases h
    exact SameTable.refl db
  · split at h
    · cases h
      exact SameTable.refl db
    · dsimp only at h
      split at h
      · cases h
        exact putInvoice_same db _
      · exact (putInvoice_same db _).trans (post_same h)

theorem recalculateInvoice_same (h : recalculateInvoice H db y actor = .ok db') : SameTable db db' := by
  obtain ⟨i, -, -, -, M, -, h⟩ := recalculate_ok h
  have hput : SameTable db { db.putInvoice (reckon db.rows i) with ledger := M } := ⟨rfl, rfl⟩
  split at h
  · exact hput.trans (transition_same h)
  · exact h ▸ hput

/-! ### Payments -/

theorem requestedAmount_ok {i : Invoice} {payload : PaymentCreateIn} {amount : ℤ}
    (h : requestedAmount R i payload = .ok amount) : 0 ≤ amount := by
  unfold requestedAmount at h
  split at h
  · cases h
  · cases h
  · cases h; exact Int.natCast_nonneg _
  · rw [except_bind_ok] at h
    obtain ⟨u, hopen, h⟩ := h
    have hpos := refuse_ok.mp hopen
    cases h
    push Not at hpos
    exact le_of_lt hpos.2

/-- What a payment row holds when it is recorded. -/
structure Recorded (db : Db) (y : ℕ) (p : Payment) : Prop where
  id : p.id = db.rows.nextId
  invoiceId : p.invoiceId = y
  amount : 0 ≤ p.amount
  voidedAt : p.voidedAt = none
  createdAt : p.createdAt = db.now

theorem recordPayment_ok {payload : PaymentCreateIn} (h : recordPayment H zone y payload actor db = .ok db') :
    ∃ i ∈ db.rows.invoices, i.id = y ∧ i.status ≠ .void ∧ ∃ p, Recorded db y p ∧ ∃ db₁,
      recalculateInvoice H { db with rows := db.rows.addPayment p } y actor = .ok db₁ ∧
      ∃ j ∈ db₁.rows.invoices, j.id = y ∧ ∃ L',
        postPaymentReceived H (db₁.clock zone) db₁.rows p j actor db₁.ledger = .ok () L' ∧
        db' = { db₁ with ledger := L' } := by
  unfold recordPayment at h
  rw [except_bind_ok] at h
  obtain ⟨i, hget, h⟩ := h
  obtain ⟨hi, rfl, -⟩ := getInvoice_ok hget
  rw [except_bind_ok] at h
  obtain ⟨u, hvoid, h⟩ := h
  rw [except_bind_ok] at h
  obtain ⟨-, -, h⟩ := h
  rw [except_bind_ok] at h
  obtain ⟨-, -, h⟩ := h
  rw [except_bind_ok] at h
  obtain ⟨amount, hamount, h⟩ := h
  rw [except_bind_ok] at h
  obtain ⟨-, -, h⟩ := h
  rw [except_bind_ok] at h
  obtain ⟨-, -, h⟩ := h
  rw [except_bind_ok] at h
  obtain ⟨-, -, h⟩ := h
  rw [except_bind_ok] at h
  obtain ⟨db₁, hrecalc, h⟩ := h
  rw [except_bind_ok] at h
  obtain ⟨j, hgetj, h⟩ := h
  obtain ⟨hj, hjid, -⟩ := getInvoice_ok hgetj
  obtain ⟨L', hpost, rfl⟩ := post_ok.mp h
  exact ⟨i, hi, rfl, refuse_ok.mp hvoid, _, ⟨rfl, rfl, requestedAmount_ok hamount, rfl, rfl⟩, db₁, hrecalc, j, hj,
    hjid, L', hpost, rfl⟩

theorem owned_payment {p : Payment} {i : Invoice} (hp : p ∈ R.paymentsOf i) :
    R.owned i.id "payment".toList (str p.id) := by
  obtain ⟨hmem, hid⟩ := List.mem_filter.mp hp
  exact Or.inr (Or.inl ⟨rfl, p, hmem, beq_iff_eq.mp hid, rfl⟩)

theorem owned_adjustment {a : InvoiceAdjustment} {i : Invoice} (ha : a ∈ R.adjustmentsOf i) :
    R.owned i.id "adjustment".toList (str a.id) := by
  obtain ⟨hmem, hid⟩ := List.mem_filter.mp ha
  exact Or.inr (Or.inr ⟨rfl, a, hmem, beq_iff_eq.mp hid, rfl⟩)

end Gdx
