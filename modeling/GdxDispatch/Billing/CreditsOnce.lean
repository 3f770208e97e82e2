import GdxDispatch.Billing.RestatementCredits

/-! A restatement's offer does not come back once it was credited.

    A credit memo moves two figures of its invoice, what was credited and the balance, and may mark it paid. The hours of
    the run, the lines and the rates stay, so a second call takes the same hours from the same invoices, and owes on each
    what the first did less the memos. -/

namespace Gdx
open Lib

/-! ### One credit memo -/

section Memo
variable {H : ContentHash} {zone : ShopZone} {R R' : Rows} {db db₁ db' : Db} {actor : Option Text} {id amount : ℕ}
  {inv inv' : Invoice}

/-- An invoice row after credit memos of an amount. -/
structure CreditedRow (amount : ℕ) (inv inv' : Invoice) : Prop where
  id : inv'.id = inv.id
  jobId : inv'.jobId = inv.jobId
  deleted : inv'.deleted = inv.deleted
  balanceDue : inv'.balanceDue = inv.balanceDue - amount
  status : inv'.status = inv.status ∨ (inv.status.isIssued = true ∧ inv'.status = .paid)

theorem CreditedRow.refl (inv : Invoice) : CreditedRow 0 inv inv := ⟨rfl, rfl, rfl, by simp, .inl rfl⟩

theorem CreditedRow.trans {inv'' : Invoice} {more : ℕ} (h : CreditedRow amount inv inv') (h' : CreditedRow more inv' inv'') :
    CreditedRow (amount + more) inv inv'' := by
  refine ⟨h'.id.trans h.id, h'.jobId.trans h.jobId, h'.deleted.trans h.deleted, ?_, ?_⟩
  · rw [h'.balanceDue, h.balanceDue]
    push_cast
    ring
  · obtain hsame | ⟨hissued, hpaid⟩ := h'.status
    · rw [hsame]
      exact h.status
    · obtain hsame' | ⟨hissued', -⟩ := h.status
      · exact .inr ⟨hsame' ▸ hissued, hpaid⟩
      · exact .inr ⟨hissued', hpaid⟩

theorem CreditedRow.isIssued (h : CreditedRow amount inv inv') : inv'.status.isIssued = inv.status.isIssued := by
  obtain hsame | ⟨hissued, hpaid⟩ := h.status
  · rw [hsame]
  · rw [hissued, hpaid]
    rfl

theorem CreditedRow.void_iff (h : CreditedRow amount inv inv') : inv'.status = .void ↔ inv.status = .void := by
  obtain hsame | ⟨hissued, hpaid⟩ := h.status
  · rw [hsame]
  · rw [hpaid]
    refine ⟨by rintro ⟨⟩, fun hvoid => ?_⟩
    rw [hvoid] at hissued
    cases hissued

/-- What some memos credit an invoice with. -/
def memoCents (memos : List (ℕ × ℕ)) (id : ℕ) : ℕ := ((memos.filter (·.1 = id)).map Prod.snd).sum

theorem memoCents_cons (memo : ℕ × ℕ) (memos : List (ℕ × ℕ)) (id : ℕ) :
    memoCents (memo :: memos) id = (if memo.1 = id then memo.2 else 0) + memoCents memos id := by
  unfold memoCents
  by_cases h : memo.1 = id <;> simp [h]

/-- The tables after credit memos. -/
structure Credited (memos : List (ℕ × ℕ)) (R R' : Rows) : Prop where
  lines : R'.lines = R.lines
  credited : ∀ id, R'.creditedOn id = R.creditedOn id + memoCents memos id
  invoices : List.Forall₂ (fun inv inv' => CreditedRow (memoCents memos inv.id) inv inv') R.invoices R'.invoices

/-- A memo comes off the balance of its invoice. -/
theorem reckon_addMemo {memo : InvoiceAdjustment} (hrow : reckon R inv = inv) (hinvoice : memo.invoiceId = inv.id)
    (hkind : memo.kind = .creditMemo) (hamount : memo.amount = amount) (hlive : inv.status ≠ .void) (hpos : 0 < amount)
    (hle : (amount : ℤ) ≤ inv.balanceDue) :
    reckon (R.addAdjustment memo) inv = { inv with balanceDue := inv.balanceDue - amount } := by
  have hbalance : inv.balanceDue = max (inv.total - paidCents R inv - invoiceCreditedCents R inv) 0 := by
    have htotal : (reckon R inv).total = inv.total := by rw [hrow]
    have hdue : (reckon R inv).balanceDue = inv.balanceDue := by rw [hrow]
    rw [← hdue, ← htotal]
    exact if_neg hlive
  have hcredited : invoiceCreditedCents (R.addAdjustment memo) inv = invoiceCreditedCents R inv + amount := by
    unfold invoiceCreditedCents Rows.adjustmentsOf Rows.addAdjustment
    simp [sumCents, hinvoice, hkind, hamount, AdjustmentKind.reducesBalance]
  have hsame : reckon (R.addAdjustment memo) inv = { reckon R inv with
      balanceDue := max ((reckon R inv).total - paidCents R inv - (invoiceCreditedCents R inv + amount)) 0 } := by
    rw [← hcredited]
    unfold reckon
    simp only [if_neg hlive]
    rfl
  have hdue : max (inv.total - paidCents R inv - (invoiceCreditedCents R inv + amount)) 0 = inv.balanceDue - amount := by
    omega
  rw [hsame, hrow, hdue]

/-- An accepted memo, of tables whose figures are right. -/
theorem issueCreditMemo_rows {reason : Text} (hfigured : db.rows.Figured) (hpos : 0 < amount)
    (h : issueCreditMemo H zone id amount reason actor db = .ok db') :
    ∃ inv ∈ db.rows.invoices, ∃ memo : InvoiceAdjustment, inv.id = id ∧ inv.deleted = false ∧ inv.status.isIssued = true ∧
      (amount : ℤ) ≤ inv.balanceDue ∧ memo.invoiceId = id ∧ memo.kind = .creditMemo ∧ memo.amount = amount ∧
      db'.rows = (db.rows.addAdjustment memo).putInvoice (reckoned (db.rows.addAdjustment memo) inv) := by
  unfold issueCreditMemo at h
  simp only [except_bind_ok] at h
  obtain ⟨inv, hget, _, hissued, db₁, hcalc, inv₁, hget₁, _, hcap, h⟩ := h
  obtain ⟨hinv, rfl, hlive⟩ := getInvoice_ok hget
  have hissued : inv.status.isIssued = true := by simpa using refuse_ok.mp hissued
  have hcap : (amount : ℤ) ≤ inv₁.balanceDue := not_lt.mp (refuse_ok.mp hcap)
  obtain ⟨inv₀, hinv₀, hid₀, -, hrows₁⟩ := recalculate_rows hcalc
  obtain rfl := hfigured.same hinv hinv₀ hid₀.symm
  obtain ⟨hinv₁, hid₁, -⟩ := getInvoice_ok hget₁
  have hrow : reckon db.rows inv = inv := hfigured.reckoned inv hinv hlive
  have hinv₁ : inv₁ = reckoned db.rows inv := by
    rw [hrows₁] at hinv₁
    obtain ⟨-, hne⟩ | ⟨heq, -⟩ := mem_putInvoice.mp hinv₁
    · exact absurd (hid₁.trans (reckoned_recast db.rows inv).id.symm) hne
    · exact heq
  -- with something owed, the first recalculation leaves the row alone
  have hunflipped : ¬(reckon db.rows inv).flipsToPaid := by
    rintro ⟨-, hnone, -⟩
    have hdue : inv₁.balanceDue = (reckon db.rows inv).balanceDue := by
      rw [hinv₁, reckoned]
      split_ifs <;> rfl
    omega
  rw [reckoned, if_neg hunflipped, hrow] at hinv₁ hrows₁
  rw [hfigured.putInvoice_self hinv] at hrows₁
  subst hinv₁
  unfold Db.adjust at h
  simp only [except_bind_ok] at h
  obtain ⟨db₂, hpost, db₃, hsettle, h⟩ := h
  obtain ⟨L, -, rfl⟩ := post_ok.mp hpost
  obtain ⟨L', -, rfl⟩ := post_ok.mp hsettle
  obtain ⟨inv₂, hinv₂, hid₂, -, hrows⟩ := recalculate_rows h
  dsimp only at hinv₂ hrows
  rw [hrows₁] at hinv₂ hrows
  obtain rfl := hfigured.same hinv hinv₂ hid₂.symm
  exact ⟨inv₁, hinv, _, rfl, hlive, hissued, hcap, rfl, rfl, rfl, hrows⟩

/-- The rows of an invoice that a memo was issued on. -/
theorem reckoned_addMemo {memo : InvoiceAdjustment} (hrow : reckon R inv = inv) (hinvoice : memo.invoiceId = inv.id)
    (hkind : memo.kind = .creditMemo) (hamount : memo.amount = amount) (hissued : inv.status.isIssued = true)
    (hpos : 0 < amount) (hle : (amount : ℤ) ≤ inv.balanceDue) :
    CreditedRow amount inv (reckoned (R.addAdjustment memo) inv) := by
  have hlive : inv.status ≠ .void := by
    intro hvoid
    rw [hvoid] at hissued
    cases hissued
  rw [reckoned, reckon_addMemo hrow hinvoice hkind hamount hlive hpos hle]
  split_ifs
  · exact ⟨rfl, rfl, rfl, rfl, .inr ⟨hissued, rfl⟩⟩
  · exact ⟨rfl, rfl, rfl, rfl, .inl rfl⟩

/-- One memo credits its invoice, and leaves the figures right. -/
theorem issueCreditMemo_credited {reason : Text} (hfigured : db.rows.Figured) (hpos : 0 < amount)
    (h : issueCreditMemo H zone id amount reason actor db = .ok db') :
    Credited [(id, amount)] db.rows db'.rows ∧ db'.rows.Figured := by
  obtain ⟨inv, hinv, memo, rfl, hlive, hissued, hle, hinvoice, hkind, hamount, hrows⟩ :=
    issueCreditMemo_rows hfigured hpos h
  have hrow := reckoned_addMemo (hfigured.reckoned inv hinv hlive) hinvoice hkind hamount hissued hpos hle
  have hid : (reckoned (db.rows.addAdjustment memo) inv).id = inv.id := hrow.id
  rw [hrows]
  refine ⟨⟨rfl, fun id => ?_, ?_⟩, ⟨?_, ?_⟩⟩
  · show sumCents _ ((db.rows.adjustments ++ [memo]).filter _) = _
    rw [List.filter_append, sumCents_append]
    by_cases hmine : inv.id = id <;> simp [memoCents, Rows.creditedOn, sumCents, hmine, hinvoice, hkind, hamount]
  · show List.Forall₂ _ db.rows.invoices (db.rows.invoices.map _)
    rw [List.forall₂_map_right_iff, List.forall₂_same]
    intro other hother
    rw [hid]
    split_ifs with hmine
    · obtain rfl := hfigured.same hother hinv hmine
      simpa [memoCents] using hrow
    · have hnone : memoCents [(inv.id, amount)] other.id = 0 := by simp [memoCents, Ne.symm hmine]
      rw [hnone]
      exact .refl other
  · have hkeys : ((db.rows.addAdjustment memo).putInvoice (reckoned (db.rows.addAdjustment memo) inv)).invoices.map Invoice.id =
        db.rows.invoices.map Invoice.id := keys_putRow
    rw [hkeys]
    exact hfigured.keyed
  · intro other hother hundeleted
    obtain ⟨hmem, hne⟩ | ⟨rfl, -⟩ := mem_putInvoice.mp hother
    · rw [hid] at hne
      have hnot : (memo.invoiceId == other.id) = false := by
        rw [hinvoice, beq_eq_false_iff_ne]
        exact hne.symm
      have hadjustments : (db.rows.adjustments ++ [memo]).filter (·.invoiceId == other.id) =
          db.rows.adjustments.filter (·.invoiceId == other.id) := by
        rw [List.filter_append, List.filter_singleton, hnot]
        exact List.append_nil _
      refine Eq.trans ?_ (hfigured.reckoned other hmem hundeleted)
      exact reckon_congr rfl rfl hadjustments
    · exact reckon_reckoned _ _

theorem Credited.refl (R : Rows) : Credited [] R R :=
  ⟨rfl, fun _ => by simp [memoCents], List.forall₂_same.mpr fun inv _ => .refl inv⟩

theorem creditedRows_trans {f g : ℕ → ℕ} {xs ys zs : List Invoice}
    (h : List.Forall₂ (fun inv inv' => CreditedRow (f inv.id) inv inv') xs ys)
    (h' : List.Forall₂ (fun inv inv' => CreditedRow (g inv.id) inv inv') ys zs) :
    List.Forall₂ (fun inv inv' => CreditedRow (f inv.id + g inv.id) inv inv') xs zs := by
  induction h generalizing zs with
  | nil =>
    cases h'
    exact .nil
  | cons hrow _ ih =>
    cases h' with
    | cons hrow' hrest => exact .cons (hrow.trans (hrow.id ▸ hrow')) (ih hrest)

theorem Credited.cons {memo : ℕ × ℕ} {memos : List (ℕ × ℕ)} {R'' : Rows} (h : Credited [memo] R R')
    (h' : Credited memos R' R'') : Credited (memo :: memos) R R'' := by
  have hcents : ∀ id, memoCents (memo :: memos) id = memoCents [memo] id + memoCents memos id := by
    intro id
    rw [memoCents_cons, memoCents_cons]
    simp [memoCents]
  refine ⟨h'.lines.trans h.lines, fun id => ?_, ?_⟩
  · rw [h'.credited, h.credited, hcents]
    push_cast
    ring
  · simp only [hcents]
    exact creditedRows_trans h.invoices h'.invoices

/-- Any memos that were issued. -/
theorem MemosIssued.credited {memos : List (ℕ × ℕ)} (h : MemosIssued H zone memos db db') (hfigured : db.rows.Figured) :
    Credited memos db.rows db'.rows ∧ db'.rows.Figured := by
  induction h with
  | nil db => exact ⟨.refl _, hfigured⟩
  | @cons id amount _ _ now _ db _ _ hpos hissue _ ih =>
    have hlater : ({ db with now := now } : Db).rows.Figured := hfigured
    obtain ⟨hone, hfigured₁⟩ := issueCreditMemo_credited hlater hpos hissue
    obtain ⟨hmore, hfigured'⟩ := ih hfigured₁
    exact ⟨hone.cons hmore, hfigured'⟩

/-! ### What memos leave alone -/

variable {memos : List (ℕ × ℕ)} {b : CreditBook} {closeout : CloseoutRow}

theorem Credited.invoice? (h : Credited memos R R') (id : ℕ) :
    Option.Rel (CreditedRow (memoCents memos id)) (rowOf Invoice.id R.invoices id) (rowOf Invoice.id R'.invoices id) := by
  have hrows := h.invoices
  generalize R.invoices = xs at hrows
  generalize R'.invoices = ys at hrows
  unfold rowOf
  induction hrows with
  | nil => exact .none
  | @cons inv inv' _ _ hrow _ ih =>
    rw [List.find?_cons, List.find?_cons, hrow.id]
    by_cases hid : inv.id = id
    · rw [hid] at hrow
      simpa [hid] using Option.Rel.some hrow
    · simpa [hid] using ih

/-- The same invoices hold claims. -/
theorem Credited.isLive (h : Credited memos b.db.rows db'.rows) (id : ℕ) :
    (b.on db').labor.isLive id = b.labor.isLive id := by
  have hrows := h.invoices
  unfold LaborBook.isLive CreditBook.labor CreditBook.on
  dsimp only
  generalize b.db.rows.invoices = xs at hrows
  generalize db'.rows.invoices = ys at hrows
  induction hrows with
  | nil => rfl
  | cons hrow _ ih =>
    have hlive := hrow.void_iff
    rw [List.map_cons, List.map_cons, List.any_cons, List.any_cons, ih]
    simp only [hrow.id, LaborInvoice.live, hrow.deleted, hlive]

theorem Credited.laborLines (h : Credited memos b.db.rows db'.rows) : (b.on db').laborLines = b.laborLines := by
  funext id
  exact congrArg (List.filter _) h.lines

theorem Credited.invoiceLaborHours (h : Credited memos b.db.rows db'.rows) :
    (b.on db').invoiceLaborHours = b.invoiceLaborHours := by
  funext id
  rw [CreditBook.invoiceLaborHours, h.laborLines]
  rfl

theorem Credited.billedHourlyRate (h : Credited memos b.db.rows db'.rows) (id : ℕ) :
    (b.on db').billedHourlyRate id = b.billedHourlyRate id := by
  rw [CreditBook.billedHourlyRate, h.laborLines]
  rfl

/-- The same hours are billed on the job. -/
theorem Credited.jobLaborHoursBilled (h : Credited memos b.db.rows db'.rows) :
    (b.on db').jobLaborHoursBilled = b.jobLaborHoursBilled := by
  have hrows := h.invoices
  unfold CreditBook.jobLaborHoursBilled
  rw [h.invoiceLaborHours]
  unfold CreditBook.on
  dsimp only
  generalize b.db.rows.invoices = xs at hrows
  generalize db'.rows.invoices = ys at hrows
  induction hrows with
  | nil => rfl
  | cons hrow _ ih =>
    simp only [List.filter_cons, hrow.jobId, hrow.deleted, hrow.isIssued]
    split_ifs
    · rw [List.map_cons, List.map_cons, List.sum_cons, List.sum_cons, hrow.id, ih]
    · exact ih

theorem restatedFrom_congr {s s' : LaborBook} (hcloseouts : s'.closeouts = s.closeouts)
    (huncompleted : s'.uncompletedAt = s.uncompletedAt) (fuel : ℕ) (seen : List ℕ) (c : CloseoutRow) :
    restatedFrom s' fuel seen c = restatedFrom s fuel seen c := by
  induction fuel generalizing seen c with
  | zero => rfl
  | succ fuel ih =>
    have hfound : s'.closeout? = s.closeout? := by
      funext id
      rw [LaborBook.closeout?, LaborBook.closeout?, hcloseouts]
    have hrestates : restates s' = restates s := by
      funext c prior
      unfold restates
      rw [huncompleted]
    unfold restatedFrom
    rw [hfound, hrestates]
    simp only [ih]

/-- The same claims are held by the same issued invoices. -/
theorem Credited.claimed (h : Credited memos b.db.rows db'.rows) :
    (b.on db').claimed closeout = b.claimed closeout := by
  have hrun : restatedRun (b.on db').labor closeout = restatedRun b.labor closeout := by
    have hlater : (b.on db').labor.closeouts = b.labor.closeouts := rfl
    unfold restatedRun
    rw [hlater]
    exact restatedFrom_congr hlater rfl _ _ _
  have hholder : closeoutHoursHolder (b.on db').labor = closeoutHoursHolder b.labor := by
    funext c
    unfold closeoutHoursHolder
    rw [funext h.isLive]
    rfl
  have hissued : ∀ id, ((b.on db').invoice? id).any (·.status.isIssued) = (b.invoice? id).any (·.status.isIssued) := by
    intro id
    have hrel := h.invoice? id
    show (rowOf Invoice.id db'.rows.invoices id).any _ = (rowOf Invoice.id b.db.rows.invoices id).any _
    generalize rowOf Invoice.id b.db.rows.invoices id = found at hrel
    generalize rowOf Invoice.id db'.rows.invoices id = found' at hrel
    cases hrel with
    | some hrow => exact hrow.isIssued
    | none => rfl
  unfold CreditBook.claimed
  rw [hrun, hholder]
  simp only [hissued]
  rfl

theorem Credited.held (h : Credited memos b.db.rows db'.rows) :
    (b.on db').held closeout = b.held closeout := by
  rw [CreditBook.held, CreditBook.held, h.claimed, h.invoiceLaborHours]

theorem Credited.excess (h : Credited memos b.db.rows db'.rows) :
    (b.on db').excess closeout = b.excess closeout := by
  simp only [CreditBook.excess, CreditBook.floorHours, CreditBook.billed, h.held, h.jobLaborHoursBilled]

/-! ### The second call -/

/-- What is offered, memos of it took already: an invoice still owed something, with a balance, was given less. -/
theorem Credited.offer (h : Credited memos b.db.rows db'.rows) {id : ℕ} {take : ℚ} {t' : CreditTarget}
    (ht' : (b.on db').target closeout id take = some t') (hpos : 0 < t'.amount) :
    ∃ t, b.target closeout id take = some t ∧ t.invoiceId = id ∧ (memoCents memos id : ℤ) < t.amount := by
  obtain ⟨inv', hinv', howed', -, -, -, hamount'⟩ := CreditBook.target_eq_some ht'
  have hcan' : CreditBook.creditable inv' = true := by
    by_contra hcan
    rw [if_neg hcan] at hamount'
    omega
  rw [if_pos hcan'] at hamount'
  have hrel := h.invoice? id
  rw [show rowOf Invoice.id db'.rows.invoices id = some inv' from hinv'] at hrel
  obtain ⟨inv, hinv, hrow⟩ : ∃ inv, b.invoice? id = some inv ∧ CreditedRow (memoCents memos id) inv inv' := by
    show ∃ inv, rowOf Invoice.id b.db.rows.invoices id = some inv ∧ _
    generalize rowOf Invoice.id b.db.rows.invoices id = found at hrel
    cases hrel with
    | some hrow => exact ⟨_, rfl, hrow⟩
  have hcredited : (b.on db').db.rows.creditedOn id = b.db.rows.creditedOn id + memoCents memos id := h.credited id
  have hbalance := hrow.balanceDue
  rw [CreditBook.owed, h.billedHourlyRate] at howed' hamount'
  simp only [CreditBook.creditable, Bool.and_eq_true, Bool.or_eq_true, decide_eq_true_eq] at hcan'
  have hsame : inv'.status = inv.status := by
    obtain hsame | ⟨-, hpaid⟩ := hrow.status
    · exact hsame
    · rw [hpaid] at hcan'
      simp at hcan'
  have hcan : CreditBook.creditable inv = true := by
    simp only [CreditBook.creditable, Bool.and_eq_true, Bool.or_eq_true, decide_eq_true_eq]
    exact ⟨hsame ▸ hcan'.1, by omega⟩
  have howed : 0 < b.owed id take := by
    rw [CreditBook.owed]
    omega
  have hsome : (b.target closeout id take).isSome = true := by simp [CreditBook.target, hinv, howed]
  obtain ⟨t, ht⟩ := Option.isSome_iff_exists.mp hsome
  obtain ⟨inv₀, hinv₀, -, hid, -, -, hamount⟩ := CreditBook.target_eq_some ht
  rw [hinv] at hinv₀
  cases hinv₀
  rw [if_pos hcan, CreditBook.owed] at hamount
  exact ⟨t, ht, hid, by omega⟩

theorem le_memoCents {memo : ℕ × ℕ} (h : memo ∈ memos) : memo.2 ≤ memoCents memos memo.1 := by
  refine List.single_le_sum (fun _ _ => Nat.zero_le _) _ (List.mem_map_of_mem (List.mem_filter.mpr ⟨h, ?_⟩))
  exact decide_eq_true rfl

/-- After memos of the offered amounts, no invoice is offered an amount again. -/
theorem offered_once (hfigured : b.db.rows.Figured) (hmemos : memos.Perm (offered (b.restatementCreditTargets closeout)))
    (h : MemosIssued H zone memos b.db db') : ∀ t' ∈ (b.on db').restatementCreditTargets closeout, t'.amount ≤ 0 := by
  obtain ⟨hcredited, -⟩ := h.credited hfigured
  intro t' hmem'
  obtain ⟨id, take, htake, ht'⟩ := CreditBook.mem_targets.mp hmem'
  rw [hcredited.excess, hcredited.held] at htake
  by_contra hpos
  obtain ⟨t, ht, rfl, hless⟩ := hcredited.offer ht' (not_le.mp hpos)
  have hoffered : (t.invoiceId, t.amount.toNat) ∈ memos := by
    refine hmemos.mem_iff.mpr (List.mem_map.mpr ⟨t, List.mem_filter.mpr ⟨?_, decide_eq_true (by omega)⟩, rfl⟩)
    exact CreditBook.mem_targets.mpr ⟨t.invoiceId, take, htake, ht⟩
  have hle := le_memoCents hoffered
  dsimp only at hle
  omega

end Memo

/-! ### What is offered -/

/-- The hours offered are within the excess, where there is one, each offer is within its invoice's labor and balance, and
    where the figures are right, what was credited is not offered again. -/
theorem restatement_credits (b : CreditBook) (closeout : CloseoutRow) :
    ((b.restatementCreditTargets closeout).map CreditTarget.manHours).sum ≤
      max 0 (b.billed closeout - max (closeoutManHours closeout) (b.floorHours closeout)) ∧
    (∀ t ∈ b.restatementCreditTargets closeout, ∃ inv, b.invoice? t.invoiceId = some inv ∧
      t.manHours ≤ b.invoiceLaborHours t.invoiceId ∧ 0 ≤ t.amount ∧ t.amount ≤ max 0 inv.balanceDue) ∧
    (b.db.rows.Figured → ∀ (H : ContentHash) (zone : ShopZone) (memos : List (ℕ × ℕ)) (db' : Db),
      memos.Perm (offered (b.restatementCreditTargets closeout)) → MemosIssued H zone memos b.db db' →
      ∀ t' ∈ (b.on db').restatementCreditTargets closeout, t'.amount ≤ 0) :=
  ⟨CreditBook.targets_sum closeout, fun _ ht => CreditBook.target_within ht,
    fun hfigured _ _ _ _ hmemos hissued => offered_once hfigured hmemos hissued⟩

/-- A closeout of three hours that an invoice bills, at 100 an hour. -/
def billedCloseout : CloseoutRow := ⟨1, 3, some 1, some 0, true, none, some false, some 1, some 3⟩

/-- It is restated at some hours. -/
def restatedAt (hours : ℚ) : CloseoutRow := ⟨2, hours, some 1, some 1, false, some 1, some true, none, none⟩

/-- The invoice of 300, with a balance. -/
def overbilled (balance : ℤ) (hours : ℚ) : CreditBook where
  db := {
    rows := {
      settings := []
      invoices := [{
        id := 1, number := "INV-1", companyId := 0, customerId := none, jobId := some 9, status := .sent
        invoiceDate := some 0, sentAt := some 0, createdAt := 0, subtotal := 30000, taxRate := none, taxAmount := 0
        total := 30000, balanceDue := balance, totalsLocked := false, deleted := false }]
      lines := [⟨2, 1, "Service labor", 30000, false, some "Labor".toList, false⟩]
      payments := [], adjustments := [], expenses := [], nextId := 3 }
    ledger := ⟨[], [], [], [], 0⟩
    now := 0 }
  jobId := 9
  closeouts := [restatedAt hours, billedCloseout]
  uncompletedAt := []
  settings := none
  quantity := fun _ => 3
  unitPrice := fun _ => 10000

/-- Restated at one hour, the invoice is offered 200, and nothing once that was credited. -/
theorem overbilled_credited :
    offered ((overbilled 30000 1).restatementCreditTargets (restatedAt 1)) = [(1, 20000)] ∧
    ∃ db', issueCreditMemo plainHash utcZone 1 20000 [] none (overbilled 30000 1).db = .ok db' ∧
      ∀ t' ∈ ((overbilled 30000 1).on db').restatementCreditTargets (restatedAt 1), t'.amount ≤ 0 := by
  have hoffered : offered ((overbilled 30000 1).restatementCreditTargets (restatedAt 1)) = [(1, 20000)] := by
    decide +kernel
  have haccepted : (issueCreditMemo plainHash utcZone 1 20000 [] none (overbilled 30000 1).db).isOk = true := by
    decide +kernel
  cases hissue : issueCreditMemo plainHash utcZone 1 20000 [] none (overbilled 30000 1).db with
  | error e =>
    rw [hissue] at haccepted
    cases haccepted
  | ok db' =>
    refine ⟨hoffered, db', rfl, ?_⟩
    have hfigured : (overbilled 30000 1).db.rows.Figured := by
      refine ⟨by decide, fun inv hinv _ => ?_⟩
      rw [List.mem_singleton.mp hinv]
      decide +kernel
    exact (restatement_credits (overbilled 30000 1) (restatedAt 1)).2.2 hfigured plainHash utcZone [(1, 20000)] db'
      (.of_eq hoffered.symm) (.cons (by decide) hissue (.nil db'))

/-- The amounts of the second call, after a memo on the invoice. -/
def offeredAfter (b : CreditBook) (closeout : CloseoutRow) (id amount : ℕ) : List ℤ :=
  match issueCreditMemo plainHash utcZone id amount [] none b.db with
  | .ok db' => ((b.on db').restatementCreditTargets closeout).map CreditTarget.amount
  | .error _ => []

/-- Restated at four hours, nothing is offered, which is more than three less four; and with a balance of 50 in the place
    of 300, a memo of 50 brings the offer back. -/
theorem restatement_offer_exceeds :
    (¬ ∀ (b : CreditBook) (closeout : CloseoutRow),
      ((b.restatementCreditTargets closeout).map CreditTarget.manHours).sum ≤
        b.billed closeout - max (closeoutManHours closeout) (b.floorHours closeout)) ∧
    ¬ ∀ (b : CreditBook) (closeout : CloseoutRow) (H : ContentHash) (zone : ShopZone) (memos : List (ℕ × ℕ)) (db' : Db),
      memos.Perm (offered (b.restatementCreditTargets closeout)) → MemosIssued H zone memos b.db db' →
      ∀ t' ∈ (b.on db').restatementCreditTargets closeout, t'.amount ≤ 0 := by
  constructor
  · intro h
    exact absurd (h (overbilled 30000 4) (restatedAt 4)) (by decide +kernel)
  · intro h
    have hoffered : offered ((overbilled 5000 1).restatementCreditTargets (restatedAt 1)) = [(1, 5000)] := by decide +kernel
    have hagain : offeredAfter (overbilled 5000 1) (restatedAt 1) 1 5000 = [15000] := by decide +kernel
    unfold offeredAfter at hagain
    split at hagain
    · rename_i db' hissue
      obtain ⟨t', ht', hamount⟩ := List.mem_map.mp (hagain ▸ List.mem_singleton_self 15000 :
        (15000 : ℤ) ∈ (((overbilled 5000 1).on db').restatementCreditTargets (restatedAt 1)).map CreditTarget.amount)
      have hnone := h (overbilled 5000 1) (restatedAt 1) plainHash utcZone [(1, 5000)] db' (.of_eq hoffered.symm)
        (.cons (by decide) hissue (.nil db')) t' ht'
      omega
    · cases hagain

end Gdx
