import GdxDispatch.Payments.Stripe
import GdxDispatch.Billing.Requests

/-! A deliberate reversal sticks.

    Whatever a step does to the payment table is one of four moves: nothing, a new live row, a void of a live
    row, or the one un-void. A row is recorded only where no deliberate void of its reference stands, and
    the rows of an intent all sit on the invoice it was minted for, so a deliberate void blocks them all. -/

namespace Gdx

open Lib

/-! ### What leaves the payments alone -/

section Tables

variable {H : ContentHash} {zone : ShopZone} {db db' : Db} {actor : Option Text}

theorem recalculateRow_same {i : Invoice} (h : recalculateRow H db i actor = .ok db') : SameTable db db' := by
  unfold recalculateRow at h
  rw [except_bind_ok] at h
  obtain ⟨db₁, hpost, h⟩ := h
  have hsame := (putInvoice_same db _).trans (post_same hpost)
  split at h
  · exact hsame.trans (transition_same h)
  · cases h
    exact hsame

theorem recalculateOf_same {i : ℕ} (h : recalculateOf H db i actor = .ok db') : SameTable db db' := by
  unfold recalculateOf at h
  split at h
  · cases h
    exact SameTable.refl db
  · exact recalculateRow_same h

theorem settleRecorded_same {i : ℕ} {p : Payment} (h : settleRecorded H zone db i p actor = .ok db') :
    SameTable db db' := by
  unfold settleRecorded at h
  rw [except_bind_ok] at h
  obtain ⟨db₁, hcalc, h⟩ := h
  refine (recalculateOf_same hcalc).trans ?_
  split at h
  · cases h
    exact SameTable.refl _
  · exact post_same h

theorem resettleOf_same {i : ℕ} {fallback : Option ℤ} (h : resettleOf H zone db i actor fallback = .ok db') :
    SameTable db db' := by
  unfold resettleOf at h
  split at h
  · cases h
    exact SameTable.refl db
  · exact post_same h

theorem reopenIfOwing_same {i : ℕ} (h : reopenIfOwing H db i actor = .ok db') : SameTable db db' := by
  unfold reopenIfOwing at h
  split at h
  · cases h
    exact SameTable.refl db
  · split at h
    · exact transition_same h
    · cases h
      exact SameTable.refl db

end Tables

/-! ### Moves -/

/-- What a step does to the payment rows, short of an un-void. -/
inductive Move (minted : Text → Option ℕ) (desk desk' : PaymentDesk) : Prop where
  | keep (hpayments : desk'.payments = desk.payments) (hnext : desk'.db.rows.nextId = desk.db.rows.nextId)
      (hreason : desk'.voidedReason = desk.voidedReason)
  | record (p : Payment) (r : Text) (href : p.reference = some r) (hid : p.id = desk.db.rows.nextId)
      (hmint : minted r = some p.invoiceId) (hfree : r ≠ [] → deliberatelyVoided desk p.invoiceId r = none)
      (hpayments : desk'.payments = desk.payments ++ [p]) (hnext : desk'.db.rows.nextId = desk.db.rows.nextId + 1)
      (hreason : desk'.voidedReason = desk.voidedReason)
  | void (p : Payment) (reason : VoidReason) (t : ℤ) (hp : p ∈ desk.payments) (hlive : p.voidedAt = none)
      (hpayments : desk'.payments = (desk.db.rows.putPayment { p with voidedAt := some t }).payments)
      (hnext : desk'.db.rows.nextId = desk.db.rows.nextId)
      (hreason : desk'.voidedReason = Function.update desk.voidedReason p.id (some reason))

/-- The one un-void: the only voided row of the reference, and a dispute voided it. -/
structure Unvoid (reference : Text) (p : Payment) (desk desk' : PaymentDesk) : Prop where
  sole : (desk.payments.filter fun q => decide (q.reference = some reference) && q.voidedAt.isSome) = [p]
  dispute : ∃ r ∈ desk.voidedReason p.id, r ∈ DISPUTE_VOID_REASONS
  payments : desk'.payments = (desk.db.rows.putPayment { p with voidedAt := none }).payments
  nextId : desk'.db.rows.nextId = desk.db.rows.nextId
  reason : desk'.voidedReason = Function.update desk.voidedReason p.id none

section Moves

variable {H : ContentHash} {zone : ShopZone} {minted : Text → Option ℕ} {desk desk' : PaymentDesk}

theorem Move.refl (desk : PaymentDesk) : Move minted desk desk := .keep rfl rfl rfl

theorem move_of_sameTable {db' : Db} (h : SameTable desk.db db') : Move minted desk { desk with db := db' } :=
  .keep h.payments h.nextId rfl

theorem markInvoicePaid_move {invoice : Invoice} {reference method : Text} {amount surcharge : ℤ} {source : Text}
    {db' : Db} (hmint : minted reference = some invoice.id)
    (h : markInvoicePaid H zone desk invoice reference method amount surcharge source = .ok db') :
    Move minted desk { desk with db := db' } := by
  unfold markInvoicePaid at h
  split at h
  · cases h
    exact Move.refl desk
  · split at h
    · cases h
      exact Move.refl desk
    · rename_i hvoided
      dsimp only at h
      generalize (if amount ≠ 0 then amount else max (invoice.total - paidCents desk.db.rows invoice) 0) = pay at h
      split at h
      · exact move_of_sameTable (recalculateOf_same h)
      · split at h
        · cases h
          exact Move.refl desk
        · have hsame := settleRecorded_same h
          refine .record _ reference rfl rfl hmint (fun hne => ?_) hsame.payments hsame.nextId rfl
          by_contra hsome
          exact hvoided ⟨hne, Option.isSome_iff_ne_none.mpr hsome⟩

theorem applyPaymentVoidState_ok {p : Payment} {mark : Option VoidReason} {actor : Option Text} {onLock : OnPeriodLock}
    (h : applyPaymentVoidState H zone desk p mark actor onLock = .ok desk') :
    SameTable (desk.flag p mark).db desk'.db ∧ desk'.voidedReason = (desk.flag p mark).voidedReason := by
  unfold applyPaymentVoidState at h
  dsimp only at h
  split at h
  · rename_i db hsettle
    cases h
    exact ⟨resettleOf_same hsettle, rfl⟩
  · split at h
    · cases h
    · split at h
      · rename_i db hsettle
        cases h
        exact ⟨resettleOf_same hsettle, rfl⟩
      · split at h
        · cases h
          exact ⟨SameTable.refl _, rfl⟩
        · cases h

theorem reverseRecordedPayment_move {reference : Text} {reason : VoidReason} {o : Outcome}
    (h : reverseRecordedPayment H zone desk reference reason = .ok (desk', o)) : Move minted desk desk' := by
  unfold reverseRecordedPayment at h
  split at h
  · cases h
    exact Move.refl _
  · split at h
    · cases h
      exact Move.refl _
    · rename_i p hfind
      have hp := List.mem_of_find?_eq_some hfind
      have hsel := List.find?_some hfind
      simp only [Bool.and_eq_true, decide_eq_true_eq, Option.isNone_iff_eq_none] at hsel
      simp only [except_bind_ok] at h
      obtain ⟨desk₁, hflag, db₁, hcalc, db₂, hopen, h⟩ := h
      cases h
      obtain ⟨hsame, hreason⟩ := applyPaymentVoidState_ok hflag
      have htable := (hsame.trans (recalculateOf_same hcalc)).trans (reopenIfOwing_same hopen)
      exact .void p reason _ hp hsel.2 htable.payments htable.nextId hreason

theorem reinstateReversedPayment_move {reference : Text} {o : Outcome}
    (h : reinstateReversedPayment H zone desk reference = .ok (desk', o)) :
    Move minted desk desk' ∨ ∃ p, Unvoid reference p desk desk' := by
  unfold reinstateReversedPayment at h
  split at h
  · cases h
    exact Or.inl (Move.refl _)
  · split at h
    · cases h
      exact Or.inl (Move.refl _)
    · rename_i p hsole
      unfold unvoidDisputed at h
      split at h
      · rename_i hdispute
        split at h
        · cases h
        · simp only [except_bind_ok] at h
          obtain ⟨desk₁, hflag, db₁, hcalc, h⟩ := h
          cases h
          obtain ⟨hsame, hreason⟩ := applyPaymentVoidState_ok hflag
          have htable := hsame.trans (recalculateOf_same hcalc)
          refine Or.inr ⟨p, hsole, ?_, htable.payments, htable.nextId, hreason⟩
          simpa [Option.any_eq_true] using hdispute
      · cases h
        exact Or.inl (Move.refl _)
    · cases h
      exact Or.inl (Move.refl _)

theorem intentSucceeded_move {pi : IntentObject} {reads : LiveReads} {o : Outcome}
    (h : intentSucceeded H zone minted desk pi reads = .ok (desk', o)) : Move minted desk desk' := by
  unfold intentSucceeded at h
  split at h
  · cases h
    exact Move.refl _
  · rename_i id hmint
    split at h
    · cases h
      exact Move.refl _
    · split at h
      · cases h
      · cases h
        exact Move.refl _
      · rename_i rail invoice _ hrow
        split at h
        · cases h
          exact Move.refl _
        · have hid : invoice.id = id := by
            obtain ⟨hfind, -⟩ := Option.filter_eq_some_iff.mp hrow
            simpa using List.find?_some hfind
          dsimp only at h
          simp only [except_bind_ok] at h
          obtain ⟨db', hpaid, h⟩ := h
          cases h
          exact markInvoicePaid_move (hid ▸ hmint) hpaid

theorem reverseUnlessSuperseded_move {reference charge : Text} {reason : VoidReason} {reads : LiveReads} {o : Outcome}
    (h : reverseUnlessSuperseded H zone desk reference reason charge reads = .ok (desk', o)) : Move minted desk desk' := by
  unfold reverseUnlessSuperseded at h
  split at h
  · cases h
    exact Move.refl _
  · exact reverseRecordedPayment_move h

theorem applyChargeRefund_move {reference : Text} {charged refunded : Option ℤ} {o : Outcome}
    (h : applyChargeRefund H zone desk reference charged refunded = .ok (desk', o)) : Move minted desk desk' := by
  unfold applyChargeRefund at h
  split at h
  · cases h
    exact Move.refl _
  · split at h
    · cases h
      exact Move.refl _
    · exact reverseRecordedPayment_move h

theorem noteBankDebit_desk (pi : IntentObject) (isDebit : Bool) (noted skipped : Outcome) :
    (noteBankDebit minted desk pi isDebit noted skipped).1 = desk := by
  unfold noteBankDebit
  split <;> rfl

/-- Only a reinstatement un-voids. -/
theorem handlePaymentWebhook_move {reads : LiveReads} {event : StripeEvent} {o : Outcome}
    (h : handlePaymentWebhook H zone minted desk reads event = .ok (desk', o)) :
    Move minted desk desk' ∨ ∃ r p, event = .fundsReinstated r ∧ Unvoid r p desk desk' := by
  cases event with
  | processing pi =>
    obtain rfl : (noteBankDebit minted desk pi _ _ _).1 = desk' := congrArg Prod.fst (Except.ok.inj h)
    rw [noteBankDebit_desk]
    exact Or.inl (Move.refl _)
  | requiresAction pi microdeposits =>
    obtain rfl : (noteBankDebit minted desk pi _ _ _).1 = desk' := congrArg Prod.fst (Except.ok.inj h)
    rw [noteBankDebit_desk]
    exact Or.inl (Move.refl _)
  | succeeded pi => exact Or.inl (intentSucceeded_move h)
  | chargeRefunded reference charged refunded => exact Or.inl (applyChargeRefund_move h)
  | disputeCreated reference status =>
    simp only [handlePaymentWebhook] at h
    split at h
    · cases h
      exact Or.inl (Move.refl _)
    · exact Or.inl (reverseRecordedPayment_move h)
  | fundsWithdrawn reference => exact Or.inl (reverseRecordedPayment_move h)
  | fundsReinstated reference =>
    rcases reinstateReversedPayment_move h with hmove | ⟨p, hun⟩
    · exact Or.inl hmove
    · exact Or.inr ⟨reference, p, rfl, hun⟩
  | chargeFailed reference charge => exact Or.inl (reverseUnlessSuperseded_move h)
  | paymentFailed pi =>
    simp only [handlePaymentWebhook, except_bind_ok] at h
    obtain ⟨⟨desk₁, reversal⟩, hrev, h⟩ := h
    cases h
    exact Or.inl (reverseUnlessSuperseded_move hrev)
  | other =>
    cases h
    exact Or.inl (Move.refl _)

/-- The event log is no payment row. -/
theorem recordHandled_same (desk : PaymentDesk) (d : Delivery) (o : Outcome) :
    (recordHandled desk d o).db = desk.db ∧ (recordHandled desk d o).voidedReason = desk.voidedReason := by
  unfold recordHandled
  dsimp only
  split <;> exact ⟨rfl, rfl⟩

theorem Move.of_same {desk₁ : PaymentDesk} (h : Move minted desk desk₁)
    (hsame : desk'.db = desk₁.db ∧ desk'.voidedReason = desk₁.voidedReason) : Move minted desk desk' := by
  obtain ⟨hdb, hreasons⟩ := hsame
  have hrows : desk'.payments = desk₁.payments := congrArg (fun db => db.rows.payments) hdb
  cases h with
  | keep hpayments hnext hreason =>
    exact .keep (hrows.trans hpayments) (hdb ▸ hnext) (hreasons.trans hreason)
  | record p r href hid hmint hfree hpayments hnext hreason =>
    exact .record p r href hid hmint hfree (hrows.trans hpayments) (hdb ▸ hnext) (hreasons.trans hreason)
  | void p reason t hp hlive hpayments hnext hreason =>
    exact .void p reason t hp hlive (hrows.trans hpayments) (hdb ▸ hnext) (hreasons.trans hreason)

theorem Unvoid.of_same {desk₁ : PaymentDesk} {r : Text} {p : Payment} (h : Unvoid r p desk desk₁)
    (hsame : desk'.db = desk₁.db ∧ desk'.voidedReason = desk₁.voidedReason) : Unvoid r p desk desk' := by
  obtain ⟨hdb, hreasons⟩ := hsame
  have hrows : desk'.payments = desk₁.payments := congrArg (fun db => db.rows.payments) hdb
  exact ⟨h.sole, h.dispute, hrows.trans h.payments, hdb ▸ h.nextId, hreasons.trans h.reason⟩

theorem stripeWebhook_move (d : Delivery) :
    Move minted desk (stripeWebhook H zone minted desk d) ∨
      ∃ r p, d.event = .fundsReinstated r ∧ Unvoid r p desk (stripeWebhook H zone minted desk d) := by
  unfold stripeWebhook
  split
  · exact Or.inl (Move.refl _)
  · split
    · rename_i desk₁ o hhandle
      have hsame := recordHandled_same desk₁ d o
      rcases handlePaymentWebhook_move hhandle with hmove | ⟨r, p, hevent, hun⟩
      · exact Or.inl (hmove.of_same hsame)
      · exact Or.inr ⟨r, p, hevent, hun.of_same hsame⟩
    · exact Or.inl (Move.refl _)

theorem recordSettled_move {invoice : Invoice} {pi : IntentObject} {reads : LiveReads} {source : Text}
    (hmint : minted pi.id = some invoice.id) (h : recordSettled H zone desk invoice pi reads source = .ok desk') :
    Move minted desk desk' := by
  unfold recordSettled at h
  split at h
  · cases h
  · dsimp only at h
    simp only [except_bind_ok] at h
    obtain ⟨db', hpaid, h⟩ := h
    cases h
    exact markInvoicePaid_move hmint hpaid

theorem confirmPayment_move {id : ℕ} {retrieved : Except String IntentObject} {reads : LiveReads}
    (h : confirmPayment H zone minted desk id retrieved reads = .ok desk') : Move minted desk desk' := by
  unfold confirmPayment at h
  rw [except_bind_ok] at h
  obtain ⟨invoice, -, h⟩ := h
  split at h
  · cases h
  · split at h
    · cases h
    · rename_i hmint
      split at h
      · exact recordSettled_move (not_not.mp hmint) h
      · cases h
        exact Move.refl _

theorem settleUnrecorded_move {id : ℕ} {read : IntentObject × LiveReads} (hmint : minted read.1.id = some id) :
    Move minted desk (settleUnrecorded H zone id desk read) := by
  unfold settleUnrecorded
  dsimp only
  split
  · exact Move.refl _
  · split
    · rename_i desk₁ hmap
      obtain ⟨invoice, hrow, hrec⟩ := Option.map_eq_some_iff.mp hmap
      have hid : invoice.id = id := by simpa using List.find?_some hrow
      exact recordSettled_move (hid ▸ hmint) hrec
    · exact Move.refl _

/-- A recovery records one settled intent after another. -/
theorem recoverSettledIntents_moves {id : ℕ} {pending : Option AchStage} {snapshot : List (IntentObject × LiveReads)}
    (h : recoverSettledIntents H zone minted desk id pending snapshot = .ok desk') :
    Relation.ReflTransGen (Move minted) desk desk' := by
  unfold recoverSettledIntents at h
  simp only [except_bind_ok] at h
  obtain ⟨invoice, -, -, -, h⟩ := h
  cases h
  have hmint : ∀ read ∈ snapshot.filter fun read => decide (minted read.1.id = some invoice.id),
      minted read.1.id = some invoice.id := by
    intro read hread
    simpa using (List.mem_filter.mp hread).2
  generalize snapshot.filter (fun read => decide (minted read.1.id = some invoice.id)) = reads at hmint
  induction reads generalizing desk with
  | nil => exact .refl
  | cons read rest ih =>
    refine .head (settleUnrecorded_move (hmint read (by simp))) (ih fun r hr => hmint r (by simp [hr]))

theorem voidPayment_ok {id pid : ℕ} {actor : Option Text} {db db' : Db} (h : voidPayment H zone id pid actor db = .ok db') :
    ∃ p ∈ db.rows.payments, p.id = pid ∧ ((p.voidedAt.isSome = true ∧ db' = db) ∨ (p.voidedAt = none ∧
      SameTable { db with rows := db.rows.putPayment { p with voidedAt := some db.now } } db')) := by
  unfold voidPayment at h
  rw [except_bind_ok] at h
  obtain ⟨invoice, -, h⟩ := h
  split at h
  · cases h
  · rename_i p hfind
    have hp := List.mem_of_find?_eq_some hfind
    have hsel := List.find?_some hfind
    simp only [Bool.and_eq_true, beq_iff_eq] at hsel
    refine ⟨p, hp, hsel.1, ?_⟩
    split at h
    · rename_i hvoided
      cases h
      exact Or.inl ⟨hvoided, rfl⟩
    · rename_i hlive
      refine Or.inr ⟨by simpa using hlive, ?_⟩
      dsimp only at h
      simp only [except_bind_ok] at h
      obtain ⟨db₁, hpost, db₂, hcalc, i, -, h⟩ := h
      have hsame := (post_same hpost).trans (recalculateInvoice_same hcalc)
      split at h
      · exact hsame.trans (transition_same h)
      · cases h
        exact hsame

theorem officeVoid_move {id pid : ℕ} {actor : Text} (hids : (desk.payments.map (·.id)).Nodup)
    (h : officeVoid H zone desk id pid actor = .ok desk') : Move minted desk desk' := by
  unfold officeVoid at h
  rw [except_bind_ok] at h
  obtain ⟨db', hvoid, h⟩ := h
  cases h
  obtain ⟨p, hp, hid, hcase⟩ := voidPayment_ok hvoid
  have hsole : ∀ q ∈ desk.payments, q.id = pid → q = p := fun q hq hq' =>
    List.inj_on_of_nodup_map hids hq hp (hq'.trans hid.symm)
  rcases hcase with ⟨hvoided, rfl⟩ | ⟨hlive, hsame⟩
  · have hnone : (desk.payments.any fun q => decide (q.id = pid) && q.voidedAt.isNone) = false := by
      refine List.any_eq_false.mpr fun q hq => ?_
      simp only [Bool.and_eq_true, decide_eq_true_eq, not_and]
      intro hq'
      rw [hsole q hq hq']
      simpa [Option.isSome_iff_ne_none] using hvoided
    refine .keep rfl rfl ?_
    simp only [hnone]
    rfl
  · have hany : (desk.payments.any fun q => decide (q.id = pid) && q.voidedAt.isNone) = true :=
      List.any_eq_true.mpr ⟨p, hp, by simp [hid, hlive]⟩
    refine .void p .officeVoid desk.db.now hp hlive hsame.payments hsame.nextId ?_
    simp only [hany, if_true, hid]

end Moves

/-! ### The invariant -/

def PaymentDesk.rowsOf (desk : PaymentDesk) (ref : Text) : List Payment :=
  desk.payments.filter fun p => p.reference = some ref

/-- Ids are unique and were all given out, and the rows of the intent sit on the invoice it was minted for. -/
structure DeskOk (minted : Text → Option ℕ) (ref : Text) (desk : PaymentDesk) : Prop where
  ids : (desk.payments.map (·.id)).Nodup
  numbered : ∀ p ∈ desk.payments, p.id < desk.db.rows.nextId
  placed : ∀ p ∈ desk.payments, p.reference = some ref → minted ref = some p.invoiceId

/-- The row is still voided, for the same reason, and the reference has no new row. -/
structure StaysVoided (ref : Text) (p : Payment) (desk desk' : PaymentDesk) : Prop where
  row : p ∈ desk'.payments
  reason : desk'.voidedReason p.id = desk.voidedReason p.id
  rows : (desk'.rowsOf ref).map (·.id) = (desk.rowsOf ref).map (·.id)

section Invariant

variable {minted : Text → Option ℕ} {ref : Text} {desk desk₁ desk' : PaymentDesk} {p q : Payment}

theorem StaysVoided.refl (hp : p ∈ desk.payments) : StaysVoided ref p desk desk := ⟨hp, rfl, rfl⟩

theorem StaysVoided.trans (h : StaysVoided ref p desk desk₁) (h' : StaysVoided ref p desk₁ desk') : StaysVoided ref p desk desk' :=
  ⟨h'.row, h'.reason.trans h.reason, h'.rows.trans h.rows⟩

theorem StaysVoided.deliberate (h : StaysVoided ref p desk desk') (hd : desk.deliberate p = true) : desk'.deliberate p = true := by
  unfold PaymentDesk.deliberate
  rw [h.reason]
  exact hd

/-- The flag of one row is moved; every row keeps its id, its reference and its invoice. -/
theorem flagged_eq {R : Rows} {v : Option ℤ} (hids : (R.payments.map (·.id)).Nodup) (hq : q ∈ R.payments) :
    (R.putPayment { q with voidedAt := v }).payments =
      R.payments.map fun r => if r.id = q.id then { r with voidedAt := v } else r := by
  refine List.map_congr_left fun r hr => ?_
  by_cases hid : r.id = q.id
  · rw [List.inj_on_of_nodup_map hids hr hq hid]
  · rw [if_neg hid, if_neg hid]

theorem mem_flagged_of_ne {R : Rows} {v : Option ℤ} (hp : p ∈ R.payments) (hne : p.id ≠ q.id) :
    p ∈ (R.putPayment { q with voidedAt := v }).payments :=
  List.mem_map.mpr ⟨p, hp, if_neg hne⟩

theorem flagged_ids {R : Rows} {v : Option ℤ} (hids : (R.payments.map (·.id)).Nodup) (hq : q ∈ R.payments) :
    (R.putPayment { q with voidedAt := v }).payments.map (·.id) = R.payments.map (·.id) := by
  rw [flagged_eq hids hq, List.map_map]
  refine List.map_congr_left fun r _ => ?_
  simp only [Function.comp_apply]
  split <;> rfl

theorem flagged_rows {R : Rows} {v : Option ℤ} (hids : (R.payments.map (·.id)).Nodup) (hq : q ∈ R.payments) :
    (((R.putPayment { q with voidedAt := v }).payments.filter fun r => r.reference = some ref).map (·.id)) =
      (R.payments.filter fun r => r.reference = some ref).map (·.id) := by
  rw [flagged_eq hids hq, List.filter_map, List.map_map]
  have hkeep : ((fun r : Payment => decide (r.reference = some ref)) ∘ fun r : Payment =>
      if r.id = q.id then { r with voidedAt := v } else r) = fun r => decide (r.reference = some ref) := by
    funext r
    simp only [Function.comp_apply]
    split <;> rfl
  rw [hkeep]
  refine List.map_congr_left fun r _ => ?_
  simp only [Function.comp_apply]
  split <;> rfl

/-- Moving the flag of a row keeps the tables in order. -/
theorem DeskOk.flagged {v : Option ℤ} (h : DeskOk minted ref desk) (hq : q ∈ desk.payments)
    (hpayments : desk'.payments = (desk.db.rows.putPayment { q with voidedAt := v }).payments)
    (hnext : desk'.db.rows.nextId = desk.db.rows.nextId) : DeskOk minted ref desk' := by
  refine ⟨?_, ?_, ?_⟩
  · rw [hpayments, flagged_ids h.ids hq]
    exact h.ids
  · intro r hr
    rw [hpayments, flagged_eq h.ids hq] at hr
    obtain ⟨r₀, hr₀, rfl⟩ := List.mem_map.mp hr
    rw [hnext]
    split <;> exact h.numbered r₀ hr₀
  · intro r hr href
    rw [hpayments, flagged_eq h.ids hq] at hr
    obtain ⟨r₀, hr₀, rfl⟩ := List.mem_map.mp hr
    split at href <;> split <;> exact h.placed r₀ hr₀ href

theorem DeskOk.move (h : DeskOk minted ref desk) (hmove : Move minted desk desk') : DeskOk minted ref desk' := by
  cases hmove with
  | keep hpayments hnext hreason =>
    exact ⟨hpayments ▸ h.ids, hpayments ▸ hnext ▸ h.numbered, hpayments ▸ h.placed⟩
  | record q r href hid hmint hfree hpayments hnext hreason =>
    refine ⟨?_, ?_, ?_⟩
    · rw [hpayments, List.map_append, List.nodup_append]
      refine ⟨h.ids, by simp, ?_⟩
      rintro a ha b hb rfl
      obtain ⟨r', hr', rfl⟩ := List.mem_map.mp ha
      have heq : r'.id = q.id := by simpa using hb
      exact (h.numbered r' hr').ne (heq.trans hid)
    · intro r' hr'
      rw [hpayments, List.mem_append, List.mem_singleton] at hr'
      rw [hnext]
      rcases hr' with hr' | rfl
      · exact Nat.lt_succ_of_lt (h.numbered r' hr')
      · exact hid ▸ Nat.lt_succ_self _
    · intro r' hr' href'
      rw [hpayments, List.mem_append, List.mem_singleton] at hr'
      rcases hr' with hr' | rfl
      · exact h.placed r' hr' href'
      · obtain rfl : r = ref := Option.some.inj (href.symm.trans href')
        exact hmint
  | void q reason t hq hlive hpayments hnext hreason => exact h.flagged hq hpayments hnext

theorem deliberatelyVoided_isSome {invoice : ℕ} (hp : p ∈ desk.payments) (hinv : p.invoiceId = invoice)
    (href : p.reference = some ref) (hd : desk.deliberate p = true) : deliberatelyVoided desk invoice ref ≠ none := by
  unfold deliberatelyVoided
  rw [Ne, Option.map_eq_none_iff, List.find?_eq_none]
  intro hnone
  exact hnone p hp (by simp [hinv, href, hd])

/-- No move un-voids a row, and none records its reference again. -/
theorem Move.staysVoided (hmove : Move minted desk desk') (h : DeskOk minted ref desk) (hne : ref ≠ [])
    (hp : p ∈ desk.payments) (href : p.reference = some ref) (hd : desk.deliberate p = true) :
    StaysVoided ref p desk desk' := by
  cases hmove with
  | keep hpayments hnext hreason =>
    refine ⟨hpayments ▸ hp, by rw [hreason], ?_⟩
    unfold PaymentDesk.rowsOf
    rw [hpayments]
  | record q r hqref hid hmint hfree hpayments hnext hreason =>
    -- the new row is of another intent: the void of `p` would have blocked it
    have hother : q.reference ≠ some ref := by
      intro hq
      obtain rfl : r = ref := Option.some.inj (hqref.symm.trans hq)
      have hinv : p.invoiceId = q.invoiceId := Option.some.inj ((h.placed p hp href).symm.trans hmint)
      exact deliberatelyVoided_isSome hp hinv href hd (hfree hne)
    refine ⟨hpayments ▸ List.mem_append_left _ hp, by rw [hreason], ?_⟩
    unfold PaymentDesk.rowsOf
    rw [hpayments, List.filter_append, List.filter_cons_of_neg (by simpa using hother), List.filter_nil,
      List.append_nil]
  | void q reason t hq hlive hpayments hnext hreason =>
    have hid : p.id ≠ q.id := by
      intro hid
      rw [List.inj_on_of_nodup_map h.ids hp hq hid] at hd
      simp [PaymentDesk.deliberate, hlive] at hd
    refine ⟨hpayments ▸ mem_flagged_of_ne hp hid, ?_, ?_⟩
    · rw [hreason, Function.update_of_ne hid]
    · unfold PaymentDesk.rowsOf
      rw [hpayments]
      exact flagged_rows h.ids hq

theorem moves_stayVoided (hmoves : Relation.ReflTransGen (Move minted) desk desk') (h : DeskOk minted ref desk) :
    DeskOk minted ref desk' ∧ (ref ≠ [] → ∀ p ∈ desk.payments, p.reference = some ref → desk.deliberate p = true →
      StaysVoided ref p desk desk') := by
  induction hmoves with
  | refl => exact ⟨h, fun _ p hp _ _ => StaysVoided.refl hp⟩
  | tail _ hmove ih =>
    refine ⟨ih.1.move hmove, fun hne p hp href hd => ?_⟩
    have hstays := ih.2 hne p hp href hd
    exact hstays.trans (hmove.staysVoided ih.1 hne hstays.row href (hstays.deliberate hd))

theorem Unvoid.mem {r : Text} (h : Unvoid r q desk desk') : q ∈ desk.payments ∧ q.reference = some r := by
  have hq : q ∈ desk.payments.filter fun q => decide (q.reference = some r) && q.voidedAt.isSome := by
    rw [h.sole]
    exact List.mem_singleton_self q
  obtain ⟨hmem, hsel⟩ := List.mem_filter.mp hq
  simp only [Bool.and_eq_true, decide_eq_true_eq] at hsel
  exact ⟨hmem, hsel.1⟩

theorem DeskOk.unvoid {r : Text} (h : DeskOk minted ref desk) (hun : Unvoid r q desk desk') : DeskOk minted ref desk' :=
  h.flagged hun.mem.1 hun.payments hun.nextId

/-- An un-void makes no row, and touches `p` only as the voided row of its own reference. -/
theorem Unvoid.rows {r : Text} (hun : Unvoid r q desk desk') (h : DeskOk minted ref desk) :
    (desk'.rowsOf ref).map (·.id) = (desk.rowsOf ref).map (·.id) := by
  unfold PaymentDesk.rowsOf
  rw [hun.payments]
  exact flagged_rows h.ids hun.mem.1

theorem Unvoid.staysVoided {r : Text} (hun : Unvoid r q desk desk') (h : DeskOk minted ref desk) (hp : p ∈ desk.payments)
    (hne : p ≠ q) : StaysVoided ref p desk desk' := by
  have hid : p.id ≠ q.id := fun hid => hne (List.inj_on_of_nodup_map h.ids hp hun.mem.1 hid)
  refine ⟨hun.payments ▸ mem_flagged_of_ne hp hid, ?_, hun.rows h⟩
  rw [hun.reason, Function.update_of_ne hid]

end Invariant

/-! ### Runs -/

/-- The call is a `funds_reinstated` of the reference, `p` is its only voided row, and a dispute voided it. -/
structure Reinstates (ref : Text) (p : Payment) (desk : PaymentDesk) (call : PaymentCall) : Prop where
  event : ∃ d, call.step = .webhook d ∧ d.event = .fundsReinstated ref
  sole : (desk.payments.filter fun q => decide (q.reference = some ref) && q.voidedAt.isSome) = [p]
  dispute : ∃ r ∈ desk.voidedReason p.id, r ∈ DISPUTE_VOID_REASONS

section Runs

variable {H : ContentHash} {zone : ShopZone} {minted : Text → Option ℕ} {ref : Text} {desk : PaymentDesk} {p : Payment}

/-- What a call does: moves, or one un-void by a reinstatement. -/
theorem serve_moves (hids : (desk.payments.map (·.id)).Nodup) (call : PaymentCall) :
    Relation.ReflTransGen (Move minted) desk (desk.serve H zone minted call) ∨
      ∃ r q, (∃ d, call.step = .webhook d ∧ d.event = .fundsReinstated r) ∧
        Unvoid r q desk (desk.serve H zone minted call) := by
  obtain ⟨wait, step⟩ := call
  have htick : Move minted desk (desk.tick wait) := .keep rfl rfl rfl
  have hone : ∀ desk', Move minted (desk.tick wait) desk' → Relation.ReflTransGen (Move minted) desk desk' :=
    fun desk' hmove => .tail (.single htick) hmove
  cases step with
  | webhook d =>
    rcases stripeWebhook_move (H := H) d with
      hmove | ⟨r, q, hevent, hun⟩
    · exact Or.inl (hone _ hmove)
    · exact Or.inr ⟨r, q, ⟨d, rfl, hevent⟩, hun.sole, hun.dispute, hun.payments, hun.nextId, hun.reason⟩
  | confirm id retrieved reads =>
    refine Or.inl (hone _ ?_)
    change Move minted _ ((desk.tick wait).orElse (confirmPayment H zone minted (desk.tick wait) id retrieved reads))
    cases hc : confirmPayment H zone minted (desk.tick wait) id retrieved reads with
    | error e => exact Move.refl _
    | ok desk' => exact confirmPayment_move hc
  | recover id pending snapshot =>
    refine Or.inl (.head htick ?_)
    change Relation.ReflTransGen _ _
      ((desk.tick wait).orElse (recoverSettledIntents H zone minted (desk.tick wait) id pending snapshot))
    cases hc : recoverSettledIntents H zone minted (desk.tick wait) id pending snapshot with
    | error e => exact .refl
    | ok desk' => exact recoverSettledIntents_moves hc
  | officeVoid id pid actor =>
    refine Or.inl (hone _ ?_)
    change Move minted _ ((desk.tick wait).orElse (officeVoid H zone (desk.tick wait) id pid actor))
    cases hc : officeVoid H zone (desk.tick wait) id pid actor with
    | error e => exact Move.refl _
    | ok desk' => exact officeVoid_move hids hc

theorem DeskOk.serve (h : DeskOk minted ref desk) (call : PaymentCall) :
    DeskOk minted ref (desk.serve H zone minted call) := by
  rcases serve_moves (H := H) h.ids call with hmoves | ⟨r, q, -, hun⟩
  · exact (moves_stayVoided hmoves h).1
  · exact h.unvoid hun

theorem DeskOk.run {calls : List PaymentCall} (h : DeskOk minted ref desk) :
    DeskOk minted ref (desk.run H zone minted calls) := by
  induction calls generalizing desk with
  | nil => exact h
  | cons call rest ih => exact ih (h.serve call)

/-- One call leaves a deliberate void alone, or reinstates it; either way the reference gets no new row. -/
theorem serve_staysVoided (h : DeskOk minted ref desk) (hne : ref ≠ []) (hp : p ∈ desk.payments)
    (href : p.reference = some ref) (hd : desk.deliberate p = true) (call : PaymentCall) :
    StaysVoided ref p desk (desk.serve H zone minted call) ∨ (Reinstates ref p desk call ∧
      ((desk.serve H zone minted call).rowsOf ref).map (·.id) = (desk.rowsOf ref).map (·.id)) := by
  rcases serve_moves (H := H) h.ids call with hmoves | ⟨r, q, hevent, hun⟩
  · exact Or.inl ((moves_stayVoided hmoves h).2 hne p hp href hd)
  · by_cases hpq : p = q
    · subst hpq
      obtain rfl : r = ref := Option.some.inj (hun.mem.2.symm.trans href)
      exact Or.inr ⟨⟨hevent, hun.sole, hun.dispute⟩, hun.rows h⟩
    · exact Or.inl (hun.staysVoided h hp hpq)

/-- The calls up to the first reinstatement, if there is one. -/
theorem run_staysVoided {calls : List PaymentCall} (h : DeskOk minted ref desk) (hne : ref ≠ []) (hp : p ∈ desk.payments)
    (href : p.reference = some ref) (hd : desk.deliberate p = true) :
    StaysVoided ref p desk (desk.run H zone minted calls) ∨
      ∃ pre call post, calls = pre ++ call :: post ∧ StaysVoided ref p desk (desk.run H zone minted pre) ∧
        Reinstates ref p (desk.run H zone minted pre) call ∧
        ((desk.run H zone minted (pre ++ [call])).rowsOf ref).map (·.id) = (desk.rowsOf ref).map (·.id) := by
  induction calls generalizing desk with
  | nil => exact Or.inl (StaysVoided.refl hp)
  | cons call rest ih =>
    rcases serve_staysVoided (H := H) h hne hp href hd call with hstays | ⟨hre, hrows⟩
    · have hnext := ih (h.serve call) hstays.row (hstays.deliberate hd)
      rcases hnext with hrest | ⟨pre, c, post, rfl, hpre, hre, hrows⟩
      · exact Or.inl (hstays.trans hrest)
      · exact Or.inr ⟨call :: pre, c, post, rfl, hstays.trans hpre, hre, hrows.trans hstays.rows⟩
    · exact Or.inr ⟨[], call, rest, rfl, StaysVoided.refl hp, hre, hrows⟩

end Runs

/-- Once a row of the intent is voided for a reason that is no failure's, it stays voided for that reason and
    the intent gets no new row, whatever arrives in whatever order, until a `funds_reinstated` finds it the
    only voided row of the intent and voided by a dispute. -/
theorem deliberate_reversal_sticks (H : ContentHash) (zone : ShopZone) (minted : Text → Option ℕ) {ref : Text}
    (hne : ref ≠ []) {start : PaymentDesk} (hstart : DeskOk minted ref start) (before after : List PaymentCall)
    {p : Payment} (hp : p ∈ (start.run H zone minted before).payments) (href : p.reference = some ref)
    (hd : (start.run H zone minted before).deliberate p = true) :
    let desk := start.run H zone minted before
    StaysVoided ref p desk (desk.run H zone minted after) ∨
      ∃ pre call post, after = pre ++ call :: post ∧ StaysVoided ref p desk (desk.run H zone minted pre) ∧
        Reinstates ref p (desk.run H zone minted pre) call ∧
        ((desk.run H zone minted (pre ++ [call])).rowsOf ref).map (·.id) = (desk.rowsOf ref).map (·.id) :=
  run_staysVoided hstart.run hne hp href hd

section DoorPayment

/-- One sent invoice of 500.00, and no payment yet. -/
def oneInvoiceDesk : PaymentDesk where
  db := {
    rows := {
      settings := []
      invoices := [
        { id := 1, number := "INV-1", companyId := 0, customerId := some 7, jobId := none, status := .sent
          invoiceDate := some 0, sentAt := some 0, createdAt := 0, subtotal := 50000, taxRate := none
          taxAmount := 0, total := 50000, balanceDue := 50000, totalsLocked := true, deleted := false }]
      lines := [], payments := [], adjustments := [], expenses := [], nextId := 2 }
    ledger := ⟨[], [], [], [], 0⟩
    now := 0 }
  voidedReason := fun _ => none
  handled := []

def doorIntent : IntentObject where
  id := "pi_1".toList
  succeeded := true
  currency := none
  amount := 50000
  amountReceived := 50000
  surchargeStamp := 0
  latestCharge := "ch_1".toList

/-- Every intent was minted for invoice 1. -/
def mintedForOne : Text → Option ℕ := fun _ => some 1

/-- A delivery while nothing but the rail can be read at Stripe. -/
def deliver (id : String) (event : StripeEvent) : PaymentCall :=
  ⟨0, .webhook ⟨id.toList, event, ⟨some .card, none, none⟩, true, true⟩⟩

theorem oneInvoiceDesk_ok (ref : Text) : DeskOk mintedForOne ref oneInvoiceDesk := by
  constructor <;> simp [oneInvoiceDesk, PaymentDesk.payments]

/-- The row of the payment after its refund. -/
def refundedRow : Payment where
  id := 2
  invoiceId := 1
  amount := 50000
  surcharge := 0
  method := "card".toList
  paymentDate := 0
  reference := some "pi_1".toList
  voidedAt := some 2
  createdAt := 1

/-- A refund, then the success again, the browser's confirm and a reinstatement: the refund stays. -/
theorem deliberate_reversal_sticks_refunded :
    let before := [deliver "evt_1" (.succeeded doorIntent), deliver "evt_2" (.chargeRefunded "pi_1".toList none none)]
    let after := [deliver "evt_1" (.succeeded doorIntent), deliver "evt_3" (.fundsReinstated "pi_1".toList),
      ⟨0, .confirm 1 (.ok doorIntent) ⟨some .card, none, none⟩⟩]
    let desk := oneInvoiceDesk.run plainHash utcZone mintedForOne before
    StaysVoided "pi_1".toList refundedRow desk (desk.run plainHash utcZone mintedForOne after) := by
  intro before after desk
  have h := deliberate_reversal_sticks plainHash utcZone mintedForOne (by decide)
    (oneInvoiceDesk_ok _) before after (p := refundedRow) (by decide +kernel) rfl (by decide +kernel)
  rcases h with hstays | ⟨pre, call, post, -, hpre, hre, -⟩
  · exact hstays
  · obtain ⟨r, hr, hdispute⟩ := hre.dispute
    rw [hpre.reason] at hr
    have hreason : desk.voidedReason refundedRow.id = some .chargeRefunded := by decide +kernel
    rw [hreason] at hr
    obtain rfl := Option.some.inj hr
    exact absurd hdispute (by decide)

/-- A dispute is won, a failure then arrives while Stripe is silent, and the success again: a new row. -/
theorem recorded_again_after_reinstatement :
    let desk := oneInvoiceDesk.run plainHash utcZone mintedForOne
      [deliver "evt_1" (.succeeded doorIntent), deliver "evt_2" (.disputeCreated "pi_1".toList "needs_response".toList)]
    let later := desk.run plainHash utcZone mintedForOne
      [deliver "evt_3" (.fundsReinstated "pi_1".toList), deliver "evt_4" (.chargeFailed "pi_1".toList "ch_0".toList),
        deliver "evt_1" (.succeeded doorIntent)]
    (desk.rowsOf "pi_1".toList).map (fun p => (p.id, desk.deliberate p)) = [(2, true)] ∧
      (later.rowsOf "pi_1".toList).map (·.id) = [2, 3] := by
  decide +kernel

end DoorPayment

end Gdx
