import GdxDispatch.Ledger.ReplayAtomic
import GdxDispatch.Ledger.Issuance

/-! Frames: a rule moves the entries of its own sources and of no other.

    What the other sources hold, and what is tracked of them, is as before. The sources a rule may
    move are named by `P`; the rules themselves need no more than a journal in order and a seeded
    chart. -/

namespace Gdx
open Lib

variable {H : ContentHash} {clock : ShopClock} {S P : Text → Text → Prop} {L L' M : Ledger} {acct : Role → ℕ}
  {R : Rows} {actor : Option Text} {invoice : Invoice}

/-! ### What is tracked elsewhere -/

theorem mem_sourced {Q : Text → Text → Bool} {e : GlJournalEntry} :
    e ∈ L.sourced Q ↔ e ∈ L.entries ∧ Q e.sourceType e.sourceId = true := by
  simp [Ledger.sourced]

/-- The entries of a source that did not move. -/
theorem Within.mem_iff (h : Within H P L L') {e : GlJournalEntry} (hP : ¬ P e.sourceType e.sourceId) :
    e ∈ L'.entries ↔ e ∈ L.entries := by
  have heq := h.others (oneSource e.sourceType e.sourceId) fun st sid hp => by
    simp only [oneSource, Bool.and_eq_false_iff, beq_eq_false_iff_ne]
    by_contra hsame
    simp only [not_or, not_not] at hsame
    exact hP (by rw [← hsame.1, ← hsame.2]; exact hp)
  have hiff := Iff.of_eq (congrArg (e ∈ ·) heq)
  simpa [mem_sourced, oneSource] using hiff

theorem Within.mem_live_iff (h : Within H P L L') {q : Posting} (hP : ¬ P q.sourceType q.sourceId) :
    q ∈ L'.live ↔ q ∈ L.live := by
  simp only [mem_live]
  constructor
  · rintro ⟨e, he, hp, hr, rfl⟩
    exact ⟨e, (h.mem_iff hP).mp he, hp, hr, rfl⟩
  · rintro ⟨e, he, hp, hr, rfl⟩
    exact ⟨e, (h.mem_iff hP).mpr he, hp, hr, rfl⟩

theorem Within.liveOf_eq (h : Within H P L L') {st sid : Text} (hP : ¬ P st sid) :
    L'.liveOf st sid = L.liveOf st sid := by
  ext q
  rw [mem_liveOf, mem_liveOf]
  constructor
  · rintro ⟨hq, rfl, rfl⟩; exact ⟨(h.mem_live_iff hP).mp hq, rfl, rfl⟩
  · rintro ⟨hq, rfl, rfl⟩; exact ⟨(h.mem_live_iff hP).mpr hq, rfl, rfl⟩

/-- The net over tracked sources is summed over their entries alone. -/
theorem net_sourced {w : Slot → ℤ} {Q : Text → Text → Bool} (hw : ∀ s, w s ≠ 0 → Q s.sourceType s.sourceId = true) :
    L.net w = ((L.sourced Q).map fun e => e.posting.value w).sum := by
  rw [net_eq_sum, Ledger.sourced]
  induction L.entries with
  | nil => rfl
  | cons e es ih =>
    rw [List.map_cons, List.sum_cons, ih]
    by_cases hq : Q e.sourceType e.sourceId = true
    · rw [List.filter_cons_of_pos (p := fun e : GlJournalEntry => Q e.sourceType e.sourceId) hq, List.map_cons,
        List.sum_cons]
    · rw [List.filter_cons_of_neg (p := fun e : GlJournalEntry => Q e.sourceType e.sourceId) hq,
        Posting.value_eq_zero (S := fun st sid => Q st sid = true) hw hq, zero_add]

/-- Sources that did not move are tracked as before. -/
theorem Within.tracked (h : Within H P L L') (ht : Tracked H S L) (hPS : ∀ st sid, P st sid → ¬ S st sid) :
    Tracked H S L' := by
  classical
  have hno : ∀ st sid, S st sid → ¬ P st sid := fun st sid hs hp => hPS st sid hp hs
  refine ⟨h.inv, fun e he hs hr => ht.plain e ((h.mem_iff (hno _ _ hs)).mp he) hs hr, fun w hw => ?_⟩
  have hsupp : ∀ s, w s ≠ 0 → decide (S s.sourceType s.sourceId) = true := fun s hs => decide_eq_true (hw s hs)
  have hnet : L'.net w = L.net w := by
    rw [net_sourced (Q := fun st sid => decide (S st sid)) hsupp,
      net_sourced (Q := fun st sid => decide (S st sid)) hsupp, h.others (fun st sid => decide (S st sid))
        fun st sid hp => decide_eq_false (hPS st sid hp)]
  have hzero : ∀ (N : Ledger), ∑ q ∈ N.live, q.value w =
      ∑ q ∈ N.live.filter (fun q => S q.sourceType q.sourceId), q.value w := by
    intro N
    rw [Finset.sum_filter]
    refine Finset.sum_congr rfl fun q _ => ?_
    split_ifs with hq
    · rfl
    · exact Posting.value_eq_zero hw hq
  rw [hnet, ht.net_live w hw, hzero L, hzero L']
  refine Finset.sum_congr ?_ fun _ _ => rfl
  ext q
  simp only [Finset.mem_filter]
  refine and_congr_left fun hq => ?_
  exact (h.mem_live_iff (hno _ _ hq)).symm

/-! ### The rules -/

theorem repostInvoiceIssuance_within (hinv : JournalInv H L) (hseed : Seeded L invoice.companyId acct)
    (hP : P "invoice".toList (str invoice.id)) (h : repostInvoiceIssuance H R invoice actor L = .ok () L') :
    Within H P L L' := by
  rcases repostInvoiceIssuance_acts (R := R) hinv hseed hP with ⟨e, -, hraise, -⟩ | hacts
  · rw [hraise] at h; cases h
  · exact hacts.within_ok h

theorem postInvoiceIssuance_within (hinv : JournalInv H L) (hseed : Seeded L invoice.companyId acct)
    (hP : P "invoice".toList (str invoice.id)) (h : postInvoiceIssuance H R invoice actor L = .ok () L') :
    Within H P L L' := by
  unfold postInvoiceIssuance at h
  by_cases hera : preCutoverEra R invoice = true
  · rw [if_pos hera] at h
    exact (postOpeningBalance_acts _ hinv hseed hP).within_ok h
  · rw [if_neg hera] at h
    cases hb : buildIssuanceLines R L invoice with
    | error e => simp only [hb] at h; cases h
    | ok lines =>
      simp only [hb] at h
      cases lines with
      | nil => cases h; exact .refl hinv
      | cons l ls =>
        exact (postOnly_acts _ hinv hseed rfl hP).within_ok h

theorem reverseInvoiceIssuance_within (hinv : JournalInv H L) (hP : P "invoice".toList (str invoice.id))
    (h : reverseInvoiceIssuance invoice actor L = .ok () L') : Within H P L L' := by
  have hlive : ∀ e ∈ liveIssuanceEntry L invoice, e ∈ L.entries ∧ e.status = .posted ∧
      e.companyId = invoice.companyId ∧ P e.sourceType e.sourceId := by
    intro e he
    obtain ⟨hmem, hp, hc, hst, hsid⟩ := liveIssuance_posted he
    exact ⟨hmem, hp, hc, by rw [hst, hsid]; exact hP⟩
  exact (reverseLive_acts hinv hlive).within_ok h

theorem resettleInvoicePayments_within (hinv : JournalInv H L) (hseed : Seeded L invoice.companyId acct)
    (hnd : (R.payments.map (·.id)).Nodup) (hP : ∀ p ∈ R.paymentsOf invoice, P "payment".toList (str p.id))
    (h : resettleInvoicePayments H clock R invoice actor none L = .ok () L') : Within H P L L' := by
  unfold resettleInvoicePayments at h
  by_cases hoff : R.ledgerPostingEnabled invoice.companyId = true
  · rw [hoff, Bool.not_true, if_neg Bool.false_ne_true] at h
    exact (settleEach_acts hoff _ hinv hseed (hnd.sublist (List.filter_sublist.map _)) hP).within_ok h
  · rw [Bool.not_eq_true] at hoff
    rw [hoff, Bool.not_false, if_pos rfl] at h
    cases h
    exact .refl hinv

theorem postPaymentReceived_within {p : Payment} (hinv : JournalInv H L) (hseed : Seeded L invoice.companyId acct)
    (hnd : (R.payments.map (·.id)).Nodup) (hp : p ∈ R.paymentsOf invoice)
    (hP : ∀ p ∈ R.paymentsOf invoice, P "payment".toList (str p.id))
    (h : postPaymentReceived H clock R p invoice actor L = .ok () L') : Within H P L L' := by
  unfold postPaymentReceived at h
  split_ifs at h
  · cases h; exact .refl hinv
  · exact resettleInvoicePayments_within hinv hseed hnd hP h
  · rw [bind_ok] at h
    obtain ⟨lines, M, hbuild, h⟩ := h
    obtain ⟨-, rfl⟩ := raising_ok.mp hbuild
    split_ifs at h
    · exact (postOnly_acts _ hinv hseed rfl
        (hP p hp)).within_ok h
    · cases h; exact .refl hinv

section Adjustments
variable {a : InvoiceAdjustment}

theorem postCreditMemo_within (hinv : JournalInv H L) (hseed : Seeded L invoice.companyId acct)
    (hP : P "adjustment".toList (str a.id)) (h : postCreditMemo H clock R a invoice actor L = .ok () L') :
    Within H P L L' :=
  (postAdjustment_acts _ _ _ _ hinv hseed hP fun e he => by cases he).within_ok h

theorem postCreditApplication_within (hinv : JournalInv H L) (hseed : Seeded L invoice.companyId acct)
    (hP : P "adjustment".toList (str a.id)) (h : postCreditApplication H clock R a invoice actor L = .ok () L') :
    Within H P L L' :=
  (postAdjustment_acts _ _ _ _ hinv hseed hP fun e he => by cases he).within_ok h

theorem postRefund_within (hinv : JournalInv H L) (hseed : Seeded L invoice.companyId acct)
    (hP : P "adjustment".toList (str a.id)) (h : postRefund H clock R a invoice actor L = .ok () L') :
    Within H P L L' :=
  (postAdjustment_acts _ _ _ _ hinv hseed hP fun _ he => refundLines_error hseed he).within_ok h

/-- The void's sweep, entry by entry. -/
theorem reverseEntries_within : ∀ (es : List GlJournalEntry) {L L' : Ledger}, JournalInv H L →
    (∀ e ∈ es, e ∈ L.entries ∧ e.status = .posted ∧ P e.sourceType e.sourceId) → (es.map (·.id)).Nodup →
    each (fun e => do let _ ← reverseEntry e.id none actor false) es L = .ok () L' → Within H P L L'
  | [], L, L', hinv, _, _, h => by cases h; exact .refl hinv
  | e :: es, L, L', hinv, hes, hnd, h => by
    obtain ⟨hmem, hp, hP⟩ := hes e (List.mem_cons_self ..)
    rw [List.map_cons, List.nodup_cons] at hnd
    rw [each, bind_ok] at h
    obtain ⟨⟨⟩, M, hone, h⟩ := h
    rw [bind_ok] at hone
    obtain ⟨r, N, hrev, hone⟩ := hone
    cases hone
    have hw : Within H P L (after (reverseEntry e.id none actor false) L) := reverse_within hinv hmem hp hP
    rw [after_ok hrev] at hw
    refine hw.trans (reverseEntries_within es hw.inv (fun x hx => ?_) hnd.2 h)
    obtain ⟨hxm, hxp, hxP⟩ := hes x (List.mem_cons_of_mem _ hx)
    refine ⟨mem_of_reversed hinv hmem hp hrev hxm fun hid => hnd.1 ?_, hxp, hxP⟩
    rw [← hid]
    exact List.mem_map_of_mem hx

theorem reverseInvoiceAdjustments_within (hinv : JournalInv H L)
    (hP : ∀ a ∈ R.adjustmentsOf invoice, P "adjustment".toList (str a.id))
    (h : reverseInvoiceAdjustments R invoice actor L = .ok () L') : Within H P L L' := by
  unfold reverseInvoiceAdjustments at h
  split_ifs at h
  · cases h; exact .refl hinv
  · generalize R.adjustmentsOf invoice = as at h hP
    induction as generalizing L with
    | nil => cases h; exact .refl hinv
    | cons a as ih =>
      rw [each, bind_ok] at h
      obtain ⟨⟨⟩, M, hone, h⟩ := h
      rw [bind_ok] at hone
      obtain ⟨L₁, L₂, hget, hone⟩ := hone
      cases hget
      have hw : Within H P L M := by
        refine reverseEntries_within _ hinv (fun e he => ?_)
          (nodup_ids_of_sublist hinv List.filter_sublist) hone
        simp only [List.mem_filter, Bool.and_eq_true, hasSource_iff, isPosted_iff] at he
        refine ⟨he.1, he.2.2, ?_⟩
        rw [he.2.1.2.1, he.2.1.2.2]
        exact hP a (List.mem_cons_self ..)
      exact hw.trans (ih hw.inv h fun b hb => hP b (List.mem_cons_of_mem _ hb))

end Adjustments

theorem settleOpeningOnVoid_within (hinv : JournalInv H L) (hseed : Seeded L invoice.companyId acct)
    (hP : P "invoice".toList (str invoice.id)) (h : settleOpeningOnVoid H clock R invoice actor L = .ok () L') :
    Within H P L L' := by
  unfold settleOpeningOnVoid at h
  simp only at h
  split_ifs at h
  · cases h; exact .refl hinv
  · cases h; exact .refl hinv
  · cases h; exact .refl hinv
  · cases h; exact .refl hinv
  · exact (postOnly_acts _ hinv hseed rfl hP).within_ok h

end Gdx
