import GdxDispatch.Ledger.Updates

/-! Payment settlement does not depend on history, one case apart.

    Each payment of an invoice is of one kind for good: its row was there at the cutover (opening),
    it is a late-learned era payment, or it is settled by P3. One pass of the resettlement leaves on
    the payment's source the postings that the current rows call for, and nothing else, as long as it
    finds there only postings of the payment's own kind. The exception is the compensator of a voided
    opening-era payment: it is posted once and never taken back, so a flip that un-voids such a
    payment leaves it standing. -/

namespace Gdx
open Lib

variable {H : ContentHash} {S : Text → Text → Prop} {L L' : Ledger} {acct : Role → ℕ}
  {clock : ShopClock} {R : Rows} {actor : Option Text}

/-! ### What one payment should have on the books -/

def Payment.posting (acct : Role → ℕ) (invoice : Invoice) (p : Payment) (ev : Text) (day : ℤ)
    (lines : List PostingLine) : Posting :=
  (ruleEvent invoice.companyId "payment".toList (str p.id) ev day lines none).posting acct

/-- A P3 line set, as a set of postings. -/
def receivedBook (acct : Role → ℕ) (invoice : Invoice) (p : Payment) (lines : List PostingLine) :
    Finset Posting :=
  if lines = [] then ∅ else {p.posting acct invoice "received".toList p.paymentDate lines}

def eraBook (acct : Role → ℕ) (invoice : Invoice) (p : Payment) (cutover cents : ℤ) : Finset Posting :=
  if cents ≤ 0 then ∅
  else {p.posting acct invoice "era_settlement".toList cutover (eraSettlementLines invoice p cents)}

/-- The lines of the compensator of a voided opening-era payment. -/
def compensatorLines (invoice : Invoice) (p : Payment) (methodRole : Role) : List PostingLine :=
  let memo := "void of opening-era payment on " ++ invoice.number
  [invoice.leg p.amount .ar memo, invoice.leg (-p.amount) methodRole memo]

/-- The compensator was posted, on some day. -/
def Compensated (acct : Role → ℕ) (R : Rows) (invoice : Invoice) (p : Payment) (B : Finset Posting) : Prop :=
  ∃ settings methodRole day, R.glSettings invoice.companyId = some settings ∧
    resolvePaymentMethodRole settings (some p.method) = .ok methodRole ∧
    B = if p.amount = 0 then ∅ else
      {p.posting acct invoice "opening_payment_void".toList day (compensatorLines invoice p methodRole)}

/-- The cutover, on an era invoice. -/
def eraCutover (R : Rows) (invoice : Invoice) : Option ℤ :=
  if preCutoverEra R invoice then R.cutoverDate invoice.companyId else none

/-- The payment's row existed at the cutover of an era invoice. -/
def isOpening (R : Rows) (invoice : Invoice) (p : Payment) : Bool :=
  inOpening (preCutoverEra R invoice) (eraCutover R invoice) p

/-- An opening-era payment voided on or after the cutover. -/
def needsCompensator (R : Rows) (invoice : Invoice) (p : Payment) : Bool :=
  isOpening R invoice p && p.voidedAt.isSome && !(eraCutover R invoice).any p.voidedBeforeCutover

/-- The cutover a late-learned era payment is settled at. -/
def lateCutover (R : Rows) (invoice : Invoice) (p : Payment) : Option ℤ :=
  (eraCutover R invoice).filter fun c => isLateEraSettlement p (preCutoverEra R invoice) (some c)

/-- The postings the rows call for on the payment's source. -/
def Settled (acct : Role → ℕ) (R : Rows) (invoice : Invoice) (p : Payment) (B : Finset Posting) : Prop :=
  if needsCompensator R invoice p then Compensated acct R invoice p B
  else if isOpening R invoice p ∨ p.voidedAt.isSome then B = ∅
  else match lateCutover R invoice p with
    | some c => B = eraBook acct invoice p c (allocated (lateEraAllocation R invoice c) p.id)
    | none => ∃ lines, buildPaymentLines R p invoice = .ok lines ∧ B = receivedBook acct invoice p lines

/-- Postings of the payment's own kind only: what a resettlement can put right. -/
structure Filed (acct : Role → ℕ) (R : Rows) (invoice : Invoice) (p : Payment) (B : Finset Posting) : Prop where
  company : ∀ q ∈ B, q.companyId = invoice.companyId
  opening : isOpening R invoice p → B = ∅ ∨ needsCompensator R invoice p ∧ Compensated acct R invoice p B
  late : (lateCutover R invoice p).isSome → ∀ q ∈ B, q.event = "era_settlement".toList
  received : isOpening R invoice p = false → lateCutover R invoice p = none →
    (∀ q ∈ B, q.event = "received".toList) ∧ (p.amount = 0 → p.surcharge = 0 → B = ∅)

theorem Filed.empty (invoice : Invoice) (p : Payment) : Filed acct R invoice p ∅ :=
  ⟨by simp, fun _ => Or.inl rfl, fun _ => by simp, fun _ _ => ⟨by simp, fun _ _ => rfl⟩⟩

theorem lateCutover_eq_none_of_opening {invoice : Invoice} {p : Payment} (h : isOpening R invoice p = true) :
    lateCutover R invoice p = none := by
  unfold lateCutover
  rw [Option.filter_eq_none_iff]
  intro c hc hlate
  simp only [isOpening, inOpening, hc, Option.any_some, Bool.and_eq_true] at h
  simp [isLateEraSettlement, h.2] at hlate

theorem lateCutover_isSome {invoice : Invoice} {p : Payment} {c : ℤ} (h : lateCutover R invoice p = some c) :
    eraCutover R invoice = some c ∧ isOpening R invoice p = false := by
  refine ⟨(Option.filter_eq_some_iff.mp h).1, ?_⟩
  by_contra hne
  rw [Bool.not_eq_false] at hne
  rw [lateCutover_eq_none_of_opening hne] at h
  cases h

theorem Filed.events {invoice : Invoice} {p : Payment} {B : Finset Posting} (h : Filed acct R invoice p B) :
    ∀ q ∈ B, q.event ∈ PAYMENT_EVENTS := by
  intro q hq
  by_cases ho : isOpening R invoice p = true
  · rcases h.opening ho with rfl | ⟨-, settings, role, day, -, -, rfl⟩
    · simp at hq
    · split_ifs at hq
      · simp at hq
      · rw [Finset.mem_singleton.mp hq]
        exact List.mem_cons_of_mem _ (List.mem_cons_of_mem _ (List.mem_cons_self ..))
  · rw [Bool.not_eq_true] at ho
    cases hl : lateCutover R invoice p with
    | some c =>
      rw [h.late (by rw [hl]; rfl) q hq]
      exact List.mem_cons_of_mem _ (List.mem_cons_self ..)
    | none =>
      rw [(h.received ho hl).1 q hq]
      exact List.mem_cons_self ..

/-! ### What one pass does -/

section Pass
variable {invoice : Invoice} {p : Payment}

theorem reverseReceived_updates (ht : Tracked H S L) (hS : S "payment".toList (str p.id))
    (hco : ∀ q ∈ L.liveOf "payment".toList (str p.id), q.companyId = invoice.companyId)
    (h : reverseAllBut none actor none (livePaymentEntries L p invoice.companyId) L = .ok () L') :
    Updates H S L L' "payment".toList (str p.id)
      ((L.liveOf "payment".toList (str p.id)).filter fun q => q.event ≠ "received".toList) := by
  refine (reverseAllBut_updates ht hS (liveLike_sublist ..)
    (fun e => ht.mem_liveLike_plain (plainSource_payment p.id) hS (by decide) (by decide)) (by simp) h).of_eq ?_
  refine Finset.filter_congr fun q hq => ?_
  simp [hco q hq]

theorem reverseEra_updates (ht : Tracked H S L) (hS : S "payment".toList (str p.id))
    (hco : ∀ q ∈ L.liveOf "payment".toList (str p.id), q.companyId = invoice.companyId)
    (hev : ∀ q ∈ L.liveOf "payment".toList (str p.id), q.event ∈ PAYMENT_EVENTS)
    {kept : Option GlJournalEntry} (hkept : ∀ k ∈ kept, Stands L k)
    (h : reverseAllBut kept actor none (liveEraSettlementEntries L p invoice.companyId) L = .ok () L') :
    Updates H S L L' "payment".toList (str p.id)
      ((L.liveOf "payment".toList (str p.id)).filter fun q =>
        q.event ≠ "era_settlement".toList ∨ ∃ k ∈ kept, k.posting = q) := by
  refine (reverseAllBut_updates ht hS (liveLike_sublist ..)
    (fun e => ht.mem_liveEra (plainSource_payment p.id) hS hev) hkept h).of_eq ?_
  refine Finset.filter_congr fun q hq => ?_
  simp [hco q hq]

/-- The compensator is posted unless one is live or there is nothing to compensate. -/
theorem postOpeningPaymentVoid_updates {voidedAt : ℤ} (hfree : H.CollisionFree) (ht : Tracked H S L)
    (hseed : Seeded L invoice.companyId acct) (hS : S "payment".toList (str p.id))
    (h : postOpeningPaymentVoid H clock R p invoice voidedAt actor L = .ok () L') :
    ∃ settings role day, R.glSettings invoice.companyId = some settings ∧
      resolvePaymentMethodRole settings (some p.method) = .ok role ∧
      Updates H S L L' "payment".toList (str p.id)
        (if p.amount = 0 ∨ ∃ q ∈ L.liveOf "payment".toList (str p.id), q.event = "opening_payment_void".toList
          then L.liveOf "payment".toList (str p.id)
          else insert (p.posting acct invoice "opening_payment_void".toList day
            (compensatorLines invoice p role)) (L.liveOf "payment".toList (str p.id))) := by
  unfold postOpeningPaymentVoid at h
  cases hset : R.glSettings invoice.companyId with
  | none => simp only [hset] at h; cases h
  | some settings =>
    simp only [hset] at h
    cases hrole : resolvePaymentMethodRole settings (some p.method) with
    | error e => simp only [hrole] at h; cases h
    | ok role =>
      simp only [hrole] at h
      have hopen : ':' ∉ "opening_payment_void".toList := by decide
      have hguard := ht.liveEventEntry_isSome (plainSource_payment p.id) hS hopen
      refine ⟨settings, role, shopEffectiveAt clock L "payment".toList (str p.id)
        "opening_payment_void".toList voidedAt, rfl, hrole, ?_⟩
      split_ifs at h with hz hlive
      · cases h
        rw [if_pos (Or.inl hz)]
        exact .refl ht _ _
      · cases h
        rw [if_pos (Or.inr (hguard.mp hlive))]
        exact .refl ht _ _
      · rw [bind_ok] at h
        obtain ⟨e, M, hpost, hp⟩ := h
        cases hp
        rw [if_neg (by rw [hguard] at hlive; simpa [not_or] using ⟨hz, by simpa using hlive⟩)]
        exact (post_updates hfree ht hseed rfl hS hpost).1

/-- A voided payment keeps its compensator only, and is given one if it needs it. -/
theorem settleVoided_updates {voidedAt : ℤ} {compensate : Bool} (ht : Tracked H S L)
    (hS : S "payment".toList (str p.id))
    (hco : ∀ q ∈ L.liveOf "payment".toList (str p.id), q.companyId = invoice.companyId)
    (hev : ∀ q ∈ L.liveOf "payment".toList (str p.id), q.event ∈ PAYMENT_EVENTS)
    (h : settleVoided H clock R invoice p voidedAt compensate actor none L = .ok () L') :
    ∃ M, Updates H S L M "payment".toList (str p.id)
        ((L.liveOf "payment".toList (str p.id)).filter fun q => q.event = "opening_payment_void".toList) ∧
      if compensate then postOpeningPaymentVoid H clock R p invoice voidedAt actor M = .ok () L' else L' = M := by
  unfold settleVoided at h
  rw [bind_ok] at h
  obtain ⟨L₁, L₂, hget, h⟩ := h
  cases hget
  rw [bind_ok] at h
  obtain ⟨⟨⟩, M, hrec, h⟩ := h
  rw [bind_ok] at h
  obtain ⟨L₁, L₂, hget, h⟩ := h
  cases hget
  rw [bind_ok] at h
  obtain ⟨⟨⟩, N, hera, h⟩ := h
  have hup := reverseReceived_updates ht hS hco hrec
  have hsub : ∀ q ∈ M.liveOf "payment".toList (str p.id), q ∈ L.liveOf "payment".toList (str p.id) := by
    intro q hq
    rw [hup.here] at hq
    exact Finset.mem_of_mem_filter q hq
  have hup' := reverseEra_updates hup.tracked hS (fun q hq => hco q (hsub q hq))
    (fun q hq => hev q (hsub q hq)) (by simp) hera
  refine ⟨N, (hup.trans hup').of_eq ?_, ?_⟩
  · rw [hup.here, Finset.filter_filter]
    refine Finset.filter_congr fun q hq => ?_
    have hk := hev q hq
    simp only [PAYMENT_EVENTS, List.mem_cons, List.not_mem_nil, or_false] at hk
    rcases hk with hk | hk | hk <;> rw [hk] <;> simp
  · cases compensate with
    | true => simpa using h
    | false => simp only [Bool.false_eq_true, if_false] at h ⊢; cases h; rfl

theorem settleLateEra_updates {cutover cents : ℤ} (hfree : H.CollisionFree)
    (ht : Tracked H S L) (hseed : Seeded L invoice.companyId acct) (hS : S "payment".toList (str p.id))
    (hon : R.ledgerPostingEnabled invoice.companyId = true)
    (hco : ∀ q ∈ L.liveOf "payment".toList (str p.id), q.companyId = invoice.companyId)
    (hev : ∀ q ∈ L.liveOf "payment".toList (str p.id), q.event = "era_settlement".toList)
    (h : settleLateEra H R invoice p cutover cents actor none L = .ok () L') :
    Updates H S L L' "payment".toList (str p.id) (eraBook acct invoice p cutover cents) := by
  unfold settleLateEra at h
  rw [bind_ok] at h
  obtain ⟨posted, M, hpost, h⟩ := h
  rw [bind_ok] at h
  obtain ⟨L₁, L₂, hget, h⟩ := h
  cases hget
  unfold postEraSettlement at hpost
  simp only [hon, Bool.not_true, Bool.false_eq_true, false_or] at hpost
  have hmem : "era_settlement".toList ∈ PAYMENT_EVENTS := List.mem_cons_of_mem _ (List.mem_cons_self ..)
  split_ifs at hpost with hz
  · cases hpost
    refine (reverseEra_updates ht hS hco (fun q hq => hev q hq ▸ hmem) (by simp) h).of_eq ?_
    rw [eraBook, if_pos hz, Finset.filter_eq_empty_iff]
    intro q hq
    simp [hev q hq]
  · rw [bind_ok] at hpost
    obtain ⟨e, N, hpost, hp⟩ := hpost
    cases hp
    obtain ⟨hup, hst, hposting⟩ := post_updates hfree ht hseed rfl hS hpost
    have hhere : ∀ q ∈ M.liveOf "payment".toList (str p.id),
        q.companyId = invoice.companyId ∧ q.event = "era_settlement".toList := by
      intro q hq
      rw [show M.liveOf "payment".toList (str p.id) = _ from hup.here] at hq
      rcases Finset.mem_insert.mp hq with rfl | hq
      · exact ⟨rfl, rfl⟩
      · exact ⟨hco q hq, hev q hq⟩
    have hup' := reverseEra_updates hup.tracked hS (fun q hq => (hhere q hq).1)
      (fun q hq => (hhere q hq).2 ▸ hmem) (by simpa using hst) h
    refine (Updates.trans hup hup').of_eq ?_
    rw [eraBook, if_neg hz]
    ext q
    simp only [Finset.mem_filter, Finset.mem_singleton, Option.mem_some_iff, exists_eq_left', hposting]
    constructor
    · rintro ⟨hq, hne | rfl⟩
      · exact absurd (hhere q hq).2 hne
      · rfl
    · rintro rfl
      refine ⟨?_, Or.inr rfl⟩
      rw [show M.liveOf "payment".toList (str p.id) = _ from hup.here]
      exact Finset.mem_insert_self ..

theorem settleReceived_updates (hfree : H.CollisionFree)
    (ht : Tracked H S L) (hseed : Seeded L invoice.companyId acct) (hS : S "payment".toList (str p.id))
    (hco : ∀ q ∈ L.liveOf "payment".toList (str p.id), q.companyId = invoice.companyId)
    (hev : ∀ q ∈ L.liveOf "payment".toList (str p.id), q.event = "received".toList)
    (h : settleReceived H R invoice p actor none L = .ok () L') :
    ∃ lines, buildPaymentLines R p invoice = .ok lines ∧
      if lines = [] then L' = L
      else Updates H S L L' "payment".toList (str p.id) (receivedBook acct invoice p lines) := by
  unfold settleReceived at h
  rw [bind_ok] at h
  obtain ⟨lines, L₁, hbuild, h⟩ := h
  obtain ⟨hok, rfl⟩ := raising_ok.mp hbuild
  refine ⟨lines, hok, ?_⟩
  by_cases hl : lines = []
  · rw [if_pos hl]
    simp only [hl, ne_eq, not_true_eq_false, if_false] at h
    cases h; rfl
  · rw [if_neg hl]
    simp only [ne_eq, hl, not_false_eq_true, if_true, repostPayment, withFallback_none] at h
    rw [bind_ok] at h
    obtain ⟨e, M, hpost, h⟩ := h
    rw [bind_ok] at h
    obtain ⟨L₂, L₃, hget, h⟩ := h
    cases hget
    obtain ⟨hup, hst, hposting⟩ := post_updates hfree ht hseed rfl hS hpost
    have hhere : ∀ q ∈ M.liveOf "payment".toList (str p.id),
        q.companyId = invoice.companyId ∧ q.event = "received".toList := by
      intro q hq
      rw [show M.liveOf "payment".toList (str p.id) = _ from hup.here] at hq
      rcases Finset.mem_insert.mp hq with rfl | hq
      · exact ⟨rfl, rfl⟩
      · exact ⟨hco q hq, hev q hq⟩
    have hup' := reverseAllBut_updates hup.tracked hS (liveLike_sublist ..)
      (fun e => hup.tracked.mem_liveLike_plain (plainSource_payment p.id) hS (by decide) (by decide))
      (by simpa using hst) h
    refine (Updates.trans hup hup').of_eq ?_
    rw [receivedBook, if_neg hl]
    ext q
    simp only [Finset.mem_filter, Finset.mem_singleton, Option.mem_some_iff, exists_eq_left', hposting]
    constructor
    · rintro ⟨hq, hne | rfl⟩
      · exact absurd (hhere q hq).2 (hne (hhere q hq).1)
      · rfl
    · rintro rfl
      refine ⟨?_, Or.inr rfl⟩
      rw [show M.liveOf "payment".toList (str p.id) = _ from hup.here]
      exact Finset.mem_insert_self ..

theorem buildPaymentLines_nil (h : buildPaymentLines R p invoice = .ok []) : p.amount = 0 ∧ p.surcharge = 0 := by
  unfold buildPaymentLines at h
  by_cases hz : p.amount = 0 ∧ p.surcharge = 0
  · exact hz
  · rw [if_neg hz] at h
    cases hset : R.glSettings invoice.companyId with
    | none => simp only [hset] at h; cases h
    | some settings =>
      simp only [hset] at h
      rw [except_bind_ok] at h
      obtain ⟨role, -, h⟩ := h
      cases h

theorem needsCompensator_eq {voidedAt : ℤ} (h : p.voidedAt = some voidedAt) :
    needsCompensator R invoice p =
      (isOpening R invoice p && !(eraCutover R invoice).any p.voidedBeforeCutover) := by
  simp [needsCompensator, h]

theorem Compensated.event {B : Finset Posting} (h : Compensated acct R invoice p B) :
    ∀ q ∈ B, q.event = "opening_payment_void".toList ∧ q.companyId = invoice.companyId := by
  obtain ⟨settings, role, day, -, -, rfl⟩ := h
  intro q hq
  split_ifs at hq
  · simp at hq
  · rw [Finset.mem_singleton.mp hq]
    exact ⟨rfl, rfl⟩

/-- What the resettlement leaves is of the payment's own kind. -/
theorem Settled.filed {B : Finset Posting} (h : Settled acct R invoice p B) : Filed acct R invoice p B := by
  unfold Settled at h
  split_ifs at h with hc ho
  · have hop : isOpening R invoice p = true := by
      simp only [needsCompensator, Bool.and_eq_true] at hc
      exact hc.1.1
    refine ⟨fun q hq => (h.event q hq).2, fun _ => Or.inr ⟨hc, h⟩, ?_, ?_⟩
    · rw [lateCutover_eq_none_of_opening hop]; intro hn; cases hn
    · intro hno; rw [hop] at hno; cases hno
  · subst h
    exact .empty invoice p
  · rw [not_or, Bool.not_eq_true] at ho
    cases hl : lateCutover R invoice p with
    | some c =>
      simp only [hl] at h
      subst h
      refine ⟨?_, (fun hop => by rw [ho.1] at hop; cases hop), ?_, (fun _ hn => by rw [hl] at hn; cases hn)⟩
      · intro q hq
        rw [eraBook] at hq
        split_ifs at hq
        · simp at hq
        · rw [Finset.mem_singleton.mp hq]; rfl
      · intro _ q hq
        rw [eraBook] at hq
        split_ifs at hq
        · simp at hq
        · rw [Finset.mem_singleton.mp hq]; rfl
    | none =>
      simp only [hl] at h
      obtain ⟨lines, hb, rfl⟩ := h
      refine ⟨?_, (fun hop => by rw [ho.1] at hop; cases hop), (fun hs => by rw [hl] at hs; cases hs),
        fun _ _ => ⟨?_, ?_⟩⟩
      · intro q hq
        rw [receivedBook] at hq
        split_ifs at hq
        · simp at hq
        · rw [Finset.mem_singleton.mp hq]; rfl
      · intro q hq
        rw [receivedBook] at hq
        split_ifs at hq
        · simp at hq
        · rw [Finset.mem_singleton.mp hq]; rfl
      · intro ha hs
        have hnil : buildPaymentLines R p invoice = .ok [] := by
          unfold buildPaymentLines; rw [if_pos ⟨ha, hs⟩]
        rw [hnil] at hb
        cases hb
        rfl

/-- A payment that needs a compensator and holds none but its own ends up with one. -/
theorem compensate_settled {voidedAt : ℤ} (hfree : H.CollisionFree) (ht : Tracked H S L)
    (hseed : Seeded L invoice.companyId acct) (hS : S "payment".toList (str p.id))
    (hc : needsCompensator R invoice p = true)
    (hB : L.liveOf "payment".toList (str p.id) = ∅ ∨
      Compensated acct R invoice p (L.liveOf "payment".toList (str p.id)))
    (h : postOpeningPaymentVoid H clock R p invoice voidedAt actor L = .ok () L') :
    ∃ B, Updates H S L L' "payment".toList (str p.id) B ∧ Settled acct R invoice p B := by
  obtain ⟨settings, role, day, hset, hrole, hup⟩ := postOpeningPaymentVoid_updates hfree ht hseed hS h
  refine ⟨_, hup, ?_⟩
  unfold Settled
  rw [if_pos hc]
  rcases hB with hnone | hcomp
  · rw [hnone]
    refine ⟨settings, role, day, hset, hrole, ?_⟩
    by_cases hz : p.amount = 0
    · rw [if_pos (Or.inl hz), if_pos hz]
    · rw [if_neg (not_or.mpr ⟨hz, fun ⟨q, hq, _⟩ => Finset.notMem_empty q hq⟩), if_neg hz]
      rfl
  · -- a compensator is there already: nothing is posted beside it
    by_cases hcase : p.amount = 0 ∨ ∃ q ∈ L.liveOf "payment".toList (str p.id),
        q.event = "opening_payment_void".toList
    · rw [if_pos hcase]
      exact hcomp
    · obtain ⟨hz, hno⟩ := not_or.mp hcase
      obtain ⟨settings', role', day', -, -, hB⟩ := hcomp
      rw [if_neg hz] at hB
      refine absurd ⟨p.posting acct invoice "opening_payment_void".toList day'
        (compensatorLines invoice p role'), ?_, rfl⟩ hno
      rw [hB]
      exact Finset.mem_singleton_self _

/-- The void branch of one pass. -/
theorem settleVoided_settled {voidedAt : ℤ} (hv : p.voidedAt = some voidedAt) (hfree : H.CollisionFree)
    (ht : Tracked H S L) (hseed : Seeded L invoice.companyId acct) (hS : S "payment".toList (str p.id))
    (hfiled : Filed acct R invoice p (L.liveOf "payment".toList (str p.id)))
    (h : settleVoided H clock R invoice p voidedAt (needsCompensator R invoice p) actor none L = .ok () L') :
    ∃ B, Updates H S L L' "payment".toList (str p.id) B ∧ Settled acct R invoice p B := by
  obtain ⟨M, hup, h⟩ := settleVoided_updates ht hS hfiled.company hfiled.events h
  by_cases hc : needsCompensator R invoice p = true
  · rw [if_pos hc] at h
    have hop : isOpening R invoice p = true := by
      simp only [needsCompensator, Bool.and_eq_true] at hc
      exact hc.1.1
    have hM : M.liveOf "payment".toList (str p.id) = ∅ ∨
        Compensated acct R invoice p (M.liveOf "payment".toList (str p.id)) := by
      rw [hup.here]
      rcases hfiled.opening hop with hnone | ⟨-, hcomp⟩
      · left; rw [hnone, Finset.filter_empty]
      · right; rwa [Finset.filter_true_of_mem fun q hq => (hcomp.event q hq).1]
    obtain ⟨B, hup', hset⟩ := compensate_settled hfree hup.tracked (hup.seeded hseed) hS hc hM h
    exact ⟨B, hup.trans hup', hset⟩
  · rw [if_neg hc] at h
    subst h
    refine ⟨_, hup, ?_⟩
    unfold Settled
    rw [if_neg hc, if_pos (Or.inr (by rw [hv]; rfl)), Finset.filter_eq_empty_iff]
    intro q hq hev
    by_cases hop : isOpening R invoice p = true
    · rcases hfiled.opening hop with hnone | ⟨hyes, -⟩
      · rw [hnone] at hq; exact Finset.notMem_empty q hq
      · exact hc hyes
    · rw [Bool.not_eq_true] at hop
      cases hl : lateCutover R invoice p with
      | some c =>
        rw [hfiled.late (by rw [hl]; rfl) q hq] at hev
        exact absurd hev (by decide)
      | none =>
        rw [(hfiled.received hop hl).1 q hq] at hev
        exact absurd hev (by decide)

/-- The branch of a payment that counts. -/
theorem settleStanding_settled (hv : p.voidedAt = none) (hfree : H.CollisionFree) (ht : Tracked H S L)
    (hseed : Seeded L invoice.companyId acct) (hS : S "payment".toList (str p.id))
    (hon : R.ledgerPostingEnabled invoice.companyId = true)
    (hfiled : Filed acct R invoice p (L.liveOf "payment".toList (str p.id)))
    (h : (match lateCutover R invoice p with
      | some c => settleLateEra H R invoice p c (allocated (lateEraAllocation R invoice c) p.id) actor none
      | none => if isOpening R invoice p then pure () else settleReceived H R invoice p actor none) L =
        .ok () L') :
    ∃ B, Updates H S L L' "payment".toList (str p.id) B ∧ Settled acct R invoice p B := by
  have hc : ¬ needsCompensator R invoice p = true := by simp [needsCompensator, hv]
  have hnv : ¬ p.voidedAt.isSome = true := by simp [hv]
  cases hl : lateCutover R invoice p with
  | some c =>
    simp only [hl] at h
    refine ⟨_, settleLateEra_updates hfree ht hseed hS hon hfiled.company
      (hfiled.late (by rw [hl]; rfl)) h, ?_⟩
    have hop : ¬ isOpening R invoice p = true := by rw [(lateCutover_isSome hl).2]; decide
    unfold Settled
    rw [if_neg hc, if_neg (not_or.mpr ⟨hop, hnv⟩), hl]
  | none =>
    simp only [hl] at h
    by_cases hop : isOpening R invoice p = true
    · rw [if_pos hop] at h
      cases h
      refine ⟨_, .refl ht _ _, ?_⟩
      unfold Settled
      rw [if_neg hc, if_pos (Or.inl hop)]
      rcases hfiled.opening hop with hnone | ⟨hyes, -⟩
      · exact hnone
      · exact absurd hyes hc
    · rw [if_neg hop] at h
      obtain ⟨hev, hzero⟩ := hfiled.received (by simpa using hop) hl
      obtain ⟨lines, hb, hcase⟩ := settleReceived_updates hfree ht hseed hS hfiled.company hev h
      have hsettled : Settled acct R invoice p (receivedBook acct invoice p lines) := by
        unfold Settled
        rw [if_neg hc, if_neg (not_or.mpr ⟨hop, hnv⟩), hl]
        exact ⟨lines, hb, rfl⟩
      by_cases hnil : lines = []
      · rw [if_pos hnil] at hcase
        subst hcase
        obtain ⟨ha, hs⟩ := buildPaymentLines_nil (hnil ▸ hb)
        refine ⟨_, (Updates.refl ht _ _).of_eq ?_, hsettled⟩
        rw [receivedBook, if_pos hnil]
        exact hzero ha hs
      · rw [if_neg hnil] at hcase
        exact ⟨_, hcase, hsettled⟩

/-- One pass leaves on the payment's source what the rows call for, and moves no other source. -/
theorem settlePayment_settled (hfree : H.CollisionFree) (ht : Tracked H S L)
    (hseed : Seeded L invoice.companyId acct) (hS : S "payment".toList (str p.id))
    (hon : R.ledgerPostingEnabled invoice.companyId = true)
    (hfiled : Filed acct R invoice p (L.liveOf "payment".toList (str p.id)))
    (h : settlePayment H clock R invoice actor none p L = .ok () L') :
    ∃ B, Updates H S L L' "payment".toList (str p.id) B ∧ Settled acct R invoice p B := by
  unfold settlePayment at h
  cases hv : p.voidedAt with
  | some voidedAt =>
    simp only [hv] at h
    have hcall : settleVoided H clock R invoice p voidedAt (needsCompensator R invoice p) actor none L =
        .ok () L' := by
      rw [needsCompensator_eq hv]
      exact h
    exact settleVoided_settled hv hfree ht hseed hS hfiled hcall
  | none =>
    simp only [hv] at h
    exact settleStanding_settled hv hfree ht hseed hS hon hfiled h

end Pass

/-! ### Whole resettlements -/

/-- The payments' sources hold what the rows call for, the other sources what they held. -/
structure Resettled (H : ContentHash) (S : Text → Text → Prop) (acct : Role → ℕ) (R : Rows)
    (invoice : Invoice) (ps : List Payment) (L L' : Ledger) : Prop where
  tracked : Tracked H S L'
  accounts : L'.accounts = L.accounts
  locks : L'.locks = L.locks
  settled : ∀ p ∈ ps, Settled acct R invoice p (L'.liveOf "payment".toList (str p.id))
  elsewhere : ∀ st sid, (∀ p ∈ ps, ¬ (st = "payment".toList ∧ sid = str p.id)) →
    L'.liveOf st sid = L.liveOf st sid

theorem settleEach_resettled {invoice : Invoice} (hfree : H.CollisionFree)
    (hon : R.ledgerPostingEnabled invoice.companyId = true) :
    ∀ (ps : List Payment) {L L' : Ledger}, Tracked H S L → Seeded L invoice.companyId acct →
      (∀ p ∈ ps, S "payment".toList (str p.id)) → (ps.map (·.id)).Nodup →
      (∀ p ∈ ps, Filed acct R invoice p (L.liveOf "payment".toList (str p.id))) →
      each (settlePayment H clock R invoice actor none) ps L = .ok () L' →
      Resettled H S acct R invoice ps L L'
  | [], L, L', ht, _, _, _, _, h => by
    cases h
    exact ⟨ht, rfl, rfl, by simp, fun _ _ _ => rfl⟩
  | p :: ps, L, L', ht, hseed, hS, hnd, hfiled, h => by
    rw [each, bind_ok] at h
    obtain ⟨⟨⟩, M, hpass, h⟩ := h
    rw [List.map_cons, List.nodup_cons] at hnd
    obtain ⟨B, hup, hset⟩ := settlePayment_settled hfree ht hseed (hS p (List.mem_cons_self ..)) hon
      (hfiled p (List.mem_cons_self ..)) hpass
    have hother : ∀ q ∈ ps, ¬ ("payment".toList = "payment".toList ∧ str q.id = str p.id) := by
      rintro q hq ⟨-, hid⟩
      exact hnd.1 (List.mem_map.mpr ⟨q, hq, str_inj.mp hid⟩)
    have hrest := settleEach_resettled hfree hon ps hup.tracked (hup.seeded hseed)
      (fun q hq => hS q (List.mem_cons_of_mem _ hq)) hnd.2
      (fun q hq => by
        rw [hup.elsewhere _ _ (hother q hq)]
        exact hfiled q (List.mem_cons_of_mem _ hq)) h
    refine ⟨hrest.tracked, hrest.accounts.trans hup.accounts, hrest.locks.trans hup.locks, ?_, ?_⟩
    · intro q hq
      rcases List.mem_cons.mp hq with rfl | hq
      · rw [hrest.elsewhere _ _ fun r hr hsame => hother r hr ⟨rfl, hsame.2.symm⟩, hup.here]
        exact hset
      · exact hrest.settled q hq
    · intro st sid hno
      rw [hrest.elsewhere st sid fun q hq => hno q (List.mem_cons_of_mem _ hq),
        hup.elsewhere st sid (hno p (List.mem_cons_self ..))]

theorem resettle_resettled {invoice : Invoice} (hfree : H.CollisionFree) (ht : Tracked H S L)
    (hseed : Seeded L invoice.companyId acct) (hon : R.ledgerPostingEnabled invoice.companyId = true)
    (hS : ∀ p ∈ R.paymentsOf invoice, S "payment".toList (str p.id))
    (hids : (R.payments.map (·.id)).Nodup)
    (hfiled : ∀ p ∈ R.paymentsOf invoice, Filed acct R invoice p (L.liveOf "payment".toList (str p.id)))
    (h : resettleInvoicePayments H clock R invoice actor none L = .ok () L') :
    Resettled H S acct R invoice (R.paymentsOf invoice) L L' := by
  unfold resettleInvoicePayments at h
  rw [hon, Bool.not_true, if_neg Bool.false_ne_true] at h
  exact settleEach_resettled hfree hon _ ht hseed hS (hids.sublist (List.filter_sublist.map _)) hfiled h

/-! ### Histories -/

/-- A void (with its stamp) or an un-void of one payment. -/
structure Flip where
  paymentId : ℕ
  voidedAt : Option ℤ

def Rows.flip (R : Rows) (f : Flip) : Rows :=
  { R with payments := R.payments.map fun p => if p.id = f.paymentId then { p with voidedAt := f.voidedAt } else p }

/-- Flip a payment, resettle, and so on; the rows at the end are returned. -/
def settleFlips (H : ContentHash) (clock : ShopClock) (invoice : Invoice) (actor : Option Text) :
    List Flip → Rows → LedgerM Rows
  | [], R => return R
  | f :: fs, R => do
    resettleInvoicePayments H clock (R.flip f) invoice actor none
    settleFlips H clock invoice actor fs (R.flip f)

/-- The first settlement of the invoice's payments, then a history of flips. -/
def settleHistory (H : ContentHash) (clock : ShopClock) (invoice : Invoice) (actor : Option Text)
    (R : Rows) (flips : List Flip) : LedgerM Rows := do
  resettleInvoicePayments H clock R invoice actor none
  settleFlips H clock invoice actor flips R

/-- No flip takes an opening-era payment out of "voided on or after the cutover". -/
def KeepsCompensators (invoice : Invoice) : Rows → List Flip → Prop
  | _, [] => True
  | R, f :: fs =>
    (∀ p ∈ R.paymentsOf invoice, p.id = f.paymentId → needsCompensator R invoice p →
      needsCompensator R invoice { p with voidedAt := f.voidedAt }) ∧
    KeepsCompensators invoice (R.flip f) fs

theorem paymentsOf_flip (R : Rows) (f : Flip) (invoice : Invoice) :
    (R.flip f).paymentsOf invoice = (R.paymentsOf invoice).map fun p =>
      if p.id = f.paymentId then { p with voidedAt := f.voidedAt } else p := by
  unfold Rows.paymentsOf Rows.flip
  rw [List.filter_map]
  congr 1
  refine List.filter_congr fun p _ => ?_
  simp only [Function.comp_apply]
  split_ifs <;> rfl

theorem flip_ids (R : Rows) (f : Flip) : (R.flip f).payments.map (·.id) = R.payments.map (·.id) := by
  simp only [Rows.flip, List.map_map]
  refine List.map_congr_left fun p _ => ?_
  simp only [Function.comp_apply]
  split_ifs <;> rfl

/-- The kind of a payment is not moved by a flip, so what is filed under it stays in order. -/
theorem Filed.flip {invoice : Invoice} {p : Payment} {B : Finset Posting} {f : Flip}
    (h : Filed acct R invoice p B)
    (hkeep : p.id = f.paymentId → needsCompensator R invoice p →
      needsCompensator R invoice { p with voidedAt := f.voidedAt }) :
    Filed acct (R.flip f) invoice (if p.id = f.paymentId then { p with voidedAt := f.voidedAt } else p) B := by
  by_cases hid : p.id = f.paymentId
  · rw [if_pos hid]
    refine ⟨h.company, fun ho => ?_, h.late, h.received⟩
    rcases h.opening ho with hnone | ⟨hc, hcomp⟩
    · exact Or.inl hnone
    · exact Or.inr ⟨hkeep hid hc, hcomp⟩
  · rw [if_neg hid]
    exact ⟨h.company, h.opening, h.late, h.received⟩

/-- The payments of the invoice, as sources. -/
def paymentSource (R : Rows) (invoice : Invoice) (st sid : Text) : Prop :=
  st = "payment".toList ∧ ∃ p ∈ R.paymentsOf invoice, sid = str p.id

theorem paymentSource_flip (R : Rows) (f : Flip) (invoice : Invoice) :
    paymentSource (R.flip f) invoice = paymentSource R invoice := by
  funext st sid
  unfold paymentSource
  rw [paymentsOf_flip]
  simp only [List.mem_map, exists_exists_and_eq_and, eq_iff_iff]
  refine and_congr_right fun _ => exists_congr fun p => and_congr_right fun _ => ?_
  split_ifs <;> rfl

/-- Every payment of the invoice is settled, on a tracked ledger with the chart of `L`. -/
structure AllSettled (H : ContentHash) (acct : Role → ℕ) (invoice : Invoice) (L : Ledger) (R : Rows)
    (L' : Ledger) : Prop where
  tracked : Tracked H (paymentSource R invoice) L'
  accounts : L'.accounts = L.accounts
  settled : ∀ p ∈ R.paymentsOf invoice, Settled acct R invoice p (L'.liveOf "payment".toList (str p.id))

/-- One flip and the resettlement after it. -/
theorem AllSettled.step {invoice : Invoice} {M : Ledger} {f : Flip} (hfree : H.CollisionFree)
    (hseed : Seeded L invoice.companyId acct) (hids : (R.payments.map (·.id)).Nodup)
    (hon : R.ledgerPostingEnabled invoice.companyId = true) (hall : AllSettled H acct invoice L R M)
    (hkeep : ∀ p ∈ R.paymentsOf invoice, p.id = f.paymentId → needsCompensator R invoice p →
      needsCompensator R invoice { p with voidedAt := f.voidedAt })
    (h : resettleInvoicePayments H clock (R.flip f) invoice actor none M = .ok () L') :
    AllSettled H acct invoice L (R.flip f) L' := by
  have hr := resettle_resettled hfree (paymentSource_flip R f invoice ▸ hall.tracked)
    (hseed.congr hall.accounts) (R := R.flip f) hon (fun p hp => ⟨rfl, p, hp, rfl⟩)
    (by rw [flip_ids]; exact hids) ?_ h
  · exact ⟨hr.tracked, hr.accounts.trans hall.accounts, hr.settled⟩
  · intro p hp
    rw [paymentsOf_flip] at hp
    obtain ⟨q, hq, rfl⟩ := List.mem_map.mp hp
    have hfiled := (hall.settled q hq).filed.flip (hkeep q hq)
    have hid : (if q.id = f.paymentId then { q with voidedAt := f.voidedAt } else q).id = q.id := by
      split_ifs <;> rfl
    rw [hid]
    exact hfiled

theorem settleFlips_settled {invoice : Invoice} (hfree : H.CollisionFree)
    (hseed : Seeded L invoice.companyId acct) : ∀ (flips : List Flip) {R R' : Rows} {M L' : Ledger},
    (R.payments.map (·.id)).Nodup → R.ledgerPostingEnabled invoice.companyId = true →
    KeepsCompensators invoice R flips → AllSettled H acct invoice L R M →
    settleFlips H clock invoice actor flips R M = .ok R' L' →
    (R'.payments.map (·.id)).Nodup ∧ R'.ledgerPostingEnabled invoice.companyId = true ∧
      AllSettled H acct invoice L R' L'
  | [], R, R', M, L', hids, hon, _, hall, h => by
    cases h
    exact ⟨hids, hon, hall⟩
  | f :: fs, R, R', M, L', hids, hon, hkeep, hall, h => by
    rw [settleFlips, bind_ok] at h
    obtain ⟨⟨⟩, N, hstep, h⟩ := h
    have hids' : ((R.flip f).payments.map (·.id)).Nodup := by rw [flip_ids]; exact hids
    exact settleFlips_settled hfree hseed fs (R := R.flip f) hids' hon hkeep.2
      (hall.step hfree hseed hids hon hkeep.1 hstep) h

/-- The first settlement, on a ledger that holds nothing of the payments. -/
theorem resettle_allSettled {invoice : Invoice} (hfree : H.CollisionFree) (hinv : JournalInv H L)
    (hseed : Seeded L invoice.companyId acct) (hids : (R.payments.map (·.id)).Nodup)
    (hon : R.ledgerPostingEnabled invoice.companyId = true)
    (hnone : ∀ e ∈ L.entries, ¬ paymentSource R invoice e.sourceType e.sourceId)
    (h : resettleInvoicePayments H clock R invoice actor none L = .ok () L') :
    AllSettled H acct invoice L R L' := by
  have hr := resettle_resettled hfree (.of_none hinv hnone) hseed hon
    (fun p hp => ⟨rfl, p, hp, rfl⟩) hids ?_ h
  · exact ⟨hr.tracked, hr.accounts, hr.settled⟩
  · intro p hp
    have hempty : L.liveOf "payment".toList (str p.id) = ∅ := by
      rw [Finset.eq_empty_iff_forall_notMem]
      intro q hq
      obtain ⟨hlive, hst, hsid⟩ := mem_liveOf.mp hq
      obtain ⟨e, he, -, -, rfl⟩ := mem_live.mp hlive
      exact hnone e he ⟨hst, p, hp, hsid⟩
    rw [hempty]
    exact .empty invoice p

/-! ### Nets -/

/-- The live book's weight over the sources of one type, source by source. -/
theorem sum_live_sources (L : Ledger) {st : Text} {sids : Finset Text} {w : Slot → ℤ}
    (hw : ∀ s, w s ≠ 0 → s.sourceType = st ∧ s.sourceId ∈ sids) :
    ∑ q ∈ L.live, q.value w = ∑ sid ∈ sids, ∑ q ∈ L.liveOf st sid, q.value w := by
  simp only [Ledger.liveOf, Finset.sum_filter]
  rw [Finset.sum_comm]
  refine Finset.sum_congr rfl fun q _ => ?_
  by_cases hq : q.sourceType = st ∧ q.sourceId ∈ sids
  · simp [hq.1, hq.2]
  · rw [Posting.value_eq_zero (S := fun st' sid' => st' = st ∧ sid' ∈ sids) hw hq]
    simp

/-- The rows decide the weight of a settled payment; the day of a compensator does not matter. -/
theorem Settled.value_eq {invoice : Invoice} {p : Payment} {B B' : Finset Posting}
    (h : Settled acct R invoice p B) (h' : Settled acct R invoice p B') (w : Slot → ℤ) :
    ∑ q ∈ B, q.value w = ∑ q ∈ B', q.value w := by
  unfold Settled at h h'
  split_ifs at h h' with hc ho
  · obtain ⟨settings, role, day, hset, hrole, rfl⟩ := h
    obtain ⟨settings', role', day', hset', hrole', rfl⟩ := h'
    rw [hset] at hset'
    cases hset'
    rw [hrole] at hrole'
    cases hrole'
    by_cases hz : p.amount = 0
    · rw [if_pos hz, if_pos hz]
    · rw [if_neg hz, if_neg hz, Finset.sum_singleton, Finset.sum_singleton]
      rfl
  · rw [h, h']
  · cases hl : lateCutover R invoice p with
    | some c =>
      simp only [hl] at h h'
      rw [h, h']
    | none =>
      simp only [hl] at h h'
      obtain ⟨lines, hb, rfl⟩ := h
      obtain ⟨lines', hb', rfl⟩ := h'
      rw [hb] at hb'
      cases hb'
      rfl

/-- One account, on the sources of the invoice's payments. -/
def paymentSlots (R : Rows) (invoice : Invoice) (account : ℕ) (s : Slot) : Bool :=
  s.sourceType == "payment".toList && (R.paymentsOf invoice).any (s.sourceId == str ·.id) &&
    s.accountId == account

theorem AllSettled.total_eq {invoice : Invoice} {F F' : Ledger} (h : AllSettled H acct invoice L R L')
    (h' : AllSettled H acct invoice F R F') (account : ℕ) :
    L'.total (paymentSlots R invoice account) = F'.total (paymentSlots R invoice account) := by
  set w : Slot → ℤ := fun s => if paymentSlots R invoice account s then 1 else 0 with hw
  set sids := ((R.paymentsOf invoice).map fun p => str p.id).toFinset with hsids
  have hsupp : ∀ s, w s ≠ 0 → s.sourceType = "payment".toList ∧ s.sourceId ∈ sids := by
    intro s hs
    simp only [hw, ne_eq, ite_eq_right_iff, one_ne_zero, imp_false, not_not, paymentSlots, Bool.and_eq_true,
      beq_iff_eq, List.any_eq_true] at hs
    obtain ⟨⟨hst, p, hp, hsid⟩, -⟩ := hs
    exact ⟨hst, by rw [hsids, List.mem_toFinset, List.mem_map]; exact ⟨p, hp, hsid.symm⟩⟩
  have hsource : ∀ s, w s ≠ 0 → paymentSource R invoice s.sourceType s.sourceId := by
    intro s hs
    obtain ⟨hst, hsid⟩ := hsupp s hs
    rw [hsids, List.mem_toFinset, List.mem_map] at hsid
    obtain ⟨p, hp, hsid⟩ := hsid
    exact ⟨hst, p, hp, hsid.symm⟩
  rw [total_eq_net, total_eq_net, ← hw, h.tracked.net_live w hsource, h'.tracked.net_live w hsource,
    sum_live_sources L' hsupp, sum_live_sources F' hsupp]
  refine Finset.sum_congr rfl fun sid hsid => ?_
  rw [hsids, List.mem_toFinset, List.mem_map] at hsid
  obtain ⟨p, hp, rfl⟩ := hsid
  exact (h.settled p hp).value_eq (h'.settled p hp) w

/-- As long as no flip un-voids an opening-era payment that was voided after the cutover, the books
    after any history of flips show, account by account, what a single settlement of the final rows
    shows on a ledger that has seen none of it. -/
theorem settlement_forgets_history (H : ContentHash) (hfree : H.CollisionFree) (clock : ShopClock)
    (invoice : Invoice) (actor : Option Text) (acct : Role → ℕ) (R R' : Rows) (L L' F F' : Ledger)
    (flips : List Flip) (hon : R.ledgerPostingEnabled invoice.companyId = true)
    (hids : (R.payments.map (·.id)).Nodup) (hseed : Seeded L invoice.companyId acct)
    (hchart : F.accounts = L.accounts) (hL : JournalInv H L) (hF : JournalInv H F)
    (hLnone : ∀ e ∈ L.entries, ¬ paymentSource R invoice e.sourceType e.sourceId)
    (hFnone : ∀ e ∈ F.entries, ¬ paymentSource R' invoice e.sourceType e.sourceId)
    (hkeep : KeepsCompensators invoice R flips)
    (hrun : settleHistory H clock invoice actor R flips L = .ok R' L')
    (hfresh : resettleInvoicePayments H clock R' invoice actor none F = .ok () F') (account : ℕ) :
    L'.total (paymentSlots R' invoice account) = F'.total (paymentSlots R' invoice account) := by
  rw [settleHistory, bind_ok] at hrun
  obtain ⟨⟨⟩, M, hfirst, hrun⟩ := hrun
  have hall := resettle_allSettled hfree hL hseed hids hon hLnone hfirst
  obtain ⟨hids', hon', hall'⟩ := settleFlips_settled hfree hseed flips hids hon hkeep hall hrun
  have hseedF : Seeded F invoice.companyId acct := hseed.congr hchart
  exact hall'.total_eq (resettle_allSettled hfree hF hseedF hids' hon' hFnone hfresh) account

/-- The accounts of the starter chart by role. -/
def seededAcct (role : Role) : ℕ :=
  match resolveRoleAccount Ledger.seeded 0 role with
  | .ok a => a.id
  | .error _ => 0

theorem seeded_seededAcct : Seeded Ledger.seeded 0 seededAcct := by
  intro role
  have hok : (resolveRoleAccount Ledger.seeded 0 role).isOk = true := by
    cases role <;> decide +kernel
  cases h : resolveRoleAccount Ledger.seeded 0 role with
  | ok a => exact ⟨a, rfl, by simp [seededAcct, h]⟩
  | error e => rw [h] at hok; cases hok

/-- Posting on since the cutover on day 100. -/
def eraSettings : GlSettings where
  companyId := 0
  ledgerPostingEnabled := true
  cutoverMonth := some 100
  paymentMethodRoleMap := [("cash".toList, .undeposited), ("other".toList, .operatingBank)]
  creditReasonRoleMap := []
  expenseCategoryAccountMap := []
  revenueCategoryAccountMap := []

/-- An invoice of day 50, before the cutover. -/
def eraInvoice : Invoice where
  id := 1
  number := "INV-1"
  companyId := 0
  customerId := some 5
  jobId := none
  status := .sent
  invoiceDate := some 50
  sentAt := none
  createdAt := 50 * DAY
  subtotal := 10000
  taxRate := none
  taxAmount := 0
  total := 10000
  balanceDue := 3000
  totalsLocked := false
  deleted := false

/-- A payment that was there at the cutover and one recorded after it. -/
def eraRows : Rows where
  settings := [eraSettings]
  invoices := [eraInvoice]
  lines := []
  payments := [⟨2, 1, 4000, 0, "cash".toList, 60, none, none, 60 * DAY⟩,
    ⟨3, 1, 3000, 0, "cash".toList, 110, none, none, 110 * DAY⟩]
  adjustments := []
  expenses := []
  nextId := 4

def utcClock : ShopClock := ⟨utcZone, 120⟩

/-- The later payment is voided and restored, then the opening-era one is voided for good. -/
def lawfulFlips : List Flip := [⟨3, some (115 * DAY)⟩, ⟨3, none⟩, ⟨2, some (120 * DAY)⟩]

theorem settlement_forgets_lawful_flips :
    (after (settleHistory plainHash utcClock eraInvoice none eraRows lawfulFlips) Ledger.seeded).total
        (paymentSlots (eraRows.flip ⟨2, some (120 * DAY)⟩) eraInvoice (seededAcct .ar)) = 1000 ∧
      (after (settleHistory plainHash utcClock eraInvoice none eraRows lawfulFlips) Ledger.seeded).total
          (paymentSlots (eraRows.flip ⟨2, some (120 * DAY)⟩) eraInvoice (seededAcct .ar)) =
        (after (resettleInvoicePayments plainHash utcClock (eraRows.flip ⟨2, some (120 * DAY)⟩) eraInvoice none
          none) Ledger.seeded).total
            (paymentSlots (eraRows.flip ⟨2, some (120 * DAY)⟩) eraInvoice (seededAcct .ar)) := by
  refine ⟨by decide +kernel, ?_⟩
  refine settlement_forgets_history plainHash plainHash_collisionFree utcClock eraInvoice none seededAcct
    eraRows (eraRows.flip ⟨2, some (120 * DAY)⟩) Ledger.seeded _ Ledger.seeded _ lawfulFlips (by decide +kernel)
    (by decide +kernel) seeded_seededAcct rfl (.of_empty rfl chartOk_seeded) (.of_empty rfl chartOk_seeded)
    ?_ ?_ ?_ (returns_ok (by decide +kernel)) (returns_ok (by decide +kernel)) (seededAcct .ar)
  · intro e he
    exact absurd he (by simp [show Ledger.seeded.entries = [] from rfl])
  · intro e he
    exact absurd he (by simp [show Ledger.seeded.entries = [] from rfl])
  · refine ⟨?_, ?_, ?_, trivial⟩ <;> decide +kernel

/-- Voiding the opening-era payment and un-voiding it leaves its compensator on the books: 40 dollars
    of receivable that a settlement of the same rows does not post. -/
theorem unvoid_keeps_compensator :
    (after (settleHistory plainHash utcClock eraInvoice none eraRows [⟨2, some (120 * DAY)⟩, ⟨2, none⟩])
        Ledger.seeded).total (paymentSlots eraRows eraInvoice (seededAcct .ar)) = 1000 ∧
      returns (settleHistory plainHash utcClock eraInvoice none eraRows [⟨2, some (120 * DAY)⟩, ⟨2, none⟩])
        Ledger.seeded eraRows = true ∧
      (after (resettleInvoicePayments plainHash utcClock eraRows eraInvoice none none)
        Ledger.seeded).total (paymentSlots eraRows eraInvoice (seededAcct .ar)) = -3000 := by
  decide +kernel

end Gdx
