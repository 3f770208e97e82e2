import GdxDispatch.Ledger.RuleWrites

/-! When a refused item of the replay is left as it was.

    Every item's writes are read off the state before the replay: items move their own sources only,
    so an earlier item changes nothing a later one reads of its own. The lock refuses some writes and
    allows others; an item whose first write is allowed and a later one refused is torn, and the
    replay goes on from there. Everything else the replay reports is whole. -/

namespace Gdx
open Lib

variable {H : ContentHash} {clock : ShopClock} {R : Rows} {acct : Role → ℕ} {P P' : Text → Text → Prop}
  {L L' M : Ledger} {company : ℕ} {actor : Option Text} {α : Type}

theorem Acts.mono {x : LedgerM α} {W : List ℤ} (h : Acts H P company x L W)
    (hP : ∀ st sid, P st sid → P' st sid) : Acts H P' company x L W :=
  ⟨h.within.mono hP, h.plan, h.sound⟩

/-! ### Payments -/

/-- The write of a compensator. -/
def compensatorWrites (clock : ShopClock) (L : Ledger) (p : Payment) (voidedAt : ℤ) : List ℤ :=
  if p.amount = 0 ∨ (liveEventEntry L "payment".toList (str p.id) "opening_payment_void".toList).isSome then []
  else [clock.zone.day voidedAt]

/-- The writes of one pass of the resettlement. -/
def paymentWrites (H : ContentHash) (clock : ShopClock) (R : Rows) (acct : Role → ℕ) (actor : Option Text)
    (invoice : Invoice) (L : Ledger) (p : Payment) : List ℤ :=
  match p.voidedAt with
  | some voidedAt =>
    dates (livePaymentEntries L p invoice.companyId) ++ (dates (liveEraSettlementEntries L p invoice.companyId) ++
      if needsCompensator R invoice p then compensatorWrites clock L p voidedAt else [])
  | none =>
    match lateCutover R invoice p with
    | some c =>
      let cents := allocated (lateEraAllocation R invoice c) p.id
      if cents ≤ 0 then dates (liveEraSettlementEntries L p invoice.companyId)
      else settleWrites H acct L (ruleEvent invoice.companyId "payment".toList (str p.id)
        "era_settlement".toList c (eraSettlementLines invoice p cents) actor)
    | none =>
      if isOpening R invoice p then []
      else match buildPaymentLines R p invoice with
        | .error _ => []
        | .ok [] => []
        | .ok lines => settleWrites H acct L (paymentEvent invoice p p.paymentDate lines actor)

section Payments
variable {invoice : Invoice} {p : Payment}

theorem resolvePaymentMethodRole_error {settings : GlSettings} {method : Option Text} {e : LedgerError}
    (h : resolvePaymentMethodRole settings method = .error e) : ∃ msg, e = .ledgerConfig msg := by
  unfold resolvePaymentMethodRole at h
  split at h
  · cases h
  · split at h
    · cases h
    · cases h; exact ⟨_, rfl⟩

theorem buildPaymentLines_error {e : LedgerError} (h : buildPaymentLines R p invoice = .error e) :
    ∃ msg, e = .ledgerConfig msg := by
  unfold buildPaymentLines at h
  by_cases hz : p.amount = 0 ∧ p.surcharge = 0
  · rw [if_pos hz] at h; cases h
  · rw [if_neg hz] at h
    cases hset : R.glSettings invoice.companyId with
    | none => simp only [hset] at h; cases h; exact ⟨_, rfl⟩
    | some settings =>
      simp only [hset] at h
      cases hrole : resolvePaymentMethodRole settings (some p.method) with
      | error e' =>
        obtain ⟨msg, rfl⟩ := resolvePaymentMethodRole_error hrole
        rw [hrole] at h
        cases h
        exact ⟨msg, rfl⟩
      | ok role => rw [hrole] at h; cases h

/-- A key matched by an event's pattern shows the event's first letter. -/
theorem like_eventPattern_head {st sid ev key : Text} {c : Char} (hs : PlainSource st sid)
    (hc : c ≠ '\\' ∧ c ≠ '%' ∧ c ≠ '_') (h : like (eventPattern st sid (c :: ev)) key = true) :
    st ++ ':' :: (sid ++ [':', c]) <+: key := by
  have hraw : PatternPlain (st ++ ':' :: (sid ++ [':', c])) := by
    intro x hx
    simp only [List.mem_append, List.mem_cons, List.not_mem_nil, or_false] at hx
    rcases hx with hx | rfl | hx | rfl | rfl
    · exact hs.type_plain x hx
    · decide
    · exact hs.id_plain x hx
    · decide
    · exact hc
  have hpat : eventPattern st sid (c :: ev) = (st ++ ':' :: (sid ++ [':', c])) ++ sepCons ':' ev ['%'] := by
    simp [eventPattern, sepCons, List.append_assoc]
  rw [hpat, like_plain_append hraw] at h
  obtain ⟨t, rfl, -⟩ := h
  exact ⟨t, rfl⟩

theorem eventHead_inj {st sid key : Text} {c c' : Char} (h : st ++ ':' :: (sid ++ [':', c]) <+: key)
    (h' : st ++ ':' :: (sid ++ [':', c']) <+: key) : c = c' := by
  obtain ⟨t, rfl⟩ := h
  obtain ⟨t', ht⟩ := h'
  have heq : c' :: t' = c :: t := by simpa [List.append_assoc] using ht
  exact (List.cons.inj heq).1.symm

/-- A key the one-shot guard finds shows the event's first letter too. -/
theorem likeEscapedPrefix_head {st sid ev key : Text} {c : Char}
    (h : likeEscapedPrefix (sepCons ':' st (sepCons ':' sid (sepCons ':' (c :: ev) []))) key = true) :
    st ++ ':' :: (sid ++ [':', c]) <+: key := by
  rw [likeEscapedPrefix_iff] at h
  refine List.IsPrefix.trans ⟨ev ++ [':'], ?_⟩ h
  simp [sepCons, List.append_assoc]

theorem postOpeningPaymentVoid_acts {voidedAt : ℤ} (hinv : JournalInv H L)
    (hseed : Seeded L invoice.companyId acct) (hP : P "payment".toList (str p.id)) :
    Acts H P invoice.companyId (postOpeningPaymentVoid H clock R p invoice voidedAt actor) L
      (compensatorWrites clock L p voidedAt) := by
  cases hset : R.glSettings invoice.companyId with
  | none => exact .of_raise hinv (by simp only [postOpeningPaymentVoid, hset]; rfl) rfl rfl
  | some settings =>
    cases hrole : resolvePaymentMethodRole settings (some p.method) with
    | error e =>
      obtain ⟨msg, rfl⟩ := resolvePaymentMethodRole_error hrole
      exact .of_raise hinv (by simp only [postOpeningPaymentVoid, hset, hrole]; rfl) rfl rfl
    | ok role =>
      unfold compensatorWrites
      by_cases hz : p.amount = 0
      · rw [if_pos (Or.inl hz)]
        exact .of_ok_same hinv (a := ()) (by simp only [postOpeningPaymentVoid, hset, hrole, if_pos hz])
      · by_cases hlive : (liveEventEntry L "payment".toList (str p.id) "opening_payment_void".toList).isSome = true
        · rw [if_pos (Or.inr hlive)]
          exact .of_ok_same hinv (a := ()) (by
            simp only [postOpeningPaymentVoid, hset, hrole, if_neg hz, if_pos hlive])
        · rw [if_neg (not_or.mpr ⟨hz, hlive⟩)]
          have hday : shopEffectiveAt clock L "payment".toList (str p.id) "opening_payment_void".toList voidedAt =
              clock.zone.day voidedAt := by
            unfold shopEffectiveAt
            cases hf : liveEventEntry L "payment".toList (str p.id) "opening_payment_void".toList with
            | none => rfl
            | some e => rw [hf] at hlive; exact absurd rfl hlive
          have hact := postOnly_acts (H := H) (P := P) (ruleEvent invoice.companyId "payment".toList (str p.id)
            "opening_payment_void".toList (clock.zone.day voidedAt) (compensatorLines invoice p role) actor)
            hinv hseed rfl hP
          rw [postWrite_of_not_live (plainSource_payment p.id) hinv (Bool.eq_false_iff.mpr hlive)] at hact
          refine hact.congr ?_
          simp only [postOpeningPaymentVoid, hset, hrole, if_neg hz, if_neg hlive, hday]
          rfl

theorem get_acts (hinv : JournalInv H L) : Acts H P company (get : LedgerM Ledger) L [] :=
  .of_ok_same hinv (get_apply L)

theorem reverseNone_acts {st sid ev : Text} (hinv : JournalInv H L) (hP : P st sid) :
    Acts H P company (reverseAllBut none actor none (liveLike L company st sid ev)) L
      (dates (liveLike L company st sid ev)) := by
  have h : Acts H P company
      (each (reverseSettled actor none) ((liveLike L company st sid ev).filter fun _ => true)) L
      (dates ((liveLike L company st sid ev).filter fun _ => true)) := reverseLives_acts hinv hP
  rw [List.filter_true] at h
  refine h.congr ?_
  simp [reverseAllBut]

/-- Reversing the rows of one event leaves what a query for another event finds. -/
theorem query_reverseNone {st sid ev : Text} {c c' : Char} {q : GlJournalEntry → Bool} (hs : PlainSource st sid)
    (hc : c ≠ '\\' ∧ c ≠ '%' ∧ c ≠ '_') (hne : c ≠ c') (hinv : JournalInv H L)
    (hlive : ∀ x, q x = true → x.status = .posted)
    (hq : ∀ x, q x = true → st ++ ':' :: (sid ++ [':', c']) <+: x.idempotencyKey)
    (h : reverseAllBut none actor none (liveLike L company st sid (c :: ev)) L = .ok () M) :
    M.entries.filter q = L.entries.filter q := by
  have hloop : each (reverseSettled actor none) (liveLike L company st sid (c :: ev)) L = .ok () M := by
    simpa [reverseAllBut] using h
  refine query_reverseEach hlive ?_ _ hinv ?_ (nodup_ids_of_sublist hinv (liveLike_sublist ..)) hloop
  · intro x id hx
    rw [Bool.eq_false_iff]
    intro hqx
    have hpre := hq x hqx
    rw [hx] at hpre
    have hsep : sepCons ':' st (sid ++ [':', c']) <+: sepCons ':' "reversal".toList (str id) := hpre
    rw [sepCons_prefix_iff hs.type_colon (by decide)] at hsep
    exact hs.not_reversal hsep.1
  · intro e he
    obtain ⟨hmem, hp, -⟩ := mem_liveLike_posted he
    refine ⟨hmem, hp, ?_⟩
    rw [Bool.eq_false_iff]
    intro hqe
    simp only [liveLike, List.mem_filter, Bool.and_eq_true] at he
    exact hne (eventHead_inj (like_eventPattern_head hs hc he.2.2) (hq e hqe))

theorem liveEra_after_reverse (hinv : JournalInv H L)
    (h : reverseAllBut none actor none (livePaymentEntries L p company) L = .ok () M) :
    liveEraSettlementEntries M p company = liveEraSettlementEntries L p company := by
  have hne : 'r' ≠ 'e' := by decide
  refine query_reverseNone (plainSource_payment p.id) (by decide) hne hinv ?_ ?_ h
  · intro x hx
    simp only [Bool.and_eq_true, isPosted_iff] at hx
    exact hx.1.2
  · intro x hx
    simp only [Bool.and_eq_true] at hx
    exact like_eventPattern_head (plainSource_payment p.id) (by decide) hx.2

theorem liveEventEntry_after_reverse (c : Char) (ev : Text) (hc : c ≠ '\\' ∧ c ≠ '%' ∧ c ≠ '_') (hne : c ≠ 'o')
    (hinv : JournalInv H L)
    (h : reverseAllBut none actor none (liveLike L company "payment".toList (str p.id) (c :: ev)) L = .ok () M) :
    liveEventEntry M "payment".toList (str p.id) "opening_payment_void".toList =
      liveEventEntry L "payment".toList (str p.id) "opening_payment_void".toList := by
  unfold liveEventEntry
  rw [← List.head?_filter, ← List.head?_filter]
  congr 1
  refine query_reverseNone (plainSource_payment p.id) hc hne hinv ?_ ?_ h
  · intro x hx
    simp only [Bool.and_eq_true, isPosted_iff] at hx
    exact hx.1.2
  · intro x hx
    simp only [Bool.and_eq_true] at hx
    exact likeEscapedPrefix_head hx.2

theorem settleVoided_acts (clock : ShopClock) (actor : Option Text) (voidedAt : ℤ) (compensate : Bool)
    (hinv : JournalInv H L) (hseed : Seeded L invoice.companyId acct) (hP : P "payment".toList (str p.id)) :
    Acts H P invoice.companyId (settleVoided H clock R invoice p voidedAt compensate actor none) L
      (dates (livePaymentEntries L p invoice.companyId) ++
        (dates (liveEraSettlementEntries L p invoice.companyId) ++
          if compensate then compensatorWrites clock L p voidedAt else [])) := by
  unfold settleVoided
  refine Acts.bind (W := []) (get_acts hinv) fun L₁ L₂ hget => ?_
  cases hget
  refine Acts.bind (reverseNone_acts hinv hP) fun u M hM => ?_
  have hwM : Within H P L M := (reverseNone_acts hinv hP).within_ok hM
  refine Acts.bind (W := []) (get_acts hwM.inv) fun M₁ M₂ hget => ?_
  cases hget
  rw [← liveEra_after_reverse hinv hM]
  refine Acts.bind (reverseNone_acts hwM.inv hP) fun u N hN => ?_
  have hwN : Within H P M N := (reverseNone_acts hwM.inv hP).within_ok hN
  have hcomp : compensatorWrites clock L p voidedAt = compensatorWrites clock N p voidedAt := by
    unfold compensatorWrites
    rw [liveEventEntry_after_reverse 'e' "ra_settlement".toList (by decide) (by decide) hwM.inv hN,
      liveEventEntry_after_reverse 'r' "eceived".toList (by decide) (by decide) hinv hM]
  have hseedN : Seeded N invoice.companyId acct := hseed.congr (hwN.accounts.trans hwM.accounts)
  cases compensate with
  | true =>
    simp only [if_true]
    rw [hcomp]
    exact postOpeningPaymentVoid_acts hwN.inv hseedN hP
  | false =>
    simp only [Bool.false_eq_true, if_false]
    exact .pure hwN.inv _

theorem settleLateEra_acts {cutover cents : ℤ} (hinv : JournalInv H L)
    (hseed : Seeded L invoice.companyId acct) (hon : R.ledgerPostingEnabled invoice.companyId = true)
    (hP : P "payment".toList (str p.id)) :
    Acts H P invoice.companyId (settleLateEra H R invoice p cutover cents actor none) L
      (if cents ≤ 0 then dates (liveEraSettlementEntries L p invoice.companyId)
        else settleWrites H acct L (ruleEvent invoice.companyId "payment".toList (str p.id)
          "era_settlement".toList cutover (eraSettlementLines invoice p cents) actor)) := by
  unfold settleLateEra postEraSettlement
  rw [hon]
  simp only [Bool.not_true, Bool.false_eq_true, false_or]
  by_cases hz : cents ≤ 0
  · rw [if_pos hz, if_pos hz]
    refine Acts.bind (W := []) (.pure hinv _) fun posted M hM => ?_
    cases hM
    refine Acts.bind (W := []) (get_acts hinv) fun L₁ L₂ hget => ?_
    cases hget
    exact reverseNone_acts hinv hP
  · rw [if_neg hz, if_neg hz]
    have hact := settle_acts (H := H) (P := P) (ruleEvent invoice.companyId "payment".toList (str p.id)
      "era_settlement".toList cutover (eraSettlementLines invoice p cents) actor) actor hinv hseed rfl hP
    refine hact.congr ?_
    simp only [bind_assoc, pure_bind]
    rfl

theorem settleReceived_acts (hinv : JournalInv H L) (hseed : Seeded L invoice.companyId acct)
    (hP : P "payment".toList (str p.id)) :
    Acts H P invoice.companyId (settleReceived H R invoice p actor none) L
      (match buildPaymentLines R p invoice with
        | .error _ => []
        | .ok [] => []
        | .ok lines => settleWrites H acct L (paymentEvent invoice p p.paymentDate lines actor)) := by
  cases hb : buildPaymentLines R p invoice with
  | error e =>
    obtain ⟨msg, rfl⟩ := buildPaymentLines_error hb
    exact .of_raise hinv (by rw [settleReceived, hb]; rfl) rfl rfl
  | ok lines =>
    cases lines with
    | nil => exact .of_ok_same hinv (a := ()) (by rw [settleReceived, hb]; rfl)
    | cons l ls =>
      have hact := settle_acts (H := H) (P := P) (paymentEvent invoice p p.paymentDate (l :: ls) actor) actor
        hinv hseed rfl hP
      refine hact.congr ?_
      rw [settleReceived, hb]
      simp only [repostPayment, withFallback_none]
      rfl

theorem settlePayment_acts (clock : ShopClock) (actor : Option Text) (hinv : JournalInv H L)
    (hseed : Seeded L invoice.companyId acct)
    (hon : R.ledgerPostingEnabled invoice.companyId = true) (hP : P "payment".toList (str p.id)) :
    Acts H P invoice.companyId (settlePayment H clock R invoice actor none p) L
      (paymentWrites H clock R acct actor invoice L p) := by
  unfold paymentWrites
  cases hv : p.voidedAt with
  | some voidedAt =>
    have hact := settleVoided_acts (P := P) (R := R) clock actor voidedAt (needsCompensator R invoice p)
      hinv hseed hP
    refine hact.congr ?_
    rw [needsCompensator_eq hv]
    simp only [settlePayment, hv]
    rfl
  | none =>
    cases hl : lateCutover R invoice p with
    | some c =>
      refine (settleLateEra_acts (P := P) hinv hseed hon hP).congr ?_
      simp only [settlePayment, hv]
      change (match lateCutover R invoice p with
        | some c => settleLateEra H R invoice p c (allocated (lateEraAllocation R invoice c) p.id) actor none
        | none => if isOpening R invoice p then pure () else settleReceived H R invoice p actor none) L = _
      rw [hl]
    | none =>
      have heq : settlePayment H clock R invoice actor none p L =
          (if isOpening R invoice p then pure () else settleReceived H R invoice p actor none : LedgerM Unit) L := by
        simp only [settlePayment, hv]
        change (match lateCutover R invoice p with
          | some c => settleLateEra H R invoice p c (allocated (lateEraAllocation R invoice c) p.id) actor none
          | none => if isOpening R invoice p then pure () else settleReceived H R invoice p actor none) L = _
        rw [hl]
      by_cases ho : isOpening R invoice p = true
      · simp only [if_pos ho] at heq ⊢
        exact .of_ok_same hinv (a := ()) heq
      · simp only [if_neg ho] at heq ⊢
        exact (settleReceived_acts hinv hseed hP).congr heq

theorem paymentWrites_congr (hL : JournalInv H L) (hM : JournalInv H M)
    (h : M.sourced (oneSource "payment".toList (str p.id)) = L.sourced (oneSource "payment".toList (str p.id))) :
    paymentWrites H clock R acct actor invoice M p = paymentWrites H clock R acct actor invoice L p := by
  have hlive : ∀ ev, liveLike M invoice.companyId "payment".toList (str p.id) ev =
      liveLike L invoice.companyId "payment".toList (str p.id) ev := fun ev => liveLike_congr h
  have hsettle : ∀ ev day lines, settleWrites H acct M (ruleEvent invoice.companyId "payment".toList (str p.id)
      ev day lines actor) = settleWrites H acct L (ruleEvent invoice.companyId "payment".toList (str p.id)
      ev day lines actor) := fun ev day lines => settleWrites_congr (plainSource_payment p.id) hL hM h
  unfold paymentWrites compensatorWrites livePaymentEntries liveEraSettlementEntries paymentEvent
  simp only [hlive, hsettle, liveEventEntry_congr h]

/-- The whole group: each payment's writes, read off the ledger before the group. -/
theorem settleEach_acts (hon : R.ledgerPostingEnabled invoice.companyId = true) :
    ∀ (ps : List Payment) {L : Ledger}, JournalInv H L → Seeded L invoice.companyId acct →
    (ps.map (·.id)).Nodup → (∀ p ∈ ps, P "payment".toList (str p.id)) →
    Acts H P invoice.companyId (each (settlePayment H clock R invoice actor none) ps) L
      (ps.flatMap (paymentWrites H clock R acct actor invoice L))
  | [], L, hinv, _, _, _ => .pure hinv ()
  | p :: ps, L, hinv, hseed, hnd, hP => by
    rw [List.map_cons, List.nodup_cons] at hnd
    have hone := settlePayment_acts clock actor (p := p)
      (P := fun st sid => oneSource "payment".toList (str p.id) st sid = true) hinv hseed hon (by simp [oneSource])
    have hPone : ∀ st sid, oneSource "payment".toList (str p.id) st sid = true → P st sid := by
      intro st sid hs
      simp only [oneSource, Bool.and_eq_true, beq_iff_eq] at hs
      rw [hs.1, hs.2]
      exact hP p (List.mem_cons_self ..)
    rw [List.flatMap_cons]
    refine Acts.bind (hone.mono hPone) fun u M hM => ?_
    have hw := hone.within_ok hM
    have hcongr : ps.flatMap (paymentWrites H clock R acct actor invoice L) =
        ps.flatMap (paymentWrites H clock R acct actor invoice M) := by
      refine List.flatMap_congr fun q hq => ?_
      refine (paymentWrites_congr hinv hw.inv (hw.others _ fun st sid hs => ?_)).symm
      simp only [oneSource, Bool.and_eq_true, beq_iff_eq] at hs
      simp only [oneSource, Bool.and_eq_false_iff, beq_eq_false_iff_ne]
      right
      rw [hs.2]
      intro heq
      exact hnd.1 (List.mem_map.mpr ⟨q, hq, (str_inj.mp heq).symm⟩)
    rw [hcongr]
    exact settleEach_acts hon ps hw.inv (hseed.congr hw.accounts) hnd.2
      fun q hq => hP q (List.mem_cons_of_mem _ hq)

end Payments

/-! ### Issuances -/

def openingWrites (R : Rows) (L : Ledger) (invoice : Invoice) : List ℤ :=
  match R.cutoverDate invoice.companyId with
  | none => []
  | some cutover =>
    if (invoice.status ∉ ISSUED_STATUSES ∨ invoice.deleted) ∨ invoice.effectiveAt ≥ cutover ∨
        (liveEventEntry L "invoice".toList (str invoice.id) "opening".toList).isSome ∨
        buildOpeningLines invoice (openingBalanceCents R invoice cutover) = [] then []
    else [cutover]

/-- The writes of the reposted issuance. -/
def invoiceWrites (H : ContentHash) (R : Rows) (acct : Role → ℕ) (actor : Option Text) (L : Ledger)
    (invoice : Invoice) : List ℤ :=
  if invoice.status ∉ ISSUED_STATUSES ∨ R.ledgerPostingEnabled invoice.companyId = false then []
  else if (liveIssuanceEntry L invoice).isNone ∧ preCutoverEra R invoice then openingWrites R L invoice
  else match buildIssuanceLines R L invoice with
    | .error _ => []
    | .ok [] => dates (liveIssuanceEntry L invoice).toList
    | .ok lines =>
      match liveIssuanceEntry L invoice with
      | none => postWrite H acct L (issuanceEvent invoice lines actor)
      | some e => repostWrites H acct L (issuanceEvent invoice lines actor) e

section Invoices
variable {invoice : Invoice}

theorem buildIssuanceLines_error {e : LedgerError} (h : buildIssuanceLines R L invoice = .error e) :
    e.isComposition = true := by
  unfold buildIssuanceLines at h
  simp only at h
  by_cases hz : invoice.total = 0
  · rw [if_pos hz] at h; cases h
  · rw [if_neg hz] at h
    by_cases hres : (invoice.total - (sumCents (fun x => x.lineTotal)
        (List.filter (fun x => decide (x.lineTotal ≠ 0)) (R.liveLines invoice)) + invoice.taxAmount)).natAbs >
        MAX_RESIDUAL_CENTS
    · rw [if_pos hres] at h; cases h; rfl
    · rw [if_neg hres] at h; cases h

theorem postOpeningBalance_acts (actor : Option Text) (hinv : JournalInv H L)
    (hseed : Seeded L invoice.companyId acct)
    (hP : P "invoice".toList (str invoice.id)) :
    Acts H P invoice.companyId (postOpeningBalance H R invoice actor) L (openingWrites R L invoice) := by
  unfold openingWrites
  cases hcut : R.cutoverDate invoice.companyId with
  | none => exact .of_raise hinv (by simp only [postOpeningBalance, hcut]; rfl) rfl rfl
  | some cutover =>
    simp only
    by_cases h1 : invoice.status ∉ ISSUED_STATUSES ∨ invoice.deleted
    · rw [if_pos (Or.inl h1)]
      exact .of_ok_same hinv (a := ()) (by simp only [postOpeningBalance, hcut, if_pos h1])
    by_cases h2 : invoice.effectiveAt ≥ cutover
    · rw [if_pos (Or.inr (Or.inl h2))]
      exact .of_ok_same hinv (a := ()) (by simp only [postOpeningBalance, hcut, if_neg h1, if_pos h2])
    by_cases h3 : (liveEventEntry L "invoice".toList (str invoice.id) "opening".toList).isSome = true
    · rw [if_pos (Or.inr (Or.inr (Or.inl h3)))]
      exact .of_ok_same hinv (a := ()) (by simp only [postOpeningBalance, hcut, if_neg h1, if_neg h2, if_pos h3])
    by_cases h4 : buildOpeningLines invoice (openingBalanceCents R invoice cutover) = []
    · rw [if_pos (Or.inr (Or.inr (Or.inr h4)))]
      exact .of_ok_same hinv (a := ()) (by
        simp only [postOpeningBalance, hcut, if_neg h1, if_neg h2, if_neg h3, if_pos h4])
    · rw [if_neg (by tauto)]
      have hact := postOnly_acts (H := H) (P := P) (ruleEvent invoice.companyId
        "invoice".toList (str invoice.id) "opening".toList cutover
        (buildOpeningLines invoice (openingBalanceCents R invoice cutover)) actor) hinv hseed rfl hP
      rw [postWrite_of_not_live (plainSource_invoice invoice.id) hinv (Bool.eq_false_iff.mpr h3)] at hact
      refine hact.congr ?_
      simp only [postOpeningBalance, hcut, if_neg h1, if_neg h2, if_neg h3, if_neg h4]

theorem liveIssuance_posted {e : GlJournalEntry} (h : liveIssuanceEntry L invoice = some e) :
    e ∈ L.entries ∧ e.status = .posted ∧ e.companyId = invoice.companyId ∧
      e.sourceType = "invoice".toList ∧ e.sourceId = str invoice.id :=
  mem_liveLike_posted (List.mem_of_head? h)

/-- The reposted issuance raises over the rows before it writes, or acts as its writes say. -/
theorem repostInvoiceIssuance_acts (hinv : JournalInv H L) (hseed : Seeded L invoice.companyId acct)
    (hP : P "invoice".toList (str invoice.id)) :
    (∃ e, e.isComposition = true ∧ repostInvoiceIssuance H R invoice actor L = .error e L ∧
      invoiceWrites H R acct actor L invoice = []) ∨
    Acts H P invoice.companyId (repostInvoiceIssuance H R invoice actor) L
      (invoiceWrites H R acct actor L invoice) := by
  unfold invoiceWrites
  by_cases h1 : invoice.status ∉ ISSUED_STATUSES
  · right
    rw [if_pos (Or.inl h1)]
    exact .of_ok_same hinv (a := ()) (by simp only [repostInvoiceIssuance, if_pos h1])
  by_cases h2 : R.ledgerPostingEnabled invoice.companyId = false
  · right
    rw [if_pos (Or.inr h2)]
    exact .of_ok_same hinv (a := ()) (by simp [repostInvoiceIssuance, h2])
  rw [if_neg (by tauto)]
  rw [Bool.not_eq_false] at h2
  by_cases h3 : (liveIssuanceEntry L invoice).isNone ∧ preCutoverEra R invoice
  · right
    rw [if_pos h3]
    refine (postOpeningBalance_acts actor hinv hseed hP).congr ?_
    simp only [repostInvoiceIssuance, if_neg h1, h2, Bool.not_true, Bool.false_eq_true, if_false, if_pos h3]
  rw [if_neg h3]
  cases hb : buildIssuanceLines R L invoice with
  | error e =>
    left
    refine ⟨e, buildIssuanceLines_error hb, ?_, rfl⟩
    simp only [repostInvoiceIssuance, if_neg h1, h2, Bool.not_true, Bool.false_eq_true, if_false, if_neg h3, hb]
  | ok lines =>
    right
    cases lines with
    | nil =>
      have hred : repostInvoiceIssuance H R invoice actor L = reverseLive (liveIssuanceEntry L invoice) actor L := by
        simp only [repostInvoiceIssuance, if_neg h1, h2, Bool.not_true, Bool.false_eq_true, if_false, if_neg h3, hb]
      refine (reverseLive_acts hinv fun e he => ?_).congr hred
      obtain ⟨hmem, hp, hc, hst, hsid⟩ := liveIssuance_posted he
      exact ⟨hmem, hp, hc, by rw [hst, hsid]; exact hP⟩
    | cons l ls =>
      cases hlive : liveIssuanceEntry L invoice with
      | none =>
        have hera : ¬ preCutoverEra R invoice = true := fun he => h3 ⟨by rw [hlive]; rfl, he⟩
        refine (postOnly_acts (issuanceEvent invoice (l :: ls) actor) hinv hseed rfl hP).congr ?_
        simp [repostInvoiceIssuance, postInvoiceIssuance, h1, h2, hera, hb, hlive]
      | some e =>
        obtain ⟨hmem, hp, hc, hst, hsid⟩ := liveIssuance_posted hlive
        have hred : repostInvoiceIssuance H R invoice actor L =
            repostOver H (issuanceEvent invoice (l :: ls) actor) e actor L := by
          simp [repostInvoiceIssuance, h1, h2, hb, hlive]
        exact (repostOver_acts hinv hseed rfl hP hmem hp hc (by rw [hst, hsid]; exact hP)).congr hred

theorem accountById_congr (h : M.accounts = L.accounts) : M.accountById = L.accountById := by
  funext id
  rw [Ledger.accountById, h]
  rfl

theorem buildIssuanceLines_congr (h : M.accounts = L.accounts) :
    buildIssuanceLines R M invoice = buildIssuanceLines R L invoice := by
  unfold buildIssuanceLines issuanceLine revenueAccountIdFor mappedAccountId
  rw [accountById_congr h]

theorem invoiceWrites_congr (hL : JournalInv H L) (hM : JournalInv H M) (hacc : M.accounts = L.accounts)
    (h : M.sourced (oneSource "invoice".toList (str invoice.id)) =
      L.sourced (oneSource "invoice".toList (str invoice.id))) :
    invoiceWrites H R acct actor M invoice = invoiceWrites H R acct actor L invoice := by
  have hlive : liveIssuanceEntry M invoice = liveIssuanceEntry L invoice := by
    unfold liveIssuanceEntry
    rw [liveLike_congr h]
  have hpost : ∀ lines, postWrite H acct M (issuanceEvent invoice lines actor) =
      postWrite H acct L (issuanceEvent invoice lines actor) := fun lines =>
    postWrite_congr (plainSource_invoice invoice.id) hL hM h
  have hrepost : ∀ lines e, repostWrites H acct M (issuanceEvent invoice lines actor) e =
      repostWrites H acct L (issuanceEvent invoice lines actor) e := fun lines e =>
    repostWrites_congr (plainSource_invoice invoice.id) hL hM h
  unfold invoiceWrites openingWrites
  simp only [hlive, hpost, hrepost, buildIssuanceLines_congr hacc, liveEventEntry_congr h]

end Invoices

/-! ### Expenses -/

def expenseWrites (H : ContentHash) (R : Rows) (acct : Role → ℕ) (actor : Option Text) (L : Ledger)
    (expense : Expense) : List ℤ :=
  if R.ledgerPostingEnabled expense.companyId = false then []
  else if expense.deleted then dates (liveExpenseEntry L expense).toList
  else match buildExpenseLines R L expense with
    | .error _ => []
    | .ok [] => dates (liveExpenseEntry L expense).toList
    | .ok lines =>
      match liveExpenseEntry L expense with
      | none => postWrite H acct L (expenseEvent expense lines actor)
      | some e => repostWrites H acct L (expenseEvent expense lines actor) e

section Expenses
variable {expense : Expense}

theorem buildExpenseLines_error {e : LedgerError} (h : buildExpenseLines R L expense = .error e) :
    e.isComposition = true := by
  unfold buildExpenseLines at h
  by_cases hz : expense.amount = 0
  · rw [if_pos hz] at h; cases h
  · rw [if_neg hz] at h
    by_cases hover : expense.lines ≠ [] ∧ expense.lines.sum > expense.amount
    · rw [if_pos hover] at h; cases h; rfl
    · rw [if_neg hover] at h; cases h

theorem liveExpense_posted {e : GlJournalEntry} (h : liveExpenseEntry L expense = some e) :
    e ∈ L.entries ∧ e.status = .posted ∧ e.companyId = expense.companyId ∧
      e.sourceType = "expense".toList ∧ e.sourceId = str expense.id :=
  mem_liveLike_posted (List.mem_of_head? h)

theorem repostExpense_acts (hinv : JournalInv H L) (hseed : Seeded L expense.companyId acct)
    (hP : P "expense".toList (str expense.id)) :
    (∃ e, e.isComposition = true ∧ repostExpense H R expense actor L = .error e L ∧
      expenseWrites H R acct actor L expense = []) ∨
    Acts H P expense.companyId (repostExpense H R expense actor) L
      (expenseWrites H R acct actor L expense) := by
  unfold expenseWrites
  have hlive : ∀ e ∈ liveExpenseEntry L expense, e ∈ L.entries ∧ e.status = .posted ∧
      e.companyId = expense.companyId ∧ P e.sourceType e.sourceId := by
    intro e he
    obtain ⟨hmem, hp, hc, hst, hsid⟩ := liveExpense_posted he
    exact ⟨hmem, hp, hc, by rw [hst, hsid]; exact hP⟩
  by_cases h1 : R.ledgerPostingEnabled expense.companyId = false
  · right
    rw [if_pos h1]
    exact .of_ok_same hinv (a := ()) (by simp [repostExpense, h1])
  rw [if_neg h1]
  rw [Bool.not_eq_false] at h1
  by_cases h2 : expense.deleted = true
  · right
    rw [if_pos h2]
    have hacts : Acts H P expense.companyId (reverseLive (liveExpenseEntry L expense) actor) L
        (dates (liveExpenseEntry L expense).toList) := reverseLive_acts hinv hlive
    refine hacts.congr ?_
    simp only [repostExpense, h1, Bool.not_true, Bool.false_eq_true, if_false, if_pos h2]
  rw [if_neg h2]
  cases hb : buildExpenseLines R L expense with
  | error e =>
    left
    exact ⟨e, buildExpenseLines_error hb, by simp [repostExpense, h1, h2, hb], rfl⟩
  | ok lines =>
    right
    cases lines with
    | nil =>
      have hred : repostExpense H R expense actor L = reverseLive (liveExpenseEntry L expense) actor L := by
        simp [repostExpense, h1, h2, hb]
      exact (reverseLive_acts hinv hlive).congr hred
    | cons l ls =>
      cases hl : liveExpenseEntry L expense with
      | none =>
        refine (postOnly_acts (expenseEvent expense (l :: ls) actor) hinv hseed rfl hP).congr ?_
        simp [repostExpense, h1, h2, hb, hl]
      | some e =>
        obtain ⟨hmem, hp, hc, hPe⟩ := hlive e hl
        have hred : repostExpense H R expense actor L = repostOver H (expenseEvent expense (l :: ls) actor) e actor L := by
          simp [repostExpense, h1, h2, hb, hl]
        exact (repostOver_acts hinv hseed rfl hP hmem hp hc hPe).congr hred

theorem expenseWrites_congr (hL : JournalInv H L) (hM : JournalInv H M) (hacc : M.accounts = L.accounts)
    (h : M.sourced (oneSource "expense".toList (str expense.id)) =
      L.sourced (oneSource "expense".toList (str expense.id))) :
    expenseWrites H R acct actor M expense = expenseWrites H R acct actor L expense := by
  have hlive : liveExpenseEntry M expense = liveExpenseEntry L expense := by
    unfold liveExpenseEntry
    rw [liveLike_congr h]
  have hbuild : buildExpenseLines R M expense = buildExpenseLines R L expense := by
    unfold buildExpenseLines expenseAccountId mappedAccountId
    rw [accountById_congr hacc]
  have hpost : ∀ lines, postWrite H acct M (expenseEvent expense lines actor) =
      postWrite H acct L (expenseEvent expense lines actor) := fun lines =>
    postWrite_congr (plainSource_expense expense.id) hL hM h
  have hrepost : ∀ lines e, repostWrites H acct M (expenseEvent expense lines actor) e =
      repostWrites H acct L (expenseEvent expense lines actor) e := fun lines e =>
    repostWrites_congr (plainSource_expense expense.id) hL hM h
  unfold expenseWrites
  simp only [hlive, hbuild, hpost, hrepost]

end Expenses

/-! ### Adjustments -/

def AdjustmentKind.event : AdjustmentKind → Text
  | .creditMemo => "credit_memo".toList
  | .refund => "refund".toList
  | .creditApplied => "credit_applied".toList

/-- A one-shot adjustment makes one write at most. -/
def adjustmentWrites (clock : ShopClock) (R : Rows) (L : Ledger) (a : InvoiceAdjustment) (invoice : Invoice)
    (ev : Text) : List ℤ :=
  if R.ledgerPostingEnabled invoice.companyId = false ∨ a.amount = 0 ∨
      (liveEventEntry L "adjustment".toList (str a.id) ev).isSome then []
  else [clock.zone.day a.createdAt]

section Adjustments
variable {a : InvoiceAdjustment} {invoice : Invoice}

theorem postAdjustment_acts (clock : ShopClock) (actor : Option Text) (ev : Text)
    (build : Ledger → Except LedgerError (List PostingLine)) (hinv : JournalInv H L) (hseed : Seeded L invoice.companyId acct) (hP : P "adjustment".toList (str a.id))
    (hbuild : ∀ e, build L = .error e → ∃ msg, e = .ledgerConfig msg) :
    Acts H P invoice.companyId (postAdjustment H clock R a invoice ev build actor) L
      (adjustmentWrites clock R L a invoice ev) := by
  unfold adjustmentWrites
  by_cases h1 : R.ledgerPostingEnabled invoice.companyId = false
  · rw [if_pos (Or.inl h1)]
    exact .of_ok_same hinv (a := ()) (by simp [postAdjustment, h1])
  by_cases h2 : a.amount = 0
  · rw [if_pos (Or.inr (Or.inl h2))]
    rw [Bool.not_eq_false] at h1
    exact .of_ok_same hinv (a := ()) (by simp [postAdjustment, h1, h2])
  by_cases h3 : (liveEventEntry L "adjustment".toList (str a.id) ev).isSome = true
  · rw [if_pos (Or.inr (Or.inr h3))]
    rw [Bool.not_eq_false] at h1
    exact .of_ok_same hinv (a := ()) (by
      simp only [postAdjustment, h1, Bool.not_true, Bool.false_eq_true, if_false, if_neg h2, if_pos h3])
  rw [if_neg (by tauto)]
  rw [Bool.not_eq_false] at h1
  have hday : shopEffectiveAt clock L "adjustment".toList (str a.id) ev a.createdAt = clock.zone.day a.createdAt := by
    unfold shopEffectiveAt
    cases hf : liveEventEntry L "adjustment".toList (str a.id) ev with
    | none => rfl
    | some e => rw [hf] at h3; exact absurd rfl h3
  cases hb : build L with
  | error e =>
    obtain ⟨msg, rfl⟩ := hbuild e hb
    have hred : postAdjustment H clock R a invoice ev build actor L = .error (.ledgerConfig msg) L := by
      simp only [postAdjustment, h1, Bool.not_true, Bool.false_eq_true, if_false, if_neg h2, if_neg h3, hb]
    exact .of_raise hinv hred rfl rfl
  | ok lines =>
    have hred : postAdjustment H clock R a invoice ev build actor L = (do
        let _ ← postForEvent H (ruleEvent invoice.companyId "adjustment".toList (str a.id) ev
          (shopEffectiveAt clock L "adjustment".toList (str a.id) ev a.createdAt) lines actor) false) L := by
      simp only [postAdjustment, h1, Bool.not_true, Bool.false_eq_true, if_false, if_neg h2, if_neg h3, hb]
    rw [hday] at hred
    have hact := postOnly_acts (H := H) (P := P) (ruleEvent invoice.companyId
      "adjustment".toList (str a.id) ev (clock.zone.day a.createdAt) lines actor) hinv hseed rfl hP
    rw [postWrite_of_not_live (plainSource_adjustment a.id) hinv (Bool.eq_false_iff.mpr h3)] at hact
    exact hact.congr hred

theorem refundLines_error {e : LedgerError} (hseed : Seeded L invoice.companyId acct)
    (h : refundLines R invoice a L = .error e) : ∃ msg, e = .ledgerConfig msg := by
  unfold refundLines at h
  cases hset : R.glSettings invoice.companyId with
  | none => simp only [hset] at h; cases h; exact ⟨_, rfl⟩
  | some settings =>
    simp only [hset] at h
    cases hrole : resolvePaymentMethodRole settings a.refundMethod with
    | error e' =>
      obtain ⟨msg, rfl⟩ := resolvePaymentMethodRole_error hrole
      rw [hrole] at h
      cases h
      exact ⟨msg, rfl⟩
    | ok role =>
      rw [hrole] at h
      obtain ⟨acc, hres, -⟩ := hseed .customerCredits
      have hbal : ∃ x, customerCreditBalanceCents L invoice.companyId invoice.customerId = .ok x := by
        unfold customerCreditBalanceCents resolveRoleAccountOrNone
        rw [hres]
        split_ifs <;> exact ⟨_, rfl⟩
      obtain ⟨x, hx⟩ := hbal
      simp only [hx] at h
      cases h

theorem adjustment_acts (hinv : JournalInv H L) (hseed : Seeded L invoice.companyId acct)
    (hP : P "adjustment".toList (str a.id)) :
    Acts H P invoice.companyId ((ReplayItem.adjustment a invoice).run H clock R) L
      (adjustmentWrites clock R L a invoice a.kind.event) := by
  have hpost := fun (ev : Text) (build : Ledger → Except LedgerError (List PostingLine)) =>
    postAdjustment_acts (P := P) (R := R) (a := a) clock ACTOR ev build hinv hseed hP
  cases hk : a.kind with
  | creditMemo =>
    refine (hpost AdjustmentKind.creditMemo.event (fun _ => .ok (creditMemoLines R invoice a)) ?_).congr ?_
    · intro e he; cases he
    · rw [ReplayItem.run, hk]; rfl
  | refund =>
    refine (hpost AdjustmentKind.refund.event (refundLines R invoice a) ?_).congr ?_
    · intro e he; exact refundLines_error hseed he
    · rw [ReplayItem.run, hk]; rfl
  | creditApplied =>
    refine (hpost AdjustmentKind.creditApplied.event (fun _ => .ok (creditApplicationLines invoice a)) ?_).congr ?_
    · intro e he; cases he
    · rw [ReplayItem.run, hk]; rfl

end Adjustments

end Gdx
