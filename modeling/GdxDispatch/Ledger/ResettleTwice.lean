import GdxDispatch.Ledger.Fallback
import GdxDispatch.Ledger.ReplayRefusals

/-! A resettlement run again.

    A pass leaves one live entry of its payment, at the payment's own date or, where the lock refused that, at the
    fallback day. A later run first tries the own date again: a payment whose entry was moved is refused again, so the
    run recognises its entry only at the same fallback day, and moves it once more or raises at any other. -/

namespace Gdx

open Lib

variable {H : ContentHash} {clock : ShopClock} {R : Rows} {acct : Role → ℕ} {P : Text → Text → Prop}
  {L L' L₀ M N : Ledger} {actor : Option Text} {first second fallback : Option ℤ} {invoice : Invoice} {p : Payment}
  {lines : List PostingLine} {e : GlJournalEntry}

/-! ### The four kinds of pass -/

theorem settlePayment_voided {voidedAt : ℤ} (hv : p.voidedAt = some voidedAt) :
    settlePayment H clock R invoice actor fallback p =
      settleVoided H clock R invoice p voidedAt (needsCompensator R invoice p) actor fallback := by
  rw [needsCompensator_eq hv]
  simp only [settlePayment, hv]
  rfl

theorem settlePayment_standing (hv : p.voidedAt = none) :
    settlePayment H clock R invoice actor fallback p =
      match lateCutover R invoice p with
      | some c => settleLateEra H R invoice p c (allocated (lateEraAllocation R invoice c) p.id) actor fallback
      | none => if isOpening R invoice p then pure () else settleReceived H R invoice p actor fallback := by
  simp only [settlePayment, hv]
  rfl

/-- A payment that is posted as received, in these lines. -/
structure PostsReceived (R : Rows) (invoice : Invoice) (p : Payment) (lines : List PostingLine) : Prop where
  standing : p.voidedAt = none
  on_time : lateCutover R invoice p = none
  after_opening : isOpening R invoice p = false
  built : buildPaymentLines R p invoice = .ok lines
  nonempty : lines ≠ []

theorem settlePayment_received (h : PostsReceived R invoice p lines) :
    settlePayment H clock R invoice actor fallback p = (do
      let posted ← repostPayment H invoice p lines actor fallback
      let L ← get
      reverseAllBut (some posted) actor fallback (livePaymentEntries L p invoice.companyId)) := by
  rw [settlePayment_standing h.standing]
  simp only [h.on_time, h.after_opening, Bool.false_eq_true, if_false, settleReceived, h.built]
  funext L
  rw [bind_of_ok (raising_ok.mpr ⟨rfl, rfl⟩), if_pos h.nonempty]

theorem payment_roles (h : buildPaymentLines R p invoice = .ok lines) :
    ∀ line ∈ lines, ∃ role, line.role = some role ∧ line.accountId = none := by
  unfold buildPaymentLines at h
  split at h
  · cases h
    simp
  · split at h
    · cases h
    · cases hrole : resolvePaymentMethodRole _ (some p.method) with
      | error e =>
        rw [hrole] at h
        cases h
      | ok methodRole =>
        rw [hrole] at h
        cases h
        intro line hline
        simp only [List.mem_append, List.mem_ite_nil_left, List.mem_singleton] at hline
        rcases hline with ((rfl | ⟨-, rfl⟩) | ⟨-, rfl⟩) | ⟨-, rfl⟩ <;> exact ⟨_, rfl, rfl⟩

theorem RoleEvent.redate {day : ℤ} (h : RoleEvent H (paymentEvent invoice p day lines actor)) (day' : ℤ)
    (actor' : Option Text) : RoleEvent H (paymentEvent invoice p day' lines actor') := ⟨h.extra, h.valid, h.roles, h.named⟩

/-! ### What a repost returns -/

/-- The payment's split at a day. -/
abbrev received (invoice : Invoice) (p : Payment) (lines : List PostingLine) (day : ℤ) : PostingEvent :=
  paymentEvent invoice p day lines none

/-- Where a repost went: to its own date, or to the fallback day because that was refused. -/
inductive RepostedAt (H : ContentHash) (acct : Role → ℕ) (L : Ledger) (invoice : Invoice) (p : Payment)
    (lines : List PostingLine) (fallback : Option ℤ) : ℤ → Prop
  | natural (allowed : ¬ RefusedAt H acct L (received invoice p lines p.paymentDate)) :
      RepostedAt H acct L invoice p lines fallback p.paymentDate
  | moved {day : ℤ} (refused : RefusedAt H acct L (received invoice p lines p.paymentDate))
      (day_eq : fallback = some day) (ne : day ≠ p.paymentDate) : RepostedAt H acct L invoice p lines fallback day

theorem not_refused_of_post {event : PostingEvent} (hinv : JournalInv H L) (hseed : Seeded L event.companyId acct)
    (hextra : event.extraContent = []) (h : postForEvent H event false L = .ok e L') :
    ¬ RefusedAt H acct L event := by
  intro hrefused
  obtain ⟨d, hd, hle⟩ := hrefused.locked
  cases post_posted hinv hseed hextra h with
  | replayed mem posted company => exact hrefused.dead (LiveUnder.mk mem posted company).not_dead
  | inserted dead allowed => exact absurd (allowed d hd) (not_lt.mpr hle)

theorem refused_of_raised {event : PostingEvent} {err : LedgerError} (hinv : JournalInv H L)
    (hseed : Seeded L event.companyId acct) (hextra : event.extraContent = [])
    (h : postForEvent H event false L = .error err L') (hlocked : err.isPeriodLocked = true) :
    RefusedAt H acct L event ∧ AuditOnly L L' := by
  obtain ⟨haudit, -, hwhy⟩ := post_raised hinv hseed hextra h
  obtain ⟨hwrite, hlock⟩ := hwhy hlocked
  refine ⟨⟨by rw [hwrite]; simp, ?_⟩, haudit⟩
  by_contra hno
  refine hlock fun d hd => ?_
  by_contra hle
  exact hno ⟨d, hd, not_lt.mp hle⟩

/-- A repost that returns posted the split somewhere, over the journal as it was. -/
theorem repostPayment_ok (hinv : JournalInv H L) (hseed : Seeded L invoice.companyId acct)
    (hbuilt : buildPaymentLines R p invoice = .ok lines)
    (h : repostPayment H invoice p lines actor fallback L = .ok e L') :
    ∃ day, RepostedAt H acct L invoice p lines fallback day ∧
      RoleEvent H (received invoice p lines day) ∧
      postForEvent H (paymentEvent invoice p day lines actor) false L = .ok e L' := by
  unfold repostPayment withFallback at h
  cases hnatural : postForEvent H (paymentEvent invoice p p.paymentDate lines actor) false L with
  | ok e' L₁ =>
    rw [hnatural] at h
    cases h
    have hrole : RoleEvent H (paymentEvent invoice p p.paymentDate lines actor) :=
      RoleEvent.of_post hinv rfl (payment_roles hbuilt) hnatural
    exact ⟨_, .natural fun hrefused => not_refused_of_post hinv hseed rfl hnatural ⟨hrefused.dead, hrefused.locked⟩,
      hrole.redate _ _, hnatural⟩
  | error err L₁ =>
    rw [hnatural] at h
    cases err with
    | periodLocked lockDate effectiveAt =>
      cases fallback with
      | none => cases h
      | some day =>
        obtain ⟨hrefused, haudit⟩ := refused_of_raised hinv hseed rfl hnatural rfl
        have hinv₁ : JournalInv H L₁ := hinv.congr haudit.entries haudit.accounts haudit.nextId
        have hpost : postForEvent H (paymentEvent invoice p day lines actor) false L₁ = .ok e L' := h
        have hrole := RoleEvent.of_post hinv₁ rfl (payment_roles hbuilt) hpost
        have hsame : L₁ = L := by
          obtain ⟨d, hd⟩ := (hrole.redate p.paymentDate actor).refused hseed hrefused
          rw [hnatural] at hd
          cases hd
          rfl
        subst hsame
        refine ⟨day, .moved ⟨hrefused.dead, hrefused.locked⟩ rfl ?_, hrole.redate _ _, hpost⟩
        rintro rfl
        rw [hnatural] at hpost
        cases hpost
    | _ => cases h

/-! ### What a pass leaves -/

/-- The payment's share of the anchor at the cutover. -/
abbrev eraSettlement (R : Rows) (invoice : Invoice) (p : Payment) (cutover : ℤ) : PostingEvent :=
  ruleEvent invoice.companyId "payment".toList (str p.id) "era_settlement".toList cutover
    (eraSettlementLines invoice p (allocated (lateEraAllocation R invoice cutover) p.id)) none

/-- The compensator of a voided opening-era payment is posted, or there is nothing to compensate. -/
structure VoidPosted (R : Rows) (L : Ledger) (invoice : Invoice) (p : Payment) : Prop where
  mapped : ∃ settings methodRole, R.glSettings invoice.companyId = some settings ∧
    resolvePaymentMethodRole settings (some p.method) = .ok methodRole
  posted : p.amount = 0 ∨
    (liveEventEntry L "payment".toList (str p.id) "opening_payment_void".toList).isSome = true

/-- What a pass over `L₀` leaves of its payment in `L`, with the fallback day it was given. -/
inductive Left (H : ContentHash) (acct : Role → ℕ) (R : Rows) (invoice : Invoice) (p : Payment)
    (fallback : Option ℤ) (L₀ L : Ledger) : Prop
  | voided {voidedAt : ℤ} (hv : p.voidedAt = some voidedAt)
      (received : livePaymentEntries L p invoice.companyId = [])
      (era : liveEraSettlementEntries L p invoice.companyId = [])
      (compensated : needsCompensator R invoice p = true → VoidPosted R L invoice p)
  | dry {cutover : ℤ} (hv : p.voidedAt = none) (hlate : lateCutover R invoice p = some cutover)
      (dry : allocated (lateEraAllocation R invoice cutover) p.id ≤ 0)
      (era : liveEraSettlementEntries L p invoice.companyId = [])
  | settled {cutover : ℤ} {e : GlJournalEntry} (hv : p.voidedAt = none)
      (hlate : lateCutover R invoice p = some cutover)
      (share : ¬ allocated (lateEraAllocation R invoice cutover) p.id ≤ 0)
      (accepted : RoleEvent H (eraSettlement R invoice p cutover))
      (alone : Alone H acct L (eraSettlement R invoice p cutover) e)
  | opening (hv : p.voidedAt = none) (hlate : lateCutover R invoice p = none)
      (opening : isOpening R invoice p = true)
  | silent (hv : p.voidedAt = none) (hlate : lateCutover R invoice p = none) (after : isOpening R invoice p = false)
      (built : buildPaymentLines R p invoice = .ok [])
  | posted {lines : List PostingLine} {day : ℤ} {e : GlJournalEntry} (posts : PostsReceived R invoice p lines)
      (at' : RepostedAt H acct L₀ invoice p lines fallback day) (accepted : RoleEvent H (received invoice p lines day))
      (alone : Alone H acct L (received invoice p lines day) e)

section Pass
variable (hP : P "payment".toList (str p.id))
include hP

theorem openingPaymentVoid_left {voidedAt : ℤ} (hinv : JournalInv H L) (hseed : Seeded L invoice.companyId acct)
    (h : postOpeningPaymentVoid H clock R p invoice voidedAt actor L = .ok () L') :
    Advances H P L L' ∧ VoidPosted R L' invoice p ∧
      ∀ q, (∀ x, sepCons ':' "payment".toList (sepCons ':' (str p.id) (sepCons ':' "opening_payment_void".toList [])) <+:
        x.idempotencyKey → q x = false) → L'.entries.filter q = L.entries.filter q := by
  unfold postOpeningPaymentVoid at h
  cases hset : R.glSettings invoice.companyId with
  | none =>
    rw [hset] at h
    cases h
  | some settings =>
    cases hrole : resolvePaymentMethodRole settings (some p.method) with
    | error err =>
      simp only [hset, hrole] at h
      cases h
    | ok methodRole =>
      simp only [hset, hrole] at h
      have hmapped : ∃ settings methodRole, R.glSettings invoice.companyId = some settings ∧
        resolvePaymentMethodRole settings (some p.method) = .ok methodRole := ⟨settings, methodRole, hset, hrole⟩
      split_ifs at h with hzero hlive
      · cases h
        exact ⟨.refl hinv, ⟨hmapped, .inl hzero⟩, fun _ _ => rfl⟩
      · cases h
        exact ⟨.refl hinv, ⟨hmapped, .inr hlive⟩, fun _ _ => rfl⟩
      · rw [bind_ok] at h
        obtain ⟨e, M, hpost, hM⟩ := h
        cases hM
        have hadv := post_advances hinv hseed rfl hP hpost
        refine ⟨hadv, ⟨hmapped, .inr ?_⟩, fun q hq => query_post hinv hseed rfl hpost hq⟩
        exact (post_liveUnder hinv hseed rfl hpost).found (plainSource_payment p.id) hadv.inv

theorem settleLateEra_left {cutover : ℤ} (hinv : JournalInv H L) (hseed : Seeded L invoice.companyId acct)
    (hon : R.ledgerPostingEnabled invoice.companyId = true) (hv : p.voidedAt = none)
    (hlate : lateCutover R invoice p = some cutover)
    (h : settleLateEra H R invoice p cutover (allocated (lateEraAllocation R invoice cutover) p.id) actor fallback L =
      .ok () L') : Advances H P L L' ∧ Left H acct R invoice p fallback L₀ L' := by
  unfold settleLateEra postEraSettlement at h
  rw [hon] at h
  simp only [Bool.not_true, Bool.false_eq_true, false_or] at h
  by_cases hdry : allocated (lateEraAllocation R invoice cutover) p.id ≤ 0
  · rw [if_pos hdry, bind_of_ok (pure_apply _ _), bind_of_ok (get_apply L)] at h
    obtain ⟨hadv, hlike, -⟩ := reverseAllBut_advances (plainSource_payment p.id) hinv hP h
    refine ⟨hadv, .dry hv hlate hdry (hlike.trans ?_)⟩
    simp
  · rw [if_neg hdry, bind_ok] at h
    obtain ⟨posted, M, hposted, h⟩ := h
    rw [bind_ok] at hposted
    obtain ⟨e, N, hpost, hsome⟩ := hposted
    cases hsome
    rw [bind_of_ok (get_apply M)] at h
    obtain ⟨hadv, halone⟩ := settle_alone (plainSource_payment p.id) hinv hseed rfl hP hpost h
    have hroles : ∀ line ∈ eraSettlementLines invoice p (allocated (lateEraAllocation R invoice cutover) p.id),
        ∃ role, line.role = some role ∧ line.accountId = none := by
      intro line hline
      simp only [eraSettlementLines, List.mem_cons, List.not_mem_nil, or_false] at hline
      rcases hline with rfl | rfl <;> exact ⟨_, rfl, rfl⟩
    have hrole := RoleEvent.of_post hinv rfl hroles hpost
    exact ⟨hadv, .settled hv hlate hdry ⟨hrole.extra, hrole.valid, hrole.roles, hrole.named⟩
      ⟨⟨halone.live.filed, halone.live.posted, halone.live.company_eq⟩, halone.only⟩⟩

theorem settleVoided_left {voidedAt : ℤ} (hinv : JournalInv H L) (hseed : Seeded L invoice.companyId acct)
    (hv : p.voidedAt = some voidedAt)
    (h : settleVoided H clock R invoice p voidedAt (needsCompensator R invoice p) actor fallback L = .ok () L') :
    Advances H P L L' ∧ Left H acct R invoice p fallback L₀ L' := by
  have hs := plainSource_payment p.id
  unfold settleVoided at h
  rw [bind_of_ok (get_apply L), bind_ok] at h
  obtain ⟨⟨⟩, M, hM, h⟩ := h
  rw [bind_of_ok (get_apply M), bind_ok] at h
  obtain ⟨⟨⟩, N, hN, h⟩ := h
  obtain ⟨hadvM, hreceived, -⟩ := reverseAllBut_advances hs hinv hP hM
  obtain ⟨hadvN, hera, -, hother⟩ := reverseAllBut_advances hs hadvM.inv hP hN
  have hreceivedM : livePaymentEntries M p invoice.companyId = [] := hreceived.trans (by simp)
  have heraN : liveEraSettlementEntries N p invoice.companyId = [] := hera.trans (by simp)
  -- the two events differ in their first letter, so reversing the one leaves the query of the other
  have hreceivedN : livePaymentEntries N p invoice.companyId = [] := by
    refine (hother _ (likeQuery_live hs) fun x hx => ?_).trans hreceivedM
    rw [Bool.eq_false_iff]
    intro hq
    simp only [likeQuery, Bool.and_eq_true] at hq
    simp only [liveLike, List.mem_filter, Bool.and_eq_true] at hx
    exact absurd (eventHead_inj (like_eventPattern_head hs (by decide) hq.2)
      (like_eventPattern_head hs (by decide) hx.2.2)) (by decide)
  have hadv := hadvM.trans hadvN
  by_cases hcomp : needsCompensator R invoice p = true
  · rw [hcomp, if_pos rfl] at h
    obtain ⟨hadvL, hvoid, hblind⟩ := openingPaymentVoid_left hP hadv.inv (hadv.seeded hseed) h
    have hsame : ∀ (ev : Text) (c : Char), c ≠ '\\' ∧ c ≠ '%' ∧ c ≠ '_' → c ≠ 'o' →
        liveLike L' invoice.companyId "payment".toList (str p.id) (c :: ev) =
          liveLike N invoice.companyId "payment".toList (str p.id) (c :: ev) := by
      intro ev c hc hne
      refine hblind _ fun x hx => ?_
      rw [Bool.eq_false_iff]
      intro hq
      simp only [Bool.and_eq_true] at hq
      have hhead := @likeEscapedPrefix_head _ _ "pening_payment_void".toList _ 'o' ((likeEscapedPrefix_iff _ _).mpr hx)
      exact hne (eventHead_inj (like_eventPattern_head hs hc hq.2) hhead)
    exact ⟨hadv.trans hadvL, .voided hv ((hsame "eceived".toList 'r' (by decide) (by decide)).trans hreceivedN)
      ((hsame "ra_settlement".toList 'e' (by decide) (by decide)).trans heraN) fun _ => hvoid⟩
  · rw [if_neg hcomp] at h
    cases h
    exact ⟨hadv, .voided hv hreceivedN heraN fun hyes => absurd hyes hcomp⟩

theorem settlePayment_left (hinv : JournalInv H L) (hseed : Seeded L invoice.companyId acct)
    (hon : R.ledgerPostingEnabled invoice.companyId = true)
    (h : settlePayment H clock R invoice actor fallback p L = .ok () L') :
    Advances H P L L' ∧ Left H acct R invoice p fallback L L' := by
  cases hv : p.voidedAt with
  | some voidedAt =>
    rw [settlePayment_voided hv] at h
    exact settleVoided_left hP hinv hseed hv h
  | none =>
    cases hlate : lateCutover R invoice p with
    | some cutover =>
      rw [settlePayment_standing hv, hlate] at h
      exact settleLateEra_left hP hinv hseed hon hv hlate h
    | none =>
      by_cases hopen : isOpening R invoice p = true
      · rw [settlePayment_standing hv, hlate] at h
        simp only [hopen, if_true] at h
        cases h
        exact ⟨.refl hinv, .opening hv hlate hopen⟩
      · rw [Bool.not_eq_true] at hopen
        cases hbuilt : buildPaymentLines R p invoice with
        | error err =>
          rw [settlePayment_standing hv, hlate] at h
          simp only [hopen, Bool.false_eq_true, if_false, settleReceived, hbuilt] at h
          cases h
        | ok lines =>
          by_cases hnil : lines = []
          · subst hnil
            rw [settlePayment_standing hv, hlate] at h
            simp only [hopen, Bool.false_eq_true, if_false, settleReceived, hbuilt] at h
            cases h
            exact ⟨.refl hinv, .silent hv hlate hopen hbuilt⟩
          · have hposts : PostsReceived R invoice p lines := ⟨hv, hlate, hopen, hbuilt, hnil⟩
            rw [settlePayment_received hposts, bind_ok] at h
            obtain ⟨e, M, hrepost, h⟩ := h
            rw [bind_of_ok (get_apply M)] at h
            obtain ⟨day, hat, haccepted, hpost⟩ := repostPayment_ok hinv hseed hbuilt hrepost
            obtain ⟨hadv, halone⟩ := settle_alone (plainSource_payment p.id) hinv hseed rfl hP hpost h
            exact ⟨hadv, .posted hposts hat haccepted
              ⟨⟨halone.live.filed, halone.live.posted, halone.live.company_eq⟩, halone.only⟩⟩

end Pass

/-! ### The next pass -/

/-- The lock and the rows of the source decide a refusal. -/
theorem RefusedAt.congr {event : PostingEvent} (hs : PlainSource event.sourceType event.sourceId)
    (hL : JournalInv H L) (hM : JournalInv H M) (hlock : M.latestLock event.companyId = L.latestLock event.companyId)
    (h : M.sourced (oneSource event.sourceType event.sourceId) =
      L.sourced (oneSource event.sourceType event.sourceId)) :
    RefusedAt H acct M event ↔ RefusedAt H acct L event := by
  have hwrite : postWrite H acct M event = postWrite H acct L event := postWrite_congr hs hL hM h
  constructor
  · rintro ⟨hdead, hlocked⟩
    exact ⟨hwrite ▸ hdead, hlock ▸ hlocked⟩
  · rintro ⟨hdead, hlocked⟩
    exact ⟨hwrite.symm ▸ hdead, hlock.symm ▸ hlocked⟩

theorem LiveUnder.mem_livePayment {day : ℤ} (hinv : JournalInv H L)
    (h : LiveUnder H acct L (received invoice p lines day) e) :
    e ∈ livePaymentEntries L p invoice.companyId := by
  have hs := plainSource_payment p.id
  obtain ⟨hst, hsid, -⟩ := source_of_prefixed hs hinv h.filed
  obtain ⟨t, ht⟩ := prefixed_event h.filed
  have hkey : e.idempotencyKey = sepCons ':' "payment".toList (sepCons ':' (str p.id)
      (sepCons ':' "received".toList t)) := by
    rw [← ht]
    simp [sepCons, received, paymentEvent, ruleEvent]
  have hlike : like (eventPattern "payment".toList (str p.id) "received".toList) e.idempotencyKey = true := by
    rw [hkey, like_eventPattern hs, like_event_iff (by decide) (by decide) (by decide)]
  simp only [livePaymentEntries, liveLike, List.mem_filter, Bool.and_eq_true, beq_iff_eq, hasSource_iff, isPosted_iff]
  exact ⟨(mem_prefixed.mp h.filed).1, ⟨⟨h.company_eq, hst, hsid⟩, h.posted⟩, hlike⟩

/-- Beside the one live entry no other day's content is live. -/
theorem Alone.day_eq {x : GlJournalEntry} {day day' : ℤ} (hfree : H.CollisionFree) (hinv : JournalInv H L)
    (halone : Alone H acct L (received invoice p lines day) e)
    (h : LiveUnder H acct L (received invoice p lines day') x) : day' = day := by
  have hid := halone.only x (h.mem_livePayment hinv)
  have hsame := hinv.eq_of_id (mem_prefixed.mp h.filed).1 (mem_prefixed.mp halone.live.filed).1 hid
  subst hsame
  exact halone.live.same_content hfree h rfl rfl rfl

/-- An entry moved off a locked day is refused there again. -/
theorem Alone.refused_again {day : ℤ} (hfree : H.CollisionFree) (hinv : JournalInv H L)
    (halone : Alone H acct L (received invoice p lines day) e) (hne : day ≠ p.paymentDate)
    (hlocked : ∃ d, L.latestLock invoice.companyId = some d ∧ p.paymentDate ≤ d) :
    RefusedAt H acct L (received invoice p lines p.paymentDate) := by
  refine ⟨fun hlive => hne ?_, hlocked⟩
  obtain ⟨x, hx⟩ := exists_liveUnder hlive
  exact (halone.day_eq hfree hinv hx).symm

/-- One of the payments posted as received is refused at its own date. -/
def OwnDateRefused (H : ContentHash) (acct : Role → ℕ) (R : Rows) (L : Ledger) (invoice : Invoice) (p : Payment) :
    Prop :=
  ∃ lines, PostsReceived R invoice p lines ∧ RefusedAt H acct L (received invoice p lines p.paymentDate)

theorem settleVoided_again {voidedAt : ℤ} (hv : p.voidedAt = some voidedAt)
    (hreceived : livePaymentEntries L p invoice.companyId = [])
    (hera : liveEraSettlementEntries L p invoice.companyId = [])
    (hvoid : needsCompensator R invoice p = true → VoidPosted R L invoice p) :
    settlePayment H clock R invoice actor second p L = .ok () L := by
  rw [settlePayment_voided hv]
  unfold settleVoided
  rw [bind_of_ok (get_apply L), hreceived, bind_of_ok (show reverseAllBut none actor second [] L = .ok () L from rfl),
    bind_of_ok (get_apply L), hera, bind_of_ok (show reverseAllBut none actor second [] L = .ok () L from rfl)]
  by_cases hcomp : needsCompensator R invoice p = true
  · obtain ⟨⟨settings, methodRole, hset, hrole⟩, hposted⟩ := hvoid hcomp
    rw [if_pos hcomp]
    unfold postOpeningPaymentVoid
    simp only [hset, hrole]
    rcases hposted with hzero | hlive
    · rw [if_pos hzero]
    · by_cases hzero : p.amount = 0
      · rw [if_pos hzero]
      · rw [if_neg hzero, if_pos hlive]
  · rw [if_neg hcomp]
    rfl

theorem settleEra_again {cutover : ℤ} (hinv : JournalInv H L) (hseed : Seeded L invoice.companyId acct)
    (hon : R.ledgerPostingEnabled invoice.companyId = true) (hv : p.voidedAt = none)
    (hlate : lateCutover R invoice p = some cutover)
    (hshare : ¬ allocated (lateEraAllocation R invoice cutover) p.id ≤ 0)
    (haccepted : RoleEvent H (eraSettlement R invoice p cutover))
    (halone : Alone H acct L (eraSettlement R invoice p cutover) e) :
    settlePayment H clock R invoice actor second p L = .ok () L := by
  have hpost : postForEvent H (ruleEvent invoice.companyId "payment".toList (str p.id) "era_settlement".toList cutover
      (eraSettlementLines invoice p (allocated (lateEraAllocation R invoice cutover) p.id)) actor) false L = .ok e L :=
    RoleEvent.replays ⟨haccepted.extra, haccepted.valid, haccepted.roles, haccepted.named⟩ hinv hseed
      ⟨halone.live.filed, halone.live.posted, halone.live.company_eq⟩
  have hposted : postEraSettlement H R p invoice cutover (allocated (lateEraAllocation R invoice cutover) p.id)
      actor L = .ok (some e) L := by
    unfold postEraSettlement
    simp only [hon, Bool.not_true, Bool.false_eq_true, false_or, if_neg hshare]
    rw [bind_of_ok hpost]
    rfl
  rw [settlePayment_standing hv, hlate]
  simp only [settleLateEra]
  rw [bind_of_ok hposted, bind_of_ok (get_apply L)]
  exact halone.nothing_stale

theorem settlePosted_again {day : ℤ} (hinv : JournalInv H L) (hseed : Seeded L invoice.companyId acct)
    (hposts : PostsReceived R invoice p lines) (hat : RepostedAt H acct L invoice p lines second day)
    (haccepted : RoleEvent H (received invoice p lines day))
    (halone : Alone H acct L (received invoice p lines day) e) :
    settlePayment H clock R invoice actor second p L = .ok () L := by
  have hlive : LiveUnder H acct L (paymentEvent invoice p day lines actor) e :=
    ⟨halone.live.filed, halone.live.posted, halone.live.company_eq⟩
  have hday := (haccepted.redate day actor).replays hinv hseed hlive
  have hrepost : repostPayment H invoice p lines actor second L = .ok e L := by
    unfold repostPayment withFallback
    cases hat with
    | natural allowed => rw [hday]
    | moved refused day_eq ne =>
      obtain ⟨d, hd⟩ := (haccepted.redate p.paymentDate actor).refused hseed
        (show RefusedAt H acct L (paymentEvent invoice p p.paymentDate lines actor) from
          ⟨refused.dead, refused.locked⟩)
      rw [hd, day_eq]
      exact hday
  rw [settlePayment_received hposts, bind_of_ok hrepost, bind_of_ok (get_apply L)]
  exact halone.nothing_stale

/-- With the same fallback day, or with none of its own dates refused, a pass finds its work done. -/
theorem Left.again (hinv : JournalInv H L) (hfree : H.CollisionFree) (hseed : Seeded L invoice.companyId acct)
    (hon : R.ledgerPostingEnabled invoice.companyId = true)
    (hlock : L.latestLock invoice.companyId = L₀.latestLock invoice.companyId)
    (h : Left H acct R invoice p first L₀ L)
    (hsame : second = first ∨ ¬ OwnDateRefused H acct R L₀ invoice p) :
    settlePayment H clock R invoice actor second p L = .ok () L := by
  cases h with
  | voided hv received era compensated => exact settleVoided_again hv received era compensated
  | @dry cutover hv hlate dry era =>
    rw [settlePayment_standing hv, hlate]
    simp only [settleLateEra, postEraSettlement, if_pos (Or.inr dry)]
    rw [bind_of_ok (pure_apply none L), bind_of_ok (get_apply L), era]
    rfl
  | @settled cutover e hv hlate share accepted alone =>
    exact settleEra_again hinv hseed hon hv hlate share accepted alone
  | opening hv hlate opening =>
    rw [settlePayment_standing hv, hlate]
    simp only [opening, if_true]
    rfl
  | silent hv hlate after built =>
    rw [settlePayment_standing hv, hlate]
    simp only [after, Bool.false_eq_true, if_false, settleReceived, built]
    rfl
  | posted posts at' accepted alone =>
    refine settlePosted_again hinv hseed posts ?_ accepted alone
    cases at' with
    | natural allowed => exact .natural fun hrefused => hrefused.dead alone.live.not_dead
    | moved refused day_eq ne =>
      refine .moved (alone.refused_again hfree hinv ne (hlock ▸ refused.locked)) ?_ ne
      rcases hsame with rfl | hnot
      · exact day_eq
      · exact absurd ⟨_, posts, refused⟩ hnot

/-- A pass that leaves a moved entry where it is was given the same fallback day. -/
theorem Left.only (hinv : JournalInv H L) (hfree : H.CollisionFree) (hseed : Seeded L invoice.companyId acct)
    (hlock : L.latestLock invoice.companyId = L₀.latestLock invoice.companyId)
    (h : Left H acct R invoice p first L₀ L) (hown : OwnDateRefused H acct R L₀ invoice p)
    (hpass : settlePayment H clock R invoice actor second p L = .ok () N)
    (hlen : N.entries.length ≤ L.entries.length) : second = first := by
  obtain ⟨lines, posts, hrefused⟩ := hown
  cases h with
  | voided hv => rw [posts.standing] at hv; cases hv
  | dry hv hlate => rw [posts.on_time] at hlate; cases hlate
  | settled hv hlate => rw [posts.on_time] at hlate; cases hlate
  | opening hv hlate opening => rw [posts.after_opening] at opening; cases opening
  | silent hv hlate after built =>
    rw [posts.built] at built
    exact absurd (Except.ok.inj built) posts.nonempty
  | @posted lines' day e posts' at' accepted alone =>
    obtain rfl : lines' = lines := Except.ok.inj (posts'.built.symm.trans posts.built)
    cases at' with
    | natural allowed => exact absurd hrefused allowed
    | moved refused day_eq ne =>
      have hagain := alone.refused_again hfree hinv ne (hlock ▸ refused.locked)
      rw [settlePayment_received posts, bind_ok] at hpass
      obtain ⟨e', M, hrepost, hrest⟩ := hpass
      rw [bind_of_ok (get_apply M)] at hrest
      obtain ⟨day', hat, -, hpost⟩ := repostPayment_ok hinv hseed posts.built hrepost
      cases hat with
      | natural allowed => exact absurd hagain allowed
      | moved _ day_eq' _ =>
        have hadv := post_advances (P := fun _ _ => True) hinv hseed rfl trivial hpost
        obtain ⟨hadv', -⟩ := reverseAllBut_advances (P := fun _ _ => True) (plainSource_payment p.id) hadv.inv
          trivial hrest
        cases post_posted hinv hseed rfl hpost with
        | replayed mem posted company =>
          rw [day_eq, day_eq', alone.day_eq hfree hinv ⟨mem, posted, company⟩]
        | inserted dead allowed =>
          have hgrown := hadv'.grown
          simp only [Ledger.insertRow, List.length_append, List.length_singleton] at hgrown
          omega

/-! ### A run, and the next -/

/-- The sources of these payments. -/
def paymentSources (ps : List Payment) (st sid : Text) : Prop := st = "payment".toList ∧ ∃ q ∈ ps, sid = str q.id

/-- Passes over other payments leave the rows of this one. -/
theorem Within.payment_rows {ps : List Payment} (h : Within H (paymentSources ps) L M) (hp : p.id ∉ ps.map (·.id)) :
    M.sourced (oneSource "payment".toList (str p.id)) = L.sourced (oneSource "payment".toList (str p.id)) := by
  refine h.others _ ?_
  rintro st sid ⟨rfl, q, hq, rfl⟩
  simp only [oneSource, Bool.and_eq_false_iff, beq_eq_false_iff_ne]
  right
  intro heq
  exact hp (List.mem_map.mpr ⟨q, hq, str_inj.mp heq⟩)

theorem RepostedAt.congr {day : ℤ} {M₀ : Ledger} (hL : JournalInv H L₀) (hM : JournalInv H M₀)
    (hlock : M₀.latestLock invoice.companyId = L₀.latestLock invoice.companyId)
    (h : M₀.sourced (oneSource "payment".toList (str p.id)) = L₀.sourced (oneSource "payment".toList (str p.id)))
    (hat : RepostedAt H acct L₀ invoice p lines fallback day) :
    RepostedAt H acct M₀ invoice p lines fallback day := by
  have hiff : RefusedAt H acct M₀ (received invoice p lines p.paymentDate) ↔
      RefusedAt H acct L₀ (received invoice p lines p.paymentDate) :=
    RefusedAt.congr (plainSource_payment p.id) hL hM hlock h
  cases hat with
  | natural allowed => exact .natural fun hrefused => allowed (hiff.mp hrefused)
  | moved refused day_eq ne => exact .moved (hiff.mpr refused) day_eq ne

/-- What a pass left stays while other payments are resettled. -/
theorem Left.congr {M₀ : Ledger} (hL₀ : JournalInv H L₀) (hM₀ : JournalInv H M₀) (hL : JournalInv H L)
    (hM : JournalInv H M) (hlock : M₀.latestLock invoice.companyId = L₀.latestLock invoice.companyId)
    (h₀ : M₀.sourced (oneSource "payment".toList (str p.id)) = L₀.sourced (oneSource "payment".toList (str p.id)))
    (h : M.sourced (oneSource "payment".toList (str p.id)) = L.sourced (oneSource "payment".toList (str p.id)))
    (hleft : Left H acct R invoice p fallback L₀ L) : Left H acct R invoice p fallback M₀ M := by
  have hs := plainSource_payment p.id
  cases hleft with
  | voided hv received era compensated =>
    refine .voided hv ((liveLike_congr h).trans received) ((liveLike_congr h).trans era) fun hcomp => ?_
    obtain ⟨hmapped, hposted⟩ := compensated hcomp
    exact ⟨hmapped, by rw [liveEventEntry_congr h]; exact hposted⟩
  | dry hv hlate dry era => exact .dry hv hlate dry ((liveLike_congr h).trans era)
  | settled hv hlate share accepted alone => exact .settled hv hlate share accepted (alone.congr hs hL hM h)
  | opening hv hlate opening => exact .opening hv hlate opening
  | silent hv hlate after built => exact .silent hv hlate after built
  | posted posts at' accepted alone =>
    exact .posted posts (at'.congr hL₀ hM₀ hlock h₀) accepted (alone.congr hs hL hM h)

/-- After a run each payment is left as its own pass left it. -/
theorem each_left (hon : R.ledgerPostingEnabled invoice.companyId = true) {ps : List Payment}
    (hinv : JournalInv H L) (hseed : Seeded L invoice.companyId acct) (hnd : (ps.map (·.id)).Nodup)
    (h : each (settlePayment H clock R invoice actor fallback) ps L = .ok () L') :
    Advances H (paymentSources ps) L L' ∧ ∀ p ∈ ps, Left H acct R invoice p fallback L L' := by
  induction ps generalizing L with
  | nil =>
    cases h
    exact ⟨.refl hinv, by simp⟩
  | cons p ps ih =>
    rw [List.map_cons, List.nodup_cons] at hnd
    rw [each, bind_ok] at h
    obtain ⟨⟨⟩, M, hone, hrest⟩ := h
    obtain ⟨hadv, hleft⟩ := settlePayment_left (P := paymentSources [p]) ⟨rfl, p, by simp, rfl⟩ hinv hseed hon hone
    obtain ⟨hadv', hlefts⟩ := ih hadv.inv (hadv.seeded hseed) hnd.2 hrest
    refine ⟨(hadv.mono ?_).trans (hadv'.mono ?_), fun q hq => ?_⟩
    · rintro st sid ⟨rfl, r, hr, rfl⟩
      exact ⟨rfl, r, by rw [List.mem_singleton.mp hr]; exact List.mem_cons_self, rfl⟩
    · rintro st sid ⟨rfl, r, hr, rfl⟩
      exact ⟨rfl, r, List.mem_cons_of_mem _ hr, rfl⟩
    · rcases List.mem_cons.mp hq with rfl | hq
      · exact hleft.congr hinv hinv hadv.inv hadv'.inv rfl rfl (hadv'.within.payment_rows hnd.1)
      · have hother : q.id ∉ [p].map (·.id) := by
          rw [List.map_singleton, List.mem_singleton]
          intro hid
          exact hnd.1 (hid ▸ List.mem_map_of_mem hq)
        exact (hlefts q hq).congr hadv.inv hinv hadv'.inv hadv'.inv
          (hadv.within.latestLock _).symm (hadv.within.payment_rows hother).symm rfl

/-- A second run finds nothing to do exactly when it is given the first one's fallback day, or the first one needed
    none: no payment it posts as received was refused at its own date. -/
theorem resettle_again_iff (hfree : H.CollisionFree) (hinv : JournalInv H L) (hseed : Seeded L invoice.companyId acct)
    (hnd : (R.payments.map (·.id)).Nodup) (actor' : Option Text) (second : Option ℤ)
    (hfirst : resettleInvoicePayments H clock R invoice actor first L = .ok () L') :
    resettleInvoicePayments H clock R invoice actor' second L' = .ok () L' ↔
      R.ledgerPostingEnabled invoice.companyId = false ∨ second = first ∨
        ∀ p ∈ R.paymentsOf invoice, ¬ OwnDateRefused H acct R L invoice p := by
  unfold resettleInvoicePayments at hfirst ⊢
  cases hon : R.ledgerPostingEnabled invoice.companyId with
  | false =>
    rw [Bool.not_false, if_pos rfl]
    exact ⟨fun _ => .inl rfl, fun _ => rfl⟩
  | true =>
    rw [hon, Bool.not_true, if_neg Bool.false_ne_true] at hfirst
    rw [Bool.not_true, if_neg Bool.false_ne_true]
    have hids : ((R.paymentsOf invoice).map (·.id)).Nodup := hnd.sublist (List.filter_sublist.map _)
    obtain ⟨hadv, hlefts⟩ := each_left hon hinv hseed hids hfirst
    have hseed' := hadv.seeded hseed
    constructor
    · intro hsecond
      right
      by_contra hno
      rw [not_or] at hno
      obtain ⟨hne, hsome⟩ := hno
      push Not at hsome
      obtain ⟨p, hp, hown⟩ := hsome
      obtain ⟨as, bs, hsplit⟩ := List.append_of_mem hp
      rw [hsplit, List.map_append, List.map_cons, List.nodup_append] at hids
      obtain ⟨hidsA, hidsB, hdisj⟩ := hids
      rw [List.nodup_cons] at hidsB
      rw [hsplit] at hsecond
      obtain ⟨M, hM, hrest⟩ := each_append_ok.mp hsecond
      rw [each, bind_ok] at hrest
      obtain ⟨⟨⟩, N, hN, hrest⟩ := hrest
      obtain ⟨hadvA, -⟩ := each_left hon hadv.inv hseed' hidsA hM
      obtain ⟨hadvP, -⟩ := settlePayment_left (P := paymentSources [p]) ⟨rfl, p, by simp, rfl⟩ hadvA.inv
        (hadvA.seeded hseed') hon hN
      obtain ⟨hadvB, -⟩ := each_left hon hadvP.inv (hadvP.seeded (hadvA.seeded hseed')) hidsB.2 hrest
      have hrows := hadvA.within.payment_rows (p := p) fun hmem => hdisj _ hmem _ List.mem_cons_self rfl
      have hleft : Left H acct R invoice p first L M :=
        (hlefts p hp).congr hinv hinv hadv.inv hadvA.inv rfl rfl hrows
      have hlock : M.latestLock invoice.companyId = L.latestLock invoice.companyId :=
        (hadvA.within.latestLock _).trans (hadv.within.latestLock _)
      have hlen : N.entries.length ≤ M.entries.length := hadvB.grown.trans hadvA.grown
      exact hne (hleft.only hadvA.inv hfree (hadvA.seeded hseed') hlock hown hN hlen)
    · intro hcond
      refine each_unchanged fun p hp => ?_
      refine (hlefts p hp).again hadv.inv hfree hseed' hon (hadv.within.latestLock _) ?_
      rcases hcond with hoff | hsame | hnone
      · cases hoff
      · exact .inl hsame
      · exact .inr (hnone p hp)

/-- A payment of day 110, recorded when the month through day 120 is closed. -/
def closedMonthRows : Rows :=
  { eraRows with
    invoices := [datedInvoice 110]
    payments := [⟨2, 1, 10000, 0, "cash".toList, 110, none, none, 125 * DAY⟩] }

/-- Resettled at the open day 125. -/
def movedRun : LedgerM Unit :=
  resettleInvoicePayments plainHash utcClock closedMonthRows (datedInvoice 110) none (some 125)

theorem closedLedger_inv : JournalInv plainHash closedLedger :=
  .of_empty rfl ⟨by decide +kernel, by decide +kernel⟩

theorem closedLedger_seeded : Seeded closedLedger (datedInvoice 110).companyId seededAcct :=
  seeded_seededAcct.congr rfl

theorem resettle_again_iff_sameDay :
    resettleInvoicePayments plainHash utcClock closedMonthRows (datedInvoice 110) none (some 125)
      (after movedRun closedLedger) = .ok () (after movedRun closedLedger) :=
  (resettle_again_iff plainHash_collisionFree closedLedger_inv closedLedger_seeded (by decide) none (some 125)
    (returns_ok (by decide +kernel) : movedRun closedLedger = .ok () (after movedRun closedLedger))).mpr (.inr (.inl rfl))

/-- Once the payment is posted at day 125, a run without a fallback day raises, and one at day 130 posts it again. -/
theorem resettle_at_another_day :
    ¬ ∀ (H : ContentHash) (clock : ShopClock) (R : Rows) (acct : Role → ℕ) (L L' : Ledger) (invoice : Invoice)
      (actor : Option Text) (first second : Option ℤ),
      H.CollisionFree → JournalInv H L → Seeded L invoice.companyId acct → (R.payments.map (·.id)).Nodup →
      resettleInvoicePayments H clock R invoice actor first L = .ok () L' →
        resettleInvoicePayments H clock R invoice actor second L' = .ok () L' := by
  intro h
  have hfirst : movedRun closedLedger = .ok () (after movedRun closedLedger) := returns_ok (by decide +kernel)
  have hsame := h plainHash utcClock closedMonthRows seededAcct closedLedger _ (datedInvoice 110) none (some 125)
    (some 130) plainHash_collisionFree closedLedger_inv closedLedger_seeded (by decide) hfirst
  have hentries : (after (resettleInvoicePayments plainHash utcClock closedMonthRows (datedInvoice 110) none (some 130))
      (after movedRun closedLedger)).entries.length = 3 := by decide +kernel
  rw [after_ok hsame] at hentries
  exact absurd hentries (by decide +kernel)

end Gdx
