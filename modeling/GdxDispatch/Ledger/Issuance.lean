import GdxDispatch.Ledger.Settlement

/-! What an issued invoice has on the books: its current line set, posted once.

    A repost posts the current lines and reverses the entry that was live before, so whatever the
    lines and the date were, one posting stands afterwards. Only the day may lag: nothing reposts an
    invoice when its sent stamp moves. -/

namespace Gdx
open Lib

variable {H : ContentHash} {S : Text → Text → Prop} {L L' : Ledger} {acct : Role → ℕ} {R : Rows}
  {actor : Option Text} {invoice : Invoice}

/-- A P1 line set, as a set of postings. -/
def issuedBook (acct : Role → ℕ) (invoice : Invoice) (day : ℤ) (lines : List PostingLine) : Finset Posting :=
  if lines = [] then ∅
  else {(ruleEvent invoice.companyId "invoice".toList (str invoice.id) "issued".toList day lines none).posting acct}

/-- One P1 at most stands on the invoice's source, and nothing else. -/
structure OneIssuance (invoice : Invoice) (B : Finset Posting) : Prop where
  company : ∀ q ∈ B, q.companyId = invoice.companyId
  event : ∀ q ∈ B, q.event = "issued".toList
  single : ∀ q ∈ B, ∀ q' ∈ B, q = q'

theorem OneIssuance.empty (invoice : Invoice) : OneIssuance invoice ∅ := ⟨by simp, by simp, by simp⟩

theorem oneIssuance_issuedBook (acct : Role → ℕ) (invoice : Invoice) (day : ℤ) (lines : List PostingLine) :
    OneIssuance invoice (issuedBook acct invoice day lines) := by
  unfold issuedBook
  split_ifs
  · exact .empty invoice
  · refine ⟨?_, ?_, ?_⟩
    · intro q hq; rw [Finset.mem_singleton.mp hq]; rfl
    · intro q hq; rw [Finset.mem_singleton.mp hq]; rfl
    · intro q hq q' hq'; rw [Finset.mem_singleton.mp hq, Finset.mem_singleton.mp hq']

theorem mem_liveIssuance (ht : Tracked H S L) (hS : S "invoice".toList (str invoice.id)) {e : GlJournalEntry} :
    e ∈ liveLike L invoice.companyId "invoice".toList (str invoice.id) "issued".toList ↔
      StandsFor L invoice.companyId "invoice".toList (str invoice.id) "issued".toList e :=
  ht.mem_liveLike_plain (plainSource_invoice invoice.id) hS (by decide) (by decide)

/-- The live issuance the query finds is the posting that stands, if one does. -/
theorem liveIssuanceEntry_spec (ht : Tracked H S L) (hS : S "invoice".toList (str invoice.id))
    (hone : OneIssuance invoice (L.liveOf "invoice".toList (str invoice.id))) :
    match liveIssuanceEntry L invoice with
    | none => L.liveOf "invoice".toList (str invoice.id) = ∅
    | some e => StandsFor L invoice.companyId "invoice".toList (str invoice.id) "issued".toList e ∧
        L.liveOf "invoice".toList (str invoice.id) = {e.posting} := by
  cases hlive : liveIssuanceEntry L invoice with
  | none =>
    have hnil := List.head?_eq_none_iff.mp hlive
    rw [Finset.eq_empty_iff_forall_notMem]
    intro q hq
    obtain ⟨hl, hst, hsid⟩ := mem_liveOf.mp hq
    obtain ⟨e, he, hp, hr, rfl⟩ := mem_live.mp hl
    have hin := (mem_liveIssuance ht hS).mpr ⟨⟨he, hp, hr⟩, hone.company _ hq, hst, hsid, hone.event _ hq⟩
    rw [hnil] at hin
    cases hin
  | some e =>
    have hfor := (mem_liveIssuance ht hS).mp (List.mem_of_head? hlive)
    have hmem : e.posting ∈ L.liveOf "invoice".toList (str invoice.id) :=
      mem_liveOf.mpr ⟨hfor.stands.mem_live, hfor.type_eq, hfor.id_eq⟩
    refine ⟨hfor, ?_⟩
    ext q
    rw [Finset.mem_singleton]
    constructor
    · intro hq; exact hone.single q hq _ hmem
    · rintro rfl; exact hmem

/-- A posting leaves the entries that stood. -/
theorem Stands.post {event : PostingEvent} {e x : GlJournalEntry} (ht : Tracked H S L)
    (hseed : Seeded L event.companyId acct) (hx : Stands L x) (h : postForEvent H event false L = .ok e L') :
    Stands L' x := by
  obtain ⟨M, rs, -, hres, -, hout⟩ := postForEvent_ok ht.inv h
  obtain ⟨rfl, -⟩ := resolveLines_seeded hseed hres
  cases hout with
  | replayed => exact hx
  | inserted checked =>
    obtain ⟨-, -, -, -, hlock⟩ := checkPeriodLock_ok checked
    obtain ⟨rfl, -⟩ := hlock rfl
    exact ⟨List.mem_append_left _ hx.mem, hx.posted, hx.not_reversal⟩

/-- Post the new content, reverse the entry that was live: the new content stands alone. -/
theorem repostOver_updates {event : PostingEvent} {e : GlJournalEntry} (hfree : H.CollisionFree)
    (ht : Tracked H S L) (hseed : Seeded L event.companyId acct) (hextra : event.extraContent = [])
    (hS : S event.sourceType event.sourceId) (he : Stands L e) (hst : e.sourceType = event.sourceType)
    (hsid : e.sourceId = event.sourceId)
    (hbook : L.liveOf event.sourceType event.sourceId = {e.posting})
    (h : repostOver H event e actor L = .ok () L') :
    Updates H S L L' event.sourceType event.sourceId {event.posting acct} := by
  unfold repostOver at h
  rw [bind_ok] at h
  obtain ⟨posted, M, hpost, h⟩ := h
  obtain ⟨hup, hstands, hposting⟩ := post_updates hfree ht hseed hextra hS hpost
  have heM : Stands M e := he.post ht hseed hpost
  have heS : S e.sourceType e.sourceId := by rw [hst, hsid]; exact hS
  rw [hbook] at hup
  by_cases hid : posted.id = e.id
  · rw [if_neg (not_not_intro hid)] at h
    cases h
    refine hup.of_eq ?_
    rw [← hposting, hup.tracked.inv.eq_of_id hstands.mem heM.mem hid]
    exact Finset.insert_eq_of_mem (Finset.mem_singleton_self _)
  · rw [if_pos hid, bind_ok] at h
    obtain ⟨r, N, hrev, h⟩ := h
    cases h
    have hup' := reverse_updates hup.tracked heM heS hrev
    rw [hst, hsid, hup.here] at hup'
    refine (hup.trans hup').of_eq ?_
    -- two entries with one posting would be one entry
    have hne : event.posting acct ≠ e.posting := fun heq => hid <| congrArg GlJournalEntry.id <|
      (hup.tracked.eq_of_posting heM.mem hstands.mem heS heM.posted hstands.posted heM.not_reversal
        hstands.not_reversal (heq.symm.trans hposting.symm)).symm
    rw [Finset.erase_insert_of_ne hne, Finset.erase_singleton]
    rfl

theorem reverseLive_updates {live : Option GlJournalEntry} {st sid : Text} (ht : Tracked H S L) (hS : S st sid)
    (hlive : match live with
      | none => L.liveOf st sid = ∅
      | some e => Stands L e ∧ e.sourceType = st ∧ e.sourceId = sid ∧ L.liveOf st sid = {e.posting})
    (h : reverseLive live actor L = .ok () L') : Updates H S L L' st sid ∅ := by
  cases live with
  | none =>
    cases h
    exact (Updates.refl ht st sid).of_eq hlive
  | some e =>
    obtain ⟨hstands, rfl, rfl, hbook⟩ := hlive
    unfold reverseLive at h
    rw [bind_ok] at h
    obtain ⟨r, N, hrev, h⟩ := h
    cases h
    refine (reverse_updates ht hstands hS hrev).of_eq ?_
    rw [hbook, Finset.erase_singleton]

/-- Void: nothing of the issuance stands. -/
theorem reverseInvoiceIssuance_updates (ht : Tracked H S L) (hS : S "invoice".toList (str invoice.id))
    (hone : OneIssuance invoice (L.liveOf "invoice".toList (str invoice.id)))
    (h : reverseInvoiceIssuance invoice actor L = .ok () L') :
    Updates H S L L' "invoice".toList (str invoice.id) ∅ := by
  refine reverseLive_updates ht hS ?_ h
  have hspec := liveIssuanceEntry_spec ht hS hone
  cases hlive : liveIssuanceEntry L invoice with
  | none => simpa only [hlive] using hspec
  | some e =>
    simp only [hlive] at hspec
    exact ⟨hspec.1.stands, hspec.1.type_eq, hspec.1.id_eq, hspec.2⟩

/-- P1 on a source that holds nothing. -/
theorem postInvoiceIssuance_updates (hfree : H.CollisionFree) (ht : Tracked H S L)
    (hseed : Seeded L invoice.companyId acct) (hS : S "invoice".toList (str invoice.id))
    (hera : preCutoverEra R invoice = false) (hnone : L.liveOf "invoice".toList (str invoice.id) = ∅)
    (h : postInvoiceIssuance H R invoice actor L = .ok () L') :
    ∃ lines, buildIssuanceLines R L invoice = .ok lines ∧
      Updates H S L L' "invoice".toList (str invoice.id) (issuedBook acct invoice invoice.effectiveAt lines) := by
  unfold postInvoiceIssuance at h
  rw [if_neg (by rw [hera]; exact Bool.false_ne_true)] at h
  cases hb : buildIssuanceLines R L invoice with
  | error e => simp only [hb] at h; cases h
  | ok lines =>
    refine ⟨lines, rfl, ?_⟩
    simp only [hb] at h
    cases lines with
    | nil =>
      cases h
      exact (Updates.refl ht _ _).of_eq hnone
    | cons l ls =>
      simp only at h
      rw [bind_ok] at h
      obtain ⟨e, M, hpost, h⟩ := h
      cases h
      refine (post_updates hfree ht hseed rfl hS hpost).1.of_eq ?_
      rw [show L.liveOf (issuanceEvent invoice (l :: ls) actor).sourceType
        (issuanceEvent invoice (l :: ls) actor).sourceId = ∅ from hnone]
      rfl

/-- The repost of an issued invoice: its current line set stands, and nothing else. -/
theorem repostInvoiceIssuance_updates (hfree : H.CollisionFree) (ht : Tracked H S L)
    (hseed : Seeded L invoice.companyId acct) (hS : S "invoice".toList (str invoice.id))
    (hon : R.ledgerPostingEnabled invoice.companyId = true) (hera : preCutoverEra R invoice = false)
    (hstatus : invoice.status ∈ ISSUED_STATUSES)
    (hone : OneIssuance invoice (L.liveOf "invoice".toList (str invoice.id)))
    (h : repostInvoiceIssuance H R invoice actor L = .ok () L') :
    ∃ lines, buildIssuanceLines R L invoice = .ok lines ∧
      Updates H S L L' "invoice".toList (str invoice.id) (issuedBook acct invoice invoice.effectiveAt lines) := by
  have hspec := liveIssuanceEntry_spec ht hS hone
  unfold repostInvoiceIssuance at h
  rw [if_neg (not_not_intro hstatus)] at h
  simp only [hon, Bool.not_true, Bool.false_eq_true, if_false, hera, and_false] at h
  cases hb : buildIssuanceLines R L invoice with
  | error e => simp only [hb] at h; cases h
  | ok lines =>
    simp only [hb] at h
    cases lines with
    | nil =>
      refine ⟨[], rfl, reverseLive_updates ht hS ?_ h⟩
      cases hlive : liveIssuanceEntry L invoice with
      | none => simpa only [hlive] using hspec
      | some e =>
        simp only [hlive] at hspec
        exact ⟨hspec.1.stands, hspec.1.type_eq, hspec.1.id_eq, hspec.2⟩
    | cons l ls =>
      cases hlive : liveIssuanceEntry L invoice with
      | none =>
        simp only [hlive] at h hspec
        obtain ⟨lines, hb', hup⟩ := postInvoiceIssuance_updates hfree ht hseed hS hera hspec h
        rw [hb] at hb'
        cases hb'
        exact ⟨_, rfl, hup⟩
      | some e =>
        simp only [hlive] at h hspec
        exact ⟨l :: ls, rfl, repostOver_updates hfree ht hseed rfl hS
          hspec.1.stands hspec.1.type_eq hspec.1.id_eq hspec.2 h⟩

end Gdx
