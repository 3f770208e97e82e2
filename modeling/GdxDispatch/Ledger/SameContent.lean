import GdxDispatch.Ledger.Issuance
import GdxDispatch.Ledger.IssuanceLegs
import GdxDispatch.Ledger.RuleWrites

/-! A repost of what is posted already.

    The engine finds the live entry by a hash over the content, the list of lines included, so content that stands is
    returned whatever the period lock says. The lines of an invoice are read without an order, and a hash over a list
    tells one order from another: read in another order, the same rows are new content. -/

namespace Gdx

open Lib

variable {H : ContentHash} {R : Rows} {L L' : Ledger} {acct : Role → ℕ} {invoice : Invoice}
  {lines : List PostingLine} {event : PostingEvent} {e : GlJournalEntry} {company : ℕ} {actor : Option Text}

/-! ### Content that stands is returned -/

theorem resolveLine_placed {line : PostingLine} (hseed : Seeded L company acct) (h : Placed L company line) :
    ∃ id, resolveLine company line L = .ok id L := by
  cases h with
  | role r hrole hnone =>
    obtain ⟨a, ha⟩ : ∃ a, ensureRoleAccount company r L = .ok a L := ensureRoleAccount_seeded hseed
    refine ⟨a.id, ?_⟩
    simp only [resolveLine, hrole]
    rw [bind_of_ok ha]
    rfl
  | account a hnone haccount hfind hcompany hactive =>
    refine ⟨a.id, ?_⟩
    simp only [resolveLine, hnone, resolveAccountId, haccount, Option.bind_some, hfind]
    simp [hcompany, hactive]

theorem resolveLines_placed (hseed : Seeded L company acct) (h : ∀ line ∈ lines, Placed L company line) :
    ∃ rs, resolveLines company lines L = .ok rs L := by
  induction lines with
  | nil => exact ⟨[], rfl⟩
  | cons line lines ih =>
    obtain ⟨id, hid⟩ := resolveLine_placed hseed (h line List.mem_cons_self)
    obtain ⟨rs, hrs⟩ := ih fun l hl => h l (List.mem_cons_of_mem _ hl)
    refine ⟨line.toJournal id :: rs, ?_⟩
    rw [resolveLines, bind_of_ok hid, bind_of_ok hrs]
    rfl

/-- Valid content whose entry is live is returned, and nothing is written, locked period or not. -/
theorem post_replays {rs : List GlJournalLine} (hinv : JournalInv H L) (hseed : Seeded L event.companyId acct)
    (hextra : event.extraContent = []) (hvalid : validateBalance event.lines = .ok ())
    (hresolved : resolveLines event.companyId event.lines L = .ok rs L)
    (hvalidated : ValidPrefix event.sourceType event.sourceId event.event
      (H.digest ⟨event.effectiveAt, event.lines.map (·.content acct), []⟩))
    (he : e ∈ prefixed L ((event.posting acct).keyPrefix H)) (hposted : e.status = .posted)
    (hcompany : e.companyId = event.companyId) : postForEvent H event false L = .ok e L := by
  obtain ⟨-, hcontent⟩ := resolveLines_seeded hseed hresolved
  have hdigest : contentOf event.effectiveAt rs event.extraContent =
      ⟨event.effectiveAt, event.lines.map (·.content acct), []⟩ := by
    rw [contentOf, hcontent, hextra]
  have hkey : keyPrefix event.sourceType event.sourceId event.event
      (H.digest (contentOf event.effectiveAt rs event.extraContent)) = .ok ((event.posting acct).keyPrefix H) := by
    rw [hdigest]
    exact (keyPrefix_ok (H.no_colon _)).mpr ⟨hvalidated, rfl⟩
  have hfound : entryByKey L event.companyId (idempotencyKey ((event.posting acct).keyPrefix H)
      (computeSeq L event.companyId ((event.posting acct).keyPrefix H))) = some e :=
    (hinv.sequenced _ _ _ _ hvalidated).live_found hinv he hposted hcompany
  have hfilter : (some e).filter (·.isPosted) = some e := by
    rw [Option.filter_some, if_pos (by rw [isPosted_iff]; exact hposted)]
  rw [postForEvent, bind_of_ok (raising_ok.mpr ⟨hvalid, rfl⟩), bind_of_ok hresolved,
    bind_of_ok (raising_ok.mpr ⟨hkey, rfl⟩), MAX_KEY_ATTEMPTS]
  simp only [postAttempts, hfound, hfilter]

/-! ### The order the lines are read in -/

/-- Where each priced line is credited and what it carries, in the order the lines are read. -/
def creditOrder (acct : Role → ℕ) (L : Ledger) (R : Rows) (invoice : Invoice) : List (ℕ × ℤ) :=
  (pricedLines R invoice).map fun il =>
    ((issuanceLine L (R.glSettings invoice.companyId) invoice il).postedTo acct, il.lineTotal)

/-- The rows with the lines stored in another order. -/
def Rows.withLines (R : Rows) (lines : List InvoiceLine) : Rows := { R with lines := lines }

section Order
variable {stored : List InvoiceLine}

theorem pricedLines_perm (h : stored.Perm R.lines) :
    (pricedLines (R.withLines stored) invoice).Perm (pricedLines R invoice) := (h.filter _).filter _

theorem issuanceResidual_perm (h : stored.Perm R.lines) :
    issuanceResidual (R.withLines stored) invoice = issuanceResidual R invoice := by
  rw [issuanceResidual, issuanceResidual, sumCents, sumCents, ((pricedLines_perm h).map _).sum_eq]

/-- Rows that reconcile do so in every order. -/
theorem built_perm (h : stored.Perm R.lines) (htotal : invoice.total ≠ 0)
    (hbuilt : buildIssuanceLines R L invoice = .ok lines) :
    buildIssuanceLines (R.withLines stored) L invoice =
      .ok (issuanceDebit invoice :: issuanceTail (R.withLines stored) L invoice) := by
  rw [buildIssuanceLines_eq L htotal, issuanceResidual_perm h]
  rw [buildIssuanceLines_eq L htotal] at hbuilt
  split at hbuilt
  · cases hbuilt
  · rename_i hwithin
    exact if_neg hwithin

/-- The content of a revenue leg is its account and its amount. -/
theorem issuanceLine_content (L : Ledger) (settings : Option GlSettings) (invoice : Invoice) (il : InvoiceLine) :
    (issuanceLine L settings invoice il).content acct =
      ⟨(issuanceLine L settings invoice il).postedTo acct, -il.lineTotal, invoice.jobId, invoice.customerId⟩ := by
  unfold issuanceLine
  split <;> rfl

/-- The content of the tail tells the order of the credits and nothing else. -/
theorem issuanceTail_content_iff (h : stored.Perm R.lines) :
    (issuanceTail (R.withLines stored) L invoice).map (·.content acct) =
        (issuanceTail R L invoice).map (·.content acct) ↔
      creditOrder acct L (R.withLines stored) invoice = creditOrder acct L R invoice := by
  have hcredit : ∀ R' : Rows, ((pricedLines R' invoice).map
      (issuanceLine L (R'.glSettings invoice.companyId) invoice)).map (·.content acct) =
      (creditOrder acct L R' invoice).map fun q =>
        (⟨q.1, -q.2, invoice.jobId, invoice.customerId⟩ : ContentLine) := by
    intro R'
    rw [creditOrder, List.map_map, List.map_map]
    exact List.map_congr_left fun il _ => issuanceLine_content L _ invoice il
  have hinjective : Function.Injective fun q : ℕ × ℤ =>
      (⟨q.1, -q.2, invoice.jobId, invoice.customerId⟩ : ContentLine) := by
    rintro ⟨a, x⟩ ⟨b, y⟩ hq
    simp only [ContentLine.mk.injEq, neg_inj] at hq
    rw [hq.1, hq.2.1]
  have hrest : issuanceRest (R.withLines stored) invoice = issuanceRest R invoice := by
    rw [issuanceRest, issuanceRest, issuanceResidual_perm h]
  rw [issuanceTail, issuanceTail, List.map_append, List.map_append, hcredit, hcredit, hrest, List.append_cancel_right_eq]
  exact (List.map_injective_iff.mpr hinjective).eq_iff

end Order

/-- The entry was posted for the content of the rows, in the order they are read. -/
structure Carries (H : ContentHash) (acct : Role → ℕ) (L : Ledger) (R : Rows) (invoice : Invoice)
    (e : GlJournalEntry) : Prop where
  priced : invoice.total ≠ 0
  reconciles : ∃ lines, buildIssuanceLines R L invoice = .ok lines
  filed : e ∈ prefixed L
    (((issuanceEvent invoice (issuanceDebit invoice :: issuanceTail R L invoice) none).posting acct).keyPrefix H)

theorem issuancePrefix_valid (H : ContentHash) (invoice : Invoice) (c : Content) :
    ValidPrefix "invoice".toList (str invoice.id) "issued".toList (H.digest c) where
  sourceType_valid := by decide
  not_reversal := by decide
  sourceId_valid := ⟨numeral_ne_nil _, colon_notMem_str _⟩
  event_valid := by decide
  chash_no_colon := H.no_colon c

theorem repost_of_live (hstatus : invoice.status ∈ ISSUED_STATUSES)
    (hon : R.ledgerPostingEnabled invoice.companyId = true) (hlive : liveIssuanceEntry L invoice = some e)
    (hbuilt : buildIssuanceLines R L invoice = .ok (issuanceDebit invoice :: issuanceTail R L invoice)) :
    repostInvoiceIssuance H R invoice actor L =
      repostOver H (issuanceEvent invoice (issuanceDebit invoice :: issuanceTail R L invoice) actor) e actor L := by
  unfold repostInvoiceIssuance
  rw [if_neg (not_not_intro hstatus)]
  simp only [hon, Bool.not_true, Bool.false_eq_true, if_false, hlive, Option.isNone_some, false_and, hbuilt]

theorem reverse_grows {r : GlJournalEntry} (hinv : JournalInv H L) (hmem : e ∈ L.entries) (hposted : e.status = .posted)
    (h : reverseEntry e.id none actor false L = .ok r L') : L.entries.length < L'.entries.length := by
  obtain ⟨-, rfl⟩ := reverse_mirrored hinv hmem hposted h
  simp [Ledger.markReversed, Ledger.insertRow]

/-- A repost that adds no entry has found the live one. -/
theorem repostOver_unchanged (hinv : JournalInv H L) (hseed : Seeded L event.companyId acct)
    (hextra : event.extraContent = []) (hmem : e ∈ L.entries) (hposted : e.status = .posted)
    (h : repostOver H event e actor L = .ok () L') (hlength : L'.entries.length = L.entries.length) :
    e ∈ prefixed L ((event.posting acct).keyPrefix H) := by
  unfold repostOver at h
  rw [bind_ok] at h
  obtain ⟨posted, M, hpost, h⟩ := h
  have hgrown : ∀ M, JournalInv H M → e ∈ M.entries →
      (if posted.id ≠ e.id then (do let _ ← reverseEntry e.id none actor false) else pure ()) M =
        (.ok () L' : EStateM.Result LedgerError Ledger Unit) →
      M.entries.length ≤ L'.entries.length ∧ (posted.id ≠ e.id → M.entries.length < L'.entries.length) := by
    intro M hinvM hmemM h
    by_cases hid : posted.id = e.id
    · rw [if_neg (not_not_intro hid)] at h
      cases h
      exact ⟨le_rfl, fun hne => absurd hid hne⟩
    · rw [if_pos hid, bind_ok] at h
      obtain ⟨r, N, hrev, h⟩ := h
      cases h
      have hlt := reverse_grows hinvM hmemM hposted hrev
      exact ⟨hlt.le, fun _ => hlt⟩
  have hinvM := postForEvent_inv hinv hpost
  cases post_posted hinv hseed hextra hpost with
  | replayed mem =>
    obtain ⟨-, hstrict⟩ := hgrown _ hinv hmem h
    by_cases hid : posted.id = e.id
    · rw [← hinv.eq_of_id (mem_prefixed.mp mem).1 hmem hid]
      exact mem
    · have hlt := hstrict hid
      omega
  | inserted dead allowed =>
    obtain ⟨hle, -⟩ := hgrown _ hinvM (List.mem_append_left _ hmem) h
    simp only [Ledger.insertRow, List.length_append, List.length_singleton] at hle
    omega

/-- An entry is filed under one content. -/
theorem filed_content {p q : Posting} (hfree : H.CollisionFree) (hinv : JournalInv H L)
    (hsame : p.sourceType = q.sourceType ∧ p.sourceId = q.sourceId ∧ p.event = q.event)
    (hvalid : ∀ c, ValidPrefix p.sourceType p.sourceId p.event (H.digest c))
    (hp : e ∈ prefixed L (p.keyPrefix H)) (hq : e ∈ prefixed L (q.keyPrefix H)) : p.lines = q.lines := by
  obtain ⟨hmem, hkeyP⟩ := mem_prefixed.mp hp
  obtain ⟨-, hkeyQ⟩ := mem_prefixed.mp hq
  rcases hinv.shaped e hmem with ⟨ev, n, extra, hshape⟩ | ⟨o, -, -, hm⟩
  · rw [hshape.key, Posting.keyPrefix, prefix_eventKey_iff (hvalid _) hshape.valid] at hkeyP
    rw [hshape.key, Posting.keyPrefix, ← hsame.1, ← hsame.2.1, ← hsame.2.2,
      prefix_eventKey_iff (hvalid _) hshape.valid] at hkeyQ
    have hcontent := hfree _ _ rfl rfl (hkeyP.2.2.2.trans hkeyQ.2.2.2.symm)
    exact congrArg Content.lines hcontent
  · rw [hm.key] at hkeyP
    exact absurd hkeyP (not_prefix_reversalKey (hvalid _) o.id)

/-- What the engine returns for the current rows carries them. -/
theorem carries_of_posted (hinv : JournalInv H L) (hseed : Seeded L invoice.companyId acct)
    (htotal : invoice.total ≠ 0) (hlines : buildIssuanceLines R L invoice = .ok lines)
    (h : postForEvent H (issuanceEvent invoice lines actor) false L = .ok e L') : Carries H acct L' R invoice e := by
  obtain ⟨hzero, -⟩ | ⟨-, rfl⟩ := buildIssuanceLines_ok hlines
  · exact absurd hzero htotal
  cases post_posted hinv hseed rfl h with
  | replayed mem => exact ⟨htotal, ⟨_, hlines⟩, mem⟩
  | inserted dead allowed =>
    refine ⟨htotal, ⟨_, hlines⟩, mem_prefixed.mpr ⟨?_, ?_⟩⟩
    · simp [Ledger.insertRow]
    · exact prefix_idempotencyKey _ _

/-- Reposting an issued invoice whose live P1 carries its rows changes nothing, a locked period or not, exactly when
    posting is off or the lines are read so that the same accounts are credited with the same amounts in the same
    order. -/
theorem repost_unchanged_iff (hfree : H.CollisionFree) (hinv : JournalInv H L)
    (hseed : Seeded L invoice.companyId acct) (hstatus : invoice.status ∈ ISSUED_STATUSES)
    (hlive : liveIssuanceEntry L invoice = some e) (hcarries : Carries H acct L R invoice e)
    (stored : List InvoiceLine) (hperm : stored.Perm R.lines) (actor : Option Text) :
    repostInvoiceIssuance H (R.withLines stored) invoice actor L = .ok () L ↔
      R.ledgerPostingEnabled invoice.companyId = false ∨
        creditOrder acct L (R.withLines stored) invoice = creditOrder acct L R invoice := by
  obtain ⟨htotal, ⟨lines, hlines⟩, hfiled⟩ := hcarries
  obtain ⟨hmem, hposted, hcompany, -⟩ := mem_liveLike_posted (List.mem_of_head? hlive)
  cases hon : R.ledgerPostingEnabled invoice.companyId with
  | false =>
    have hoff : (R.withLines stored).ledgerPostingEnabled invoice.companyId = false := hon
    refine iff_of_true ?_ (.inl rfl)
    unfold repostInvoiceIssuance
    rw [if_neg (not_not_intro hstatus), hoff]
    rfl
  | true =>
    have hon' : (R.withLines stored).ledgerPostingEnabled invoice.companyId = true := hon
    rw [repost_of_live hstatus hon' hlive (built_perm hperm htotal hlines)]
    set event := issuanceEvent invoice (issuanceDebit invoice :: issuanceTail (R.withLines stored) L invoice) actor
    set carried := issuanceEvent invoice (issuanceDebit invoice :: issuanceTail R L invoice) none
    simp only [Bool.true_eq_false, false_or]
    rw [← issuanceTail_content_iff hperm]
    constructor
    · intro h
      have hfound := repostOver_unchanged hinv hseed rfl hmem hposted h rfl
      have hsame : (event.posting acct).lines = (carried.posting acct).lines :=
        filed_content hfree hinv ⟨rfl, rfl, rfl⟩ (issuancePrefix_valid H invoice) hfound hfiled
      exact (List.cons.inj hsame).2
    · intro h
      have hcontent : (issuanceDebit invoice :: issuanceTail (R.withLines stored) L invoice).map (·.content acct) =
          (issuanceDebit invoice :: issuanceTail R L invoice).map (·.content acct) := by
        rw [List.map_cons, List.map_cons, h]
      have hposting : event.posting acct = carried.posting acct := congrArg (Posting.mk _ _ _ _ _) hcontent
      obtain ⟨rs, hrs⟩ := @resolveLines_placed L acct (issuanceDebit invoice :: issuanceTail (R.withLines stored) L
        invoice) invoice.companyId hseed fun line hline => by
          rcases List.mem_cons.mp hline with rfl | hline
          · exact .role .ar rfl rfl
          · exact issuanceTail_placed hline
      have hreplayed : postForEvent H event false L = .ok e L :=
        post_replays hinv hseed rfl (issuance_valid htotal) hrs (issuancePrefix_valid H invoice _)
          (by rw [hposting]; exact hfiled) hposted hcompany
      unfold repostOver
      rw [bind_of_ok hreplayed, if_neg (not_not_intro rfl)]
      rfl

/-- 100.00 of work on two lines, issued after the cutover. -/
def orderedInvoice : Invoice := { eraInvoice with invoiceDate := some 110 }

def orderedLines : List InvoiceLine :=
  [⟨2, 1, "door", 6000, false, none, false⟩, ⟨3, 1, "opener", 4000, false, none, false⟩]

def orderedRows : Rows := { eraRows with invoices := [orderedInvoice], lines := orderedLines, payments := [] }

def orderedPost : LedgerM GlJournalEntry :=
  postForEvent plainHash (issuanceEvent orderedInvoice
    (issuanceDebit orderedInvoice :: issuanceTail orderedRows Ledger.seeded orderedInvoice) none) false

/-- The books once P1 is posted. -/
theorem orderedPost_live : ∃ e, liveIssuanceEntry (after orderedPost Ledger.seeded) orderedInvoice = some e ∧
    JournalInv plainHash (after orderedPost Ledger.seeded) ∧ Seeded (after orderedPost Ledger.seeded) 0 seededAcct ∧
    Carries plainHash seededAcct (after orderedPost Ledger.seeded) orderedRows orderedInvoice e := by
  have hinv : JournalInv plainHash Ledger.seeded := .of_empty rfl chartOk_seeded
  have hlines : buildIssuanceLines orderedRows Ledger.seeded orderedInvoice =
      .ok (issuanceDebit orderedInvoice :: issuanceTail orderedRows Ledger.seeded orderedInvoice) := rfl
  have hposted : returns (do
      let e ← orderedPost
      let L ← get
      pure (decide (liveIssuanceEntry L orderedInvoice = some e ∧ L.accounts = Ledger.seeded.accounts)))
      Ledger.seeded true = true := by decide +kernel
  obtain ⟨e, L, h, hread⟩ := bind_ok.mp (returns_ok hposted)
  simp only [get_apply, bind_apply, pure_apply, EStateM.Result.ok.injEq, decide_eq_true_eq] at hread
  obtain ⟨⟨hlive, haccounts⟩, -⟩ := hread
  rw [after_ok h]
  exact ⟨e, hlive, postForEvent_inv hinv h, seeded_seededAcct.congr haccounts,
    carries_of_posted hinv seeded_seededAcct (by decide) hlines h⟩

theorem repost_unchanged_iff_sameOrder :
    repostInvoiceIssuance plainHash (orderedRows.withLines orderedLines) orderedInvoice none
        (after orderedPost Ledger.seeded) = .ok () (after orderedPost Ledger.seeded) := by
  obtain ⟨e, hlive, hinv, hseed, hcarries⟩ := orderedPost_live
  exact (repost_unchanged_iff plainHash_collisionFree hinv hseed (by decide) hlive hcarries orderedLines (.refl _)
    none).mpr (.inr rfl)

/-- Read the other way round, the same two lines are posted again and the live entry is reversed. -/
theorem repost_of_reread_lines :
    ¬ ∀ (H : ContentHash) (acct : Role → ℕ) (L : Ledger) (R : Rows) (invoice : Invoice) (e : GlJournalEntry),
      H.CollisionFree → JournalInv H L → Seeded L invoice.companyId acct → invoice.status ∈ ISSUED_STATUSES →
      liveIssuanceEntry L invoice = some e → Carries H acct L R invoice e →
      ∀ (stored : List InvoiceLine) (actor : Option Text), stored.Perm R.lines →
        repostInvoiceIssuance H (R.withLines stored) invoice actor L = .ok () L := by
  intro h
  obtain ⟨e, hlive, hinv, hseed, hcarries⟩ := orderedPost_live
  have hsame := h plainHash seededAcct _ orderedRows orderedInvoice e plainHash_collisionFree hinv hseed (by decide)
    hlive hcarries orderedLines.reverse none (List.reverse_perm _)
  have hentries : (after (repostInvoiceIssuance plainHash (orderedRows.withLines orderedLines.reverse) orderedInvoice
      none) (after orderedPost Ledger.seeded)).entries.length = 3 := by decide +kernel
  rw [after_ok hsame] at hentries
  exact absurd hentries (by decide +kernel)

end Gdx
