import GdxDispatch.Lib.Tally
import GdxDispatch.Ledger.JournalRun

/-! The live book: the journal as a set of postings.

    What the engine's keys, hashes and sequence numbers are for, said without them. A posting is an
    economic fact (source, event, date, lines); the live book is the set of postings that stand.
    Posting inserts into the set and is therefore idempotent, reversing erases from it, and what the
    journal nets to, over entries of every status, is what the live book sums to.

        postForEvent  ──▶ insert        L.net w  =  Σ p ∈ L.live, p.value w
        reverseEntry  ──▶ erase

    The last line needs that no reversal is itself reversed, so it is tracked for the sources whose
    entries come from the posting rules, and not for the whole journal. -/

namespace Gdx
open Lib

/-- An economic fact on the books. -/
structure Posting where
  companyId : ℕ
  sourceType : Text
  sourceId : Text
  event : Text
  effectiveAt : ℤ
  lines : List ContentLine
  deriving DecidableEq

/-- Where an amount sits: its source, its account and its reporting dimensions. -/
structure Slot where
  companyId : ℕ
  sourceType : Text
  sourceId : Text
  accountId : ℕ
  jobId : Option ℕ
  customerId : Option ℕ
  deriving DecidableEq

def Posting.amounts (p : Posting) : List (Slot × ℤ) :=
  p.lines.map fun l => (⟨p.companyId, p.sourceType, p.sourceId, l.accountId, l.jobId, l.customerId⟩, l.amountCents)

/-- The posting's amounts weighted by where they sit. -/
def Posting.value (w : Slot → ℤ) (p : Posting) : ℤ := weighted w p.amounts

/-- The event an event key names. -/
def keyEvent (key : Text) : Text := beforeSep ':' (afterSep ':' (afterSep ':' key))

def GlJournalEntry.posting (e : GlJournalEntry) : Posting where
  companyId := e.companyId
  sourceType := e.sourceType
  sourceId := e.sourceId
  event := keyEvent e.idempotencyKey
  effectiveAt := e.effectiveAt
  lines := e.lines.map (·.content)

/-- A posted entry that is no reversal. -/
def GlJournalEntry.isLive (e : GlJournalEntry) : Bool := e.isPosted && e.reversesEntryId.isNone

def Ledger.live (L : Ledger) : Finset Posting := ((L.entries.filter (·.isLive)).map (·.posting)).toFinset

/-- Every amount of the journal, entries of every status included. -/
def Ledger.amounts (L : Ledger) : List (Slot × ℤ) := L.entries.flatMap (·.posting.amounts)

/-- The sum of the journal's amounts in the slots chosen. -/
def Ledger.total (L : Ledger) (p : Slot → Bool) : ℤ := ((L.amounts.filter fun r => p r.1).map (·.2)).sum

/-- The weighted sum of the journal's amounts. -/
def Ledger.net (L : Ledger) (w : Slot → ℤ) : ℤ := weighted w L.amounts

theorem total_eq_net (L : Ledger) (p : Slot → Bool) : L.total p = L.net fun s => if p s then 1 else 0 := by
  have h := sum_filter_eq_weighted p 1 L.amounts
  simpa [Ledger.total, Ledger.net] using h

theorem net_eq_sum (L : Ledger) (w : Slot → ℤ) : L.net w = (L.entries.map fun e => e.posting.value w).sum := by
  unfold Ledger.net Ledger.amounts
  induction L.entries with
  | nil => rfl
  | cons e es ih => rw [List.flatMap_cons, weighted_append, ih]; rfl

theorem mem_live {L : Ledger} {p : Posting} :
    p ∈ L.live ↔ ∃ e ∈ L.entries, e.status = .posted ∧ e.reversesEntryId = none ∧ e.posting = p := by
  simp only [Ledger.live, List.mem_toFinset, List.mem_map, List.mem_filter, GlJournalEntry.isLive,
    Bool.and_eq_true, isPosted_iff, Option.isNone_iff_eq_none]
  constructor
  · rintro ⟨e, ⟨he, hp, hr⟩, rfl⟩; exact ⟨e, he, hp, hr, rfl⟩
  · rintro ⟨e, he, hp, hr, rfl⟩; exact ⟨e, ⟨he, hp, hr⟩, rfl⟩

/-! ### Keys and postings -/

theorem keyEvent_eventKey {st sid ev h : Text} (hv : ValidPrefix st sid ev h) (n : ℕ) :
    keyEvent (idempotencyKey (joinPrefix st sid ev h) n) = ev := by
  rw [idempotencyKey_joinPrefix, keyEvent, afterSep_sepCons _ hv.sourceType_valid.2,
    afterSep_sepCons _ hv.sourceId_valid.2, beforeSep_sepCons _ hv.event_valid.2]

theorem EventShaped.event_eq {H : ContentHash} {e : GlJournalEntry} {ev : Text} {n : ℕ}
    {extra : List (Text × Text)} (h : EventShaped H e ev n extra) : keyEvent e.idempotencyKey = ev := by
  rw [h.key, keyEvent_eventKey h.valid]

/-- The key prefix a posting without extra content is filed under. -/
def Posting.keyPrefix (H : ContentHash) (p : Posting) : Text :=
  joinPrefix p.sourceType p.sourceId p.event (H.digest ⟨p.effectiveAt, p.lines, []⟩)

theorem EventShaped.key_posting {H : ContentHash} {e : GlJournalEntry} {ev : Text} {n : ℕ}
    (h : EventShaped H e ev n []) : e.idempotencyKey = idempotencyKey (e.posting.keyPrefix H) n := by
  rw [h.key]
  simp only [Posting.keyPrefix, GlJournalEntry.posting, h.event_eq, contentOf]

/-- At most one entry of a prefix is posted: the last. -/
theorem Sequenced.posted_eq {pfx : Text} {es : List GlJournalEntry} (h : Sequenced pfx es)
    {e e' : GlJournalEntry} (he : e ∈ es) (he' : e' ∈ es) (hp : e.status = .posted)
    (hp' : e'.status = .posted) : e = e' := by
  have hne : es ≠ [] := List.ne_nil_of_mem he
  have hlast : ∀ x ∈ es, x.status = .posted → x = es.getLast hne := by
    intro x hx hxp
    have hsplit := List.dropLast_append_getLast hne
    rw [← hsplit] at hx
    rcases List.mem_append.mp hx with hx | hx
    · rw [h.reversed x hx] at hxp; cases hxp
    · exact List.mem_singleton.mp hx
  rw [hlast e he hp, hlast e' he' hp']

/-! ### Ledgers whose live book tells what they net to -/

/-- The entries of the tracked sources come from events without extra content, and over them the
    journal nets to its live book. -/
structure Tracked (H : ContentHash) (S : Text → Text → Prop) (L : Ledger) : Prop where
  inv : JournalInv H L
  plain : ∀ e ∈ L.entries, S e.sourceType e.sourceId → e.reversesEntryId = none →
    ∃ n, EventShaped H e (keyEvent e.idempotencyKey) n []
  net_live : ∀ w : Slot → ℤ, (∀ s, w s ≠ 0 → S s.sourceType s.sourceId) →
    L.net w = ∑ p ∈ L.live, p.value w

section Track
variable {H : ContentHash} {S : Text → Text → Prop} {L L' M : Ledger}

theorem Posting.value_eq_zero {w : Slot → ℤ} {p : Posting} (hw : ∀ s, w s ≠ 0 → S s.sourceType s.sourceId)
    (hp : ¬ S p.sourceType p.sourceId) : p.value w = 0 := by
  have hz : ∀ l : ContentLine,
      w ⟨p.companyId, p.sourceType, p.sourceId, l.accountId, l.jobId, l.customerId⟩ = 0 := by
    intro l
    by_contra hne
    exact hp (hw _ hne)
  unfold Posting.value Posting.amounts weighted
  simp [Function.comp_def, hz]

/-- A ledger without entries of the tracked sources is tracked. -/
theorem Tracked.of_none (hinv : JournalInv H L)
    (hnone : ∀ e ∈ L.entries, ¬ S e.sourceType e.sourceId) : Tracked H S L := by
  refine ⟨hinv, fun e he hs => absurd hs (hnone e he), fun w hw => ?_⟩
  have hlive : ∀ p ∈ L.live, p.value w = 0 := by
    intro p hp
    obtain ⟨e, he, -, -, rfl⟩ := mem_live.mp hp
    exact Posting.value_eq_zero hw (hnone e he)
  have hent : ∀ x ∈ L.entries.map (fun e => e.posting.value w), x = 0 := by
    intro x hx
    obtain ⟨e, he, rfl⟩ := List.mem_map.mp hx
    exact Posting.value_eq_zero hw (hnone e he)
  rw [net_eq_sum, List.sum_eq_zero hent, Finset.sum_eq_zero hlive]

/-- Two live entries of a tracked source with the same posting are one entry. -/
theorem Tracked.eq_of_posting (ht : Tracked H S L) {e e' : GlJournalEntry} (he : e ∈ L.entries)
    (he' : e' ∈ L.entries) (hs : S e.sourceType e.sourceId) (hp : e.status = .posted)
    (hp' : e'.status = .posted) (hr : e.reversesEntryId = none) (hr' : e'.reversesEntryId = none)
    (h : e.posting = e'.posting) : e = e' := by
  have hs' : S e'.sourceType e'.sourceId := by
    have h1 : e.sourceType = e'.sourceType := congrArg Posting.sourceType h
    have h2 : e.sourceId = e'.sourceId := congrArg Posting.sourceId h
    rwa [← h1, ← h2]
  obtain ⟨n, hn⟩ := ht.plain e he hs hr
  obtain ⟨n', hn'⟩ := ht.plain e' he' hs' hr'
  have hmem : ∀ x ∈ L.entries, ∀ m, EventShaped H x (keyEvent x.idempotencyKey) m [] →
      x ∈ prefixed L (x.posting.keyPrefix H) := fun x hx m hm =>
    mem_prefixed.mpr ⟨hx, by rw [hm.key_posting]; exact prefix_idempotencyKey _ _⟩
  have hin := hmem e he n hn
  have hin' := hmem e' he' n' hn'
  rw [← h] at hin'
  exact (ht.inv.sequenced _ _ _ _ hn.valid).posted_eq hin hin' hp hp'

theorem live_insertRow (L : Ledger) (e : GlJournalEntry) (hp : e.status = .posted)
    (hr : e.reversesEntryId = none) : (L.insertRow e).live = insert e.posting L.live := by
  ext p
  simp only [mem_live, Finset.mem_insert, Ledger.insertRow, List.mem_append, List.mem_singleton]
  constructor
  · rintro ⟨x, hx | rfl, hxp, hxr, rfl⟩
    · exact Or.inr ⟨x, hx, hxp, hxr, rfl⟩
    · exact Or.inl rfl
  · rintro (rfl | ⟨x, hx, hxp, hxr, rfl⟩)
    · exact ⟨e, Or.inr rfl, hp, hr, rfl⟩
    · exact ⟨x, Or.inl hx, hxp, hxr, rfl⟩

theorem net_insertRow (L : Ledger) (e : GlJournalEntry) (w : Slot → ℤ) :
    (L.insertRow e).net w = L.net w + e.posting.value w := by
  simp [net_eq_sum, Ledger.insertRow]

theorem posting_marked (e : GlJournalEntry) (rid : ℕ) : (e.marked rid).posting = e.posting := rfl

theorem net_markReversed (L : Ledger) (id rid : ℕ) (w : Slot → ℤ) : (L.markReversed id rid).net w = L.net w := by
  rw [net_eq_sum, net_eq_sum, Ledger.markReversed, List.map_map]
  congr 1
  refine List.map_congr_left fun e _ => ?_
  simp only [Function.comp_apply]
  split_ifs
  · rw [posting_marked]
  · rfl

/-- The mirror entry takes back exactly what its original put in each slot. -/
theorem value_reversal (e : GlJournalEntry) (L : Ledger) (when' : ℤ) (by' : Option Text) (w : Slot → ℤ) :
    (e.reversal L when' by').posting.value w = -e.posting.value w := by
  simp only [Posting.value, Posting.amounts, weighted, GlJournalEntry.posting, GlJournalEntry.reversal,
    EntryHeader.entry, GlJournalEntry.reversalHeader, List.map_map]
  rw [List.sum_neg, List.map_map]
  congr 1
  refine List.map_congr_left fun l _ => ?_
  simp [GlJournalLine.mirror, GlJournalLine.content]

/-! ### Posting inserts, reversing erases -/

/-- Every role of the company resolves to its account. -/
def Seeded (L : Ledger) (company : ℕ) (acct : Role → ℕ) : Prop :=
  ∀ role, ∃ a, resolveRoleAccount L company role = .ok a ∧ a.id = acct role

theorem Seeded.congr {company : ℕ} {acct : Role → ℕ} (h : Seeded L company acct)
    (ha : L'.accounts = L.accounts) : Seeded L' company acct := by
  intro role
  obtain ⟨a, hres, hid⟩ := h role
  refine ⟨a, ?_, hid⟩
  unfold resolveRoleAccount at hres ⊢
  rwa [ha]

/-- A leg as it enters the content, its role read through the chart. -/
def PostingLine.content (acct : Role → ℕ) (l : PostingLine) : ContentLine where
  accountId := match l.role with
    | some role => acct role
    | none => l.accountId.getD 0
  amountCents := l.amountCents
  jobId := l.jobId
  customerId := l.customerId

def PostingEvent.posting (acct : Role → ℕ) (event : PostingEvent) : Posting where
  companyId := event.companyId
  sourceType := event.sourceType
  sourceId := event.sourceId
  event := event.event
  effectiveAt := event.effectiveAt
  lines := event.lines.map (·.content acct)

theorem resolveLine_seeded {company : ℕ} {acct : Role → ℕ} (hs : Seeded L company acct)
    {line : PostingLine} {id : ℕ} (h : resolveLine company line L = .ok id L') :
    L' = L ∧ (line.toJournal id).content = line.content acct := by
  unfold resolveLine at h
  cases hr : line.role with
  | some role =>
    simp only [hr] at h
    obtain ⟨a, hres, hid⟩ := hs role
    rw [bind_of_ok (ensureRoleAccount_of_resolve hres)] at h
    cases h
    exact ⟨rfl, by simp [PostingLine.toJournal, GlJournalLine.content, PostingLine.content, hr, hid]⟩
  | none =>
    simp only [hr] at h
    obtain ⟨rfl, hacc, -⟩ := resolveAccountId_ok h
    exact ⟨rfl, by simp [PostingLine.toJournal, GlJournalLine.content, PostingLine.content, hr, hacc]⟩

theorem resolveLines_seeded {company : ℕ} {acct : Role → ℕ} : ∀ {lines : List PostingLine} {L L' : Ledger}
    {rs : List GlJournalLine}, Seeded L company acct → resolveLines company lines L = .ok rs L' →
    L' = L ∧ rs.map (·.content) = lines.map (·.content acct)
  | [], L, L', rs, _, h => by
    cases h
    exact ⟨rfl, rfl⟩
  | line :: lines, L, L', rs, hs, h => by
    rw [resolveLines, bind_ok] at h
    obtain ⟨id, M, hid, h⟩ := h
    rw [bind_ok] at h
    obtain ⟨rest, N, hrest, h⟩ := h
    cases h
    obtain ⟨rfl, hc⟩ := resolveLine_seeded hs hid
    obtain ⟨rfl, hcs⟩ := resolveLines_seeded hs hrest
    exact ⟨rfl, by rw [List.map_cons, List.map_cons, hc, hcs]⟩

/-- `L'` has `L`'s chart and locks, is tracked, and its live book is `B`. -/
structure Lands (H : ContentHash) (S : Text → Text → Prop) (L L' : Ledger) (B : Finset Posting) : Prop where
  tracked : Tracked H S L'
  accounts : L'.accounts = L.accounts
  locks : L'.locks = L.locks
  live : L'.live = B

/-- The entry stands in the ledger: posted and no reversal. -/
structure Stands (L : Ledger) (e : GlJournalEntry) : Prop where
  mem : e ∈ L.entries
  posted : e.status = .posted
  not_reversal : e.reversesEntryId = none

theorem Stands.mem_live {e : GlJournalEntry} (h : Stands L e) : e.posting ∈ L.live :=
  Gdx.mem_live.mpr ⟨e, h.mem, h.posted, h.not_reversal, rfl⟩

/-- An entry under the prefix of a tracked posting is an entry of that posting. -/
theorem Tracked.posting_of_prefixed (ht : Tracked H S L) (hfree : H.CollisionFree) {p : Posting}
    (hs : S p.sourceType p.sourceId)
    (hv : ValidPrefix p.sourceType p.sourceId p.event (H.digest ⟨p.effectiveAt, p.lines, []⟩))
    {e : GlJournalEntry} (he : e ∈ prefixed L (p.keyPrefix H)) (hc : e.companyId = p.companyId) :
    e.reversesEntryId = none ∧ e.posting = p := by
  obtain ⟨hmem, hkey⟩ := mem_prefixed.mp he
  rcases ht.inv.shaped e hmem with ⟨ev, n, extra, hshape⟩ | ⟨o, -, -, hm⟩
  · rw [hshape.key, Posting.keyPrefix, prefix_eventKey_iff hv hshape.valid] at hkey
    obtain ⟨hst, hsid, hev, -⟩ := hkey
    obtain ⟨m, hplain⟩ := ht.plain e hmem (by rw [← hst, ← hsid]; exact hs) hshape.not_reversal
    have hkey' := (mem_prefixed.mp he).2
    rw [hplain.key, Posting.keyPrefix, prefix_eventKey_iff hv hplain.valid] at hkey'
    have hcontent := hfree _ _ rfl rfl hkey'.2.2.2
    simp only [contentOf, Content.mk.injEq] at hcontent
    refine ⟨hshape.not_reversal, ?_⟩
    unfold GlJournalEntry.posting
    rw [hc, ← hst, ← hsid, ← hkey'.2.2.1, ← hcontent.1, ← hcontent.2.1]
  · rw [hm.key] at hkey
    exact absurd hkey (not_prefix_reversalKey hv o.id)

/-- The tracked facts read the entries. -/
theorem Tracked.of_entries (ht : Tracked H S L) (hinv : JournalInv H M) (hentries : M.entries = L.entries) :
    Tracked H S M := by
  have hlive : M.live = L.live := by
    unfold Ledger.live
    rw [hentries]
  refine ⟨hinv, ?_, ?_⟩
  · rw [hentries]
    exact ht.plain
  · intro w hw
    rw [hlive, ← ht.net_live w hw, net_eq_sum, net_eq_sum, hentries]

theorem Tracked.grow (ht : Tracked H S L) (hg : ChartGrows L M) : Tracked H S M :=
  ht.of_entries (ht.inv.grow hg) hg.entries

/-- A posting that returns stands for its event, and the live book gains it. The chart may have grown on the way. -/
theorem post_books {event : PostingEvent} {e : GlJournalEntry} (hfree : H.CollisionFree) (ht : Tracked H S L)
    (hextra : event.extraContent = []) (hs : S event.sourceType event.sourceId)
    (h : postForEvent H event false L = .ok e L') :
    ∃ N rs, resolveLines event.companyId event.lines L = .ok rs N ∧ L'.accounts = N.accounts ∧ L'.locks = L.locks ∧
      Tracked H S L' ∧ Stands L' e ∧ L'.live = insert e.posting L.live ∧
      e.posting = ⟨event.companyId, event.sourceType, event.sourceId, event.event, event.effectiveAt,
        rs.map (·.content)⟩ := by
  have hinv' := postForEvent_inv ht.inv h
  obtain ⟨M, rs, hv, hres, hp, hout⟩ := postForEvent_ok ht.inv h
  have hgrows := (resolveLines_ok hres).grows
  have htM : Tracked H S M := ht.grow hgrows
  have hliveM : M.live = L.live := by
    unfold Ledger.live
    rw [hgrows.entries]
  have hcontent : contentOf event.effectiveAt rs event.extraContent =
      ⟨event.effectiveAt, rs.map (·.content), []⟩ := by rw [contentOf, hextra]
  rw [hcontent] at hp hout
  set p : Posting := ⟨event.companyId, event.sourceType, event.sourceId, event.event, event.effectiveAt,
    rs.map (·.content)⟩ with hpdef
  cases hout with
  | replayed mem posted company =>
    obtain ⟨hnr, hpost⟩ := htM.posting_of_prefixed hfree (p := p) hs hp mem company
    have hst : Stands _ e := ⟨(mem_prefixed.mp mem).1, posted, hnr⟩
    have hin := hst.mem_live
    refine ⟨_, rs, hres, rfl, hgrows.locks, htM, hst, ?_, hpost⟩
    rw [← hliveM, Finset.insert_eq_of_mem hin]
  | @inserted N checked dead free =>
    obtain ⟨-, -, -, -, hlock⟩ := checkPeriodLock_ok checked
    obtain ⟨rfl, -⟩ := hlock rfl
    set pfx := joinPrefix event.sourceType event.sourceId event.event
      (H.digest ⟨event.effectiveAt, rs.map (·.content), []⟩) with hpfx
    set e := (event.header pfx (prefixed N pfx).length).entry N rs with he
    have hev : keyEvent e.idempotencyKey = event.event := keyEvent_eventKey hp _
    have hpost : e.posting = p := by
      unfold GlJournalEntry.posting
      rw [hev]
      rfl
    have hshape : EventShaped H e (keyEvent e.idempotencyKey) (prefixed N pfx).length [] := by
      refine ⟨rfl, ?_, ?_⟩
      · rw [hev]; exact hp
      · rw [hev]; rfl
    have hst : Stands (N.insertRow e) e := ⟨by simp [Ledger.insertRow], rfl, rfl⟩
    -- the fact was not on the books: the entries of its prefix are all reversed
    have hnew : e.posting ∉ N.live := by
      intro hin
      obtain ⟨x, hx, hxp, hxr, hxe⟩ := mem_live.mp hin
      have hxs : S x.sourceType x.sourceId := by
        have h1 : x.sourceType = event.sourceType := congrArg Posting.sourceType (hxe.trans hpost)
        have h2 : x.sourceId = event.sourceId := congrArg Posting.sourceId (hxe.trans hpost)
        rwa [h1, h2]
      obtain ⟨m, hm⟩ := htM.plain x hx hxs hxr
      have hxin : x ∈ prefixed N pfx := by
        refine mem_prefixed.mpr ⟨hx, ?_⟩
        rw [hm.key_posting, hxe, hpost]
        exact prefix_idempotencyKey _ _
      rw [(dead x hxin).1] at hxp
      cases hxp
    refine ⟨_, rs, hres, rfl, hgrows.locks, ⟨hinv', ?_, ?_⟩, hst, ?_, hpost⟩
    · intro x hx hxs hxr
      rcases List.mem_append.mp hx with hx | hx
      · exact htM.plain x hx hxs hxr
      · rw [List.mem_singleton.mp hx]
        exact ⟨_, hshape⟩
    · intro w hw
      rw [net_insertRow, live_insertRow _ _ rfl rfl, Finset.sum_insert hnew, htM.net_live w hw, add_comm]
    · rw [live_insertRow _ _ rfl rfl, hliveM]

theorem post_lands {acct : Role → ℕ} {event : PostingEvent} {e : GlJournalEntry} (hfree : H.CollisionFree)
    (ht : Tracked H S L) (hseed : Seeded L event.companyId acct) (hextra : event.extraContent = [])
    (hs : S event.sourceType event.sourceId) (h : postForEvent H event false L = .ok e L') :
    Lands H S L L' (insert (event.posting acct) L.live) ∧ Stands L' e ∧ e.posting = event.posting acct := by
  obtain ⟨N, rs, hres, haccounts, hlocks, htracked, hst, hlive, hposting⟩ := post_books hfree ht hextra hs h
  obtain ⟨rfl, hcs⟩ := resolveLines_seeded hseed hres
  have hpost : e.posting = event.posting acct := by
    rw [hposting, hcs]
    rfl
  exact ⟨⟨htracked, haccounts, hlocks, by rw [hlive, hpost]⟩, hst, hpost⟩

/-- Reversing an entry that stands erases its posting. -/
theorem reverse_lands {e r : GlJournalEntry} {at' : Option ℤ} {by' : Option Text} (ht : Tracked H S L)
    (he : Stands L e) (hs : S e.sourceType e.sourceId) (h : reverseEntry e.id at' by' false L = .ok r L') :
    Lands H S L L' (L.live.erase e.posting) := by
  have hinv' := reverseEntry_inv ht.inv h
  cases reverseEntry_ok ht.inv h with
  | already mem eid rev =>
    rw [ht.inv.eq_of_id mem he.mem eid, he.posted] at rev
    cases rev
  | @mirrored x M mem eid posted checked =>
    obtain rfl := ht.inv.eq_of_id mem he.mem eid
    obtain ⟨-, -, -, -, hlock⟩ := checkPeriodLock_ok checked
    obtain ⟨rfl, -⟩ := hlock rfl
    set r := x.reversal M (at'.getD x.effectiveAt) by' with hr
    have hne : ¬ r.id = x.id := (Nat.ne_of_lt (ht.inv.id_lt x mem)).symm
    have hlive : ((M.insertRow r).markReversed x.id r.id).live = M.live.erase x.posting := by
      ext p
      rw [mem_live, Finset.mem_erase, mem_live]
      constructor
      · rintro ⟨y, hy, hyp, hyr, rfl⟩
        rcases mem_mirrored.mp hy with ⟨z, hz, rfl⟩ | rfl
        · by_cases hid : z.id = x.id
          · rw [if_pos hid] at hyp; cases hyp
          · rw [if_neg hid] at hyp hyr ⊢
            refine ⟨fun heq => hid ?_, z, hz, hyp, hyr, rfl⟩
            rw [ht.eq_of_posting mem hz hs posted hyp he.not_reversal hyr heq.symm]
        · rw [if_neg hne] at hyr; cases hyr
      · rintro ⟨hpx, y, hy, hyp, hyr, rfl⟩
        refine ⟨y, mem_mirrored.mpr (Or.inl ⟨y, hy, ?_⟩), hyp, hyr, rfl⟩
        rw [if_neg]
        intro hid
        exact hpx (by rw [ht.inv.eq_of_id hy mem hid])
    refine ⟨⟨hinv', ?_, ?_⟩, rfl, rfl, hlive⟩
    · intro y hy hys hyr
      rcases mem_mirrored.mp hy with ⟨z, hz, rfl⟩ | rfl
      · split_ifs at hys hyr ⊢
        · obtain ⟨n, hn⟩ := ht.plain z hz hys hyr
          exact ⟨n, hn.not_reversal, hn.valid, hn.key⟩
        · exact ht.plain z hz hys hyr
      · rw [if_neg hne] at hyr; cases hyr
    · intro w hw
      rw [net_markReversed, net_insertRow, hr, value_reversal, hlive, ht.net_live w hw,
        ← Finset.sum_erase_add _ _ he.mem_live]
      ring

end Track

end Gdx
