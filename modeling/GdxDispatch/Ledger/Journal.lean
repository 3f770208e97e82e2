import GdxDispatch.Ledger.Engine

/-! The journal invariant.

    What every sequence of postings and reversals keeps: entries balance, keys are unique, the
    entries of one (source, event, hash) prefix are numbered `0..n-1` in insertion order with all
    but the last reversed, and reversed entries are in one-to-one correspondence with the mirror
    entries that cancel them. The invariant is proved step by step: `insertEntry` under a fresh key
    keeps it, and so does inserting a mirror entry and marking its original.

        post ──▶ last of the prefix posted? ──yes──▶ return it, nothing written
                 │ no: all n of them are reversed
                 ▼
              lock check ──▶ insert under `prefix:n` -/

namespace Gdx
open Lib

/-- The entry balance rule. -/
structure Balanced (lines : List GlJournalLine) : Prop where
  two_lines : 2 ≤ lines.length
  nonzero : ∀ l ∈ lines, l.amountCents ≠ 0
  sum_zero : (lines.map (·.amountCents)).sum = 0

/-- The entries whose key starts with `prefix:`, in insertion order. -/
def prefixed (L : Ledger) (pfx : Text) : List GlJournalEntry :=
  L.entries.filter fun e => decide (pfx ++ [':'] <+: e.idempotencyKey)

/-- An entry posted for an event: its key names its source, its event and the hash of its content. -/
structure EventShaped (H : ContentHash) (e : GlJournalEntry) (event : Text) (seq : ℕ)
    (extra : List (Text × Text)) : Prop where
  not_reversal : e.reversesEntryId = none
  valid : ValidPrefix e.sourceType e.sourceId event (H.digest (contentOf e.effectiveAt e.lines extra))
  key : e.idempotencyKey =
    idempotencyKey (joinPrefix e.sourceType e.sourceId event
      (H.digest (contentOf e.effectiveAt e.lines extra))) seq

/-- `r` is the reversal of `e`: the exact negation on the same accounts and dimensions. -/
structure Mirrors (r e : GlJournalEntry) : Prop where
  reverses : r.reversesEntryId = some e.id
  linked : e.reversedByEntryId = some r.id
  key : r.idempotencyKey = reversalKey e.id
  sourceType : r.sourceType = e.sourceType
  sourceId : r.sourceId = e.sourceId
  companyId : r.companyId = e.companyId
  lines : r.lines = e.lines.map (·.mirror e.entryNo)

/-- The entries of one prefix: numbered from zero, all but the last reversed, of one company. -/
structure Sequenced (pfx : Text) (es : List GlJournalEntry) : Prop where
  numbered : es.map (·.idempotencyKey) = (List.range es.length).map (idempotencyKey pfx)
  reversed : ∀ e ∈ es.dropLast, e.status = .reversed
  company : ∀ e ∈ es, ∀ e' ∈ es, e.companyId = e'.companyId

structure JournalInv (H : ContentHash) (L : Ledger) : Prop where
  id_lt : ∀ e ∈ L.entries, e.id < L.nextId
  id_nodup : (L.entries.map (·.id)).Nodup
  key_nodup : (L.entries.map (·.idempotencyKey)).Nodup
  account_lt : ∀ a ∈ L.accounts, a.id < L.nextId
  account_nodup : (L.accounts.map (·.id)).Nodup
  account_known : ∀ e ∈ L.entries, ∀ l ∈ e.lines, ∃ a ∈ L.accounts, a.id = l.accountId
  balanced : ∀ e ∈ L.entries, Balanced e.lines
  sequenced : ∀ st sid ev h, ValidPrefix st sid ev h →
    Sequenced (joinPrefix st sid ev h) (prefixed L (joinPrefix st sid ev h))
  shaped : ∀ e ∈ L.entries, (∃ ev n extra, EventShaped H e ev n extra) ∨
    ∃ o ∈ L.entries, o.status = .reversed ∧ Mirrors e o
  reversed_linked : ∀ e ∈ L.entries, e.status = .reversed → ∃ r ∈ L.entries, Mirrors r e

/-! ### Lines -/

theorem validateBalance_ok {lines : List PostingLine} (h : validateBalance lines = .ok ()) :
    2 ≤ lines.length ∧ (∀ l ∈ lines, l.amountCents ≠ 0) ∧ (lines.map (·.amountCents)).sum = 0 := by
  unfold validateBalance at h
  simp only at h
  split_ifs at h with h1 h2 h3 h4 h5
  refine ⟨by omega, ?_, by simpa using h2⟩
  intro l hl hz
  exact h4 (List.any_eq_true.mpr ⟨l, hl, by simpa using hz⟩)

/-- What resolving the legs does: the chart may grow, the amounts stay, the accounts exist. -/
structure Resolved (L L' : Ledger) (lines : List PostingLine) (rs : List GlJournalLine) : Prop where
  grows : ChartGrows L L'
  amounts : rs.map (·.amountCents) = lines.map (·.amountCents)
  known : ∀ r ∈ rs, ∃ a ∈ L'.accounts, a.id = r.accountId

theorem accountById_mem {L : Ledger} {id : ℕ} {a : GlAccount} (h : L.accountById id = some a) :
    a ∈ L.accounts ∧ a.id = id :=
  ⟨List.mem_of_find?_eq_some h, by simpa using List.find?_some h⟩

theorem resolveAccountId_ok {company : ℕ} {accountId : Option ℕ} {L L' : Ledger} {id : ℕ}
    (h : resolveAccountId company accountId L = .ok id L') :
    L' = L ∧ accountId = some id ∧ ∃ a ∈ L.accounts, a.id = id := by
  unfold resolveAccountId at h
  cases accountId with
  | none => cases h
  | some i =>
    simp only [Option.bind_some] at h
    cases ha : L.accountById i with
    | none => rw [ha] at h; cases h
    | some a =>
      rw [ha] at h
      simp only at h
      split_ifs at h
      cases h
      obtain ⟨hmem, hid⟩ := accountById_mem ha
      exact ⟨rfl, by rw [hid], a, hmem, rfl⟩

theorem resolveLine_ok {company : ℕ} {line : PostingLine} {L L' : Ledger} {id : ℕ}
    (h : resolveLine company line L = .ok id L') :
    ChartGrows L L' ∧ ∃ a ∈ L'.accounts, a.id = id := by
  unfold resolveLine at h
  cases hr : line.role with
  | some role =>
    simp only [hr] at h
    rw [bind_ok] at h
    obtain ⟨a, M, ha, hp⟩ := h
    cases hp
    have hg := ensureRoleAccount_grows company role L
    rw [after_ok ha] at hg
    exact ⟨hg, a, (ensureRoleAccount_mem ha).1, rfl⟩
  | none =>
    simp only [hr] at h
    obtain ⟨rfl, -, a, hmem, hid⟩ := resolveAccountId_ok h
    exact ⟨.refl _, a, hmem, hid⟩

theorem ChartGrows.mem {L L' : Ledger} (h : ChartGrows L L') {a : GlAccount} (ha : a ∈ L.accounts) :
    a ∈ L'.accounts := by
  obtain ⟨added, hadd, -⟩ := h.accounts
  rw [hadd]
  exact List.mem_append_left _ ha

theorem resolveLines_ok {company : ℕ} : ∀ {lines : List PostingLine} {L L' : Ledger}
    {rs : List GlJournalLine}, resolveLines company lines L = .ok rs L' → Resolved L L' lines rs
  | [], L, L', rs, h => by
    cases h
    exact ⟨.refl _, rfl, by simp⟩
  | line :: lines, L, L', rs, h => by
    rw [resolveLines, bind_ok] at h
    obtain ⟨id, M, hid, h⟩ := h
    rw [bind_ok] at h
    obtain ⟨rest, N, hrest, h⟩ := h
    cases h
    obtain ⟨hg, a, ha, haid⟩ := resolveLine_ok hid
    have hr := resolveLines_ok hrest
    refine ⟨hg.trans hr.grows, by simp [PostingLine.toJournal, hr.amounts], ?_⟩
    intro r hmem
    rcases List.mem_cons.mp hmem with rfl | hmem
    · exact ⟨a, hr.grows.mem ha, haid⟩
    · exact hr.known r hmem

/-- The resolved lines of a validated event balance. -/
theorem balanced_of_resolved {L L' : Ledger} {lines : List PostingLine} {rs : List GlJournalLine}
    (hv : validateBalance lines = .ok ()) (hr : Resolved L L' lines rs) : Balanced rs := by
  obtain ⟨h2, hnz, hsum⟩ := validateBalance_ok hv
  have hlen : rs.length = lines.length := by simpa using congrArg List.length hr.amounts
  refine ⟨by omega, ?_, by rw [hr.amounts]; exact hsum⟩
  intro r hmem hz
  have hin : r.amountCents ∈ lines.map (·.amountCents) := by
    rw [← hr.amounts]; exact List.mem_map_of_mem hmem
  obtain ⟨l, hl, hlr⟩ := List.mem_map.mp hin
  exact hnz l hl (by rw [hlr, hz])

theorem Balanced.mirror {lines : List GlJournalLine} (h : Balanced lines) (n : ℕ) :
    Balanced (lines.map (·.mirror n)) := by
  refine ⟨by simpa using h.two_lines, ?_, ?_⟩
  · intro l hl
    obtain ⟨l', hl', rfl⟩ := List.mem_map.mp hl
    simpa [GlJournalLine.mirror] using h.nonzero l' hl'
  · have hneg : (lines.map (·.mirror n)).map (·.amountCents) = (lines.map (·.amountCents)).map (fun x => -x) := by
      simp [GlJournalLine.mirror, List.map_map, Function.comp_def]
    rw [hneg, ← List.sum_neg, h.sum_zero, neg_zero]

/-! ### The entries of one prefix -/

theorem mem_prefixed {L : Ledger} {pfx : Text} {e : GlJournalEntry} :
    e ∈ prefixed L pfx ↔ e ∈ L.entries ∧ pfx ++ [':'] <+: e.idempotencyKey := by
  simp [prefixed, List.mem_filter]

theorem prefix_idempotencyKey (pfx : Text) (n : ℕ) : pfx ++ [':'] <+: idempotencyKey pfx n :=
  ⟨numeral n, by simp [idempotencyKey, sepCons]⟩

theorem computeSeq_eq (L : Ledger) (company : ℕ) (pfx : Text) :
    computeSeq L company pfx =
      ((prefixed L pfx).filter fun e => e.companyId == company && e.status == .reversed).length := by
  unfold computeSeq prefixed
  rw [List.filter_filter]
  congr 1
  refine List.filter_congr fun e _ => ?_
  rw [Bool.eq_iff_iff]
  simp only [Bool.and_eq_true, decide_eq_true_eq, likeEscapedPrefix_iff]

/-- A sequence number below the number of entries is taken. -/
theorem Sequenced.taken {pfx : Text} {es : List GlJournalEntry} (h : Sequenced pfx es) {n : ℕ}
    (hn : n < es.length) : ∃ e ∈ es, e.idempotencyKey = idempotencyKey pfx n := by
  have hmem : idempotencyKey pfx n ∈ es.map (·.idempotencyKey) := by
    rw [h.numbered]
    exact List.mem_map_of_mem (List.mem_range.mpr hn)
  obtain ⟨e, he, hk⟩ := List.mem_map.mp hmem
  exact ⟨e, he, hk⟩

theorem filter_length_eq {α : Type} {q : α → Bool} : ∀ {l : List α},
    (l.filter q).length = l.length → ∀ a ∈ l, q a = true
  | [], _, a, ha => absurd ha (by simp)
  | x :: l, h, a, ha => by
    have hle := List.length_filter_le q l
    by_cases hx : q x
    · rw [List.filter_cons_of_pos hx, List.length_cons, List.length_cons] at h
      rcases List.mem_cons.mp ha with rfl | ha
      · exact hx
      · exact filter_length_eq (by omega) a ha
    · rw [List.filter_cons_of_neg hx, List.length_cons] at h
      omega

/-- If the key the engine derives is free, every entry of the prefix is reversed and the company's,
    and the derived number is their count. -/
theorem Sequenced.all_reversed {L : Ledger} {pfx : Text} {company : ℕ}
    (h : Sequenced pfx (prefixed L pfx))
    (hfree : ∀ e ∈ L.entries, e.idempotencyKey ≠ idempotencyKey pfx (computeSeq L company pfx)) :
    computeSeq L company pfx = (prefixed L pfx).length ∧
      ∀ e ∈ prefixed L pfx, e.status = .reversed ∧ e.companyId = company := by
  have hle : computeSeq L company pfx ≤ (prefixed L pfx).length := by
    rw [computeSeq_eq]; exact List.length_filter_le _ _
  have hge : ¬ computeSeq L company pfx < (prefixed L pfx).length := by
    intro hlt
    obtain ⟨e, he, hk⟩ := h.taken hlt
    exact hfree e (mem_prefixed.mp he).1 hk
  have heq : computeSeq L company pfx = (prefixed L pfx).length := by omega
  refine ⟨heq, fun e he => ?_⟩
  rw [computeSeq_eq] at heq
  have hq := filter_length_eq heq e he
  simp only [Bool.and_eq_true, beq_iff_eq] at hq
  exact ⟨hq.2, hq.1⟩

/-! ### What a posting does -/

theorem checkPeriodLock_ok {company : ℕ} {at' : ℤ} {ovr : Bool} {by' : Option Text} {L L' : Ledger}
    (h : checkPeriodLock company at' ovr by' L = .ok () L') :
    L'.accounts = L.accounts ∧ L'.entries = L.entries ∧ L'.locks = L.locks ∧ L'.nextId = L.nextId ∧
      (ovr = false → L' = L ∧ ∀ d, L.latestLock company = some d → d < at') := by
  unfold checkPeriodLock at h
  cases hl : L.latestLock company with
  | none =>
    simp only [hl] at h
    cases h
    exact ⟨rfl, rfl, rfl, rfl, fun _ => ⟨rfl, by simp⟩⟩
  | some d =>
    simp only [hl] at h
    split_ifs at h with h1 h2
    · cases h
      refine ⟨rfl, rfl, rfl, rfl, fun _ => ⟨rfl, ?_⟩⟩
      intro d' hd'
      cases hd'
      exact h1
    · cases h
      refine ⟨rfl, rfl, rfl, rfl, fun ho => ?_⟩
      rw [ho] at h2
      exact absurd rfl h2

/-- A refused lock check writes nothing. -/
theorem checkPeriodLock_error {company : ℕ} {at' : ℤ} {ovr : Bool} {by' : Option Text} {L L' : Ledger}
    {e : LedgerError} (h : checkPeriodLock company at' ovr by' L = .error e L') :
    L' = L ∧ ∃ d, L.latestLock company = some d ∧ at' ≤ d ∧ e = .periodLocked d at' ∧ ovr = false := by
  unfold checkPeriodLock at h
  cases hl : L.latestLock company with
  | none => simp only [hl] at h; cases h
  | some d =>
    simp only [hl] at h
    split_ifs at h with h1 h2
    cases h
    exact ⟨rfl, d, rfl, by omega, rfl, by simpa using h2⟩

theorem entryByKey_some {L : Ledger} {company : ℕ} {key : Text} {e : GlJournalEntry}
    (h : entryByKey L company key = some e) :
    e ∈ L.entries ∧ e.companyId = company ∧ e.idempotencyKey = key := by
  have hp := List.find?_some h
  simp only [Bool.and_eq_true, beq_iff_eq] at hp
  exact ⟨List.mem_of_find?_eq_some h, hp.1, hp.2⟩

/-- `L` with the row appended and one id drawn. -/
def Ledger.insertRow (L : Ledger) (e : GlJournalEntry) : Ledger :=
  { L with entries := L.entries ++ [e], nextId := L.nextId + 1 }

theorem insertEntry_ok {h : EntryHeader} {lines : List GlJournalLine} {L L' : Ledger} {e : GlJournalEntry}
    (hok : insertEntry h lines L = .ok e L') :
    (∀ x ∈ L.entries, x.idempotencyKey ≠ h.key) ∧ e = h.entry L lines ∧ L' = L.insertRow e := by
  unfold insertEntry at hok
  split_ifs at hok with hany
  cases hok
  refine ⟨fun x hx hk => hany ?_, rfl, rfl⟩
  exact List.any_eq_true.mpr ⟨x, hx, by simpa using hk⟩

theorem insertEntry_error {h : EntryHeader} {lines : List GlJournalLine} {L L' : Ledger} {e : LedgerError}
    (herr : insertEntry h lines L = .error e L') :
    (∃ x ∈ L.entries, x.idempotencyKey = h.key) ∧ e = .integrity h.key ∧ L' = L := by
  unfold insertEntry at herr
  split_ifs at herr with hany
  cases herr
  obtain ⟨x, hx, hk⟩ := List.any_eq_true.mp hany
  exact ⟨⟨x, hx, by simpa using hk⟩, rfl, rfl⟩

/-- While the derived key is held by a reversed entry, every retry meets it again. -/
theorem postAttempts_stuck {event : PostingEvent} {pfx : Text} {lines : List GlJournalLine} {ovr : Bool}
    {L : Ledger} {c : GlJournalEntry}
    (hc : entryByKey L event.companyId (idempotencyKey pfx (computeSeq L event.companyId pfx)) = some c)
    (hrev : c.isPosted = false) : ∀ k, ∃ e, postAttempts event pfx lines ovr k true L = .error e L
  | 0 => ⟨_, rfl⟩
  | k + 1 => by
    obtain ⟨hmem, -, hkey⟩ := entryByKey_some hc
    have hany : L.entries.any (·.idempotencyKey == idempotencyKey pfx (computeSeq L event.companyId pfx)) = true :=
      List.any_eq_true.mpr ⟨c, hmem, by simpa using hkey⟩
    obtain ⟨e, he⟩ := postAttempts_stuck hc hrev k
    refine ⟨e, ?_⟩
    simp only [postAttempts, hc, Option.filter_some, hrev, if_true, pure_apply, insertEntry, hany]
    exact he

/-- The header of the entry a posting inserts under number `n`. -/
def PostingEvent.header (event : PostingEvent) (pfx : Text) (n : ℕ) : EntryHeader where
  companyId := event.companyId
  effectiveAt := event.effectiveAt
  sourceType := event.sourceType
  sourceId := event.sourceId
  key := idempotencyKey pfx n
  reversesEntryId := none
  createdBy := event.createdBy

/-- The two outcomes of a posting that returns: the live entry of the prefix and nothing written,
    or, when every entry of the prefix is reversed and the lock allows, one new entry. -/
inductive PostOutcome (event : PostingEvent) (pfx : Text) (lines : List GlJournalLine) (ovr : Bool)
    (L : Ledger) : GlJournalEntry → Ledger → Prop
  | replayed {e : GlJournalEntry} (mem : e ∈ prefixed L pfx) (posted : e.status = .posted)
      (company : e.companyId = event.companyId) : PostOutcome event pfx lines ovr L e L
  | inserted {M : Ledger}
      (checked : checkPeriodLock event.companyId event.effectiveAt ovr event.createdBy L = .ok () M)
      (dead : ∀ x ∈ prefixed L pfx, x.status = .reversed ∧ x.companyId = event.companyId)
      (free : ∀ x ∈ L.entries, x.idempotencyKey ≠ idempotencyKey pfx (prefixed L pfx).length) :
      PostOutcome event pfx lines ovr L ((event.header pfx (prefixed L pfx).length).entry M lines)
        (M.insertRow ((event.header pfx (prefixed L pfx).length).entry M lines))

theorem postAttempts_ok {event : PostingEvent} {pfx : Text} {lines : List GlJournalLine} {ovr : Bool}
    {L L' : Ledger} {e : GlJournalEntry} {k : ℕ} (hseq : Sequenced pfx (prefixed L pfx))
    (h : postAttempts event pfx lines ovr (k + 1) false L = .ok e L') :
    PostOutcome event pfx lines ovr L e L' := by
  simp only [postAttempts] at h
  cases hx : (entryByKey L event.companyId
      (idempotencyKey pfx (computeSeq L event.companyId pfx))).filter (·.isPosted) with
  | some x =>
    simp only [hx] at h
    cases h
    rw [Option.filter_eq_some_iff] at hx
    obtain ⟨hmem, hcomp, hkey⟩ := entryByKey_some hx.1
    refine .replayed (mem_prefixed.mpr ⟨hmem, ?_⟩) (by simpa using hx.2) hcomp
    rw [hkey]; exact prefix_idempotencyKey _ _
  | none =>
    simp only [hx] at h
    simp only [Bool.false_eq_true, if_false] at h
    cases hl : checkPeriodLock event.companyId event.effectiveAt ovr event.createdBy L with
    | error e' M => simp only [hl] at h; cases h
    | ok u M =>
      simp only [hl] at h
      obtain ⟨-, hent, -, -, -⟩ := checkPeriodLock_ok hl
      cases hi : insertEntry ⟨event.companyId, event.effectiveAt, event.sourceType, event.sourceId,
          idempotencyKey pfx (computeSeq L event.companyId pfx), none, event.createdBy⟩ lines M with
      | ok e' N =>
        simp only [hi] at h
        cases h
        obtain ⟨hfree, rfl, rfl⟩ := insertEntry_ok hi
        rw [hent] at hfree
        obtain ⟨hn, hdead⟩ := hseq.all_reversed hfree
        rw [hn] at hfree
        simp only [hn]
        exact .inserted hl hdead hfree
      | error e' N =>
        simp only [hi] at h
        obtain ⟨-, -, rfl⟩ := insertEntry_error hi
        -- the key is taken: by another company's entry, or by a reversed entry that stays in the way
        have hkeep : entryByKey N event.companyId = entryByKey L event.companyId := by
          unfold entryByKey; rw [hent]
        have hseqM : computeSeq N event.companyId pfx = computeSeq L event.companyId pfx := by
          unfold computeSeq; rw [hent]
        rw [hkeep] at h
        cases hc : entryByKey L event.companyId
            (idempotencyKey pfx (computeSeq L event.companyId pfx)) with
        | none => simp only [hc] at h; cases h
        | some c =>
          simp only [hc] at h hx
          rw [Option.filter_some] at hx
          have hrev : c.isPosted = false := by
            by_contra hp
            simp only [Bool.not_eq_false] at hp
            rw [if_pos hp] at hx
            cases hx
          simp only [hrev, Bool.false_eq_true, if_false] at h
          obtain ⟨e'', he''⟩ := postAttempts_stuck (L := N)
            (c := c) (by rw [hseqM, hkeep, hc]) hrev k
          rw [he''] at h
          cases h

/-! ### The invariant is kept -/

/-- The invariant reads entries, accounts and the id supply only. -/
theorem JournalInv.congr {H : ContentHash} {L M : Ledger} (h : JournalInv H L)
    (he : M.entries = L.entries) (ha : M.accounts = L.accounts) (hn : M.nextId = L.nextId) :
    JournalInv H M := by
  have hp : ∀ pfx, prefixed M pfx = prefixed L pfx := fun pfx => by unfold prefixed; rw [he]
  constructor
  · rw [he, hn]; exact h.id_lt
  · rw [he]; exact h.id_nodup
  · rw [he]; exact h.key_nodup
  · rw [ha, hn]; exact h.account_lt
  · rw [ha]; exact h.account_nodup
  · rw [he, ha]; exact h.account_known
  · rw [he]; exact h.balanced
  · intro st sid ev hh hv; rw [hp]; exact h.sequenced st sid ev hh hv
  · rw [he]; exact h.shaped
  · rw [he]; exact h.reversed_linked

theorem JournalInv.grow {H : ContentHash} {L M : Ledger} (h : JournalInv H L) (hg : ChartGrows L M) :
    JournalInv H M := by
  obtain ⟨added, hadd, hbnd, hpair⟩ := hg.accounts
  have hp : ∀ pfx, prefixed M pfx = prefixed L pfx := fun pfx => by unfold prefixed; rw [hg.entries]
  have hle := hg.nextId_le
  refine ⟨?_, ?_, ?_, ?_, ?_, ?_, ?_, ?_, ?_, ?_⟩
  · intro e he
    rw [hg.entries] at he
    exact lt_of_lt_of_le (h.id_lt e he) hle
  · rw [hg.entries]; exact h.id_nodup
  · rw [hg.entries]; exact h.key_nodup
  · intro a ha
    rw [hadd] at ha
    rcases List.mem_append.mp ha with ha | ha
    · exact lt_of_lt_of_le (h.account_lt a ha) hle
    · exact (hbnd a ha).2
  · rw [hadd, List.map_append]
    refine List.nodup_append.mpr ⟨h.account_nodup, ?_, ?_⟩
    · exact List.pairwise_map.mpr (hpair.imp fun hab => Nat.ne_of_lt hab)
    · intro i hi j hj
      obtain ⟨a, ha, rfl⟩ := List.mem_map.mp hi
      obtain ⟨b, hb, rfl⟩ := List.mem_map.mp hj
      have h1 := h.account_lt a ha
      have h2 := (hbnd b hb).1
      omega
  · intro e he l hl
    rw [hg.entries] at he
    obtain ⟨a, ha, hid⟩ := h.account_known e he l hl
    exact ⟨a, hg.mem ha, hid⟩
  · rw [hg.entries]; exact h.balanced
  · intro st sid ev hh hv; rw [hp]; exact h.sequenced st sid ev hh hv
  · rw [hg.entries]; exact h.shaped
  · rw [hg.entries]; exact h.reversed_linked

theorem prefixed_insertRow (L : Ledger) (e : GlJournalEntry) (pfx : Text) :
    prefixed (L.insertRow e) pfx =
      prefixed L pfx ++ if pfx ++ [':'] <+: e.idempotencyKey then [e] else [] := by
  unfold prefixed Ledger.insertRow
  rw [List.filter_append]
  by_cases hp : pfx ++ [':'] <+: e.idempotencyKey <;> simp [hp]

theorem Sequenced.snoc {pfx : Text} {es : List GlJournalEntry} {e : GlJournalEntry} (h : Sequenced pfx es)
    (hdead : ∀ x ∈ es, x.status = .reversed ∧ x.companyId = e.companyId)
    (hkey : e.idempotencyKey = idempotencyKey pfx es.length) : Sequenced pfx (es ++ [e]) := by
  refine ⟨?_, ?_, ?_⟩
  · simp [List.range_succ, h.numbered, hkey]
  · intro x hx
    rw [List.dropLast_concat] at hx
    exact (hdead x hx).1
  · intro x hx y hy
    have hcomp : ∀ z ∈ es ++ [e], z.companyId = e.companyId := by
      intro z hz
      rcases List.mem_append.mp hz with hz | hz
      · exact (hdead z hz).2
      · rw [List.mem_singleton.mp hz]
    rw [hcomp x hx, hcomp y hy]

/-- Inserting an event entry under the next number of a prefix without a live entry. -/
theorem JournalInv.insert_event {H : ContentHash} {L : Ledger} (h : JournalInv H L) {e : GlJournalEntry}
    {ev : Text} {extra : List (Text × Text)} {pfx : Text}
    (hpfx : pfx = joinPrefix e.sourceType e.sourceId ev (H.digest (contentOf e.effectiveAt e.lines extra)))
    (hshape : EventShaped H e ev (prefixed L pfx).length extra)
    (hid : e.id = L.nextId) (hpost : e.status = .posted) (hbal : Balanced e.lines)
    (hknown : ∀ l ∈ e.lines, ∃ a ∈ L.accounts, a.id = l.accountId)
    (hdead : ∀ x ∈ prefixed L pfx, x.status = .reversed ∧ x.companyId = e.companyId)
    (hfree : ∀ x ∈ L.entries, x.idempotencyKey ≠ e.idempotencyKey) :
    JournalInv H (L.insertRow e) := by
  have hmem : ∀ x, x ∈ (L.insertRow e).entries ↔ x ∈ L.entries ∨ x = e := by
    intro x; simp [Ledger.insertRow]
  refine ⟨?_, ?_, ?_, ?_, h.account_nodup, ?_, ?_, ?_, ?_, ?_⟩
  · intro x hx
    rcases (hmem x).mp hx with hx | rfl
    · exact Nat.lt_succ_of_lt (h.id_lt x hx)
    · rw [hid]; exact Nat.lt_succ_self _
  · simp only [Ledger.insertRow, List.map_append, List.map_cons, List.map_nil]
    refine List.nodup_append.mpr ⟨h.id_nodup, List.nodup_singleton _, ?_⟩
    intro i hi j hj
    obtain ⟨x, hx, rfl⟩ := List.mem_map.mp hi
    rw [List.mem_singleton] at hj
    have hlt := h.id_lt x hx
    omega
  · simp only [Ledger.insertRow, List.map_append, List.map_cons, List.map_nil]
    refine List.nodup_append.mpr ⟨h.key_nodup, List.nodup_singleton _, ?_⟩
    intro i hi j hj
    obtain ⟨x, hx, rfl⟩ := List.mem_map.mp hi
    rw [List.mem_singleton.mp hj]
    exact hfree x hx
  · intro a ha
    exact Nat.lt_succ_of_lt (h.account_lt a ha)
  · intro x hx l hl
    rcases (hmem x).mp hx with hx | rfl
    · exact h.account_known x hx l hl
    · exact hknown l hl
  · intro x hx
    rcases (hmem x).mp hx with hx | rfl
    · exact h.balanced x hx
    · exact hbal
  · intro st sid ev' hh hv
    rw [prefixed_insertRow]
    have hs := h.sequenced st sid ev' hh hv
    have hkey := hshape.key
    rw [← hpfx] at hkey
    by_cases hp : joinPrefix st sid ev' hh ++ [':'] <+: e.idempotencyKey
    · -- the new entry is under this prefix, so the prefix is the new entry's own
      rw [if_pos hp]
      rw [hkey, hpfx, prefix_eventKey_iff hv hshape.valid] at hp
      obtain ⟨rfl, rfl, rfl, rfl⟩ := hp
      rw [← hpfx] at hs ⊢
      exact hs.snoc hdead hkey
    · rw [if_neg hp, List.append_nil]
      exact hs
  · intro x hx
    rcases (hmem x).mp hx with hx | rfl
    · rcases h.shaped x hx with hs | ⟨o, ho, hrev, hm⟩
      · exact Or.inl hs
      · exact Or.inr ⟨o, (hmem o).mpr (Or.inl ho), hrev, hm⟩
    · exact Or.inl ⟨ev, _, extra, hshape⟩
  · intro x hx hrev
    rcases (hmem x).mp hx with hx | rfl
    · obtain ⟨r, hr, hm⟩ := h.reversed_linked x hx hrev
      exact ⟨r, (hmem r).mpr (Or.inl hr), hm⟩
    · rw [hpost] at hrev; cases hrev

theorem raising_ok {α : Type} {x : Except LedgerError α} {L L' : Ledger} {a : α} :
    raising x L = .ok a L' ↔ x = .ok a ∧ L' = L := by
  unfold raising
  cases x with
  | ok b =>
    constructor
    · intro h; cases h; exact ⟨rfl, rfl⟩
    · rintro ⟨h, rfl⟩; cases h; rfl
  | error e =>
    constructor
    · intro h; cases h
    · rintro ⟨h, -⟩; cases h

/-- What a posting that returns did, from the first chart top-up to the insert. -/
theorem postForEvent_ok {H : ContentHash} {event : PostingEvent} {ovr : Bool} {L L' : Ledger}
    {e : GlJournalEntry} (hinv : JournalInv H L) (h : postForEvent H event ovr L = .ok e L') :
    ∃ M rs, validateBalance event.lines = .ok () ∧
      resolveLines event.companyId event.lines L = .ok rs M ∧
      ValidPrefix event.sourceType event.sourceId event.event
        (H.digest (contentOf event.effectiveAt rs event.extraContent)) ∧
      PostOutcome event (joinPrefix event.sourceType event.sourceId event.event
        (H.digest (contentOf event.effectiveAt rs event.extraContent))) rs ovr M e L' := by
  rw [postForEvent, bind_ok] at h
  obtain ⟨u, L₁, hval, h⟩ := h
  rw [bind_ok] at h
  obtain ⟨rs, M, hres, h⟩ := h
  rw [bind_ok] at h
  obtain ⟨pfx, M', hpfx, h⟩ := h
  obtain ⟨hv, rfl⟩ := raising_ok.mp hval
  obtain ⟨hk, rfl⟩ := raising_ok.mp hpfx
  obtain ⟨hvp, rfl⟩ := (keyPrefix_ok (H.no_colon _)).mp hk
  exact ⟨_, rs, hv, hres, hvp,
    postAttempts_ok ((hinv.grow (resolveLines_ok hres).grows).sequenced _ _ _ _ hvp) h⟩

theorem PostOutcome.inv {H : ContentHash} {event : PostingEvent} {ovr : Bool} {L M L' : Ledger}
    {e : GlJournalEntry} {rs : List GlJournalLine} (hinv : JournalInv H M)
    (hv : validateBalance event.lines = .ok ()) (hr : Resolved L M event.lines rs)
    (hp : ValidPrefix event.sourceType event.sourceId event.event
      (H.digest (contentOf event.effectiveAt rs event.extraContent)))
    (h : PostOutcome event (joinPrefix event.sourceType event.sourceId event.event
      (H.digest (contentOf event.effectiveAt rs event.extraContent))) rs ovr M e L') :
    JournalInv H L' := by
  cases h with
  | replayed => exact hinv
  | @inserted N checked dead free =>
    obtain ⟨hacc, hent, -, hnext, -⟩ := checkPeriodLock_ok checked
    have hinvN := hinv.congr hent hacc hnext
    have hpN : ∀ q, prefixed N q = prefixed M q := fun q => by unfold prefixed; rw [hent]
    refine hinvN.insert_event rfl
      ⟨rfl, hp, by rw [hpN]; rfl⟩ rfl rfl (balanced_of_resolved hv hr) ?_ ?_ ?_
    · intro l hl
      obtain ⟨a, ha, hid⟩ := hr.known l hl
      exact ⟨a, by rw [hacc]; exact ha, hid⟩
    · intro x hx
      rw [hpN] at hx
      exact dead x hx
    · intro x hx
      rw [hent] at hx
      exact free x hx

theorem postForEvent_inv {H : ContentHash} {event : PostingEvent} {ovr : Bool} {L L' : Ledger}
    {e : GlJournalEntry} (hinv : JournalInv H L) (h : postForEvent H event ovr L = .ok e L') :
    JournalInv H L' := by
  obtain ⟨M, rs, hv, hres, hp, hout⟩ := postForEvent_ok hinv h
  have hr := resolveLines_ok hres
  exact hout.inv (hinv.grow hr.grows) hv hr hp

/-! ### What a reversal does -/

/-- The header of the mirror entry of `e`. -/
def GlJournalEntry.reversalHeader (e : GlJournalEntry) (when' : ℤ) (createdBy : Option Text) : EntryHeader where
  companyId := e.companyId
  effectiveAt := when'
  sourceType := e.sourceType
  sourceId := e.sourceId
  key := reversalKey e.id
  reversesEntryId := some e.id
  createdBy := createdBy

/-- The mirror entry of `e` on top of `L`. -/
def GlJournalEntry.reversal (e : GlJournalEntry) (L : Ledger) (when' : ℤ) (createdBy : Option Text) :
    GlJournalEntry :=
  (e.reversalHeader when' createdBy).entry L (e.lines.map (·.mirror e.entryNo))

/-- The two outcomes of a reversal that returns: the entry was reversed before and nothing is
    written, or the mirror entry is inserted and the original marked. -/
inductive ReverseOutcome (id : ℕ) (at' : Option ℤ) (by' : Option Text) (ovr : Bool) (L : Ledger) :
    GlJournalEntry → Ledger → Prop
  | already {e r : GlJournalEntry} (mem : e ∈ L.entries) (eid : e.id = id) (rev : e.status = .reversed)
      (rmem : r ∈ L.entries) (link : e.reversedByEntryId = some r.id) :
      ReverseOutcome id at' by' ovr L r L
  | mirrored {e : GlJournalEntry} {M : Ledger} (mem : e ∈ L.entries) (eid : e.id = id)
      (posted : e.status = .posted)
      (checked : checkPeriodLock e.companyId (at'.getD e.effectiveAt) ovr by' L = .ok () M) :
      ReverseOutcome id at' by' ovr L (e.reversal M (at'.getD e.effectiveAt) by')
        ((M.insertRow (e.reversal M (at'.getD e.effectiveAt) by')).markReversed e.id
          (e.reversal M (at'.getD e.effectiveAt) by').id)

theorem entryById_some {L : Ledger} {id : ℕ} {e : GlJournalEntry} (h : L.entryById id = some e) :
    e ∈ L.entries ∧ e.id = id :=
  ⟨List.mem_of_find?_eq_some h, by simpa using List.find?_some h⟩

theorem JournalInv.eq_of_id {H : ContentHash} {L : Ledger} (h : JournalInv H L) {a b : GlJournalEntry}
    (ha : a ∈ L.entries) (hb : b ∈ L.entries) (hid : a.id = b.id) : a = b :=
  List.inj_on_of_nodup_map h.id_nodup ha hb hid

theorem JournalInv.eq_of_key {H : ContentHash} {L : Ledger} (h : JournalInv H L) {a b : GlJournalEntry}
    (ha : a ∈ L.entries) (hb : b ∈ L.entries) (hkey : a.idempotencyKey = b.idempotencyKey) : a = b :=
  List.inj_on_of_nodup_map h.key_nodup ha hb hkey

theorem JournalInv.entryById {H : ContentHash} {L : Ledger} (h : JournalInv H L) {e : GlJournalEntry}
    (he : e ∈ L.entries) : L.entryById e.id = some e := by
  cases hf : L.entryById e.id with
  | none =>
    have hno := List.find?_eq_none.mp hf e he
    simp at hno
  | some x =>
    obtain ⟨hx, hid⟩ := entryById_some hf
    rw [h.eq_of_id hx he hid]

/-- The reversal key of a posted entry is free. -/
theorem JournalInv.reversalKey_free {H : ContentHash} {L : Ledger} (h : JournalInv H L)
    {e : GlJournalEntry} (he : e ∈ L.entries) (hp : e.status = .posted) :
    ∀ x ∈ L.entries, x.idempotencyKey ≠ reversalKey e.id := by
  intro x hx hk
  rcases h.shaped x hx with ⟨ev, n, extra, hs⟩ | ⟨o, ho, hrev, hm⟩
  · exact eventKey_ne_reversalKey hs.valid n e.id (hs.key ▸ hk)
  · have hid : o.id = e.id := reversalKey_inj (hm.key ▸ hk)
    have hoe := h.eq_of_id ho he hid
    rw [hoe, hp] at hrev
    cases hrev

theorem reverseEntry_ok {H : ContentHash} {id : ℕ} {at' : Option ℤ} {by' : Option Text} {ovr : Bool}
    {L L' : Ledger} {r : GlJournalEntry} (hinv : JournalInv H L)
    (h : reverseEntry id at' by' ovr L = .ok r L') : ReverseOutcome id at' by' ovr L r L' := by
  unfold reverseEntry at h
  cases hf : L.entryById id with
  | none => simp only [hf] at h; cases h
  | some e =>
    obtain ⟨hmem, hid⟩ := entryById_some hf
    simp only [hf] at h
    by_cases hrev : e.status = .reversed
    · rw [if_pos hrev] at h
      cases hb : e.reversedByEntryId.bind L.entryById with
      | none => simp only [hb] at h; cases h
      | some x =>
        simp only [hb] at h
        cases h
        obtain ⟨rid, hrid, hx⟩ := Option.bind_eq_some_iff.mp hb
        obtain ⟨hxm, hxid⟩ := entryById_some hx
        exact .already hmem hid hrev hxm (by rw [hrid, hxid])
    · rw [if_neg hrev] at h
      have hpost : e.status = .posted := by
        cases hs : e.status with
        | posted => rfl
        | reversed => exact absurd hs hrev
      cases hl : checkPeriodLock e.companyId (at'.getD e.effectiveAt) ovr by' L with
      | error e' M => simp only [hl] at h; cases h
      | ok u M =>
        simp only [hl] at h
        obtain ⟨-, hent, -, -, -⟩ := checkPeriodLock_ok hl
        cases hi : insertEntry ⟨e.companyId, at'.getD e.effectiveAt, e.sourceType, e.sourceId,
            reversalKey e.id, some e.id, by'⟩ (e.lines.map (·.mirror e.entryNo)) M with
        | ok r' N =>
          simp only [hi] at h
          obtain ⟨-, rfl, rfl⟩ := insertEntry_ok hi
          cases h
          exact .mirrored hmem hid hpost hl
        | error e' N =>
          obtain ⟨⟨x, hx, hk⟩, -, -⟩ := insertEntry_error hi
          rw [hent] at hx
          exact absurd hk (hinv.reversalKey_free hmem hpost x hx)

/-- The rows of `(L + r)` with `id` marked reversed. -/
theorem mem_mirrored {L : Ledger} {r x : GlJournalEntry} {id rid : ℕ} :
    x ∈ ((L.insertRow r).markReversed id rid).entries ↔
      (∃ y ∈ L.entries, x = if y.id = id then y.marked rid else y) ∨
        x = if r.id = id then r.marked rid else r := by
  simp only [Ledger.markReversed, Ledger.insertRow, List.map_append, List.mem_append, List.mem_map,
    List.map_cons, List.map_nil, List.mem_singleton]
  constructor
  · rintro (⟨y, hy, rfl⟩ | rfl)
    · exact Or.inl ⟨y, hy, rfl⟩
    · exact Or.inr rfl
  · rintro (⟨y, hy, rfl⟩ | rfl)
    · exact Or.inl ⟨y, hy, rfl⟩
    · exact Or.inr rfl

/-- Marking changes no key: the entries under a prefix are the old ones, marked. -/
theorem prefixed_mirrored {L : Ledger} {r : GlJournalEntry} {id rid : ℕ} {pfx : Text}
    (hr : ¬ pfx ++ [':'] <+: r.idempotencyKey) :
    prefixed ((L.insertRow r).markReversed id rid) pfx =
      (prefixed L pfx).map fun y => if y.id = id then y.marked rid else y := by
  have hkey : ∀ y : GlJournalEntry,
      (if y.id = id then y.marked rid else y).idempotencyKey = y.idempotencyKey := by
    intro y; split_ifs <;> rfl
  have hcomp : ((fun e : GlJournalEntry => decide (pfx ++ [':'] <+: e.idempotencyKey)) ∘
      fun y => if y.id = id then y.marked rid else y) =
      fun e => decide (pfx ++ [':'] <+: e.idempotencyKey) := by
    funext y
    simp only [Function.comp_apply, hkey]
  unfold prefixed Ledger.markReversed Ledger.insertRow
  rw [List.filter_map, hcomp, List.filter_append]
  simp [hr]

/-- Inserting the mirror of a posted entry and marking the entry. -/
theorem JournalInv.insert_mirror {H : ContentHash} {L : Ledger} (h : JournalInv H L) {e : GlJournalEntry}
    (he : e ∈ L.entries) (hpost : e.status = .posted) (when' : ℤ) (by' : Option Text) :
    JournalInv H ((L.insertRow (e.reversal L when' by')).markReversed e.id (e.reversal L when' by').id) := by
  set r := e.reversal L when' by' with hr
  have hrid : r.id = L.nextId := rfl
  have hne : r.id ≠ e.id := by rw [hrid]; exact (Nat.ne_of_lt (h.id_lt e he)).symm
  have hfree := h.reversalKey_free he hpost
  -- every row is an old row, marked if it is `e`, or the mirror entry
  have hmem : ∀ x, x ∈ ((L.insertRow r).markReversed e.id r.id).entries ↔
      (∃ y ∈ L.entries, x = if y.id = e.id then y.marked r.id else y) ∨ x = r := by
    intro x
    rw [mem_mirrored, if_neg hne]
  have hids : ((L.insertRow r).markReversed e.id r.id).entries.map (·.id) = L.entries.map (·.id) ++ [r.id] := by
    simp only [Ledger.markReversed, Ledger.insertRow, List.map_map, List.map_append, List.map_cons, List.map_nil]
    have hfun : ((fun x : GlJournalEntry => x.id) ∘ fun y => if y.id = e.id then y.marked r.id else y) =
        fun x => x.id := by
      funext y; simp only [Function.comp_apply]; split_ifs <;> rfl
    rw [hfun]
    simp only [if_neg hne]
  have hkeys : ((L.insertRow r).markReversed e.id r.id).entries.map (·.idempotencyKey) =
      L.entries.map (·.idempotencyKey) ++ [r.idempotencyKey] := by
    simp only [Ledger.markReversed, Ledger.insertRow, List.map_map, List.map_append, List.map_cons, List.map_nil]
    have hfun : ((fun x : GlJournalEntry => x.idempotencyKey) ∘
        fun y => if y.id = e.id then y.marked r.id else y) = fun x => x.idempotencyKey := by
      funext y; simp only [Function.comp_apply]; split_ifs <;> rfl
    rw [hfun]
    simp only [if_neg hne]
  have hmarked : e.marked r.id ∈ ((L.insertRow r).markReversed e.id r.id).entries :=
    (hmem _).mpr (Or.inl ⟨e, he, by rw [if_pos rfl]⟩)
  have hmirrors : Mirrors r (e.marked r.id) := ⟨rfl, rfl, rfl, rfl, rfl, rfl, rfl⟩
  refine ⟨?_, ?_, ?_, ?_, h.account_nodup, ?_, ?_, ?_, ?_, ?_⟩
  · intro x hx
    rcases (hmem x).mp hx with ⟨y, hy, rfl⟩ | rfl
    · have hlt := Nat.lt_succ_of_lt (h.id_lt y hy)
      split_ifs <;> exact hlt
    · exact Nat.lt_succ_self _
  · rw [hids]
    refine List.nodup_append.mpr ⟨h.id_nodup, List.nodup_singleton _, ?_⟩
    intro i hi j hj
    obtain ⟨y, hy, rfl⟩ := List.mem_map.mp hi
    rw [List.mem_singleton.mp hj, hrid]
    exact Nat.ne_of_lt (h.id_lt y hy)
  · rw [hkeys]
    refine List.nodup_append.mpr ⟨h.key_nodup, List.nodup_singleton _, ?_⟩
    intro i hi j hj
    obtain ⟨y, hy, rfl⟩ := List.mem_map.mp hi
    rw [List.mem_singleton.mp hj]
    exact hfree y hy
  · intro a ha
    exact Nat.lt_succ_of_lt (h.account_lt a ha)
  · intro x hx l hl
    rcases (hmem x).mp hx with ⟨y, hy, rfl⟩ | rfl
    · have hlines : l ∈ y.lines := by split_ifs at hl <;> exact hl
      exact h.account_known y hy l hlines
    · obtain ⟨l', hl', rfl⟩ := List.mem_map.mp hl
      exact h.account_known e he l' hl'
  · intro x hx
    rcases (hmem x).mp hx with ⟨y, hy, rfl⟩ | rfl
    · have hbal := h.balanced y hy
      split_ifs <;> exact hbal
    · exact (h.balanced e he).mirror e.entryNo
  · intro st sid ev hh hv
    have hs := h.sequenced st sid ev hh hv
    rw [prefixed_mirrored (not_prefix_reversalKey hv e.id)]
    refine ⟨?_, ?_, ?_⟩
    · rw [List.map_map, List.length_map, ← hs.numbered]
      refine List.map_congr_left fun y _ => ?_
      simp only [Function.comp_apply]
      split_ifs <;> rfl
    · intro x hx
      rw [← List.map_dropLast] at hx
      obtain ⟨y, hy, rfl⟩ := List.mem_map.mp hx
      have hrev := hs.reversed y hy
      split_ifs
      · rfl
      · exact hrev
    · intro x hx x' hx'
      obtain ⟨y, hy, rfl⟩ := List.mem_map.mp hx
      obtain ⟨y', hy', rfl⟩ := List.mem_map.mp hx'
      have hc := hs.company y hy y' hy'
      split_ifs <;> exact hc
  · intro x hx
    rcases (hmem x).mp hx with ⟨y, hy, rfl⟩ | rfl
    · rcases h.shaped y hy with ⟨ev, n, extra, hsh⟩ | ⟨o, ho, hrev, hm⟩
      · refine Or.inl ⟨ev, n, extra, ?_⟩
        split_ifs
        · exact ⟨hsh.not_reversal, hsh.valid, hsh.key⟩
        · exact hsh
      · -- the original of an older mirror entry was reversed before, so it is not `e`
        have hoe : o.id ≠ e.id := by
          intro hid
          rw [h.eq_of_id ho he hid, hpost] at hrev
          cases hrev
        refine Or.inr ⟨o, (hmem o).mpr (Or.inl ⟨o, ho, by rw [if_neg hoe]⟩), hrev, ?_⟩
        split_ifs
        · exact ⟨hm.reverses, hm.linked, hm.key, hm.sourceType, hm.sourceId, hm.companyId, hm.lines⟩
        · exact hm
    · exact Or.inr ⟨_, hmarked, rfl, hmirrors⟩
  · intro x hx hrev
    rcases (hmem x).mp hx with ⟨y, hy, rfl⟩ | rfl
    · by_cases hye : y.id = e.id
      · rw [h.eq_of_id hy he hye, if_pos rfl]
        exact ⟨r, (hmem r).mpr (Or.inr rfl), hmirrors⟩
      · rw [if_neg hye] at hrev ⊢
        obtain ⟨z, hz, hm⟩ := h.reversed_linked y hy hrev
        refine ⟨_, (hmem _).mpr (Or.inl ⟨z, hz, rfl⟩), ?_⟩
        split_ifs
        · exact ⟨hm.reverses, hm.linked, hm.key, hm.sourceType, hm.sourceId, hm.companyId, hm.lines⟩
        · exact hm
    · cases hrev

theorem reverseEntry_inv {H : ContentHash} {id : ℕ} {at' : Option ℤ} {by' : Option Text} {ovr : Bool}
    {L L' : Ledger} {r : GlJournalEntry} (hinv : JournalInv H L)
    (h : reverseEntry id at' by' ovr L = .ok r L') : JournalInv H L' := by
  cases reverseEntry_ok hinv h with
  | already => exact hinv
  | @mirrored e M mem eid posted checked =>
    obtain ⟨hacc, hent, -, hnext, -⟩ := checkPeriodLock_ok checked
    exact (hinv.congr hent hacc hnext).insert_mirror (by rw [hent]; exact mem) posted _ _

end Gdx
