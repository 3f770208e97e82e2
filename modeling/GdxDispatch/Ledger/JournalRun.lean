import GdxDispatch.Ledger.Journal

/-! Every reachable journal is well formed.

    A run is any sequence of postings, reversals (of reversals too) and new period locks. Beside the
    ledger it keeps a birth record for each entry: whether the call that inserted it asserted the
    lock override, and which lock was in force then. A call that raises keeps what it wrote before
    raising, so the run lemma is about the state a call leaves, not about calls that return. -/

namespace Gdx
open Lib

/-- One call against the ledger. -/
inductive JournalOp where
  | post (event : PostingEvent) (overrideLock : Bool)
  | reverse (entryId : ℕ) (effectiveAt : Option ℤ) (createdBy : Option Text) (overrideLock : Bool)
  | lock (period : GlPeriodLock)

/-- How an entry was born. -/
structure Birth where
  entryId : ℕ
  overrideLock : Bool
  lockThen : Option ℤ

/-- The ledger with the birth record of each of its entries. -/
structure Book where
  ledger : Ledger
  births : List Birth

/-- The ledger a call leaves, returning or raising. -/
def JournalOp.ledgerAfter (H : ContentHash) : JournalOp → Ledger → Ledger
  | .post event ovr, L => after (postForEvent H event ovr) L
  | .reverse id at' by' ovr, L => after (reverseEntry id at' by' ovr) L
  | .lock period, L => { L with locks := L.locks ++ [period] }

def JournalOp.overrides : JournalOp → Bool
  | .post _ ovr => ovr
  | .reverse _ _ _ ovr => ovr
  | .lock _ => false

def Book.step (H : ContentHash) (B : Book) (op : JournalOp) : Book where
  ledger := op.ledgerAfter H B.ledger
  births := B.births ++ ((op.ledgerAfter H B.ledger).entries.drop B.ledger.entries.length).map
    fun e => ⟨e.id, op.overrides, B.ledger.latestLock e.companyId⟩

def Book.run (H : ContentHash) (B : Book) (ops : List JournalOp) : Book := ops.foldl (Book.step H) B

/-! ### A raised call writes no entry -/

/-- Nothing but the override audit moved. -/
structure AuditOnly (L L' : Ledger) : Prop where
  entries : L'.entries = L.entries
  accounts : L'.accounts = L.accounts
  locks : L'.locks = L.locks
  nextId : L'.nextId = L.nextId

theorem AuditOnly.refl (L : Ledger) : AuditOnly L L := ⟨rfl, rfl, rfl, rfl⟩

theorem AuditOnly.trans {L M N : Ledger} (h : AuditOnly L M) (h' : AuditOnly M N) : AuditOnly L N :=
  ⟨h'.entries.trans h.entries, h'.accounts.trans h.accounts, h'.locks.trans h.locks,
    h'.nextId.trans h.nextId⟩

theorem checkPeriodLock_audit (company : ℕ) (at' : ℤ) (ovr : Bool) (by' : Option Text) (L : Ledger) :
    AuditOnly L (after (checkPeriodLock company at' ovr by') L) := by
  cases h : checkPeriodLock company at' ovr by' L with
  | ok u L' =>
    rw [after_ok h]
    obtain ⟨h1, h2, h3, h4, -⟩ := checkPeriodLock_ok h
    exact ⟨h2, h1, h3, h4⟩
  | error e L' =>
    rw [after_error h, (checkPeriodLock_error h).1]
    exact .refl L

theorem insertEntry_error_audit {h : EntryHeader} {lines : List GlJournalLine} {L L' : Ledger}
    {e : LedgerError} (herr : insertEntry h lines L = .error e L') : AuditOnly L L' := by
  rw [(insertEntry_error herr).2.2]
  exact .refl L

theorem postAttempts_error {event : PostingEvent} {pfx : Text} {lines : List GlJournalLine} {ovr : Bool}
    {e : LedgerError} : ∀ (k : ℕ) (lc : Bool) (L L' : Ledger),
    postAttempts event pfx lines ovr k lc L = .error e L' → AuditOnly L L'
  | 0, lc, L, L', h => by
    cases h
    exact .refl L
  | k + 1, lc, L, L', h => by
    simp only [postAttempts] at h
    split at h
    · cases h
    · split at h
      · next e' M hl =>
        cases h
        by_cases hlc : lc = true
        · rw [if_pos hlc] at hl; cases hl
        · rw [if_neg hlc] at hl
          have ha := checkPeriodLock_audit event.companyId event.effectiveAt ovr event.createdBy L
          rwa [after_error hl] at ha
      · next M hl =>
        have hLM : AuditOnly L M := by
          by_cases hlc : lc = true
          · rw [if_pos hlc] at hl; cases hl; exact .refl L
          · rw [if_neg hlc] at hl
            have ha := checkPeriodLock_audit event.companyId event.effectiveAt ovr event.createdBy L
            rwa [after_ok hl] at ha
        split at h
        · cases h
        · next e' N hi =>
          have hMN := insertEntry_error_audit hi
          split at h
          · cases h; exact hLM.trans hMN
          · split_ifs at h
            exact (hLM.trans hMN).trans (postAttempts_error k true N L' h)

theorem resolveLine_grows (company : ℕ) (line : PostingLine) (L : Ledger) :
    ChartGrows L (after (resolveLine company line) L) := by
  cases h : resolveLine company line L with
  | ok id L' => rw [after_ok h]; exact (resolveLine_ok h).1
  | error e L' =>
    rw [after_error h]
    unfold resolveLine at h
    cases hr : line.role with
    | some role =>
      simp only [hr] at h
      rw [bind_error] at h
      rcases h with h | ⟨a, M, -, h⟩
      · have hg := ensureRoleAccount_grows company role L
        rwa [after_error h] at hg
      · cases h
    | none =>
      simp only [hr, resolveAccountId] at h
      split at h
      · cases h; exact .refl L
      · split_ifs at h <;> (cases h; exact .refl L)

theorem resolveLines_error {company : ℕ} {e : LedgerError} : ∀ {lines : List PostingLine} {L L' : Ledger},
    resolveLines company lines L = .error e L' → ChartGrows L L'
  | [], L, L', h => by cases h
  | line :: lines, L, L', h => by
    rw [resolveLines, bind_error] at h
    have hg := resolveLine_grows company line L
    rcases h with h | ⟨id, M, hid, h⟩
    · rwa [after_error h] at hg
    · rw [after_ok hid] at hg
      rw [bind_error] at h
      rcases h with h | ⟨rest, N, -, h⟩
      · exact hg.trans (resolveLines_error h)
      · cases h

theorem raising_state {α : Type} (x : Except LedgerError α) (L : Ledger) : after (raising x) L = L := by
  unfold after raising
  cases x <;> rfl

/-- A posting that raises leaves the entries as they were; at most the chart grew and an override
    was recorded. -/
theorem postForEvent_error {H : ContentHash} {event : PostingEvent} {ovr : Bool} {L L' : Ledger}
    {e : LedgerError} (h : postForEvent H event ovr L = .error e L') :
    ∃ M, ChartGrows L M ∧ AuditOnly M L' := by
  rw [postForEvent, bind_error] at h
  rcases h with h | ⟨u, L₁, hval, h⟩
  · have hs := raising_state (validateBalance event.lines) L
    rw [after_error h] at hs
    exact ⟨L, .refl L, hs ▸ .refl L⟩
  have hs := raising_state (validateBalance event.lines) L
  rw [after_ok hval] at hs
  subst hs
  rw [bind_error] at h
  rcases h with h | ⟨rs, M, hres, h⟩
  · exact ⟨L', resolveLines_error h, .refl _⟩
  have hg := (resolveLines_ok hres).grows
  rw [bind_error] at h
  rcases h with h | ⟨pfx, M', hpfx, h⟩
  · have hk := raising_state (keyPrefix event.sourceType event.sourceId event.event
      (H.digest (contentOf event.effectiveAt rs event.extraContent))) M
    rw [after_error h] at hk
    exact ⟨M, hg, hk ▸ .refl M⟩
  have hk := raising_state (keyPrefix event.sourceType event.sourceId event.event
    (H.digest (contentOf event.effectiveAt rs event.extraContent))) M
  rw [after_ok hpfx] at hk
  subst hk
  exact ⟨_, hg, postAttempts_error _ _ _ _ h⟩

theorem reverseEntry_error {H : ContentHash} {id : ℕ} {at' : Option ℤ} {by' : Option Text} {ovr : Bool}
    {L L' : Ledger} {e : LedgerError} (hinv : JournalInv H L)
    (h : reverseEntry id at' by' ovr L = .error e L') : L' = L := by
  unfold reverseEntry at h
  cases hf : L.entryById id with
  | none => simp only [hf] at h; cases h; rfl
  | some x =>
    obtain ⟨hmem, -⟩ := entryById_some hf
    simp only [hf] at h
    by_cases hrev : x.status = .reversed
    · rw [if_pos hrev] at h
      split at h
      · cases h; rfl
      · cases h
    · rw [if_neg hrev] at h
      have hpost : x.status = .posted := by
        cases hs : x.status with
        | posted => rfl
        | reversed => exact absurd hs hrev
      cases hl : checkPeriodLock x.companyId (at'.getD x.effectiveAt) ovr by' L with
      | error e' M =>
        simp only [hl] at h
        cases h
        exact (checkPeriodLock_error hl).1
      | ok u M =>
        simp only [hl] at h
        obtain ⟨-, hent, -, -, -⟩ := checkPeriodLock_ok hl
        split at h
        · cases h
        · next e' N hi =>
          obtain ⟨⟨y, hy, hk⟩, -, -⟩ := insertEntry_error hi
          rw [hent] at hy
          exact absurd hk (hinv.reversalKey_free hmem hpost y hy)

/-! ### Steps and runs -/

/-- What never changes on an entry. -/
def GlJournalEntry.birthDate (e : GlJournalEntry) : ℕ × ℤ := (e.id, e.effectiveAt)

/-- A call keeps the id and the date of the entries there are, and adds entries the lock allows. -/
structure StepAdds (L L' : Ledger) (ovr : Bool) (added : List GlJournalEntry) : Prop where
  kept : L'.entries.map (·.birthDate) = L.entries.map (·.birthDate) ++ added.map (·.birthDate)
  dropped : L'.entries.drop L.entries.length = added
  allowed : ovr = false → ∀ e ∈ added, ∀ d, L.latestLock e.companyId = some d → d < e.effectiveAt

theorem StepAdds.of_entries_eq {L L' : Ledger} {ovr : Bool} (h : L'.entries = L.entries) :
    StepAdds L L' ovr [] :=
  ⟨by simp [h], by rw [h, List.drop_length], fun _ e he => absurd he (by simp)⟩

theorem latestLock_congr {L M : Ledger} (h : M.locks = L.locks) (company : ℕ) :
    M.latestLock company = L.latestLock company := by
  unfold Ledger.latestLock; rw [h]

theorem post_stepAdds {H : ContentHash} {L : Ledger} (hinv : JournalInv H L) (event : PostingEvent)
    (ovr : Bool) : ∃ added, StepAdds L (after (postForEvent H event ovr) L) ovr added := by
  cases h : postForEvent H event ovr L with
  | error e L' =>
    obtain ⟨M, hg, ha⟩ := postForEvent_error h
    rw [after_error h]
    exact ⟨[], .of_entries_eq (ha.entries.trans hg.entries)⟩
  | ok e L' =>
    rw [after_ok h]
    obtain ⟨M, rs, -, hres, -, hout⟩ := postForEvent_ok hinv h
    have hr := resolveLines_ok hres
    cases hout with
    | replayed => exact ⟨[], .of_entries_eq hr.grows.entries⟩
    | @inserted N checked dead free =>
      obtain ⟨-, hent, -, -, hlock⟩ := checkPeriodLock_ok checked
      have hNL : N.entries = L.entries := hent.trans hr.grows.entries
      set pfx := joinPrefix event.sourceType event.sourceId event.event
        (H.digest (contentOf event.effectiveAt rs event.extraContent))
      refine ⟨[(event.header pfx (prefixed M pfx).length).entry N rs], ?_, ?_, ?_⟩
      · simp only [Ledger.insertRow, hNL, List.map_append, List.map_cons, List.map_nil]
      · simp only [Ledger.insertRow, hNL, List.drop_left]
      · intro ho x hx d hd
        rw [List.mem_singleton.mp hx] at hd ⊢
        rw [← latestLock_congr hr.grows.locks] at hd
        exact (hlock ho).2 d hd

theorem reverse_stepAdds {H : ContentHash} {L : Ledger} (hinv : JournalInv H L) (id : ℕ) (at' : Option ℤ)
    (by' : Option Text) (ovr : Bool) :
    ∃ added, StepAdds L (after (reverseEntry id at' by' ovr) L) ovr added := by
  cases h : reverseEntry id at' by' ovr L with
  | error e L' =>
    rw [after_error h]
    exact ⟨[], .of_entries_eq (by rw [reverseEntry_error hinv h])⟩
  | ok r L' =>
    rw [after_ok h]
    cases reverseEntry_ok hinv h with
    | already => exact ⟨[], .of_entries_eq rfl⟩
    | @mirrored e M mem eid posted checked =>
      obtain ⟨-, hent, -, hnext, hlock⟩ := checkPeriodLock_ok checked
      set r := e.reversal M (at'.getD e.effectiveAt) by' with hr
      have hne : ¬ r.id = e.id := by
        have hlt := hinv.id_lt e mem
        rw [← hnext] at hlt
        exact (Nat.ne_of_lt hlt).symm
      refine ⟨[r], ?_, ?_, ?_⟩
      · have hfun : ((fun x : GlJournalEntry => x.birthDate) ∘
            fun y => if y.id = e.id then y.marked r.id else y) = fun x => x.birthDate := by
          funext y; simp only [Function.comp_apply]; split_ifs <;> rfl
        simp only [Ledger.markReversed, Ledger.insertRow, List.map_map, hent, List.map_append, hfun]
      · simp only [Ledger.markReversed, Ledger.insertRow, List.map_append, hent, List.map_cons,
          List.map_nil, if_neg hne]
        rw [List.drop_append_of_le_length (by simp), List.drop_of_length_le (by simp), List.nil_append]
      · intro ho x hx d hd
        rw [List.mem_singleton.mp hx] at hd ⊢
        exact (hlock ho).2 d hd

/-- Every entry has one birth record, and the record shows the lock was respected. -/
structure BirthInv (B : Book) : Prop where
  recorded : B.births.map (·.entryId) = B.ledger.entries.map (·.id)
  respected : ∀ b ∈ B.births, b.overrideLock = false → ∀ e ∈ B.ledger.entries, e.id = b.entryId →
    ∀ d, b.lockThen = some d → d < e.effectiveAt

theorem ledgerAfter_inv {H : ContentHash} {L : Ledger} (hinv : JournalInv H L) (op : JournalOp) :
    JournalInv H (op.ledgerAfter H L) := by
  cases op with
  | post event ovr =>
    rw [JournalOp.ledgerAfter]
    cases h : postForEvent H event ovr L with
    | ok e L' => rw [after_ok h]; exact postForEvent_inv hinv h
    | error e L' =>
      rw [after_error h]
      obtain ⟨M, hg, ha⟩ := postForEvent_error h
      exact (hinv.grow hg).congr ha.entries ha.accounts ha.nextId
  | reverse id at' by' ovr =>
    rw [JournalOp.ledgerAfter]
    cases h : reverseEntry id at' by' ovr L with
    | ok r L' => rw [after_ok h]; exact reverseEntry_inv hinv h
    | error e L' => rw [after_error h, reverseEntry_error hinv h]; exact hinv
  | lock period => exact hinv.congr rfl rfl rfl

theorem ledgerAfter_stepAdds {H : ContentHash} {L : Ledger} (hinv : JournalInv H L) (op : JournalOp) :
    ∃ added, StepAdds L (op.ledgerAfter H L) op.overrides added := by
  cases op with
  | post event ovr => exact post_stepAdds hinv event ovr
  | reverse id at' by' ovr => exact reverse_stepAdds hinv id at' by' ovr
  | lock period => exact ⟨[], .of_entries_eq rfl⟩

theorem step_births {H : ContentHash} {B : Book} (hinv : JournalInv H B.ledger) (hb : BirthInv B)
    (op : JournalOp) : BirthInv (B.step H op) := by
  obtain ⟨added, hadd⟩ := ledgerAfter_stepAdds hinv op
  have hinv' := ledgerAfter_inv hinv op
  have hids : (op.ledgerAfter H B.ledger).entries.map (·.id) =
      B.ledger.entries.map (·.id) ++ added.map (·.id) := by
    have hk := congrArg (List.map Prod.fst) hadd.kept
    simpa [List.map_append, List.map_map, Function.comp_def, GlJournalEntry.birthDate] using hk
  -- an entry that was there keeps its date; a new one is one of `added`
  have hsplit : ∀ e ∈ (op.ledgerAfter H B.ledger).entries,
      (∃ x ∈ B.ledger.entries, x.birthDate = e.birthDate) ∨ e ∈ added := by
    intro e he
    have hmem : e.birthDate ∈ B.ledger.entries.map (·.birthDate) ++ added.map (·.birthDate) := by
      rw [← hadd.kept]; exact List.mem_map_of_mem he
    rcases List.mem_append.mp hmem with hmem | hmem
    · obtain ⟨x, hx, hxe⟩ := List.mem_map.mp hmem
      exact Or.inl ⟨x, hx, hxe⟩
    · obtain ⟨x, hx, hxe⟩ := List.mem_map.mp hmem
      have hxin : x ∈ (op.ledgerAfter H B.ledger).entries :=
        List.mem_of_mem_drop (by rw [hadd.dropped]; exact hx)
      have heq := hinv'.eq_of_id hxin he (congrArg Prod.fst hxe)
      exact Or.inr (heq ▸ hx)
  have hnew : (B.step H op).births =
      B.births ++ added.map fun e => ⟨e.id, op.overrides, B.ledger.latestLock e.companyId⟩ := by
    rw [Book.step, hadd.dropped]
  -- the ids of new entries are not ids of old ones
  have hdisj : ∀ x ∈ B.ledger.entries, ∀ a ∈ added, x.id ≠ a.id := by
    intro x hx a ha
    have hnd := hinv'.id_nodup
    rw [hids] at hnd
    exact (List.nodup_append.mp hnd).2.2 x.id (List.mem_map_of_mem hx) a.id (List.mem_map_of_mem ha)
  refine ⟨?_, ?_⟩
  · rw [hnew, List.map_append, hb.recorded, List.map_map]
    exact hids.symm
  · intro b hbm ho e he hid d hd
    rw [hnew] at hbm
    rcases List.mem_append.mp hbm with hbm | hbm
    · -- an old record names an old entry
      obtain ⟨y, hy, hyid⟩ : ∃ y ∈ B.ledger.entries, y.id = b.entryId := by
        have hm : b.entryId ∈ B.ledger.entries.map (·.id) := by
          rw [← hb.recorded]; exact List.mem_map_of_mem hbm
        obtain ⟨y, hy, h⟩ := List.mem_map.mp hm
        exact ⟨y, hy, h⟩
      rcases hsplit e he with ⟨x, hx, hxe⟩ | hea
      · have hxid : x.id = e.id := congrArg Prod.fst hxe
        have hxat : x.effectiveAt = e.effectiveAt := congrArg Prod.snd hxe
        rw [← hxat]
        exact hb.respected b hbm ho x hx (by rw [hxid, hid]) d hd
      · exact absurd (by rw [hyid, hid]) (hdisj y hy e hea)
    · obtain ⟨a, ha, rfl⟩ := List.mem_map.mp hbm
      rcases hsplit e he with ⟨x, hx, hxe⟩ | hea
      · have hxid : x.id = e.id := congrArg Prod.fst hxe
        exact absurd (by rw [hxid, hid]) (hdisj x hx a ha)
      · have hea' : e = a := by
          have hain : a ∈ (op.ledgerAfter H B.ledger).entries :=
            List.mem_of_mem_drop (by rw [hadd.dropped]; exact ha)
          exact hinv'.eq_of_id he hain hid
        rw [hea']
        exact hadd.allowed ho a ha d hd

theorem run_inv {H : ContentHash} (ops : List JournalOp) : ∀ {B : Book}, JournalInv H B.ledger →
    BirthInv B → JournalInv H (B.run H ops).ledger ∧ BirthInv (B.run H ops) := by
  induction ops with
  | nil => exact fun h hb => ⟨h, hb⟩
  | cons op ops ih => exact fun h hb => ih (ledgerAfter_inv h op) (step_births h hb op)

/-- An entry that names `e` as the one it reverses is its mirror. -/
theorem JournalInv.mirrors_of_reverses {H : ContentHash} {L : Ledger} (h : JournalInv H L)
    {r e : GlJournalEntry} (hr : r ∈ L.entries) (he : e ∈ L.entries)
    (hrev : r.reversesEntryId = some e.id) : Mirrors r e := by
  rcases h.shaped r hr with ⟨ev, n, extra, hs⟩ | ⟨o, ho, -, hm⟩
  · rw [hs.not_reversal] at hrev
    cases hrev
  · have hid : o.id = e.id := Option.some.inj (hm.reverses.symm.trans hrev)
    rwa [h.eq_of_id ho he hid] at hm

/-- A chart of accounts as the database keeps it: distinct ids drawn from the supply. -/
structure ChartOk (L : Ledger) : Prop where
  account_lt : ∀ a ∈ L.accounts, a.id < L.nextId
  account_nodup : (L.accounts.map (·.id)).Nodup

theorem JournalInv.of_empty {H : ContentHash} {L : Ledger} (hempty : L.entries = []) (hc : ChartOk L) :
    JournalInv H L := by
  have hp : ∀ pfx, prefixed L pfx = [] := fun pfx => by unfold prefixed; rw [hempty]; rfl
  refine ⟨?_, ?_, ?_, hc.account_lt, hc.account_nodup, ?_, ?_, ?_, ?_, ?_⟩ <;> try simp [hempty]
  intro st sid ev h _
  rw [hp]
  exact ⟨rfl, by simp, by simp⟩

/-- From an empty journal, whatever is posted, reversed and locked, every reachable journal has
    balanced entries, unique keys, gap-free sequence numbers with at most the last entry live, one
    exact mirror for each reversed entry, and no entry the lock should have refused. -/
theorem journal_well_formed (H : ContentHash) (L : Ledger) (hempty : L.entries = []) (hc : ChartOk L)
    (ops : List JournalOp) :
    let B := (Book.mk L []).run H ops
    (∀ e ∈ B.ledger.entries, 2 ≤ e.lines.length ∧ (∀ l ∈ e.lines, l.amountCents ≠ 0) ∧
        (e.lines.map (·.amountCents)).sum = 0) ∧
      (B.ledger.entries.map (·.idempotencyKey)).Nodup ∧
      (∀ st sid ev h, ValidPrefix st sid ev h →
        let es := prefixed B.ledger (joinPrefix st sid ev h)
        es.map (·.idempotencyKey) =
            (List.range es.length).map (idempotencyKey (joinPrefix st sid ev h)) ∧
          ∀ e ∈ es.dropLast, e.status = .reversed) ∧
      (∀ e ∈ B.ledger.entries, e.status = .reversed →
        (∃! r, r ∈ B.ledger.entries ∧ r.reversesEntryId = some e.id) ∧
          ∀ r ∈ B.ledger.entries, r.reversesEntryId = some e.id →
            e.reversedByEntryId = some r.id ∧ r.lines = e.lines.map (·.mirror e.entryNo)) ∧
      B.births.map (·.entryId) = B.ledger.entries.map (·.id) ∧
      ∀ b ∈ B.births, b.overrideLock = false → ∀ e ∈ B.ledger.entries, e.id = b.entryId →
        ∀ d, b.lockThen = some d → d < e.effectiveAt := by
  intro B
  obtain ⟨hinv, hb⟩ := run_inv ops (B := ⟨L, []⟩) (.of_empty (H := H) hempty hc)
    ⟨by simp [hempty], by simp⟩
  refine ⟨?_, hinv.key_nodup, ?_, ?_, hb.recorded, hb.respected⟩
  · intro e he
    have hbal := hinv.balanced e he
    exact ⟨hbal.two_lines, hbal.nonzero, hbal.sum_zero⟩
  · intro st sid ev h hv
    have hs := hinv.sequenced st sid ev h hv
    exact ⟨hs.numbered, hs.reversed⟩
  · intro e he hrev
    obtain ⟨r, hr, hm⟩ := hinv.reversed_linked e he hrev
    refine ⟨⟨r, ⟨hr, hm.reverses⟩, ?_⟩, ?_⟩
    · rintro r' ⟨hr', hrev'⟩
      have hlink := (hinv.mirrors_of_reverses hr' he hrev').linked
      rw [hm.linked] at hlink
      exact hinv.eq_of_id hr' hr (Option.some.inj hlink).symm
    · intro r' hr' hrev'
      have hm' := hinv.mirrors_of_reverses hr' he hrev'
      exact ⟨hm'.linked, hm'.lines⟩

theorem chartOk_seeded : ChartOk Ledger.seeded := ⟨by decide +kernel, by decide +kernel⟩

/-- A five-dollar sale on day 10. -/
def saleEvent : PostingEvent where
  companyId := 0
  sourceType := "invoice".toList
  sourceId := str 7
  event := "issue".toList
  effectiveAt := 10
  lines := [⟨500, some .ar, none, none, none, none⟩, ⟨-500, some .salesFallback, none, none, none, none⟩]
  createdBy := none
  extraContent := []

/-- Post, reverse, post the same content again, lock the month, try to reverse into it. -/
def saleOps : List JournalOp :=
  [.post saleEvent false, .reverse 26 none none false, .post saleEvent false, .lock ⟨20, 0⟩,
    .reverse 28 none none false]

theorem journal_well_formed_sale :
    ((Book.mk Ledger.seeded []).run plainHash saleOps).ledger.entries.map (fun e => (e.id, e.status)) =
        [(26, .reversed), (27, .posted), (28, .posted)] ∧
      (((Book.mk Ledger.seeded []).run plainHash saleOps).ledger.entries.map
        (·.idempotencyKey)).Nodup :=
  ⟨by decide +kernel, (journal_well_formed plainHash Ledger.seeded rfl chartOk_seeded saleOps).2.1⟩

end Gdx
