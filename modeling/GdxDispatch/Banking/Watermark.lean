import GdxDispatch.Banking.SimplefinSync

/-! The watermark of a feed account and what is stored below it.

    Within a run an account that has failed is never stamped again, so a stamp says that all earlier answers that
    carried the account were complete for it. The rest hangs on the run's answers and on its first day: an account
    left out of an answer in between, or a run that begins past the account's watermark, leaves a gap. -/

namespace Gdx
open Lib

/-! ### What the bank has posted -/

/-- A posted transaction of the bank. -/
structure PostedTxn where
  id : String
  posted : ℤ
  named : id ≠ ""
  dated : 0 < posted ∧ posted ≤ MAX_EPOCH

/-- The bank's history of each account, in which an id names one transaction. -/
structure BankHistory where
  txns : String → List PostedTxn
  unique : ∀ {a t t'}, t ∈ txns a → t' ∈ txns a → t.id = t'.id → t.posted = t'.posted

/-- A listed transaction that is posted, as the feed takes it. -/
def ListedTxn.Posted (x : ListedTxn) : Prop := x.id ≠ "" ∧ x.pending = false ∧ 0 < x.posted ∧ x.posted ≤ MAX_EPOCH

/-- An answer for the days from `first` through `last` is honest: what it lists is the bank's history, and for an
    account that it carries without an error it lists all that was posted on these days. -/
structure FeedPayload.Honest (H : BankHistory) (first last : ℤ) (p : FeedPayload) : Prop where
  listed : ∀ acct ∈ p.accounts, ∀ x ∈ acct.transactions, x.Posted →
    ∃ t ∈ H.txns acct.id, t.id = x.id ∧ t.posted = x.posted
  complete : ∀ a ∈ p.present, (classifyErrlist p).1 = false → "*" ∉ (classifyErrlist p).2 →
    a ∉ (classifyErrlist p).2 → ∀ t ∈ H.txns a, epochOf first ≤ t.posted → t.posted < epochOf (last + 1) →
    ∃ acct ∈ p.accounts, acct.id = a ∧ ∃ x ∈ acct.transactions, x.id = t.id ∧ x.pending = false ∧ x.posted = t.posted

/-- A transaction of an account is stored. -/
def BankFeed.Stored (feed : BankFeed) (a : String) (t : PostedTxn) : Prop :=
  ∃ row ∈ feed.txns, row.account = a ∧ row.externalTransactionId = t.id ∧ row.postedAt = t.posted

/-- Every transaction of an account dated from one day through another is stored. -/
def BankFeed.Covers (zone : ShopZone) (H : BankHistory) (feed : BankFeed) (a : String) (first last : ℤ) : Prop :=
  ∀ t ∈ H.txns a, first ≤ postedDay zone t.posted → postedDay zone t.posted ≤ last → feed.Stored a t

/-- The watermark of each account is backed by what is stored. -/
def BankFeed.WatermarksHold (zone : ShopZone) (H : BankHistory) (feed : BankFeed) : Prop :=
  ∀ a ∈ feed.accounts, ∀ w, a.backfillSyncedThrough = some w →
    ∃ first, a.backfillFrom = some first ∧ feed.Covers zone H a.externalAccountId first w

variable {zone : ShopZone} {H : BankHistory}

/-! ### Ingest -/

/-- The rows hold what has been posted of these ids: the transaction with the id and the posting. -/
def HasTxn (rows : List FeedTxn) (a id : String) (posted : ℤ) : Prop :=
  ∃ row ∈ rows, row.account = a ∧ row.externalTransactionId = id ∧ row.postedAt = posted

theorem epochToDt_of_posted {v : ℤ} (h : 0 < v ∧ v ≤ MAX_EPOCH) : epochToDt v = some v := if_pos h

theorem epochToDt_eq_some {v d : ℤ} (h : epochToDt v = some d) : (0 < v ∧ v ≤ MAX_EPOCH) ∧ d = v := by
  unfold epochToDt at h
  split_ifs at h with hv
  exact ⟨hv, (Option.some.inj h).symm⟩

theorem upsert_stores {x : ListedTxn} (hx : x.Posted) (a : String) (rows : List FeedTxn) :
    HasTxn (upsertSfinTransaction zone a rows x) a x.id x.posted := by
  unfold upsertSfinTransaction
  rw [if_neg (by simp [hx.1, hx.2.1]), epochToDt_of_posted hx.2.2]
  dsimp only
  split_ifs with hany
  · obtain ⟨row, hrow, hkey⟩ := List.any_eq_true.mp hany
    simp only [Bool.and_eq_true, decide_eq_true_eq] at hkey
    refine ⟨_, List.mem_map_of_mem hrow, ?_⟩
    rw [if_pos hkey]
    exact ⟨hkey.1, hkey.2, rfl⟩
  · exact ⟨_, List.mem_append_right _ (List.mem_singleton.mpr rfl), rfl, rfl, rfl⟩

/-- A transaction that is stored stays so: a listed transaction with its id has its posting. -/
theorem upsert_keeps {x : ListedTxn} {a b id : String} {posted : ℤ} {rows : List FeedTxn}
    (h : HasTxn rows b id posted) (hx : x.Posted → a = b → x.id = id → x.posted = posted) :
    HasTxn (upsertSfinTransaction zone a rows x) b id posted := by
  unfold upsertSfinTransaction
  split
  · exact h
  · rename_i hdrop
    split
    · exact h
    · rename_i d hd
      obtain ⟨hv, rfl⟩ := epochToDt_eq_some hd
      obtain ⟨row, hrow, hacct, hid, hposted⟩ := h
      split
      · refine ⟨_, List.mem_map_of_mem hrow, ?_⟩
        split_ifs with hkey
        · push Not at hdrop
          exact ⟨hacct, hid, hx ⟨hdrop.1, Bool.eq_false_iff.mpr hdrop.2, hv⟩ (hkey.1 ▸ hacct) (hkey.2 ▸ hid)⟩
        · exact ⟨hacct, hid, hposted⟩
      · exact ⟨row, List.mem_append_left _ hrow, hacct, hid, hposted⟩

theorem upserts_keep {a b id : String} {posted : ℤ} (xs : List ListedTxn)
    (hx : ∀ x ∈ xs, x.Posted → a = b → x.id = id → x.posted = posted) :
    ∀ {rows : List FeedTxn}, HasTxn rows b id posted →
      HasTxn (xs.foldl (upsertSfinTransaction zone a) rows) b id posted := by
  induction xs with
  | nil => exact fun h => h
  | cons x xs ih =>
    exact fun h => ih (fun y hy => hx y (List.mem_cons_of_mem _ hy)) (upsert_keeps h (hx x List.mem_cons_self))

theorem upserts_store (zone : ShopZone) (a : String) {x : ListedTxn} (hx : x.Posted) (xs : List ListedTxn)
    (hsame : ∀ y ∈ xs, y.Posted → y.id = x.id → y.posted = x.posted) (hmem : x ∈ xs) :
    ∀ rows : List FeedTxn, HasTxn (xs.foldl (upsertSfinTransaction zone a) rows) a x.id x.posted := by
  induction xs with
  | nil => exact absurd hmem List.not_mem_nil
  | cons y xs ih =>
    intro rows
    have hrest : ∀ z ∈ xs, z.Posted → z.id = x.id → z.posted = x.posted :=
      fun z hz => hsame z (List.mem_cons_of_mem _ hz)
    rcases List.mem_cons.mp hmem with rfl | hmem
    · exact upserts_keep xs (fun z hz hp _ hid => hrest z hz hp hid) (upsert_stores hx a rows)
    · exact ih hrest hmem _

/-- The rows of accounts after an account has been ingested: those there were, and one for it where it had none. -/
theorem accounts_ingestAccount (feed : BankFeed) (acct : ListedAccount) :
    (feed.ingestAccount zone acct).accounts =
      if acct.id = "" then feed.accounts else (feed.upsertSfinAccount acct.id).accounts := by
  unfold BankFeed.ingestAccount
  split_ifs
  · rfl
  · dsimp only
    split_ifs <;> rfl

theorem mem_upsertSfinAccount {feed : BankFeed} {id : String} {a : FeedAccount}
    (h : a ∈ (feed.upsertSfinAccount id).accounts) :
    a ∈ feed.accounts ∨ a = newFeedAccount id ∧ ∀ b ∈ feed.accounts, b.externalAccountId ≠ id := by
  unfold BankFeed.upsertSfinAccount at h
  split_ifs at h with hany
  · exact .inl h
  · rcases List.mem_append.mp h with h | h
    · exact .inl h
    · refine .inr ⟨List.mem_singleton.mp h, fun b hb heq => hany ?_⟩
      exact List.any_eq_true.mpr ⟨b, hb, by simp [heq]⟩

theorem mem_upsertSfinAccount_of_mem {feed : BankFeed} {a : FeedAccount} (h : a ∈ feed.accounts) (id : String) :
    a ∈ (feed.upsertSfinAccount id).accounts := by
  unfold BankFeed.upsertSfinAccount
  split_ifs
  · exact h
  · exact List.mem_append_left _ h

theorem mem_ingestAccount_of_mem {feed : BankFeed} {a : FeedAccount} (h : a ∈ feed.accounts) (acct : ListedAccount) :
    a ∈ (feed.ingestAccount zone acct).accounts := by
  rw [accounts_ingestAccount]
  split_ifs
  · exact h
  · exact mem_upsertSfinAccount_of_mem h acct.id

/-- The feed takes the transactions of an account: its row is switched on, or it has none yet. -/
def BankFeed.Takes (feed : BankFeed) (a : String) : Prop :=
  (∃ row ∈ feed.accounts, row.externalAccountId = a ∧ row.enabled = true) ∨
    ∀ row ∈ feed.accounts, row.externalAccountId ≠ a

theorem BankFeed.Takes.row {feed : BankFeed} {a : String} (h : feed.Takes a) :
    ∃ row ∈ (feed.upsertSfinAccount a).accounts, row.externalAccountId = a ∧ row.enabled = true := by
  rcases h with ⟨row, hrow, hid, hon⟩ | hnone
  · exact ⟨row, mem_upsertSfinAccount_of_mem hrow a, hid, hon⟩
  · refine ⟨newFeedAccount a, ?_, rfl, rfl⟩
    unfold BankFeed.upsertSfinAccount
    rw [if_neg (by simpa using hnone)]
    exact List.mem_append_right _ (List.mem_singleton.mpr rfl)

theorem BankFeed.Takes.upsert {feed : BankFeed} {a : String} (h : feed.Takes a) (id : String) :
    (feed.upsertSfinAccount id).Takes a := by
  by_cases heq : id = a
  · exact .inl (heq ▸ h.row)
  · rcases h with ⟨row, hrow, hid, hon⟩ | hnone
    · exact .inl ⟨row, mem_upsertSfinAccount_of_mem hrow id, hid, hon⟩
    · refine .inr fun row hrow => ?_
      rcases mem_upsertSfinAccount hrow with hrow | ⟨rfl, -⟩
      · exact hnone row hrow
      · exact heq

theorem BankFeed.Takes.ingest {feed : BankFeed} {a : String} (h : feed.Takes a) (acct : ListedAccount) :
    (feed.ingestAccount zone acct).Takes a := by
  unfold BankFeed.Takes
  rw [accounts_ingestAccount]
  split_ifs
  · exact h
  · exact h.upsert acct.id

/-- What an answer lists is the bank's history. -/
def FeedPayload.Listed (H : BankHistory) (accounts : List ListedAccount) : Prop :=
  ∀ acct ∈ accounts, ∀ x ∈ acct.transactions, x.Posted → ∃ t ∈ H.txns acct.id, t.id = x.id ∧ t.posted = x.posted

theorem txns_ingestAccount (zone : ShopZone) (feed : BankFeed) (acct : ListedAccount) :
    (feed.ingestAccount zone acct).txns = feed.txns ∨
      (feed.ingestAccount zone acct).txns = acct.transactions.foldl (upsertSfinTransaction zone acct.id) feed.txns := by
  have hsame : (feed.upsertSfinAccount acct.id).txns = feed.txns := by
    unfold BankFeed.upsertSfinAccount
    split_ifs <;> rfl
  unfold BankFeed.ingestAccount
  split_ifs
  · exact .inl rfl
  · dsimp only
    split_ifs
    · exact .inr (by rw [hsame])
    · exact .inl hsame

theorem ingest_keeps {a : String} {t : PostedTxn} (ht : t ∈ H.txns a) (accounts : List ListedAccount)
    (hlisted : FeedPayload.Listed H accounts) : ∀ {feed : BankFeed}, feed.Stored a t →
      (accounts.foldl (BankFeed.ingestAccount zone) feed).Stored a t := by
  induction accounts with
  | nil => exact fun h => h
  | cons acct accounts ih =>
    intro feed h
    refine ih (fun c hc => hlisted c (List.mem_cons_of_mem _ hc)) ?_
    unfold BankFeed.Stored
    rcases txns_ingestAccount zone feed acct with htxns | htxns
    · rw [htxns]
      exact h
    · rw [htxns]
      refine upserts_keep _ (fun x hx hp hacct hid => ?_) h
      obtain ⟨t', ht', hid', hposted⟩ := hlisted acct List.mem_cons_self x hx hp
      rw [hacct] at ht'
      exact hposted.symm.trans (H.unique ht' ht (hid'.trans hid))

theorem ingest_stores {a : String} {t : PostedTxn} (ht : t ∈ H.txns a) (hne : a ≠ "") (accounts : List ListedAccount)
    (hlisted : FeedPayload.Listed H accounts) {acct : ListedAccount} (hacct : acct ∈ accounts) (hid : acct.id = a)
    {x : ListedTxn} (hx : x ∈ acct.transactions) (hxt : x.id = t.id ∧ x.pending = false ∧ x.posted = t.posted) :
    ∀ {feed : BankFeed}, feed.Takes a → (accounts.foldl (BankFeed.ingestAccount zone) feed).Stored a t := by
  induction accounts with
  | nil => exact absurd hacct List.not_mem_nil
  | cons c accounts ih =>
    intro feed htakes
    have hrest : FeedPayload.Listed H accounts := fun c hc => hlisted c (List.mem_cons_of_mem _ hc)
    rcases List.mem_cons.mp hacct with rfl | hacct
    · refine ingest_keeps ht accounts hrest ?_
      have hposted : x.Posted := ⟨hxt.1 ▸ t.named, hxt.2.1, hxt.2.2 ▸ t.dated⟩
      have hany : (feed.upsertSfinAccount acct.id).accounts.any (fun r => r.externalAccountId = acct.id && r.enabled) =
          true := by
        obtain ⟨row, hrow, hrowId, hon⟩ := htakes.row
        rw [hid]
        exact List.any_eq_true.mpr ⟨row, hrow, by simp [hrowId, hon]⟩
      unfold BankFeed.Stored BankFeed.ingestAccount
      rw [if_neg (hid ▸ hne)]
      dsimp only
      rw [if_pos hany]
      obtain ⟨row, hrow, h₁, h₂, h₃⟩ := upserts_store zone acct.id hposted acct.transactions
        (fun y hy hp hyid => by
          obtain ⟨t', ht', hid', hposted'⟩ := hlisted acct List.mem_cons_self y hy hp
          rw [hid] at ht'
          rw [← hposted', hxt.2.2]
          exact H.unique ht' ht (hid'.trans (hyid.trans hxt.1))) hx (feed.upsertSfinAccount acct.id).txns
      exact ⟨row, hrow, h₁.trans hid, h₂.trans hxt.1, h₃.trans hxt.2.2⟩
    · exact ih hrest hacct (htakes.ingest c)

theorem mem_ingest_of_mem {a : FeedAccount} (accounts : List ListedAccount) : ∀ {feed : BankFeed}, a ∈ feed.accounts →
    a ∈ (accounts.foldl (BankFeed.ingestAccount zone) feed).accounts := by
  induction accounts with
  | nil => exact fun h => h
  | cons c accounts ih => exact fun h => ih (mem_ingestAccount_of_mem h c)

/-- The rows of accounts after an answer: those there were, and new ones for accounts it carries. -/
theorem mem_ingest {a : FeedAccount} (accounts : List ListedAccount) : ∀ {feed : BankFeed},
    a ∈ (accounts.foldl (BankFeed.ingestAccount zone) feed).accounts →
      a ∈ feed.accounts ∨ a = newFeedAccount a.externalAccountId ∧
        ∀ b ∈ feed.accounts, b.externalAccountId ≠ a.externalAccountId := by
  induction accounts with
  | nil => exact fun h => .inl h
  | cons c accounts ih =>
    intro feed h
    rcases ih h with h | ⟨hnew, hnone⟩
    · rw [accounts_ingestAccount] at h
      split_ifs at h
      · exact .inl h
      · rcases mem_upsertSfinAccount h with h | ⟨rfl, hnone⟩
        · exact .inl h
        · exact .inr ⟨rfl, hnone⟩
    · exact .inr ⟨hnew, fun b hb => hnone b (mem_ingestAccount_of_mem hb c)⟩

/-- An account that the answer carries has a row after it. -/
theorem row_of_present (zone : ShopZone) {a : String} (hne : a ≠ "") (accounts : List ListedAccount) :
    a ∈ accounts.map (·.id) → ∀ feed : BankFeed,
      ∃ row ∈ (accounts.foldl (BankFeed.ingestAccount zone) feed).accounts, row.externalAccountId = a := by
  induction accounts with
  | nil => exact fun h => absurd h List.not_mem_nil
  | cons c accounts ih =>
    intro h feed
    rcases List.mem_cons.mp h with rfl | h
    · have hrow : ∃ row ∈ (feed.ingestAccount zone c).accounts, row.externalAccountId = c.id := by
        rw [accounts_ingestAccount, if_neg hne]
        unfold BankFeed.upsertSfinAccount
        split_ifs with hany
        · obtain ⟨row, hrow, hid⟩ := List.any_eq_true.mp hany
          exact ⟨row, hrow, of_decide_eq_true hid⟩
        · exact ⟨_, List.mem_append_right _ (List.mem_singleton.mpr rfl), rfl⟩
      obtain ⟨row, hrow, hid⟩ := hrow
      exact ⟨row, mem_ingest_of_mem accounts hrow, hid⟩
    · exact ih h _

/-! ### One window -/

theorem ingest_covers {feed : BankFeed} {p : FeedPayload} (hlisted : FeedPayload.Listed H p.accounts) {a : String}
    {first last : ℤ} (h : feed.Covers zone H a first last) : (feed.ingestPayload zone p).Covers zone H a first last :=
  fun t ht hfirst hlast => ingest_keeps ht p.accounts hlisted (h t ht hfirst hlast)

/-- An answer that stamps nothing leaves the watermarks backed. -/
theorem ingest_holds {feed : BankFeed} {p : FeedPayload} (hlisted : FeedPayload.Listed H p.accounts)
    (h : feed.WatermarksHold zone H) : (feed.ingestPayload zone p).WatermarksHold zone H := by
  intro a ha w hw
  rcases mem_ingest p.accounts ha with ha | ⟨hnew, -⟩
  · obtain ⟨first, hfirst, hcov⟩ := h a ha w hw
    exact ⟨first, hfirst, ingest_covers hlisted hcov⟩
  · rw [hnew] at hw
    cases hw

/-- The first day a stamp in this run vouches for. -/
def FeedAccount.firstDay (a : FeedAccount) (horizon : ℤ) : ℤ :=
  if a.backfillSyncedThrough = none then horizon else a.backfillFrom.getD horizon

/-- What the loop has at the first day of a window: each account that an answer is still to carry, and that this run
    may stamp, is covered up to the window. -/
structure Ready (zone : ShopZone) (H : BankHistory) (run : SyncRun) (feed : BankFeed) (failed : List String)
    (windowStart : ℤ) (later : List FeedPayload) : Prop where
  known : ∀ a ∈ feed.accounts, a.enabled = true → (run.inBackfill = true ∨ a.initialBackfillDone = true) →
    (∃ p ∈ later, a.externalAccountId ∈ p.present) → "*" ∉ failed → a.externalAccountId ∉ failed →
    feed.Covers zone H a.externalAccountId (a.firstDay run.horizon) (windowStart - 1)
  unknown : ∀ p ∈ later, ∀ e ∈ p.present, (∀ a ∈ feed.accounts, a.externalAccountId ≠ e) → run.inBackfill = true →
    feed.Covers zone H e run.horizon (windowStart - 1)

/-- The transactions dated in a window were posted in it, by the clock that cut the window. -/
def FeedPayload.Aligned (zone : ShopZone) (H : BankHistory) (first last : ℤ) (p : FeedPayload) : Prop :=
  ∀ a ∈ p.present, ∀ t ∈ H.txns a, first ≤ postedDay zone t.posted → postedDay zone t.posted ≤ last →
    epochOf first ≤ t.posted ∧ t.posted < epochOf (last + 1)

theorem stamps_iff {run : SyncRun} {present failed : List String} {a : FeedAccount} :
    run.stamps present failed a = true ↔ a.enabled = true ∧ a.externalAccountId ∈ present ∧ "*" ∉ failed ∧
      a.externalAccountId ∉ failed ∧ (run.inBackfill = true ∨ a.initialBackfillDone = true) := by
  simp [SyncRun.stamps, and_assoc]

/-- A stamped account is covered through the end of the window. -/
theorem window_covers {run : SyncRun} {feed : BankFeed} {failed : List String} {windowStart last : ℤ}
    {p : FeedPayload} {later : List FeedPayload} (hready : Ready zone H run feed failed windowStart (p :: later))
    (hhonest : p.Honest H windowStart last) (haligned : p.Aligned zone H windowStart last)
    (hauth : (classifyErrlist p).1 = false) {a : FeedAccount} (ha : a ∈ (feed.ingestPayload zone p).accounts)
    (hstamps : run.stamps p.present (failed ++ (classifyErrlist p).2) a = true) :
    (feed.ingestPayload zone p).Covers zone H a.externalAccountId (a.firstDay run.horizon) last := by
  obtain ⟨hon, hpresent, hstar, hfailed, hmode⟩ := stamps_iff.mp hstamps
  simp only [List.mem_append, not_or] at hstar hfailed
  have hcases : feed.Takes a.externalAccountId ∧
      feed.Covers zone H a.externalAccountId (a.firstDay run.horizon) (windowStart - 1) := by
    rcases mem_ingest p.accounts ha with hold | ⟨hnew, hnone⟩
    · exact ⟨.inl ⟨a, hold, rfl, hon⟩,
        hready.known a hold hon hmode ⟨p, List.mem_cons_self, hpresent⟩ hstar.1 hfailed.1⟩
    · have hdone : a.initialBackfillDone = false := by rw [hnew]; rfl
      have hday : a.firstDay run.horizon = run.horizon := by rw [hnew]; rfl
      rw [hday]
      refine ⟨.inr hnone, hready.unknown p List.mem_cons_self _ hpresent hnone ?_⟩
      simpa [hdone] using hmode
  obtain ⟨htakes, hbefore⟩ := hcases
  intro t ht hfirst hlast
  rcases lt_or_ge (postedDay zone t.posted) windowStart with hlt | hge
  · exact ingest_covers hhonest.listed hbefore t ht hfirst (by omega)
  · obtain ⟨hlo, hhi⟩ := haligned _ hpresent t ht hge hlast
    obtain ⟨acct, hacct, hid, x, hx, hxt⟩ := hhonest.complete _ hpresent hauth hstar.2 hfailed.2 t ht hlo hhi
    have hne : a.externalAccountId ≠ "" := by simpa using (List.mem_filter.mp hpresent).2
    exact ingest_stores ht hne p.accounts hhonest.listed hacct hid hx hxt htakes

theorem stamp_of_not {run : SyncRun} {last : ℤ} {present failed : List String} {a : FeedAccount}
    (h : ¬ run.stamps present failed a = true) : run.stamp last present failed a = a :=
  if_neg h

theorem stamp_externalAccountId (run : SyncRun) (last : ℤ) (present failed : List String) (a : FeedAccount) :
    (run.stamp last present failed a).externalAccountId = a.externalAccountId := by
  unfold SyncRun.stamp
  split_ifs <;> rfl

theorem stamp_enabled (run : SyncRun) (last : ℤ) (present failed : List String) (a : FeedAccount) :
    (run.stamp last present failed a).enabled = a.enabled := by
  unfold SyncRun.stamp
  split_ifs <;> rfl

theorem stamp_initialBackfillDone {run : SyncRun} {last : ℤ} (h : ¬ run.today ≤ last) (present failed : List String)
    (a : FeedAccount) : (run.stamp last present failed a).initialBackfillDone = a.initialBackfillDone := by
  unfold SyncRun.stamp
  split
  · simp [h]
  · rfl

/-- A stamp on a watermark that is backed keeps the day the backfill began at. -/
theorem stamp_backfillFrom {run : SyncRun} (last : ℤ) {present failed : List String} {a : FeedAccount}
    (hstamps : run.stamps present failed a = true)
    (hback : ∀ w, a.backfillSyncedThrough = some w → ∃ first, a.backfillFrom = some first) :
    (run.stamp last present failed a).backfillSyncedThrough = some last ∧
      (run.stamp last present failed a).backfillFrom = some (a.firstDay run.horizon) := by
  unfold SyncRun.stamp
  rw [if_pos hstamps]
  refine ⟨rfl, ?_⟩
  unfold FeedAccount.firstDay
  cases hw : a.backfillSyncedThrough with
  | none => simp
  | some w =>
    obtain ⟨first, hfirst⟩ := hback w hw
    simp [hfirst]

/-- The feed once a window's stamps are made. -/
def BankFeed.stamped (feed : BankFeed) (run : SyncRun) (last : ℤ) (present failed : List String) : BankFeed :=
  { feed with accounts := feed.accounts.map (run.stamp last present failed) }

/-- A window keeps the watermarks backed. -/
theorem window_holds {run : SyncRun} {feed : BankFeed} {failed : List String} {windowStart last : ℤ}
    {p : FeedPayload} {later : List FeedPayload} (hhold : feed.WatermarksHold zone H)
    (hready : Ready zone H run feed failed windowStart (p :: later)) (hhonest : p.Honest H windowStart last)
    (haligned : p.Aligned zone H windowStart last) (hauth : (classifyErrlist p).1 = false) :
    ((feed.ingestPayload zone p).stamped run last p.present (failed ++ (classifyErrlist p).2)).WatermarksHold
      zone H := by
  have hmid := ingest_holds hhonest.listed hhold
  intro b hb w hw
  obtain ⟨a, ha, rfl⟩ := List.mem_map.mp hb
  rw [stamp_externalAccountId]
  by_cases hstamps : run.stamps p.present (failed ++ (classifyErrlist p).2) a = true
  · obtain ⟨hlast, hfrom⟩ := stamp_backfillFrom last hstamps fun w hw => (hmid a ha w hw).imp fun _ h => h.1
    rw [hlast] at hw
    obtain rfl := Option.some.inj hw
    exact ⟨_, hfrom, window_covers hready hhonest haligned hauth ha hstamps⟩
  · rw [stamp_of_not hstamps] at hw ⊢
    exact hmid a ha w hw

/-- After a window that is not the last, the loop is ready for the next one, if the answers to come carry no account
    that this one left out. -/
theorem window_ready {run : SyncRun} {feed : BankFeed} {failed : List String} {windowStart last : ℤ}
    {p : FeedPayload} {later : List FeedPayload} (hhold : feed.WatermarksHold zone H)
    (hready : Ready zone H run feed failed windowStart (p :: later)) (hhonest : p.Honest H windowStart last)
    (haligned : p.Aligned zone H windowStart last) (hauth : (classifyErrlist p).1 = false)
    (hsteady : ∀ q ∈ later, ∀ e ∈ q.present, e ∈ p.present) (hmore : ¬ run.today ≤ last) :
    Ready zone H run ((feed.ingestPayload zone p).stamped run last p.present (failed ++ (classifyErrlist p).2))
      (failed ++ (classifyErrlist p).2) (last - FETCH_OVERLAP_DAYS) later where
  known := by
    intro b hb hon hmode ⟨q, hq, hpresent⟩ hstar hfailed
    obtain ⟨a, ha, rfl⟩ := List.mem_map.mp hb
    rw [stamp_externalAccountId] at hpresent hfailed ⊢
    rw [stamp_enabled] at hon
    have hdone : run.inBackfill = true ∨ a.initialBackfillDone = true := by
      rwa [stamp_initialBackfillDone hmore] at hmode
    have hstamps := stamps_iff.mpr ⟨hon, hsteady q hq _ hpresent, hstar, hfailed, hdone⟩
    obtain ⟨hlast, hfrom⟩ := stamp_backfillFrom last hstamps fun w hw =>
      (ingest_holds hhonest.listed hhold a ha w hw).imp fun _ h => h.1
    have hday : (run.stamp last p.present (failed ++ (classifyErrlist p).2) a).firstDay run.horizon =
        a.firstDay run.horizon := by
      conv_lhs => unfold FeedAccount.firstDay
      rw [hlast, hfrom]
      simp
    rw [hday]
    intro t ht hfirst hle
    refine window_covers hready hhonest haligned hauth ha hstamps t ht hfirst ?_
    simp only [FETCH_OVERLAP_DAYS] at hle
    omega
  unknown := by
    intro q hq e he hnone
    have hpresent := List.mem_filter.mp (hsteady q hq e he)
    obtain ⟨row, hrow, hid⟩ := row_of_present zone (by simpa using hpresent.2) p.accounts hpresent.1 feed
    refine absurd ?_ (hnone _ (List.mem_map_of_mem hrow))
    rw [stamp_externalAccountId]
    exact hid

/-! ### The loop -/

/-- The answers among the replies. -/
def payloadsOf (replies : List FeedReply) : List FeedPayload :=
  replies.filterMap fun
    | .answered _ p => some p
    | _ => none

/-- Something holds of each answer with the first and the last day of its window. -/
def EachWindow (P : ℤ → ℤ → FeedPayload → Prop) (run : SyncRun) : ℤ → List FeedReply → Prop
  | _, [] => True
  | windowStart, reply :: replies =>
    (∀ n p, reply = .answered n p → P windowStart (run.windowEnd windowStart) p) ∧
      EachWindow P run (run.windowEnd windowStart - FETCH_OVERLAP_DAYS) replies

/-- An account that an answer carries is in every answer of the run before it. -/
def Steady (replies : List FeedReply) : Prop :=
  (payloadsOf replies).Pairwise fun p q => ∀ e ∈ q.present, e ∈ p.present

theorem BankFeed.WatermarksHold.congr {feed feed' : BankFeed} (h : feed.WatermarksHold zone H)
    (haccounts : feed'.accounts = feed.accounts) (htxns : feed'.txns = feed.txns) :
    feed'.WatermarksHold zone H := by
  unfold BankFeed.WatermarksHold BankFeed.Covers BankFeed.Stored at *
  rw [haccounts, htxns]
  exact h

theorem recordFetches_accounts (feed : BankFeed) (today : ℤ) (n : ℕ) :
    (feed.recordFetches today n).accounts = feed.accounts := by
  unfold BankFeed.recordFetches
  split_ifs <;> rfl

theorem recordFetches_txns (feed : BankFeed) (today : ℤ) (n : ℕ) :
    (feed.recordFetches today n).txns = feed.txns := by
  unfold BankFeed.recordFetches
  split_ifs <;> rfl

/-- The windows of a run keep the watermarks backed. -/
theorem syncWindows_holds (run : SyncRun) (replies : List FeedReply) :
    ∀ {feed : BankFeed} {windowStart : ℤ} {failed : List String} (fetches : ℕ),
      feed.WatermarksHold zone H → Ready zone H run feed failed windowStart (payloadsOf replies) → Steady replies →
      EachWindow (fun first last p => p.Honest H first last) run windowStart replies →
      EachWindow (fun first last p => p.Aligned zone H first last) run windowStart replies →
      (feed.syncWindows zone run replies windowStart failed fetches).WatermarksHold zone H := by
  induction replies with
  | nil => exact fun _ hhold _ _ _ _ => hhold
  | cons reply replies ih =>
    intro feed windowStart failed fetches hhold hready hsteady hhonest haligned
    have hend : ∀ {feed : BankFeed} (n : ℕ), feed.WatermarksHold zone H →
        (feed.recordFetches run.today n).WatermarksHold zone H :=
      fun n h => h.congr (recordFetches_accounts _ _ n) (recordFetches_txns _ _ n)
    unfold BankFeed.syncWindows
    split
    · exact hend fetches hhold
    · cases reply with
      | failed requests => exact hend _ hhold
      | denied requests => exact (hend (fetches + requests) hhold).congr rfl rfl
      | answered requests p =>
        have hp := hhonest.1 requests p rfl
        have hpa := haligned.1 requests p rfl
        obtain ⟨hsteadyHead, hsteadyTail⟩ := List.pairwise_cons.mp hsteady
        dsimp only
        split
        · exact (hend (fetches + requests) (ingest_holds hp.listed hhold)).congr rfl rfl
        · rename_i hauth
          have hauth' : (classifyErrlist p).1 = false := Bool.eq_false_iff.mpr hauth
          have hnext := window_holds hhold hready hp hpa hauth'
          split
          · exact hend _ hnext
          · rename_i hmore
            exact ih _ hnext (window_ready hhold hready hp hpa hauth' hsteadyHead hmore) hsteadyTail hhonest.2
              haligned.2

/-! ### A run -/

/-- What keeps a run from leaving a gap. -/
structure Gapless (zone : ShopZone) (H : BankHistory) (feed : BankFeed) (today : ℤ) (replies : List FeedReply) :
    Prop where
  /-- No answer carries an account that an earlier answer of the run left out. -/
  steady : Steady replies
  /-- The horizon has not passed the watermark of an account that is switched on. -/
  joins : ∀ a ∈ (feed.opened today).accounts, a.enabled = true → ∀ w, a.backfillSyncedThrough = some w →
    (feed.plan today).horizon ≤ w + 1
  /-- A backfill that resumes past the horizon meets no account for the first time. -/
  known : (feed.plan today).inBackfill = true → (feed.plan today).horizon < (feed.opened today).startDate today →
    ∀ p ∈ payloadsOf replies, ∀ e ∈ p.present, ∃ a ∈ feed.accounts, a.externalAccountId = e
  /-- What is dated in a window was posted in it. -/
  aligned : EachWindow (fun first last p => p.Aligned zone H first last) (feed.plan today)
    ((feed.opened today).startDate today) replies

theorem resynced_holds {feed : BankFeed} {today : ℤ} (h : feed.WatermarksHold zone H) :
    (feed.opened today).WatermarksHold zone H := by
  intro b hb w hw
  obtain ⟨a, ha, rfl⟩ := List.mem_map.mp hb
  unfold FeedAccount.resynced at hw ⊢
  split_ifs at hw ⊢
  exact h a ha w hw

theorem covers_before (zone : ShopZone) (H : BankHistory) (feed : BankFeed) (e : String) (first : ℤ) :
    feed.Covers zone H e first (first - 1) :=
  fun _ _ hfirst hlast => absurd hlast (by omega)

theorem mem_watermarks {feed : BankFeed} {a : FeedAccount} (ha : a ∈ feed.accounts) (hon : a.enabled = true) :
    a.backfillSyncedThrough ∈ feed.watermarks :=
  List.mem_map_of_mem (List.mem_filter.mpr ⟨ha, hon⟩)

/-- A run walks from the horizon where an account that is switched on has no watermark. -/
theorem startDate_of_none {feed : BankFeed} {a : FeedAccount} (ha : a ∈ feed.accounts) (hon : a.enabled = true)
    (hw : a.backfillSyncedThrough = none) (today : ℤ) : feed.startDate today = feed.horizon today := by
  have hmem : none ∈ feed.watermarks := hw ▸ mem_watermarks ha hon
  have hmode : feed.inBackfill = true := by
    have hany : feed.watermarks.any (·.isNone) = true := List.any_eq_true.mpr ⟨none, hmem, rfl⟩
    simp [BankFeed.inBackfill, hany]
  have hlen : ¬ (feed.watermarks.filterMap id).length = feed.watermarks.length := by
    intro hlen
    have := List.filterMap_length_eq_length.mp hlen none hmem
    cases this
  unfold BankFeed.startDate
  dsimp only
  rw [if_pos hmode, if_neg fun h => hlen h.2]

/-- A run begins at the latest on the day after a watermark that the horizon has not passed. -/
theorem startDate_le {feed : BankFeed} {a : FeedAccount} {w today : ℤ} (ha : a ∈ feed.accounts)
    (hon : a.enabled = true) (hw : a.backfillSyncedThrough = some w) (hjoins : feed.horizon today ≤ w + 1) :
    feed.startDate today ≤ w + 1 := by
  have hmem : w ∈ feed.watermarks.filterMap id :=
    List.mem_filterMap.mpr ⟨some w, hw ▸ mem_watermarks ha hon, rfl⟩
  obtain ⟨m, hm⟩ : ∃ m, (feed.watermarks.filterMap id).min? = some m := by
    cases hmin : (feed.watermarks.filterMap id).min? with
    | none => rw [List.min?_eq_none_iff.mp hmin] at hmem; exact absurd hmem List.not_mem_nil
    | some m => exact ⟨m, rfl⟩
  have hle : m ≤ w := (List.min?_eq_some_iff.mp hm).2 w hmem
  unfold BankFeed.startDate
  simp only [hm, Option.getD_some, FETCH_OVERLAP_DAYS]
  split_ifs <;> omega

theorem horizon_le_startDate (feed : BankFeed) (today : ℤ) : feed.horizon today ≤ feed.startDate today := by
  unfold BankFeed.startDate
  dsimp only
  split_ifs <;> omega

/-- A run that leaves no gap begins ready. -/
theorem ready_start {feed : BankFeed} {today : ℤ} {replies : List FeedReply} (hhold : feed.WatermarksHold zone H)
    (hgap : Gapless zone H feed today replies) :
    Ready zone H (feed.plan today) (feed.opened today) [] ((feed.opened today).startDate today)
      (payloadsOf replies) where
  known := by
    intro a ha hon _ _ _ _
    unfold FeedAccount.firstDay
    cases hw : a.backfillSyncedThrough with
    | none =>
      rw [if_pos rfl, startDate_of_none ha hon hw today]
      exact covers_before _ _ _ _ _
    | some w =>
      obtain ⟨first, hfirst, hcov⟩ := resynced_holds hhold a ha w hw
      have hstart := startDate_le ha hon hw (hgap.joins a ha hon w hw)
      rw [if_neg (by simp), hfirst]
      exact fun t ht hlo hhi => hcov t ht hlo (by omega)
  unknown := by
    intro p hp e he hnone hmode
    have hle := horizon_le_startDate (feed.opened today) today
    by_cases hlt : (feed.plan today).horizon < (feed.opened today).startDate today
    · obtain ⟨a, ha, hid⟩ := hgap.known hmode hlt p hp e he
      refine absurd ?_ (hnone a.resynced (List.mem_map_of_mem ha))
      unfold FeedAccount.resynced
      split_ifs
      · exact hid
      · exact hid
    · have heq : (feed.opened today).startDate today = (feed.plan today).horizon := by
        show _ = (feed.opened today).horizon today
        have : ¬ (feed.opened today).horizon today < (feed.opened today).startDate today := hlt
        omega
      rw [heq]
      exact covers_before _ _ _ _ _

/-- A run keeps the watermarks backed. -/
theorem syncInstitution_holds {feed : BankFeed} {today : ℤ} {replies : List FeedReply}
    (hhold : feed.WatermarksHold zone H) (hgap : Gapless zone H feed today replies)
    (hhonest : EachWindow (fun first last p => p.Honest H first last) (feed.plan today)
      ((feed.opened today).startDate today) replies) :
    (feed.syncInstitution zone today replies).WatermarksHold zone H := by
  unfold BankFeed.syncInstitution
  dsimp only
  split_ifs
  · exact hhold
  · exact hhold.congr rfl rfl
  · exact hhold.congr rfl rfl
  · exact syncWindows_holds _ _ 0 (resynced_holds hhold) (ready_start hhold hgap) hgap.steady hhonest hgap.aligned

/-! ### Every sequence of runs -/

/-- The bridge answers a run honestly. -/
def FeedEvent.Honest (H : BankHistory) (feed : BankFeed) : FeedEvent → Prop
  | .sync today replies => EachWindow (fun first last p => p.Honest H first last) (feed.plan today)
      ((feed.opened today).startDate today) replies
  | _ => True

/-- A run of the feed that leaves no gap, or a switch. -/
def FeedEvent.Gapless (zone : ShopZone) (H : BankHistory) (feed : BankFeed) : FeedEvent → Prop
  | .sync today replies => Gdx.Gapless zone H feed today replies
  | _ => True

/-- The states of a feed that its bridge answers honestly, through events that are fit for the state they meet. -/
inductive FeedReached (zone : ShopZone) (H : BankHistory) (fit : BankFeed → FeedEvent → Prop) : BankFeed → Prop
  | start (schedule : FeedSchedule) : FeedReached zone H fit (newBankFeed schedule)
  | step {feed : BankFeed} (ev : FeedEvent) (hreached : FeedReached zone H fit feed) (hhonest : ev.Honest H feed)
      (hfit : fit feed ev) : FeedReached zone H fit (feed.step zone ev)

theorem step_holds {feed : BankFeed} {ev : FeedEvent} (hhold : feed.WatermarksHold zone H)
    (hhonest : ev.Honest H feed) (hgap : ev.Gapless zone H feed) : (feed.step zone ev).WatermarksHold zone H := by
  cases ev with
  | sync today replies => exact syncInstitution_holds hhold hgap hhonest
  | setAccount e syncEnabled isInactive fullResyncRequired =>
    intro b hb w hw
    obtain ⟨a, ha, rfl⟩ := List.mem_map.mp hb
    split_ifs at hw ⊢
    · exact hhold a ha w hw
    · exact hhold a ha w hw
  | setSchedule backfillDays dailyFetchCap => exact hhold.congr rfl rfl
  | setAuth auth => exact hhold.congr rfl rfl

/-- **A watermark never passes a gap**, whatever the runs, as long as each leaves none: every transaction of an account
    dated from the horizon of the run that began its backfill through its watermark is stored. -/
theorem watermark_passes_no_gap (zone : ShopZone) (H : BankHistory) (feed : BankFeed)
    (h : FeedReached zone H (fun feed ev => ev.Gapless zone H feed) feed) : feed.WatermarksHold zone H := by
  induction h with
  | start schedule => exact fun a ha => absurd ha List.not_mem_nil
  | step ev _ hhonest hgap ih => exact step_holds ih hhonest hgap

/-! ### A backfill of three windows -/

/-- A payment posted at noon of day 19900. -/
def springPayment : PostedTxn := ⟨"T1", 19900 * 86400 + 43200, by decide, by decide⟩

/-- The bank's history of one account with one payment. -/
def springHistory : BankHistory where
  txns a := if a = "A" then [springPayment] else []
  unique := by
    intro a t t' ht ht' _
    split_ifs at ht ht'
    · rw [List.mem_singleton.mp ht, List.mem_singleton.mp ht']
    · exact absurd ht List.not_mem_nil

def springSchedule : FeedSchedule := ⟨200, 20, 0, none⟩

/-- An answer without errors. -/
def springAnswer (accounts : List ListedAccount) : FeedReply := .answered 1 ⟨some [], [], accounts⟩

/-- The three answers of a backfill: the payment stands in the second. -/
def springReplies : List FeedReply :=
  [springAnswer [⟨"A", []⟩], springAnswer [⟨"A", [⟨"T1", false, 19900 * 86400 + 43200, some (-5000)⟩]⟩],
    springAnswer [⟨"A", []⟩]]

/-- The same backfill, the second answer without the account. -/
def springRepliesGap : List FeedReply := [springAnswer [⟨"A", []⟩], springAnswer [], springAnswer [⟨"A", []⟩]]

def springFeed (replies : List FeedReply) : BankFeed :=
  (newBankFeed springSchedule).step utcZone (.sync 20000 replies)

theorem springGap_stored : (springFeed springRepliesGap).txns = [] ∧
    (springFeed springRepliesGap).accounts = [⟨"A", true, false, true, false, some 20000, some 19800⟩] := by
  decide +kernel

theorem spring_accounts :
    (springFeed springReplies).accounts = [⟨"A", true, false, true, false, some 20000, some 19800⟩] := by
  decide +kernel

theorem mem_springHistory {a : String} {t : PostedTxn} (h : t ∈ springHistory.txns a) : t = springPayment := by
  unfold springHistory at h
  dsimp only at h
  split_ifs at h
  · exact List.mem_singleton.mp h
  · exact absurd h List.not_mem_nil

/-- An answer that lists nothing is honest for a window the payment is not in. -/
theorem honest_of_outside {first last : ℤ} {accounts : List ListedAccount} (hnone : ∀ c ∈ accounts, c.transactions = [])
    (hout : epochOf first ≤ springPayment.posted → ¬ springPayment.posted < epochOf (last + 1)) :
    FeedPayload.Honest springHistory first last ⟨some [], [], accounts⟩ where
  listed c hc x hx := by
    rw [hnone c hc] at hx
    exact absurd hx List.not_mem_nil
  complete a _ _ _ _ t ht hlo hhi := by
    rw [mem_springHistory ht] at hlo hhi
    exact absurd hhi (hout hlo)

theorem springReplies_honest : (FeedEvent.sync 20000 springReplies).Honest springHistory (newBankFeed springSchedule) := by
  refine ⟨?_, ?_, ?_, trivial⟩
  · rintro n p ⟨⟩
    exact honest_of_outside (by simp) (by decide +kernel)
  · rintro n p ⟨⟩
    refine ⟨?_, ?_⟩
    · intro c hc x hx _
      obtain rfl := List.mem_singleton.mp hc
      obtain rfl := List.mem_singleton.mp hx
      exact ⟨springPayment, List.mem_singleton.mpr rfl, rfl, rfl⟩
    · intro a ha _ _ _ t ht _ _
      rw [mem_springHistory ht]
      obtain rfl : a = "A" := by simpa [FeedPayload.present] using ha
      exact ⟨_, List.mem_singleton.mpr rfl, rfl, _, List.mem_singleton.mpr rfl, rfl, rfl, rfl⟩
  · rintro n p ⟨⟩
    exact honest_of_outside (by simp) (by decide +kernel)

theorem springGap_honest :
    (FeedEvent.sync 20000 springRepliesGap).Honest springHistory (newBankFeed springSchedule) := by
  refine ⟨?_, ?_, ?_, trivial⟩
  · rintro n p ⟨⟩
    exact honest_of_outside (by simp) (by decide +kernel)
  · rintro n p ⟨⟩
    exact ⟨by simp, by simp [FeedPayload.present]⟩
  · rintro n p ⟨⟩
    exact honest_of_outside (by simp) (by decide +kernel)

/-- The payment is dated on the day it was posted on. -/
theorem springAligned (first last : ℤ) (p : FeedPayload) : p.Aligned utcZone springHistory first last := by
  intro a _ t ht hlo hhi
  rw [mem_springHistory ht] at hlo hhi ⊢
  have hday : postedDay utcZone springPayment.posted = 19900 := by decide +kernel
  have hposted : springPayment.posted = 19900 * 86400 + 43200 := rfl
  rw [hday] at hlo hhi
  simp only [epochOf, hposted]
  omega

theorem springReplies_gapless : (FeedEvent.sync 20000 springReplies).Gapless utcZone springHistory
    (newBankFeed springSchedule) where
  steady := by simp [Steady, payloadsOf, springReplies, springAnswer, FeedPayload.present]
  joins a ha := absurd ha List.not_mem_nil
  known _ hlt := absurd hlt (by decide +kernel)
  aligned := ⟨fun _ _ _ => springAligned _ _ _, fun _ _ _ => springAligned _ _ _, fun _ _ _ => springAligned _ _ _,
    trivial⟩

/-- The backfill whose answers all carry the account leaves a watermark with nothing missing below it. -/
theorem watermark_passes_no_gap_backfill :
    (springFeed springReplies).accounts = [⟨"A", true, false, true, false, some 20000, some 19800⟩] ∧
      (springFeed springReplies).WatermarksHold utcZone springHistory :=
  ⟨spring_accounts, watermark_passes_no_gap utcZone springHistory _
    (.step _ (.start springSchedule) springReplies_honest springReplies_gapless)⟩

/-- An account left out of the second answer is stamped by the third, and its payment in between is not stored. -/
theorem watermark_passes_gap :
    ¬ ∀ (zone : ShopZone) (H : BankHistory) (feed : BankFeed), FeedReached zone H (fun _ _ => True) feed →
      ∀ a ∈ feed.accounts, a.enabled = true → ∀ w, a.backfillSyncedThrough = some w →
        ∃ first, a.backfillFrom = some first ∧ feed.Covers zone H a.externalAccountId first w := by
  intro h
  have hreached : FeedReached utcZone springHistory (fun _ _ => True) (springFeed springRepliesGap) :=
    .step _ (.start springSchedule) springGap_honest trivial
  obtain ⟨htxns, haccounts⟩ := springGap_stored
  have hmem : (⟨"A", true, false, true, false, some 20000, some 19800⟩ : FeedAccount) ∈
      (springFeed springRepliesGap).accounts := by
    rw [haccounts]
    exact List.mem_singleton.mpr rfl
  obtain ⟨first, hfirst, hcov⟩ := h utcZone springHistory _ hreached _ hmem rfl 20000 rfl
  obtain rfl := Option.some.inj hfirst
  obtain ⟨row, hrow, -⟩ := hcov springPayment (List.mem_singleton.mpr rfl) (by decide +kernel) (by decide +kernel)
  rw [htxns] at hrow
  exact List.not_mem_nil hrow

end Gdx
