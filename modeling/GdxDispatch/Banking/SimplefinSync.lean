import GdxDispatch.Core.ShopCalendar

/-! The bank feed of SimpleFIN: `modules/bank_feeds/simplefin_service.py`.

    One request answers for every account of the connection. A run walks windows of days up to today, stores what each
    answer lists, and moves the watermark of each account that the answer carried without an error. How a run's
    requests are answered is its input; where the answers run out, the process died.

    Days are day numbers and a posting is an instant in seconds. One row stands for each external account id. Left
    out: names, currencies, balances and their snapshots, payees, memos and hashes, and the report of the run. -/

namespace Gdx
open Lib

/-- `FETCH_OVERLAP_DAYS`. -/
def FETCH_OVERLAP_DAYS : ℤ := 5

/-- `WINDOW_DAYS`. -/
def WINDOW_DAYS : ℤ := 88

/-- `DAILY_FETCH_CAP_MAX`. -/
def DAILY_FETCH_CAP_MAX : ℤ := 20

/-! ### The answers of the bridge -/

structure FeedError where
  code : Text
  accountId : String

/-- A transaction as an answer lists it. -/
structure ListedTxn where
  id : String
  pending : Bool
  posted : ℤ
  amountCents : Option ℤ

structure ListedAccount where
  id : String
  transactions : List ListedTxn

/-- The answer to `GET /accounts`: `errlist`, or the plain texts of the deprecated `errors`, and the accounts. -/
structure FeedPayload where
  errlist : Option (List FeedError)
  errors : List String
  accounts : List ListedAccount

/-- What came of one request, with the number of calls it took: an answer, a `SimpleFINError`, or a
    `SimpleFINAuthError`. -/
inductive FeedReply where
  | answered (requests : ℕ) (payload : FeedPayload)
  | failed (requests : ℕ)
  | denied (requests : ℕ)

/-- The errors of an answer; one without a code counts as general. -/
def FeedPayload.entries (p : FeedPayload) : List FeedError :=
  match p.errlist with
  | some entries => entries.map fun err => if err.code = [] then { err with code := "gen.".toList } else err
  | none => p.errors.map fun _ => ⟨"gen.".toList, ""⟩

def FeedError.startsWith (err : FeedError) (head : String) : Bool := head.toList.isPrefixOf err.code

/-- An error of the credentials. -/
def FeedError.auth (err : FeedError) : Bool := err.startsWith "gen.auth" || err.startsWith "con.auth"

/-- What an error that is not of the credentials makes fail: an account, or the whole run (`*`). -/
def FeedError.fails (err : FeedError) : Option String :=
  if err.auth then none
  else if err.startsWith "act." then some err.accountId
  else if err.startsWith "gen." || err.startsWith "con." then some "*"
  else none

/-- `_classify_errlist`: whether the credentials are broken, and what has failed. -/
def classifyErrlist (p : FeedPayload) : Bool × List String :=
  (p.entries.any (·.auth), p.entries.filterMap (·.fails))

/-! ### The tables -/

inductive FeedAuth where
  | healthy
  | needsReconnect
  | disconnected
  deriving DecidableEq

/-- A row of `bank_feed_accounts`. The last field is no column: it keeps the horizon of the run that began the
    backfill the watermark belongs to. -/
structure FeedAccount where
  externalAccountId : String
  syncEnabled : Bool
  isInactive : Bool
  initialBackfillDone : Bool
  fullResyncRequired : Bool
  backfillSyncedThrough : Option ℤ
  backfillFrom : Option ℤ
  deriving DecidableEq

/-- A row of `bank_feed_transactions`. -/
structure FeedTxn where
  account : String
  externalTransactionId : String
  postedAt : ℤ
  postedDate : ℤ
  amountCents : Option ℤ
  deriving DecidableEq

/-- The schedule singleton, with the ledger of fetches. -/
structure FeedSchedule where
  backfillDays : ℤ
  dailyFetchCap : ℤ
  fetchCountToday : ℤ
  fetchCountDate : Option ℤ
  deriving DecidableEq

structure BankFeed where
  accounts : List FeedAccount
  txns : List FeedTxn
  schedule : FeedSchedule
  auth : FeedAuth
  deriving DecidableEq

/-- `sync_enabled and not is_inactive`. -/
def FeedAccount.enabled (a : FeedAccount) : Bool := a.syncEnabled && !a.isInactive

/-- The row made for an account on first sight. -/
def newFeedAccount (externalAccountId : String) : FeedAccount :=
  ⟨externalAccountId, true, false, false, false, none, none⟩

/-! ### The ledger of fetches -/

def effectiveCap (schedule : FeedSchedule) : ℤ :=
  let cap := if schedule.dailyFetchCap = 0 then DAILY_FETCH_CAP_MAX else schedule.dailyFetchCap
  max 1 (min cap DAILY_FETCH_CAP_MAX)

def rollLedger (schedule : FeedSchedule) (today : ℤ) : FeedSchedule :=
  if schedule.fetchCountDate = some today then schedule
  else { schedule with fetchCountDate := some today, fetchCountToday := 0 }

def BankFeed.recordFetches (feed : BankFeed) (today : ℤ) (n : ℕ) : BankFeed :=
  if n = 0 then feed
  else
    let schedule := rollLedger feed.schedule today
    { feed with schedule := { schedule with fetchCountToday := schedule.fetchCountToday + n } }

/-! ### Ingest -/

/-- The last second that a `datetime` can hold. -/
def MAX_EPOCH : ℤ := 253402300799

/-- `_epoch_to_dt`. -/
def epochToDt (value : ℤ) : Option ℤ := if 0 < value ∧ value ≤ MAX_EPOCH then some value else none

/-- `_epoch_of`. -/
def epochOf (day : ℤ) : ℤ := day * 86400

/-- The day of a posting in the tenant's zone. -/
def postedDay (zone : ShopZone) (posted : ℤ) : ℤ := zone.day (posted * 1000000)

/-- `_upsert_sfin_transaction`: a transaction without an id, pending or without a posting is dropped. -/
def upsertSfinTransaction (zone : ShopZone) (account : String) (rows : List FeedTxn) (txn : ListedTxn) : List FeedTxn :=
  if txn.id = "" ∨ txn.pending = true then rows
  else
    match epochToDt txn.posted with
    | none => rows
    | some posted =>
      if rows.any fun row => row.account = account && row.externalTransactionId = txn.id then
        rows.map fun row =>
          if row.account = account ∧ row.externalTransactionId = txn.id then
            { row with
              postedAt := posted
              postedDate := postedDay zone posted
              amountCents := txn.amountCents.or row.amountCents }
          else row
      else rows ++ [⟨account, txn.id, posted, postedDay zone posted, txn.amountCents⟩]

/-- The row of an account, made where there is none. -/
def BankFeed.upsertSfinAccount (feed : BankFeed) (externalAccountId : String) : BankFeed :=
  if feed.accounts.any (·.externalAccountId = externalAccountId) then feed
  else { feed with accounts := feed.accounts ++ [newFeedAccount externalAccountId] }

/-- One account of an answer: its row, and its transactions unless it is switched off. -/
def BankFeed.ingestAccount (zone : ShopZone) (feed : BankFeed) (acct : ListedAccount) : BankFeed :=
  if acct.id = "" then feed
  else
    let feed := feed.upsertSfinAccount acct.id
    if feed.accounts.any fun a => a.externalAccountId = acct.id && a.enabled then
      { feed with txns := acct.transactions.foldl (upsertSfinTransaction zone acct.id) feed.txns }
    else feed

/-- `_ingest_payload`. -/
def BankFeed.ingestPayload (zone : ShopZone) (feed : BankFeed) (p : FeedPayload) : BankFeed :=
  p.accounts.foldl (BankFeed.ingestAccount zone) feed

/-- The ids of the accounts that an answer carries. -/
def FeedPayload.present (p : FeedPayload) : List String := (p.accounts.map (·.id)).filter (· ≠ "")

/-! ### The sync -/

/-- The accounts once requested resyncs have put their watermarks back. -/
def FeedAccount.resynced (a : FeedAccount) : FeedAccount :=
  if a.enabled && a.fullResyncRequired then
    { a with initialBackfillDone := false, backfillSyncedThrough := none, backfillFrom := none,
             fullResyncRequired := false }
  else a

def BankFeed.watermarks (feed : BankFeed) : List (Option ℤ) :=
  (feed.accounts.filter (·.enabled)).map (·.backfillSyncedThrough)

def BankFeed.inBackfill (feed : BankFeed) : Bool :=
  feed.watermarks.isEmpty || feed.watermarks.any (·.isNone) ||
    (feed.accounts.filter (·.enabled)).any (!·.initialBackfillDone)

def BankFeed.horizon (feed : BankFeed) (today : ℤ) : ℤ :=
  today - if feed.schedule.backfillDays = 0 then 365 else feed.schedule.backfillDays

/-- The first day a run asks for. -/
def BankFeed.startDate (feed : BankFeed) (today : ℤ) : ℤ :=
  let known := feed.watermarks.filterMap id
  if feed.inBackfill then
    if known ≠ [] ∧ known.length = feed.watermarks.length then
      max (feed.horizon today) (known.min?.getD 0 - 1)
    else feed.horizon today
  else max (feed.horizon today) (known.min?.getD 0 - FETCH_OVERLAP_DAYS)

/-- What stays the same through the windows of a run. -/
structure SyncRun where
  today : ℤ
  horizon : ℤ
  inBackfill : Bool

def SyncRun.windowEnd (run : SyncRun) (windowStart : ℤ) : ℤ := min (windowStart + WINDOW_DAYS) run.today

/-- Whether the window moves the watermark of an account. -/
def SyncRun.stamps (run : SyncRun) (present failed : List String) (a : FeedAccount) : Bool :=
  a.enabled && present.contains a.externalAccountId && !failed.contains "*" &&
    !failed.contains a.externalAccountId && (run.inBackfill || a.initialBackfillDone)

def SyncRun.stamp (run : SyncRun) (windowEnd : ℤ) (present failed : List String) (a : FeedAccount) : FeedAccount :=
  if run.stamps present failed a then
    { a with
      backfillSyncedThrough := some windowEnd
      initialBackfillDone := a.initialBackfillDone || decide (run.today ≤ windowEnd)
      backfillFrom := if a.backfillSyncedThrough = none then some run.horizon else a.backfillFrom }
  else a

/-- The loop over the windows: from a window's first day, with what has failed in the run and the calls made so far. -/
def BankFeed.syncWindows (zone : ShopZone) (run : SyncRun) :
    List FeedReply → BankFeed → ℤ → List String → ℕ → BankFeed
  | [], feed, _, _, _ => feed
  | reply :: replies, feed, windowStart, failed, fetches =>
    if effectiveCap feed.schedule - feed.schedule.fetchCountToday - fetches ≤ 0 then
      feed.recordFetches run.today fetches
    else
      match reply with
      | .failed requests => feed.recordFetches run.today (fetches + requests)
      | .denied requests => { feed.recordFetches run.today (fetches + requests) with auth := .needsReconnect }
      | .answered requests p =>
        let windowEnd := run.windowEnd windowStart
        let failed := failed ++ (classifyErrlist p).2
        let feed := feed.ingestPayload zone p
        if (classifyErrlist p).1 then
          { feed.recordFetches run.today (fetches + requests) with auth := .needsReconnect }
        else
          let feed := { feed with accounts := feed.accounts.map (run.stamp windowEnd p.present failed) }
          if run.today ≤ windowEnd then feed.recordFetches run.today (fetches + requests)
          else feed.syncWindows zone run replies (windowEnd - FETCH_OVERLAP_DAYS) failed (fetches + requests)

/-- The tables as a run finds them, the ledger rolled to its day and the requested resyncs done. -/
def BankFeed.opened (feed : BankFeed) (today : ℤ) : BankFeed :=
  { feed with accounts := feed.accounts.map (·.resynced), schedule := rollLedger feed.schedule today }

/-- The parts of a run that are fixed before its first request. -/
def BankFeed.plan (feed : BankFeed) (today : ℤ) : SyncRun :=
  ⟨today, (feed.opened today).horizon today, (feed.opened today).inBackfill⟩

def BankFeed.syncInstitution (zone : ShopZone) (feed : BankFeed) (today : ℤ) (replies : List FeedReply) : BankFeed :=
  if feed.auth ≠ .healthy then feed
  else
    let schedule := rollLedger feed.schedule today
    if effectiveCap schedule - schedule.fetchCountToday ≤ 0 then { feed with schedule := schedule }
    else if feed.accounts ≠ [] ∧ feed.accounts.all (!·.enabled) then { feed with schedule := schedule }
    else
      (feed.opened today).syncWindows zone (feed.plan today) replies ((feed.opened today).startDate today) [] 0

/-- What happens to the feed: a run, and between runs the switches of an account, the schedule and the connection. -/
inductive FeedEvent where
  | sync (today : ℤ) (replies : List FeedReply)
  | setAccount (externalAccountId : String) (syncEnabled isInactive fullResyncRequired : Bool)
  | setSchedule (backfillDays dailyFetchCap : ℤ)
  | setAuth (auth : FeedAuth)

def BankFeed.step (zone : ShopZone) (feed : BankFeed) : FeedEvent → BankFeed
  | .sync today replies => feed.syncInstitution zone today replies
  | .setAccount externalAccountId syncEnabled isInactive fullResyncRequired =>
    { feed with accounts := feed.accounts.map fun a =>
        if a.externalAccountId = externalAccountId then
          { a with syncEnabled := syncEnabled, isInactive := isInactive, fullResyncRequired := fullResyncRequired }
        else a }
  | .setSchedule backfillDays dailyFetchCap =>
    { feed with schedule := { feed.schedule with backfillDays := backfillDays, dailyFetchCap := dailyFetchCap } }
  | .setAuth auth => { feed with auth := auth }

/-- A feed before its first run. -/
def newBankFeed (schedule : FeedSchedule) : BankFeed := ⟨[], [], schedule, .healthy⟩

end Gdx
