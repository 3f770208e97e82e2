import GdxDispatch.Banking.FeedMatch
import Mathlib.Data.List.Sort

/-! The statement status of a page of feed transactions: `compute_statuses` of `modules/bank_feeds/feed_match_status.py`.

    The rows of the page set a window of dates; the claimants and the lines inside it are read, grouped by account and
    amount, and each group is solved. Ids stand for UUIDs, days are day numbers, and a page's row carries the account of its
    transaction. -/

namespace Gdx.FeedStatus
open Lib FeedMatch

/-! ### The tables -/

/-- A row of `bank_feed_transactions`. -/
structure FeedTxn where
  id : ℕ
  accountId : ℕ
  amountCents : Option ℤ
  pending : Bool
  postedDate : Option ℤ
  deleted : Bool

structure StatementLine where
  id : ℕ
  bankAccountId : ℕ
  amountCents : ℤ
  txnDate : ℤ

structure StatementImport where
  bankAccountId : ℕ
  periodStart : ℤ
  periodEnd : ℤ
  voided : Bool

/-- A line of a match, with whether the match is confirmed. -/
structure MatchLine where
  lineId : ℕ
  matchId : ℕ
  classification : Option String
  confirmed : Bool

/-- What the statuses are read from; `bankAccountId` is the statement account a feed account is linked to. -/
structure Database where
  txns : List FeedTxn
  bankAccountId : ℕ → Option ℕ
  lines : List StatementLine
  imports : List StatementImport
  matchLines : List MatchLine
  txn_ids : (txns.map FeedTxn.id).Nodup
  line_ids : (lines.map StatementLine.id).Nodup

inductive Payload where
  | pending
  | noAmount
  | unlinked
  | ambiguous (claimants lines : ℕ)
  | unmatched
  | feedOnly
  | statementVerified (line : ℕ)
  | matched (line matchId : ℕ) (classification : Option String)
  deriving DecidableEq

/-! ### The reads of one page -/

/-- An account and an amount. -/
abbrev Key := ℕ × ℤ

/-- The key and the date of a row that can be compared: posted, dated, with an amount and a linked account. -/
def datable (db : Database) (t : FeedTxn) : Option (Key × ℤ) :=
  match t.postedDate, t.amountCents, db.bankAccountId t.accountId with
  | some posted, some amount, some account => if t.pending then none else some ((account, amount), posted)
  | _, _, _ => none

/-- What the reads of a page are restricted to. -/
structure Window where
  bankAccountIds : List ℕ
  amounts : List ℤ
  lo : ℤ
  hi : ℤ

def windowOf (rows : List (Key × ℤ)) : Option Window :=
  match (rows.map Prod.snd).min?, (rows.map Prod.snd).max? with
  | some first, some last =>
    some ⟨rows.map fun r => r.1.1, rows.map fun r => r.1.2, first - DATE_WINDOW_DAYS, last + DATE_WINDOW_DAYS⟩
  | _, _ => none

def Window.holds (w : Window) (key : Key) (date : ℤ) : Bool :=
  key.1 ∈ w.bankAccountIds ∧ key.2 ∈ w.amounts ∧ w.lo ≤ date ∧ date ≤ w.hi

/-- A row that a read returns: its key, its date and its id. -/
structure Row where
  key : Key
  date : ℤ
  id : ℕ

/-- `ORDER BY` the date, then the id. -/
def Row.before (r r' : Row) : Prop := r.date < r'.date ∨ r.date = r'.date ∧ r.id ≤ r'.id

instance : DecidableRel Row.before := fun _ _ => inferInstanceAs (Decidable (_ ∨ _))

def lineRows (db : Database) (w : Window) : List Row :=
  ((db.lines.map fun l => ⟨(l.bankAccountId, l.amountCents), l.txnDate, l.id⟩).filter
    fun r => w.holds r.key r.date).insertionSort Row.before

/-- The claimants are read from the whole table, not from the page. -/
def claimRows (db : Database) (w : Window) : List Row :=
  ((db.txns.filterMap fun t => if t.deleted then none else (datable db t).map fun r => ⟨r.1, r.2, t.id⟩).filter
    fun r => w.holds r.key r.date).insertionSort Row.before

/-- `claims_by_key` and `lines_by_key`. -/
def byKey (rows : List Row) (key : Key) : List (ℤ × ℕ) := (rows.filter fun r => r.key = key).map fun r => (r.date, r.id)

/-- What the groups add up to. -/
structure Verdicts where
  assigned : List (ℕ × ℕ)
  ambiguous : List ℕ
  contention : List (ℕ × ℕ × ℕ)

def solveKey (claims lines : List Row) (v : Verdicts) (key : Key) : Verdicts :=
  let claimants := byKey claims key
  let keyLines := byKey lines key
  let s := solve claimants keyLines
  ⟨s.assigned ++ v.assigned, s.ambiguous ++ v.ambiguous,
    claimants.map (fun c => (c.2, claimants.length, keyLines.length)) ++ v.contention⟩

def verdicts (db : Database) (w : Window) : Verdicts :=
  ((claimRows db w).map Row.key).dedup.foldl (solveKey (claimRows db w) (lineRows db w)) ⟨[], [], []⟩

/-- `confirmed_lines`: of several rows for a line the last one read stands. -/
def confirmedLine (db : Database) (w : Window) (line : ℕ) : Option MatchLine :=
  (db.matchLines.filter fun m => m.lineId ∈ (lineRows db w).map Row.id ∧ m.confirmed).reverse.find? fun m => m.lineId = line

/-- `_coverage` and `_covered`. -/
def covered (db : Database) (w : Window) (account : ℕ) (date : ℤ) : Bool :=
  (db.imports.filter fun i => i.bankAccountId ∈ w.bankAccountIds ∧ i.voided = false).any fun i =>
    i.bankAccountId = account ∧ i.periodStart ≤ date ∧ date ≤ i.periodEnd

/-! ### The statuses -/

def pairedPayload (line : ℕ) : Option MatchLine → Payload
  | none => .statementVerified line
  | some m => .matched line m.matchId m.classification

/-- The payload of a row whose account is linked. -/
def linkedPayload (v : Verdicts) (confirmed : ℕ → Option MatchLine) (isCovered : Bool) (id : ℕ) : Payload :=
  if id ∈ v.ambiguous then
    let counts := (held v.contention id).getD (0, 0)
    .ambiguous counts.1 counts.2
  else
    match held v.assigned id with
    | none => if isCovered then .unmatched else .feedOnly
    | some line => pairedPayload line (confirmed line)

def payload (db : Database) (w : Option Window) (t : FeedTxn) : Payload :=
  if t.pending then .pending
  else
    match t.postedDate, t.amountCents, db.bankAccountId t.accountId with
    | none, _, _ => .pending
    | some _, none, _ => .noAmount
    | some _, some _, none => .unlinked
    | some posted, some _, some account =>
      match w with
      | none => linkedPayload ⟨[], [], []⟩ (fun _ => none) false t.id
      | some w => linkedPayload (verdicts db w) (confirmedLine db w) (covered db w account posted) t.id

def pageWindow (db : Database) (rows : List FeedTxn) : Option Window := windowOf (rows.filterMap (datable db))

/-- `compute_statuses`. -/
def computeStatuses (db : Database) (rows : List FeedTxn) : List (ℕ × Payload) :=
  rows.map fun t => (t.id, payload db (pageWindow db rows) t)

end Gdx.FeedStatus
