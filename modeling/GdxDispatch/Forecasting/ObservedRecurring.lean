import Mathlib.Data.Int.Log
import Mathlib.Data.Rat.Floor
import Mathlib.Data.List.Sort
import Mathlib.Tactic.Linarith
import GdxDispatch.Core.ShopCalendar

/-! Recurring payments found in the bank feed: `modules/forecasting/observed_recurring.py`.

    `find_candidates` groups the bank's transactions by payee, splits each group into clusters of like amounts and
    keeps the clusters that come at a steady cadence. `upsert_streams` writes each candidate to the newest live stream
    of its payee whose amount window holds the candidate's median, and opens a stream where there is none.

    A stored amount is in cents and a day is a day number. In between the amounts are floats of dollars, rounded after
    each operation as Python rounds them. The streams stand in the order of the query, newest first, so that a stream
    opened by a run stands before all that were there. What `normalize_payee` does with the bank's text is a
    parameter. -/

namespace Gdx
open Lib

inductive StreamCadence where
  | weekly
  | biweekly
  | monthly
  | quarterly
  | semiannual
  | annual
  deriving DecidableEq

inductive StreamStatus where
  | suggested
  | active
  | paidOff
  | cancelled
  | expired
  deriving DecidableEq

inductive StreamSource where
  | observed
  | manual
  | qboTemplate
  deriving DecidableEq

/-! ### Candidates -/

/-- `DETECTOR_WINDOW_MONTHS`. -/
def DETECTOR_WINDOW_MONTHS : ℤ := 24

/-- `MIN_OCCURRENCES`. -/
def MIN_OCCURRENCES : ℕ := 3

/-- `MAX_CV`. -/
def MAX_CV : ℚ := 1 / 4

/-- `AMOUNT_BUCKET_TOLERANCE_PCT`. -/
def AMOUNT_BUCKET_TOLERANCE_PCT : ℚ := 1 / 5

/-- A row of `qb_bank_transactions`. -/
structure QBBankTransaction where
  qbTxnId : String
  txnDate : Option ℤ
  payee : Option String
  amount : ℤ
  deleted : Bool

/-- A transaction the detector reads: it has a day and a payee. -/
structure DatedTxn where
  qbTxnId : String
  txnDate : ℤ
  payee : String
  amount : ℤ

structure StreamCandidate where
  payeeNorm : String
  medianAmount : ℤ
  amountMin : ℤ
  amountMax : ℤ
  cadence : StreamCadence
  occurrences : ℕ
  firstSeen : ℤ
  lastSeen : ℤ
  nextExpected : ℤ
  txnIds : List (String × ℤ × ℤ)
  deriving DecidableEq

/-- `round(q)` of Python, a half going to the even neighbour. -/
def roundHalfEven (q : ℚ) : ℤ :=
  if q - ⌊q⌋ < 1 / 2 then ⌊q⌋
  else if 1 / 2 < q - ⌊q⌋ then ⌊q⌋ + 1
  else if ⌊q⌋ % 2 = 0 then ⌊q⌋ else ⌊q⌋ + 1

/-! ### Floats

    A double has 53 binary digits; its exponent has no bound here, no amount coming near one. -/

/-- The place of the last digit of a double whose first digit is that of `q`. -/
def ulp (q : ℚ) : ℚ := 2 ^ (Int.log 2 |q| - 52)

/-- The double nearest to `q`, of two the even one. -/
def double (q : ℚ) : ℚ := roundHalfEven (q / ulp q) * ulp q

/-- The double nearest to the square root of `q`. -/
def sqrtDouble (q : ℚ) : ℚ :=
  let unit : ℚ := 2 ^ (Int.log 2 q / 2 - 52)
  let square := q / unit ^ 2
  let root := Nat.sqrt ⌊square⌋₊
  let half := ((root : ℚ) + 1 / 2) ^ 2
  if square < half ∨ square = half ∧ root % 2 = 0 then root * unit else (root + 1) * unit

/-- An amount of cents as a float of dollars. -/
def dollars (cents : ℤ) : ℚ := double (cents / 100)

/-- `round(x, 2)` of a float of dollars, in cents. -/
def roundCents (x : ℚ) : ℤ := roundHalfEven (x * 100)

/-- `statistics.median`, each operation rounded by `fl`: `double` for floats, `id` for exact numbers. -/
def median (fl : ℚ → ℚ) (xs : List ℚ) : ℚ :=
  let sorted := xs.insertionSort (· ≤ ·)
  let n := sorted.length
  if n % 2 = 1 then sorted.getD (n / 2) 0
  else fl (fl (sorted.getD (n / 2 - 1) 0 + sorted.getD (n / 2) 0) / 2)

def CADENCE_BANDS : List (ℚ × ℚ × StreamCadence) :=
  [(5, 9, .weekly), (12, 16, .biweekly), (25, 35, .monthly), (80, 100, .quarterly), (170, 195, .semiannual),
    (350, 380, .annual)]

def classifyCadence (medianDelta : ℚ) : Option StreamCadence :=
  (CADENCE_BANDS.find? fun (lo, hi, _) => decide (lo ≤ medianDelta ∧ medianDelta ≤ hi)).map fun (_, _, name) => name

/-- `_coefficient_of_variation(amounts) > MAX_CV`. `fmean` divides the rounded sum; `pstdev` takes the root of the exact
    variance. -/
def variesTooMuch (amounts : List ℚ) : Bool :=
  let n : ℚ := amounts.length
  let mean := double (double amounts.sum / n)
  let variance := (amounts.map fun a => (a - amounts.sum / n) ^ 2).sum / n
  if amounts.length < 2 then false
  else if mean = 0 then true
  else decide (MAX_CV < double (sqrtDouble variance / mean))

/-- A dict from a cluster's median to the places of its members, in the order of its keys. -/
abbrev Clusters := List (ℚ × List ℕ)

/-- `clusters[med] = members`. -/
def Clusters.set (clusters : Clusters) (med : ℚ) (members : List ℕ) : Clusters :=
  if clusters.any (·.1 = med) then clusters.map fun entry => if entry.1 = med then (med, members) else entry
  else clusters ++ [(med, members)]

/-- `clusters.pop(med)`. -/
def Clusters.pop (clusters : Clusters) (med : ℚ) : Clusters := clusters.filter (·.1 ≠ med)

/-- The pass of `_bucket_amounts` for one amount. -/
def bucketAmount (fl : ℚ → ℚ) (amounts : List ℚ) (clusters : Clusters) (idx : ℕ) : Clusters :=
  let amt := amounts.getD idx 0
  match clusters.find? fun (med, _) => decide (|fl (amt - med)| ≤ fl (fl AMOUNT_BUCKET_TOLERANCE_PCT * med)) with
  | some (med, members) =>
    let members' := members ++ [idx]
    let newMed := median fl (members'.map fun i => amounts.getD i 0)
    if newMed ≠ med then (clusters.pop med).set newMed members' else clusters.set med members'
  | none => clusters.set amt [idx]

def bucketAmounts (fl : ℚ → ℚ) (amounts : List ℚ) : Clusters :=
  (List.range amounts.length).foldl (bucketAmount fl amounts) []

/-- `_project_next_date`. -/
def projectNextDate (lastDate : ℤ) : StreamCadence → ℤ
  | .weekly => lastDate + 7
  | .biweekly => lastDate + 14
  | .monthly => lastDate + 30
  | .quarterly => lastDate + 91
  | .semiannual => lastDate + 182
  | .annual => lastDate + 365

/-- Days between consecutive dates. -/
def dayDeltas (dates : List ℤ) : List ℤ := List.zipWith (fun next prev => next - prev) dates.tail dates

/-- The year and month of a day. -/
def yearMonth (day : ℤ) : ℤ × ℤ := ((civil day).1, (civil day).2.1)

/-- One cluster of one payee's transactions: a candidate, where the cluster passes every gate. -/
def clusterCandidate (payeeNorm : String) (txns : List DatedTxn) (med : ℚ) (idxs : List ℕ) : Option StreamCandidate :=
  if idxs.length < MIN_OCCURRENCES then none
  else
    let found := idxs.filterMap (txns[·]?)
    if variesTooMuch (found.map (dollars ·.amount)) then none
    else
      let members := found.insertionSort (·.txnDate ≤ ·.txnDate)
      let dates := members.map (·.txnDate)
      match classifyCadence (median id ((dayDeltas dates).map fun d => (d : ℚ))) with
      | none => none
      | some cadence =>
        if (dates.map yearMonth).dedup.length < MIN_OCCURRENCES then none
        else
          let lastSeen := dates.getLastD 0
          some
            { payeeNorm
              medianAmount := roundCents med
              amountMin := roundCents (double (med * double (1 - double AMOUNT_BUCKET_TOLERANCE_PCT)))
              amountMax := roundCents (double (med * double (1 + double AMOUNT_BUCKET_TOLERANCE_PCT)))
              cadence
              occurrences := members.length
              firstSeen := dates.headD 0
              lastSeen
              nextExpected := projectNextDate lastSeen cadence
              txnIds := members.map fun m => (m.qbTxnId, m.txnDate, m.amount) }

/-- `by_payee[key].append(row)`, the keys in the order they came up. -/
def groupByPayee (key : String) (row : DatedTxn) : List (String × List DatedTxn) → List (String × List DatedTxn)
  | [] => [(key, [row])]
  | (k, rows) :: rest => if k = key then (k, rows ++ [row]) :: rest else (k, rows) :: groupByPayee key row rest

/-- The rows the scan reads: dated on or after the cutoff, with a payee, not tombstoned. -/
def scannedRow (cutoff : ℤ) (row : QBBankTransaction) : Option DatedTxn :=
  match row.txnDate, row.payee with
  | some txnDate, some payee =>
    if cutoff ≤ txnDate ∧ row.deleted = false then some ⟨row.qbTxnId, txnDate, payee, row.amount⟩ else none
  | _, _ => none

def findCandidates (normalizePayee : String → String) (today : ℤ) (rows : List QBBankTransaction) :
    List StreamCandidate :=
  let scanned := rows.filterMap (scannedRow (today - DETECTOR_WINDOW_MONTHS * 31))
  let byPayee := scanned.foldl (fun groups row =>
    if normalizePayee row.payee = "" then groups else groupByPayee (normalizePayee row.payee) row groups) []
  byPayee.flatMap fun (payeeNorm, txns) =>
    if txns.length < MIN_OCCURRENCES then []
    else
      (bucketAmounts double (txns.map (dollars ·.amount))).filterMap fun (med, idxs) =>
        clusterCandidate payeeNorm txns med idxs

/-! ### Streams -/

/-- The columns of a stream that the lookup of `upsert_streams` reads. -/
structure StreamMatcher where
  id : ℕ
  payeePattern : String
  status : StreamStatus
  amountMin : ℤ
  amountMax : ℤ
  deriving DecidableEq

/-- A row of `recurring_streams`. -/
structure RecurringStream extends StreamMatcher where
  source : StreamSource
  cadence : StreamCadence
  occurrencesSeen : ℕ
  startDate : Option ℤ
  lastObservedDate : Option ℤ
  nextExpectedDate : Option ℤ
  deriving DecidableEq

/-- A row of `recurring_stream_hits`. -/
structure RecurringStreamHit where
  streamId : ℕ
  qbTxnId : String
  txnDate : ℤ
  amount : ℤ
  confirmed : Bool
  deriving DecidableEq

/-- The two tables, the streams newest first. -/
structure StreamTables where
  streams : List RecurringStream
  hits : List RecurringStreamHit
  deriving DecidableEq

/-- The filters of the lookup: the payee, a live status and a window that holds the median. -/
def StreamMatcher.holds (m : StreamMatcher) (cand : StreamCandidate) : Bool :=
  m.payeePattern = cand.payeeNorm && (m.status = .suggested || m.status = .active) &&
    m.amountMin ≤ cand.medianAmount && cand.medianAmount ≤ m.amountMax

/-- An id that no stream has. -/
def freshStreamId (streams : List StreamMatcher) : ℕ := (streams.map (·.id)).foldr max 0 + 1

/-- The stream `upsert_streams` opens for a candidate. -/
def newStream (id : ℕ) (cand : StreamCandidate) : RecurringStream where
  id := id
  payeePattern := cand.payeeNorm
  status := .suggested
  amountMin := cand.amountMin
  amountMax := cand.amountMax
  source := .observed
  cadence := cand.cadence
  occurrencesSeen := cand.occurrences
  startDate := some cand.firstSeen
  lastObservedDate := some cand.lastSeen
  nextExpectedDate := some cand.nextExpected

/-- What `upsert_streams` writes to the stream it found. -/
def RecurringStream.refresh (stream : RecurringStream) (cand : StreamCandidate) : RecurringStream :=
  { stream with
    occurrencesSeen := cand.occurrences
    lastObservedDate := some cand.lastSeen
    nextExpectedDate := some cand.nextExpected
    cadence := if stream.status = .suggested then cand.cadence else stream.cadence }

/-- The hits added to a stream: those of the candidate whose transaction it does not have yet. -/
def attachHit (streamId : ℕ) (hits : List RecurringStreamHit) (txn : String × ℤ × ℤ) : List RecurringStreamHit :=
  if hits.any fun hit => hit.streamId = streamId && hit.qbTxnId = txn.1 then hits
  else hits ++ [⟨streamId, txn.1, txn.2.1, txn.2.2, false⟩]

def attachHits (streamId : ℕ) (hits : List RecurringStreamHit) (txnIds : List (String × ℤ × ℤ)) :
    List RecurringStreamHit :=
  txnIds.foldl (attachHit streamId) hits

/-- `.order_by(created_at.desc()).first()` of the streams that hold the candidate. -/
def StreamTables.existing (s : StreamTables) (cand : StreamCandidate) : Option RecurringStream :=
  s.streams.find? (·.toStreamMatcher.holds cand)

/-- The counts `upsert_streams` returns. -/
structure UpsertCounts where
  inserted : ℕ
  updated : ℕ
  hitsAdded : ℕ
  deriving DecidableEq

/-- The stream that a candidate's transactions are attached to: the one found, or the one opened for it. -/
def StreamTables.attachedTo (s : StreamTables) (cand : StreamCandidate) : ℕ :=
  match s.existing cand with
  | none => freshStreamId (s.streams.map (·.toStreamMatcher))
  | some found => found.id

/-- One pass of the loop of `upsert_streams`. -/
def upsertStream (s : StreamTables) (cand : StreamCandidate) : StreamTables :=
  let streamId := s.attachedTo cand
  let hits := attachHits streamId s.hits cand.txnIds
  match s.existing cand with
  | none => ⟨newStream streamId cand :: s.streams, hits⟩
  | some _ => ⟨s.streams.map fun stream => if stream.id = streamId then stream.refresh cand else stream, hits⟩

/-- What one pass adds to the counts. -/
def UpsertCounts.add (n : UpsertCounts) (s : StreamTables) (cand : StreamCandidate) : UpsertCounts where
  inserted := n.inserted + if (s.existing cand).isNone then 1 else 0
  updated := n.updated + if (s.existing cand).isSome then 1 else 0
  hitsAdded := n.hitsAdded + ((upsertStream s cand).hits.length - s.hits.length)

/-- `upsert_streams`: the tables it commits and the counts it returns. -/
def upsertStreams (s : StreamTables) (cands : List StreamCandidate) : StreamTables × UpsertCounts :=
  cands.foldl (fun (s, n) cand => (upsertStream s cand, n.add s cand)) (s, ⟨0, 0, 0⟩)

def runDetector (normalizePayee : String → String) (today : ℤ) (rows : List QBBankTransaction) (s : StreamTables) :
    StreamTables × UpsertCounts :=
  upsertStreams s (findCandidates normalizePayee today rows)

/-- For each candidate in turn, the stream `upsert_streams` attaches its transactions to. -/
def attachments (s : StreamTables) : List StreamCandidate → List ℕ
  | [] => []
  | cand :: cands => s.attachedTo cand :: attachments (upsertStream s cand) cands

end Gdx
