import Mathlib.Data.List.Basic
import Mathlib.Data.List.Sort
import GdxDispatch.Lib.Text

/-! The offline queue of the mobile app: `composables/useOfflineSync.js` over the store of `lib/offlineDb.js`.

    A write is a row of the store. Two senders put rows on the wire, the call that made the row and the
    drain; both go through one claim. Every step here is one IndexedDB transaction or one answer of the
    server, and what an `async` function read before is kept in its task, so that the steps of two calls
    interleave in any order. A page can die at any step: its tasks are gone, and what it had on the wire may
    still reach the server until the next page starts. The claim and the start of its send are one step.

    Left out: the texts of refusals, attempt counts, the pending count, and `_waitingBehind`, which only asks
    for a drain that may start at any time here. -/

namespace Gdx

open Lib

/-! ### Rows -/

inductive QueueStatus where
  | pending
  | syncing
  | synced
  | failed
  deriving DecidableEq

/-- The groups of `SUPERSEDE_GROUP`, where a newer write that landed makes an older one obsolete. -/
inductive SupersedeGroup where
  | closeout
  | dispatch
  | reorder
  | parts
  deriving DecidableEq

def supersedeGroup (actionType : Text) : Option SupersedeGroup :=
  if actionType = "job.closeout".toList then some .closeout
  else if actionType = "job.en_route".toList then some .dispatch
  else if actionType = "job.arrived".toList then some .dispatch
  else if actionType = "today.reorder".toList then some .reorder
  else if actionType = "parts.status".toList then some .parts
  else none

/-- `NOT_RETRYABLE` holds payments. -/
def isRetryable (actionType : Text) : Bool := actionType ≠ "invoice.payment".toList

/-- A row of `sync_queue`, as far as the queue decides by it. -/
structure QueueRow where
  id : ℕ
  actionType : Text
  resourceId : Text
  conflictIsError : Bool
  createdAt : ℕ
  status : QueueStatus := .pending
  acknowledged : Bool := false
  superseded : Bool := false
  uncertain : Bool := false
  lastAttemptedAt : Option ℕ := none
  firstMaybeRanAt : Option ℕ := none
  deriving DecidableEq

/-- The supersede group and the resource, for a row that has a group. -/
def QueueRow.kind (r : QueueRow) : Option (SupersedeGroup × Text) :=
  (supersedeGroup r.actionType).map fun group => (group, r.resourceId)

/-- Two writes of one group for one resource. -/
def QueueRow.sameKind (r o : QueueRow) : Bool := decide (r.kind = o.kind ∧ r.kind ≠ none)

def QueueRow.isCloseout (r : QueueRow) : Bool := r.actionType = "job.closeout".toList

/-- A newer write of its kind is on the server. -/
def newerLanded (row : QueueRow) (rows : List QueueRow) : Bool :=
  rows.any fun o => decide (row.id < o.id) && (decide (o.status = .synced) || o.superseded) && row.sameKind o

/-- A newer write of its kind whose outcome the phone does not know. -/
def newerUndecided (row : QueueRow) (rows : List QueueRow) : Bool :=
  rows.any fun o => decide (row.id < o.id) &&
    (decide (o.status = .pending) || (decide (o.status = .failed) && o.uncertain && !o.acknowledged)) && row.sameKind o

/-- Another write of its kind on the wire. -/
def onTheWire (row : QueueRow) (rows : List QueueRow) : Bool :=
  rows.any fun o => decide (o.id ≠ row.id) && decide (o.status = .syncing) && row.sameKind o

/-- 23 hours, in milliseconds. -/
def REPLAY_SAFE_MS : ℕ := 23 * 3600000

def pastReplayWindow (now since : ℕ) : Bool := since + REPLAY_SAFE_MS ≤ now

/-- `UNCERTAIN`: shown to the tech as "may have sent". -/
def QueueRow.markUncertain (r : QueueRow) : QueueRow :=
  { r with status := .failed, uncertain := true, acknowledged := false }

/-- Retired for a newer write. -/
def QueueRow.retire (r : QueueRow) : QueueRow := { r with acknowledged := true, superseded := true }

/-- Put back in line by the tech. -/
def QueueRow.requeue (r : QueueRow) : QueueRow :=
  { r with status := .pending, uncertain := false, firstMaybeRanAt := none }

/-- `sync_queue.update`: one transaction on one row. -/
def patch (rows : List QueueRow) (id : ℕ) (f : QueueRow → QueueRow) : List QueueRow :=
  rows.map fun r => if r.id = id then f r else r

def sortByCreated (rows : List QueueRow) : List QueueRow :=
  rows.mergeSort fun a b => decide (a.createdAt ≤ b.createdAt)

/-! ### The page -/

/-- A row on the wire, as it was claimed, and whether its `queueAction` waits for the answer. -/
structure Flight where
  row : QueueRow
  caller : Bool
  deriving DecidableEq

/-- `syncNow`: reading the rows a dead page left, putting them back, then one pass over the pending rows and
    one over those that stood aside. -/
inductive Drain where
  | starting
  | recovering (stuck : List QueueRow)
  | passing (rest aside : List QueueRow) (held : List Text) (second : Bool)
  | sending (id : ℕ) (key : Text) (rest aside : List QueueRow) (held : List Text) (second : Bool)

/-- `_retireOlderRefusals` of a row that landed: what it read, or that it has not read yet. -/
structure Retiring where
  entry : QueueRow
  older : Option (List QueueRow)
  deriving DecidableEq

/-- `retryFailedActions`: the rows it will walk, all rows as it read them, and the server's word on the first. -/
inductive RetryTask where
  | reading (rows : List QueueRow)
  | walking (rows all : List QueueRow)
  | asked (row : QueueRow) (stale : Bool) (rest all : List QueueRow)
  deriving DecidableEq

/-- `purgeOldSynced`: its cutoff, all rows as it read them, and whether the first delete is done. -/
structure PurgeTask where
  cutoff : ℕ
  all : List QueueRow
  second : Bool
  deriving DecidableEq

structure Page where
  startedAt : ℕ
  flights : List Flight := []
  callers : List ℕ := []
  throwing : List ℕ := []
  drain : Option Drain := none
  rerun : Bool := false
  retiring : List Retiring := []
  retries : List RetryTask := []
  purges : List PurgeTask := []

/-! ### The server and the record of a run -/

/-- What took effect on the server: a row of this phone, or a closeout by someone else. -/
inductive Effect where
  | own (row : QueueRow) (time : ℕ)
  | other (job : Text) (time : ℕ)
  deriving DecidableEq

def Effect.time : Effect → ℕ
  | .own _ time => time
  | .other _ time => time

/-- The effect closed out the job. -/
def Effect.closes (job : Text) : Effect → Bool
  | .own row _ => row.isCloseout && decide (row.resourceId = job)
  | .other closed _ => decide (closed = job)

def Effect.isOwn : Effect → Bool
  | .own _ _ => true
  | .other _ _ => false

/-- What happened to transmissions, newest first. -/
inductive QueueEvent where
  | sent (id : ℕ) (actionType : Text) (time : ℕ)
  | heard (id : ℕ) (clear : Bool)
  | died
  | retried (id : ℕ)
  deriving DecidableEq

/-- A row that was retired, with what was known then: a newer row of its kind was `SYNCED`, or the server had
    reported a closeout made after it that this phone did not send. -/
structure Retirement where
  row : QueueRow
  newerSynced : Bool
  reported : Bool

structure Phone where
  now : ℕ := 0
  nextId : ℕ := 1
  rows : List QueueRow := []
  page : Option Page := none
  orphans : List Flight := []
  effects : List Effect := []
  history : List QueueEvent := []
  landed : List QueueRow := []
  thrown : List ℕ := []
  reports : List (Text × ℕ) := []
  retirements : List Retirement := []

/-- The row took effect on the server. -/
def Phone.effective (s : Phone) (id : ℕ) : Bool :=
  s.effects.any fun e => match e with
    | .own row _ => decide (row.id = id)
    | .other _ _ => false

/-- The server's current closeout of a job. -/
def Phone.closeout (s : Phone) (job : Text) : Option Effect := s.effects.reverse.find? (Effect.closes job)

/-- A row of the kind, newer than this one, is `SYNCED` now. -/
def Phone.newerSynced (s : Phone) (r : QueueRow) : Bool :=
  s.rows.any fun o => decide (r.id < o.id) && decide (o.status = .synced) && r.sameKind o

/-- The server has reported a closeout of the job made after the row, by someone else. -/
def Phone.reported (s : Phone) (r : QueueRow) : Bool :=
  r.isCloseout && s.reports.any fun report => decide (report.1 = r.resourceId) && decide (r.createdAt < report.2)

/-- The record of retiring a row now. -/
def Phone.retirement (s : Phone) (r : QueueRow) : Retirement := ⟨r, s.newerSynced r, s.reported r⟩

/-- One item of a list of tasks replaced by others. -/
def swap {α : Type} [DecidableEq α] (tasks : List α) (task : α) (by_ : List α) : List α := tasks.erase task ++ by_

/-! ### Sending -/

inductive ClaimResult where
  | lost
  | uncertain
  | superseded (row : QueueRow)
  | busy
  | newerFirst
  | claimed (row : QueueRow)

/-- `_claim`. -/
def claim (now : ℕ) (rows : List QueueRow) (id : ℕ) : List QueueRow × ClaimResult :=
  match rows.find? fun r => decide (r.id = id) with
  | none => (rows, .lost)
  | some row =>
    if row.status ≠ .pending then (rows, .lost)
    else if row.firstMaybeRanAt.any (pastReplayWindow now) then (patch rows id .markUncertain, .uncertain)
    else if newerLanded row rows then
      (patch rows id fun r => { r.retire with status := .failed }, .superseded row)
    else if onTheWire row rows then (rows, .busy)
    else if newerUndecided row rows then (rows, .newerFirst)
    else
      (patch rows id fun r => { r with status := .syncing, lastAttemptedAt := some now },
        .claimed { row with status := .syncing, lastAttemptedAt := some now })

/-- What the wire brings back. -/
inductive Answer where
  | lost
  | status (code : ℕ)

/-- How `_send` files an answer. -/
inductive SendVerdict where
  | synced
  | unauthorized
  | refused
  | unclear
  deriving DecidableEq

def Answer.verdict (answer : Answer) (row : QueueRow) : SendVerdict :=
  match answer with
  | .lost => .unclear
  | .status code =>
    if (200 ≤ code ∧ code < 300) ∨ (code = 409 ∧ row.conflictIsError = false) then .synced
    else if code = 401 then .unauthorized
    else if 400 ≤ code ∧ code < 500 then .refused
    else .unclear

/-- The row after the answer. -/
def Flight.settle (f : Flight) (verdict : SendVerdict) (r : QueueRow) : QueueRow :=
  match verdict with
  | .synced => { r with status := .synced }
  | .unauthorized => { r with status := .pending }
  | .refused => { r with status := .failed, acknowledged := f.caller }
  | .unclear => { r with status := .pending, firstMaybeRanAt := f.row.firstMaybeRanAt.or f.row.lastAttemptedAt }

/-- `SERVER_DOWN`, a lost answer or a stale token end the drain. -/
def Answer.stops : Answer → Bool
  | .lost => true
  | .status code => code = 401 || code = 502 || code = 503 || code = 504

def Answer.serverError : Answer → Bool
  | .lost => false
  | .status code => 500 ≤ code

/-- The drain goes on after its send, or ends. -/
def Drain.afterSend (answer : Answer) : Drain → Option Drain
  | .sending _ key rest aside held second =>
    if answer.stops then none
    else if answer.serverError then some (.passing rest aside (key :: held) second)
    else some (.passing rest aside held second)
  | drain => some drain

/-- A drain that ended starts over when a pass was asked for meanwhile. -/
def Page.endDrain (p : Page) : Page :=
  { p with drain := if p.rerun then some .starting else none, rerun := false }

def Page.resumeDrain (p : Page) (id : ℕ) (answer : Answer) : Page :=
  match p.drain with
  | some (.sending sent key rest aside held second) =>
    if sent = id then
      match Drain.afterSend answer (.sending sent key rest aside held second) with
      | some drain => { p with drain := some drain }
      | none => p.endDrain
    else p
  | _ => p

/-- The key a drain holds a job back by. -/
def QueueRow.holdKey (r : QueueRow) : Text :=
  if r.resourceId = [] then 'a' :: ':' :: r.actionType else 'r' :: ':' :: r.resourceId

/-- The phone and the page after a claim: the row, the flight if it was claimed, and the records. -/
def Phone.claimFor (s : Phone) (p : Page) (id : ℕ) (caller : Bool) : Phone × Page :=
  let (rows, result) := claim s.now s.rows id
  match result with
  | .claimed row =>
    ({ s with rows := rows, history := .sent id row.actionType s.now :: s.history },
      { p with flights := p.flights ++ [⟨row, caller⟩] })
  | .superseded row => ({ s with rows := rows, retirements := s.retirements ++ [s.retirement row] }, p)
  | _ => ({ s with rows := rows }, p)

def Phone.withPage (s : Phone) (p : Page) : Phone := { s with page := some p }

/-! ### `queueAction` and `_send` -/

/-- A new row, and its immediate send when the phone is online. -/
def Phone.queue (s : Phone) (p : Page) (actionType resourceId : Text) (conflictIsError online : Bool) : Phone :=
  let row : QueueRow := ⟨s.nextId, actionType, resourceId, conflictIsError, s.now, .pending, false, false, false, none, none⟩
  { s with
    rows := s.rows ++ [row]
    nextId := s.nextId + 1
    page := some (if online then { p with callers := p.callers ++ [s.nextId] } else p) }

/-- `_drainOne` of the call that made the row. -/
def Phone.sendNow (s : Phone) (p : Page) (id : ℕ) : Option Phone :=
  if id ∈ p.callers then
    let (s', p') := s.claimFor { p with callers := p.callers.erase id } id true
    some (s'.withPage p')
  else none

/-- The answer is filed. A refusal is then on its way to the caller, a landed row retires older refusals. -/
def Phone.answered (s : Phone) (p : Page) (f : Flight) (answer : Answer) : Phone :=
  let verdict := answer.verdict f.row
  let page : Page := { p with
    flights := p.flights.erase f
    throwing := if verdict = .refused ∧ f.caller = true then p.throwing ++ [f.row.id] else p.throwing
    retiring := if verdict = .synced then p.retiring ++ [⟨f.row, none⟩] else p.retiring }
  { s with
    rows := patch s.rows f.row.id (f.settle verdict)
    page := some (page.resumeDrain f.row.id answer)
    history := .heard f.row.id (decide (verdict ≠ .unclear)) :: s.history
    landed := if verdict = .synced then s.landed ++ [f.row] else s.landed }

/-- A repeat of a key that took effect is not refused. -/
def Phone.mayAnswer (s : Phone) (f : Flight) : Answer → Bool
  | .lost => true
  | .status code => !(s.effective f.row.id && decide (400 ≤ code ∧ code < 500))

/-! ### `_retireOlderRefusals` -/

/-- The refusals older than a row that landed. -/
def olderRefusals (rows : List QueueRow) (entry : QueueRow) : List QueueRow :=
  rows.filter fun r => decide (r.status = .failed) && decide (r.id < entry.id) && entry.sameKind r

/-- A row retired by its id, with the record. -/
def Phone.retireRow (s : Phone) (id : ℕ) : Phone :=
  { s with
    rows := patch s.rows id .retire
    retirements := s.retirements ++ ((s.rows.find? fun r => decide (r.id = id)).map s.retirement).toList }

def Phone.retireStep (s : Phone) (p : Page) (task : Retiring) : Phone :=
  match task.older with
  | none => s.withPage { p with retiring := swap p.retiring task [{ task with older := some (olderRefusals s.rows task.entry) }] }
  | some [] => s.withPage { p with retiring := swap p.retiring task [] }
  | some (r :: rest) =>
    (s.retireRow r.id).withPage { p with retiring := swap p.retiring task [{ task with older := some rest }] }

/-! ### `syncNow` -/

/-- Rows a dead page left on the wire. -/
def stuckRows (rows : List QueueRow) (startedAt : ℕ) : List QueueRow :=
  rows.filter fun r => decide (r.status = .syncing) && r.lastAttemptedAt.all (· < startedAt)

/-- Put back in line within the replay window, a payment never. -/
def recover (now : ℕ) (read r : QueueRow) : QueueRow :=
  let since := (read.firstMaybeRanAt.or read.lastAttemptedAt).getD read.createdAt
  if isRetryable read.actionType && !pastReplayWindow now since then
    { r with status := .pending, firstMaybeRanAt := some since }
  else r.markUncertain

/-- One attempt of the drain. -/
def Phone.attempt (s : Phone) (p : Page) (entry : QueueRow) (rest aside : List QueueRow) (held : List Text)
    (second : Bool) : Phone :=
  if entry.holdKey ∈ held then s.withPage { p with drain := some (.passing rest aside held second) }
  else
    let (s', p') := s.claimFor p entry.id false
    let drain := match (claim s.now s.rows entry.id).2 with
      | .claimed _ => .sending entry.id entry.holdKey rest aside held second
      | .busy => .passing rest aside (entry.holdKey :: held) second
      | .newerFirst => .passing rest (if second then aside else aside ++ [entry]) held second
      | _ => .passing rest aside held second
    s'.withPage { p' with drain := some drain }

def Phone.drainStep (s : Phone) (p : Page) : Drain → Option Phone
  | .starting => some (s.withPage { p with drain := some (.recovering (stuckRows s.rows p.startedAt)) })
  | .recovering [] =>
    let pending := sortByCreated (s.rows.filter fun r => decide (r.status = .pending))
    some (s.withPage { p with drain := some (.passing pending [] [] false) })
  | .recovering (r :: rest) =>
    some ({ s with rows := patch s.rows r.id (recover s.now r) }.withPage { p with drain := some (.recovering rest) })
  | .passing [] aside held false => some (s.withPage { p with drain := some (.passing aside.reverse [] held true) })
  | .passing [] _ _ true => some (s.withPage p.endDrain)
  | .passing (entry :: rest) aside held second => some (s.attempt p entry rest aside held second)
  | .sending .. => none

/-- One drain at a time: a second call asks for one more pass. -/
def Page.syncNow (p : Page) : Page :=
  match p.drain with
  | some _ => { p with rerun := true }
  | none => { p with drain := some .starting }

/-! ### `retryFailedActions` -/

/-- The rows the tech tapped. -/
def retryRows (rows : List QueueRow) (jobId : Option Text) (ids : Option (List ℕ)) : List QueueRow :=
  sortByCreated (rows.filter fun r => decide (r.status = .failed) && !r.acknowledged &&
    ids.all (r.id ∈ ·) && jobId.all (r.resourceId = ·))

theorem mem_of_retryRows {rows : List QueueRow} {jobId : Option Text} {ids : Option (List ℕ)} {r : QueueRow}
    (h : r ∈ retryRows rows jobId ids) : r ∈ rows := by
  rw [retryRows, sortByCreated, List.mem_mergeSort] at h
  exact List.mem_of_mem_filter h

/-- This phone's own older closeout of the job was sent after the row was made. -/
def ownOlderLandedSince (r : QueueRow) (all : List QueueRow) : Bool :=
  r.isCloseout && all.any fun o => decide (o.id < r.id) && decide (o.status = .synced) && o.isCloseout &&
    decide (o.resourceId = r.resourceId) && o.lastAttemptedAt.any (r.createdAt ≤ ·)

/-- `_closeoutIsStale`: the server's closeout of the job was made after the row. -/
def Phone.closedSince (s : Phone) (r : QueueRow) : Bool := (s.closeout r.resourceId).any (r.createdAt < ·.time)

def Phone.requeueRow (s : Phone) (id : ℕ) : Phone :=
  { s with rows := patch s.rows id .requeue, history := .retried id :: s.history }

/-- What the next step of a retry does with its first row, before the server is asked. -/
inductive RetryMove where
  | skip
  | retire
  | ask
  | requeue
  deriving DecidableEq

def retryMove (r : QueueRow) (all : List QueueRow) : RetryMove :=
  if !isRetryable r.actionType then .skip
  else if newerLanded r all then .retire
  else if r.isCloseout && !ownOlderLandedSince r all then .ask
  else .requeue

/-- The server is asked about a closeout; `reached` is whether an answer came. -/
def Phone.ask (s : Phone) (p : Page) (task : RetryTask) (r : QueueRow) (rest all : List QueueRow) (reached : Bool) :
    Phone :=
  let stale := reached && s.closedSince r
  let theirs := (s.closeout r.resourceId).filter fun e => stale && !e.isOwn
  { s with
    reports := s.reports ++ (theirs.map fun e => (r.resourceId, e.time)).toList
    page := some { p with retries := swap p.retries task [.asked r stale rest all] } }

def Phone.retryStep (s : Phone) (p : Page) (task : RetryTask) (reached : Bool) : Phone :=
  match task with
  | .reading rows => s.withPage { p with retries := swap p.retries task [.walking rows s.rows] }
  | .walking [] _ => s.withPage { p with retries := swap p.retries task [] }
  | .walking (r :: rest) all =>
    match retryMove r all with
    | .skip => s.withPage { p with retries := swap p.retries task [.walking rest all] }
    | .retire => (s.retireRow r.id).withPage { p with retries := swap p.retries task [.walking rest all] }
    | .ask => s.ask p task r rest all reached
    | .requeue => (s.requeueRow r.id).withPage { p with retries := swap p.retries task [.walking rest all] }
  | .asked r true rest all => (s.retireRow r.id).withPage { p with retries := swap p.retries task [.walking rest all] }
  | .asked r false rest all =>
    (s.requeueRow r.id).withPage { p with retries := swap p.retries task [.walking rest all] }

/-! ### `purgeOldSynced` -/

/-- A row that is still to send. -/
def QueueRow.unsent (r : QueueRow) : Bool :=
  decide (r.status = .pending) || (decide (r.status = .failed) && !r.superseded)

/-- The evidence retires an older row that is still to send. -/
def needed (all : List QueueRow) (evidence : QueueRow) : Bool :=
  all.any fun u => u.unsent && decide (u.id < evidence.id) && evidence.sameKind u

/-- Rows of the first delete. -/
def PurgeTask.dropsSynced (task : PurgeTask) (r : QueueRow) : Bool :=
  decide (r.status = .synced) && r.lastAttemptedAt.any (· < task.cutoff) && !needed task.all r

/-- Rows of the second delete. -/
def PurgeTask.dropsFailed (task : PurgeTask) (r : QueueRow) : Bool :=
  decide (r.status = .failed) && r.acknowledged && decide (r.lastAttemptedAt.getD r.createdAt < task.cutoff) &&
    !(r.superseded && needed task.all r)

def PurgeTask.drops (task : PurgeTask) (r : QueueRow) : Bool :=
  if task.second then task.dropsFailed r else task.dropsSynced r

def Phone.purgeStep (s : Phone) (p : Page) (task : PurgeTask) : Phone :=
  { s with
    rows := s.rows.filter fun r => !task.drops r
    page := some { p with purges := swap p.purges task (if task.second then [] else [{ task with second := true }]) } }

/-! ### Runs -/

inductive QueueAction where
  | tick (ms : ℕ)
  | die
  | start
  | apply (id : ℕ)
  | otherCloses (job : Text)
  | queue (actionType resourceId : Text) (conflictIsError online : Bool)
  | sendNow (id : ℕ)
  | answer (f : Flight) (answer : Answer)
  | throwRefusal (id : ℕ)
  | retire (task : Retiring)
  | syncNow
  | drain
  | retry (jobId : Option Text) (ids : Option (List ℕ))
  | retryStep (task : RetryTask) (reached : Bool)
  | purge (maxAgeDays : ℕ)
  | purgeStep (task : PurgeTask)

/-- The page dies: what it had on the wire has no page any more. -/
def Phone.die (s : Phone) (p : Page) : Phone :=
  { s with page := none, orphans := p.flights, history := .died :: s.history }

/-- The server runs a transmission; a repeat of a key changes nothing. -/
def Phone.apply (s : Phone) (f : Flight) : Phone :=
  if s.effective f.row.id then s else { s with effects := s.effects ++ [.own f.row s.now] }

/-- One step, when it can be taken. -/
def Phone.step (s : Phone) : QueueAction → Option Phone
  | .tick ms => some { s with now := s.now + ms }
  | .otherCloses job => some { s with effects := s.effects ++ [.other job s.now] }
  | .start => if s.page.isNone then some { s with page := some { startedAt := s.now }, orphans := [] } else none
  | .apply id =>
    ((s.page.elim [] (·.flights) ++ s.orphans).find? fun f => decide (f.row.id = id)).map s.apply
  | action => do
    let p ← s.page
    match action with
    | .die => some (s.die p)
    | .queue actionType resourceId conflictIsError online => some (s.queue p actionType resourceId conflictIsError online)
    | .sendNow id => s.sendNow p id
    | .answer f answer => if f ∈ p.flights ∧ s.mayAnswer f answer then some (s.answered p f answer) else none
    | .throwRefusal id =>
      if id ∈ p.throwing then
        some { s with page := some { p with throwing := p.throwing.erase id }, thrown := s.thrown ++ [id] }
      else none
    | .retire task => if task ∈ p.retiring then some (s.retireStep p task) else none
    | .syncNow => some (s.withPage p.syncNow)
    | .drain => do
      let drain ← p.drain
      s.drainStep p drain
    | .retry jobId ids => some (s.withPage { p with retries := p.retries ++ [.reading (retryRows s.rows jobId ids)] })
    | .retryStep task reached => if task ∈ p.retries then some (s.retryStep p task reached) else none
    | .purge maxAgeDays =>
      some (s.withPage { p with purges := p.purges ++ [⟨s.now - maxAgeDays * 86400000, s.rows, false⟩] })
    | .purgeStep task => if task ∈ p.purges then some (s.purgeStep p task) else none
    | _ => none

/-- Steps one after the other. -/
def Phone.run (s : Phone) : List QueueAction → Option Phone
  | [] => some s
  | action :: rest => do
    let s' ← s.step action
    s'.run rest

end Gdx
