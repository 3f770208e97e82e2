import Mathlib.Logic.Function.Basic
import GdxDispatch.Lib.Text

/-! Webhook deliveries: `core/webhooks/tasks.py` and `core/webhooks/delivery.py`.

    A row is committed `pending`, and the hook after the commit puts a task for it on the queue. A worker that takes a
    task reads the row, posts, and writes back what came of it. The sweep finds pending rows that are due, or that were
    stranded without a task, claims them by moving their next retry, and queues a task for each. All of these are here
    as the reads, writes and posts they make, so that any number of workers and sweeps can run between one another.

    Time is in seconds. A write changes the columns whose value is not the one that was read, which is what the unit
    of work sends. Left out: payloads and signatures, the audit and dead-letter rows of an abandoned delivery, and the
    log rows of the deliveries tab. -/

namespace Gdx
open Lib

/-- `RETRY_DELAYS` of `delivery.py`. -/
def RETRY_DELAYS : List ℕ := [5, 30, 120, 600, 1800, 7200, 21600, 86400]

/-- `_STRAND_GRACE_SECONDS` of `tasks.py`. -/
def STRAND_GRACE_SECONDS : ℕ := 30

/-- `_CLAIM_SECONDS` of `tasks.py`. -/
def CLAIM_SECONDS : ℕ := 300

inductive DeliveryStatus where
  | pending
  | delivered
  | failed
  | abandoned
  deriving DecidableEq

/-- A row of `webhook_deliveries`. -/
structure WebhookDelivery where
  status : DeliveryStatus
  attemptCount : ℕ
  nextRetryAt : Option ℕ
  createdAt : ℕ
  lastAttemptAt : Option ℕ
  responseStatus : Option ℕ
  deriving DecidableEq

/-- The receiver of a delivery, as `_resolve_target` finds it. -/
structure WebhookTarget where
  active : Bool
  secret : Option String
  deriving DecidableEq

/-- `deliver_webhook` posts to a receiver that is there, active, and has a secret. -/
def sendable : Option WebhookTarget → Bool
  | none => false
  | some target => target.active && target.secret.any (· != "")

/-- What `deliver_webhook` makes of the row it read, once the post has answered. -/
def afterPost (now : ℕ) (delivery : WebhookDelivery) (status : Option ℕ) : WebhookDelivery :=
  if status.any fun code => decide (200 ≤ code ∧ code < 300) then
    { delivery with
      lastAttemptAt := some now, responseStatus := status, status := .delivered, nextRetryAt := none }
  else if delivery.attemptCount + 1 < RETRY_DELAYS.length then
    { delivery with
      lastAttemptAt := some now, responseStatus := status, attemptCount := delivery.attemptCount + 1
      status := .pending, nextRetryAt := some (now + RETRY_DELAYS.getD delivery.attemptCount 0) }
  else
    { delivery with
      lastAttemptAt := some now, responseStatus := status, attemptCount := delivery.attemptCount + 1
      status := .abandoned, nextRetryAt := none }

/-- A column is written when its value is not the one that was read. -/
def writeColumn {α : Type} [DecidableEq α] (loaded new stored : α) : α := if new = loaded then stored else new

/-- The row that a commit leaves: `stored` is what the database holds by then. -/
def writeBack (loaded new stored : WebhookDelivery) : WebhookDelivery where
  status := writeColumn loaded.status new.status stored.status
  attemptCount := writeColumn loaded.attemptCount new.attemptCount stored.attemptCount
  nextRetryAt := writeColumn loaded.nextRetryAt new.nextRetryAt stored.nextRetryAt
  createdAt := writeColumn loaded.createdAt new.createdAt stored.createdAt
  lastAttemptAt := writeColumn loaded.lastAttemptAt new.lastAttemptAt stored.lastAttemptAt
  responseStatus := writeColumn loaded.responseStatus new.responseStatus stored.responseStatus

/-- `retry_failed_webhooks_task` takes a pending row whose retry is due, or that never had a task. -/
def WebhookDelivery.due (now : ℕ) (delivery : WebhookDelivery) : Bool :=
  delivery.status == .pending &&
    match delivery.nextRetryAt with
    | some retry => decide (retry ≤ now)
    | none => decide (delivery.createdAt + STRAND_GRACE_SECONDS ≤ now)

/-- Where a worker stands. -/
inductive DeliveryWorker where
  | idle
  /-- It has read the row and its receiver. -/
  | loaded (id : ℕ) (delivery : WebhookDelivery) (target : Option WebhookTarget)
  /-- The post is under way. -/
  | posting (id : ℕ) (delivery : WebhookDelivery)
  deriving DecidableEq

/-- Where a sweep stands. -/
inductive DeliverySweep where
  | idle
  | selected (now : ℕ) (due : List ℕ)
  | claimed (due : List ℕ)
  deriving DecidableEq

/-- The table, the queue, and who is at work. `hooks` are the rows whose commit has yet to run its hook; `posts` are the
    posts that were sent. -/
structure Courier where
  now : ℕ
  rows : ℕ → Option WebhookDelivery
  created : List ℕ
  hooks : List ℕ
  queue : List ℕ
  workers : ℕ → DeliveryWorker
  sweeps : ℕ → DeliverySweep
  posts : List ℕ

inductive CourierEvent where
  /-- A transaction that staged the row commits. -/
  | commit (id : ℕ)
  /-- Its hook runs, and the broker takes the task or not. -/
  | dispatch (id : ℕ) (broker : Bool)
  | sweep (sweeper : ℕ)
  | sweepOn (sweeper : ℕ)
  /-- A worker takes the task of this row from the queue, early or late. -/
  | take (worker id : ℕ) (target : Option WebhookTarget)
  | workOn (worker : ℕ)
  | answer (worker : ℕ) (status : Option ℕ)
  | wait (time : ℕ)
  deriving DecidableEq

namespace Courier

def fresh (now : ℕ) : Courier := ⟨now, fun _ => none, [], [], [], fun _ => .idle, fun _ => .idle, []⟩

def setRow (s : Courier) (id : ℕ) (delivery : WebhookDelivery) : Courier :=
  { s with rows := Function.update s.rows id (some delivery) }

def setWorker (s : Courier) (worker : ℕ) (stage : DeliveryWorker) : Courier :=
  { s with workers := Function.update s.workers worker stage }

def setSweep (s : Courier) (sweeper : ℕ) (stage : DeliverySweep) : Courier :=
  { s with sweeps := Function.update s.sweeps sweeper stage }

/-- The commit of a worker: its changes against the row as it is now. -/
def store (s : Courier) (id : ℕ) (loaded new : WebhookDelivery) : Courier :=
  { s with rows := Function.update s.rows id ((s.rows id).map (writeBack loaded new)) }

/-- `UPDATE … SET next_retry_at`. -/
def claim (s : Courier) (now : ℕ) (due : List ℕ) : Courier :=
  { s with rows := fun id =>
      if id ∈ due then
        (s.rows id).map fun delivery => { delivery with nextRetryAt := some (now + CLAIM_SECONDS) }
      else s.rows id }

/-- The next thing a sweep does. -/
def sweepOn (s : Courier) (sweeper : ℕ) : DeliverySweep → Courier
  | .idle => s
  | .selected now due => (s.claim now due).setSweep sweeper (.claimed due)
  | .claimed [] => s.setSweep sweeper .idle
  | .claimed (id :: due) => { s.setSweep sweeper (.claimed due) with queue := id :: s.queue }

/-- The next thing a worker does with a row it has read: post, or fail the delivery. -/
def workOn (s : Courier) (worker : ℕ) : DeliveryWorker → Courier
  | .loaded id delivery target =>
    if sendable target then { s.setWorker worker (.posting id delivery) with posts := id :: s.posts }
    else (s.setWorker worker .idle).store id delivery { delivery with status := .failed }
  | _ => s

def answer (s : Courier) (worker : ℕ) (status : Option ℕ) : DeliveryWorker → Courier
  | .posting id delivery => (s.setWorker worker .idle).store id delivery (afterPost s.now delivery status)
  | _ => s

def step (s : Courier) : CourierEvent → Courier
  | .commit id =>
    if s.rows id = none then
      { s.setRow id ⟨.pending, 0, none, s.now, none, none⟩ with created := id :: s.created, hooks := id :: s.hooks }
    else s
  | .dispatch id broker =>
    if id ∈ s.hooks then
      { s with hooks := s.hooks.erase id, queue := if broker then id :: s.queue else s.queue }
    else s
  | .sweep sweeper =>
    if s.sweeps sweeper = .idle then
      s.setSweep sweeper (.selected s.now (s.created.filter fun id => (s.rows id).any (·.due s.now)))
    else s
  | .sweepOn sweeper => s.sweepOn sweeper (s.sweeps sweeper)
  | .take worker id target =>
    if s.workers worker = .idle ∧ id ∈ s.queue then
      match s.rows id with
      | none => { s with queue := s.queue.erase id }
      | some delivery => { s.setWorker worker (.loaded id delivery target) with queue := s.queue.erase id }
    else s
  | .workOn worker => s.workOn worker (s.workers worker)
  | .answer worker status => s.answer worker status (s.workers worker)
  | .wait time => { s with now := s.now + time }

def run (s : Courier) (events : List CourierEvent) : Courier := events.foldl step s

end Courier

end Gdx
