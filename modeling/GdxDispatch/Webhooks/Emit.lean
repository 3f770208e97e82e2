import GdxDispatch.Lib.Savepoints
import GdxDispatch.Lib.Text

/-! Domain events: `core/webhooks/emit.py`.

    An event is emitted in the middle of a business transaction. Each delivery row goes in behind a savepoint of its
    own, and what is to be enqueued waits in the session: the ids of the rows, the events for plugins, the jobs for
    workflow rules. Two hooks of the session end the waiting. `_dispatch_pending` runs after every commit, the release
    of a savepoint included, and `_drop_pending` after every rollback, that of a savepoint or of a failed flush included;
    each asks the session whether the business transaction is the one that ended.

    `sent` is what was handed to the broker. Left out: the texts of the logs, the payloads and urls of the rows, what
    the tasks do, and whether the broker takes them. -/

namespace Gdx
open Lib

variable {Data : Type}

/-- `SUPPORTED_TRIGGERS` of the workflow engine. -/
def SUPPORTED_TRIGGERS : List String := ["job.created", "invoice.paid", "estimate.sent", "customer.created"]

/-- A row that `_emit` inserts into `webhook_deliveries`. -/
structure DeliveryRow where
  id : ℕ
  companyId : String
  subscriptionId : String
  eventType : String
  idempotencyKey : String
  deriving DecidableEq

/-- What becomes of the insert, apart from a key that is taken. -/
inductive RowOutcome where
  | flushed
  /-- The flush inside the savepoint fails for another reason. -/
  | rejected
  /-- The flush that opening a savepoint makes fails, over a row of the caller's. -/
  | poisoned
  deriving DecidableEq

/-- An active subscription of the company. The events are a JSON text; `none` is one that does not decode. -/
structure Subscription where
  id : String
  events : Option (List String)
  outcome : RowOutcome
  deriving DecidableEq

structure PluginEvent (Data : Type) where
  event : String
  data : Data
  tenantId : String
  occurredAt : String
  deliveryId : String
  deriving DecidableEq

structure WorkflowJob (Data : Type) where
  eventType : String
  tenantId : String
  data : Data
  entityType : String
  entityId : String
  deriving DecidableEq

/-- Work that waits for the commit, or that was handed to the broker. -/
structure EventWork (Data : Type) where
  deliveries : List ℕ
  plugins : List (PluginEvent Data)
  workflows : List (WorkflowJob Data)
  deriving DecidableEq

def EventWork.none : EventWork Data := ⟨[], [], []⟩

def EventWork.append (a b : EventWork Data) : EventWork Data :=
  ⟨a.deliveries ++ b.deliveries, a.plugins ++ b.plugins, a.workflows ++ b.workflows⟩

/-- A call of `emit_domain_event`, with what its reads come back with: `none` for a read that fails. -/
structure Emission (Data : Type) where
  eventType : String
  entityId : String
  data : Data
  tenantId : Option String
  suppress : Bool
  occurredAt : String
  subscriptions : Option (List Subscription)
  consent : Bool
  rule : Bool
  deriving DecidableEq

/-- A session with its `info`. -/
structure EmitSession (Data : Type) where
  txn : Txn (List DeliveryRow) Unit
  pending : EventWork Data
  sent : EventWork Data
  nextId : ℕ
  deriving DecidableEq

namespace EmitSession

/-- A new session over a table. -/
def start (rows : List DeliveryRow) : EmitSession Data :=
  ⟨.start rows, .none, .none, rows.foldr (fun row n => max (row.id + 1) n) 0⟩

/-! ### The hooks -/

/-- `_dispatch_pending`. -/
def dispatchPending (inNestedTransaction : Bool) (s : EmitSession Data) : EmitSession Data :=
  if inNestedTransaction then s else { s with sent := s.sent.append s.pending, pending := .none }

/-- `_drop_pending`. -/
def dropPending (inTransaction : Bool) (s : EmitSession Data) : EmitSession Data :=
  if inTransaction then s else { s with pending := .none }

/-! ### The session -/

def beginNested (s : EmitSession Data) : EmitSession Data := { s with txn := s.txn.savepoint () }

/-- The hook runs while the savepoint is still there. -/
def release (s : EmitSession Data) : EmitSession Data :=
  let s := s.dispatchPending (!s.txn.frames.isEmpty)
  { s with txn := { s.txn with frames := s.txn.frames.tail } }

/-- The hook runs once the savepoint is gone, in the transaction around it. -/
def rollbackNested (s : EmitSession Data) : EmitSession Data :=
  dropPending true { s with txn := s.txn.rollbackTo }

/-- The subtransaction of a flush is rolled back; the transaction around it stays, dead. -/
def flushFails (s : EmitSession Data) : EmitSession Data := dropPending true { s with txn := s.txn.fail }

/-- `Session.commit`: the open savepoints are released, innermost first, and then the transaction commits. -/
def commit (s : EmitSession Data) : EmitSession Data :=
  let s := release^[s.txn.frames.length] s
  dispatchPending (!s.txn.frames.isEmpty) { s with txn := { s.txn with durable := s.txn.now } }

/-- `Session.rollback`: likewise. -/
def rollback (s : EmitSession Data) : EmitSession Data :=
  let s := rollbackNested^[s.txn.frames.length] s
  dropPending false { s with txn := s.txn.rollback }

/-! ### Emitting -/

/-- One delivery row behind its savepoint: the row goes in, or nothing is left of it. -/
def stageRow (s : EmitSession Data) (row : DeliveryRow) (outcome : RowOutcome) : EmitSession Data × Option ℕ :=
  if s.txn.dead then (s, none)
  else if outcome = .poisoned then (s.flushFails, none)
  else
    let s := s.beginNested
    if outcome = .rejected ∨ row.idempotencyKey ∈ s.txn.now.map (·.idempotencyKey) then
      (s.flushFails.rollbackNested, none)
    else ({ s with txn := s.txn.write (s.txn.now ++ [row]), nextId := s.nextId + 1 }.release, some row.id)

/-- The fan-out over the subscriptions. -/
def stageRows (digest : String → String) (tenantId : String) (e : Emission Data) :
    EmitSession Data → List Subscription → EmitSession Data × List ℕ
  | s, [] => (s, [])
  | s, sub :: subs =>
    if e.eventType ∈ sub.events.getD [] then
      let idem := digest (tenantId ++ ":" ++ e.eventType ++ ":" ++ e.entityId ++ ":" ++ sub.id)
      let r := s.stageRow ⟨s.nextId, tenantId, sub.id, e.eventType, idem⟩ sub.outcome
      let rest := stageRows digest tenantId e r.1 subs
      (rest.1, r.2.toList ++ rest.2)
    else stageRows digest tenantId e s subs

/-- The envelope for plugins, when some plugin has consented to events. -/
def pluginEvents (digest : String → String) (tenantId : String) (e : Emission Data) : List (PluginEvent Data) :=
  if e.consent then
    [⟨e.eventType, e.data, tenantId, e.occurredAt,
      digest (tenantId ++ ":" ++ e.eventType ++ ":" ++ e.entityId ++ ":" ++ e.occurredAt)⟩]
  else []

/-- The job for workflow rules, when an active rule has this trigger. -/
def workflowJobs (tenantId : String) (e : Emission Data) : List (WorkflowJob Data) :=
  if e.eventType ∈ SUPPORTED_TRIGGERS ∧ e.rule then
    [⟨e.eventType, tenantId, e.data, ((e.eventType.splitOn ".").head?).getD e.eventType, e.entityId⟩]
  else []

/-- `_emit`, once the subscriptions are read. -/
def emit (digest : String → String) (tenantId : String) (e : Emission Data) (subs : List Subscription)
    (s : EmitSession Data) : EmitSession Data :=
  let r := stageRows digest tenantId e s subs
  { r.1 with pending :=
      r.1.pending.append ⟨r.2, pluginEvents digest tenantId e, workflowJobs tenantId e⟩ }

/-- `emit_domain_event`: a failure degrades to no event. -/
def emitDomainEvent (digest : String → String) (e : Emission Data) (s : EmitSession Data) : EmitSession Data :=
  match e.suppress, e.tenantId, e.subscriptions, s.txn.dead with
  | false, some tenantId, some subs, false => if tenantId = "" then s else s.emit digest tenantId e subs
  | _, _, _, _ => s

end EmitSession

/-- What happens in a session. A flush that goes through writes no delivery row of its own. -/
inductive EmitEvent (Data : Type) where
  | emit (e : Emission Data)
  | savepoint
  | release
  | rollbackTo
  | flushFails
  | commit
  | rollback
  deriving DecidableEq

namespace EmitSession

/-- One event. A dead transaction refuses everything but its end. -/
def step (digest : String → String) (s : EmitSession Data) : EmitEvent Data → EmitSession Data
  | .emit e => s.emitDomainEvent digest e
  | .savepoint => if s.txn.dead then s else s.beginNested
  | .release => if s.txn.dead ∨ s.txn.frames = [] then s else s.release
  | .rollbackTo => if s.txn.frames = [] then s else s.rollbackNested
  | .flushFails => if s.txn.dead then s else s.flushFails
  | .commit => if s.txn.dead then s else s.commit
  | .rollback => s.rollback

def run (digest : String → String) (s : EmitSession Data) (events : List (EmitEvent Data)) : EmitSession Data :=
  events.foldl (step digest) s

end EmitSession

end Gdx
