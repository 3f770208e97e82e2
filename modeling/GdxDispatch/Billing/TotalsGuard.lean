import Mathlib.Logic.Function.Basic
import GdxDispatch.Billing.Api
import GdxDispatch.Lib.Savepoints

/-! The totals of an invoice are checked at commit: `core/invoice_invariants.py`.

    Each flush records the invoices it wrote, directly or through a line, in the record of the innermost open savepoint.
    A release checks what its savepoint recorded and hands the record down; a savepoint that ends otherwise takes its
    record with it. The outermost commit checks what has come down to it. The hook that checks runs before a commit of
    any of these transactions, and asks the session which savepoint is the innermost one.

    A commit of a transaction first commits the savepoints that are open inside it, after its own hook has run. The
    session holds amounts as they were written, in cents; the columns round them, and a row that is read again, as one
    that a rollback has expired, comes back rounded. Left out: the log mode, the texts of the refusals, and writes that
    do not go through a flush. -/

namespace Gdx
open Lib

/-- What the check reads of an invoice. -/
structure InvoiceTotals where
  total : ℚ
  taxAmount : ℚ
  totalsLocked : Bool
  deleted : Bool
  deriving DecidableEq

/-- What it reads of a line. -/
structure TotalsLine where
  id : ℕ
  invoiceId : ℕ
  lineTotal : ℚ
  deleted : Bool
  deriving DecidableEq

/-- What a `Numeric(12, 2)` column keeps. -/
def centColumn (cents : ℚ) : ℚ := roundHalfUp cents

def InvoiceTotals.stored (invoice : InvoiceTotals) : InvoiceTotals :=
  { invoice with total := centColumn invoice.total, taxAmount := centColumn invoice.taxAmount }

def TotalsLine.stored (line : TotalsLine) : TotalsLine := { line with lineTotal := centColumn line.lineTotal }

/-- The two tables, as a session sees them. `log` names the invoices that were written to come to this state, newest first. -/
structure TotalsDb where
  invoices : ℕ → Option InvoiceTotals
  lines : List TotalsLine
  log : List ℕ

namespace TotalsDb

/-- The lines of an invoice that are not deleted. -/
def liveLines (db : TotalsDb) (id : ℕ) : List TotalsLine :=
  db.lines.filter fun line => line.invoiceId == id && !line.deleted

/-- `TOLERANCE`, half a cent. -/
def withinTolerance (actual expected : ℚ) : Bool := decide (|actual - expected| ≤ 1 / 2)

/-- `_check` and `check_invoice` of one invoice: whether there is nothing to refuse. -/
def holds (db : TotalsDb) (id : ℕ) : Bool :=
  match db.invoices id with
  | none => true
  | some invoice =>
    invoice.deleted || invoice.totalsLocked || (db.liveLines id).isEmpty ||
      withinTolerance invoice.total (((db.liveLines id).map (·.lineTotal)).sum + invoice.taxAmount)

/-- Some invoices and lines are read again. -/
def refresh (db : TotalsDb) (invoices lines : ℕ → Bool) : TotalsDb :=
  { db with
    invoices := fun id => if invoices id then (db.invoices id).map InvoiceTotals.stored else db.invoices id
    lines := db.lines.map fun line => if lines line.id then line.stored else line }

/-- What the columns hold of it. -/
def stored (db : TotalsDb) : TotalsDb := db.refresh (fun _ => true) fun _ => true

end TotalsDb

/-- A row that a flush writes. A deleted line still has the invoice it was last moved to. -/
inductive RowWrite where
  | saveInvoice (id : ℕ) (invoice : InvoiceTotals)
  | deleteInvoice (id : ℕ)
  | insertLine (line : TotalsLine)
  | updateLine (line : TotalsLine)
  | deleteLine (id invoiceId : ℕ)
  deriving DecidableEq

namespace TotalsDb

/-- The invoice a line belongs to in the table, where its history says it left it. -/
def leftBehind (db : TotalsDb) (id invoiceId : ℕ) : List ℕ :=
  ((db.lines.filter (·.id == id)).map (·.invoiceId)).filter (· != invoiceId)

/-- `_record_touched` of one object. -/
def touched (db : TotalsDb) : RowWrite → List ℕ
  | .saveInvoice id _ => [id]
  | .deleteInvoice id => [id]
  | .insertLine line => [line.invoiceId]
  | .updateLine line => line.invoiceId :: db.leftBehind line.id line.invoiceId
  | .deleteLine id invoiceId => invoiceId :: db.leftBehind id invoiceId

/-- The statement of one object. -/
def write (db : TotalsDb) (w : RowWrite) : TotalsDb :=
  match w with
  | .saveInvoice id invoice =>
    { db with invoices := Function.update db.invoices id (some invoice), log := db.touched w ++ db.log }
  | .deleteInvoice id => { db with invoices := Function.update db.invoices id none, log := db.touched w ++ db.log }
  | .insertLine line => { db with lines := db.lines ++ [line], log := db.touched w ++ db.log }
  | .updateLine line =>
    { db with lines := db.lines.map fun old => if old.id == line.id then line else old, log := db.touched w ++ db.log }
  | .deleteLine id _ => { db with lines := db.lines.filter (·.id != id), log := db.touched w ++ db.log }

/-- A flush, object by object, with what it records. -/
def flush (db : TotalsDb) : List RowWrite → TotalsDb × List ℕ
  | [] => (db, [])
  | w :: ws => (((db.write w).flush ws).1, ((db.write w).flush ws).2 ++ db.touched w)

end TotalsDb

/-- What the session keeps for a savepoint: the invoices recorded, and whether its release was checked. -/
structure TouchedFrame where
  record : List ℕ
  released : Bool
  deriving DecidableEq

/-- A session with the record of its outermost transaction. -/
structure GuardSession where
  txn : Txn TotalsDb TouchedFrame
  root : List ℕ

inductive GuardEvent where
  | flush (writes : List RowWrite)
  | flushFails
  | savepoint
  /-- `commit()` of an open savepoint, this many inside of which are open. -/
  | release (depth : ℕ)
  | rollbackTo (depth : ℕ)
  /-- `Session.commit()`. -/
  | commit
  /-- `commit()` of the outermost transaction itself. -/
  | commitRoot
  | rollback
  /-- Rows are read again. -/
  | refresh (invoices lines : ℕ → Bool)

namespace GuardSession

def start (db : TotalsDb) : GuardSession := ⟨.start db, []⟩

/-- `_record_for` the innermost open savepoint, or the outermost transaction. -/
def record (s : GuardSession) (ids : List ℕ) : GuardSession :=
  match s.txn.frames with
  | [] => { s with root := ids ++ s.root }
  | f :: rest =>
    { s with txn := { s.txn with frames := { f with note := { f.note with record := ids ++ f.note.record } } :: rest } }

/-- `_check`: the first invoice it refuses. -/
def refused (s : GuardSession) (ids : List ℕ) : Option ℕ := ids.find? fun id => !s.txn.now.holds id

/-- `_before_commit`: it checks for the innermost savepoint, or for the outermost transaction when none is open. -/
def beforeCommit (s : GuardSession) : GuardSession × Option ℕ :=
  match s.txn.frames with
  | [] => (s, s.refused s.root)
  | f :: rest =>
    match s.refused f.note.record with
    | some id => (s, some id)
    | none =>
      ({ s with txn := { s.txn with frames := { f with note := { f.note with released := true } } :: rest } }, none)

/-- `_after_transaction_end` of the innermost savepoint: a released one hands its record down. -/
def endFrame (s : GuardSession) : GuardSession :=
  match s.txn.frames with
  | [] => s
  | f :: rest =>
    let s := { s with txn := { s.txn with frames := rest } }
    if f.note.released then s.record f.note.record else s

/-- The innermost savepoint is committed. -/
def releaseTop (s : GuardSession) : GuardSession × Option ℕ :=
  match s.beforeCommit with
  | (s, some id) => (s, some id)
  | (s, none) => (s.endFrame, none)

/-- So many of the innermost savepoints are committed, up to a refusal. -/
def releaseMany : ℕ → GuardSession → GuardSession × Option ℕ
  | 0, s => (s, none)
  | n + 1, s =>
    match s.releaseTop with
    | (s, some id) => (s, some id)
    | (s, none) => releaseMany n s

/-- `commit()` of a savepoint: its hook, then the savepoints inside it, then its own end. -/
def release (s : GuardSession) (depth : ℕ) : GuardSession × Option ℕ :=
  match s.beforeCommit with
  | (s, some id) => (s, some id)
  | (s, none) =>
    match releaseMany depth s with
    | (s, some id) => (s, some id)
    | (s, none) => (s.endFrame, none)

/-- The innermost savepoint is rolled back. -/
def rollbackTop (s : GuardSession) : GuardSession :=
  let now := s.txn.base
  let s := s.endFrame
  { s with txn := { s.txn with now := now, dead := false } }

/-- The outermost transaction ends with what the columns hold of its writes made durable, and its rows expire. -/
def finish (s : GuardSession) : GuardSession := ⟨(s.txn.write s.txn.now.stored).commit, []⟩

/-- `commit()` of the outermost transaction: likewise. -/
def commitRoot (s : GuardSession) : GuardSession × Option ℕ :=
  match s.beforeCommit with
  | (s, some id) => (s, some id)
  | (s, none) =>
    match releaseMany s.txn.frames.length s with
    | (s, some id) => (s, some id)
    | (s, none) => (s.finish, none)

/-- `Session.commit()`: the innermost transaction commits, and then each one around it. -/
def commit (s : GuardSession) : GuardSession × Option ℕ :=
  match releaseMany s.txn.frames.length s with
  | (s, some id) => (s, some id)
  | (s, none) => s.commitRoot

/-- One event, with the invoice that was refused. A dead transaction raises at everything but its end. -/
def step (s : GuardSession) : GuardEvent → GuardSession × Option ℕ
  | .flush writes =>
    if s.txn.dead then (s, none)
    else ({ s with txn := s.txn.write (s.txn.now.flush writes).1 }.record (s.txn.now.flush writes).2, none)
  | .flushFails => ({ s with txn := s.txn.fail }, none)
  | .savepoint => if s.txn.dead then (s, none) else ({ s with txn := s.txn.savepoint ⟨[], false⟩ }, none)
  | .release depth => if s.txn.dead ∨ s.txn.frames.length ≤ depth then (s, none) else s.release depth
  | .rollbackTo depth => if s.txn.frames.length ≤ depth then (s, none) else (rollbackTop^[depth + 1] s, none)
  | .commit => if s.txn.dead then (s, none) else s.commit
  | .commitRoot => if s.txn.dead then (s, none) else s.commitRoot
  | .rollback => (⟨s.txn.rollback, []⟩, none)
  | .refresh invoices lines => ({ s with txn := { s.txn with now := s.txn.now.refresh invoices lines } }, none)

def run (s : GuardSession) (events : List GuardEvent) : GuardSession := events.foldl (fun s ev => (s.step ev).1) s

end GuardSession

end Gdx
