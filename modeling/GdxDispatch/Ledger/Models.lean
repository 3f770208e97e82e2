import GdxDispatch.Lib.Text
import GdxDispatch.Lib.Effect

/-! The general ledger's tables: chart of accounts, journal entries with their lines, period locks.

    Money is signed integer cents, debit positive. A UUID is a number and its text is the decimal
    numeral; a date is a day number. A journal entry carries its lines, the idempotency key that
    makes posting idempotent, and the two links between an entry and its reversal. Rows are kept in
    insertion order, which is the order `created_at, entry_no, id` reads them in. -/

namespace Gdx
open Lib


/-- `str(uuid)`. -/
def str (id : ℕ) : Text := numeral id

/-- Account roles the engine posts to. -/
inductive Role where
  | ar | undeposited | operatingBank | salesTaxPayable | customerCredits | salesFallback
  | discounts | refunds | openingEquity | rounding | wages | payrollTax | expenseFallback
  | surchargeIncome
  deriving DecidableEq, Repr

inductive AccountType where
  | asset | liability | equity | revenue | expense
  deriving DecidableEq, Repr

/-- A chart-of-accounts line. System accounts own a role. -/
structure GlAccount where
  id : ℕ
  code : Text
  name : Text
  type : AccountType
  role : Option Role
  isSystem : Bool
  active : Bool
  companyId : ℕ
  deriving DecidableEq, Repr

/-- Journal-entry lifecycle: born posted, and only ever moved to reversed. -/
inductive EntryStatus where
  | posted | reversed
  deriving DecidableEq, Repr

/-- One debit (+) or credit (−) leg with its reporting dimensions. -/
structure GlJournalLine where
  accountId : ℕ
  amountCents : ℤ
  memo : Option String
  jobId : Option ℕ
  customerId : Option ℕ
  deriving DecidableEq, Repr

/-- One journal entry with its lines. -/
structure GlJournalEntry where
  id : ℕ
  entryNo : ℕ
  effectiveAt : ℤ
  status : EntryStatus
  sourceType : Text
  sourceId : Text
  idempotencyKey : Text
  reversesEntryId : Option ℕ
  reversedByEntryId : Option ℕ
  createdBy : Option Text
  companyId : ℕ
  lines : List GlJournalLine
  deriving DecidableEq, Repr

/-- One append-only period lock. -/
structure GlPeriodLock where
  lockDate : ℤ
  companyId : ℕ
  deriving DecidableEq, Repr

/-- The audit row of a posting into a locked period. -/
structure LockOverride where
  companyId : ℕ
  userId : Option Text
  effectiveAt : ℤ
  lockDate : ℤ
  deriving DecidableEq, Repr

/-- What the ledger raises. -/
inductive LedgerError where
  | unbalancedEntry (message : String)
  | periodLocked (lockDate effectiveAt : ℤ)
  | ledgerConfig (message : String)
  | badKeyComponent (name : String)
  | integrity (key : Text)
  | keyUnsettled (keyPrefix : Text)
  | issuanceComposition (totalCents creditedCents : ℤ)
  | expenseComposition (linesCents amountCents : ℤ)
  deriving DecidableEq, Repr

/-- The ledger's rows. `nextId` is the supply of fresh UUIDs. -/
structure Ledger where
  accounts : List GlAccount
  entries : List GlJournalEntry
  locks : List GlPeriodLock
  overrides : List LockOverride
  nextId : ℕ
  deriving DecidableEq, Repr

/-- A ledger operation: it may raise, and a raise keeps what was written before it. -/
abbrev LedgerM := EStateM LedgerError Ledger

/-- An entry is live while it is posted. -/
def GlJournalEntry.isPosted (e : GlJournalEntry) : Bool := e.status == .posted

@[simp] theorem isPosted_iff {e : GlJournalEntry} : e.isPosted = true ↔ e.status = .posted := by
  simp [GlJournalEntry.isPosted]

/-- `GlJournalEntry.source_type == st AND source_id == sid`. -/
def GlJournalEntry.hasSource (e : GlJournalEntry) (st sid : Text) : Bool :=
  e.sourceType == st && e.sourceId == sid

@[simp] theorem hasSource_iff {e : GlJournalEntry} {st sid : Text} :
    e.hasSource st sid = true ↔ e.sourceType = st ∧ e.sourceId = sid := by
  simp [GlJournalEntry.hasSource]

/-- `SELECT max(lock_date)` of one company. -/
def Ledger.latestLock (L : Ledger) (company : ℕ) : Option ℤ :=
  ((L.locks.filter (·.companyId == company)).map (·.lockDate)).max?

theorem str_injective : Function.Injective str := numeral_injective

@[simp] theorem str_inj {a b : ℕ} : str a = str b ↔ a = b := str_injective.eq_iff

end Gdx
