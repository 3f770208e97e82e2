import GdxDispatch.Ledger.Coa

/-! Posting engine core: `postForEvent` and `reverseEntry`, the only two ways an entry is born.

    `postForEvent` validates the lines, resolves every leg to an account, derives the key from the
    content and from the count of reversed entries under the same prefix, returns the live entry
    when the content is already posted, and otherwise checks the period lock and inserts.
    `reverseEntry` inserts the mirror entry and marks the original reversed. Neither commits, and
    both check the lock before they insert anything. -/

namespace Gdx
open Lib

/-- One leg of an event: exactly one of `role` and `accountId`. -/
structure PostingLine where
  amountCents : ℤ
  role : Option Role
  accountId : Option ℕ
  memo : Option String
  jobId : Option ℕ
  customerId : Option ℕ
  deriving DecidableEq, Repr

/-- A source-system fact the ledger should record. -/
structure PostingEvent where
  companyId : ℕ
  sourceType : Text
  sourceId : Text
  event : Text
  effectiveAt : ℤ
  lines : List PostingLine
  createdBy : Option Text
  extraContent : List (Text × Text)
  deriving DecidableEq, Repr

/-- Retries for the reversed-key-collision race. -/
def MAX_KEY_ATTEMPTS : ℕ := 5

def validateBalance (lines : List PostingLine) : Except LedgerError Unit :=
  let total := (lines.map (·.amountCents)).sum
  if lines.length < 2 then .error (.unbalancedEntry "an entry needs at least 2 lines")
  else if total ≠ 0 then .error (.unbalancedEntry s!"lines sum to {total} cents, not 0")
  else if ¬ lines.any (·.amountCents > 0) ∨ ¬ lines.any (·.amountCents < 0) then
    .error (.unbalancedEntry "an entry needs at least one debit and one credit")
  else if lines.any (·.amountCents == 0) then .error (.unbalancedEntry "zero-amount line")
  else if lines.any (fun l => l.role.isNone == l.accountId.isNone) then
    .error (.unbalancedEntry "each line needs exactly one of role / account_id")
  else .ok ()

/-- `session.get(GlAccount, id)`. -/
def Ledger.accountById (L : Ledger) (id : ℕ) : Option GlAccount := L.accounts.find? (·.id == id)

/-- The account an explicit id names: it must exist, be the company's and be active. -/
def resolveAccountId (company : ℕ) (accountId : Option ℕ) : LedgerM ℕ := fun L =>
  match accountId.bind L.accountById with
  | none => .error (.ledgerConfig "account not found") L
  | some a =>
    if a.companyId ≠ company then .error (.ledgerConfig "account not found") L
    else if !a.active then .error (.ledgerConfig "account is deactivated") L
    else .ok a.id L

def resolveLine (company : ℕ) (line : PostingLine) : LedgerM ℕ :=
  match line.role with
  | some role => do
    let account ← ensureRoleAccount company role
    return account.id
  | none => resolveAccountId company line.accountId

/-- The journal line of a leg once its account is known. -/
def PostingLine.toJournal (line : PostingLine) (accountId : ℕ) : GlJournalLine where
  accountId := accountId
  amountCents := line.amountCents
  memo := line.memo
  jobId := line.jobId
  customerId := line.customerId

def resolveLines (company : ℕ) : List PostingLine → LedgerM (List GlJournalLine)
  | [] => return []
  | line :: lines => do
    let accountId ← resolveLine company line
    let rest ← resolveLines company lines
    return line.toJournal accountId :: rest

/-- Hard block on a date on or before the latest lock; an override is recorded. -/
def checkPeriodLock (company : ℕ) (effectiveAt : ℤ) (overrideLock : Bool) (createdBy : Option Text) :
    LedgerM Unit := fun L =>
  match L.latestLock company with
  | none => .ok () L
  | some lockDate =>
    if effectiveAt > lockDate then .ok () L
    else if !overrideLock then .error (.periodLocked lockDate effectiveAt) L
    else .ok () { L with overrides := L.overrides ++ [⟨company, createdBy, effectiveAt, lockDate⟩] }

/-- `max(entry_no) + 1`. -/
def nextEntryNo (L : Ledger) : ℕ := (L.entries.map (·.entryNo)).foldl max 0 + 1

def entryByKey (L : Ledger) (company : ℕ) (key : Text) : Option GlJournalEntry :=
  L.entries.find? fun e => e.companyId == company && e.idempotencyKey == key

/-- `session.get(GlJournalEntry, id)`. -/
def Ledger.entryById (L : Ledger) (id : ℕ) : Option GlJournalEntry := L.entries.find? (·.id == id)

/-- The header of an entry about to be inserted. -/
structure EntryHeader where
  companyId : ℕ
  effectiveAt : ℤ
  sourceType : Text
  sourceId : Text
  key : Text
  reversesEntryId : Option ℕ
  createdBy : Option Text

/-- The row `insertEntry` adds to `L`. -/
def EntryHeader.entry (h : EntryHeader) (L : Ledger) (lines : List GlJournalLine) : GlJournalEntry where
  id := L.nextId
  entryNo := nextEntryNo L
  effectiveAt := h.effectiveAt
  status := .posted
  sourceType := h.sourceType
  sourceId := h.sourceId
  idempotencyKey := h.key
  reversesEntryId := h.reversesEntryId
  reversedByEntryId := none
  createdBy := h.createdBy
  companyId := h.companyId
  lines := lines

/-- Insert inside a savepoint: the unique key index refuses a taken key and nothing is written. -/
def insertEntry (h : EntryHeader) (lines : List GlJournalLine) : LedgerM GlJournalEntry := fun L =>
  if L.entries.any (·.idempotencyKey == h.key) then .error (.integrity h.key) L
  else .ok (h.entry L lines) { L with entries := L.entries ++ [h.entry L lines], nextId := L.nextId + 1 }

def GlJournalLine.content (l : GlJournalLine) : ContentLine where
  accountId := l.accountId
  amountCents := l.amountCents
  jobId := l.jobId
  customerId := l.customerId

/-- The fields an event with these resolved lines is hashed over. -/
def contentOf (effectiveAt : ℤ) (lines : List GlJournalLine) (extra : List (Text × Text)) : Content where
  effectiveAt := effectiveAt
  lines := lines.map (·.content)
  extra := extra

/-- The retry loop of `postForEvent`. A collision with a reversed entry recomputes the sequence. -/
def postAttempts (event : PostingEvent) (pfx : Text) (lines : List GlJournalLine)
    (overrideLock : Bool) : ℕ → Bool → LedgerM GlJournalEntry
  | 0, _ => throw (.keyUnsettled pfx)
  | attempts + 1, lockChecked => fun L =>
    let key := idempotencyKey pfx (computeSeq L event.companyId pfx)
    match (entryByKey L event.companyId key).filter (·.isPosted) with
    | some existing => .ok existing L
    | none =>
      let checked : LedgerM Unit :=
        if lockChecked then pure ()
        else checkPeriodLock event.companyId event.effectiveAt overrideLock event.createdBy
      match checked L with
      | .error e L' => .error e L'
      | .ok () L' =>
        match insertEntry ⟨event.companyId, event.effectiveAt, event.sourceType, event.sourceId, key,
            none, event.createdBy⟩ lines L' with
        | .ok entry L'' => .ok entry L''
        | .error e L'' =>
          match entryByKey L'' event.companyId key with
          | none => .error e L''
          | some collided =>
            if collided.isPosted then .ok collided L''
            else postAttempts event pfx lines overrideLock attempts true L''

/-- Raise what a pure check raises. -/
def raising {α : Type} (x : Except LedgerError α) : LedgerM α := fun L =>
  match x with
  | .ok a => .ok a L
  | .error e => .error e L

/-- Post one balanced entry for `event`; the same content already live is returned instead. -/
def postForEvent (H : ContentHash) (event : PostingEvent) (overrideLock : Bool) : LedgerM GlJournalEntry := do
  raising (validateBalance event.lines)
  let resolved ← resolveLines event.companyId event.lines
  let chash := H.digest (contentOf event.effectiveAt resolved event.extraContent)
  let pfx ← raising (keyPrefix event.sourceType event.sourceId event.event chash)
  postAttempts event pfx resolved overrideLock MAX_KEY_ATTEMPTS false

/-- The mirrored leg of a reversal. -/
def GlJournalLine.mirror (entryNo : ℕ) (l : GlJournalLine) : GlJournalLine :=
  { l with amountCents := -l.amountCents, memo := some s!"reversal of entry #{entryNo}" }

/-- The row with the reversed status and the link set. -/
def GlJournalEntry.marked (e : GlJournalEntry) (reversalId : ℕ) : GlJournalEntry :=
  { e with status := .reversed, reversedByEntryId := some reversalId }

/-- Mark the row with this id reversed. -/
def Ledger.markReversed (L : Ledger) (id reversalId : ℕ) : Ledger :=
  { L with entries := L.entries.map fun e => if e.id = id then e.marked reversalId else e }

/-- Reverse a posted entry; an already reversed one returns its reversal. `entryId` names the row,
    and what is read is the row as the session holds it now. -/
def reverseEntry (entryId : ℕ) (effectiveAt : Option ℤ) (createdBy : Option Text) (overrideLock : Bool) :
    LedgerM GlJournalEntry := fun L =>
  match L.entryById entryId with
  | none => .error (.ledgerConfig "entry is missing") L
  | some entry =>
    if entry.status = .reversed then
      match entry.reversedByEntryId.bind L.entryById with
      | none => .error (.ledgerConfig "entry is reversed but its reversal is missing") L
      | some existing => .ok existing L
    else
      let when' := effectiveAt.getD entry.effectiveAt
      match checkPeriodLock entry.companyId when' overrideLock createdBy L with
      | .error e L' => .error e L'
      | .ok () L' =>
        match insertEntry ⟨entry.companyId, when', entry.sourceType, entry.sourceId, reversalKey entry.id,
            some entry.id, createdBy⟩ (entry.lines.map (·.mirror entry.entryNo)) L' with
        | .ok reversal L'' => .ok reversal (L''.markReversed entry.id reversal.id)
        | .error e L'' =>
          match entryByKey L'' entry.companyId (reversalKey entry.id) with
          | none => .error e L''
          | some existing => .ok existing L''

end Gdx
