import GdxDispatch.Core.AuditChain

/-! The bank statement evidence store of `bank_feeds/statement_service.py`, for one bank account.

    A statement passes when its own arithmetic ties out and its lines agree with every live passed import
    over the days both periods cover. A passed statement's lines are stored once by content hash, with a
    row for every import that vouches for them. Voiding an import withdraws its vouchers and deletes the
    lines nobody else vouches for. -/

namespace Gdx

open Lib

/-! ### Dates and line texts -/

/-- A `datetime.date`. -/
structure CivilDate where
  year : ℕ
  month : ℕ
  day : ℕ
deriving DecidableEq, Repr

def isLeap (year : ℕ) : Bool := year % 4 = 0 && (year % 100 ≠ 0 || year % 400 = 0)

def daysBeforeMonth (year month : ℕ) : ℕ :=
  ([0, 0, 31, 59, 90, 120, 151, 181, 212, 243, 273, 304, 334].getD month 0) +
    (if 2 < month && isLeap year then 1 else 0)

/-- `date.toordinal`: day 1 is 0001-01-01. -/
def CivilDate.toordinal (d : CivilDate) : ℤ :=
  let y : ℤ := d.year - 1
  y * 365 + y / 4 - y / 100 + y / 400 + daysBeforeMonth d.year d.month + d.day

/-- A numeral with leading zeros up to the width. -/
def zeroPadded (width n : ℕ) : Text := (numeral n).leftpad width '0'

/-- `date.isoformat`. -/
def CivilDate.iso (d : CivilDate) : Text :=
  sepCons '-' (zeroPadded 4 d.year) (sepCons '-' (zeroPadded 2 d.month) (zeroPadded 2 d.day))

/-- An `int` as an f-string prints it. -/
def printedInt (i : ℤ) : Text := if i < 0 then '-' :: numeral i.natAbs else numeral i.natAbs

/-- What the interpreter's Unicode tables say: what `\s` matches and what `lower` gives. -/
structure UnicodeTables where
  isSpace : Char → Bool
  lower : Text → Text

/-- `re.sub(r"\s+", " ", t)`, with a flag for being inside a run of white space. -/
def squeezed (u : UnicodeTables) : Bool → Text → Text
  | _, [] => []
  | inRun, c :: t =>
    if u.isSpace c then (if inRun then squeezed u true t else ' ' :: squeezed u true t)
    else c :: squeezed u false t

def normalizeAnchor (u : UnicodeTables) (anchor : Text) : Text :=
  u.lower (((squeezed u false anchor).dropWhile u.isSpace).rdropWhile u.isSpace)

def statementInstitution : Text := "Primary Bank".toList

/-- The text a line's hash is taken of. -/
def lineText (u : UnicodeTables) (last4 : Text) (txnDate : CivilDate) (amountCents : ℤ) (anchor : Text)
    (occurrence : ℕ) : Text :=
  sepCons '|' statementInstitution (sepCons '|' last4 (sepCons '|' txnDate.iso
    (sepCons '|' (printedInt amountCents) (normalizeAnchor u anchor ++ '|' :: numeral occurrence))))

/-- The interpreter the service runs on: its hash function and its Unicode tables. -/
structure StatementRuntime where
  sha : Sha256
  unicode : UnicodeTables

def computeLineHash (rt : StatementRuntime) (last4 : Text) (txnDate : CivilDate) (amountCents : ℤ)
    (anchor : Text) (occurrence : ℕ) : Text :=
  rt.sha.hexdigest (lineText rt.unicode last4 txnDate amountCents anchor occurrence)

/-! ### Parsed statements -/

inductive StatementSection where
  | deposit | debit | check | serviceCharge | interest
deriving DecidableEq, Repr

structure ParsedTxn where
  txnDate : CivilDate
  amountCents : ℤ
  anchor : Text
  description : Text
  «section» : StatementSection
  checkNumber : Option Text
deriving DecidableEq, Repr

structure ParsedStatement where
  last4 : Text
  periodStart : CivilDate
  periodEnd : CivilDate
  beginningCents : ℤ
  endingCents : ℤ
  depositsCount : Option ℕ
  depositsTotalCents : ℤ
  debitsCount : Option ℕ
  debitsTotalCents : ℤ
  serviceChargeCents : ℤ
  interestCents : ℤ
  lines : List ParsedTxn
  dailyBalances : List (CivilDate × ℤ)
  serviceChargeDetailCents : ℤ
  hasServiceChargeDetail : Bool
deriving DecidableEq, Repr

/-- What makes two lines of one statement the same transaction over again. -/
def ParsedTxn.key (u : UnicodeTables) (t : ParsedTxn) : CivilDate × ℤ × Text :=
  (t.txnDate, t.amountCents, normalizeAnchor u t.anchor)

/-- A parsed line with its occurrence number and its hash. -/
structure HashedLine where
  txn : ParsedTxn
  occurrence : ℕ
  lineHash : Text
deriving DecidableEq, Repr

/-- The loop of `_hashed_lines`, with the keys seen so far. -/
def hashedFrom (rt : StatementRuntime) (last4 : Text) :
    List (CivilDate × ℤ × Text) → List ParsedTxn → List HashedLine
  | _, [] => []
  | seen, t :: ts =>
    let occurrence := seen.count (t.key rt.unicode) + 1
    { txn := t, occurrence := occurrence
      lineHash := computeLineHash rt last4 t.txnDate t.amountCents t.anchor occurrence } ::
      hashedFrom rt last4 (t.key rt.unicode :: seen) ts

def hashedLines (rt : StatementRuntime) (p : ParsedStatement) : List HashedLine :=
  hashedFrom rt p.last4 [] p.lines

/-! ### The tie-out -/

inductive CheckName where
  | summaryEquation | depositsCount | depositsTotal | debitsCount | debitsTotal | serviceChargeRows
  | serviceChargeDetail | interestRows | dailyRecompute | endingEquation | overlapIntegrity
deriving DecidableEq, Repr

structure DailyFailure where
  date : Text
  expected : ℤ
  actual : ℤ
deriving DecidableEq, Repr

structure LineDrift where
  date : Text
  amountCents : ℤ
  anchor : Text
deriving DecidableEq, Repr

structure OverlapFailure where
  otherImportId : ℕ
  window : Text × Text
  existingUnmatched : ℕ
  newUnmatched : ℕ
  descriptionDrift : List LineDrift
  recovery : Text
deriving DecidableEq, Repr

/-- What a check expected and what it found. -/
inductive CheckValue where
  | number (n : ℤ)
  | text (t : Text)
  | daily (failures : List DailyFailure)
  | overlap (failures : List OverlapFailure)
deriving DecidableEq, Repr

structure TieOutCheck where
  name : CheckName
  ok : Bool
  expected : CheckValue
  actual : CheckValue
deriving DecidableEq, Repr

inductive TieOutStatus where
  | passed | failed
deriving DecidableEq, Repr

/-- A check that two numbers agree. -/
def checkEq (name : CheckName) (expected actual : ℤ) : TieOutCheck :=
  { name := name, ok := expected = actual, expected := .number expected, actual := .number actual }

def amountOf (ts : List ParsedTxn) : ℤ := (ts.map ParsedTxn.amountCents).sum

/-- The listed days whose recomputed balance is not the listed one. -/
def dailyFailures (p : ParsedStatement) : List DailyFailure :=
  p.dailyBalances.filterMap fun (d, balance) =>
    let run := p.beginningCents +
      amountOf (p.lines.filter fun t => t.txnDate.toordinal ≤ d.toordinal)
    if run ≠ balance then some { date := d.iso, expected := balance, actual := run } else none

def tieOutChecks (p : ParsedStatement) : List TieOutCheck :=
  let dep := p.lines.filter fun t => t.section = .deposit
  let deb := p.lines.filter fun t => t.section = .debit || t.section = .check
  let sc := p.lines.filter fun t => t.section = .serviceCharge
  let intr := p.lines.filter fun t => t.section = .interest
  let eq := p.beginningCents + p.depositsTotalCents + p.interestCents - p.debitsTotalCents -
    p.serviceChargeCents
  let daily := dailyFailures p
  [checkEq .summaryEquation p.endingCents eq] ++
  (match p.depositsCount with
    | some n => [checkEq .depositsCount n dep.length]
    | none => []) ++
  [checkEq .depositsTotal p.depositsTotalCents (amountOf dep)] ++
  (match p.debitsCount with
    | some n => [checkEq .debitsCount n deb.length]
    | none => []) ++
  [checkEq .debitsTotal p.debitsTotalCents (-amountOf deb),
    checkEq .serviceChargeRows p.serviceChargeCents (-amountOf sc)] ++
  (if p.hasServiceChargeDetail then
    [checkEq .serviceChargeDetail p.serviceChargeCents p.serviceChargeDetailCents] else []) ++
  [checkEq .interestRows p.interestCents (amountOf intr),
    { name := .dailyRecompute, ok := daily.isEmpty
      expected := .text (numeral p.dailyBalances.length ++ " rows".toList)
      actual := if daily.isEmpty then .text "all match".toList else .daily daily },
    checkEq .endingEquation p.endingCents (p.beginningCents + amountOf p.lines)]

def computeTieOut (p : ParsedStatement) : TieOutStatus × List TieOutCheck :=
  let checks := tieOutChecks p
  (if checks.all TieOutCheck.ok then .passed else .failed, checks)

/-! ### The store -/

inductive ContinuityKind where
  | predecessor | successor
deriving DecidableEq, Repr

structure ContinuityWarning where
  kind : ContinuityKind
  otherDate : Text
  otherCents : ℤ
  cents : ℤ
deriving DecidableEq, Repr

/-- A row of `bank_statement_imports`. The period and the balances of the row are copies of the stored
    file's, which is kept here as parsed. -/
structure StatementImport where
  id : ℕ
  fileSha256 : Text
  statement : ParsedStatement
  tieOutStatus : TieOutStatus
  checks : List TieOutCheck
  continuityWarnings : List ContinuityWarning
  linesAdded : ℕ
  linesDeduped : ℕ
  voided : Bool
deriving DecidableEq, Repr

/-- A row of `bank_statement_lines`. -/
structure StatementLine where
  id : ℕ
  importId : ℕ
  txnDate : CivilDate
  amountCents : ℤ
  description : Text
  «section» : StatementSection
  checkNumber : Option Text
  occurrenceN : ℕ
  lineHash : Text
deriving DecidableEq, Repr

/-- A row of `bank_statement_line_sources`: an import vouches for a line. -/
structure LineSource where
  lineId : ℕ
  importId : ℕ
deriving DecidableEq, Repr

inductive MatchStatus where
  | suggested | confirmed | rejected
deriving DecidableEq, Repr

/-- A row of `bank_match_lines`. -/
structure MatchLine where
  matchId : ℕ
  lineId : ℕ
  status : MatchStatus
deriving DecidableEq, Repr

structure StatementStore where
  imports : List StatementImport
  lines : List StatementLine
  sources : List LineSource
  matchLines : List MatchLine
  nextImport : ℕ
  nextLine : ℕ
deriving DecidableEq, Repr

def StatementStore.empty : StatementStore :=
  { imports := [], lines := [], sources := [], matchLines := [], nextImport := 0, nextLine := 0 }

/-- Not voided and passed. -/
def StatementImport.stands (i : StatementImport) : Bool := !i.voided && i.tieOutStatus = .passed

/-- The imports the integrity and continuity checks read. -/
def StatementStore.standing (s : StatementStore) : List StatementImport :=
  s.imports.filter StatementImport.stands

/-- An import vouches for a line. -/
def StatementStore.vouches (s : StatementStore) (importId lineId : ℕ) : Bool :=
  s.sources.any fun x => x.lineId = lineId && x.importId = importId

def continuityWarnings (s : StatementStore) (p : ParsedStatement) : List ContinuityWarning :=
  s.standing.flatMap fun other =>
    let o := other.statement
    (if o.periodEnd.toordinal + 1 = p.periodStart.toordinal ∧ o.endingCents ≠ p.beginningCents then
      [{ kind := .predecessor, otherDate := o.periodEnd.iso, otherCents := o.endingCents
         cents := p.beginningCents }] else []) ++
    (if p.periodEnd.toordinal + 1 = o.periodStart.toordinal ∧ p.endingCents ≠ o.beginningCents then
      [{ kind := .successor, otherDate := o.periodStart.iso, otherCents := o.beginningCents
         cents := p.endingCents }] else [])

/-- The later of two dates, `max(a, b)`. -/
def laterDate (a b : CivilDate) : CivilDate := if a.toordinal < b.toordinal then b else a

/-- The earlier of two dates, `min(a, b)`. -/
def earlierDate (a b : CivilDate) : CivilDate := if b.toordinal < a.toordinal then b else a

def CivilDate.within (d start stop : CivilDate) : Bool :=
  start.toordinal ≤ d.toordinal && d.toordinal ≤ stop.toordinal

def overlapRecovery : Text := "void conflicting import(s), then re-import both files".toList

/-- The disagreement of a new statement with one standing import over the days of both periods. -/
def overlapWith (s : StatementStore) (p : ParsedStatement) (hashed : List HashedLine)
    (other : StatementImport) : Option OverlapFailure :=
  let wStart := laterDate p.periodStart other.statement.periodStart
  let wEnd := earlierDate p.periodEnd other.statement.periodEnd
  if wEnd.toordinal < wStart.toordinal then none
  else
    let existing := s.lines.filter fun l => s.vouches other.id l.id && l.txnDate.within wStart wEnd
    let fresh := hashed.filter fun h => h.txn.txnDate.within wStart wEnd
    let missingFromNew := (existing.filter fun l => l.lineHash ∉ fresh.map HashedLine.lineHash)
    let missingFromExisting := (fresh.filter fun h => h.lineHash ∉ existing.map StatementLine.lineHash)
    if missingFromNew = [] ∧ missingFromExisting = [] then none
    else
      let existingDa := missingFromNew.map fun l => (l.txnDate.iso, l.amountCents)
      some
        { otherImportId := other.id
          window := (wStart.iso, wEnd.iso)
          existingUnmatched := (missingFromNew.map StatementLine.lineHash).dedup.length
          newUnmatched := (missingFromExisting.map HashedLine.lineHash).dedup.length
          descriptionDrift := (missingFromExisting.filter fun h =>
            (h.txn.txnDate.iso, h.txn.amountCents) ∈ existingDa).map fun h =>
              { date := h.txn.txnDate.iso, amountCents := h.txn.amountCents, anchor := h.txn.anchor }
          recovery := overlapRecovery }

def overlapIntegrity (s : StatementStore) (p : ParsedStatement) (hashed : List HashedLine) :
    List OverlapFailure :=
  s.standing.filterMap (overlapWith s p hashed)

/-! ### Import -/

inductive ParseFlavor where
  | tooLarge | «structure» | notRecognized
deriving DecidableEq, Repr

/-- An uploaded file: its SHA-256 and what the parser makes of it. -/
structure StatementFile where
  sha256 : Text
  tooLarge : Bool
  parsed : Except ParseFlavor ParsedStatement

inductive ImportResult where
  | duplicateFile (importId : ℕ) (status : TieOutStatus)
  | parseError (flavor : ParseFlavor)
  | failedTieOut (importId : ℕ)
  | imported (importId added deduped : ℕ)
deriving DecidableEq, Repr

/-- The row a hashed line is stored as. -/
def HashedLine.row (h : HashedLine) (id importId : ℕ) : StatementLine :=
  { id := id, importId := importId, txnDate := h.txn.txnDate, amountCents := h.txn.amountCents
    description := h.txn.description, «section» := h.txn.section, checkNumber := h.txn.checkNumber
    occurrenceN := h.occurrence, lineHash := h.lineHash }

/-- One line of a passed statement: store it unless its hash is there, and vouch for it. -/
def insertLine (importId : ℕ) (s : StatementStore) (h : HashedLine) : StatementStore :=
  match s.lines.find? fun l => l.lineHash = h.lineHash with
  | some l => { s with sources := s.sources ++ [⟨l.id, importId⟩] }
  | none =>
    { s with
      lines := s.lines ++ [h.row s.nextLine importId]
      sources := s.sources ++ [⟨s.nextLine, importId⟩]
      nextLine := s.nextLine + 1 }

/-- The verdict on a parsed statement: its own arithmetic, then the overlaps. -/
def verdict (rt : StatementRuntime) (s : StatementStore) (p : ParsedStatement) :
    TieOutStatus × List TieOutCheck :=
  match computeTieOut p with
  | (.failed, checks) => (.failed, checks)
  | (.passed, checks) =>
    let failures := overlapIntegrity s p (hashedLines rt p)
    (if failures = [] then .passed else .failed,
      checks ++ [{ name := .overlapIntegrity, ok := failures = []
                   expected := .text "bidirectional hash agreement over period intersections".toList
                   actual := if failures = [] then .text "no conflicts".toList
                             else .overlap failures }])

/-- The import of a parsed statement whose file is new. -/
def admitStatement (rt : StatementRuntime) (s : StatementStore) (sha256 : Text) (p : ParsedStatement) :
    StatementStore × ImportResult :=
  let (status, checks) := verdict rt s p
  let warnings := continuityWarnings s p
  let id := s.nextImport
  match status with
  | .failed =>
    let row : StatementImport :=
      { id := id, fileSha256 := sha256, statement := p, tieOutStatus := .failed, checks := checks
        continuityWarnings := warnings, linesAdded := 0, linesDeduped := 0, voided := false }
    ({ s with imports := s.imports ++ [row], nextImport := id + 1 }, .failedTieOut id)
  | .passed =>
    let hashed := hashedLines rt p
    let s' := hashed.foldl (insertLine id) s
    let added := s'.lines.length - s.lines.length
    let deduped := hashed.length - added
    let row : StatementImport :=
      { id := id, fileSha256 := sha256, statement := p, tieOutStatus := .passed, checks := checks
        continuityWarnings := warnings, linesAdded := added, linesDeduped := deduped, voided := false }
    ({ s' with imports := s.imports ++ [row], nextImport := id + 1 }, .imported id added deduped)

def importStatement (rt : StatementRuntime) (s : StatementStore) (f : StatementFile) :
    StatementStore × ImportResult :=
  if f.tooLarge then (s, .parseError .tooLarge)
  else
    match s.imports.find? fun i => i.fileSha256 = f.sha256 && !i.voided with
    | some i => (s, .duplicateFile i.id i.tieOutStatus)
    | none =>
      match f.parsed with
      | .error flavor => (s, .parseError flavor)
      | .ok p => admitStatement rt s f.sha256 p

/-! ### Void -/

inductive VoidResult where
  | notFound
  | alreadyVoided
  | refused (confirmedMatches : ℕ)
  | voided (removed keptCoAttested : ℕ)
deriving DecidableEq, Repr

/-- The lines an import vouches for. -/
def StatementStore.attestedBy (s : StatementStore) (importId : ℕ) : List ℕ :=
  (s.sources.filter fun x => x.importId = importId).map LineSource.lineId

/-- The lines only this import vouches for. -/
def StatementStore.doomed (s : StatementStore) (importId : ℕ) : List ℕ :=
  (s.attestedBy importId).filter fun lineId =>
    !(s.sources.any fun x => x.lineId = lineId && x.importId ≠ importId)

def voidImport (s : StatementStore) (importId : ℕ) : StatementStore × VoidResult :=
  match s.imports.find? fun i => i.id = importId with
  | none => (s, .notFound)
  | some imp =>
    if imp.voided then (s, .alreadyVoided)
    else
      let doomed := s.doomed importId
      let referencing := s.matchLines.filter fun m => m.lineId ∈ doomed
      let confirmed := ((referencing.filter fun m => m.status = .confirmed).map MatchLine.matchId).dedup
      if confirmed ≠ [] then (s, .refused confirmed.length)
      else
        let stale := referencing.map MatchLine.matchId
        ({ s with
            sources := s.sources.filter fun x => x.importId ≠ importId
            matchLines := s.matchLines.filter fun m => m.matchId ∉ stale
            lines := s.lines.filter fun l => l.id ∉ doomed
            imports := s.imports.map fun i => if i.id = importId then { i with voided := true } else i },
          .voided doomed.length ((s.attestedBy importId).length - doomed.length))

/-! ### Runs -/

/-- One call on the store. `rematch` is the matching module at work: any match rows on stored lines. -/
inductive StatementCall where
  | «import» (file : StatementFile)
  | void (importId : ℕ)
  | rematch (rows : List MatchLine)

def stepStatement (rt : StatementRuntime) (s : StatementStore) : StatementCall → StatementStore
  | .import file => (importStatement rt s file).1
  | .void importId => (voidImport s importId).1
  | .rematch rows =>
    if rows.all fun m => s.lines.any fun l => l.id = m.lineId then { s with matchLines := rows } else s

def runStatements (rt : StatementRuntime) (calls : List StatementCall) : StatementStore :=
  calls.foldl (stepStatement rt) .empty

/-- Imports of several files, one after another, with what each returned. -/
def importAll (rt : StatementRuntime) : StatementStore → List StatementFile →
    StatementStore × List ImportResult
  | s, [] => (s, [])
  | s, f :: fs =>
    let (s', r) := importStatement rt s f
    let (s'', rs) := importAll rt s' fs
    (s'', r :: rs)

end Gdx
