import Mathlib.Data.Rat.Defs
import Mathlib.Data.List.Sort
import GdxDispatch.Core.PayPeriods
import GdxDispatch.Lib.Combinations

/-! Suggesting matches of statement lines and books records: `modules/bank_feeds/statement_matching.py`.

    A run over a range of days first wipes the account's suggestions that touch the range. Then each line of the range that
    no match holds is classified, or paired with one record, or, for a deposit, swept with several payments. A pairing that
    was rejected before is not suggested again.

    Amounts are cents, days are day numbers, and rows stand in the order of the database. What Python's regular expressions
    and `str.lower` make of a character is a parameter. -/

namespace Gdx.StatementMatching
open Lib PayPeriods

/-! ### Rows -/

/-- `BankStatementLine.section`. -/
inductive LineSection where
  | deposit
  | debit
  | check
  | serviceCharge
  | interest
  deriving DecidableEq

/-- A row of `bank_statement_lines`; money out is negative. -/
structure StatementLine where
  id : ℕ
  bankAccountId : ℕ
  txnDate : ℤ
  amountCents : ℤ
  description : Text
  lineSection : LineSection
  deriving DecidableEq

structure Payment where
  id : ℕ
  method : Option Text
  amount : ℤ
  paymentDate : ℤ
  voided : Bool
  deriving DecidableEq

structure Expense where
  id : ℕ
  amount : ℤ
  date : ℤ
  deleted : Bool
  deriving DecidableEq

structure VendorInvoice where
  id : ℕ
  isOpen : Bool
  total : Option ℤ
  invoiceDate : Option ℤ
  deriving DecidableEq

/-- `EXTERNAL_SOURCES`. -/
inductive SourceTable where
  | payments
  | expenses
  | vendorInvoices
  deriving DecidableEq

inductive MatchStatus where
  | suggested
  | confirmed
  | rejected
  deriving DecidableEq

/-- `MATCH_RULES`. -/
inductive MatchRule where
  | r2
  | r3
  | r5
  | manual
  deriving DecidableEq

/-- `CLASSIFICATIONS`. -/
inductive Classification where
  | transfer
  | bankFee
  | interest
  | owner
  | processor
  | other
  deriving DecidableEq

/-- A row of `bank_matches` with its lines and externals, whose own status is the match's. -/
structure BankMatch where
  bankAccountId : ℕ
  rule : MatchRule
  status : MatchStatus
  lines : List ℕ
  externals : List (SourceTable × ℕ)
  classification : Option Classification
  confidence : Option ℚ
  note : Option String
  deriving DecidableEq

/-- The tables a run reads. -/
structure Books where
  lines : List StatementLine
  payments : List Payment
  expenses : List Expense
  vendorInvoices : List VendorInvoice
  bankMatches : List BankMatch

/-- What Python makes of characters: `str.lower`, white space, letters alike but for case, and `\d`. -/
structure TextRules where
  lower : Text → Text
  isSpace : Char → Bool
  alike : Char → Char → Bool
  isDigit : Char → Bool

/-! ### Constants and small helpers -/

/-- `R2_BUSINESS_DAYS`. -/
def R2_BUSINESS_DAYS : ℕ := 3

/-- `R3_WINDOW_BACK_DAYS`. -/
def R3_WINDOW_BACK_DAYS : ℤ := 7

/-- `R3_WINDOW_FWD_DAYS`. -/
def R3_WINDOW_FWD_DAYS : ℤ := 1

/-- `R3_MAX_CANDIDATES`. -/
def R3_MAX_CANDIDATES : ℕ := 12

/-- `R3_MAX_SUBSET`. -/
def R3_MAX_SUBSET : ℕ := 6

/-- `VENDOR_INVOICE_WINDOW_DAYS`. -/
def VENDOR_INVOICE_WINDOW_DAYS : ℤ := 10

/-- `_PROCESSOR_METHODS`. -/
def PROCESSOR_METHODS : List Text := ["card", "credit", "credit_card", "debit_card", "stripe", "ach"].map String.toList

/-- `_R3_EXCLUDED_METHODS`. -/
def R3_EXCLUDED_METHODS : List Text := PROCESSOR_METHODS ++ ["quickbooks".toList]

/-- A pattern of letters, and of digits where there is none. -/
abbrev Pattern := List (Option Char)

/-- The branches of `_TRANSFER_RES`. -/
def TRANSFER_RES : List Pattern :=
  let letters (s : String) : Pattern := s.toList.map some
  let digits : Pattern := List.replicate 4 none
  ["Transfer from x", "Transfer to x"].map (fun s => letters s ++ digits ++ letters " to x" ++ digits) ++
    ["Trnsfr Frm Act Ending in ", "Trnsfr To Act Ending in "].map fun s => letters s ++ digits

namespace TextRules
variable (py : TextRules)

/-- The text starts with the pattern. -/
def startsWith : Pattern → Text → Bool
  | [], _ => true
  | _ :: _, [] => false
  | some letter :: pattern, c :: cs => py.alike letter c && startsWith pattern cs
  | none :: pattern, c :: cs => py.isDigit c && startsWith pattern cs

/-- `str.strip`. -/
def strip (t : Text) : Text := ((t.dropWhile py.isSpace).reverse.dropWhile py.isSpace).reverse

/-- `_is_transfer`, of the first line of the description. -/
def isTransfer (line : StatementLine) : Bool :=
  let anchor := py.strip (line.description.takeWhile (· ≠ '\n'))
  TRANSFER_RES.any fun pattern => py.startsWith pattern anchor

/-- `(p.method or "").strip().lower()`. -/
def methodName (p : Payment) : Text := py.lower (py.strip (p.method.getD []))

end TextRules

/-- `_business_days_apart`: the working days after the earlier day, up to the later one. -/
def businessDaysApart (a b : ℤ) : ℕ :=
  (List.range (max a b - min a b).toNat).countP fun i : ℕ => decide (weekday (min a b + i + 1) < 5)

/-- A frozenset is one with another. -/
def sameSet {α : Type} [DecidableEq α] (xs ys : List α) : Bool := xs.all (· ∈ ys) && ys.all (· ∈ xs)

/-! ### A run -/

/-- What a run suggests. -/
structure Suggestions where
  classified : List (StatementLine × Classification)
  deposits : List (StatementLine × Payment)
  sweeps : List (StatementLine × List Payment)
  expenses : List (StatementLine × Expense)
  vendorInvoices : List (StatementLine × VendorInvoice)

section Run
variable (py : TextRules) (db : Books) (account : ℕ) (dateFrom dateTo : ℤ)

def inRange (line : StatementLine) : Bool := dateFrom ≤ line.txnDate && line.txnDate ≤ dateTo

/-- A suggestion of the account with a line in the range. -/
def touchesRange (m : BankMatch) : Bool :=
  m.status = .suggested && m.bankAccountId = account &&
    m.lines.any fun id => db.lines.any fun line => line.id = id && inRange dateFrom dateTo line

/-- The tables after the wipe. -/
def wiped : Books := { db with bankMatches := db.bankMatches.filter (!touchesRange db account dateFrom dateTo ·) }

/-- `_matched_line_ids`. -/
def matchedLineIds : List ℕ := (db.bankMatches.filter (·.status ≠ .rejected)).flatMap BankMatch.lines

/-- `_used_externals`. -/
def usedExternals : List (SourceTable × ℕ) := (db.bankMatches.filter (·.status ≠ .rejected)).flatMap BankMatch.externals

/-- The signature is in `_rejected_signatures`. -/
def rejectedBefore (lines : List ℕ) (externals : List (SourceTable × ℕ)) : Bool :=
  db.bankMatches.any fun m =>
    m.bankAccountId = account && m.status = .rejected && sameSet m.lines lines && sameSet m.externals externals

/-- The lines of the account and the range that no match holds, by their day. -/
def openLines : List StatementLine :=
  ((db.lines.filter fun line => line.bankAccountId = account && inRange dateFrom dateTo line).insertionSort
    (·.txnDate ≤ ·.txnDate)).filter fun line => line.id ∉ matchedLineIds db

/-- The rung of classifications. -/
def classify (line : StatementLine) : Option Classification :=
  match line.lineSection with
  | .serviceCharge => some .bankFee
  | .interest => some .interest
  | _ => if py.isTransfer line then some .transfer else none

def classified : List (StatementLine × Classification) :=
  (openLines db account dateFrom dateTo).filterMap fun line =>
    (classify py line).bind fun c => if rejectedBefore db account [line.id] [] then none else some (line, c)

def remaining : List StatementLine := (openLines db account dateFrom dateTo).filter fun line => classify py line = none

def deposits : List StatementLine := (remaining py db account dateFrom dateTo).filter (·.lineSection = .deposit)

def debits : List StatementLine :=
  (remaining py db account dateFrom dateTo).filter fun line => line.lineSection = .debit || line.lineSection = .check

/-! ### Deposits -/

def inWindow (day : ℤ) : Bool := dateFrom - R3_WINDOW_BACK_DAYS ≤ day && day ≤ dateTo + R3_WINDOW_BACK_DAYS

/-- The payments of the padded window. -/
def payments : List Payment :=
  db.payments.filter fun p => !p.voided && inWindow dateFrom dateTo p.paymentDate && (.payments, p.id) ∉ usedExternals db

/-- Equal cents, and at most three business days apart. -/
def fitsDeposit (p : Payment) (line : StatementLine) : Bool :=
  p.amount = line.amountCents && businessDaysApart p.paymentDate line.txnDate ≤ R2_BUSINESS_DAYS

def r2Candidates (line : StatementLine) : List Payment :=
  (payments db dateFrom dateTo).filter fun p => py.methodName p ∉ PROCESSOR_METHODS && fitsDeposit p line

/-- The deposits of any account that compete for a payment. -/
def competitorDeposits : List StatementLine :=
  db.lines.filter fun line => line.lineSection = .deposit && inWindow dateFrom dateTo line.txnDate &&
    line.id ∉ matchedLineIds db && !py.isTransfer line

/-- `payment_to_lines[p.id]`. -/
def paymentToLines (p : Payment) : List ℕ :=
  ((competitorDeposits py db dateFrom dateTo).filter (fitsDeposit p)).map StatementLine.id

/-- The payment a deposit is paired with. -/
def r2Deposit (line : StatementLine) : Option Payment :=
  match r2Candidates py db dateFrom dateTo line with
  | [p] =>
    if (paymentToLines py db dateFrom dateTo p).length = 1 ∧ rejectedBefore db account [line.id] [(.payments, p.id)] = false
    then some p else none
  | _ => none

def depositPairs : List (StatementLine × Payment) :=
  (deposits py db account dateFrom dateTo).filterMap fun line =>
    (r2Deposit py db account dateFrom dateTo line).map fun p => (line, p)

def stillOpenDeposits : List StatementLine :=
  (deposits py db account dateFrom dateTo).filter fun line => r2Deposit py db account dateFrom dateTo line = none

/-- The payments that a sweep may take. -/
def sweepPool : List Payment :=
  (payments db dateFrom dateTo).filter fun p =>
    p.id ∉ (depositPairs py db account dateFrom dateTo).map (·.2.id) && py.methodName p ∉ R3_EXCLUDED_METHODS

/-- The sets of two to six candidates that add up to the amount. The source stops at the second one. -/
def hits (candidates : List Payment) (target : ℤ) : List (List Payment) :=
  chosen (fun combo => (combo.map Payment.amount).sum = target)
    (List.range' 2 (min R3_MAX_SUBSET candidates.length + 1 - 2)) candidates

/-- The payments of a deposit's window that no sweep of the run has taken. -/
def sweepCandidates (pool : List Payment) (swept : List ℕ) (line : StatementLine) : List Payment :=
  pool.filter fun p => p.id ∉ swept && line.txnDate - R3_WINDOW_BACK_DAYS ≤ p.paymentDate &&
    p.paymentDate ≤ line.txnDate + R3_WINDOW_FWD_DAYS

/-- The payments a deposit is swept with. -/
def sweepLine (pool : List Payment) (swept : List ℕ) (line : StatementLine) : Option (List Payment) :=
  let candidates := sweepCandidates pool swept line
  if candidates = [] ∨ R3_MAX_CANDIDATES < candidates.length then none
  else
    match hits candidates line.amountCents with
    | [combo] =>
      if rejectedBefore db account [line.id] (combo.map fun p => (.payments, p.id)) then none else some combo
    | _ => none

def sweepLines (pool : List Payment) : List ℕ → List StatementLine → List (StatementLine × List Payment)
  | _, [] => []
  | swept, line :: lines =>
    match sweepLine db account pool swept line with
    | some combo => (line, combo) :: sweepLines pool (swept ++ combo.map Payment.id) lines
    | none => sweepLines pool swept lines

/-! ### Debits -/

/-- The expenses of the padded window. -/
def expensePool : List Expense :=
  db.expenses.filter fun e => !e.deleted && inWindow dateFrom dateTo e.date && (.expenses, e.id) ∉ usedExternals db

/-- The open bills with a date. -/
def vendorPool : List VendorInvoice :=
  db.vendorInvoices.filter fun v => v.isOpen && (.vendorInvoices, v.id) ∉ usedExternals db && v.invoiceDate.isSome

def fitsExpense (e : Expense) (line : StatementLine) : Bool :=
  e.amount = -line.amountCents && businessDaysApart e.date line.txnDate ≤ R2_BUSINESS_DAYS

def fitsVendor (v : VendorInvoice) (line : StatementLine) : Bool :=
  v.total = some (-line.amountCents) &&
    v.invoiceDate.any fun day => decide (|day - line.txnDate| ≤ VENDOR_INVOICE_WINDOW_DAYS)

def expenseHits (line : StatementLine) : List Expense := (expensePool db dateFrom dateTo).filter fun e => fitsExpense e line

def vendorHits (line : StatementLine) : List VendorInvoice := (vendorPool db).filter fun v => fitsVendor v line

/-- `expense_to_lines[e.id]`. -/
def expenseToLines (e : Expense) : List ℕ :=
  ((debits py db account dateFrom dateTo).filter (fitsExpense e)).map StatementLine.id

/-- `vendor_to_lines[v.id]`. -/
def vendorToLines (v : VendorInvoice) : List ℕ :=
  ((debits py db account dateFrom dateTo).filter (fitsVendor v)).map StatementLine.id

/-- The expense a debit is paired with. -/
def r2Expense (line : StatementLine) : Option Expense :=
  match expenseHits db dateFrom dateTo line with
  | [e] =>
    if (expenseToLines py db account dateFrom dateTo e).length = 1 ∧
        rejectedBefore db account [line.id] [(.expenses, e.id)] = false
    then some e else none
  | _ => none

/-- The bill a debit without an expense is paired with. -/
def r2Vendor (line : StatementLine) : Option VendorInvoice :=
  if (r2Expense py db account dateFrom dateTo line).isSome then none
  else
    match vendorHits db line with
    | [v] =>
      if (vendorToLines py db account dateFrom dateTo v).length = 1 ∧
          rejectedBefore db account [line.id] [(.vendorInvoices, v.id)] = false
      then some v else none
    | _ => none

/-- What is suggested after the wipe. -/
def suggestions : Suggestions where
  classified := classified py db account dateFrom dateTo
  deposits := depositPairs py db account dateFrom dateTo
  sweeps := sweepLines db account (sweepPool py db account dateFrom dateTo) [] (stillOpenDeposits py db account dateFrom dateTo)
  expenses := (debits py db account dateFrom dateTo).filterMap fun line =>
    (r2Expense py db account dateFrom dateTo line).map fun e => (line, e)
  vendorInvoices := (debits py db account dateFrom dateTo).filterMap fun line =>
    (r2Vendor py db account dateFrom dateTo line).map fun v => (line, v)

/-- The rows that `_new_match` writes. -/
def Suggestions.rows (s : Suggestions) : List BankMatch :=
  let row (rule : MatchRule) (line : StatementLine) (externals : List (SourceTable × ℕ)) (c : Option Classification)
      (confidence : ℚ) (note : Option String) : BankMatch :=
    ⟨account, rule, .suggested, [line.id], externals, c, some confidence, note⟩
  s.classified.map (fun (line, c) => row .r5 line [] (some c) (if c = .transfer then 95 / 100 else 99 / 100) none) ++
    s.deposits.map (fun (line, p) => row .r2 line [(.payments, p.id)] none (95 / 100) none) ++
    s.sweeps.map (fun (line, combo) => row .r3 line (combo.map fun p => (.payments, p.id)) none (9 / 10)
      (some ("deposit sweep of " ++ toString combo.length ++ " payments"))) ++
    s.expenses.map (fun (line, e) => row .r2 line [(.expenses, e.id)] none (9 / 10) none) ++
    s.vendorInvoices.map fun (line, v) => row .r2 line [(.vendorInvoices, v.id)] none (6 / 10)
      (some "matched on vendor invoice total — verify it was paid from this account")

/-- `suggest_matches`: the tables after the run, and what it suggested. -/
def suggestMatches : Books × Suggestions :=
  let db := wiped db account dateFrom dateTo
  let s := suggestions py db account dateFrom dateTo
  ({ db with bankMatches := db.bankMatches ++ s.rows account }, s)

end Run

end Gdx.StatementMatching
