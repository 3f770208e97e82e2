import GdxDispatch.Lib.Tally
import GdxDispatch.Ledger.JournalRun

/-! Ledger reports: trial balance, accrual P&L, balance sheet.

    Pure reads over the journal lines. Every report starts from the same rows, the (account, amount)
    pairs of the lines in a date window, grouped by account. Each entry lies wholly inside or outside
    a window, so the rows of any window sum to zero; the signs of the five account types then turn
    that one fact into the zero proofs. The notes on what the books do not contain yet (`completeness`)
    read vendor bills and payroll, and no amount here depends on them. -/

namespace Gdx
open Lib

/-- Liabilities, equity and revenue are presented credit-positive. -/
def CREDIT_NATURAL : List AccountType := [.liability, .equity, .revenue]

/-- `effective_at` inside an optional start and an optional end. -/
def inWindow (start stop : Option ℤ) (e : GlJournalEntry) : Bool :=
  start.all (· ≤ e.effectiveAt) && stop.all (e.effectiveAt ≤ ·)

/-- `(account, amount_cents)` of every journal line in the window, whatever the entry's status. -/
def lineRows (L : Ledger) (company : ℕ) (start stop : Option ℤ) : List (GlAccount × ℤ) :=
  (L.entries.filter fun e => e.companyId == company && inWindow start stop e).flatMap fun e =>
    e.lines.flatMap fun l => (L.accounts.filter (·.id == l.accountId)).map fun a => (a, l.amountCents)

/-- What the lines dated up to a day leave on an account. -/
def accountNet (L : Ledger) (company : ℕ) (asOf : ℤ) (account : ℕ) : ℤ :=
  ((((L.entries.filter fun e => e.companyId == company && inWindow none (some asOf) e).flatMap (·.lines)).filter
    (·.accountId == account)).map (·.amountCents)).sum

def sumByAccount (rows : List (GlAccount × ℤ)) : List (GlAccount × ℤ) := tally (·.id) rows

def natural (account : GlAccount) (signedCents : ℤ) : ℤ :=
  if account.type ∈ CREDIT_NATURAL then -signedCents else signedCents

/-- `totals.values()` without the slots that came to zero. -/
def liveSlots (L : Ledger) (company : ℕ) (start stop : Option ℤ) : List (GlAccount × ℤ) :=
  (sumByAccount (lineRows L company start stop)).filter (·.2 ≠ 0)

structure TrialBalanceRow where
  accountId : ℕ
  code : Text
  name : Text
  type : AccountType
  debitCents : ℤ
  creditCents : ℤ

structure TrialBalance where
  asOf : ℤ
  rows : List TrialBalanceRow
  debitCents : ℤ
  creditCents : ℤ
  zeroProofCents : ℤ

def trialBalanceRow (slot : GlAccount × ℤ) : TrialBalanceRow where
  accountId := slot.1.id
  code := slot.1.code
  name := slot.1.name
  type := slot.1.type
  debitCents := if slot.2 > 0 then slot.2 else 0
  creditCents := if slot.2 < 0 then -slot.2 else 0

def trialBalance (L : Ledger) (company : ℕ) (asOf : ℤ) : TrialBalance :=
  let slots := liveSlots L company none (some asOf)
  let rows := slots.map trialBalanceRow
  { asOf := asOf
    rows := rows.insertionSort fun r r' => r.code ≤ r'.code
    debitCents := (rows.map (·.debitCents)).sum
    creditCents := (rows.map (·.creditCents)).sum
    zeroProofCents := (slots.map (·.2)).sum }

/-- A row of the P&L or of the balance sheet; the computed row has no account. -/
structure SectionRow where
  accountId : Option ℕ
  code : Text
  name : Text
  amountCents : ℤ

def sectionRow (slot : GlAccount × ℤ) : SectionRow where
  accountId := some slot.1.id
  code := slot.1.code
  name := slot.1.name
  amountCents := natural slot.1 slot.2

/-- The rows of one account type, in code order. -/
def sectionRows (slots : List (GlAccount × ℤ)) (type : AccountType) : List SectionRow :=
  ((slots.filter (·.1.type == type)).map sectionRow).insertionSort fun r r' => r.code ≤ r'.code

/-- What the rows of one account type come to in its natural sign. -/
def sectionTotal (slots : List (GlAccount × ℤ)) (type : AccountType) : ℤ :=
  ((slots.filter (·.1.type == type)).map fun s => natural s.1 s.2).sum

structure Pnl where
  start : ℤ
  stop : ℤ
  revenue : List SectionRow
  expenses : List SectionRow
  revenueCents : ℤ
  expenseCents : ℤ
  netIncomeCents : ℤ

def pnlSections (slots : List (GlAccount × ℤ)) (start stop : ℤ) : Pnl where
  start := start
  stop := stop
  revenue := sectionRows slots .revenue
  expenses := sectionRows slots .expense
  revenueCents := sectionTotal slots .revenue
  expenseCents := sectionTotal slots .expense
  netIncomeCents := sectionTotal slots .revenue - sectionTotal slots .expense

def pnlAccrual (L : Ledger) (company : ℕ) (start stop : ℤ) : Pnl :=
  pnlSections (liveSlots L company (some start) (some stop)) start stop

structure BalanceSheet where
  asOf : ℤ
  assets : List SectionRow
  liabilities : List SectionRow
  equity : List SectionRow
  assetCents : ℤ
  liabilityCents : ℤ
  equityCents : ℤ
  zeroProofCents : ℤ

/-- The computed rollup: revenue and expense slots at minus their signed sum. -/
def retainedCents (slots : List (GlAccount × ℤ)) : ℤ :=
  ((slots.filter fun s => s.1.type == .revenue || s.1.type == .expense).map fun s => -s.2).sum

def retainedRow (cents : ℤ) : SectionRow where
  accountId := none
  code := "3900*".toList
  name := "Retained Earnings (computed)".toList
  amountCents := cents

def balanceSheet (L : Ledger) (company : ℕ) (asOf : ℤ) : BalanceSheet :=
  let slots := liveSlots L company none (some asOf)
  let retained := retainedCents slots
  let equityTotal := sectionTotal slots .equity + retained
  { asOf := asOf
    assets := sectionRows slots .asset
    liabilities := sectionRows slots .liability
    equity := sectionRows slots .equity ++ [retainedRow retained]
    assetCents := sectionTotal slots .asset
    liabilityCents := sectionTotal slots .liability
    equityCents := equityTotal
    zeroProofCents := sectionTotal slots .asset - sectionTotal slots .liability - equityTotal }

/-- The computed retained earnings a balance sheet shows: its last equity row. -/
def BalanceSheet.retainedEarnings (sheet : BalanceSheet) : ℤ :=
  (sheet.equity.getLast?.map (·.amountCents)).getD 0

/-! ### The rows of a window -/

/-- One id, one account. -/
theorem JournalInv.account_eq {H : ContentHash} {L : Ledger} (h : JournalInv H L) {a b : GlAccount}
    (ha : a ∈ L.accounts) (hb : b ∈ L.accounts) (hid : a.id = b.id) : a = b :=
  List.inj_on_of_nodup_map h.account_nodup ha hb hid

theorem mem_lineRows {L : Ledger} {company : ℕ} {start stop : Option ℤ} {r : GlAccount × ℤ}
    (h : r ∈ lineRows L company start stop) : r.1 ∈ L.accounts := by
  simp only [lineRows, List.mem_flatMap, List.mem_map, List.mem_filter] at h
  obtain ⟨e, -, l, -, a, ⟨ha, -⟩, rfl⟩ := h
  exact ha

/-- Every weighting of the live slots is the weighting of the rows. -/
theorem weighted_liveSlots {H : ContentHash} {L : Ledger} (h : JournalInv H L) (w : GlAccount → ℤ)
    (company : ℕ) (start stop : Option ℤ) :
    weighted w (liveSlots L company start stop) = weighted w (lineRows L company start stop) := by
  rw [liveSlots, weighted_filter_nonzero, sumByAccount, weighted_tally]
  intro r hr r' hr' hid
  rw [h.account_eq (mem_lineRows hr) (mem_lineRows hr') hid]

/-- The rows of one journal line: its account, once. -/
theorem account_rows {H : ContentHash} {L : Ledger} (h : JournalInv H L) {id : ℕ}
    (hknown : ∃ a ∈ L.accounts, a.id = id) : ∃ a, L.accounts.filter (·.id == id) = [a] := by
  obtain ⟨a, ha, rfl⟩ := hknown
  have hle : ∀ b ∈ L.accounts.filter (·.id == a.id), b = a := by
    intro b hb
    rw [List.mem_filter, beq_iff_eq] at hb
    exact h.account_eq hb.1 ha hb.2
  have hnd : (L.accounts.filter (·.id == a.id)).Nodup :=
    (List.Nodup.of_map _ h.account_nodup).filter _
  have hmem : a ∈ L.accounts.filter (·.id == a.id) := List.mem_filter.mpr ⟨ha, by simp⟩
  refine ⟨a, ?_⟩
  cases hf : L.accounts.filter (·.id == a.id) with
  | nil => rw [hf] at hmem; cases hmem
  | cons x xs =>
    rw [hf] at hle hnd
    cases xs with
    | nil => rw [hle x (List.mem_cons_self ..)]
    | cons y ys =>
      have hxy : x = y := by rw [hle x (by simp), hle y (by simp)]
      exact absurd (hxy ▸ List.mem_cons_self ..) (List.nodup_cons.mp hnd).1

/-- The rows of some accounts add up to the amounts of their lines. -/
theorem weighted_accounts {H : ContentHash} {L : Ledger} (h : JournalInv H L) (p : ℕ → Bool) (lines : List GlJournalLine)
    (hknown : ∀ l ∈ lines, ∃ a ∈ L.accounts, a.id = l.accountId) :
    weighted (fun a => if p a.id then 1 else 0) (lines.flatMap fun l =>
      (L.accounts.filter (·.id == l.accountId)).map fun a => (a, l.amountCents)) =
        ((lines.filter (p ·.accountId)).map (·.amountCents)).sum := by
  induction lines with
  | nil => rfl
  | cons l lines ih =>
    obtain ⟨a, ha⟩ := account_rows h (hknown l (List.mem_cons_self ..))
    have hid : a.id = l.accountId := by
      have hmem : a ∈ L.accounts.filter (·.id == l.accountId) := ha ▸ List.mem_singleton_self a
      exact beq_iff_eq.mp (List.mem_filter.mp hmem).2
    rw [List.flatMap_cons, weighted_append, ih fun k hk => hknown k (List.mem_cons_of_mem _ hk), ha]
    by_cases hp : p l.accountId = true
    · simp [hid, hp]
    · simp [hid, hp]

theorem weighted_lineRows {H : ContentHash} {L : Ledger} (h : JournalInv H L) (p : ℕ → Bool) (company : ℕ)
    (start stop : Option ℤ) :
    weighted (fun a => if p a.id then 1 else 0) (lineRows L company start stop) =
      ((((L.entries.filter fun e => e.companyId == company && inWindow start stop e).flatMap (·.lines)).filter
        (p ·.accountId)).map (·.amountCents)).sum := by
  rw [← weighted_accounts h, List.flatMap_assoc]
  · rfl
  · intro l hl
    obtain ⟨e, he, hl⟩ := List.mem_flatMap.mp hl
    exact h.account_known e (List.mem_of_mem_filter he) l hl

/-- Whatever the window, its rows sum to zero. -/
theorem sum_lineRows {H : ContentHash} {L : Ledger} (h : JournalInv H L) (company : ℕ)
    (start stop : Option ℤ) : weighted (fun _ => 1) (lineRows L company start stop) = 0 := by
  have hin : ∀ e ∈ L.entries.filter fun e => e.companyId == company && inWindow start stop e,
      e ∈ L.entries := fun e he => (List.mem_filter.mp he).1
  have hlines := weighted_lineRows h (fun _ => true) company start stop
  simp only [if_true, List.filter_true] at hlines
  rw [hlines]
  generalize L.entries.filter (fun e => e.companyId == company && inWindow start stop e) = es at hin ⊢
  induction es with
  | nil => rfl
  | cons e es ih =>
    have he := hin e (List.mem_cons_self ..)
    rw [List.flatMap_cons, List.map_append, List.sum_append, ih fun x hx => hin x (List.mem_cons_of_mem _ hx),
      (h.balanced e he).sum_zero, add_zero]

/-- The days up to `d₂` are the days up to `d₁` and the days after it. -/
theorem weighted_lineRows_split (w : GlAccount → ℤ) (L : Ledger) (company : ℕ) {d₁ d₂ : ℤ} (hd : d₁ ≤ d₂) :
    weighted w (lineRows L company none (some d₂)) =
      weighted w (lineRows L company none (some d₁)) +
        weighted w (lineRows L company (some (d₁ + 1)) (some d₂)) := by
  unfold lineRows
  induction L.entries with
  | nil => rfl
  | cons e es ih =>
    simp only [List.filter_cons, inWindow, Option.all_none, Option.all_some, Bool.true_and,
      Bool.and_eq_true, beq_iff_eq, decide_eq_true_eq] at ih ⊢
    by_cases hc : e.companyId = company
    · by_cases h1 : e.effectiveAt ≤ d₁
      · rw [if_pos ⟨hc, by omega⟩, if_pos ⟨hc, h1⟩, if_neg (by omega)]
        rw [List.flatMap_cons, weighted_append, List.flatMap_cons, weighted_append, ih]
        ring
      · by_cases h2 : e.effectiveAt ≤ d₂
        · rw [if_pos ⟨hc, h2⟩, if_neg (by omega), if_pos ⟨hc, by omega, h2⟩]
          rw [List.flatMap_cons, weighted_append, List.flatMap_cons, weighted_append, ih]
          ring
        · rw [if_neg (by omega), if_neg (by omega), if_neg (by omega)]
          exact ih
    · rw [if_neg (by tauto), if_neg (by tauto), if_neg (by tauto)]
      exact ih

/-! ### Totals as weightings -/

/-- The sign an account type is presented in. -/
def naturalSign (type : AccountType) : ℤ := if type ∈ CREDIT_NATURAL then -1 else 1

theorem sectionTotal_eq (slots : List (GlAccount × ℤ)) (type : AccountType) :
    sectionTotal slots type = weighted (fun a => if a.type == type then naturalSign type else 0) slots := by
  rw [← sum_filter_eq_weighted (fun a : GlAccount => a.type == type), sectionTotal]
  congr 1
  refine List.map_congr_left fun s hs => ?_
  have htype : s.1.type = type := by simpa using (List.mem_filter.mp hs).2
  rw [natural, naturalSign, htype]
  split_ifs <;> ring

theorem retainedCents_eq (slots : List (GlAccount × ℤ)) :
    retainedCents slots =
      weighted (fun a => if a.type == .revenue || a.type == .expense then -1 else 0) slots := by
  rw [← sum_filter_eq_weighted (fun a : GlAccount => a.type == .revenue || a.type == .expense), retainedCents]
  simp

/-- The five sections cover the chart: assets less liabilities, equity and the rollup is the sum of
    all slots. -/
theorem sections_cover (slots : List (GlAccount × ℤ)) :
    sectionTotal slots .asset - sectionTotal slots .liability -
        (sectionTotal slots .equity + retainedCents slots) = weighted (fun _ => 1) slots := by
  simp only [sectionTotal_eq, retainedCents_eq]
  induction slots with
  | nil => rfl
  | cons s slots ih =>
    simp only [weighted_cons]
    rw [← ih]
    cases s.1.type <;> simp [naturalSign, CREDIT_NATURAL] <;> ring

/-- Revenue less expenses is the rollup. -/
theorem net_income_eq (slots : List (GlAccount × ℤ)) :
    sectionTotal slots .revenue - sectionTotal slots .expense = retainedCents slots := by
  simp only [sectionTotal_eq, retainedCents_eq]
  induction slots with
  | nil => rfl
  | cons s slots ih =>
    simp only [weighted_cons]
    rw [← ih]
    cases s.1.type <;> simp [naturalSign, CREDIT_NATURAL] <;> ring

/-- A row shows its amount on one side. -/
theorem trialBalanceRow_net (slot : GlAccount × ℤ) :
    (trialBalanceRow slot).debitCents - (trialBalanceRow slot).creditCents = slot.2 := by
  simp only [trialBalanceRow]
  split_ifs <;> omega

theorem debit_sub_credit (slots : List (GlAccount × ℤ)) :
    ((slots.map trialBalanceRow).map (·.debitCents)).sum -
        ((slots.map trialBalanceRow).map (·.creditCents)).sum = (slots.map (·.2)).sum := by
  induction slots with
  | nil => rfl
  | cons s slots ih =>
    have hs := trialBalanceRow_net s
    simp only [List.map_cons, List.sum_cons]
    omega

/-- The rows of an account show what the journal leaves on it. -/
theorem trialBalance_account {H : ContentHash} {L : Ledger} (h : JournalInv H L) (company : ℕ) (asOf : ℤ) (account : ℕ) :
    (((trialBalance L company asOf).rows.filter (·.accountId == account)).map fun r => r.debitCents - r.creditCents).sum =
      accountNet L company asOf account := by
  have hsort := List.perm_insertionSort (fun r r' : TrialBalanceRow => r.code ≤ r'.code)
    ((liveSlots L company none (some asOf)).map trialBalanceRow)
  have hnet := weighted_lineRows h (· == account) company none (some asOf)
  rw [← weighted_liveSlots h, ← sum_filter_eq_weighted (fun a : GlAccount => a.id == account)] at hnet
  refine (((hsort.filter _).map _).sum_eq.trans ?_).trans hnet
  rw [List.filter_map, List.map_map]
  refine congrArg List.sum (List.map_congr_left fun slot _ => ?_)
  exact (trialBalanceRow_net slot).trans (one_mul _).symm

/-- The totals are those of the rows. -/
theorem trialBalance_totals (L : Ledger) (company : ℕ) (asOf : ℤ) :
    (trialBalance L company asOf).debitCents = ((trialBalance L company asOf).rows.map (·.debitCents)).sum ∧
      (trialBalance L company asOf).creditCents = ((trialBalance L company asOf).rows.map (·.creditCents)).sum := by
  have hsort := (List.perm_insertionSort (fun r r' : TrialBalanceRow => r.code ≤ r'.code)
    ((liveSlots L company none (some asOf)).map trialBalanceRow)).symm
  exact ⟨(hsort.map _).sum_eq, (hsort.map _).sum_eq⟩

theorem sum_snd_eq_weighted (slots : List (GlAccount × ℤ)) :
    (slots.map (·.2)).sum = weighted (fun _ => 1) slots := by
  simp [weighted]

theorem retainedEarnings_balanceSheet (L : Ledger) (company : ℕ) (asOf : ℤ) :
    (balanceSheet L company asOf).retainedEarnings = retainedCents (liveSlots L company none (some asOf)) := by
  simp [balanceSheet, BalanceSheet.retainedEarnings, retainedRow]

/-- On every reachable journal the trial balance shows what the journal leaves on each account, it and the balance sheet
    prove to zero at every date, and retained earnings move by the net income of the days between. -/
theorem reports_prove_to_zero (H : ContentHash) (L : Ledger) (hempty : L.entries = []) (hc : ChartOk L)
    (ops : List JournalOp) (company : ℕ) :
    let M := ((Book.mk L []).run H ops).ledger
    (∀ d, (trialBalance M company d).zeroProofCents = 0 ∧
        (trialBalance M company d).debitCents = (trialBalance M company d).creditCents ∧
        (balanceSheet M company d).zeroProofCents = 0) ∧
      (∀ d, (trialBalance M company d).debitCents = ((trialBalance M company d).rows.map (·.debitCents)).sum ∧
        (trialBalance M company d).creditCents = ((trialBalance M company d).rows.map (·.creditCents)).sum ∧
        ∀ account, (((trialBalance M company d).rows.filter (·.accountId == account)).map fun r =>
          r.debitCents - r.creditCents).sum = accountNet M company d account) ∧
      ∀ d₁ d₂, d₁ ≤ d₂ →
        (balanceSheet M company d₂).retainedEarnings - (balanceSheet M company d₁).retainedEarnings =
          (pnlAccrual M company (d₁ + 1) d₂).netIncomeCents := by
  intro M
  have hinv : JournalInv H M := (run_inv ops (B := ⟨L, []⟩) (.of_empty (H := H) hempty hc)
    ⟨by simp [hempty], by simp⟩).1
  have hslots : ∀ d, weighted (fun _ => 1) (liveSlots M company none (some d)) = 0 := fun d => by
    rw [weighted_liveSlots hinv, sum_lineRows hinv]
  refine ⟨fun d => ⟨?_, ?_, ?_⟩, fun d => ⟨(trialBalance_totals M company d).1, (trialBalance_totals M company d).2,
    trialBalance_account hinv company d⟩, ?_⟩
  · rw [trialBalance, sum_snd_eq_weighted]
    exact hslots d
  · have h := debit_sub_credit (liveSlots M company none (some d))
    rw [sum_snd_eq_weighted, hslots d] at h
    exact sub_eq_zero.mp h
  · rw [balanceSheet, sections_cover]
    exact hslots d
  · intro d₁ d₂ hd
    rw [retainedEarnings_balanceSheet, retainedEarnings_balanceSheet, pnlAccrual, pnlSections, net_income_eq]
    simp only [retainedCents_eq, weighted_liveSlots hinv]
    rw [weighted_lineRows_split _ M company hd]
    ring

/-- The sale of day 10, reversed on day 12: income on the tenth, taken back by the twelfth. -/
theorem reports_prove_to_zero_sale :
    let M := ((Book.mk Ledger.seeded []).run plainHash
      [.post saleEvent false, .reverse 26 (some 12) none false]).ledger
    (balanceSheet M 0 10).retainedEarnings = 500 ∧ (10 : ℤ) ≤ 12 ∧
      (balanceSheet M 0 12).retainedEarnings - (balanceSheet M 0 10).retainedEarnings =
        (pnlAccrual M 0 (10 + 1) 12).netIncomeCents :=
  ⟨by decide +kernel, by decide,
    (reports_prove_to_zero plainHash Ledger.seeded rfl chartOk_seeded
      [.post saleEvent false, .reverse 26 (some 12) none false] 0).2.2 10 12 (by decide)⟩

end Gdx
