import Mathlib.Tactic.IntervalCases
import GdxDispatch.Banking.StatementMatching

/-! Whether a one-to-one suggestion is the only one there could be.

    Three business days are at most five days, so the padded window holds every record that fits a line of the range. Of
    the lines only some are compared: deposits of the padded window that do not look like a transfer, and the account's own
    debits of the range. So a suggestion is unique exactly where no line outside of these fits the record it pairs. -/

namespace Gdx.StatementMatching
open Lib PayPeriods

variable {py : TextRules} {db : Books} {account : ℕ} {dateFrom dateTo : ℤ} {line : StatementLine}

/-! ### Business days -/

theorem weekday_mod (day i : ℤ) : weekday (day + i) = weekday (day % 7 + i) := by
  unfold weekday
  omega

/-- Six days in a row have four working days at least. -/
theorem four_of_six (day : ℤ) : 4 ≤ (List.range 6).countP fun i : ℕ => decide (weekday (day + i + 1) < 5) := by
  have hmod : ∀ i : ℕ, weekday (day + i + 1) = weekday (day % 7 + i + 1) := by
    intro i
    rw [add_assoc, weekday_mod, ← add_assoc]
  simp only [hmod]
  have h0 : 0 ≤ day % 7 := Int.emod_nonneg _ (by decide)
  have h7 : day % 7 < 7 := Int.emod_lt_of_pos _ (by decide)
  generalize day % 7 = r at h0 h7
  interval_cases r <;> decide

/-- Three business days are at most five days. -/
theorem businessDaysApart_le {a b : ℤ} (h : businessDaysApart a b ≤ R2_BUSINESS_DAYS) : a - 5 ≤ b ∧ b ≤ a + 5 := by
  by_contra hfar
  have hlen : 6 ≤ (max a b - min a b).toNat := by omega
  have hsub : (List.range 6).Sublist (List.range (max a b - min a b).toNat) := List.range_sublist.mpr hlen
  have hcount := hsub.countP_le (p := fun i : ℕ => decide (weekday (min a b + i + 1) < 5))
  have hfour := four_of_six (min a b)
  unfold businessDaysApart R2_BUSINESS_DAYS at h
  omega

/-! ### The lines a run looks at -/

theorem mem_openLines : line ∈ openLines db account dateFrom dateTo ↔ line ∈ db.lines ∧ line.bankAccountId = account ∧
    inRange dateFrom dateTo line = true ∧ line.id ∉ matchedLineIds db := by
  simp only [openLines, List.mem_filter, (List.perm_insertionSort _ _).mem_iff, decide_eq_true_eq, Bool.and_eq_true, and_assoc]

theorem classify_of_moved (h : line.lineSection = .deposit ∨ line.lineSection = .debit ∨ line.lineSection = .check) :
    classify py line = none ↔ py.isTransfer line = false := by
  unfold classify
  rcases h with h | h | h <;> simp [h]

theorem mem_deposits : line ∈ deposits py db account dateFrom dateTo ↔ line ∈ db.lines ∧ line.lineSection = .deposit ∧
    line.bankAccountId = account ∧ inRange dateFrom dateTo line = true ∧ line.id ∉ matchedLineIds db ∧
    py.isTransfer line = false := by
  simp only [deposits, remaining, List.mem_filter, mem_openLines, decide_eq_true_eq]
  constructor
  · rintro ⟨⟨⟨hmem, hacct, hrange, hopen⟩, hclass⟩, hsec⟩
    exact ⟨hmem, hsec, hacct, hrange, hopen, (classify_of_moved (.inl hsec)).mp hclass⟩
  · rintro ⟨hmem, hsec, hacct, hrange, hopen, htransfer⟩
    exact ⟨⟨⟨hmem, hacct, hrange, hopen⟩, (classify_of_moved (.inl hsec)).mpr htransfer⟩, hsec⟩

theorem mem_debits : line ∈ debits py db account dateFrom dateTo ↔ line ∈ db.lines ∧
    (line.lineSection = .debit ∨ line.lineSection = .check) ∧ line.bankAccountId = account ∧
    inRange dateFrom dateTo line = true ∧ line.id ∉ matchedLineIds db ∧ py.isTransfer line = false := by
  simp only [debits, remaining, List.mem_filter, mem_openLines, decide_eq_true_eq, Bool.or_eq_true]
  constructor
  · rintro ⟨⟨⟨hmem, hacct, hrange, hopen⟩, hclass⟩, hsec⟩
    exact ⟨hmem, hsec, hacct, hrange, hopen, (classify_of_moved (.inr hsec)).mp hclass⟩
  · rintro ⟨hmem, hsec, hacct, hrange, hopen, htransfer⟩
    exact ⟨⟨⟨hmem, hacct, hrange, hopen⟩, (classify_of_moved (.inr hsec)).mpr htransfer⟩, hsec⟩

theorem mem_competitorDeposits : line ∈ competitorDeposits py db dateFrom dateTo ↔ line ∈ db.lines ∧
    line.lineSection = .deposit ∧ inWindow dateFrom dateTo line.txnDate = true ∧ line.id ∉ matchedLineIds db ∧
    py.isTransfer line = false := by
  simp only [competitorDeposits, List.mem_filter, decide_eq_true_eq, Bool.and_eq_true, Bool.not_eq_true', and_assoc]

/-- What is at most five days from a day of the range is in the padded window. -/
theorem inWindow_of_near {day : ℤ} (hrange : inRange dateFrom dateTo line = true)
    (hnear : day - 5 ≤ line.txnDate ∧ line.txnDate ≤ day + 5) : inWindow dateFrom dateTo day = true := by
  simp only [inRange, inWindow, Bool.and_eq_true, decide_eq_true_eq] at hrange ⊢
  unfold R3_WINDOW_BACK_DAYS
  omega

/-- Two lines of a list of one id are of one id. -/
theorem same_of_alone {ids : List ℕ} {i j : ℕ} (h : ids.length = 1) (hi : i ∈ ids) (hj : j ∈ ids) : i = j := by
  obtain ⟨k, rfl⟩ := List.length_eq_one_iff.mp h
  rw [List.mem_singleton.mp hi, List.mem_singleton.mp hj]

/-! ### Suggested pairs -/

/-- The line and the payment are one another's only candidate of those compared, and were not rejected. -/
structure PairsDeposit (py : TextRules) (db : Books) (account : ℕ) (dateFrom dateTo : ℤ) (line : StatementLine) (p : Payment) :
    Prop where
  line_mem : line ∈ deposits py db account dateFrom dateTo
  candidates : r2Candidates py db dateFrom dateTo line = [p]
  alone : (paymentToLines py db dateFrom dateTo p).length = 1
  fresh : rejectedBefore db account [line.id] [(.payments, p.id)] = false

structure PairsExpense (py : TextRules) (db : Books) (account : ℕ) (dateFrom dateTo : ℤ) (line : StatementLine) (e : Expense) :
    Prop where
  line_mem : line ∈ debits py db account dateFrom dateTo
  candidates : expenseHits db dateFrom dateTo line = [e]
  alone : (expenseToLines py db account dateFrom dateTo e).length = 1
  fresh : rejectedBefore db account [line.id] [(.expenses, e.id)] = false

structure PairsVendor (py : TextRules) (db : Books) (account : ℕ) (dateFrom dateTo : ℤ) (line : StatementLine)
    (v : VendorInvoice) : Prop where
  line_mem : line ∈ debits py db account dateFrom dateTo
  no_expense : ∀ e, ¬ PairsExpense py db account dateFrom dateTo line e
  candidates : vendorHits db line = [v]
  alone : (vendorToLines py db account dateFrom dateTo v).length = 1
  fresh : rejectedBefore db account [line.id] [(.vendorInvoices, v.id)] = false

theorem mem_depositPairs {p : Payment} :
    (line, p) ∈ depositPairs py db account dateFrom dateTo ↔ PairsDeposit py db account dateFrom dateTo line p := by
  constructor
  · intro h
    obtain ⟨l, hl, hpair⟩ := List.mem_filterMap.mp h
    obtain ⟨q, hq, heq⟩ := Option.map_eq_some_iff.mp hpair
    cases heq
    unfold r2Deposit at hq
    split at hq
    · rename_i hcand
      split_ifs at hq with halone
      cases hq
      exact ⟨hl, hcand, halone.1, halone.2⟩
    · cases hq
  · rintro ⟨hl, hcand, halone, hfresh⟩
    refine List.mem_filterMap.mpr ⟨line, hl, ?_⟩
    simp [r2Deposit, hcand, halone, hfresh]

theorem r2Expense_eq_some {e : Expense} (hline : line ∈ debits py db account dateFrom dateTo) :
    r2Expense py db account dateFrom dateTo line = some e ↔ PairsExpense py db account dateFrom dateTo line e := by
  constructor
  · intro h
    unfold r2Expense at h
    split at h
    · rename_i hcand
      split_ifs at h with halone
      cases h
      exact ⟨hline, hcand, halone.1, halone.2⟩
    · cases h
  · rintro ⟨-, hcand, halone, hfresh⟩
    simp [r2Expense, hcand, halone, hfresh]

theorem r2Vendor_eq_some {v : VendorInvoice} (hline : line ∈ debits py db account dateFrom dateTo) :
    r2Vendor py db account dateFrom dateTo line = some v ↔ PairsVendor py db account dateFrom dateTo line v := by
  constructor
  · intro h
    unfold r2Vendor at h
    split_ifs at h with hexpense
    split at h
    · rename_i hcand
      split_ifs at h with halone
      cases h
      refine ⟨hline, fun e he => hexpense ?_, hcand, halone.1, halone.2⟩
      rw [(r2Expense_eq_some hline).mpr he]
      rfl
    · cases h
  · rintro ⟨-, hexpense, hcand, halone, hfresh⟩
    have hnone : r2Expense py db account dateFrom dateTo line = none :=
      Option.eq_none_iff_forall_ne_some.mpr fun e he => hexpense e ((r2Expense_eq_some hline).mp he)
    simp [r2Vendor, hnone, hcand, halone, hfresh]

/-! ### Uniqueness -/

/-- No other open record fits the line, and no other open line of the direction fits the record. -/
structure OneToOne (py : TextRules) (db : Books) (s : Suggestions) : Prop where
  payments : ∀ pair ∈ s.deposits, ∀ p ∈ db.payments, p.id ≠ pair.2.id → p.voided = false →
    (.payments, p.id) ∉ usedExternals db → py.methodName p ∉ PROCESSOR_METHODS → fitsDeposit p pair.1 = false
  deposits : ∀ pair ∈ s.deposits, ∀ l ∈ db.lines, l.id ≠ pair.1.id → l.lineSection = .deposit → l.id ∉ matchedLineIds db →
    fitsDeposit pair.2 l = false
  expenses : ∀ pair ∈ s.expenses, ∀ e ∈ db.expenses, e.id ≠ pair.2.id → e.deleted = false →
    (.expenses, e.id) ∉ usedExternals db → fitsExpense e pair.1 = false
  expenseDebits : ∀ pair ∈ s.expenses, ∀ l ∈ db.lines, l.id ≠ pair.1.id → l.lineSection = .debit ∨ l.lineSection = .check →
    l.id ∉ matchedLineIds db → fitsExpense pair.2 l = false
  vendorInvoices : ∀ pair ∈ s.vendorInvoices, ∀ v ∈ db.vendorInvoices, v.id ≠ pair.2.id → v.isOpen = true →
    (.vendorInvoices, v.id) ∉ usedExternals db → fitsVendor v pair.1 = false
  vendorDebits : ∀ pair ∈ s.vendorInvoices, ∀ l ∈ db.lines, l.id ≠ pair.1.id →
    l.lineSection = .debit ∨ l.lineSection = .check → l.id ∉ matchedLineIds db → fitsVendor pair.2 l = false

/-- A deposit that is not compared: outside the padded window, or one that looks like a transfer. -/
def UnseenDeposit (py : TextRules) (dateFrom dateTo : ℤ) (rival : StatementLine) : Prop :=
  inWindow dateFrom dateTo rival.txnDate = false ∨ py.isTransfer rival = true

/-- A debit that is not compared: of another account, outside the range, or one that looks like a transfer. -/
def UnseenDebit (py : TextRules) (account : ℕ) (dateFrom dateTo : ℤ) (rival : StatementLine) : Prop :=
  rival.bankAccountId ≠ account ∨ inRange dateFrom dateTo rival = false ∨ py.isTransfer rival = true

/-- No open line that is not compared fits a record that is alone with its line among what is compared. -/
structure NoUnseenRival (py : TextRules) (db : Books) (account : ℕ) (dateFrom dateTo : ℤ) : Prop where
  deposits : ∀ line p, PairsDeposit py db account dateFrom dateTo line p → ∀ rival ∈ db.lines, rival.id ≠ line.id →
    rival.lineSection = .deposit → rival.id ∉ matchedLineIds db → UnseenDeposit py dateFrom dateTo rival →
    fitsDeposit p rival = false
  expenses : ∀ line e, PairsExpense py db account dateFrom dateTo line e → ∀ rival ∈ db.lines, rival.id ≠ line.id →
    rival.lineSection = .debit ∨ rival.lineSection = .check → rival.id ∉ matchedLineIds db →
    UnseenDebit py account dateFrom dateTo rival → fitsExpense e rival = false
  vendorInvoices : ∀ line v, PairsVendor py db account dateFrom dateTo line v → ∀ rival ∈ db.lines, rival.id ≠ line.id →
    rival.lineSection = .debit ∨ rival.lineSection = .check → rival.id ∉ matchedLineIds db →
    UnseenDebit py account dateFrom dateTo rival → fitsVendor v rival = false

/-- The window holds every payment that fits the line. -/
theorem PairsDeposit.no_other_payment {p q : Payment} (h : PairsDeposit py db account dateFrom dateTo line p)
    (hq : q ∈ db.payments) (hne : q.id ≠ p.id) (hvoid : q.voided = false) (hfree : (.payments, q.id) ∉ usedExternals db)
    (hmethod : py.methodName q ∉ PROCESSOR_METHODS) : fitsDeposit q line = false := by
  by_contra hfits
  rw [Bool.not_eq_false] at hfits
  have hnear := businessDaysApart_le (of_decide_eq_true ((Bool.and_eq_true _ _).mp hfits).2)
  have hwindow := inWindow_of_near (mem_deposits.mp h.line_mem).2.2.2.1 (by omega : q.paymentDate - 5 ≤ _ ∧ _)
  have hmem : q ∈ r2Candidates py db dateFrom dateTo line := by
    simp only [r2Candidates, payments, List.mem_filter, Bool.and_eq_true, Bool.not_eq_true', decide_eq_true_eq]
    exact ⟨⟨hq, ⟨hvoid, hwindow⟩, hfree⟩, hmethod, hfits⟩
  rw [h.candidates, List.mem_singleton] at hmem
  exact hne (congrArg Payment.id hmem)

theorem PairsExpense.no_other_expense {e x : Expense} (h : PairsExpense py db account dateFrom dateTo line e)
    (hx : x ∈ db.expenses) (hne : x.id ≠ e.id) (hlive : x.deleted = false) (hfree : (.expenses, x.id) ∉ usedExternals db) :
    fitsExpense x line = false := by
  by_contra hfits
  rw [Bool.not_eq_false] at hfits
  have hnear := businessDaysApart_le (of_decide_eq_true ((Bool.and_eq_true _ _).mp hfits).2)
  have hwindow := inWindow_of_near (mem_debits.mp h.line_mem).2.2.2.1 (by omega : x.date - 5 ≤ _ ∧ _)
  have hmem : x ∈ expenseHits db dateFrom dateTo line := by
    simp only [expenseHits, expensePool, List.mem_filter, Bool.and_eq_true, Bool.not_eq_true', decide_eq_true_eq]
    exact ⟨⟨hx, ⟨hlive, hwindow⟩, hfree⟩, hfits⟩
  rw [h.candidates, List.mem_singleton] at hmem
  exact hne (congrArg Expense.id hmem)

theorem PairsVendor.no_other_bill {v x : VendorInvoice} (h : PairsVendor py db account dateFrom dateTo line v)
    (hx : x ∈ db.vendorInvoices) (hne : x.id ≠ v.id) (hopen : x.isOpen = true)
    (hfree : (.vendorInvoices, x.id) ∉ usedExternals db) : fitsVendor x line = false := by
  by_contra hfits
  rw [Bool.not_eq_false] at hfits
  have hdate : x.invoiceDate.isSome = true := by
    cases hday : x.invoiceDate with
    | none => simp [fitsVendor, hday] at hfits
    | some day => rfl
  have hmem : x ∈ vendorHits db line := by
    simp only [vendorHits, vendorPool, List.mem_filter, Bool.and_eq_true, decide_eq_true_eq]
    exact ⟨⟨hx, ⟨hopen, hfree⟩, hdate⟩, hfits⟩
  rw [h.candidates, List.mem_singleton] at hmem
  exact hne (congrArg VendorInvoice.id hmem)

/-- A rival of a deposit's payment is not among the deposits compared. -/
theorem PairsDeposit.rival_unseen {p : Payment} (h : PairsDeposit py db account dateFrom dateTo line p)
    {rival : StatementLine} (hmem : rival ∈ db.lines) (hne : rival.id ≠ line.id) (hsec : rival.lineSection = .deposit)
    (hopen : rival.id ∉ matchedLineIds db) (hfits : fitsDeposit p rival = true) : UnseenDeposit py dateFrom dateTo rival := by
  by_contra hseen
  simp only [UnseenDeposit, not_or, Bool.not_eq_false, Bool.not_eq_true] at hseen
  have hp : p ∈ r2Candidates py db dateFrom dateTo line := by
    rw [h.candidates]
    exact List.mem_cons_self
  have hfitsLine : fitsDeposit p line = true := ((Bool.and_eq_true _ _).mp (List.mem_filter.mp hp).2).2
  obtain ⟨hline, hlineSec, -, hrange, hlineOpen, htransfer⟩ := mem_deposits.mp h.line_mem
  have hwindow : inWindow dateFrom dateTo line.txnDate = true := inWindow_of_near hrange (by omega)
  have hin : ∀ l, l ∈ competitorDeposits py db dateFrom dateTo → fitsDeposit p l = true →
      l.id ∈ paymentToLines py db dateFrom dateTo p :=
    fun l hl hlfits => List.mem_map.mpr ⟨l, List.mem_filter.mpr ⟨hl, hlfits⟩, rfl⟩
  refine hne (same_of_alone h.alone (hin rival ?_ hfits) (hin line ?_ hfitsLine))
  · exact mem_competitorDeposits.mpr ⟨hmem, hsec, hseen.1, hopen, hseen.2⟩
  · exact mem_competitorDeposits.mpr ⟨hline, hlineSec, hwindow, hlineOpen, htransfer⟩

/-- A rival of a debit's record is not among the debits compared. -/
theorem debit_rival_unseen {fits : StatementLine → Bool} (hline : line ∈ debits py db account dateFrom dateTo)
    (hfitsLine : fits line = true)
    (halone : (((debits py db account dateFrom dateTo).filter fits).map StatementLine.id).length = 1)
    {rival : StatementLine} (hmem : rival ∈ db.lines) (hne : rival.id ≠ line.id)
    (hsec : rival.lineSection = .debit ∨ rival.lineSection = .check) (hopen : rival.id ∉ matchedLineIds db)
    (hfits : fits rival = true) : UnseenDebit py account dateFrom dateTo rival := by
  by_contra hseen
  simp only [UnseenDebit, not_or, not_not, Bool.not_eq_false, Bool.not_eq_true] at hseen
  have hin : ∀ l, l ∈ debits py db account dateFrom dateTo → fits l = true →
      l.id ∈ ((debits py db account dateFrom dateTo).filter fits).map StatementLine.id :=
    fun l hl hlfits => List.mem_map.mpr ⟨l, List.mem_filter.mpr ⟨hl, hlfits⟩, rfl⟩
  refine hne (same_of_alone halone (hin rival ?_ hfits) (hin line hline hfitsLine))
  exact mem_debits.mpr ⟨hmem, hsec, hseen.1, hseen.2.1, hopen, hseen.2.2⟩

theorem PairsExpense.fits {e : Expense} (h : PairsExpense py db account dateFrom dateTo line e) : fitsExpense e line = true := by
  have he : e ∈ expenseHits db dateFrom dateTo line := by
    rw [h.candidates]
    exact List.mem_cons_self
  exact (List.mem_filter.mp he).2

theorem PairsVendor.fits {v : VendorInvoice} (h : PairsVendor py db account dateFrom dateTo line v) :
    fitsVendor v line = true := by
  have hv : v ∈ vendorHits db line := by
    rw [h.candidates]
    exact List.mem_cons_self
  exact (List.mem_filter.mp hv).2

theorem mem_expensePairs {e : Expense} : (line, e) ∈ (suggestions py db account dateFrom dateTo).expenses ↔
    PairsExpense py db account dateFrom dateTo line e := by
  constructor
  · intro h
    obtain ⟨l, hl, hpair⟩ := List.mem_filterMap.mp h
    obtain ⟨x, hx, heq⟩ := Option.map_eq_some_iff.mp hpair
    cases heq
    exact (r2Expense_eq_some hl).mp hx
  · intro h
    exact List.mem_filterMap.mpr ⟨line, h.line_mem, by rw [(r2Expense_eq_some h.line_mem).mpr h]; rfl⟩

theorem mem_vendorPairs {v : VendorInvoice} : (line, v) ∈ (suggestions py db account dateFrom dateTo).vendorInvoices ↔
    PairsVendor py db account dateFrom dateTo line v := by
  constructor
  · intro h
    obtain ⟨l, hl, hpair⟩ := List.mem_filterMap.mp h
    obtain ⟨x, hx, heq⟩ := Option.map_eq_some_iff.mp hpair
    cases heq
    exact (r2Vendor_eq_some hl).mp hx
  · intro h
    exact List.mem_filterMap.mpr ⟨line, h.line_mem, by rw [(r2Vendor_eq_some h.line_mem).mpr h]; rfl⟩

/-- One-to-one suggestions are unique exactly where no line that is not compared fits a record they pair. -/
theorem one_to_one_iff (py : TextRules) (db : Books) (account : ℕ) (dateFrom dateTo : ℤ) :
    OneToOne py (wiped db account dateFrom dateTo) (suggestMatches py db account dateFrom dateTo).2 ↔
      NoUnseenRival py (wiped db account dateFrom dateTo) account dateFrom dateTo := by
  change OneToOne py _ (suggestions py (wiped db account dateFrom dateTo) account dateFrom dateTo) ↔ _
  generalize wiped db account dateFrom dateTo = db
  constructor
  · intro h
    refine ⟨fun line p hpair rival hmem hne hsec hopen _ => ?_, fun line e hpair rival hmem hne hsec hopen _ => ?_,
      fun line v hpair rival hmem hne hsec hopen _ => ?_⟩
    · exact h.deposits (line, p) (mem_depositPairs.mpr hpair) rival hmem hne hsec hopen
    · exact h.expenseDebits (line, e) (mem_expensePairs.mpr hpair) rival hmem hne hsec hopen
    · exact h.vendorDebits (line, v) (mem_vendorPairs.mpr hpair) rival hmem hne hsec hopen
  · intro h
    constructor
    · rintro ⟨line, p⟩ hpair q hq hne hvoid hfree hmethod
      exact (mem_depositPairs.mp hpair).no_other_payment hq hne hvoid hfree hmethod
    · rintro ⟨line, p⟩ hpair l hl hne hsec hopen
      have hpair := mem_depositPairs.mp hpair
      by_contra hfits
      rw [Bool.not_eq_false] at hfits
      have hunseen := hpair.rival_unseen hl hne hsec hopen hfits
      rw [h.deposits line p hpair l hl hne hsec hopen hunseen] at hfits
      cases hfits
    · rintro ⟨line, e⟩ hpair x hx hne hlive hfree
      exact (mem_expensePairs.mp hpair).no_other_expense hx hne hlive hfree
    · rintro ⟨line, e⟩ hpair l hl hne hsec hopen
      have hpair := mem_expensePairs.mp hpair
      by_contra hfits
      rw [Bool.not_eq_false] at hfits
      have hunseen := debit_rival_unseen hpair.line_mem hpair.fits hpair.alone hl hne hsec hopen hfits
      rw [h.expenses line e hpair l hl hne hsec hopen hunseen] at hfits
      cases hfits
    · rintro ⟨line, v⟩ hpair x hx hne hisOpen hfree
      exact (mem_vendorPairs.mp hpair).no_other_bill hx hne hisOpen hfree
    · rintro ⟨line, v⟩ hpair l hl hne hsec hopen
      have hpair := mem_vendorPairs.mp hpair
      by_contra hfits
      rw [Bool.not_eq_false] at hfits
      have hunseen := debit_rival_unseen hpair.line_mem hpair.fits hpair.alone hl hne hsec hopen hfits
      rw [h.vendorInvoices line v hpair l hl hne hsec hopen hunseen] at hfits
      cases hfits

/-! ### A rival out of sight -/

/-- A Python whose letters are only alike to themselves. -/
def plainText : TextRules := ⟨id, (· = ' '), (· = ·), Char.isDigit⟩

/-- A deposit of Wednesday, a payment of the Monday after, and a deposit of the Thursday after that. -/
def lateRival : Books where
  lines := [⟨1, 1, 20460, 5000, "DEPOSIT".toList, .deposit⟩, ⟨2, 1, 20468, 5000, "DEPOSIT".toList, .deposit⟩]
  payments := [⟨7, some "check".toList, 5000, 20465, false⟩]
  expenses := []
  vendorInvoices := []
  bankMatches := []

/-- The run over Wednesday pairs the payment with Wednesday's deposit, though Thursday's fits it as well. -/
theorem deposit_pair_not_unique :
    ¬ ∀ (py : TextRules) (db : Books) (account : ℕ) (dateFrom dateTo : ℤ),
      OneToOne py (wiped db account dateFrom dateTo) (suggestMatches py db account dateFrom dateTo).2 := by
  intro h
  have hpair : (⟨1, 1, 20460, 5000, "DEPOSIT".toList, .deposit⟩, ⟨7, some "check".toList, 5000, 20465, false⟩) ∈
      (suggestMatches plainText lateRival 1 20460 20460).2.deposits := by decide +kernel
  have hfits := (h plainText lateRival 1 20460 20460).deposits _ hpair ⟨2, 1, 20468, 5000, "DEPOSIT".toList, .deposit⟩
    (by decide) (by decide) rfl (by decide)
  revert hfits
  decide +kernel

end Gdx.StatementMatching
