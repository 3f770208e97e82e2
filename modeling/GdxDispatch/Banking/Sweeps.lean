import GdxDispatch.Banking.OneToOne

/-! What a deposit sweep takes, and what the order of the tables decides.

    A sweep takes the only set of two to six payments that adds up to the deposit, of those that are free when the deposit's
    turn comes. The order of the payments is then of no account, and that of the lines only in as far as it is the order in
    which the deposits left by the one-to-one rung have their turns. -/

namespace Gdx.StatementMatching
open Lib

variable {py : TextRules} {db db' : Books} {account : ℕ} {dateFrom dateTo : ℤ} {line : StatementLine}
  {pool pool' : List Payment} {swept swept' : List ℕ}

/-! ### One sweep -/

/-- What a sweep found: a set of candidates that adds up to the deposit, and no other does. -/
structure Swept (candidates : List Payment) (line : StatementLine) (combo : List Payment) : Prop where
  sub : combo.Sublist candidates
  size : 2 ≤ combo.length ∧ combo.length ≤ R3_MAX_SUBSET
  sum : (combo.map Payment.amount).sum = line.amountCents
  only : ∀ other : List Payment, other.Nodup → other ⊆ candidates → 2 ≤ other.length → other.length ≤ R3_MAX_SUBSET →
    (other.map Payment.amount).sum = line.amountCents → other.Perm combo

theorem sum_perm {target : ℤ} (s t : List Payment) (h : s.Perm t) :
    decide ((s.map Payment.amount).sum = target) = decide ((t.map Payment.amount).sum = target) := by
  rw [(h.map Payment.amount).sum_eq]

theorem mem_hits {candidates combo : List Payment} {target : ℤ} : combo ∈ hits candidates target ↔
    combo.Sublist candidates ∧ 2 ≤ combo.length ∧ combo.length ≤ R3_MAX_SUBSET ∧
      (combo.map Payment.amount).sum = target := by
  rw [hits, mem_chosen, List.mem_range'_1, decide_eq_true_eq]
  constructor
  · rintro ⟨hsub, hsize, hsum⟩
    exact ⟨hsub, hsize.1, by omega, hsum⟩
  · rintro ⟨hsub, hlo, hhi, hsum⟩
    have := hsub.length_le
    exact ⟨hsub, by omega, hsum⟩

theorem sweepLine_swept {combo : List Payment} (h : sweepLine db account pool swept line = some combo) :
    Swept (sweepCandidates pool swept line) line combo := by
  unfold sweepLine at h
  simp only at h
  split_ifs at h
  split at h
  · rename_i hhits
    split_ifs at h
    cases h
    obtain ⟨hsub, hlo, hhi, hsum⟩ := mem_hits.mp (hhits ▸ List.mem_cons_self : combo ∈ hits _ _)
    refine ⟨hsub, ⟨hlo, hhi⟩, hsum, fun other hnodup hin hlo' hhi' hsum' => ?_⟩
    obtain ⟨other', hperm, hsub'⟩ := List.subperm_of_subset hnodup hin
    have hmem : other' ∈ hits (sweepCandidates pool swept line) line.amountCents := by
      refine mem_hits.mpr ⟨hsub', ?_, ?_, ?_⟩
      · rwa [hperm.length_eq]
      · rwa [hperm.length_eq]
      · rwa [(hperm.map Payment.amount).sum_eq]
    rw [hhits, List.mem_singleton] at hmem
    rw [← hmem]
    exact hperm.symm
  · cases h

/-- Each sweep of a run is of what the sweeps before it have left. -/
theorem sweepLines_split {lines : List StatementLine} {before after : List (StatementLine × List Payment)}
    {combo : List Payment} (h : sweepLines db account pool swept lines = before ++ (line, combo) :: after) :
    sweepLine db account pool (swept ++ before.flatMap fun sweep => sweep.2.map Payment.id) line = some combo := by
  induction lines generalizing swept before with
  | nil => simp [sweepLines] at h
  | cons first lines ih =>
    unfold sweepLines at h
    split at h
    · rename_i taken htaken
      cases before with
      | nil =>
        obtain ⟨hhead, -⟩ := List.cons.inj h
        cases hhead
        simpa using htaken
      | cons sweep before =>
        obtain ⟨hhead, htail⟩ := List.cons.inj h
        subst hhead
        have := ih htail
        rwa [List.append_assoc] at this
    · exact ih h

/-- A payment that a sweep may take: live, in no match, of no excluded method, and in the deposit's window. -/
structure Sweepable (py : TextRules) (db : Books) (line : StatementLine) (p : Payment) : Prop where
  mem : p ∈ db.payments
  live : p.voided = false
  free : (.payments, p.id) ∉ usedExternals db
  method : py.methodName p ∉ R3_EXCLUDED_METHODS
  after : line.txnDate - R3_WINDOW_BACK_DAYS ≤ p.paymentDate
  before : p.paymentDate ≤ line.txnDate + R3_WINDOW_FWD_DAYS

/-- In the range, the window of a deposit lies in the padded window. -/
theorem mem_sweepCandidates {p : Payment} (hrange : inRange dateFrom dateTo line = true) :
    p ∈ sweepCandidates (sweepPool py db account dateFrom dateTo) swept line ↔ Sweepable py db line p ∧
      p.id ∉ (depositPairs py db account dateFrom dateTo).map (·.2.id) ∧ p.id ∉ swept := by
  have hwindow : line.txnDate - R3_WINDOW_BACK_DAYS ≤ p.paymentDate → p.paymentDate ≤ line.txnDate + R3_WINDOW_FWD_DAYS →
      inWindow dateFrom dateTo p.paymentDate = true := by
    intro hlo hhi
    simp only [inRange, inWindow, Bool.and_eq_true, decide_eq_true_eq] at hrange ⊢
    unfold R3_WINDOW_BACK_DAYS R3_WINDOW_FWD_DAYS at *
    omega
  simp only [sweepCandidates, sweepPool, payments, List.mem_filter, Bool.and_eq_true, Bool.not_eq_true', decide_eq_true_eq]
  constructor
  · rintro ⟨⟨⟨hmem, ⟨hlive, -⟩, hfree⟩, hpair, hmethod⟩, ⟨hswept, hlo⟩, hhi⟩
    exact ⟨⟨hmem, hlive, hfree, hmethod, hlo, hhi⟩, hpair, hswept⟩
  · rintro ⟨⟨hmem, hlive, hfree, hmethod, hlo, hhi⟩, hpair, hswept⟩
    exact ⟨⟨⟨hmem, ⟨hlive, hwindow hlo hhi⟩, hfree⟩, hpair, hmethod⟩, ⟨hswept, hlo⟩, hhi⟩

/-! ### The order of the tables -/

/-- The same tables, with the payments and the lines in another order. -/
structure Reordered (db db' : Books) : Prop where
  lines : db.lines.Perm db'.lines
  payments : db.payments.Perm db'.payments
  expenses : db.expenses = db'.expenses
  vendorInvoices : db.vendorInvoices = db'.vendorInvoices
  bankMatches : db.bankMatches = db'.bankMatches

theorem any_perm {α : Type} {p : α → Bool} {xs ys : List α} (h : xs.Perm ys) : xs.any p = ys.any p := by
  rw [Bool.eq_iff_iff, List.any_eq_true, List.any_eq_true]
  simp only [h.mem_iff]

theorem all_perm {α : Type} {p : α → Bool} {xs ys : List α} (h : xs.Perm ys) : xs.all p = ys.all p := by
  rw [Bool.eq_iff_iff, List.all_eq_true, List.all_eq_true]
  simp only [h.mem_iff]

/-- The wipe finds the same suggestions. -/
theorem Reordered.wiped (h : Reordered db db') (account : ℕ) (dateFrom dateTo : ℤ) :
    Reordered (wiped db account dateFrom dateTo) (wiped db' account dateFrom dateTo) := by
  refine ⟨h.lines, h.payments, h.expenses, h.vendorInvoices, ?_⟩
  unfold StatementMatching.wiped touchesRange
  simp only [h.bankMatches, any_perm h.lines]

section Order
variable (h : Reordered db db')
include h

theorem Reordered.matchedLineIds : matchedLineIds db = matchedLineIds db' := by
  rw [StatementMatching.matchedLineIds, StatementMatching.matchedLineIds, h.bankMatches]

theorem Reordered.usedExternals : usedExternals db = usedExternals db' := by
  rw [StatementMatching.usedExternals, StatementMatching.usedExternals, h.bankMatches]

theorem Reordered.rejectedBefore (lines : List ℕ) (externals : List (SourceTable × ℕ)) :
    rejectedBefore db account lines externals = rejectedBefore db' account lines externals := by
  rw [StatementMatching.rejectedBefore, StatementMatching.rejectedBefore, h.bankMatches]

theorem Reordered.openLines : (openLines db account dateFrom dateTo).Perm (openLines db' account dateFrom dateTo) := by
  unfold StatementMatching.openLines
  rw [h.matchedLineIds]
  refine List.Perm.filter _ ?_
  exact ((List.perm_insertionSort _ _).trans (h.lines.filter _)).trans (List.perm_insertionSort _ _).symm

theorem Reordered.classified :
    (classified py db account dateFrom dateTo).Perm (classified py db' account dateFrom dateTo) := by
  unfold StatementMatching.classified
  simp only [h.rejectedBefore]
  exact h.openLines.filterMap _

theorem Reordered.deposits : (deposits py db account dateFrom dateTo).Perm (deposits py db' account dateFrom dateTo) :=
  (h.openLines.filter _).filter _

theorem Reordered.debits : (debits py db account dateFrom dateTo).Perm (debits py db' account dateFrom dateTo) :=
  (h.openLines.filter _).filter _

theorem Reordered.livePayments :
    (StatementMatching.payments db dateFrom dateTo).Perm (StatementMatching.payments db' dateFrom dateTo) := by
  unfold StatementMatching.payments
  rw [h.usedExternals]
  exact h.payments.filter _

theorem Reordered.paymentToLines (p : Payment) :
    (paymentToLines py db dateFrom dateTo p).length = (paymentToLines py db' dateFrom dateTo p).length := by
  unfold StatementMatching.paymentToLines competitorDeposits
  rw [h.matchedLineIds]
  exact (((h.lines.filter _).filter _).map _).length_eq

/-- A deposit is paired alike: the order of one candidate is its own. -/
theorem Reordered.r2Deposit (line : StatementLine) :
    r2Deposit py db account dateFrom dateTo line = r2Deposit py db' account dateFrom dateTo line := by
  have hcand : (r2Candidates py db dateFrom dateTo line).Perm (r2Candidates py db' dateFrom dateTo line) := h.livePayments.filter _
  unfold StatementMatching.r2Deposit
  simp only [h.paymentToLines, h.rejectedBefore]
  generalize r2Candidates py db dateFrom dateTo line = xs at hcand
  generalize r2Candidates py db' dateFrom dateTo line = ys at hcand
  cases xs with
  | nil => rw [List.nil_perm.mp hcand]
  | cons x xs =>
    cases xs with
    | nil => rw [List.singleton_perm.mp hcand]
    | cons x' xs =>
      cases ys with
      | nil => exact absurd hcand.length_eq (by simp)
      | cons y ys =>
        cases ys with
        | nil => exact absurd hcand.length_eq (by simp)
        | cons y' ys => rfl

theorem Reordered.depositPairs :
    (depositPairs py db account dateFrom dateTo).Perm (depositPairs py db' account dateFrom dateTo) := by
  unfold StatementMatching.depositPairs
  simp only [h.r2Deposit]
  exact h.deposits.filterMap _

theorem Reordered.sweepPool :
    (sweepPool py db account dateFrom dateTo).Perm (sweepPool py db' account dateFrom dateTo) := by
  unfold StatementMatching.sweepPool
  have hids : ∀ id, id ∈ (StatementMatching.depositPairs py db account dateFrom dateTo).map (·.2.id) ↔
      id ∈ (StatementMatching.depositPairs py db' account dateFrom dateTo).map (·.2.id) :=
    fun id => (h.depositPairs.map _).mem_iff
  simp only [hids]
  exact h.livePayments.filter _

theorem Reordered.r2Expense (line : StatementLine) :
    r2Expense py db account dateFrom dateTo line = r2Expense py db' account dateFrom dateTo line := by
  have hhits : expenseHits db dateFrom dateTo line = expenseHits db' dateFrom dateTo line := by
    unfold expenseHits expensePool
    rw [h.expenses, h.usedExternals]
  have hlines : ∀ e, (expenseToLines py db account dateFrom dateTo e).length =
      (expenseToLines py db' account dateFrom dateTo e).length := fun e => ((h.debits.filter _).map _).length_eq
  unfold StatementMatching.r2Expense
  simp only [hhits, hlines, h.rejectedBefore]

theorem Reordered.r2Vendor (line : StatementLine) :
    r2Vendor py db account dateFrom dateTo line = r2Vendor py db' account dateFrom dateTo line := by
  have hhits : vendorHits db line = vendorHits db' line := by
    unfold vendorHits vendorPool
    rw [h.vendorInvoices, h.usedExternals]
  have hlines : ∀ v, (vendorToLines py db account dateFrom dateTo v).length =
      (vendorToLines py db' account dateFrom dateTo v).length := fun v => ((h.debits.filter _).map _).length_eq
  unfold StatementMatching.r2Vendor
  simp only [hhits, hlines, h.rejectedBefore, h.r2Expense]

end Order

theorem sameSet_perm {α : Type} [DecidableEq α] {xs ys zs : List α} (h : ys.Perm zs) : sameSet xs ys = sameSet xs zs := by
  unfold sameSet
  rw [all_perm h]
  simp only [h.mem_iff]

/-- The only set that adds up, of the candidates in another order. -/
theorem hits_perm {xs ys : List Payment} {target : ℤ} {combo : List Payment} (h : xs.Perm ys)
    (honly : hits xs target = [combo]) : ∃ combo', hits ys target = [combo'] ∧ combo'.Perm combo := by
  rw [hits] at honly
  rw [hits, ← h.length_eq]
  exact chosen_singleton sum_perm h honly

/-- A deposit is swept alike, up to the order of what it is swept with. -/
theorem Reordered.sweepLine (h : Reordered db db') (hpool : pool.Perm pool') (hswept : swept.Perm swept')
    (line : StatementLine) :
    Option.Rel List.Perm (sweepLine db account pool swept line) (sweepLine db' account pool' swept' line) := by
  have hcand : (sweepCandidates pool swept line).Perm (sweepCandidates pool' swept' line) := by
    unfold sweepCandidates
    simp only [hswept.mem_iff]
    exact hpool.filter _
  unfold StatementMatching.sweepLine
  generalize sweepCandidates pool swept line = xs at hcand
  generalize sweepCandidates pool' swept' line = ys at hcand
  have hempty : xs = [] ↔ ys = [] := by rw [← List.length_eq_zero_iff, hcand.length_eq, List.length_eq_zero_iff]
  simp only [hempty, hcand.length_eq]
  split_ifs
  · exact .none
  · by_cases hone : ∃ combo, hits xs line.amountCents = [combo]
    · obtain ⟨combo, hcombo⟩ := hone
      obtain ⟨combo', hcombo', hperm⟩ := hits_perm hcand hcombo
      have hrejected : StatementMatching.rejectedBefore db account [line.id] (combo.map fun p => (.payments, p.id)) =
          StatementMatching.rejectedBefore db' account [line.id] (combo'.map fun p => (.payments, p.id)) := by
        rw [h.rejectedBefore, StatementMatching.rejectedBefore, StatementMatching.rejectedBefore]
        simp only [sameSet_perm (hperm.map fun p : Payment => (SourceTable.payments, p.id))]
      simp only [hcombo, hcombo', hrejected]
      split_ifs
      · exact .none
      · exact .some hperm.symm
    · have hone' : ¬∃ combo, hits ys line.amountCents = [combo] := by
        rintro ⟨combo, hcombo⟩
        obtain ⟨combo', hcombo', -⟩ := hits_perm hcand.symm hcombo
        exact hone ⟨combo', hcombo'⟩
      split
      · rename_i combo hcombo
        exact absurd ⟨combo, hcombo⟩ hone
      · split
        · rename_i combo hcombo
          exact absurd ⟨combo, hcombo⟩ hone'
        · exact .none

/-- The same sweep, up to the order of what it takes. -/
def SameSweep (sweep sweep' : StatementLine × List Payment) : Prop := sweep.1 = sweep'.1 ∧ sweep.2.Perm sweep'.2

theorem same_sweeps {sweeps sweeps' : List (StatementLine × List Payment)} (h : List.Forall₂ SameSweep sweeps sweeps') :
    (sweeps.map fun sweep => (sweep.1, Multiset.ofList sweep.2)) =
      sweeps'.map fun sweep => (sweep.1, Multiset.ofList sweep.2) := by
  induction h with
  | nil => rfl
  | cons hsweep _ ih => rw [List.map_cons, List.map_cons, ih, hsweep.1, Multiset.coe_eq_coe.mpr hsweep.2]

/-- The deposits in the same order are swept alike. -/
theorem Reordered.sweepLines (h : Reordered db db') (hpool : pool.Perm pool') (hswept : swept.Perm swept')
    (lines : List StatementLine) :
    List.Forall₂ SameSweep (sweepLines db account pool swept lines) (sweepLines db' account pool' swept' lines) := by
  induction lines generalizing swept swept' with
  | nil => exact .nil
  | cons line lines ih =>
    unfold StatementMatching.sweepLines
    have hline : Option.Rel List.Perm (StatementMatching.sweepLine db account pool swept line)
        (StatementMatching.sweepLine db' account pool' swept' line) := h.sweepLine hpool hswept line
    cases hone : StatementMatching.sweepLine db account pool swept line <;>
      cases hother : StatementMatching.sweepLine db' account pool' swept' line <;> rw [hone, hother] at hline <;> cases hline
    · exact ih hswept
    · rename_i hperm
      exact .cons ⟨rfl, hperm⟩ (ih (hswept.append (hperm.map _)))

/-! ### A run -/

/-- The lines that are swept are of those that have their turn. -/
theorem sweepLines_mem {lines : List StatementLine} {sweep : StatementLine × List Payment}
    (h : sweep ∈ sweepLines db account pool swept lines) : sweep.1 ∈ lines := by
  induction lines generalizing swept with
  | nil => simp [sweepLines] at h
  | cons first lines ih =>
    unfold sweepLines at h
    split at h
    · obtain rfl | h := List.mem_cons.mp h
      · exact List.mem_cons_self
      · exact List.mem_cons_of_mem _ (ih h)
    · exact List.mem_cons_of_mem _ (ih h)

/-- No payment is swept twice. -/
theorem sweepLines_disjoint (lines : List StatementLine) :
    (sweepLines db account pool swept lines).Pairwise fun one other => ∀ p ∈ one.2, ∀ q ∈ other.2, p.id ≠ q.id := by
  induction lines generalizing swept with
  | nil => exact .nil
  | cons first lines ih =>
    unfold sweepLines
    split
    · rename_i combo hcombo
      refine .cons (fun sweep hsweep p hp q hq heq => ?_) ih
      obtain ⟨before, after, hsplit⟩ := List.append_of_mem hsweep
      have hq' := (sweepLine_swept (sweepLines_split hsplit)).sub.subset hq
      simp only [sweepCandidates, List.mem_filter, Bool.and_eq_true, decide_eq_true_eq, List.mem_append, not_or] at hq'
      exact hq'.2.1.1.1.2 (List.mem_map.mpr ⟨p, hp, heq⟩)
    · exact ih

section Suggested
variable (py db account dateFrom dateTo)

/-- What a deposit may be swept with when its turn comes: in no pair of the run, and not taken before. -/
def FreeFor (before : List (StatementLine × List Payment)) (line : StatementLine) (p : Payment) : Prop :=
  Sweepable py db line p ∧ p.id ∉ (depositPairs py db account dateFrom dateTo).map (·.2.id) ∧
    p.id ∉ before.flatMap fun sweep => sweep.2.map Payment.id

/-- The sweep takes the one set of two to six free payments that adds up to the deposit. -/
structure Unambiguous (before : List (StatementLine × List Payment)) (line : StatementLine) (combo : List Payment) :
    Prop where
  sum : (combo.map Payment.amount).sum = line.amountCents
  size : 2 ≤ combo.length ∧ combo.length ≤ R3_MAX_SUBSET
  free : ∀ p ∈ combo, FreeFor py db account dateFrom dateTo before line p
  only : ∀ other : List Payment, other.Nodup → (∀ p ∈ other, FreeFor py db account dateFrom dateTo before line p) →
    2 ≤ other.length → other.length ≤ R3_MAX_SUBSET → (other.map Payment.amount).sum = line.amountCents → other.Perm combo

end Suggested

/-- The same suggestions, in whatever order. -/
structure SameSuggestions (s s' : Suggestions) : Prop where
  classified : s.classified.Perm s'.classified
  deposits : s.deposits.Perm s'.deposits
  sweeps : (s.sweeps.map fun sweep => (sweep.1, Multiset.ofList sweep.2)).Perm
    (s'.sweeps.map fun sweep => (sweep.1, Multiset.ofList sweep.2))
  expenses : s.expenses.Perm s'.expenses
  vendorInvoices : s.vendorInvoices.Perm s'.vendorInvoices

theorem suggestions_unambiguous {before after : List (StatementLine × List Payment)} {combo : List Payment}
    (h : (suggestions py db account dateFrom dateTo).sweeps = before ++ (line, combo) :: after) :
    Unambiguous py db account dateFrom dateTo before line combo := by
  have hline : (line, combo) ∈ (suggestions py db account dateFrom dateTo).sweeps := by simp [h]
  have hrange : inRange dateFrom dateTo line = true := by
    have := sweepLines_mem hline
    simp only [stillOpenDeposits, deposits, remaining, openLines, List.mem_filter, List.mem_insertionSort, Bool.and_eq_true] at this
    exact this.1.1.1.1.2.2
  have hswept := sweepLine_swept (sweepLines_split h)
  simp only [List.nil_append] at hswept
  have hfree : ∀ p, p ∈ sweepCandidates (sweepPool py db account dateFrom dateTo)
      (before.flatMap fun sweep => sweep.2.map Payment.id) line ↔ FreeFor py db account dateFrom dateTo before line p :=
    fun p => mem_sweepCandidates hrange
  exact ⟨hswept.sum, hswept.size, fun p hp => (hfree p).mp (hswept.sub.subset hp),
    fun other hnodup hin => hswept.only other hnodup fun p hp => (hfree p).mpr (hin p hp)⟩

/-- The order of the tables decides nothing but the turns of the deposits that are left. -/
theorem Reordered.suggestions (h : Reordered db db')
    (hturns : stillOpenDeposits py db account dateFrom dateTo = stillOpenDeposits py db' account dateFrom dateTo) :
    SameSuggestions (suggestions py db account dateFrom dateTo) (suggestions py db' account dateFrom dateTo) where
  classified := h.classified
  deposits := h.depositPairs
  sweeps := by
    have hpool : (StatementMatching.sweepPool py db account dateFrom dateTo).Perm
        (StatementMatching.sweepPool py db' account dateFrom dateTo) := h.sweepPool
    have hsame : List.Forall₂ SameSweep _ (StatementMatching.sweepLines db' account _ [] _) :=
      h.sweepLines hpool (.refl []) (stillOpenDeposits py db account dateFrom dateTo)
    simp only [StatementMatching.suggestions, ← hturns]
    exact .of_eq (same_sweeps hsame)
  expenses := by
    simp only [StatementMatching.suggestions, h.r2Expense]
    exact h.debits.filterMap _
  vendorInvoices := by
    simp only [StatementMatching.suggestions, h.r2Vendor]
    exact h.debits.filterMap _

/-- A sweep is the only set of two to six free payments that adds up, no payment is swept twice, and the order of the tables
    decides nothing but the turns of the deposits that are left. -/
theorem sweeps_unambiguous (py : TextRules) (db : Books) (account : ℕ) (dateFrom dateTo : ℤ) :
    (∀ before line combo after,
      (suggestMatches py db account dateFrom dateTo).2.sweeps = before ++ (line, combo) :: after →
        Unambiguous py (wiped db account dateFrom dateTo) account dateFrom dateTo before line combo) ∧
    ((suggestMatches py db account dateFrom dateTo).2.sweeps.Pairwise fun one other =>
      ∀ p ∈ one.2, ∀ q ∈ other.2, p.id ≠ q.id) ∧
    ∀ db', Reordered db db' →
      stillOpenDeposits py (wiped db account dateFrom dateTo) account dateFrom dateTo =
        stillOpenDeposits py (wiped db' account dateFrom dateTo) account dateFrom dateTo →
      SameSuggestions (suggestMatches py db account dateFrom dateTo).2 (suggestMatches py db' account dateFrom dateTo).2 :=
  ⟨fun _ _ _ _ h => suggestions_unambiguous h, sweepLines_disjoint _,
    fun _ h hturns => (h.wiped account dateFrom dateTo).suggestions hturns⟩

/-- A deposit of 300 on a Wednesday, with payments of 100 and 200 of that day. -/
def slip : Books where
  lines := [⟨1, 1, 20460, 30000, "DEPOSIT".toList, .deposit⟩]
  payments := [⟨7, some "check".toList, 10000, 20460, false⟩, ⟨8, some "cash".toList, 20000, 20460, false⟩]
  expenses := []
  vendorInvoices := []
  bankMatches := []

/-- The slip is swept with both payments, and with nothing else. -/
theorem slip_unambiguous : Unambiguous plainText (wiped slip 1 20460 20460) 1 20460 20460 []
    ⟨1, 1, 20460, 30000, "DEPOSIT".toList, .deposit⟩ slip.payments :=
  (sweeps_unambiguous plainText slip 1 20460 20460).1 [] _ _ [] (by decide +kernel)

/-- A payment of 300 of the week before would do for the slip alone, and of two slips of one day the one that comes first
    takes the payments. -/
theorem sweep_single_and_turn :
    (¬ ∀ (py : TextRules) (db : Books) (account : ℕ) (dateFrom dateTo : ℤ) before line combo after,
      (suggestMatches py db account dateFrom dateTo).2.sweeps = before ++ (line, combo) :: after →
        ∀ other : List Payment, other.Nodup →
          (∀ p ∈ other, FreeFor py (wiped db account dateFrom dateTo) account dateFrom dateTo before line p) →
          1 ≤ other.length → other.length ≤ 6 → (other.map Payment.amount).sum = line.amountCents → other.Perm combo) ∧
    ¬ ∀ (py : TextRules) (db db' : Books) (account : ℕ) (dateFrom dateTo : ℤ), Reordered db db' →
      db.lines.map StatementLine.txnDate = db'.lines.map StatementLine.txnDate →
      SameSuggestions (suggestMatches py db account dateFrom dateTo).2
        (suggestMatches py db' account dateFrom dateTo).2 := by
  constructor
  · intro h
    let early : Payment := ⟨9, some "check".toList, 30000, 20453, false⟩
    have hother := h plainText { slip with payments := early :: slip.payments } 1 20460 20460 []
      ⟨1, 1, 20460, 30000, "DEPOSIT".toList, .deposit⟩ slip.payments [] (by decide +kernel) [early] (by decide)
      (fun p hp => by
        obtain rfl := List.mem_singleton.mp hp
        exact ⟨⟨List.mem_cons_self, rfl, by decide, by decide, by decide, by decide⟩, by decide +kernel, by simp⟩)
      (by decide) (by decide) (by decide)
    exact absurd hother.length_eq (by decide)
  · intro h
    let slips : List StatementLine :=
      [⟨1, 1, 20460, 30000, "DEPOSIT".toList, .deposit⟩, ⟨2, 1, 20460, 30000, "DEPOSIT".toList, .deposit⟩]
    have hsame := h plainText { slip with lines := slips } { slip with lines := slips.reverse } 1 20460 20460
      ⟨(List.reverse_perm _).symm, .refl _, rfl, rfl, rfl⟩ rfl
    have hlines := (hsame.sweeps.map Prod.fst).mem_iff (a := slips.get ⟨0, by decide⟩)
    revert hlines
    decide +kernel

end Gdx.StatementMatching
